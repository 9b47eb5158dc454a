import PackageStaging.Proofs.Catalog.Placeholder
import PackageStaging.Proofs.Text.Words
import PackageStaging.Proofs.World

namespace PackageStaging

open Text (IsBlank)

def World.answered (w : World) (sent : List Http.Request) : World :=
  { w with requests := w.requests ++ sent }

/-- A request is answered, for the URL that a text is read as, or there is a failure and none. -/
inductive Http.Attempt (text : String) :
    Except Http.TransportError Http.Response → List Http.Request → Prop
  | failed (e : Http.TransportError) : Attempt text (.error e) []
  | answered {u : Url} (response : Http.Response) (hread : Url.read text = .ok u) :
      Attempt text (.ok response) [⟨u, Http.agent⟩]

theorem Http.get_cases (w : World) (text : String) : ∃ outcome sent,
    w.perform (Http.get text) = (outcome, w.answered sent) ∧ Attempt text outcome sent := by
  have hnone : w.answered [] = w := by rw [World.answered, List.append_nil]
  unfold Http.get
  split
  · exact ⟨_, [], by rw [hnone]; rfl, .failed _⟩
  · rename_i u hread
    rw [World.perform_ite]
    split
    · rw [World.perform_bind, World.perform_lift]
      simp only [Http.Network.fetch]
      cases w.answer? u with
      | none => exact ⟨_, [], by rw [hnone]; rfl, .failed _⟩
      | some response => exact ⟨_, _, rfl, .answered response hread⟩
    · exact ⟨_, [], by rw [hnone]; rfl, .failed _⟩

namespace WebCatalog

variable {template name : String}

theorem validTemplate_of_malformed {fault : UrlFault} (h : Url.read template = .error fault) :
    validTemplate ⟨some template⟩ = .error (.badCatalogUrl template fault) := by
  simp only [validTemplate, h]
  rfl

theorem validTemplate_of_unplaced {u : Url} (hread : Url.read template = .ok u)
    (h : ¬ placeholder.toList <:+: template.toList) :
    validTemplate ⟨some template⟩ = .error (.noPlaceholder template) := by
  simp only [validTemplate, hread, splitFirst?_eq_none_iff.2 h]
  rfl

theorem validTemplate_of_placed {u : Url} (hread : Url.read template = .ok u)
    (h : placeholder.toList <:+: template.toList) :
    validTemplate ⟨some template⟩ = .ok (some template) := by
  cases hsplit : splitFirst? placeholder.toList template.toList with
  | none => exact absurd h (splitFirst?_eq_none_iff.1 hsplit)
  | some found =>
    simp only [validTemplate, hread, hsplit]
    rfl

theorem ofSetting_of_blank {setting : Option String} (h : ∀ text ∈ setting, IsBlank text) :
    ofSetting setting = ⟨none⟩ := by
  cases setting with
  | none => rfl
  | some text => rw [ofSetting, Option.bind_some, Text.nonBlank?_eq, if_pos (h text rfl)]

theorem ofSetting_of_not_blank {text : String} (h : ¬ IsBlank text) :
    ofSetting (some text) = ⟨some (Text.trim text)⟩ := by
  rw [ofSetting, Option.bind_some, Text.nonBlank?_eq, if_neg h]

def verdict (name : String) :
    Except Http.TransportError Http.Response → Except StageError Http.Response
  | .error e => .error (.transport e)
  | .ok response => if response.isSuccess then .ok response else .error (.packageNotFound name)

def account (response : Http.Response) : Except StageError PackageInfo :=
  match PackageInfo.ofBody? response.body with
  | some info => .ok info
  | none => .error .undecodableBody

/-- The results of a lookup and of a request for information that tell the same. -/
inductive Corresponds (name : String) :
    Except StageError Unit → Except StageError PackageInfo → Prop
  | told (info : PackageInfo) : Corresponds name (.ok ()) (.ok info)
  | undecodable : Corresponds name (.ok ()) (.error .undecodableBody)
  | missing : Corresponds name (.error (.packageNotFound name)) (.error (.packageNotFound name))
  | unreached (e : Http.TransportError) :
      Corresponds name (.error (.transport e)) (.error (.transport e))

theorem corresponds_verdict (name : String) (outcome : Except Http.TransportError Http.Response) :
    Corresponds name ((verdict name outcome).map fun _ ↦ ()) (verdict name outcome >>= account) := by
  cases outcome with
  | error e => exact .unreached e
  | ok response =>
    rw [verdict]
    split
    · change Corresponds name (.ok ()) (account response)
      rw [account]
      split
      · exact .told _
      · exact .undecodable
    · exact .missing

section Network

variable {m : Type → Type} [Monad m]

theorem run_adapt {ε δ α : Type} (f : ε → δ) (act : ExceptT ε m α) :
    (ExceptT.adapt f act).run = Except.mapError f <$> act.run := rfl

variable [LawfulMonad m]

theorem run_ofExcept_bind {ε α β : Type} (r : Except ε α) (next : α → ExceptT ε m β) :
    (MonadExcept.ofExcept r >>= next).run = match r with
      | .ok a => (next a).run
      | .error e => pure (.error e) := by
  cases r with
  | ok a => rw [MonadExcept.ofExcept, pure_bind]
  | error e => rw [MonadExcept.ofExcept, ExceptT.run_bind, ExceptT.run_throw, pure_bind]

theorem run_bind_of_pure {ε α β : Type} {act : ExceptT ε m α} {next : α → ExceptT ε m β}
    {f : α → Except ε β} (h : ∀ a, (next a).run = pure (f a)) :
    (act >>= next).run = (· >>= f) <$> act.run := by
  rw [ExceptT.run_bind, map_eq_pure_bind]
  refine bind_congr fun outcome ↦ ?_
  cases outcome with
  | error e => rfl
  | ok a => exact h a

variable [Http.Network m]

theorem run_ask (template name : String) :
    (ask template name : ExceptT StageError m Http.Response).run =
      verdict name <$> (Http.get (packageUrl template name)).run := by
  rw [ask, ExceptT.run_bind, run_adapt, bind_map_left, map_eq_pure_bind]
  refine bind_congr fun outcome ↦ ?_
  cases outcome with
  | error e => rfl
  | ok response =>
    simp only [Except.mapError, verdict]
    split <;> rfl

end Network

/-- Whatever the network, nothing is sent, and what is found and told is settled by the template. -/
structure AsksNothing (c : WebCatalog) (name : String) (found : Except StageError Unit)
    (told : Except StageError PackageInfo) : Prop where
  lookup {m : Type → Type} [Monad m] [LawfulMonad m] [Http.Network m] :
    (c.lookup name : ExceptT StageError m Unit).run = pure found
  info {m : Type → Type} [Monad m] [LawfulMonad m] [Http.Network m] :
    (c.info name : ExceptT StageError m PackageInfo).run = pure told

/-- Whatever the network, one attempt is made at a URL, and the rest is a matter of its outcome. -/
structure AsksOnce (c : WebCatalog) (name url : String) : Prop where
  lookup {m : Type → Type} [Monad m] [LawfulMonad m] [Http.Network m] :
    (c.lookup name : ExceptT StageError m Unit).run =
      (fun outcome ↦ (verdict name outcome).map fun _ ↦ ()) <$> (Http.get url).run
  info {m : Type → Type} [Monad m] [LawfulMonad m] [Http.Network m] :
    (c.info name : ExceptT StageError m PackageInfo).run =
      (fun outcome ↦ verdict name outcome >>= account) <$> (Http.get url).run

theorem asksNothing_of_error {c : WebCatalog} {e : StageError} (h : c.validTemplate = .error e)
    (name : String) : AsksNothing c name (.error e) (.error e) where
  lookup := by
    intro m _ _ _
    rw [WebCatalog.lookup, run_ofExcept_bind, h]
  info := by
    intro m _ _ _
    rw [WebCatalog.info, run_ofExcept_bind, h]

theorem asksNothing_of_none (name : String) :
    AsksNothing ⟨none⟩ name (.ok ()) (.error .noCatalog) where
  lookup := by
    intro m _ _ _
    rw [WebCatalog.lookup, run_ofExcept_bind]
    rfl
  info := by
    intro m _ _ _
    rw [WebCatalog.info, run_ofExcept_bind]
    rfl

theorem asksOnce_of_valid {c : WebCatalog} (h : c.validTemplate = .ok (some template))
    (name : String) : AsksOnce c name (packageUrl template name) where
  lookup := by
    intro m _ _ _
    have hdone (response : Http.Response) :
        (pure () : ExceptT StageError m Unit).run = pure (.ok ()) := rfl
    rw [WebCatalog.lookup, run_ofExcept_bind, h]
    dsimp only
    rw [run_bind_of_pure hdone, run_ask, Functor.map_map]
    rfl
  info := by
    intro m _ _ _
    rw [WebCatalog.info, run_ofExcept_bind, h]
    dsimp only
    rw [run_bind_of_pure (f := account), run_ask, Functor.map_map]
    intro response
    rw [account]
    cases PackageInfo.ofBody? response.body <;> rfl

theorem perform_of_run {url : String} {α : Type} {act : ExceptT StageError Simulation α}
    {f : Except Http.TransportError Http.Response → Except StageError α}
    (h : act.run = f <$> (Http.get url).run) (w : World) :
    w.perform act = (f (w.perform (Http.get url)).1, (w.perform (Http.get url)).2) := by
  rw [World.perform, h]
  rfl

theorem corresponds_of_asksOnce {c : WebCatalog} {url : String} (h : AsksOnce c name url)
    (w : World) : ∃ found told sent,
      w.perform (c.lookup name) = (found, w.answered sent) ∧
      w.perform (c.info name) = (told, w.answered sent) ∧ Corresponds name found told ∧
      ((∃ e, found = .error (.transport e)) ∧ sent = [] ∨
        (∀ e, found ≠ .error (.transport e)) ∧
          ∃ u, Url.read url = .ok u ∧ sent = [⟨u, Http.agent⟩]) := by
  obtain ⟨outcome, sent, hget, hsent⟩ := Http.get_cases w url
  refine ⟨_, _, sent, ?_, ?_, corresponds_verdict name outcome, ?_⟩
  · rw [perform_of_run h.lookup, hget]
  · rw [perform_of_run h.info, hget]
  · cases hsent with
    | failed e => exact .inl ⟨⟨e, rfl⟩, rfl⟩
    | answered response hread =>
      refine .inr ⟨fun e ↦ ?_, _, hread, rfl⟩
      rw [verdict]
      split <;> exact nofun

/-- To look a package up and to ask about it: a missing or blank template lets every package exist
and has nothing to tell; one that is no URL, and else one without a placeholder, fails both with the
same error; nothing is sent then, whatever the network. With any other template both make one
attempt at the same URL, and in a world of given answers both are seen as the same request or as
none, and what is found corresponds to what is told. -/
theorem lookup_info_correspond (name : String) :
    (∀ setting : Option String, (∀ text ∈ setting, IsBlank text) →
      AsksNothing (ofSetting setting) name (.ok ()) (.error .noCatalog)) ∧
    ∀ text, ¬ IsBlank text →
      (∀ fault, Url.read (Text.trim text) = .error fault →
        AsksNothing (ofSetting (some text)) name (.error (.badCatalogUrl (Text.trim text) fault))
          (.error (.badCatalogUrl (Text.trim text) fault))) ∧
      ∀ url, Url.read (Text.trim text) = .ok url →
        (¬ placeholder.toList <:+: (Text.trim text).toList →
          AsksNothing (ofSetting (some text)) name (.error (.noPlaceholder (Text.trim text)))
            (.error (.noPlaceholder (Text.trim text)))) ∧
        (placeholder.toList <:+: (Text.trim text).toList →
          AsksOnce (ofSetting (some text)) name (packageUrl (Text.trim text) name) ∧
          ∀ w : World, ∃ found told sent,
            w.perform ((ofSetting (some text)).lookup name) = (found, w.answered sent) ∧
            w.perform ((ofSetting (some text)).info name) = (told, w.answered sent) ∧
            Corresponds name found told ∧
            ((∃ e, found = .error (.transport e)) ∧ sent = [] ∨
              (∀ e, found ≠ .error (.transport e)) ∧
                ∃ u, Url.read (packageUrl (Text.trim text) name) = .ok u ∧
                  sent = [⟨u, Http.agent⟩])) := by
  refine ⟨fun setting hblank ↦ ?_, fun text hblank ↦ ⟨fun fault hread ↦ ?_, fun url hread ↦
    ⟨fun hplaceholder ↦ ?_, fun hplaceholder ↦ ?_⟩⟩⟩
  · rw [ofSetting_of_blank hblank]
    exact asksNothing_of_none name
  · rw [ofSetting_of_not_blank hblank]
    exact asksNothing_of_error (validTemplate_of_malformed hread) name
  · rw [ofSetting_of_not_blank hblank]
    exact asksNothing_of_error (validTemplate_of_unplaced hread hplaceholder) name
  · have honce := asksOnce_of_valid (validTemplate_of_placed hread hplaceholder) name
    rw [ofSetting_of_not_blank hblank]
    exact ⟨honce, corresponds_of_asksOnce honce⟩

def mumbling : World := ⟨.empty [], "", fun _ ↦ some ⟨200, "?".toUTF8⟩, [], []⟩

def padded : String := " http://h/\x7bpackageName\x7d?v=1\n"

theorem lookup_info_correspond_mumbling : ¬ IsBlank padded ∧
    (∃ url, Url.read (Text.trim padded) = .ok url) ∧
    placeholder.toList <:+: (Text.trim padded).toList ∧
    ∃ found told sent,
      mumbling.perform ((ofSetting (some padded)).lookup "vim") = (found, mumbling.answered sent) ∧
      mumbling.perform ((ofSetting (some padded)).info "vim") = (told, mumbling.answered sent) ∧
      found = .ok () ∧ told = .error .undecodableBody ∧ sent.length = 1 := by
  have hblank : ¬ IsBlank padded := by decide
  have hplaceholder : placeholder.toList <:+: (Text.trim padded).toList := by decide +kernel
  have hfound : (mumbling.perform ((ofSetting (some padded)).lookup "vim")).1.toOption =
      some () := by decide +kernel
  have htold : (mumbling.perform ((ofSetting (some padded)).info "vim")).1.toOption = none := by
    decide +kernel
  have hread : (Url.read (Text.trim padded)).toOption.isSome := by decide +kernel
  obtain ⟨url, hurl⟩ : ∃ url, Url.read (Text.trim padded) = .ok url := by
    cases h : Url.read (Text.trim padded) with
    | ok url => exact ⟨url, rfl⟩
    | error fault => rw [h] at hread; cases hread
  obtain ⟨-, htemplates⟩ := lookup_info_correspond "vim"
  obtain ⟨-, hworld⟩ := ((htemplates padded hblank).2 url hurl).2 hplaceholder
  obtain ⟨found, told, sent, hlookup, hinfo, hcorresponds, hsent⟩ := hworld mumbling
  refine ⟨hblank, ⟨url, hurl⟩, hplaceholder, found, told, sent, hlookup, hinfo, ?_⟩
  rw [hlookup] at hfound
  rw [hinfo] at htold
  cases hcorresponds with
  | told info => cases htold
  | missing | unreached => cases hfound
  | undecodable =>
    rcases hsent with ⟨⟨e, he⟩, -⟩ | ⟨-, u, -, rfl⟩
    · cases he
    · exact ⟨rfl, rfl, rfl⟩

end WebCatalog

end PackageStaging
