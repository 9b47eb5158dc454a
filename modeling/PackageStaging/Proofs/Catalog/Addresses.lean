import PackageStaging.Proofs.Catalog.Placeholder
import PackageStaging.Proofs.Url.Gap
import PackageStaging.Proofs.World

namespace PackageStaging

/-- An act that sends no requests but those of one kind. -/
def SendsOnly {ε α : Type} (kind : Http.Request → Prop) (act : ExceptT ε Simulation α) : Prop :=
  ∀ w : World, ∃ new, (w.perform act).2.requests = w.requests ++ new ∧ ∀ r ∈ new, kind r

section SendsOnly

variable {ε α β : Type} {kind : Http.Request → Prop}

theorem Keeps.sendsOnly {act : ExceptT ε Simulation α} (h : Keeps World.requests act) :
    SendsOnly kind act := fun w ↦ ⟨[], by rw [h w, List.append_nil], by simp⟩

theorem SendsOnly.bind {act : ExceptT ε Simulation α} {next : α → ExceptT ε Simulation β}
    (h : SendsOnly kind act) (hnext : ∀ a, SendsOnly kind (next a)) :
    SendsOnly kind (act >>= next) := by
  intro w
  obtain ⟨new, hnew, hkind⟩ := h w
  rw [World.perform_bind]
  rcases hact : w.perform act with ⟨r, v⟩
  rw [hact] at hnew
  cases r with
  | error e => exact ⟨new, hnew, hkind⟩
  | ok a =>
    obtain ⟨more, hmore, hkind'⟩ := hnext a v
    refine ⟨new ++ more, by rw [hmore, hnew, List.append_assoc], fun r hr ↦ ?_⟩
    rcases List.mem_append.1 hr with hr | hr
    · exact hkind r hr
    · exact hkind' r hr

theorem SendsOnly.adapt {δ : Type} {act : ExceptT ε Simulation α} (h : SendsOnly kind act)
    (f : ε → δ) : SendsOnly kind (ExceptT.adapt f act) := by
  intro w
  rw [World.perform_adapt]
  exact h w

theorem SendsOnly.of_mem {act : ExceptT ε Simulation α} (h : SendsOnly kind act) {w : World}
    {r : Http.Request} (hr : r ∈ (w.perform act).2.requests.drop w.requests.length) : kind r := by
  obtain ⟨new, hnew, hkind⟩ := h w
  rw [hnew, List.drop_left] at hr
  exact hkind r hr

def Http.Request.IsFor (text : String) (r : Http.Request) : Prop :=
  Url.read text = .ok r.url ∧ isRequestable r.url

theorem Http.sendsOnly_get (text : String) :
    SendsOnly (Request.IsFor text) (get text : ExceptT TransportError Simulation Response) := by
  unfold get
  split
  · exact (keeps_throw _).sendsOnly
  · rename_i url hread
    split
    · rename_i hrequestable
      refine SendsOnly.bind (fun w ↦ ?_) fun response ↦ ?_
      · rw [World.perform_lift]
        simp only [Http.Network.fetch]
        split
        · exact ⟨[], (List.append_nil _).symm, by simp⟩
        · refine ⟨[⟨url, agent⟩], rfl, fun r hr ↦ ?_⟩
          rw [List.mem_singleton.1 hr]
          exact ⟨hread, hrequestable⟩
      · split
        · exact (keeps_pure _).sendsOnly
        · exact (keeps_throw _).sendsOnly
    · exact (keeps_throw _).sendsOnly

end SendsOnly

namespace WebCatalog

variable {c : WebCatalog} {template name : String}

theorem sendsOnly_ask (template name : String) :
    SendsOnly (Http.Request.IsFor (packageUrl template name))
      (ask template name : ExceptT StageError Simulation Http.Response) := by
  unfold ask
  refine ((Http.sendsOnly_get _).adapt _).bind fun response ↦ ?_
  exact (Keeps.ite (keeps_pure _) (keeps_throw _)).sendsOnly

theorem sendsOnly_lookup (h : c.validTemplate = .ok (some template)) (name : String) :
    SendsOnly (Http.Request.IsFor (packageUrl template name))
      (c.lookup name : ExceptT StageError Simulation Unit) := by
  intro w
  rw [lookup, World.perform_bind, World.perform_ofExcept, h]
  exact ((sendsOnly_ask template name).bind fun _ ↦ (keeps_pure _).sendsOnly) w

theorem sendsOnly_info (h : c.validTemplate = .ok (some template)) (name : String) :
    SendsOnly (Http.Request.IsFor (packageUrl template name))
      (c.info name : ExceptT StageError Simulation PackageInfo) := by
  intro w
  rw [info, World.perform_bind, World.perform_ofExcept, h]
  refine ((sendsOnly_ask template name).bind fun response ↦ ?_) w
  split
  · exact (keeps_pure _).sendsOnly
  · exact (keeps_throw _).sendsOnly

/-- A request that is made for a name, by a network that answers it: to look the name up, or for
what there is to tell about it. -/
def Requests (c : WebCatalog) (name : String) (r : Http.Request) : Prop :=
  ∃ w : World,
    r ∈ (w.perform (c.lookup name)).2.requests.drop w.requests.length ∨
    r ∈ (w.perform (c.info name)).2.requests.drop w.requests.length

theorem isFor_of_requests {r : Http.Request} (hvalid : c.validTemplate = .ok (some template))
    (h : c.Requests name r) : r.IsFor (packageUrl template name) := by
  obtain ⟨w, h | h⟩ := h
  · exact (sendsOnly_lookup hvalid name).of_mem h
  · exact (sendsOnly_info hvalid name).of_mem h

/-- Where the placeholder of a template stands, if the template is one of an HTTP URL. -/
def gap? (template : String) : Option Url.Gap :=
  match splitFirst? placeholder.toList template.toList with
  | none => none
  | some (before, after) =>
    match Url.readScheme? (Url.stripStart before) with
    | none => none
    | some (scheme, rest) =>
      if Url.isHttp scheme then some ⟨Url.behindAuthority rest, Url.stripEnd after⟩ else none

def encoded (name : String) : List Char := (Percent.encode Percent.isUnreserved name).toList

theorem isPlain_of_mem_encoded (name : String) : ∀ c ∈ encoded name, Percent.isPlain c :=
  fun _ ↦ Percent.isPlain_of_mem_encode

theorem encoded_ne_nil (h : name ≠ "") : encoded name ≠ [] :=
  mt String.toList_eq_nil_iff.1 (Percent.encode_ne_empty (by decide) h)

theorem encoded_injective : Function.Injective encoded :=
  fun _ _ h ↦ Percent.encode_injective (by decide) (String.toList_inj.1 h)

theorem isEdge_of_isPlain {c : Char} (h : Percent.isPlain c) : Url.isEdge c = false :=
  Percent.forall_isPlain (p := fun c ↦ Url.isEdge c = false) (by decide) h

theorem isEdge_of_mem_placeholder : ∀ c ∈ placeholder.toList, Url.isEdge c = false := by
  have hletters : placeholder.toList.all (!Url.isEdge ·) := rfl
  simpa using hletters

theorem validTemplate_eq_some (h : c.validTemplate = .ok (some template)) :
    (∃ u, Url.read template = .ok u) ∧
      ∃ before after, splitFirst? placeholder.toList template.toList = some (before, after) := by
  rw [validTemplate] at h
  cases htemplate : c.template with
  | none => simp [htemplate, pure, Except.pure] at h
  | some text =>
    cases hread : Url.read text with
    | error fault => simp [htemplate, hread, throw, throwThe, MonadExceptOf.throw] at h
    | ok u =>
      cases hsplit : splitFirst? placeholder.toList text.toList with
      | none => simp [htemplate, hread, hsplit, throw, throwThe, MonadExceptOf.throw] at h
      | some found =>
        simp only [htemplate, hread, hsplit, pure, Except.pure, Except.ok.injEq,
          Option.some.injEq] at h
        subst h
        exact ⟨⟨u, hread⟩, found.1, found.2, hsplit⟩

theorem strip_packageUrl {before after : List Char}
    (hsplit : splitFirst? placeholder.toList template.toList = some (before, after))
    (hname : name ≠ "") : Url.strip (packageUrl template name).toList =
      Url.stripStart before ++ (encoded name ++ Url.stripEnd after) := by
  have hplain : ∀ c ∈ encoded name, Url.isEdge c = false :=
    fun c hc ↦ isEdge_of_isPlain (isPlain_of_mem_encoded name c hc)
  rw [packageUrl, hsplit, String.toList_append, String.toList_append, String.toList_ofList,
    String.toList_ofList, ← encoded, Url.strip_around (encoded_ne_nil hname) hplain,
    List.append_assoc]

/-- The URL of a request is that of the template with the encoded name in its gap. -/
theorem url_of_requests (hvalid : c.validTemplate = .ok (some template))
    (hgap : ∀ g ∈ gap? template, g.before ≠ []) :
    ∃ server : Url, ∀ name r, name ≠ "" → c.Requests name r → ∃ g ∈ gap? template,
      r.url = server.followedBy (g.fill (encoded name)) := by
  obtain ⟨⟨t, ht⟩, before, after, hsplit⟩ := validTemplate_eq_some hvalid
  have htemplate : Url.strip template.toList =
      Url.stripStart before ++ (placeholder.toList ++ Url.stripEnd after) := by
    rw [eq_of_splitFirst? hsplit, Url.strip_around (by decide) isEdge_of_mem_placeholder,
      List.append_assoc]
  obtain ⟨scheme, rest, hscheme⟩ : ∃ scheme rest,
      Url.readScheme? (Url.stripStart before) = some (scheme, rest) := by
    obtain ⟨scheme, rest, hscheme⟩ := Url.exists_scheme_of_read ht
    rw [htemplate] at hscheme
    exact ⟨scheme, Url.readScheme?_of_brace hscheme⟩
  refine ⟨t, fun name r hname hr ↦ ?_⟩
  obtain ⟨hread, hrequestable⟩ := isFor_of_requests hvalid hr
  have hurl := strip_packageUrl hsplit hname
  have hhttp : Url.isHttp scheme := by
    have hfound := Url.readScheme?_append hscheme (encoded name ++ Url.stripEnd after)
    rw [← hurl] at hfound
    rw [Http.isRequestable, Bool.and_eq_true, Url.scheme_of_read hfound hread] at hrequestable
    exact hrequestable.1
  have hg : gap? template = some ⟨Url.behindAuthority rest, Url.stripEnd after⟩ := by
    simp [gap?, hsplit, hscheme, hhttp]
  -- The template is a URL that is read in the same way, so its own outcome is no failure.
  obtain ⟨result, hresult⟩ := Url.read_append hscheme hhttp (hgap _ hg)
  refine ⟨_, hg, ?_⟩
  have ht' := hresult template _ htemplate
  have hread' := hresult _ _ hurl
  rw [ht] at ht'
  rw [hread] at hread'
  cases result with
  | error fault => cases ht'
  | ok u =>
    rw [Except.map, Except.ok.injEq] at ht' hread'
    rw [hread', ht', Url.Gap.fill, List.append_assoc]
    rfl

/-- A name that comes to be dots in the path of the template. -/
def isLost (template name : String) : Bool :=
  (gap? template).any (·.loses (encoded name))

/-- Where the placeholder stands in the path or in the query and no later segment climbs out over
it, all requests go to one server; a name that does not come to be dots has a target of its own,
which is that of the template with the encoded name in it; and no other name leads there. -/
theorem targets_apart (hvalid : c.validTemplate = .ok (some template))
    (hgap : ∀ g ∈ gap? template, g.isKept) :
    ∃ (server : Url) (front back : String),
      (∀ name r, name ≠ "" → c.Requests name r → ∃ text, r.url = server.followedBy text) ∧
      (∀ name r, name ≠ "" → isLost template name = false → c.Requests name r →
        r.url.target = front ++ Percent.encode Percent.isUnreserved name ++ back) ∧
      ∀ name other r q, name ≠ "" → other ≠ "" → name ≠ other →
        ¬ (isLost template name ∧ isLost template other) →
        c.Requests name r → c.Requests other q → r.url.target ≠ q.url.target := by
  obtain ⟨server, hserver⟩ :=
    url_of_requests hvalid fun g hg ↦ Url.Gap.before_ne_nil_of_isKept (hgap g hg)
  cases hg : gap? template with
  | none =>
    have hnone (name : String) (r : Http.Request) (hname : name ≠ "") : ¬ c.Requests name r := by
      intro hr
      obtain ⟨g, hmem, -⟩ := hserver name r hname hr
      simp [hg] at hmem
    exact ⟨server, "", "", fun name r hname hr ↦ absurd hr (hnone name r hname),
      fun name r hname _ hr ↦ absurd hr (hnone name r hname),
      fun name _ r _ hname _ _ _ hr ↦ absurd hr (hnone name r hname)⟩
  | some g =>
    have hkept := hgap g hg
    have hurl {name : String} {r : Http.Request} (hname : name ≠ "") (hr : c.Requests name r) :
        r.url = server.followedBy (g.fill (encoded name)) := by
      obtain ⟨g', hmem, hr⟩ := hserver name r hname hr
      rw [hg, Option.mem_some] at hmem
      rw [hr, hmem]
    have hlost (name : String) : isLost template name = g.loses (encoded name) := by
      rw [isLost, hg, Option.any_some]
    obtain ⟨front, back, htarget⟩ := Url.Gap.target_fill hkept
    refine ⟨server, front, back, fun name r hname hr ↦ ⟨_, hurl hname hr⟩,
      fun name r hname hfound hr ↦ ?_, fun name other r q hname hother hdiffer hboth hr hq ↦ ?_⟩
    · rw [hurl hname hr, htarget server _ (isPlain_of_mem_encoded name) (hlost name ▸ hfound),
        encoded, String.ofList_toList]
    · rw [hlost, hlost] at hboth
      rw [hurl hname hr, hurl hother hq]
      exact Url.Gap.target_fill_ne hkept (isPlain_of_mem_encoded name)
        (isPlain_of_mem_encoded other) (encoded_ne_nil hname) (encoded_ne_nil hother)
        (encoded_injective.ne hdiffer) hboth server server

def answering : World := ⟨.empty [], "", fun _ ↦ some ⟨404, .empty⟩, [], []⟩

def requestTo (path : String) (query : Option String) : Http.Request :=
  ⟨⟨"http", "", none, some (.domain "h"), true, none, path, query, none⟩, Http.agent⟩

def queried : String := "http://h/pkg/\x7bpackageName\x7d?v=1"

theorem targets_apart_queried : (⟨some queried⟩ : WebCatalog).validTemplate = .ok (some queried) ∧
    (∀ g ∈ gap? queried, g.isKept) ∧ isLost queried ".." ∧ isLost queried "g++" = false ∧
    (⟨some queried⟩ : WebCatalog).Requests "g++" (requestTo "/pkg/g%2B%2B" (some "v=1")) ∧
    (⟨some queried⟩ : WebCatalog).Requests ".." (requestTo "/" (some "v=1")) ∧
    (requestTo "/pkg/g%2B%2B" (some "v=1")).url.target ≠
      (requestTo "/" (some "v=1")).url.target := by
  have hvalid : (⟨some queried⟩ : WebCatalog).validTemplate = .ok (some queried) := rfl
  have hgap : ∀ g ∈ gap? queried, g.isKept := by decide +kernel
  have hlost : isLost queried ".." := by decide +kernel
  have hfound : isLost queried "g++" = false := by decide +kernel
  have hname : (⟨some queried⟩ : WebCatalog).Requests "g++"
      (requestTo "/pkg/g%2B%2B" (some "v=1")) := ⟨answering, .inl (by decide +kernel)⟩
  have hdots : (⟨some queried⟩ : WebCatalog).Requests ".." (requestTo "/" (some "v=1")) :=
    ⟨answering, .inl (by decide +kernel)⟩
  obtain ⟨server, front, back, -, -, hapart⟩ := targets_apart hvalid hgap
  exact ⟨hvalid, hgap, hlost, hfound, hname, hdots, hapart _ _ _ _ (by decide) (by decide)
    (by decide) (fun hboth ↦ by simp [hfound] at hboth) hname hdots⟩

def rooted : String := "http://h/\x7bpackageName\x7d"

def climbing : String := "http://h/\x7bpackageName\x7d/../x"

/-- Dots stand for themselves when a name is encoded, and are resolved when the URL is read: two
names of dots share a target, and so do all names where the template has dots behind them. -/
theorem targets_shared :
    ((⟨some rooted⟩ : WebCatalog).validTemplate = .ok (some rooted) ∧
      (gap? rooted).any Url.Gap.isInPath ∧
      (⟨some rooted⟩ : WebCatalog).Requests "." (requestTo "/" none) ∧
      (⟨some rooted⟩ : WebCatalog).Requests ".." (requestTo "/" none)) ∧
    (⟨some climbing⟩ : WebCatalog).validTemplate = .ok (some climbing) ∧
      (gap? climbing).any Url.Gap.isInPath ∧
      (⟨some climbing⟩ : WebCatalog).Requests "vim" (requestTo "/x" none) ∧
      (⟨some climbing⟩ : WebCatalog).Requests "git" (requestTo "/x" none) := by
  have hrequests (template name path : String)
      (h : requestTo path none ∈
        (answering.perform ((⟨some template⟩ : WebCatalog).lookup name)).2.requests) :
      (⟨some template⟩ : WebCatalog).Requests name (requestTo path none) := ⟨answering, .inl h⟩
  exact ⟨⟨rfl, by decide +kernel, hrequests _ _ _ (by decide +kernel),
    hrequests _ _ _ (by decide +kernel)⟩, rfl, by decide +kernel,
    hrequests _ _ _ (by decide +kernel), hrequests _ _ _ (by decide +kernel)⟩

end WebCatalog

end PackageStaging
