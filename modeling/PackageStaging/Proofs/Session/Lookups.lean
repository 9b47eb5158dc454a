import PackageStaging.Proofs.Session.Progress
import PackageStaging.Proofs.Text.Words

namespace PackageStaging

variable {w v : World}

namespace Catalog

/-- The catalog with a note of each name that is looked up, in order and whatever becomes of it. -/
def noting (c : Catalog Simulation) : Catalog Simulation where
  lookup name := ExceptT.mk fun w ↦
    ((w.perform (c.lookup name)).1,
      { (w.perform (c.lookup name)).2 with lookups := w.lookups ++ [name] })

/-- Which of some words a catalog is asked for, one after the other: up to the first one that it
refuses, and this refusal is the result. -/
inductive Asked (c : Catalog Simulation) :
    World → List String → List String → Except StageError Unit → Prop
  | nothing (w : World) : Asked c w [] [] (.ok ())
  | refused {w v : World} {word : String} {rest : List String} {e : StageError}
      (refuses : w.perform (c.lookup word) = (.error e, v)) :
      Asked c w (word :: rest) [word] (.error e)
  | known {w v : World} {word : String} {rest asked : List String} {r : Except StageError Unit}
      (knows : w.perform (c.lookup word) = (.ok (), v)) (next : Asked c v rest asked r) :
      Asked c w (word :: rest) (word :: asked) r

variable {c : Catalog Simulation} {words asked : List String} {r : Except StageError Unit}

theorem IsQuiet.noting (h : c.IsQuiet) : c.noting.IsQuiet := h

theorem lookups_noting {name : String} (h : w.perform (c.noting.lookup name) = (r, v)) :
    v.lookups = w.lookups ++ [name] := by
  cases h
  rfl

theorem Asked.isPrefix (h : c.Asked w words asked r) : asked <+: words := by
  induction h with
  | nothing => exact List.prefix_rfl
  | refused => exact List.prefix_cons_inj _ |>.2 List.nil_prefix
  | known knows next ih => exact (List.prefix_cons_inj _).2 ih

theorem Asked.eq_of_ok (h : c.Asked w words asked (.ok ())) : asked = words := by
  generalize hr : Except.ok () = r at h
  induction h with
  | nothing => rfl
  | refused => cases hr
  | known knows next ih => rw [ih hr]

theorem asked_of_forM (h : w.perform (words.forM c.noting.lookup) = (r, v)) :
    ∃ asked, c.noting.Asked w words asked r ∧ v.lookups = w.lookups ++ asked := by
  induction words generalizing w with
  | nil =>
    cases h
    exact ⟨[], .nothing _, (List.append_nil _).symm⟩
  | cons word words ih =>
    rcases World.perform_bind_cases h with ⟨e, hrefused, rfl⟩ | ⟨⟨⟩, u, hknown, h⟩
    · exact ⟨[word], .refused hrefused, lookups_noting hrefused⟩
    · obtain ⟨asked, hasked, hnoted⟩ := ih h
      refine ⟨word :: asked, .known hknown hasked, ?_⟩
      rw [hnoted, lookups_noting hknown, List.append_assoc, List.singleton_append]

end Catalog

namespace Session

variable {s : Session Simulation} {o : Operation} {name : String} {r : Except StageError Unit}

def noting (s : Session Simulation) : Session Simulation := { s with catalog := s.catalog.noting }

inductive SkipsLookup (s : Session Simulation) (o : Operation) (name : String) (t : FileTree) :
    Prop
  | name {e : StageError} (invalid : validName name = .error e)
  | gate (closed : s.gate.isOpenIn t = false)
  | unread {e : StageError} (adds : o = .add) (load : s.store.itemsIn t .remove = .error e)
  | recorded {removed : List String} (adds : o = .add)
      (load : s.store.itemsIn t .remove = .ok removed) (mem : Text.trim name ∈ removed)

def Cancels (s : Session Simulation) (o : Operation) (name : String) (t : FileTree) : Prop :=
  o = .add ∧ ∃ removed, s.store.itemsIn t .remove = .ok removed ∧ Text.trim name ∈ removed

/-- What a call asked the catalog, and what hung on the answers. -/
structure Consults (s : Session Simulation) (o : Operation) (name : String) (w v : World)
    (r : Except StageError Unit) (asked : List String) : Prop where
  noted : v.lookups = w.lookups ++ asked
  skipped : s.SkipsLookup o name w.tree → asked = []
  answered : ¬ s.SkipsLookup o name w.tree → ∃ q,
    s.catalog.Asked w (Text.words name) asked q ∧ ∀ e, q = .error e → r = .error e
  written : v.tree ≠ w.tree →
    s.catalog.Asked w (Text.words name) (Text.words name) (.ok ()) ∨ s.Cancels o name w.tree

theorem not_skipsLookup {n : String} {t : FileTree} (hvalid : validName name = .ok n)
    (hopen : s.gate.isOpenIn t) (hremoved : o = .add →
      ∃ removed, s.store.itemsIn t .remove = .ok removed ∧ n ∉ removed) :
    ¬ s.SkipsLookup o name t := by
  rintro (⟨hinvalid⟩ | ⟨hclosed⟩ | ⟨hadds, hunread⟩ | ⟨hadds, hload, hmem⟩)
  · cases hvalid.symm.trans hinvalid
  · simp [hopen] at hclosed
  · obtain ⟨removed, hremoved, -⟩ := hremoved hadds
    cases hremoved.symm.trans hunread
  · obtain ⟨removed, hremoved, hnot⟩ := hremoved hadds
    cases hremoved.symm.trans hload
    exact hnot ((validName_ok hvalid).1 ▸ hmem)

theorem Consults.of_skips (h : s.SkipsLookup o name w.tree) (hnoted : v.lookups = w.lookups)
    (hwritten : v.tree ≠ w.tree → s.Cancels o name w.tree) : s.Consults o name w v r [] where
  noted := by rw [hnoted, List.append_nil]
  skipped := fun _ ↦ rfl
  answered := fun hasks ↦ absurd h hasks
  written := fun hv ↦ .inr (hwritten hv)

theorem consults_of_guarded {rest : String → ExceptT StageError Simulation Unit}
    (hrest : ∀ n, validName name = .ok n → s.gate.isOpenIn w.tree →
      w.perform (rest n) = (r, v) → ∃ asked, s.Consults o name w v r asked)
    (h : w.perform (MonadExcept.ofExcept (validName name) >>= fun n ↦
      s.gate.check >>= fun _ ↦ rest n) = (r, v)) :
    ∃ asked, s.Consults o name w v r asked := by
  rw [perform_guarded] at h
  cases hvalid : validName name with
  | error e =>
    rw [hvalid] at h
    cases h
    exact ⟨[], .of_skips (.name hvalid) rfl fun hv ↦ absurd rfl hv⟩
  | ok n =>
    simp only [hvalid] at h
    by_cases hopen : s.gate.isOpenIn w.tree
    · rw [if_pos hopen] at h
      exact hrest n hvalid hopen h
    · rw [if_neg hopen] at h
      cases h
      exact ⟨[], .of_skips (.gate (by simpa using hopen)) rfl fun hv ↦ absurd rfl hv⟩

theorem consults_of_lookUp (hquiet : s.catalog.IsQuiet) {n : String}
    (hvalid : validName name = .ok n) (hasks : ¬ s.noting.SkipsLookup o name w.tree)
    {next : ExceptT StageError Simulation Unit} (hnext : Keeps World.outside next)
    (h : w.perform (s.noting.lookUp n >>= fun _ ↦ next) = (r, v)) :
    ∃ asked, s.noting.Consults o name w v r asked := by
  have hlookUp : s.noting.lookUp n = (Text.words name).forM s.catalog.noting.lookup := by
    rw [lookUp, (validName_ok hvalid).1, Text.words_trim]
    rfl
  rw [hlookUp] at h
  rcases World.perform_bind_cases h with ⟨e, hrefused, rfl⟩ | ⟨⟨⟩, u, hknown, h⟩
  · obtain ⟨asked, hasked, hnoted⟩ := Catalog.asked_of_forM hrefused
    have htree := leavesFiles_lookUp (s := s.noting) hquiet.noting n w
    rw [hlookUp, hrefused] at htree
    refine ⟨asked, hnoted, fun hskips ↦ absurd hskips hasks, fun _ ↦ ⟨_, hasked, ?_⟩, ?_⟩
    · rintro e' ⟨⟩
      rfl
    · exact fun hv ↦ absurd htree hv
  · obtain ⟨asked, hasked, hnoted⟩ := Catalog.asked_of_forM hknown
    obtain rfl := hasked.eq_of_ok
    have hkept := hnext.comp World.lookups u
    rw [h] at hkept
    refine ⟨_, hkept.trans hnoted, fun hskips ↦ absurd hskips hasks, fun _ ↦ ⟨_, hasked, ?_⟩, ?_⟩
    · rintro e ⟨⟩
    · exact fun _ ↦ .inl hasked

theorem consults_add (hquiet : s.catalog.IsQuiet) (h : w.perform (s.noting.add name) = (r, v)) :
    ∃ asked, s.noting.Consults .add name w v r asked := by
  refine consults_of_guarded ?_ h
  clear h
  intro n hvalid hopen h
  rw [World.perform_bind, perform_packages] at h
  cases hload : s.noting.store.itemsIn w.tree (.ofOperation .remove) with
  | error e =>
    rw [hload] at h
    cases h
    exact ⟨[], .of_skips (.unread rfl hload) rfl fun hv ↦ absurd rfl hv⟩
  | ok removed =>
    simp only [hload, World.perform_ite, List.contains_iff_mem] at h
    by_cases hmem : n ∈ removed
    · rw [if_pos hmem] at h
      have hkept := (Keeps.bind (s.noting.keepsOutside_log (.add n))
        fun _ ↦ s.noting.store.keepsOutside_save .remove (removed.erase n)).comp World.lookups w
      rw [h] at hkept
      rw [(validName_ok hvalid).1] at hmem
      exact ⟨[], .of_skips (.recorded rfl hload hmem) hkept fun _ ↦ ⟨rfl, removed, hload, hmem⟩⟩
    · rw [if_neg hmem] at h
      have hasks : ¬ s.noting.SkipsLookup .add name w.tree :=
        not_skipsLookup hvalid hopen fun _ ↦ ⟨removed, hload, hmem⟩
      refine consults_of_lookUp hquiet hvalid hasks ?_ h
      exact (s.noting.keepsOutside_log _).bind fun _ ↦ s.noting.keepsOutside_record _

theorem consults_remove (hquiet : s.catalog.IsQuiet)
    (h : w.perform (s.noting.remove name) = (r, v)) :
    ∃ asked, s.noting.Consults .remove name w v r asked := by
  refine consults_of_guarded ?_ h
  clear h
  intro n hvalid hopen h
  refine consults_of_lookUp hquiet hvalid (not_skipsLookup hvalid hopen fun hadds ↦ ?_) ?_ h
  · cases hadds
  · refine (s.noting.keepsOutside_log _).bind fun _ ↦ ?_
    exact (s.noting.store.keepsOutside_load _).bind fun _ ↦
      Keeps.ite (s.noting.store.keepsOutside_save _ _) (s.noting.keepsOutside_record _)

/-- An error of another kind than storage leaves every file as it was. The catalog is asked for the
words of the name in order, up to one that it refuses, and nothing is written before it has agreed
unless a recorded removal is taken back. -/
theorem stage_consults (hquiet : s.catalog.IsQuiet)
    (h : w.perform (s.noting.stage o name) = (r, v)) :
    (∀ e, r = .error e → e.isStorage = false → v.tree = w.tree) ∧
      ∃ asked, asked <+: Text.words name ∧ s.noting.Consults o name w v r asked := by
  constructor
  · rintro e rfl hother
    have ho := outcome_stage (s := s.noting) hquiet.noting h
    generalize v.tree = t at ho
    cases ho with
    | refused reason => rfl
    | halted valid logged stuck storage => simp [hother] at storage
  · obtain ⟨asked, hconsults⟩ : ∃ asked, s.noting.Consults o name w v r asked := by
      cases o with
      | add => exact consults_add hquiet h
      | remove => exact consults_remove hquiet h
    refine ⟨asked, ?_, hconsults⟩
    by_cases hskips : s.noting.SkipsLookup o name w.tree
    · rw [hconsults.skipped hskips]
      exact List.nil_prefix
    · obtain ⟨q, hasked, -⟩ := hconsults.answered hskips
      exact hasked.isPrefix

def doubtful : Session Simulation where
  store := ⟨Config.bare.base⟩
  gate := ⟨.enabled, Config.bare.agreementFile⟩
  catalog := .fixed fun word ↦ if word = "nano" then .error (.packageNotFound word) else .ok ()
  synthesizer := Config.bare.synthesizer

theorem not_skipsLookup_doubtful :
    ¬ doubtful.noting.SkipsLookup .add " vim nano git " World.bare.tree := by
  have hvalid : validName " vim nano git " = .ok "vim nano git" := by rfl
  refine not_skipsLookup hvalid rfl fun _ ↦ ⟨[], ?_, List.not_mem_nil⟩
  have hread : World.bare.tree.read (doubtful.store.path .remove) = .error .notFound := by rfl
  rw [Store.itemsIn, FileTree.text]
  exact hread ▸ rfl

theorem stage_consults_doubtful :
    ∃ v, World.bare.perform (doubtful.noting.stage .add " vim nano git ") =
        (.error (.packageNotFound "nano"), v) ∧
      v.tree = World.bare.tree ∧ v.lookups = ["vim", "nano"] := by
  rcases h : World.bare.perform (doubtful.noting.stage .add " vim nano git ") with ⟨r, v⟩
  obtain ⟨hfiles, asked, -, hconsults⟩ := stage_consults (Catalog.isQuiet_fixed _) h
  obtain ⟨q, hasked, hresult⟩ := hconsults.answered not_skipsLookup_doubtful
  have hwords : Text.words " vim nano git " = ["vim", "nano", "git"] := by decide
  have hlookups := hconsults.noted
  rw [hwords] at hasked
  cases hasked with
  | refused hvim => cases hvim
  | known hvim next =>
    cases next with
    | refused hnano =>
      cases hnano
      obtain rfl := hresult _ rfl
      exact ⟨v, rfl, hfiles _ rfl rfl, hlookups⟩
    | known hnano next => cases hnano

end Session

end PackageStaging
