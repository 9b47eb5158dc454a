import PackageStaging.Proofs.Store.Staged
import PackageStaging.Session

namespace PackageStaging

def Catalog.IsQuiet (c : Catalog Simulation) : Prop := ∀ name, LeavesFiles (c.lookup name)

theorem Catalog.isQuiet_fixed (answer : String → Except StageError Unit) :
    (Catalog.fixed answer).IsQuiet := fun _ _ ↦ rfl

section Web

variable {γ : Type} {part : World → γ} (hpart : ∀ (w : World) (request : Http.Request),
  part { w with requests := w.requests ++ [request] } = part w)

include hpart

theorem Http.keeps_fetch (request : Http.Request) :
    Keeps part (liftM (Http.Network.fetch request : Simulation (Option Http.Response)) :
      ExceptT Http.TransportError Simulation (Option Http.Response)) := by
  intro w
  simp only [World.perform_lift, Http.Network.fetch]
  cases w.answer? request.url with
  | none => rfl
  | some response => exact hpart w request

theorem Http.keeps_get (text : String) :
    Keeps part (Http.get text : ExceptT Http.TransportError Simulation Http.Response) := by
  unfold Http.get
  cases Url.read text with
  | error fault => exact keeps_throw _
  | ok url =>
    refine Keeps.ite ((keeps_fetch hpart _).bind fun response ↦ ?_) (keeps_throw _)
    cases response with
    | none => exact keeps_throw _
    | some response => exact keeps_pure response

theorem WebCatalog.keeps_lookup (c : WebCatalog) (name : String) :
    Keeps part (c.lookup name : ExceptT StageError Simulation Unit) := by
  refine (keeps_ofExcept c.validTemplate).bind fun template ↦ ?_
  cases template with
  | none => exact keeps_pure _
  | some template =>
    refine Keeps.bind (((Http.keeps_get hpart _).adapt _).bind fun _ ↦ ?_) fun _ ↦ keeps_pure _
    exact Keeps.ite (keeps_pure _) (keeps_throw _)

end Web

theorem WebCatalog.isQuiet_toCatalog (c : WebCatalog) :
    (c.toCatalog : Catalog Simulation).IsQuiet :=
  c.keeps_lookup fun _ _ ↦ rfl

namespace Store

variable {s : Store}

/-- A use of the files failed and changed nothing. -/
structure Stalls (s : Store) (w v : World) (r : Except StageError Unit) : Prop where
  unchanged : v = w
  stuck : s.IsStuck w.tree
  error : ∃ e, r = .error e ∧ e.isStorage

variable {w v : World} {list : StoredList} {items : List String} {r : Except StageError Unit}

theorem stalls_load {e : StageError} (h : s.itemsIn w.tree list = .error e) :
    s.Stalls w w (.error e) := ⟨rfl, .load h, e, rfl, isStorage_of_itemsIn h⟩

theorem stalls_save {e : FileError} (h : s.saveIn w.tree list items = .error e) :
    s.Stalls w w (.error (.ofFile (s.path list) e)) :=
  ⟨rfl, .save h, _, rfl, StageError.isStorage_ofFile _ _⟩

theorem save_cases (h : w.perform (s.save list items) = (r, v)) :
    r = .ok () ∧ s.saveIn w.tree list items = .ok v.tree ∨ s.Stalls w v r := by
  rw [perform_save] at h
  cases hsave : s.saveIn w.tree list items with
  | ok u =>
    rw [hsave] at h
    cases h
    exact .inl ⟨rfl, rfl⟩
  | error e =>
    rw [hsave] at h
    cases h
    exact .inr (stalls_save hsave)

theorem saveLog_cases {log : Log} {next : Log → ExceptT StageError Simulation Unit}
    (h : w.perform (s.saveLog log >>= next) = (r, v)) :
    s.Stalls w v r ∨ ∃ u : World,
      s.saveIn w.tree .unstaged (log.net.map Change.render) = .ok u.tree ∧
        u.perform (next log.net) = (r, v) := by
  rw [World.perform_bind, perform_saveLog] at h
  cases hsave : s.saveIn w.tree .unstaged (log.net.map Change.render) with
  | error e =>
    rw [hsave] at h
    cases h
    exact .inl (stalls_save hsave)
  | ok u =>
    rw [hsave] at h
    exact .inr ⟨{ w with tree := u }, rfl, h⟩

end Store

def Gate.isOpenIn (g : Gate) (t : FileTree) : Bool :=
  g.status != .requiresAgreement || (t.stat? g.agreementFile).isSome

theorem Gate.isAccepted_run (g : Gate) (w : World) :
    (g.isAccepted : Simulation Bool) w = (g.isOpenIn w.tree, w) := by
  unfold isAccepted isOpenIn
  cases g.status <;> rfl

theorem Gate.isOpenIn_of_isSome {g : Gate} {t : FileTree} (h : (t.stat? g.agreementFile).isSome) :
    g.isOpenIn t := by
  rw [isOpenIn, h, Bool.or_true]

theorem Gate.perform_isAccepted (g : Gate) (w : World) :
    w.perform (liftM (g.isAccepted : Simulation Bool) : ExceptT StageError Simulation Bool) =
      (.ok (g.isOpenIn w.tree), w) := by
  rw [World.perform_lift, isAccepted_run]

theorem Gate.perform_check (g : Gate) (w : World) :
    w.perform g.check = (if g.isOpenIn w.tree then .ok () else .error .agreementRequired, w) := by
  rw [check, World.perform_bind_ok (g.perform_isAccepted w)]
  cases g.isOpenIn w.tree <;> rfl

namespace Session

variable {s : Session Simulation} {w v : World} {c : Change} {o : Operation} {name : String}
  {r : Except StageError Unit}

theorem leavesFiles_lookUp (h : s.catalog.IsQuiet) (name : String) : LeavesFiles (s.lookUp name) :=
  Keeps.forM h _

theorem perform_packages (s : Session Simulation) (w : World) (o : Operation) :
    w.perform (s.packages o) = (s.store.itemsIn w.tree (.ofOperation o), w) :=
  s.store.perform_load w _

theorem keepsOutside_log (s : Session Simulation) (c : Change) :
    Keeps World.outside (s.log c) := by
  have hload : Keeps World.outside s.store.loadLog :=
    (s.store.keepsOutside_load _).bind fun _ ↦ keeps_pure _
  refine hload.bind fun log ↦ ?_
  exact Keeps.bind ((s.store.keepsOutside_save _ _).bind fun _ ↦ keeps_pure _) fun _ ↦ keeps_pure _

theorem keepsOutside_record (s : Session Simulation) (c : Change) :
    Keeps World.outside (s.record c) :=
  (s.store.keepsOutside_load _).bind fun _ ↦
    Keeps.ite (keeps_pure _) (s.store.keepsOutside_save _ _)

theorem log_cases {next : ExceptT StageError Simulation Unit}
    (h : w.perform (s.log c >>= fun _ ↦ next) = (r, v)) :
    s.store.Stalls w v r ∨
      ∃ u : World, s.store.Logged c w.tree u.tree ∧ u.perform next = (r, v) := by
  rw [log, bind_assoc, World.perform_bind, Store.perform_loadLog] at h
  cases hlog : s.store.logIn w.tree with
  | error e =>
    rw [hlog] at h
    cases h
    exact .inl (Store.stalls_load (Store.itemsIn_of_logIn_error hlog))
  | ok log =>
    simp only [hlog, bind_assoc] at h
    rcases Store.saveLog_cases h with hstall | ⟨u, hsave, h⟩
    · exact .inl hstall
    · exact .inr ⟨u, ⟨log, hlog, hsave⟩, h⟩

theorem record_cases {others : List String}
    (hload : s.store.itemsIn w.tree (.ofOperation c.operation.opposite) = .ok others)
    (hothers : c.name ∉ others) (h : w.perform (s.record c) = (r, v)) :
    r = .ok () ∧ s.store.Moved c w.tree v.tree ∨ s.store.Stalls w v r := by
  rw [record, World.perform_bind, perform_packages] at h
  cases hown : s.store.itemsIn w.tree (.ofOperation c.operation) with
  | error e =>
    rw [hown] at h
    cases h
    exact .inr (Store.stalls_load hown)
  | ok names =>
    simp only [hown, World.perform_ite, List.contains_iff_mem] at h
    by_cases hmem : c.name ∈ names
    · rw [if_pos hmem] at h
      cases h
      exact .inl ⟨rfl, .kept hload hothers hown hmem⟩
    · rw [if_neg hmem] at h
      rcases Store.save_cases h with ⟨hr, hsave⟩ | hstall
      · exact .inl ⟨hr, .recorded hload hothers hown hmem hsave⟩
      · exact .inr hstall

inductive Refusal (s : Session Simulation) (name : String) (t : FileTree) : StageError → Prop
  | name {e : StageError} (invalid : validName name = .error e) : Refusal s name t e
  | gate (closed : s.gate.isOpenIn t = false) : Refusal s name t .agreementRequired
  | catalog {n : String} {w : World} {e : StageError} (valid : validName name = .ok n)
      (tree : w.tree = t) (unknown : (w.perform (s.lookUp n)).1 = .error e) : Refusal s name t e
  | files {e : StageError} (stuck : s.store.IsStuck t) (storage : e.isStorage) :
      Refusal s name t e

/-- How staging a package can end: refused with the files as they were, carried out, or halted
after the log was written. -/
inductive Outcome (s : Session Simulation) (o : Operation) (name : String) (t : FileTree) :
    Except StageError Unit → FileTree → Prop
  | refused {e : StageError} (reason : s.Refusal name t e) : Outcome s o name t (.error e) t
  | staged {n : String} {u v : FileTree} (valid : validName name = .ok n)
      (logged : s.store.Logged ⟨o, n⟩ t u) (moved : s.store.Moved ⟨o, n⟩ u v) :
      Outcome s o name t (.ok ()) v
  | halted {n : String} {u : FileTree} {e : StageError} (valid : validName name = .ok n)
      (logged : s.store.Logged ⟨o, n⟩ t u) (stuck : s.store.IsStuck u) (storage : e.isStorage) :
      Outcome s o name t (.error e) u

theorem Outcome.of_stalls (h : s.store.Stalls w v r) : s.Outcome o name w.tree r v.tree := by
  obtain ⟨e, rfl, he⟩ := h.error
  obtain rfl := h.unchanged
  exact .refused (.files h.stuck he)

theorem Outcome.of_stalls_logged {n : String} {t : FileTree} (hvalid : validName name = .ok n)
    (hlog : s.store.Logged ⟨o, n⟩ t w.tree) (h : s.store.Stalls w v r) :
    s.Outcome o name t r v.tree := by
  obtain ⟨e, rfl, he⟩ := h.error
  obtain rfl := h.unchanged
  exact .halted hvalid hlog h.stuck he

/-- Nothing but the name and the gate decides whether a call gets to the catalog and the lists. -/
theorem perform_guarded (s : Session Simulation) (w : World) (name : String)
    (rest : String → ExceptT StageError Simulation Unit) :
    w.perform (MonadExcept.ofExcept (validName name) >>= fun n ↦
        s.gate.check >>= fun _ ↦ rest n) =
      match validName name with
      | .error e => (.error e, w)
      | .ok n => if s.gate.isOpenIn w.tree then w.perform (rest n)
        else (.error .agreementRequired, w) := by
  rw [World.perform_bind, World.perform_ofExcept]
  cases validName name with
  | error e => rfl
  | ok n =>
    dsimp only
    rw [World.perform_bind, Gate.perform_check]
    by_cases hopen : s.gate.isOpenIn w.tree
    · rw [if_pos hopen, if_pos hopen]
    · rw [if_neg hopen, if_neg hopen]

theorem guarded_cases {rest : String → ExceptT StageError Simulation Unit}
    (h : w.perform (MonadExcept.ofExcept (validName name) >>= fun n ↦
      s.gate.check >>= fun _ ↦ rest n) = (r, v)) :
    (∃ e, r = .error e ∧ v = w ∧ s.Refusal name w.tree e) ∨
      ∃ n, validName name = .ok n ∧ s.gate.isOpenIn w.tree ∧ w.perform (rest n) = (r, v) := by
  rw [perform_guarded] at h
  cases hvalid : validName name with
  | error e =>
    rw [hvalid] at h
    cases h
    exact .inl ⟨e, rfl, rfl, .name hvalid⟩
  | ok n =>
    simp only [hvalid] at h
    by_cases hopen : s.gate.isOpenIn w.tree
    · rw [if_pos hopen] at h
      exact .inr ⟨n, rfl, hopen, h⟩
    · rw [if_neg hopen] at h
      cases h
      exact .inl ⟨_, rfl, rfl, .gate (by simpa using hopen)⟩

theorem lookUp_cases {n : String} (hquiet : s.catalog.IsQuiet) (hvalid : validName name = .ok n)
    {next : ExceptT StageError Simulation Unit}
    (h : w.perform (s.lookUp n >>= fun _ ↦ next) = (r, v)) :
    (∃ e, r = .error e ∧ v.tree = w.tree ∧ s.Refusal name w.tree e) ∨
      ∃ u : World, u.tree = w.tree ∧ u.perform next = (r, v) := by
  have htree := leavesFiles_lookUp hquiet n w
  rcases World.perform_bind_cases h with ⟨e, hlookup, rfl⟩ | ⟨_, u, hlookup, h⟩
  · have hunknown : (w.perform (s.lookUp n)).1 = .error e := by rw [hlookup]
    rw [hlookup] at htree
    exact .inl ⟨e, rfl, htree, .catalog hvalid rfl hunknown⟩
  · rw [hlookup] at htree
    exact .inr ⟨u, htree, h⟩

theorem outcome_add (hquiet : s.catalog.IsQuiet) (h : w.perform (s.add name) = (r, v)) :
    s.Outcome .add name w.tree r v.tree := by
  rcases guarded_cases h with ⟨e, rfl, rfl, hreason⟩ | ⟨n, hvalid, -, h⟩
  · exact .refused hreason
  rw [World.perform_bind, perform_packages] at h
  cases hload : s.store.itemsIn w.tree (.ofOperation .remove) with
  | error e =>
    rw [hload] at h
    cases h
    exact .of_stalls (Store.stalls_load hload)
  | ok removed =>
    simp only [hload, World.perform_ite, List.contains_iff_mem] at h
    by_cases hmem : n ∈ removed
    · -- The recorded removal is taken back, and the catalog is not asked.
      rw [if_pos hmem] at h
      rcases log_cases h with hstall | ⟨u, hlogged, h⟩
      · exact .of_stalls hstall
      · rcases Store.save_cases h with ⟨rfl, hsaved⟩ | hstall
        · have hkept := hlogged.itemsIn (.ofOperation .remove) (by decide)
          exact .staged hvalid hlogged (.takenBack (hkept.trans hload) hmem hsaved)
        · exact .of_stalls_logged hvalid hlogged hstall
    · rw [if_neg hmem] at h
      rcases lookUp_cases hquiet hvalid h with ⟨e, rfl, htree, hreason⟩ | ⟨u, htree, h⟩
      · rw [htree]; exact .refused hreason
      · -- The catalog has not touched the lists, so what was read before still stands.
        rw [← htree] at hload ⊢
        rcases log_cases h with hstall | ⟨u', hlogged, h⟩
        · exact .of_stalls hstall
        · have hkept := hlogged.itemsIn (.ofOperation .remove) (by decide)
          rcases record_cases (c := ⟨.add, n⟩) (hkept.trans hload) hmem h with ⟨rfl, hmoved⟩ |
            hstall
          · exact .staged hvalid hlogged hmoved
          · exact .of_stalls_logged hvalid hlogged hstall

theorem outcome_remove (hquiet : s.catalog.IsQuiet) (h : w.perform (s.remove name) = (r, v)) :
    s.Outcome .remove name w.tree r v.tree := by
  rcases guarded_cases h with ⟨e, rfl, rfl, hreason⟩ | ⟨n, hvalid, -, h⟩
  · exact .refused hreason
  rcases lookUp_cases hquiet hvalid h with ⟨e, rfl, htree, hreason⟩ | ⟨u, htree, h⟩
  · rw [htree]; exact .refused hreason
  rw [← htree]
  rcases log_cases h with hstall | ⟨u', hlogged, h⟩
  · exact .of_stalls hstall
  -- The opposite list is read after the log was written, so one that does not load halts the call.
  rw [World.perform_bind, perform_packages] at h
  cases hload : s.store.itemsIn u'.tree (.ofOperation .add) with
  | error e =>
    rw [hload] at h
    cases h
    exact .of_stalls_logged hvalid hlogged (Store.stalls_load hload)
  | ok added =>
    simp only [hload, World.perform_ite, List.contains_iff_mem] at h
    by_cases hmem : n ∈ added
    · rw [if_pos hmem] at h
      rcases Store.save_cases h with ⟨rfl, hsaved⟩ | hstall
      · exact .staged hvalid hlogged (.takenBack hload hmem hsaved)
      · exact .of_stalls_logged hvalid hlogged hstall
    · rw [if_neg hmem] at h
      rcases record_cases (c := ⟨.remove, n⟩) hload hmem h with ⟨rfl, hmoved⟩ | hstall
      · exact .staged hvalid hlogged hmoved
      · exact .of_stalls_logged hvalid hlogged hstall

theorem outcome_stage (hquiet : s.catalog.IsQuiet) (h : w.perform (s.stage o name) = (r, v)) :
    s.Outcome o name w.tree r v.tree := by
  cases o with
  | add => exact outcome_add hquiet h
  | remove => exact outcome_remove hquiet h

theorem staged_of_ok (hquiet : s.catalog.IsQuiet) (h : w.perform (s.stage o name) = (.ok (), v)) :
    ∃ n u, validName name = .ok n ∧ s.store.Logged ⟨o, n⟩ w.tree u ∧
      s.store.Moved ⟨o, n⟩ u v.tree := by
  have houtcome := outcome_stage hquiet h
  generalize v.tree = t at houtcome ⊢
  cases houtcome with
  | staged valid logged moved => exact ⟨_, _, valid, logged, moved⟩

theorem validName_ok {n : String} (h : validName name = .ok n) :
    n = Text.trim name ∧ Text.IsItem n := by
  unfold validName at h
  dsimp only at h
  split at h
  · cases h
  · rename_i hvalid
    cases h
    simp only [Bool.or_eq_true, not_or, List.contains_iff_mem] at hvalid
    exact ⟨rfl, Text.isItem_trim (by simpa using hvalid.1) hvalid.2⟩

theorem stage_ok_of_holds {l : Lists} {n : String} (hquiet : s.catalog.IsQuiet)
    (hs : s.store.Stands w.tree) (hl : s.store.Holds w.tree l) (hvalid : validName name = .ok n)
    (hopen : s.gate.isOpenIn w.tree)
    (hfound : ∀ u : World, u.tree = w.tree → (u.perform (s.lookUp n)).1 = .ok ()) :
    (w.perform (s.stage o name)).1 = .ok () := by
  rcases h : w.perform (s.stage o name) with ⟨r, v⟩
  have ho := outcome_stage hquiet h
  dsimp only
  generalize v.tree = t at ho
  cases ho with
  | staged => rfl
  | halted valid logged stuck storage =>
    obtain ⟨-, hn⟩ := validName_ok valid
    exact absurd stuck ((hs.logged logged).not_isStuck (hl.logged hn logged))
  | refused reason =>
    cases reason with
    | name invalid => cases hvalid.symm.trans invalid
    | gate closed => simp [hopen] at closed
    | catalog valid tree unknown =>
      cases hvalid.symm.trans valid
      cases (hfound _ tree).symm.trans unknown
    | files stuck storage => exact absurd stuck (hs.not_isStuck hl)

theorem clear_cases (h : w.perform s.clear = (r, v)) :
    r = .ok () ∧ s.store.saveIn w.tree .unstaged [] = .ok v.tree ∨ s.store.Stalls w v r := by
  rcases Store.saveLog_cases h with hstall | ⟨u, hsave, h⟩
  · exact .inr hstall
  · cases h
    exact .inl ⟨rfl, hsave⟩

/-- Accepting the agreement writes its marker or changes nothing; where an agreement is required, it
fails unless the marker is written. -/
theorem accept_cases {g : Gate} (h : w.perform g.accept = (r, v)) :
    v = w ∧ (g.status = .requiresAgreement → ∃ e, r = .error e) ∨
      r = .ok () ∧ v.outside = w.outside ∧
        ∃ content, w.tree.write g.agreementFile content = .ok v.tree := by
  unfold Gate.accept at h
  by_cases hg : g.status = .requiresAgreement
  · rw [if_pos hg] at h
    have hstamp : w.perform (liftM (Clock.stamp : Simulation String) :
        ExceptT StageError Simulation String) = (.ok w.moment, w) := rfl
    rw [World.perform_bind_ok hstamp] at h
    rcases World.writeText_cases h with ⟨e, rfl, rfl⟩ | ⟨rfl, houtside, hwrite⟩
    · exact .inl ⟨rfl, fun _ ↦ ⟨_, rfl⟩⟩
    · exact .inr ⟨rfl, houtside, _, hwrite⟩
  · rw [if_neg hg] at h
    cases h
    exact .inl ⟨rfl, fun hstatus ↦ absurd hstatus hg⟩

end Session

end PackageStaging
