import PackageStaging.Proofs.Session.Applied
import PackageStaging.Proofs.Store.Readable

namespace PackageStaging

namespace Session

variable {s : Session Simulation} {w : World} {o : Operation} {name n : String}

def Knows (s : Session Simulation) (w : World) (n : String) : Prop :=
  (w.perform (s.lookUp n)).1 = .ok ()

theorem lookUp_then_ok_iff (hquiet : s.catalog.IsQuiet)
    {next : ExceptT StageError Simulation Unit}
    (hnext : ∀ u : World, u.tree = w.tree → (u.perform next).1 = .ok ()) :
    (w.perform (s.lookUp n >>= fun _ ↦ next)).1 = .ok () ↔ s.Knows w n := by
  have htree := leavesFiles_lookUp hquiet n w
  rw [Knows, World.perform_bind]
  rcases hlookUp : w.perform (s.lookUp n) with ⟨r, u⟩
  rw [hlookUp] at htree
  cases r with
  | error e => exact Iff.rfl
  | ok a => exact iff_of_true (hnext u htree) rfl

variable {names : Operation → List String}

theorem log_then_ok {c : Change} {next : ExceptT StageError Simulation Unit}
    (hr : s.store.IsReadable w.tree) (hnames : s.store.HoldsNames w.tree names)
    (hnext : ∀ u : World, s.store.IsReadable u.tree → s.store.HoldsNames u.tree names →
      (u.perform next).1 = .ok ()) :
    (w.perform (s.log c >>= fun _ ↦ next)).1 = .ok () := by
  rcases h : w.perform (s.log c >>= fun _ ↦ next) with ⟨r, v⟩
  rcases log_cases h with hstall | ⟨u, hlogged, h⟩
  · exact absurd hstall.stuck hr.not_isStuck
  · have hu := hnext u (hr.logged hlogged) (hnames.logged hlogged)
    rwa [h] at hu

theorem save_ok {list : StoredList} {items : List String} (hr : s.store.IsReadable w.tree) :
    (w.perform (s.store.save list items)).1 = .ok () := by
  obtain ⟨u, hu⟩ := hr.exists_save list items
  rw [Store.perform_save, hu]

theorem record_ok {c : Change} (hr : s.store.IsReadable w.tree)
    (hnames : s.store.HoldsNames w.tree names) : (w.perform (s.record c)).1 = .ok () := by
  rw [record, World.perform_bind, perform_packages, hnames]
  dsimp only
  rw [World.perform_ite]
  split
  · rfl
  · exact save_ok hr

/-- What lets a change through: a name that is valid and an open gate, and either a recorded removal
to take back or a catalog that has the name. -/
def Lets (s : Session Simulation) (w : World) (removed : List String) (o : Operation)
    (name : String) : Prop :=
  ∃ n, validName name = .ok n ∧ s.gate.isOpenIn w.tree ∧ (o = .add ∧ n ∈ removed ∨ s.Knows w n)

theorem guarded_ok_iff {rest : String → ExceptT StageError Simulation Unit} :
    (w.perform (MonadExcept.ofExcept (validName name) >>= fun n ↦
        s.gate.check >>= fun _ ↦ rest n)).1 = .ok () ↔
      ∃ n, validName name = .ok n ∧ s.gate.isOpenIn w.tree ∧ (w.perform (rest n)).1 = .ok () := by
  rw [perform_guarded]
  cases validName name with
  | error e => simp
  | ok n => by_cases hopen : s.gate.isOpenIn w.tree <;> simp [hopen]

theorem stage_ok_iff (hquiet : s.catalog.IsQuiet) (hr : s.store.IsReadable w.tree)
    (hnames : s.store.HoldsNames w.tree names) :
    (w.perform (s.stage o name)).1 = .ok () ↔ s.Lets w (names .remove) o name := by
  cases o with
  | add =>
    refine guarded_ok_iff.trans (exists_congr fun n ↦ and_congr_right fun _ ↦
      and_congr_right fun _ ↦ ?_)
    rw [World.perform_bind, perform_packages, hnames]
    dsimp only
    rw [World.perform_ite]
    by_cases hmem : n ∈ names .remove
    · rw [if_pos (List.contains_iff_mem.2 hmem)]
      exact iff_of_true (log_then_ok hr hnames fun u hu _ ↦ save_ok hu) (.inl ⟨rfl, hmem⟩)
    · rw [if_neg (mt List.contains_iff_mem.1 hmem)]
      simp only [hmem, and_false, false_or]
      -- The lookup hands on the files as they are, so what is written after it cannot fail.
      refine lookUp_then_ok_iff hquiet fun u hu ↦ ?_
      rw [← hu] at hr hnames
      exact log_then_ok hr hnames fun _ ↦ record_ok
  | remove =>
    refine guarded_ok_iff.trans (exists_congr fun n ↦ and_congr_right fun _ ↦
      and_congr_right fun _ ↦ ?_)
    simp only [reduceCtorEq, false_and, false_or]
    refine lookUp_then_ok_iff hquiet fun u hu ↦ ?_
    rw [← hu] at hr hnames
    refine log_then_ok hr hnames fun v hv hvnames ↦ ?_
    rw [World.perform_bind, perform_packages, hvnames]
    dsimp only
    rw [World.perform_ite]
    split
    · exact save_ok hv
    · exact record_ok hv hvnames

end Session

def Call.isEdit : Call → Bool
  | stage _ _ | clear => true
  | _ => false

namespace OpenSession

variable {l : OpenSession} {base : Path} {lists : Lists} {c : Call} {calls : List Call}
  {o : Operation} {name : String}

def Succeeds (l : OpenSession) : List Call → Prop
  | [] => True
  | c :: calls => (l.step c).1 = .ok () ∧ (l.step c).2.Succeeds calls

theorem run_cons (l : OpenSession) (c : Call) (calls : List Call) :
    l.run (c :: calls) = (l.step c).2.run calls := by
  induction calls using List.reverseRecOn with
  | nil => exact l.run_concat [] c
  | append_singleton calls d ih => rw [← List.cons_append, run_concat, run_concat, ih]

/-- A session at a readable base directory, and what its lists hold. -/
structure Has (l : OpenSession) (base : Path) (lists : Lists) : Prop where
  isAt : l.session.IsAt base
  readable : Store.IsReadable ⟨base⟩ l.world.tree
  holds : Store.Holds ⟨base⟩ l.world.tree lists

theorem staged_of_ok (hat : l.session.IsAt base) (hok : (l.step (.stage o name)).1 = .ok ()) :
    Text.IsItem (Text.trim name) ∧ ∃ u, Store.Logged ⟨base⟩ ⟨o, Text.trim name⟩ l.world.tree u ∧
      Store.Moved ⟨base⟩ ⟨o, Text.trim name⟩ u (l.step (.stage o name)).2.world.tree := by
  have he := effect_step (c := .stage o name) hat trivial
  rw [hok] at he
  generalize (l.step (.stage o name)).2.world.tree = t at he ⊢
  cases he with
  | staged item logged moved => exact ⟨item, _, logged, moved⟩

theorem Has.shows (h : l.Has base lists) : l.Shows lists where
  packages o := by
    rw [packages, Session.perform_packages, h.isAt.store]
    exact h.holds.names o
  unstaged := by
    rw [unstaged, Session.unstaged, Store.perform_loadLog, h.isAt.store]
    exact h.holds.log

theorem Records.has (h : l.Records base lists) : l.Has base lists :=
  ⟨h.isAt, Store.isReadable_of_stands h.stands h.holds, h.holds⟩

theorem Has.stage_ok_iff (h : l.Has base lists) :
    (l.step (.stage o name)).1 = .ok () ↔
      l.session.Lets l.world (lists.names .remove) o name := by
  have hr := h.readable
  have hnames := h.holds.names
  rw [← h.isAt.store] at hr hnames
  rw [step_stage]
  exact Session.stage_ok_iff h.isAt.quiet hr hnames

theorem Has.stage (h : l.Has base lists) (hok : (l.step (.stage o name)).1 = .ok ()) :
    (l.step (.stage o name)).2.Has base (lists.stage ⟨o, Text.trim name⟩) := by
  obtain ⟨hitem, u, hlogged, hmoved⟩ := staged_of_ok h.isAt hok
  exact ⟨isAt_step h.isAt trivial, (h.readable.logged hlogged).moved hmoved,
    h.holds.stage hitem hlogged hmoved⟩

theorem Has.clear (h : l.Has base lists) :
    (l.step .clear).1 = .ok () ∧ (l.step .clear).2.Has base lists.clear := by
  have hat := isAt_step (c := .clear) h.isAt trivial
  have he := effect_step (c := .clear) h.isAt trivial
  generalize (l.step .clear).1 = r at he ⊢
  generalize (l.step .clear).2 = l' at he hat ⊢
  generalize ht : l'.world.tree = t at he
  cases he with
  | cleared save =>
    rw [← ht] at save
    exact ⟨rfl, hat, h.readable.save save, h.holds.clear save⟩
  | uncleared e stuck => exact absurd stuck h.readable.not_isStuck

theorem Has.succeeds (h : l.Has base lists) (hgate : l.session.gate.status ≠ .requiresAgreement)
    (hfull : l.session.catalog.IsFull) (hcalls : ∀ c ∈ calls, c.isPlain) : l.Succeeds calls := by
  induction calls generalizing l lists with
  | nil => trivial
  | cons c calls ih =>
    obtain ⟨hc, hplain⟩ := List.forall_mem_cons.1 hcalls
    have hnext {lists' : Lists} (hstep : (l.step c).2.Has base lists')
        (hsession : (l.step c).2.session = l.session) : (l.step c).2.Succeeds calls :=
      ih hstep (hsession ▸ hgate) (hsession ▸ hfull) hplain
    cases c with
    | stage o name =>
      obtain ⟨n, hvalid⟩ := Session.exists_validName hc
      have hopen : l.session.gate.isOpenIn l.world.tree := by simp [Gate.isOpenIn, hgate]
      have hfirst : (l.step (.stage o name)).1 = .ok () :=
        h.stage_ok_iff.2 ⟨n, hvalid, hopen, .inr (Session.lookUp_ok hfull l.world n)⟩
      exact ⟨hfirst, hnext (h.stage hfirst) (by rw [step_stage])⟩
    | clear => exact ⟨h.clear.1, hnext h.clear.2 (by rw [step_clear])⟩
    | _ => cases hc

def tidy : OpenSession := ⟨bare.session, .tidy⟩

theorem has_tidy : tidy.Has Config.bare.base .tidy where
  isAt := ⟨rfl, rfl, Catalog.isQuiet_fixed _⟩
  readable := isReadable_spelled _
  holds := holds_tidy

theorem succeeds_tidy (hcalls : ∀ c ∈ calls, c.isPlain) : tidy.Succeeds calls :=
  has_tidy.succeeds (by decide) Catalog.isFull_full hcalls

end OpenSession

end PackageStaging
