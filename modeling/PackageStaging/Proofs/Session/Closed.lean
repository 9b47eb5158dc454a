import PackageStaging.Proofs.Session.Errands
import PackageStaging.Proofs.Session.Progress
import PackageStaging.Proofs.Store.Readable

namespace PackageStaging

namespace Session

variable {s : Session Simulation} {w : World}

/-- The name and the gate alone decide how staging ends, whatever the catalog would do. -/
theorem stage_of_closed (hclosed : s.gate.isOpenIn w.tree = false) (o : Operation)
    (name : String) : ∃ e, (∀ n, validName name = .ok n → e = .agreementRequired) ∧
      ∀ catalog, w.perform ({ s with catalog }.stage o name) = (.error e, w) := by
  obtain ⟨e, he, hguard⟩ : ∃ e, (∀ n, validName name = .ok n → e = .agreementRequired) ∧
      ∀ rest : String → ExceptT StageError Simulation Unit,
        w.perform (MonadExcept.ofExcept (validName name) >>= fun n ↦
          s.gate.check >>= fun _ ↦ rest n) = (.error e, w) := by
    simp only [perform_guarded, hclosed]
    cases validName name with
    | error e => exact ⟨e, by simp, fun rest ↦ rfl⟩
    | ok n => exact ⟨.agreementRequired, by simp, fun rest ↦ rfl⟩
  refine ⟨e, he, fun catalog ↦ ?_⟩
  cases o with
  | add => exact hguard _
  | remove => exact hguard _

theorem keepsOutside_clear (s : Session Simulation) : Keeps World.outside s.clear :=
  Keeps.bind ((s.store.keepsOutside_save _ _).bind fun _ ↦ keeps_pure _) fun _ ↦ keeps_pure _

end Session

theorem Store.stat?_agreement_logged {s : Store} {c : Change} {t u : FileTree}
    (h : s.Logged c t u) :
    u.stat? (s.base.child Config.agreementName) = t.stat? (s.base.child Config.agreementName) := by
  obtain ⟨log, -, hsave⟩ := h
  exact stat?_agreement_save hsave

theorem Store.stat?_agreement_moved {s : Store} {c : Change} {t u : FileTree}
    (h : s.Moved c t u) :
    u.stat? (s.base.child Config.agreementName) = t.stat? (s.base.child Config.agreementName) := by
  rcases h.unchanged_or_saved with rfl | ⟨o, items, hsave⟩
  · rfl
  · exact stat?_agreement_save hsave

theorem Session.stat?_agreement_start {c : Config} {catalog : Catalog Simulation} {w v : World}
    {d : Place} {r : Except StageError (Session Simulation)} (hd : w.tree.Enters c.base d)
    (h : w.perform (start c catalog) = (r, v)) :
    v.tree.stat? c.agreementFile = w.tree.stat? c.agreementFile := by
  refine start_induction (P := fun t ↦ t.stat? c.agreementFile = w.tree.stat? c.agreementFile)
    ?_ ?_ h
  · intro list t u ht hnone hsave
    exact (Store.stat?_agreement_save hsave).trans ht
  · rw [World.withDirectory_of_enters hd]

theorem Call.Effect.isSome_agreement {base : Path} {t u : FileTree} {c : Call}
    {r : Except StageError Unit} (he : c.Effect base t r u)
    (ht : (t.stat? (base.child Config.agreementName)).isSome) :
    (u.stat? (base.child Config.agreementName)).isSome := by
  cases he with
  | refused | uncleared | unaccepted | asked => exact ht
  | staged item logged moved =>
    have hmoved := Store.stat?_agreement_moved moved
    have hlogged := Store.stat?_agreement_logged logged
    rwa [hmoved, hlogged]
  | halted e item logged stuck =>
    have hlogged := Store.stat?_agreement_logged logged
    rwa [hlogged]
  | cleared save =>
    have hsave := Store.stat?_agreement_save save
    rwa [hsave]
  | accepted r write =>
    obtain ⟨mode, hmode⟩ := FileTree.stat?_write_self Config.isEntryName_agreementName write
    rw [hmode]
    rfl
  | reopened at_base start reopen =>
    subst at_base start
    obtain ⟨node, hnode⟩ := Option.isSome_iff_exists.1 ht
    obtain ⟨d, hd, -⟩ := FileTree.leadsInto_of_stat? Config.isEntryName_agreementName hnode
    have hstart := Session.stat?_agreement_start hd.enters reopen
    rwa [← Config.agreementFile, hstart]

def Errand.IsGuarded (base : Path) : Errand → Prop
  | .request (.call (.reopen c catalog)) =>
    c.base = base ∧ c.status = .requiresAgreement ∧ catalog.IsQuiet
  | _ => True

theorem Errand.IsGuarded.staysAt {base : Path} {e : Errand} (h : e.IsGuarded base) :
    e.StaysAt base := by
  cases e with
  | writeSummary path => trivial
  | request r =>
    cases r with
    | question q => trivial
    | call c =>
      cases c with
      | reopen config catalog => exact ⟨h.1, h.2.2⟩
      | _ => trivial

def Config.guarded : Config := { Config.bare with status := .requiresAgreement }

/-- What some errands may make of what stands as a list while the gate is closed: a missing list is
made when a session is opened, and the log is cleared. -/
inductive Leave (errands : List Errand) : StoredList → Option Node → Option Node → Prop
  | kept (list : StoredList) (node? : Option Node) : Leave errands list node? node?
  | made {c : Config} {catalog : Catalog Simulation} (list : StoredList) (mode : Nat)
      (mem : .reopen c catalog ∈ errands) :
      Leave errands list none (some (.file "".toUTF8 mode))
  | cleared (node? : Option Node) (mode : Nat) (mem : .clear ∈ errands) :
      Leave errands .unstaged node? (some (.file "".toUTF8 mode))

theorem Leave.append {before rest : List Errand} {list : StoredList} {x y z : Option Node}
    (h : Leave before list x y) (h' : Leave rest list y z) :
    Leave (before ++ rest) list x z := by
  cases h' with
  | kept =>
    cases h with
    | kept => exact .kept _ _
    | made _ _ mem => exact .made _ _ (List.mem_append_left _ mem)
    | cleared _ _ mem => exact .cleared _ _ (List.mem_append_left _ mem)
  | made _ _ mem =>
    cases h with
    | kept => exact .made _ _ (List.mem_append_right _ mem)
  | cleared _ _ mem => exact .cleared _ _ (List.mem_append_right _ mem)

namespace OpenSession

variable {l : OpenSession} {base : Path} {e : Errand} {errands : List Errand}

/-- Nothing is staged or reported, and no catalog is asked. -/
structure IsShut (l : OpenSession) : Prop where
  stage (o : Operation) (name : String) :
    ∃ e, (∀ n, Session.validName name = .ok n → e = .agreementRequired) ∧
      ∀ catalog, l.world.perform ({ l.session with catalog }.stage o name) = (.error e, l.world)
  summary : l.world.perform l.session.summary = (.ok "", l.world)
  writeSummary (path : Path) :
    l.world.perform (l.session.writeSummary path) = (.ok false, l.world)

theorem isShut_of_closed (h : l.session.gate.isOpenIn l.world.tree = false) : l.IsShut where
  stage := Session.stage_of_closed h
  summary := Session.summary_of_closed h
  writeSummary := Session.writeSummary_of_closed h

structure Waits (l : OpenSession) (base : Path) : Prop where
  isAt : l.session.IsAt base
  status : l.session.gate.status = .requiresAgreement
  enters : ∃ d, l.world.tree.Enters base d
  absent : l.world.tree.stat? (base.child Config.agreementName) = none

theorem Waits.isShut (h : l.Waits base) : l.IsShut := by
  refine isShut_of_closed ?_
  rw [Gate.isOpenIn, h.status, h.isAt.agreementFile, h.absent]
  rfl

/-- How a session goes on as long as its gate stays closed. -/
structure StaysShut (l : OpenSession) (base : Path) (errands : List Errand) (now : OpenSession) :
    Prop where
  waits : now.Waits base
  outside : now.world.outside = l.world.outside
  lists (list : StoredList) : Leave errands list (l.world.tree.stat? (Store.path ⟨base⟩ list))
    (now.world.tree.stat? (Store.path ⟨base⟩ list))

theorem Waits.staysShut (h : l.Waits base) (errands : List Errand) :
    l.StaysShut base errands l := ⟨h, rfl, fun _ ↦ .kept _ _⟩

theorem StaysShut.append {k now : OpenSession} {rest : List Errand}
    (h : l.StaysShut base errands k) (h' : k.StaysShut base rest now) :
    l.StaysShut base (errands ++ rest) now where
  waits := h'.waits
  outside := h'.outside.trans h.outside
  lists list := (h.lists list).append (h'.lists list)

theorem Waits.clear (h : l.Waits base) : l.StaysShut base [.clear] (l.step .clear).2 := by
  have hat := isAt_step (c := .clear) h.isAt trivial
  rw [step_clear] at hat ⊢
  rcases hclear : l.world.perform l.session.clear with ⟨r, v⟩
  have houtside := l.session.keepsOutside_clear l.world
  rw [hclear] at hat houtside
  rcases Session.clear_cases hclear with ⟨-, hsave⟩ | hstall
  · rw [h.isAt.store] at hsave
    obtain ⟨d, hd⟩ := h.enters
    have hstat := Store.stat?_agreement_save hsave
    refine ⟨⟨hat, h.status, ⟨d, Store.enters_save hd hsave⟩, hstat.trans h.absent⟩, houtside, ?_⟩
    intro list
    by_cases hl : list = .unstaged
    · subst hl
      obtain ⟨mode, hmode⟩ := FileTree.stat?_write_self StoredList.unstaged.isEntryName hsave
      rw [Store.path, hmode]
      exact .cleared _ _ (List.mem_singleton_self _)
    · have hkept := FileTree.stat?_write_of_ne StoredList.unstaged.isEntryName list.isEntryName
        (StoredList.fileName_ne hl) hsave
      rw [Store.path, hkept]
      exact .kept _ _
  · rw [hstall.unchanged]
    exact h.staysShut _

theorem leave_start {c : Config} {catalog : Catalog Simulation} {w v : World} {d : Place}
    {r : Except StageError (Session Simulation)} (hd : w.tree.Enters c.base d)
    (h : w.perform (Session.start c catalog) = (r, v)) :
    v.tree.Enters c.base d ∧ ∀ list, Leave [.reopen c catalog] list
      (w.tree.stat? (Store.path ⟨c.base⟩ list)) (v.tree.stat? (Store.path ⟨c.base⟩ list)) := by
  refine Session.start_induction (P := fun t ↦ t.Enters c.base d ∧ ∀ list,
    Leave [.reopen c catalog] list (w.tree.stat? (Store.path ⟨c.base⟩ list))
      (t.stat? (Store.path ⟨c.base⟩ list))) ?_ ?_ h
  · rintro list t u ⟨ht, hlists⟩ hnone hsave
    refine ⟨Store.enters_save ht hsave, fun other ↦ ?_⟩
    have hother := hlists other
    by_cases ho : other = list
    · subst ho
      rw [hnone] at hother
      obtain ⟨mode, hmode⟩ := FileTree.stat?_write_self other.isEntryName hsave
      replace hmode : u.stat? (Store.path ⟨c.base⟩ other) = some (.file "".toUTF8 mode) := hmode
      rw [hmode]
      generalize w.tree.stat? (Store.path ⟨c.base⟩ other) = before at hother ⊢
      cases hother with
      | kept => exact .made _ _ (List.mem_singleton_self _)
    · have hkept := FileTree.stat?_write_of_ne list.isEntryName other.isEntryName
        (StoredList.fileName_ne ho) hsave
      rw [Store.path, hkept]
      exact hother
  · rw [World.withDirectory_of_enters hd]
    exact ⟨hd, fun _ ↦ .kept _ _⟩

theorem Waits.reopen (h : l.Waits base) {c : Config} {catalog : Catalog Simulation}
    (he : (Errand.reopen c catalog).IsGuarded base) :
    l.StaysShut base [.reopen c catalog] (l.step (.reopen c catalog)).2 := by
  obtain ⟨rfl, hstatus, hquiet⟩ := he
  obtain ⟨d, hd⟩ := h.enters
  have hat := isAt_step (c := .reopen c catalog) h.isAt ⟨rfl, hquiet⟩
  rw [step, Call.act] at hat ⊢
  rcases hstart : l.world.perform (Session.start c catalog) with ⟨r, v⟩
  rw [hstart] at hat
  obtain ⟨hv, hlists⟩ := leave_start hd hstart
  have hstat := (Session.stat?_agreement_start hd hstart).trans h.absent
  have houtside := Session.outside_start hd hstart
  rcases Session.start_cases hstart with ⟨e, rfl, -⟩ | ⟨rfl, -⟩
  · exact ⟨⟨hat, h.status, ⟨d, hv⟩, hstat⟩, houtside, hlists⟩
  · exact ⟨⟨hat, hstatus, ⟨d, hv⟩, hstat⟩, houtside, hlists⟩

def Agrees (l : OpenSession) (errands : List Errand) : Prop :=
  ∃ before rest, errands = before ++ .accept :: rest ∧
    ((l.after before).attend .accept).1 = .ok .done

theorem agrees_concat : l.Agrees (errands ++ [e]) ↔
    l.Agrees errands ∨ e = .accept ∧ ((l.after errands).attend .accept).1 = .ok .done := by
  constructor
  · rintro ⟨before, rest, heq, hok⟩
    rcases rest.eq_nil_or_concat with rfl | ⟨rest, last, rfl⟩
    · obtain ⟨rfl, hlast⟩ := List.append_inj' heq rfl
      exact .inr ⟨List.singleton_inj.1 hlast, hok⟩
    · rw [List.concat_eq_append, ← List.cons_append, ← List.append_assoc] at heq
      obtain ⟨rfl, -⟩ := List.append_inj' heq rfl
      exact .inl ⟨before, rest, rfl, hok⟩
  · rintro (⟨before, rest, rfl, hok⟩ | ⟨rfl, hok⟩)
    · exact ⟨before, rest ++ [e], by simp, hok⟩
    · exact ⟨errands, [], rfl, hok⟩

theorem Waits.accept (h : l.Waits base) (hno : (l.attend .accept).1 ≠ .ok .done) :
    l.StaysShut base [.accept] (l.step .accept).2 := by
  rw [reply_accept, step_accept] at hno
  rw [step_accept]
  rcases haccept : l.world.perform l.session.gate.accept with ⟨r, v⟩
  rw [haccept] at hno
  rcases Session.accept_cases haccept with ⟨rfl, -⟩ | ⟨rfl, -⟩
  · exact h.staysShut _
  · exact absurd rfl hno

theorem Waits.attend (h : l.Waits base) (he : e.IsGuarded base)
    (hno : ¬ (e = .accept ∧ (l.attend .accept).1 = .ok .done)) :
    l.StaysShut base [e] (l.attend e).2 := by
  cases e with
  | writeSummary path =>
    have hworld := h.isShut.writeSummary path
    rw [OpenSession.attend, hworld]
    exact h.staysShut _
  | request r =>
    cases r with
    | question q =>
      rw [attend_question]
      exact h.staysShut _
    | call c =>
      rw [attend_call]
      cases c with
      | clear => exact h.clear
      | reopen c catalog => exact h.reopen he
      | stage o name =>
        obtain ⟨e, -, hstage⟩ := h.isShut.stage o name
        have hkept := hstage l.session.catalog
        rw [step_stage, hkept]
        exact h.staysShut _
      | accept => exact h.accept fun hok ↦ hno ⟨rfl, hok⟩
      | ask q =>
        have hkept := q.keeps_act l.session l.world
        rw [id, id] at hkept
        rw [step_ask, hkept]
        exact h.staysShut _

theorem Waits.after (h : l.Waits base) (herrands : ∀ e ∈ errands, e.IsGuarded base)
    (hno : ¬ l.Agrees errands) : l.StaysShut base errands (l.after errands) := by
  induction errands using List.reverseRecOn with
  | nil => exact h.staysShut []
  | append_singleton errands e ih =>
    obtain ⟨hinit, hlast⟩ := List.forall_mem_append.1 herrands
    rw [agrees_concat, not_or] at hno
    have hbefore := ih hinit hno.1
    rw [after_concat]
    exact hbefore.append (hbefore.waits.attend (hlast e (List.mem_singleton_self e)) hno.2)

structure HasAgreed (l : OpenSession) (base : Path) : Prop where
  isAt : l.session.IsAt base
  marker : (l.world.tree.stat? (base.child Config.agreementName)).isSome

theorem HasAgreed.isOpenIn (h : l.HasAgreed base) : l.session.gate.isOpenIn l.world.tree := by
  refine Gate.isOpenIn_of_isSome ?_
  rw [h.isAt.agreementFile]
  exact h.marker

theorem HasAgreed.check (h : l.HasAgreed base) :
    l.world.perform l.session.gate.check = (.ok (), l.world) := by
  rw [Gate.perform_check, if_pos h.isOpenIn]

theorem HasAgreed.attend (h : l.HasAgreed base) (he : e.StaysAt base) :
    (l.attend e).2.HasAgreed base := by
  cases e with
  | writeSummary path =>
    rw [OpenSession.attend]
    rcases hwrite : l.world.perform (l.session.writeSummary path) with ⟨r, v⟩
    refine ⟨h.isAt, ?_⟩
    rcases Session.writeSummary_cases hwrite with rfl | ⟨-, place, -, halters⟩
    · exact h.marker
    · exact halters.isSome_stat? h.marker
  | request r =>
    cases r with
    | question q => rwa [attend_question]
    | call c => exact ⟨isAt_step h.isAt he, (effect_step h.isAt he).isSome_agreement h.marker⟩

theorem Waits.hasAgreed (h : l.Waits base) (hok : (l.attend .accept).1 = .ok .done) :
    (l.attend .accept).2.HasAgreed base := by
  rw [reply_accept, step_accept] at hok
  rw [Errand.accept, attend_call, step_accept]
  refine ⟨h.isAt, ?_⟩
  rcases haccept : l.world.perform l.session.gate.accept with ⟨r, v⟩
  rw [haccept] at hok
  rcases Session.accept_cases haccept with ⟨-, hrefused⟩ | ⟨-, -, content, hwrite⟩
  · obtain ⟨e, rfl⟩ := hrefused h.status
    cases hok
  · rw [h.isAt.agreementFile] at hwrite
    obtain ⟨mode, hmode⟩ := FileTree.stat?_write_self Config.isEntryName_agreementName hwrite
    rw [hmode]
    rfl

theorem Waits.hasAgreed_after (h : l.Waits base) (herrands : ∀ e ∈ errands, e.IsGuarded base)
    (hagrees : l.Agrees errands) : (l.after errands).HasAgreed base := by
  induction errands using List.reverseRecOn with
  | nil =>
    obtain ⟨before, rest, heq, -⟩ := hagrees
    simp at heq
  | append_singleton errands e ih =>
    obtain ⟨hinit, hlast⟩ := List.forall_mem_append.1 herrands
    rw [after_concat]
    by_cases hbefore : l.Agrees errands
    · exact (ih hinit hbefore).attend (hlast e (List.mem_singleton_self e)).staysAt
    · obtain ⟨rfl, hok⟩ := (agrees_concat.1 hagrees).resolve_left hbefore
      exact (h.after hinit hbefore).waits.hasAgreed hok

/-- A closed gate keeps everything out until the agreement is accepted, and then it stays open. The
session may be in any world that has the base directory: its first errand may be the one that opens
it. -/
theorem closed_until_accepted (hat : l.session.IsAt base)
    (hstatus : l.session.gate.status = .requiresAgreement)
    (hdir : ∃ d, l.world.tree.Enters base d)
    (habsent : l.world.tree.stat? (base.child Config.agreementName) = none)
    (herrands : ∀ e ∈ errands, e.IsGuarded base) :
    let now := l.after errands
    (¬ l.Agrees errands → now.IsShut ∧ now.world.outside = l.world.outside ∧
      ∀ list, Leave errands list (l.world.tree.stat? (Store.path ⟨base⟩ list))
        (now.world.tree.stat? (Store.path ⟨base⟩ list))) ∧
      (l.Agrees errands → now.world.perform now.session.gate.check = (.ok (), now.world)) := by
  intro now
  have hwaits : l.Waits base := ⟨hat, hstatus, hdir, habsent⟩
  refine ⟨fun hno ↦ ?_, fun hagrees ↦ (hwaits.hasAgreed_after herrands hagrees).check⟩
  have hnow := hwaits.after herrands hno
  exact ⟨hnow.waits.isShut, hnow.outside, hnow.lists⟩

def guarded : OpenSession := ⟨.ofConfig .guarded .full, .bare⟩

theorem closed_until_accepted_guarded :
    (guarded.after [.reopen .guarded .full, .stage .add "vim", .clear,
      .writeSummary ⟨"/summary"⟩]).IsShut ∧
    let now := guarded.after [.accept, .stage .add "vim", .clear, .reopen .guarded .full]
    now.world.perform now.session.gate.check = (.ok (), now.world) := by
  have hat : guarded.session.IsAt Config.bare.base := ⟨rfl, rfl, Catalog.isQuiet_fixed _⟩
  have hdir : ∃ d, guarded.world.tree.Enters Config.bare.base d :=
    ⟨_, (isReachable_bare .add).enters⟩
  have hreopen : (Errand.reopen .guarded .full).IsGuarded Config.bare.base :=
    ⟨rfl, rfl, Catalog.isQuiet_fixed _⟩
  constructor
  · refine ((closed_until_accepted hat rfl hdir rfl ?_).1 ?_).1
    · simpa [Errand.IsGuarded, Errand.stage, Errand.clear] using hreopen
    · rintro ⟨before, rest, heq, -⟩
      have hmem : Errand.accept ∈ before ++ .accept :: rest := by simp
      rw [← heq] at hmem
      simp [Errand.accept, Errand.stage, Errand.clear, Errand.reopen] at hmem
  · refine (closed_until_accepted hat rfl hdir rfl ?_).2 ⟨[], _, rfl, rfl⟩
    simpa [Errand.IsGuarded, Errand.accept, Errand.stage, Errand.clear] using hreopen

end OpenSession

end PackageStaging
