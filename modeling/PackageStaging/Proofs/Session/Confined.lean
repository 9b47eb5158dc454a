import PackageStaging.Proofs.Session.Errands
import PackageStaging.Proofs.Session.Progress
import PackageStaging.Proofs.Store.Bootstrap

namespace PackageStaging

open FileTree (newFileMode)

variable {base : Path} {t u : FileTree}

namespace Store

variable {s : Store}

/-- The paths of two lists never lead to the same place. -/
theorem eq_of_locate {a b : StoredList} {place : Place} (ha : t.locate (s.path a) = .ok place)
    (hb : t.locate (s.path b) = .ok place) : a = b := by
  obtain ⟨d, -, rfl⟩ := FileTree.leadsInto_of_locate a.isEntryName ha
  obtain ⟨e, -, he⟩ := FileTree.leadsInto_of_locate b.isEntryName hb
  exact StoredList.fileName_inj (List.cons.inj he).1

theorem stat?_of_changesOnly {lists : List StoredList} {list : StoredList}
    (h : t.ChangesOnly u (lists.map s.path)) (hlist : list ∉ lists) :
    u.stat? (s.path list) = t.stat? (s.path list) := by
  refine h.stat?_eq ?_
  intro q hq place hplace hother
  obtain ⟨other, hmem, rfl⟩ := List.mem_map.1 hq
  exact hlist (eq_of_locate hplace hother ▸ hmem)

end Store

namespace Errand

def targets (base : Path) : Errand → List Path
  | .request (.call (.stage _ _)) => StoredList.all.map (Store.path ⟨base⟩)
  | .request (.call .clear) => [Store.path ⟨base⟩ .unstaged]
  | .request (.call .accept) => [base.child Config.agreementName]
  | .writeSummary path => [path]
  | _ => []

theorem mem_targets {p : Path} {e : Errand} (hp : p ∈ e.targets base) :
    (∃ list, p = Store.path ⟨base⟩ list) ∨ p = base.child Config.agreementName ∨
      e = .writeSummary p := by
  cases e with
  | writeSummary path => exact .inr (.inr (by rw [List.mem_singleton.1 hp]))
  | request r =>
    cases r with
    | question q => cases hp
    | call c =>
      cases c with
      | stage o name =>
        obtain ⟨list, -, rfl⟩ := List.mem_map.1 hp
        exact .inl ⟨list, rfl⟩
      | clear => exact .inl ⟨_, List.mem_singleton.1 hp⟩
      | accept => exact .inr (.inl (List.mem_singleton.1 hp))
      | ask q => cases hp
      | reopen c catalog => cases hp

/-- A change of the files that keeps to what an errand may do behind a gate: to stage a package
changes the log and one of the two lists of names at most, to accept does nothing where nothing is
asked for, and questions and opening again change nothing at all. -/
def Confined (base : Path) (status : GateStatus) (t u : FileTree) : Errand → Prop
  | .request (.call (.stage _ _)) => ∃ o : Operation,
      t.ChangesOnly u [Store.path ⟨base⟩ .unstaged, Store.path ⟨base⟩ (.ofOperation o)] ∧
        u.stat? (Store.path ⟨base⟩ (.ofOperation o.opposite)) =
          t.stat? (Store.path ⟨base⟩ (.ofOperation o.opposite))
  | .request (.call .clear) => t.ChangesOnly u [Store.path ⟨base⟩ .unstaged]
  | .request (.call .accept) =>
      t.ChangesOnly u [base.child Config.agreementName] ∧ (status ≠ .requiresAgreement → u = t)
  | .writeSummary path => t.ChangesOnly u [path]
  | _ => u = t

theorem Confined.changesOnly {status : GateStatus} {e : Errand} (h : e.Confined base status t u) :
    t.ChangesOnly u (e.targets base) := by
  cases e with
  | writeSummary path => exact h
  | request r =>
    cases r with
    | question q => exact h ▸ .refl t _
    | call c =>
      cases c with
      | stage o name =>
        obtain ⟨p, hchanges, -⟩ := h
        refine hchanges.mono ?_
        cases p <;> simp [targets, StoredList.all, StoredList.ofOperation]
      | clear => exact h
      | accept => exact h.1
      | ask q => exact h ▸ .refl t _
      | reopen c catalog => exact h ▸ .refl t _

theorem confined_stage {status : GateStatus} {operation o : Operation} {name : String}
    (h : t.ChangesOnly u (List.map (Store.path ⟨base⟩) [.unstaged, .ofOperation o])) :
    (stage operation name).Confined base status t u := by
  refine ⟨o, h, Store.stat?_of_changesOnly h ?_⟩
  cases o <;> decide

end Errand

theorem Session.start_of_isOk {c : Config} {catalog : Catalog Simulation} {w : World}
    (h : (w.perform (Store.prepare c.base)).1.isOk) :
    ∃ s v, w.perform (start c catalog) = (.ok s, v) := by
  rcases hstart : w.perform (start c catalog) with ⟨r, v⟩
  rcases start_cases hstart with ⟨e, -, hprepare⟩ | ⟨rfl, -⟩
  · rw [hprepare] at h
    cases h
  · exact ⟨_, v, rfl⟩

namespace OpenSession

variable {l : OpenSession} {e : Errand} {errands : List Errand}

theorem isAt_attend (hat : l.session.IsAt base) (he : e.StaysAt base) :
    (l.attend e).2.session.IsAt base := by
  cases e with
  | writeSummary path => exact hat
  | request r =>
    cases r with
    | question q => rwa [attend_question]
    | call c => exact isAt_step hat he

theorem confined_attend (hat : l.session.IsAt base) (hopened : Store.IsOpened ⟨base⟩ l.world.tree)
    (he : e.StaysAt base) :
    e.Confined base l.session.gate.status l.world.tree (l.attend e).2.world.tree := by
  cases e with
  | writeSummary path =>
    rcases hwrite : l.world.perform (l.session.writeSummary path) with ⟨r, v⟩
    have hv : (l.attend (.writeSummary path)).2.world = v := by rw [attend, hwrite]
    rw [hv]
    rcases Session.writeSummary_cases hwrite with rfl | ⟨-, place, hplace, halters⟩
    · exact .refl _ _
    · exact halters.changesOnly hplace
  | request r =>
    cases r with
    | question q =>
      rw [attend_question]
      rfl
    | call c =>
      have heffect := effect_step hat he
      rw [attend_call]
      cases c with
      | stage o name =>
        generalize (l.step (.stage o name)).1 = r, (l.step (.stage o name)).2.world.tree = v
          at heffect ⊢
        cases heffect with
        | refused => exact Errand.confined_stage (o := o) (.refl _ _)
        | staged item logged moved =>
          obtain ⟨p, hmoved⟩ := moved.changesOnly
          exact Errand.confined_stage (logged.changesOnly.trans hmoved)
        | halted e item logged stuck =>
          exact Errand.confined_stage (o := o) (logged.changesOnly.mono (by simp))
      | clear =>
        generalize (l.step .clear).1 = r, (l.step .clear).2.world.tree = v at heffect ⊢
        cases heffect with
        | cleared save => exact FileTree.changesOnly_write save
        | uncleared => exact .refl _ _
      | accept =>
        refine ⟨?_, ?_⟩
        · generalize (l.step .accept).1 = r, (l.step .accept).2.world.tree = v at heffect ⊢
          cases heffect with
          | accepted r write => exact FileTree.changesOnly_write write
          | unaccepted => exact .refl _ _
        · intro hstatus
          rw [step_accept, Gate.accept, if_neg hstatus]
          rfl
      | ask q =>
        rw [step_ask]
        exact q.leavesFiles_act l.session l.world
      | reopen c catalog =>
        obtain ⟨rfl, -⟩ := he
        rw [step, Call.act, Session.start_of_isOpened hopened]
        rfl

/-- The files of a session that was opened at a base directory in a world `w`, after some errands:
apart from what opening added, they are as `w` had them wherever no errand leads. -/
structure IsConfined (w : World) (l : OpenSession) (base : Path) (errands : List Errand) :
    Prop where
  opening : Store.Adds base w.tree l.world.tree
  lists (list : StoredList) : l.world.tree.stat? (Store.path ⟨base⟩ list) =
    some (((w.withDirectory base).tree.stat? (Store.path ⟨base⟩ list)).getD
      (.file "".toUTF8 newFileMode))
  changes : l.world.tree.ChangesOnly (l.after errands).world.tree
    (errands.flatMap (Errand.targets base))
  next (e : Errand) (he : e.StaysAt base) : e.Confined base (l.after errands).session.gate.status
    (l.after errands).world.tree ((l.after errands).attend e).2.world.tree
  again {c : Config} (catalog : Catalog Simulation) (at_base : c.base = base) :
    (l.after errands).world.perform (Session.start c catalog) =
      (.ok (.ofConfig c catalog), (l.after errands).world)
  others {q : Place} {node : Node} (stood : w.tree.node? q = some node)
    (apart : ∀ p ∈ errands.flatMap (Errand.targets base), l.world.tree.locate p ≠ .ok q) :
    (l.after errands).world.tree.node? q = some node
  files {p : Path} {content : ByteArray} {mode : Nat}
    (stood : w.tree.stat? p = some (.file content mode)) :
    ∃ content mode, (l.after errands).world.tree.stat? p = some (.file content mode)

/-- The lists stand throughout the run, which is why opening again along the way makes nothing. -/
theorem changesOnly_after (hat : l.session.IsAt base)
    (hopened : Store.IsOpened ⟨base⟩ l.world.tree) (herrands : ∀ e ∈ errands, e.StaysAt base) :
    (l.after errands).session.IsAt base ∧ l.world.tree.ChangesOnly (l.after errands).world.tree
      (errands.flatMap (Errand.targets base)) := by
  induction errands generalizing l with
  | nil => exact ⟨hat, .refl _ _⟩
  | cons e errands ih =>
    obtain ⟨he, hrest⟩ := List.forall_mem_cons.1 herrands
    have hfirst := (confined_attend hat hopened he).changesOnly
    obtain ⟨hat', hchanges⟩ := ih (isAt_attend hat he) (hopened.changesOnly hfirst) hrest
    exact ⟨hat', hfirst.trans hchanges⟩

variable {c : Config} {catalog : Catalog Simulation} {s : Session Simulation} {w v : World}

/-- Whatever comes of them, errands change the files they are for and no others. -/
theorem effects_confined (hquiet : catalog.IsQuiet)
    (hstart : w.perform (Session.start c catalog) = (.ok s, v))
    (herrands : ∀ e ∈ errands, e.StaysAt c.base) : IsConfined w ⟨s, v⟩ c.base errands := by
  have hat := Session.isAt_start hquiet hstart
  have hopened := (Session.isOpened_start hstart).2
  have hadds := Session.adds_start hstart
  obtain ⟨hat', hchanges⟩ := changesOnly_after (l := ⟨s, v⟩) hat hopened herrands
  have hopened' := hopened.changesOnly hchanges
  refine ⟨hadds, Session.stat?_start hstart, hchanges, fun e he ↦ confined_attend hat' hopened' he,
    ?_, ?_, ?_⟩
  · rintro d catalog' hd
    exact Session.start_of_isOpened (hd ▸ hopened')
  · intro q node hnode hq
    rw [hchanges.elsewhere q hq, hadds.node?_of_some hnode]
  · intro p content mode hp
    exact hchanges.isFile (hadds.stat?_of_some hp)

end OpenSession

def World.noted : World :=
  { World.bare with tree := World.bare.tree.put ["notes"] (.file "keep".toUTF8 0o600) }

def Config.nested : Config := { Config.bare with baseDirectory := some ⟨"/srv/pkg/./stage/"⟩ }

theorem OpenSession.effects_confined_nested :
    let errands : List Errand := [.stage .add "vim", .accept, .writeSummary ⟨"/report"⟩,
      .reopen .nested .full, .stage .remove "vim", .clear]
    ∃ s v, World.noted.perform (Session.start .nested .full) = (.ok s, v) ∧
      IsConfined World.noted ⟨s, v⟩ Config.nested.base errands ∧
      (after ⟨s, v⟩ errands).world.tree.node? ["notes"] = some (.file "keep".toUTF8 0o600) := by
  intro errands
  have hopens : (World.noted.perform (Store.prepare Config.nested.base)).1.isOk := by
    decide +kernel
  obtain ⟨s, v, hstart⟩ : ∃ s v, World.noted.perform (Session.start .nested .full) = (.ok s, v) :=
    Session.start_of_isOk hopens
  have hquiet : Catalog.full.IsQuiet := Catalog.isQuiet_fixed _
  have hstays : ∀ e ∈ errands, e.StaysAt Config.nested.base := by
    simp [errands, Errand.StaysAt, Errand.stage, Errand.accept, Errand.reopen, Errand.clear,
      Call.StaysAt, hquiet]
  have hconfined := effects_confined hquiet hstart hstays
  refine ⟨s, v, hstart, hconfined, hconfined.others rfl ?_⟩
  have hentry {p : Path} {n : String} (hn : IsEntryName n) (hne : "notes" ≠ n) :
      v.tree.locate (p.child n) ≠ .ok ["notes"] := by
    intro hl
    obtain ⟨d, -, hd⟩ := FileTree.leadsInto_of_locate hn hl
    exact hne (List.cons.inj hd).1
  intro p hp
  obtain ⟨e, he, hp⟩ := List.mem_flatMap.1 hp
  rcases Errand.mem_targets hp with ⟨list, rfl⟩ | rfl | rfl
  · exact hentry list.isEntryName (by cases list <;> decide)
  · exact hentry Config.isEntryName_agreementName (by decide)
  · obtain rfl : p = ⟨"/report"⟩ := by
      simpa [errands, Errand.stage, Errand.accept, Errand.reopen, Errand.clear] using he
    have hreport : IsEntryName "report" := ⟨by decide, by decide, by decide, by decide, by decide⟩
    have hroot : (⟨"/report"⟩ : Path) = Path.child ⟨"/"⟩ "report" := by decide
    rw [hroot]
    exact hentry hreport (by decide)

end PackageStaging
