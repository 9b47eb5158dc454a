import PackageStaging.Proofs.CommandLine.Configuration
import PackageStaging.Proofs.Session.Unhindered

namespace PackageStaging.CommandLine

theorem stageEach_of_isFree {s : Session Simulation} {w : World} {base : Path} {lists : Lists}
    {o : Operation} {packages : List String} (h : OpenSession.IsFree ⟨s, w⟩ base lists)
    (hvalid : ∀ p ∈ packages, ∃ n, Session.validName p = .ok n) :
    (stageEach s o packages w).1 = .ok () := by
  induction packages generalizing w lists with
  | nil => rfl
  | cons p packages ih =>
    obtain ⟨⟨n, hn⟩, hvalid⟩ := List.forall_mem_cons.1 hvalid
    obtain ⟨hok, hnext⟩ := h.step (c := .stage o p) rfl
    rw [OpenSession.step_stage] at hok hnext
    rcases hstage : w.perform (s.stage o p) with ⟨r, v⟩
    rw [Call.verdict, hn] at hok
    simp only [hstage] at hok hnext
    obtain rfl : r = .ok () := hok
    rw [stageEach, hstage]
    exact ih hnext hvalid

section

variable {file : Path} {dryRun : Bool} {o : Operation} {config? : Option Path}
  {packages : List String} {single : String → List String} {w : World}

/-- A session that was opened and has staged a package is the session that the next run opens. -/
theorem openedOutcome_cons (c : Config) (p : String) (packages : List String) (w : World) :
    openedOutcome c o (p :: packages) w =
      match openedOutcome c o [p] w with
      | (.ok (), u) => openedOutcome c o packages u
      | (.error complaint, u) => (.error complaint, u) := by
  simp only [openedOutcome]
  rcases hstart : w.perform (Session.start c
    (WebCatalog.ofSetting c.catalogUrl).toCatalog) with ⟨r, v⟩
  cases r with
  | error e => rfl
  | ok s =>
    obtain ⟨rfl, hopened⟩ := Session.isOpened_start hstart
    simp only [stageEach]
    rcases hstage : v.perform (Session.stage _ o p) with ⟨r, u⟩
    cases r with
    | error e => rfl
    | ok a =>
      have hquiet := (WebCatalog.ofSetting c.catalogUrl).isQuiet_toCatalog
      have hagain : Store.IsOpened ⟨c.base⟩ u.tree :=
        Session.isOpened_stage (s := .ofConfig c _) hquiet hopened hstage
      simp only [Session.start_of_isOpened hagain]

theorem stagingOutcome_cons (p : String) (packages : List String)
    (hconfig : ∀ u, stagingOutcome file dryRun o [p] w = (.ok (), u) →
      Config.loadIn u.tree file = Config.loadIn w.tree file) :
    stagingOutcome file dryRun o (p :: packages) w =
      match stagingOutcome file dryRun o [p] w with
      | (.ok (), u) => stagingOutcome file dryRun o packages u
      | (.error c, u) => (.error c, u) := by
  simp only [stagingOutcome] at hconfig ⊢
  cases hloaded : Config.loadIn w.tree file with
  | error e => rfl
  | ok loaded =>
    simp only [hloaded] at hconfig ⊢
    rw [openedOutcome_cons]
    rcases hfirst : openedOutcome (settled loaded dryRun) o [p] w with ⟨r, u⟩
    cases r with
    | error c => rfl
    | ok a =>
      simp only [hconfig u hfirst]

/-- Every one of the separate runs, up to the first that fails, reads the configuration that the
first of them reads. -/
def ReadsAlike (file : Path) (single : String → List String) (packages : List String) (w : World) :
    Prop :=
  ∀ front p rest, packages = front ++ p :: rest → AllPass (runEach (front.map single) w).1 →
    Config.loadIn (runEach (front.map single) w).2.tree file = Config.loadIn w.tree file

/-- How a run for several packages ends, seen from the runs for the single packages: all of them
pass, or the first that fails is where it ends. -/
inductive BatchEnds (file : Path) (dryRun : Bool) (o : Operation) (single : String → List String)
    (packages : List String) (w : World) : Prop
  | passed (all : AllPass (runEach (packages.map single) w).1)
      (outcome : stagingOutcome file dryRun o packages w =
        (.ok (), (runEach (packages.map single) w).2)) :
      BatchEnds file dryRun o single packages w
  | stopped (front : List String) {rest : List String} {p : String} {last : Report}
      {c : Complaint} {u : World}
      (split : packages = front ++ p :: rest) (before : AllPass (runEach (front.map single) w).1)
      (stop : (run (single p) : Simulation Report) (runEach (front.map single) w).2 = (last, u))
      (verdict : (last.exit, last.complaint) = verdictOf (.error c))
      (outcome : stagingOutcome file dryRun o packages w = (.error c, u)) :
      BatchEnds file dryRun o single packages w

theorem BatchEnds.cons {p : String} {report : Report} {u : World}
    (hrun : (run (single p) : Simulation Report) w = (report, u)) (hpass : report.exit = 0)
    (hnext : stagingOutcome file dryRun o (p :: packages) w =
      stagingOutcome file dryRun o packages u)
    (h : BatchEnds file dryRun o single packages u) :
    BatchEnds file dryRun o single (p :: packages) w := by
  have heach (rest : List String) := runEach_cons hrun (rest.map single)
  cases h with
  | passed all outcome =>
    refine .passed ?_ ?_
    · rw [List.map_cons, heach]
      exact allPass_cons.2 ⟨hpass, all⟩
    · rw [List.map_cons, heach]
      exact hnext.trans outcome
  | @stopped front rest q last c v split before stop verdict outcome =>
    refine .stopped (p :: front) (congrArg (p :: ·) split) ?_ ?_ verdict
      (hnext.trans outcome)
    · rw [List.map_cons, heach]
      exact allPass_cons.2 ⟨hpass, before⟩
    · rw [List.map_cons, heach]
      exact stop

theorem ReadsAlike.tail {p q : String} {report : Report} {u : World}
    (h : ReadsAlike file single (p :: q :: packages) w)
    (hrun : (run (single p) : Simulation Report) w = (report, u)) (hpass : report.exit = 0) :
    Config.loadIn u.tree file = Config.loadIn w.tree file ∧
      ReadsAlike file single (q :: packages) u := by
  have hkept (front : List String) (p' : String) (rest : List String)
      (hsplit : q :: packages = front ++ p' :: rest)
      (hfront : AllPass (runEach (front.map single) u).1) :
      Config.loadIn (runEach (front.map single) u).2.tree file = Config.loadIn w.tree file := by
    have hprefix := h (p :: front) p' rest (congrArg (p :: ·) hsplit)
    rw [List.map_cons, runEach_cons hrun] at hprefix
    exact hprefix (allPass_cons.2 ⟨hpass, hfront⟩)
  have hnow : Config.loadIn u.tree file = Config.loadIn w.tree file :=
    hkept [] q packages rfl allPass_nil
  exact ⟨hnow, fun front p' rest hsplit hfront ↦
    (hkept front p' rest hsplit hfront).trans hnow.symm⟩

theorem batchEnds (hne : packages ≠ []) (hfile : config?.getD Config.standardFile = file)
    (hsingle : ∀ p ∈ packages, parse (single p) = .ok ⟨config?, dryRun, .stage o [p]⟩)
    (hconfig : ReadsAlike file single packages w) :
    BatchEnds file dryRun o single packages w := by
  induction packages generalizing w with
  | nil => exact absurd rfl hne
  | cons p rest ih =>
    obtain ⟨hp, hrest⟩ := List.forall_mem_cons.1 hsingle
    obtain ⟨report, hrun, hverdict⟩ := run_stage hfile hp w
    rcases hfirst : stagingOutcome file dryRun o [p] w with ⟨r, u⟩
    rw [hfirst] at hrun hverdict
    cases r with
    | error c =>
      have hstop := stagingOutcome_cons p rest fun v hv ↦ by cases hfirst.symm.trans hv
      rw [hfirst] at hstop
      exact .stopped [] rfl allPass_nil hrun hverdict hstop
    | ok a =>
      have hpass : report.exit = 0 := congrArg Prod.fst hverdict
      cases rest with
      | nil =>
        have heach : runEach ([p].map single) w = ([report], u) := runEach_cons hrun []
        refine .passed ?_ ?_
        · rw [heach]
          exact allPass_cons.2 ⟨hpass, allPass_nil⟩
        · rw [heach]
          exact hfirst
      | cons q later =>
        obtain ⟨hnow, hlater⟩ := hconfig.tail hrun hpass
        have hnext := stagingOutcome_cons p (q :: later) fun v hv ↦ by
          cases hfirst.symm.trans hv
          exact hnow
        rw [hfirst] at hnext
        exact (ih (List.cons_ne_nil q later) hrest hlater).cons hrun hpass hnext

theorem not_allPass_of_stop {front rest : List (List String)} {args : List String} {last : Report}
    {u : World} (hstop : (run args : Simulation Report) (runEach front w).2 = (last, u))
    (hfail : last.exit ≠ 0) : ¬ AllPass (runEach (front ++ args :: rest) w).1 := by
  intro hall
  rw [runEach_append, runEach_cons hstop] at hall
  exact hfail (hall last (List.mem_append_right _ List.mem_cons_self))

/-- A run that stages packages equals runs for the single packages, one after the other up to the
first that fails, as long as each of these reads the configuration that the first one reads. -/
theorem run_batch {batch : List String} (hne : packages ≠ [])
    (hbatch : parse batch = .ok ⟨config?, dryRun, .stage o packages⟩)
    (hsingle : ∀ p ∈ packages, parse (single p) = .ok ⟨config?, dryRun, .stage o [p]⟩)
    (hconfig : ReadsAlike (config?.getD Config.standardFile) single packages w) :
    let told := (run batch : Simulation Report) w
    let each := runEach (packages.map single) w
    (told.1.exit = 0 ↔ AllPass each.1) ∧ (told.1.exit = 0 → told.2 = each.2) ∧
      (told.1.exit ≠ 0 → ∃ front p rest, packages = front ++ p :: rest ∧
        AllPass (runEach (front.map single) w).1 ∧
        let stop := (run (single p) : Simulation Report) (runEach (front.map single) w).2
        stop.1.exit = 1 ∧ told.1.exit = 1 ∧ told.1.complaint = stop.1.complaint ∧
          told.2 = stop.2) := by
  intro told each
  obtain ⟨report, hrun, hverdict⟩ := run_stage rfl hbatch w
  have htold : told = (report, _) := hrun
  rw [htold]
  cases batchEnds hne rfl hsingle hconfig with
  | passed all outcome =>
    rw [outcome] at hverdict ⊢
    have hexit : report.exit = 0 := congrArg Prod.fst hverdict
    exact ⟨iff_of_true hexit all, fun _ ↦ rfl, fun hfail ↦ absurd hexit hfail⟩
  | @stopped front rest p last c u split before stop verdict outcome =>
    rw [outcome] at hverdict ⊢
    have hexit : report.exit = 1 := congrArg Prod.fst hverdict
    have hlast : last.exit = 1 := congrArg Prod.fst verdict
    have hfail : report.exit ≠ 0 := by omega
    have hnotall : ¬ AllPass each.1 := by
      simp only [each, split, List.map_append, List.map_cons]
      exact not_allPass_of_stop stop (by omega)
    refine ⟨iff_of_false hfail hnotall, fun hzero ↦ absurd hzero hfail, fun _ ↦ ?_⟩
    refine ⟨front, p, rest, split, before, ?_⟩
    rw [stop]
    exact ⟨hlast, hexit, congrArg Prod.snd (hverdict.trans verdict.symm), rfl⟩

end

def configured : World :=
  { World.bare with
    tree := World.bare.tree.put ["config.json"]
      (.file Config.bare.toJson.toUTF8 FileTree.newFileMode) }

theorem standsApart_configured : configured.tree.StandsApart ⟨"/config.json"⟩ ["config.json"]
    (.file Config.bare.toJson.toUTF8 FileTree.newFileMode) where
  locate := rfl
  node := rfl
  apart list d := by cases list <;> simp [StoredList.fileName]

theorem run_batch_configured :
    let single := fun p ↦ stagingArguments "/config.json" .add [p]
    let packages := ["vim", " ", "git"]
    let told := (run (stagingArguments "/config.json" .add packages) : Simulation Report) configured
    let each := runEach (packages.map single) configured
    (told.1.exit = 0 ↔ AllPass each.1) ∧ (told.1.exit = 0 → told.2 = each.2) ∧
      (told.1.exit ≠ 0 → ∃ front p rest, packages = front ++ p :: rest ∧
        AllPass (runEach (front.map single) configured).1 ∧
        let stop := (run (single p) : Simulation Report) (runEach (front.map single) configured).2
        stop.1.exit = 1 ∧ told.1.exit = 1 ∧ told.1.complaint = stop.1.complaint ∧
          told.2 = stop.2) := by
  intro single packages
  have hparse {ps : List String} (hne : ps ≠ []) :
      parse (stagingArguments "/config.json" .add ps) =
        .ok ⟨some ⟨"/config.json"⟩, false, .stage .add ps⟩ :=
    parse_stagingArguments (by decide) (by decide) .add hne
  have hsingle (p : String) :
      parse (single p) = .ok ⟨some ⟨"/config.json"⟩, false, .stage .add [p]⟩ :=
    hparse (List.cons_ne_nil p [])
  refine run_batch (by decide) (hparse (by decide)) (fun p _ ↦ hsingle p) ?_
  intro front p rest _ _
  exact loadIn_runEach (List.forall_mem_map.2 fun q _ ↦ ⟨_, _, _, _, hsingle q⟩)
    standsApart_configured

/-- A base directory whose log is the configuration. -/
def selfConfigured : StoredList → Option String
  | .unstaged => some Config.bare.toJson
  | _ => none

theorem holds_selfConfigured :
    Store.Holds ⟨Config.bare.base⟩ (World.spelled selfConfigured).tree .empty where
  names o := by
    rw [itemsIn_spelled]
    cases o <;> rfl
  log := by
    rw [Store.logIn, itemsIn_spelled]
    exact congrArg Except.ok (by decide +kernel)

theorem loadIn_selfConfigured :
    Config.loadIn (World.spelled selfConfigured).tree ⟨"/state/packages.unstaged"⟩ =
      .ok .bare := by
  have hread : (World.spelled selfConfigured).tree.read ⟨"/state/packages.unstaged"⟩ =
      .ok Config.bare.toJson.toUTF8 := World.read_spelled selfConfigured .unstaged
  exact Config.loadIn_toJson hread

def selfConfiguredSession : Session Simulation :=
  .ofConfig .bare (WebCatalog.ofSetting Config.bare.catalogUrl).toCatalog

section

variable {v : World} {packages : List String}

theorem stagingOutcome_selfConfigured : ∃ v,
    OpenSession.IsFree ⟨selfConfiguredSession, v⟩ Config.bare.base .empty ∧
      ∀ packages, stagingOutcome ⟨"/state/packages.unstaged"⟩ false .add packages
        (World.spelled selfConfigured) = stageEach selfConfiguredSession .add packages v := by
  obtain ⟨v, hstart, hfree⟩ := OpenSession.isFree_start
    (WebCatalog.isSteady_toCatalog (.ofSetting Config.bare.catalogUrl)) (fun _ ↦ rfl) rfl
    (isReadable_spelled selfConfigured) holds_selfConfigured
  exact ⟨v, hfree, stagingOutcome_of_start loadIn_selfConfigured hstart⟩

theorem exit_selfConfigured (hne : packages ≠ [])
    (hvalid : ∀ p ∈ packages, ∃ n, Session.validName p = .ok n) :
    ((run (stagingArguments "/state/packages.unstaged" .add packages) : Simulation Report)
      (World.spelled selfConfigured)).1.exit = 0 := by
  obtain ⟨v, hfree, houtcome⟩ := stagingOutcome_selfConfigured
  rw [exit_stagingArguments (by decide) (by decide) hne, houtcome]
  exact stageEach_of_isFree hfree hvalid

theorem loadIn_stageEach
    (hfree : OpenSession.IsFree ⟨selfConfiguredSession, v⟩ Config.bare.base .empty) :
    ∃ e, Config.loadIn (stageEach selfConfiguredSession .add ["vim"] v).2.tree
      ⟨"/state/packages.unstaged"⟩ = .error e := by
  have hquiet : selfConfiguredSession.catalog.IsQuiet := hfree.steady.quiet
  have hvalid : Session.validName "vim" = .ok "vim" := rfl
  have hok := (hfree.step (c := .stage .add "vim") rfl).1
  rw [OpenSession.step_stage, Call.verdict, hvalid] at hok
  rcases hstage : v.perform (selfConfiguredSession.stage .add "vim") with ⟨r, u⟩
  simp only [hstage] at hok
  obtain rfl : r = .ok () := hok
  obtain ⟨n, t, hn, hlogged, hmoved⟩ := Session.staged_of_ok hquiet hstage
  obtain rfl : n = "vim" := Except.ok.inj (hn.symm.trans hvalid)
  have hread : u.tree.read ⟨"/state/packages.unstaged"⟩ = .ok "+ vim\n".toUTF8 :=
    hmoved.read_log.trans (hlogged.read_log hfree.holds.log)
  obtain ⟨mode, hstat⟩ := FileTree.stat?_of_read hread
  simp only [stageEach, hstage]
  rw [Config.loadIn, hstat, FileTree.text_of_read hread]
  exact ⟨_, rfl⟩

theorem exit_after_selfConfigured (hne : packages ≠ []) :
    let first := (run (stagingArguments "/state/packages.unstaged" .add ["vim"]) :
      Simulation Report) (World.spelled selfConfigured)
    ((run (stagingArguments "/state/packages.unstaged" .add packages) : Simulation Report)
      first.2).1.exit ≠ 0 := by
  intro first
  obtain ⟨v, hfree, houtcome⟩ := stagingOutcome_selfConfigured
  have hfirst : first.2 = (stageEach selfConfiguredSession .add ["vim"] v).2 := by
    rw [world_stagingArguments (by decide) (by decide) (List.cons_ne_nil "vim" []), houtcome]
  obtain ⟨e, hload⟩ := loadIn_stageEach hfree
  rw [Ne, exit_stagingArguments (by decide) (by decide) hne, hfirst, stagingOutcome, hload]
  intro hok
  cases hok

end

theorem batch_of_selfConfigured :
    let single := fun p ↦ stagingArguments "/state/packages.unstaged" .add [p]
    let batch := stagingArguments "/state/packages.unstaged" .add ["vim", "git"]
    ((run batch : Simulation Report) (World.spelled selfConfigured)).1.exit = 0 ∧
      ¬ AllPass (runEach (["vim", "git"].map single) (World.spelled selfConfigured)).1 := by
  dsimp only
  constructor
  · refine exit_selfConfigured (List.cons_ne_nil "vim" ["git"]) ?_
    simp only [List.forall_mem_cons, List.not_mem_nil, false_imp_iff, implies_true, and_true]
    exact ⟨⟨_, rfl⟩, ⟨_, rfl⟩⟩
  · intro hall
    rw [List.map_cons, List.map_cons, allPass_runEach_cons, allPass_runEach_cons] at hall
    obtain ⟨-, hnext, -⟩ := hall
    exact exit_after_selfConfigured (List.cons_ne_nil "git" []) hnext

end PackageStaging.CommandLine
