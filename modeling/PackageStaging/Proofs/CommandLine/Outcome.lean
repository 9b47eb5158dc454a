import PackageStaging.CommandLine.Run
import PackageStaging.Proofs.CommandLine.Arguments
import PackageStaging.Proofs.Config.Written
import PackageStaging.Proofs.Session.Reopening

namespace PackageStaging.CommandLine

open Terminal (Line)

variable {α β : Type}

/-- In a world an act comes to a result and leaves another world, whatever was printed before. -/
def Yields (act : Console Simulation α) (w : World) (r : Except Complaint α) (v : World) : Prop :=
  ∀ lines, ∃ lines', StateT.run (ExceptT.run act) lines w = ((r, lines'), v)

section

variable {w u v : World} {act : Console Simulation α} {next : α → Console Simulation β}
  {r : Except Complaint β}

theorem yields_pure (a : α) (w : World) : Yields (pure a) w (.ok a) w := fun lines ↦ ⟨lines, rfl⟩

theorem yields_throw (c : Complaint) (w : World) :
    Yields (throw c : Console Simulation α) w (.error c) w := fun lines ↦ ⟨lines, rfl⟩

theorem yields_print (line : Line) (w : World) : Yields (print line) w (.ok ()) w :=
  fun lines ↦ ⟨lines ++ [line], rfl⟩

theorem run_bind (act : Console Simulation α) (next : α → Console Simulation β) (lines : List Line)
    (w : World) : StateT.run (ExceptT.run (act >>= next)) lines w =
      match StateT.run (ExceptT.run act) lines w with
      | ((.ok a, lines'), u) => StateT.run (ExceptT.run (next a)) lines' u
      | ((.error c, lines'), u) => ((.error c, lines'), u) := by
  change (ExceptT.run act >>= ExceptT.bindCont next : StateT (List Line) Simulation _) lines w = _
  change ((ExceptT.run act : StateT (List Line) Simulation _) lines >>= fun p ↦
    ExceptT.bindCont next p.1 p.2) w = _
  rw [Simulation.bind_apply, StateT.run]
  rcases (ExceptT.run act : StateT (List Line) Simulation _) lines w with ⟨⟨r, lines'⟩, u⟩
  cases r <;> rfl

theorem Yields.bind {a : α} (h : Yields act w (.ok a) u) (hnext : Yields (next a) u r v) :
    Yields (act >>= next) w r v := by
  intro lines
  obtain ⟨lines', hact⟩ := h lines
  rw [run_bind, hact]
  exact hnext lines'

theorem Yields.bind_error {c : Complaint} (h : Yields act w (.error c) v) :
    Yields (act >>= next) w (.error c) v := by
  intro lines
  obtain ⟨lines', hact⟩ := h lines
  rw [run_bind, hact]
  exact ⟨lines', rfl⟩

theorem Yields.ite {p : Prop} [Decidable p] {other : Console Simulation α} {r : Except Complaint α}
    (h : Yields act w r v) (hother : Yields other w r v) :
    Yields (if p then act else other) w r v := by
  split <;> assumption

theorem yields_lift (act : Simulation α) (w : World) :
    Yields (liftM (StateT.lift act : StateT (List Line) Simulation α)) w (.ok (act w).1)
      (act w).2 := fun lines ↦ ⟨lines, rfl⟩

theorem yields_during {act : ExceptT StageError Simulation α} {r : Except StageError α}
    (context : Option String) (h : w.perform act = (r, v)) :
    Yields (during context act) w (r.mapError (⟨context, ·⟩)) v := by
  have hact : (act.run : Simulation (Except StageError α)) w = (r, v) := h
  have hfirst := yields_lift act.run w
  rw [hact] at hfirst
  refine hfirst.bind ?_
  cases r with
  | ok a => exact yields_pure a v
  | error e => exact yields_throw _ v

end

def verdictOf : Except Complaint Unit → Nat × Option String
  | .ok () => (0, none)
  | .error c => (1, some c.message)

theorem run_of_yields {args : List String} {i : Invocation} {w v : World}
    {r : Except Complaint Unit} (hparse : parse args = .ok i) (h : Yields (invoke i) w r v) :
    ∃ report, (run args : Simulation Report) w = (report, v) ∧
      (report.exit, report.complaint) = verdictOf r := by
  obtain ⟨lines, hinvoke⟩ := h []
  rw [run, hparse]
  dsimp only
  rw [Simulation.bind_apply, hinvoke]
  cases r with
  | ok a => exact ⟨⟨0, lines, none⟩, rfl, rfl⟩
  | error c => exact ⟨⟨1, lines, some c.message⟩, rfl, rfl⟩

def Complaint.ofStaging (package : String) : StageError → Complaint
  | .agreementRequired => ⟨none, .agreementRequired⟩
  | e => ⟨some s!"Failed to stage '{package}'", e⟩

/-- Packages staged one after the other, up to the first that fails. -/
def stageEach (s : Session Simulation) (o : Operation) :
    List String → World → Except Complaint Unit × World
  | [], w => (.ok (), w)
  | package :: packages, w =>
    match w.perform (s.stage o package) with
    | (.ok (), v) => stageEach s o packages v
    | (.error e, v) => (.error (.ofStaging package e), v)

variable {s : Session Simulation} {o : Operation} {w v : World}

theorem yields_stageOne {package : String} {r : Except StageError Unit}
    (h : w.perform (s.stage o package) = (r, v)) :
    Yields (stageOne s o package) w (r.mapError (.ofStaging package)) v := by
  have hact : ((s.stage o package).run : Simulation (Except StageError Unit)) w = (r, v) := h
  have hfirst := yields_lift (s.stage o package).run w
  rw [hact] at hfirst
  refine hfirst.bind ?_
  cases r with
  | ok a => exact yields_print _ v
  | error e =>
    cases e with
    | agreementRequired => exact (yields_print _ v).bind (yields_throw _ v)
    | _ => exact yields_throw _ v

theorem yields_forM_stageOne (packages : List String) (w : World) :
    Yields (packages.forM (stageOne s o)) w (stageEach s o packages w).1
      (stageEach s o packages w).2 := by
  induction packages generalizing w with
  | nil => exact yields_pure () w
  | cons package packages ih =>
    rcases hstage : w.perform (s.stage o package) with ⟨r, v⟩
    have hone := yields_stageOne hstage
    rw [stageEach, hstage]
    cases r with
    | ok a => exact hone.bind (ih v)
    | error e => exact hone.bind_error

theorem yields_stageAll (packages : List String) (w : World) :
    Yields (stageAll s o packages) w (stageEach s o packages w).1
      (stageEach s o packages w).2 := by
  have hpackages : Yields (do
      packages.forM (stageOne s o)
      print (.success s!"Staged {packages.length} package change(s)")) w
        (stageEach s o packages w).1 (stageEach s o packages w).2 := by
    have heach := yields_forM_stageOne (s := s) (o := o) packages w
    cases hr : (stageEach s o packages w).1 with
    | ok a =>
      rw [hr] at heach
      exact heach.bind (yields_print _ _)
    | error c =>
      rw [hr] at heach
      exact heach.bind_error
  rw [stageAll]
  exact .ite hpackages ((yields_print _ w).bind hpackages)

theorem yields_carryOut_stage (catalog : WebCatalog) (packages : List String) (w : World) :
    Yields (carryOut s catalog (.stage o packages)) w (stageEach s o packages w).1
      (stageEach s o packages w).2 := by
  cases o with
  | add => exact yields_stageAll packages w
  | remove => exact yields_stageAll packages w

def settled (loaded : Config) (dryRun : Bool) : Config :=
  { loaded with dryRun := loaded.dryRun || dryRun }

def openedOutcome (c : Config) (o : Operation) (packages : List String) (w : World) :
    Except Complaint Unit × World :=
  match w.perform (Session.start c (WebCatalog.ofSetting c.catalogUrl).toCatalog) with
  | (.error e, v) => (.error ⟨some "Failed to open package state", e⟩, v)
  | (.ok s, v) => stageEach s o packages v

/-- What a run that stages packages comes to. -/
def stagingOutcome (file : Path) (dryRun : Bool) (o : Operation) (packages : List String)
    (w : World) : Except Complaint Unit × World :=
  match Config.loadIn w.tree file with
  | .error e => (.error ⟨some s!"Failed to load config from {file.text}", e⟩, w)
  | .ok loaded => openedOutcome (settled loaded dryRun) o packages w

theorem stagingOutcome_of_start {file : Path} {dryRun : Bool} {loaded : Config}
    (hload : Config.loadIn w.tree file = .ok loaded)
    (hstart : w.perform (Session.start (settled loaded dryRun)
      (WebCatalog.ofSetting loaded.catalogUrl).toCatalog) = (.ok s, v)) (packages : List String) :
    stagingOutcome file dryRun o packages w = stageEach s o packages v := by
  have hopened : w.perform (Session.start (settled loaded dryRun)
      (WebCatalog.ofSetting (settled loaded dryRun).catalogUrl).toCatalog) = (.ok s, v) := hstart
  simp only [stagingOutcome, hload, openedOutcome, hopened]

theorem yields_opened (c : Config) (o : Operation) (packages : List String) (w : World) :
    Yields (do
        let session ← during (some "Failed to open package state")
          (Session.start c (WebCatalog.ofSetting c.catalogUrl).toCatalog)
        carryOut session (WebCatalog.ofSetting c.catalogUrl) (.stage o packages)) w
      (openedOutcome c o packages w).1 (openedOutcome c o packages w).2 := by
  rw [openedOutcome]
  rcases hstart : w.perform (Session.start c
    (WebCatalog.ofSetting c.catalogUrl).toCatalog) with ⟨r, v⟩
  have hopen := yields_during (some "Failed to open package state") hstart
  cases r with
  | error e => exact hopen.bind_error
  | ok s => exact hopen.bind (yields_carryOut_stage _ packages v)

theorem yields_invoke_stage (config? : Option Path) (dryRun : Bool) (o : Operation)
    (packages : List String) (w : World) :
    let outcome := stagingOutcome (config?.getD Config.standardFile) dryRun o packages w
    Yields (invoke ⟨config?, dryRun, .stage o packages⟩) w outcome.1 outcome.2 := by
  simp only [invoke, stagingOutcome]
  generalize config?.getD Config.standardFile = file
  have hload := yields_during (some s!"Failed to load config from {file.text}")
    (Config.perform_load w file)
  cases hloaded : Config.loadIn w.tree file with
  | error e =>
    rw [hloaded] at hload
    exact hload.bind_error
  | ok loaded =>
    rw [hloaded] at hload
    have hopened := yields_opened (settled loaded dryRun) o packages w
    exact hload.bind (.ite ((yields_print _ w).bind hopened) hopened)

theorem run_stage {args packages : List String} {config? : Option Path} {file : Path}
    {dryRun : Bool} {o : Operation} (hfile : config?.getD Config.standardFile = file)
    (hparse : parse args = .ok ⟨config?, dryRun, .stage o packages⟩) (w : World) :
    ∃ report, (run args : Simulation Report) w =
        (report, (stagingOutcome file dryRun o packages w).2) ∧
      (report.exit, report.complaint) = verdictOf (stagingOutcome file dryRun o packages w).1 := by
  subst hfile
  exact run_of_yields hparse (yields_invoke_stage config? dryRun o packages w)

theorem exit_eq_zero_iff {report : Report} {r : Except Complaint Unit}
    (h : (report.exit, report.complaint) = verdictOf r) : report.exit = 0 ↔ r = .ok () := by
  have hexit : report.exit = (verdictOf r).1 := congrArg Prod.fst h
  rw [hexit]
  cases r with
  | ok a => exact iff_of_true rfl rfl
  | error c => exact iff_of_false Nat.one_ne_zero (by simp)

section

variable {file : String} {packages : List String}

theorem exit_stagingArguments (hfile : Argument.classify file = .name) (hne : file ≠ "")
    (hpackages : packages ≠ []) (o : Operation) (w : World) :
    ((run (stagingArguments file o packages) : Simulation Report) w).1.exit = 0 ↔
      (stagingOutcome ⟨file⟩ false o packages w).1 = .ok () := by
  obtain ⟨report, hrun, hverdict⟩ :=
    run_stage rfl (parse_stagingArguments hfile hne o hpackages) w
  rw [hrun]
  exact exit_eq_zero_iff hverdict

theorem world_stagingArguments (hfile : Argument.classify file = .name) (hne : file ≠ "")
    (hpackages : packages ≠ []) (o : Operation) (w : World) :
    ((run (stagingArguments file o packages) : Simulation Report) w).2 =
      (stagingOutcome ⟨file⟩ false o packages w).2 := by
  obtain ⟨report, hrun, -⟩ := run_stage rfl (parse_stagingArguments hfile hne o hpackages) w
  exact congrArg Prod.snd hrun

end

def runEach : List (List String) → World → List Report × World
  | [], w => ([], w)
  | args :: rest, w =>
    let first := (run args : Simulation Report) w
    (first.1 :: (runEach rest first.2).1, (runEach rest first.2).2)

def AllPass (reports : List Report) : Prop := ∀ r ∈ reports, r.exit = 0

theorem runEach_cons {args : List String} {w u : World} {report : Report}
    (h : (run args : Simulation Report) w = (report, u)) (rest : List (List String)) :
    runEach (args :: rest) w = (report :: (runEach rest u).1, (runEach rest u).2) := by
  rw [runEach, h]

theorem allPass_cons {report : Report} {reports : List Report} :
    AllPass (report :: reports) ↔ report.exit = 0 ∧ AllPass reports := List.forall_mem_cons

theorem allPass_runEach_cons {args : List String} {rest : List (List String)} {w : World} :
    AllPass (runEach (args :: rest) w).1 ↔ ((run args : Simulation Report) w).1.exit = 0 ∧
      AllPass (runEach rest ((run args : Simulation Report) w).2).1 := allPass_cons

theorem allPass_nil : AllPass [] := List.forall_mem_nil _

theorem runEach_append (before after : List (List String)) (w : World) :
    runEach (before ++ after) w =
      ((runEach before w).1 ++ (runEach after (runEach before w).2).1,
        (runEach after (runEach before w).2).2) := by
  induction before generalizing w with
  | nil => rfl
  | cons args before ih =>
    rw [List.cons_append, runEach, runEach, ih]
    rfl

end PackageStaging.CommandLine
