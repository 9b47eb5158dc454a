import Mathlib.Data.List.DropRight
import PackageStaging.Proofs.Session.Opening

namespace PackageStaging

/-- What a session tells without changing anything. -/
inductive Query
  | packages (o : Operation)
  | unstaged
  | command (t : Transaction)
  | summary
  | check
  | accepted

inductive Call
  | stage (o : Operation) (name : String)
  | clear
  | accept
  | ask (q : Query)
  | reopen (c : Config) (catalog : Catalog Simulation)

def Query.act (s : Session Simulation) : Query → ExceptT StageError Simulation Unit
  | packages o => do let _ ← s.packages o
  | unstaged => do let _ ← s.unstaged
  | command t => do let _ ← s.command t
  | summary => do let _ ← s.summary
  | check => s.gate.check
  | accepted => do let _ ← (s.gate.isAccepted : Simulation Bool)

namespace Call

/-- The act of a call, which tells the session to go on with. -/
def act (s : Session Simulation) : Call → ExceptT StageError Simulation (Session Simulation)
  | stage o name => do s.stage o name; return s
  | clear => do s.clear; return s
  | accept => do s.gate.accept; return s
  | ask q => do q.act s; return s
  | reopen c catalog => Session.start c catalog

def isClear : Call → Bool
  | clear => true
  | _ => false

def StaysAt (base : Path) : Call → Prop
  | reopen c catalog => c.base = base ∧ catalog.IsQuiet
  | _ => True

end Call

/-- A session and the world it works in. -/
structure OpenSession where
  session : Session Simulation
  world : World

/-- The changes staged up to the last time the log was cleared, and the changes staged since. -/
structure History where
  applied : Log := []
  recent : Log := []

namespace History

def all (h : History) : Log := h.applied ++ h.recent

/-- A call counts if it succeeds; a change is staged under its trimmed name. -/
def after (h : History) : Call → Except StageError Unit → History
  | .stage o name, .ok () => { h with recent := h.recent ++ [⟨o, Text.trim name⟩] }
  | .clear, .ok () => { applied := h.all }
  | _, _ => h

end History

namespace OpenSession

variable (l : OpenSession)

def step (c : Call) : Except StageError Unit × OpenSession :=
  match l.world.perform (c.act l.session) with
  | (.ok session, world) => (.ok (), { session, world })
  | (.error e, world) => (.error e, { l with world })

def trace (calls : List Call) : History × OpenSession :=
  calls.foldl (fun p c ↦ (p.1.after c (p.2.step c).1, (p.2.step c).2)) ({}, l)

def run (calls : List Call) : OpenSession := (l.trace calls).2

def history (calls : List Call) : History := (l.trace calls).1

/-- The session at the last call that clears the log, or at the start. -/
def lastClear (calls : List Call) : OpenSession := l.run (calls.rdropWhile (!·.isClear))

theorem run_concat (calls : List Call) (c : Call) :
    l.run (calls ++ [c]) = ((l.run calls).step c).2 := by
  simp [run, trace]

theorem history_concat (calls : List Call) (c : Call) :
    l.history (calls ++ [c]) = (l.history calls).after c ((l.run calls).step c).1 := by
  simp [history, run, trace]

/-- What holds at the start and is kept by every call of a kind holds after any calls of it. -/
theorem trace_induction {l : OpenSession} {P : OpenSession → History → Prop} {Q : Call → Prop}
    {calls : List Call} (hstart : P l {})
    (hstep : ∀ {l h c}, P l h → Q c → P (l.step c).2 (h.after c (l.step c).1))
    (hcalls : ∀ c ∈ calls, Q c) : P (l.run calls) (l.history calls) := by
  induction calls using List.reverseRecOn with
  | nil => exact hstart
  | append_singleton calls c ih =>
    obtain ⟨hinit, hlast⟩ := List.forall_mem_append.1 hcalls
    rw [run_concat, history_concat]
    exact hstep (ih hinit) (hlast c (List.mem_singleton_self c))

def packages (o : Operation) : Except StageError (List String) :=
  (l.world.perform (l.session.packages o)).1

def unstaged : Except StageError Log := (l.world.perform l.session.unstaged).1

def command (t : Transaction) : Except StageError String :=
  (l.world.perform (l.session.command t)).1

end OpenSession

section Reading

variable (s : Session Simulation)

theorem Session.keeps_packages (o : Operation) : Keeps id (s.packages o) := by
  intro w
  rw [perform_packages]

theorem Session.keeps_unstaged : Keeps id s.unstaged := by
  intro w
  rw [unstaged, Store.perform_loadLog]

theorem Gate.keeps_isAccepted (g : Gate) : Keeps id (liftM (g.isAccepted : Simulation Bool) :
    ExceptT StageError Simulation Bool) := by
  intro w
  rw [perform_isAccepted]

theorem Gate.keeps_check (g : Gate) : Keeps id (g.check : ExceptT StageError Simulation Unit) := by
  intro w
  rw [perform_check]

theorem Session.keeps_command (t : Transaction) : Keeps id (s.command t) := by
  cases t with
  | apply => exact s.keeps_unstaged.bind fun _ ↦ keeps_pure _
  | upgrade =>
    exact (s.keeps_packages .add).bind fun _ ↦ (s.keeps_packages .remove).bind fun _ ↦ keeps_pure _

theorem Session.keeps_summary : Keeps id s.summary := by
  refine s.gate.keeps_isAccepted.bind fun accepted ↦ Keeps.ite ?_ (keeps_pure _)
  exact (s.keeps_packages .add).bind fun _ ↦ (s.keeps_packages .remove).bind fun _ ↦ keeps_pure _

end Reading

theorem Query.keeps_act (s : Session Simulation) (q : Query) : Keeps id (q.act s) := by
  cases q with
  | packages o => exact (s.keeps_packages o).bind fun _ ↦ keeps_pure _
  | unstaged => exact s.keeps_unstaged.bind fun _ ↦ keeps_pure _
  | command t => exact (s.keeps_command t).bind fun _ ↦ keeps_pure _
  | summary => exact s.keeps_summary.bind fun _ ↦ keeps_pure _
  | check => exact s.gate.keeps_check
  | accepted => exact s.gate.keeps_isAccepted.bind fun _ ↦ keeps_pure _

theorem Query.leavesFiles_act (s : Session Simulation) (q : Query) : LeavesFiles (q.act s) :=
  (q.keeps_act s).comp World.tree

namespace Call

/-- What a call to a session at a base directory does to the files, by its result. -/
inductive Effect (base : Path) (t : FileTree) : Call → Except StageError Unit → FileTree → Prop
  | refused (o : Operation) (name : String) (e : StageError) :
      Effect base t (.stage o name) (.error e) t
  | staged {o : Operation} {name : String} {u v : FileTree} (item : Text.IsItem (Text.trim name))
      (logged : Store.Logged ⟨base⟩ ⟨o, Text.trim name⟩ t u)
      (moved : Store.Moved ⟨base⟩ ⟨o, Text.trim name⟩ u v) :
      Effect base t (.stage o name) (.ok ()) v
  | halted {o : Operation} {name : String} {u : FileTree} (e : StageError)
      (item : Text.IsItem (Text.trim name))
      (logged : Store.Logged ⟨base⟩ ⟨o, Text.trim name⟩ t u) (stuck : Store.IsStuck ⟨base⟩ u) :
      Effect base t (.stage o name) (.error e) u
  | cleared {u : FileTree} (save : Store.saveIn ⟨base⟩ t .unstaged [] = .ok u) :
      Effect base t .clear (.ok ()) u
  | uncleared (e : StageError) (stuck : Store.IsStuck ⟨base⟩ t) : Effect base t .clear (.error e) t
  | accepted {u : FileTree} {content : ByteArray} (r : Except StageError Unit)
      (write : t.write (base.child Config.agreementName) content = .ok u) :
      Effect base t .accept r u
  | unaccepted (r : Except StageError Unit) : Effect base t .accept r t
  | asked (q : Query) (r : Except StageError Unit) : Effect base t (.ask q) r t
  | reopened {c : Config} {catalog : Catalog Simulation} {w v : World}
      {r : Except StageError (Session Simulation)} (at_base : c.base = base) (start : w.tree = t)
      (reopen : w.perform (Session.start c catalog) = (r, v)) :
      Effect base t (.reopen c catalog) (r.map fun _ ↦ ()) v.tree

end Call

namespace OpenSession

variable {l : OpenSession} {base : Path} {c : Call}

theorem step_of_act {act : ExceptT StageError Simulation Unit}
    (h : c.act l.session = (do act; return l.session)) :
    l.step c = ((l.world.perform act).1, { l with world := (l.world.perform act).2 }) := by
  rw [step, h, World.perform_bind]
  rcases l.world.perform act with ⟨r, v⟩
  cases r <;> rfl

theorem step_stage (l : OpenSession) (o : Operation) (name : String) : l.step (.stage o name) =
    ((l.world.perform (l.session.stage o name)).1,
      { l with world := (l.world.perform (l.session.stage o name)).2 }) := step_of_act rfl

theorem step_clear (l : OpenSession) : l.step .clear =
    ((l.world.perform l.session.clear).1,
      { l with world := (l.world.perform l.session.clear).2 }) := step_of_act rfl

theorem step_accept (l : OpenSession) : l.step .accept =
    ((l.world.perform l.session.gate.accept).1,
      { l with world := (l.world.perform l.session.gate.accept).2 }) := step_of_act rfl

theorem step_ask (l : OpenSession) (q : Query) : l.step (.ask q) =
    ((l.world.perform (q.act l.session)).1,
      { l with world := (l.world.perform (q.act l.session)).2 }) := step_of_act rfl

theorem isAt_step (hat : l.session.IsAt base) (hc : c.StaysAt base) :
    (l.step c).2.session.IsAt base := by
  cases c with
  | stage o name => rwa [step_stage]
  | clear => rwa [step_clear]
  | accept => rwa [step_accept]
  | ask q => rwa [step_ask]
  | reopen config catalog =>
    obtain ⟨rfl, hquiet⟩ := hc
    rw [step, Call.act]
    rcases hstart : l.world.perform (Session.start config catalog) with ⟨r, v⟩
    cases r with
    | error e => exact hat
    | ok s => exact Session.isAt_start hquiet hstart

theorem effect_step (hat : l.session.IsAt base) (hc : c.StaysAt base) :
    c.Effect base l.world.tree (l.step c).1 (l.step c).2.world.tree := by
  obtain ⟨hstore, hagreement, hquiet⟩ := hat
  cases c with
  | stage o name =>
    rw [step_stage]
    rcases hstage : l.world.perform (l.session.stage o name) with ⟨r, v⟩
    have ho := Session.outcome_stage hquiet hstage
    dsimp only
    generalize v.tree = t at ho
    cases ho with
    | refused => exact .refused o name _
    | staged valid logged moved =>
      rw [hstore] at logged moved
      obtain ⟨rfl, hitem⟩ := Session.validName_ok valid
      exact .staged hitem logged moved
    | halted valid logged stuck storage =>
      rw [hstore] at logged stuck
      obtain ⟨rfl, hitem⟩ := Session.validName_ok valid
      exact .halted _ hitem logged stuck
  | clear =>
    rw [step_clear]
    rcases hclear : l.world.perform l.session.clear with ⟨r, v⟩
    rcases Session.clear_cases hclear with ⟨rfl, hsave⟩ | hstall
    · rw [hstore] at hsave
      exact .cleared hsave
    · rw [hstore] at hstall
      obtain ⟨rfl, hstuck, e, rfl, -⟩ := hstall
      exact .uncleared e hstuck
  | accept =>
    rw [step_accept]
    rcases haccept : l.world.perform l.session.gate.accept with ⟨r, v⟩
    rcases Session.accept_cases haccept with ⟨rfl, -⟩ | ⟨-, -, content, hwrite⟩
    · exact .unaccepted r
    · rw [hagreement] at hwrite
      exact .accepted r hwrite
  | ask q =>
    rw [step_ask]
    rw [q.leavesFiles_act]
    exact .asked q _
  | reopen config catalog =>
    rw [step, Call.act]
    rcases hstart : l.world.perform (Session.start config catalog) with ⟨r, v⟩
    have he := Call.Effect.reopened hc.1 rfl hstart
    cases r with
    | error e => exact he
    | ok s => exact he

end OpenSession

end PackageStaging
