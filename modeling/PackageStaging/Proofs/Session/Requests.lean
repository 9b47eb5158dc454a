import PackageStaging.Proofs.Session.Run

namespace PackageStaging

inductive Question
  | packages (o : Operation)
  | packagesText (o : Operation) (separator : String)
  | unstaged
  | unstagedNames
  | command (t : Transaction)
  | summary
  | check
  | accepted

inductive Reply
  | done
  | names (names : List String)
  | changes (log : Log)
  | text (text : String)
  | flag (flag : Bool)

def Question.answer (s : Session Simulation) : Question → ExceptT StageError Simulation Reply
  | packages o => do return .names (← s.packages o)
  | packagesText o separator => do return .text (← s.packagesText o separator)
  | unstaged => do return .changes (← s.unstaged)
  | unstagedNames => do return .names (← s.unstagedNames)
  | command t => do return .text (← s.command t)
  | summary => do return .text (← s.summary)
  | check => do s.gate.check; return .done
  | accepted => do return .flag (← (s.gate.isAccepted : Simulation Bool))

def Query.question : Query → Question
  | packages o => .packages o
  | unstaged => .unstaged
  | command t => .command t
  | summary => .summary
  | check => .check
  | accepted => .accepted

theorem Query.act_eq (s : Session Simulation) (q : Query) :
    q.act s = (do let _ ← q.question.answer s) := by
  cases q <;> simp [act, question, Question.answer]

inductive Request
  | call (c : Call)
  | question (q : Question)

namespace OpenSession

def respond (l : OpenSession) : Request → Except StageError Reply × OpenSession
  | .call c => ((l.step c).1.map fun _ ↦ .done, (l.step c).2)
  | .question q =>
    ((l.world.perform (q.answer l.session)).1,
      { l with world := (l.world.perform (q.answer l.session)).2 })

/-- The replies to requests that are made one after the other, and where they lead. -/
def converse (l : OpenSession) : List Request → List (Except StageError Reply) × OpenSession
  | [] => ([], l)
  | r :: rs =>
    ((l.respond r).1 :: ((l.respond r).2.converse rs).1, ((l.respond r).2.converse rs).2)

end OpenSession

def Config.withBase (c : Config) (base : Path) : Config := { c with baseDirectory := some base }

@[simp] theorem Config.base_withBase (c : Config) (base : Path) : (c.withBase base).base = base :=
  rfl

def Call.withBase (base : Path) : Call → Call
  | reopen c catalog => .reopen (c.withBase base) catalog
  | c => c

def Request.withBase (base : Path) : Request → Request
  | call c => .call (c.withBase base)
  | question q => .question q

def Session.ofConfig (c : Config) (catalog : Catalog Simulation) : Session Simulation where
  store := ⟨c.base⟩
  gate := ⟨c.status, c.agreementFile⟩
  catalog
  synthesizer := c.synthesizer

end PackageStaging
