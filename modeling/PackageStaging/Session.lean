import PackageStaging.Catalog
import PackageStaging.Config
import PackageStaging.Gate.Basic
import PackageStaging.Store

namespace PackageStaging

inductive Transaction
  | apply
  | upgrade
  deriving DecidableEq, Repr

/-- The lists of one base directory behind a gate. Nothing is written before the gate and the catalog
have agreed, and what was written is not undone when a later write fails. -/
structure Session (m : Type → Type) where
  store : Store
  gate : Gate
  catalog : Catalog m
  synthesizer : Synthesizer

namespace Session

variable {m : Type → Type} [Monad m] [FileSystem m]

def start (c : Config) (catalog : Catalog m) : ExceptT StageError m (Session m) := do
  return ⟨← Store.prepare c.base, ⟨c.status, c.agreementFile⟩, catalog, c.synthesizer⟩

def packages (s : Session m) (o : Operation) : ExceptT StageError m (List String) :=
  s.store.load (.ofOperation o)

def unstaged (s : Session m) : ExceptT StageError m Log := s.store.loadLog

def unstagedNames (s : Session m) : ExceptT StageError m (List String) := do
  return (← s.unstaged).map Change.name

def packagesText (s : Session m) (o : Operation) (separator : String) :
    ExceptT StageError m String := do
  return separator.intercalate (← s.packages o)

/-- A name without the blanks around it: it must not be empty or go over the end of a line. -/
def validName (name : String) : Except StageError String :=
  let name := Text.trim name
  if name.isEmpty || name.toList.contains '\n' then .error (.badName name) else .ok name

def lookUp (s : Session m) (name : String) : ExceptT StageError m Unit :=
  (Text.words name).forM s.catalog.lookup

def log (s : Session m) (c : Change) : ExceptT StageError m Unit := do
  let _ ← s.store.saveLog ((← s.store.loadLog) ++ [c])

def record (s : Session m) (c : Change) : ExceptT StageError m Unit := do
  let names ← s.packages c.operation
  unless names.contains c.name do s.store.save (.ofOperation c.operation) (names ++ [c.name])

/-- Stages a package for installation. A recorded removal is only taken back, and then the catalog
is not asked: a package that was removed need not exist any more. -/
def add (s : Session m) (name : String) : ExceptT StageError m Unit := do
  let name ← MonadExcept.ofExcept (validName name)
  s.gate.check
  let removed ← s.packages .remove
  if removed.contains name then
    s.log (.add name)
    s.store.save .remove (removed.erase name)
  else
    s.lookUp name
    s.log (.add name)
    s.record (.add name)

/-- Stages a package for removal. A recorded installation is only taken back, but the catalog has to
know the package all the same. -/
def remove (s : Session m) (name : String) : ExceptT StageError m Unit := do
  let name ← MonadExcept.ofExcept (validName name)
  s.gate.check
  s.lookUp name
  s.log (.remove name)
  let added ← s.packages .add
  if added.contains name then s.store.save .add (added.erase name)
  else s.record (.remove name)

def stage (s : Session m) : Operation → String → ExceptT StageError m Unit
  | .add => s.add
  | .remove => s.remove

def clear (s : Session m) : ExceptT StageError m Unit := do
  let _ ← s.store.saveLog []

def command (s : Session m) : Transaction → ExceptT StageError m String
  | .apply => do
    let log ← s.unstaged
    return s.synthesizer.command (log.names .add) (log.names .remove)
  | .upgrade => do
    let added ← s.packages .add
    return s.synthesizer.command added (← s.packages .remove)

/-- The recorded packages as changes, one a line; empty while the gate is closed. -/
def summary (s : Session m) : ExceptT StageError m String := do
  if ← (s.gate.isAccepted : m Bool) then
    let added ← s.packages .add
    let removed ← s.packages .remove
    return String.join ((added.map Change.add ++ removed.map Change.remove).map (·.render ++ "\n"))
  else return ""

/-- Writes the summary to a file that all may read, unless it is empty, and tells whether it did. -/
def writeSummary (s : Session m) (path : Path) : ExceptT StageError m Bool := do
  let summary ← s.summary
  if summary.isEmpty then return false
  onFile path (FileSystem.writeText path summary)
  onFile path (FileSystem.setMode path 0o644)
  return true

end Session

end PackageStaging
