import PackageStaging.Change.Log
import PackageStaging.Error
import PackageStaging.Text.Line

namespace PackageStaging

/-- The packages to add, the packages to remove, and the changes that were not yet applied. -/
inductive StoredList
  | add
  | remove
  | unstaged
  deriving DecidableEq, Repr

namespace StoredList

def all : List StoredList := [add, remove, unstaged]

def fileName : StoredList → String
  | add => "packages.add"
  | remove => "packages.remove"
  | unstaged => "packages.unstaged"

theorem fileName_inj {a b : StoredList} (h : a.fileName = b.fileName) : a = b := by
  cases a <;> cases b <;> simp_all [fileName]

def ofOperation : Operation → StoredList
  | .add => add
  | .remove => remove

theorem ofOperation_inj {o p : Operation} (h : ofOperation o = ofOperation p) : o = p := by
  cases o <;> cases p <;> first | rfl | cases h

theorem ofOperation_ne_unstaged (o : Operation) : ofOperation o ≠ unstaged := by
  cases o <;> decide

end StoredList

structure Store where
  base : Path
  deriving DecidableEq, Repr

namespace Store

variable {m : Type → Type} [Monad m] [FileSystem m]

def path (s : Store) (list : StoredList) : Path := s.base.child list.fileName

/-- Makes the file of a list, empty, unless something stands there. -/
def ensure (s : Store) (list : StoredList) : ExceptT StageError m Unit := do
  let path := s.path list
  unless ← (FileSystem.exists? path : m Bool) do onFile path (FileSystem.writeText path "")

def prepare (base : Path) : ExceptT StageError m Store := do
  onFile base (FileSystem.makeDirectories base)
  let s : Store := ⟨base⟩
  for list in StoredList.all do s.ensure list
  return s

/-- The items of a list; its file has to be there. -/
def read (s : Store) (list : StoredList) : ExceptT StageError m (List String) := do
  let path := s.path list
  return Text.items (← onFile path (FileSystem.readText path))

def load (s : Store) (list : StoredList) : ExceptT StageError m (List String) :=
  tryCatch (s.read list) fun
    | .fileNotFound _ => return []
    | e => throw e

def save (s : Store) (list : StoredList) (items : List String) : ExceptT StageError m Unit :=
  onFile (s.path list) (FileSystem.writeText (s.path list) (Text.ofItems items))

def loadLog (s : Store) : ExceptT StageError m Log := do
  return (← s.load .unstaged).filterMap fun line ↦ (Change.read line).toOption

/-- Saves the net effect of a log, and tells it. -/
def saveLog (s : Store) (log : Log) : ExceptT StageError m Log := do
  s.save .unstaged (log.net.map Change.render)
  return log.net

end Store

end PackageStaging
