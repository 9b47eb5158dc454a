import PackageStaging.Files.Basic

/-!
A tree of files as a value. It says what stands at each place, and a path leads to a place step by
step from the working directory or the root; each step but the last needs a directory to start from.
There are no links, and modes are noted but never refuse a read or a write.
-/

namespace PackageStaging

inductive Node
  | directory (mode : Nat)
  | file (content : ByteArray) (mode : Nat)

/-- The names that lead from a place to the root. -/
abbrev Place := List String

structure FileTree where
  node? : Place → Option Node
  working : Place

namespace FileTree

def longestName : Nat := 255

def longestPath : Nat := 4095

def newDirectoryMode : Nat := 0o755

def newFileMode : Nat := 0o644

def empty (working : Place) : FileTree where
  node? place := if place.isSuffixOf working then some (.directory newDirectoryMode) else none
  working

def put (t : FileTree) (place : Place) (node : Node) : FileTree :=
  { t with node? := fun p ↦ if p = place then some node else t.node? p }

@[simp] theorem node?_put_self (t : FileTree) (place : Place) (node : Node) :
    (t.put place node).node? place = some node := by
  simp [put]

theorem node?_put_of_ne (t : FileTree) {place p : Place} (node : Node) (h : p ≠ place) :
    (t.put place node).node? p = t.node? p := by
  simp [put, h]

/-- The place one step away from a directory; nothing need stand there. -/
def step (t : FileTree) (place : Place) (name : String) : Except FileError Place :=
  match t.node? place with
  | none => .error .notFound
  | some (.file _ _) => .error .notADirectory
  | some (.directory _) =>
    if name = "" ∨ name = "." then .ok place
    else if name = ".." then .ok place.tail
    else if longestName < name.utf8ByteSize then .error .nameTooLong
    else .ok (name :: place)

def walk (t : FileTree) (place : Place) : List String → Except FileError Place
  | [] => .ok place
  | name :: names => t.step place name >>= fun next ↦ t.walk next names

def start (t : FileTree) (p : Path) : Except FileError Place :=
  if p.text.toList.contains '\x00' then .error .nulInPath
  else if p.text.isEmpty then .error .notFound
  else if longestPath < p.text.utf8ByteSize then .error .nameTooLong
  else .ok (if p.isRooted then [] else t.working)

/-- The place that a path leads to; a path that ends in a slash leads to a directory only. -/
def locate (t : FileTree) (p : Path) : Except FileError Place := do
  t.walk (← t.start p) p.components

def entryComponents (p : Path) : List String :=
  (p.components.reverse.dropWhile (· == "")).reverse

def stat? (t : FileTree) (p : Path) : Option Node :=
  match t.locate p with
  | .ok place => t.node? place
  | .error _ => none

def read (t : FileTree) (p : Path) : Except FileError ByteArray := do
  match t.node? (← t.locate p) with
  | none => .error .notFound
  | some (.directory _) => .error .isADirectory
  | some (.file content _) => .ok content

/-- The tree with new content in a file. A file that was there keeps its mode; a path that ends in a
slash can only name a directory. -/
def write (t : FileTree) (p : Path) (content : ByteArray) : Except FileError FileTree := do
  let first ← t.start p
  if p.components.getLast? = some "" then
    let parent ← t.walk first (entryComponents p).dropLast
    let _ ← t.step parent ""
    throw .isADirectory
  let place ← t.walk first p.components
  match t.node? place with
  | some (.directory _) => throw .isADirectory
  | some (.file _ mode) => return t.put place (.file content mode)
  | none => return t.put place (.file content newFileMode)

def makeDirectory (t : FileTree) (p : Path) : Except FileError FileTree := do
  let place ← t.walk (← t.start p) (entryComponents p)
  match t.node? place with
  | some _ => throw .alreadyExists
  | none => return t.put place (.directory newDirectoryMode)

def setMode (t : FileTree) (p : Path) (mode : Nat) : Except FileError FileTree := do
  let place ← t.locate p
  match t.node? place with
  | none => throw .notFound
  | some (.directory _) => return t.put place (.directory mode)
  | some (.file content _) => return t.put place (.file content mode)

def delete (t : FileTree) (p : Path) : FileTree :=
  match t.locate p with
  | .error _ => t
  | .ok place => { t with node? := fun q ↦ if place.isSuffixOf q then none else t.node? q }

end FileTree

end PackageStaging
