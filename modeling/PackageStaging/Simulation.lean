import PackageStaging.Files.Tree
import PackageStaging.Session

namespace PackageStaging

/-- A tree of files, the present moment, and a network whose answers depend on the URL alone; the
world remembers the requests that were answered and the names that were looked up. -/
structure World where
  tree : FileTree
  moment : String
  answer? : Url → Option Http.Response
  requests : List Http.Request
  lookups : List String

abbrev Simulation := StateM World

namespace Simulation

def change (act : FileTree → Except FileError FileTree) : Simulation (Except FileError Unit) :=
  fun w ↦
    match act w.tree with
    | .ok tree => (.ok (), { w with tree })
    | .error e => (.error e, w)

def look {α : Type} (view : FileTree → α) : Simulation α := fun w ↦ (view w.tree, w)

instance : FileSystem Simulation where
  exists? p := look fun t ↦ (t.stat? p).isSome
  isDirectory p := look fun t ↦
    match t.stat? p with
    | some (.directory _) => true
    | _ => false
  readBytes p := look (·.read p)
  writeBytes p content := change (·.write p content)
  makeDirectory p := change (·.makeDirectory p)
  setMode p mode := change (·.setMode p mode)

instance : Http.Network Simulation where
  fetch request := fun w ↦
    match w.answer? request.url with
    | none => (none, w)
    | some response => (some response, { w with requests := w.requests ++ [request] })

instance : Clock Simulation where
  stamp := fun w ↦ (w.moment, w)

end Simulation

def Catalog.fixed (answer : String → Except StageError Unit) : Catalog Simulation where
  lookup name := ExceptT.mk fun w ↦ (answer name, { w with lookups := w.lookups ++ [name] })

end PackageStaging
