namespace PackageStaging

structure Path where
  text : String
  deriving DecidableEq, Repr

namespace Path

def components (p : Path) : List String :=
  (p.text.toList.splitOnP (· == '/')).map String.ofList

def isRooted (p : Path) : Bool := p.text.toList.head? == some '/'

/-- The path of an entry of the directory `p`; the empty path is the working directory. -/
def child (p : Path) (name : String) : Path :=
  match p.text.toList.getLast? with
  | none | some '/' => ⟨p.text ++ name⟩
  | some _ => ⟨p.text ++ "/" ++ name⟩

/-- The components that name a step: of `.` only one in front. -/
def steps (p : Path) : List String :=
  let named := List.filter fun c ↦ c != "" && c != "."
  match p.components with
  | "." :: rest => "." :: named rest
  | cs => named cs

def ofSteps (isRooted : Bool) (steps : List String) : Path :=
  ⟨(if isRooted then "/" else "") ++ "/".intercalate steps⟩

def around (isRooted : Bool) : List String → List Path
  | [] | [_] => []
  | _ :: outer => ofSteps isRooted outer.reverse :: around isRooted outer

/-- The path itself and the directories around it, innermost first; none for the working directory
and the root. -/
def withEnclosing (p : Path) : List Path :=
  match p.steps.reverse with
  | [] => []
  | steps => p :: around p.isRooted steps

end Path

end PackageStaging
