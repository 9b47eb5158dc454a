import PackageStaging.Files.Path

namespace PackageStaging.CommandLine

inductive Command
  | add (packages : List String)
  | remove (packages : List String)
  | list
  | unstaged
  | command (upgrade : Bool)
  | clear
  | agree
  | status
  | summary (out : Option Path)
  | info (package : String)
  deriving DecidableEq, Repr

structure Invocation where
  config : Option Path
  dryRun : Bool
  command : Command
  deriving DecidableEq, Repr

inductive Detour
  | help
  | version
  | usage
  deriving DecidableEq, Repr

/-- The options and names that may stand in one stretch of the arguments: before the command or
after it. -/
structure Scope where
  valued : List String := ["config"]
  flags : List String := ["dry-run"]
  commands : List String := []
  hasVersion : Bool := false
  nameLimit : Option Nat := some 0

structure Given where
  values : List (String × String) := []
  flags : List String := []
  names : List String := []
  deriving DecidableEq, Repr

namespace Given

def value? (g : Given) (key : String) : Option String := (g.values.find? (·.1 == key)).map (·.2)

def hasFlag (g : Given) (key : String) : Bool := g.flags.contains key

def setValue (g : Given) (key value : String) : Except Detour Given :=
  if value.isEmpty || (g.value? key).isSome then .error .usage
  else .ok { g with values := (key, value) :: g.values }

def setFlag (g : Given) (key : String) : Except Detour Given :=
  if g.hasFlag key then .error .usage else .ok { g with flags := key :: g.flags }

def addName (scope : Scope) (g : Given) (name : String) : Except Detour Given :=
  if scope.nameLimit.any (· ≤ g.names.length) then .error .usage
  else .ok { g with names := g.names ++ [name] }

end Given

inductive Argument
  | separator
  | option (key : String) (value : Option String)
  | letters (first : Char)
  | name
  deriving DecidableEq, Repr

def Argument.classify (arg : String) : Argument :=
  match arg.toList with
  | ['-', '-'] => separator
  | '-' :: '-' :: rest =>
    option (String.ofList (rest.takeWhile (· != '=')))
      (match rest.dropWhile (· != '=') with
      | [] => none
      | _ :: value => some (String.ofList value))
  | '-' :: c :: _ => letters c
  | _ => name

/-- Reads the arguments of a scope up to the command that ends it, which is told with the arguments
behind it. -/
def scan (scope : Scope) :
    List String → Given → Except Detour (Given × Option (String × List String))
  | [], g => .ok (g, none)
  | arg :: rest, g =>
    match Argument.classify arg with
    | .separator => (rest.foldlM (Given.addName scope) g).map (·, none)
    | .letters c =>
      .error (if c = 'h' then .help else if c = 'V' && scope.hasVersion then .version else .usage)
    | .name =>
      if scope.commands.contains arg then .ok (g, some (arg, rest))
      else g.addName scope arg >>= scan scope rest
    | .option key value =>
      if scope.valued.contains key then
        match value, rest with
        | some value, rest => g.setValue key value >>= scan scope rest
        | none, value :: rest =>
          if Argument.classify value = .name then g.setValue key value >>= scan scope rest
          else .error .usage
        | none, [] => .error .usage
      else if value.isSome then .error .usage
      else if scope.flags.contains key then g.setFlag key >>= scan scope rest
      else if key = "help" then .error .help
      else if key = "version" && scope.hasVersion then .error .version
      else .error .usage

def commandNames : List String :=
  ["add", "remove", "list", "unstaged", "command", "clear", "agree", "status", "summary", "info"]

def topScope : Scope where
  commands := "help" :: commandNames
  hasVersion := true

def scopeOf : String → Scope
  | "add" | "remove" => { nameLimit := none }
  | "command" => { flags := ["dry-run", "upgrade"] }
  | "summary" => { valued := ["config", "out"] }
  | "info" => { nameLimit := some 1 }
  | _ => {}

def commandOf (command : String) (g : Given) : Except Detour Command :=
  match command, g.names with
  | "add", name :: names => .ok (.add (name :: names))
  | "remove", name :: names => .ok (.remove (name :: names))
  | "info", [name] => .ok (.info name)
  | "list", _ => .ok .list
  | "unstaged", _ => .ok .unstaged
  | "command", _ => .ok (.command (g.hasFlag "upgrade"))
  | "clear", _ => .ok .clear
  | "agree", _ => .ok .agree
  | "status", _ => .ok .status
  | "summary", _ => .ok (.summary ((g.value? "out").map Path.mk))
  | _, _ => .error .usage

/-- The arguments after `help` name a command, or `help` again. -/
def helpOn : List String → Detour
  | [] => .help
  | [name] => if topScope.commands.contains name then .help else .usage
  | _ => .usage

def parse (args : List String) : Except Detour Invocation := do
  let (before, rest) ← scan topScope args {}
  match rest with
  | none => throw .usage
  | some ("help", rest) => throw (helpOn rest)
  | some (command, rest) =>
    let (after, _) ← scan (scopeOf command) rest {}
    return {
      config := ((after.value? "config").or (before.value? "config")).map Path.mk
      dryRun := before.hasFlag "dry-run" || after.hasFlag "dry-run"
      command := ← commandOf command after }

end PackageStaging.CommandLine
