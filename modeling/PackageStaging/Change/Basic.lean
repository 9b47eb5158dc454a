import PackageStaging.Text.Blank

namespace PackageStaging

inductive Operation
  | add
  | remove
  deriving DecidableEq, Repr

namespace Operation

def symbol : Operation → Char
  | add => '+'
  | remove => '-'

def opposite : Operation → Operation
  | add => remove
  | remove => add

def ofTag? : String → Option Operation
  | "+" => some add
  | "-" => some remove
  | _ => none

@[simp] theorem opposite_opposite (o : Operation) : o.opposite.opposite = o := by
  cases o <;> rfl

theorem ofTag?_symbol (o : Operation) : ofTag? o.symbol.toString = some o := by
  cases o <;> rfl

theorem opposite_ne (o : Operation) : o.opposite ≠ o := by
  cases o <;> decide

theorem eq_opposite_of_ne {o p : Operation} (h : p ≠ o) : p = o.opposite := by
  cases p <;> cases o <;> first | rfl | exact absurd rfl h

end Operation

structure Change where
  operation : Operation
  name : String
  deriving DecidableEq, Repr

namespace Change

def add (name : String) : Change := ⟨.add, name⟩

def remove (name : String) : Change := ⟨.remove, name⟩

inductive ReadError
  | malformed (line : String)
  | nameless (line : String)
  | unknownTag (tag : String)
  deriving DecidableEq, Repr

def ReadError.message : ReadError → String
  | malformed line => s!"malformed unstaged entry: '{line}'"
  | nameless line => s!"unstaged entry without a name: '{line}'"
  | unknownTag tag => s!"unknown operation tag: {tag}"

def render (c : Change) : String := c.operation.symbol.toString ++ " " ++ c.name

end Change

def Operation.read (tag : String) : Except Change.ReadError Operation :=
  match ofTag? tag with
  | some o => .ok o
  | none => .error (.unknownTag tag)

/-- The first space of the trimmed line divides the tag from the name. -/
def Change.read (line : String) : Except ReadError Change :=
  let cs := Text.trimChars line.toList
  match cs.dropWhile (· != ' ') with
  | [] => .error (.malformed line)
  | _ :: rest =>
    let name := Text.trim (String.ofList rest)
    if name.isEmpty then .error (.nameless line)
    else (Operation.read (String.ofList (cs.takeWhile (· != ' ')))).map (⟨·, name⟩)

end PackageStaging
