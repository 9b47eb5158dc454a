import PackageStaging.Json.Value

namespace PackageStaging.Json

/-- A value that cannot be read: its form is wrong, or it is well formed and names nothing, which is
told with what was left after it. -/
inductive Refusal
  | malformed (fault : Fault)
  | meaningless (reason : Reason) (rest : Input)

abbrev Reader (α : Type) := Input → Except Refusal (α × Input)

def Reader.ofFault {α : Type} (read : Input → Except Fault (α × Input)) : Reader α :=
  fun s ↦ (read s).mapError .malformed

/-- The fault of a value of another type than the wanted one; what can be read of it is read
first. -/
def wrongType (wanted : String) (s : Input) : Fault :=
  let found (what : Found) (rest : Input) : Fault := .before (.wrongType what wanted) rest
  let keyword (letters : List Char) (what : Found) (rest : Input) : Fault :=
    match readKeyword letters rest with
    | .ok rest => found what rest
    | .error fault => fault
  match s with
  | [] => .on .endOfValue []
  | c :: r =>
    if c = 'n' then keyword ['u', 'l', 'l'] .null r
    else if c = 't' then keyword ['r', 'u', 'e'] (.boolean true) r
    else if c = 'f' then keyword ['a', 'l', 's', 'e'] (.boolean false) r
    else if c = '"' then
      match readText r with
      | .ok (t, r) => found (.text (String.ofList t)) r
      | .error fault => fault
    else if c = '-' || c.isDigit then
      match readNumber (c :: r) with
      | .ok (n, r) => found n.found r
      | .error fault => fault
    else if c = '[' then found .list (c :: r)
    else if c = '\x7b' then found .object (c :: r)
    else .on .expectedValue (c :: r)

def readString (wanted : String) (s : Input) : Except Fault (String × Input) :=
  match skipSpace s with
  | [] => .error (.on .endOfValue [])
  | c :: r =>
    if c = '"' then (readText r).map fun (t, r) ↦ (String.ofList t, r)
    else .error (wrongType wanted (c :: r))

def readBoolean (s : Input) : Except Fault (Bool × Input) :=
  match skipSpace s with
  | [] => .error (.on .endOfValue [])
  | c :: r =>
    if c = 't' then (readKeyword ['r', 'u', 'e'] r).map (true, ·)
    else if c = 'f' then (readKeyword ['a', 'l', 's', 'e'] r).map (false, ·)
    else .error (wrongType "a boolean" (c :: r))

def readOption {α : Type} (read : Input → Except Fault (α × Input)) (s : Input) :
    Except Fault (Option α × Input) :=
  match skipSpace s with
  | [] => (read []).map fun (a, r) ↦ (some a, r)
  | c :: r =>
    if c = 'n' then (readKeyword ['u', 'l', 'l'] r).map (none, ·)
    else (read (c :: r)).map fun (a, r) ↦ (some a, r)

structure Field (ρ : Type) where
  key : String
  read : Reader (ρ → ρ)

namespace Field

variable {ρ : Type}

def string (key : String) (set : String → ρ → ρ) : Field ρ :=
  ⟨key, .ofFault fun s ↦ (readString "a string" s).map fun (t, r) ↦ (set t, r)⟩

def string? (key : String) (set : Option String → ρ → ρ) (wanted : String) : Field ρ :=
  ⟨key, .ofFault fun s ↦ (readOption (readString wanted) s).map fun (t, r) ↦ (set t, r)⟩

def boolean (key : String) (set : Bool → ρ → ρ) : Field ρ :=
  ⟨key, .ofFault fun s ↦ (readBoolean s).map fun (b, r) ↦ (set b, r)⟩

end Field

def readInOrder {ρ : Type} : List (Field ρ) → Bool → ρ → Reader ρ
  | [], _, record, s => .ok (record, s)
  | field :: fields, isFirst, record, s =>
    match nextElement isFirst s with
    | .error fault => .error (.malformed fault)
    | .ok none => .ok (record, s)
    | .ok (some s) => do
      let (set, s) ← field.read s
      readInOrder fields false (set record) s

/-- Reads members up to the closing brace; `seen` holds the known keys that were read, and `steps`
bounds the number of members. -/
def readByKey {ρ : Type} (fields : List (Field ρ)) :
    (steps : Nat) → (seen : List String) → Bool → ρ → Reader ρ
  | 0, _, _, _, s => .error (.malformed (.before .endOfObject s))
  | steps + 1, seen, isFirst, record, s =>
    match nextKey isFirst s with
    | .error fault => .error (.malformed fault)
    | .ok none => .ok (record, s)
    | .ok (some s) => do
      let (letters, s) ← Reader.ofFault readText s
      let key := String.ofList letters
      match fields.find? (·.key == key) with
      | none =>
        let s ← (readColon s).mapError Refusal.malformed
        let s ← (skipValue (stepsFor s) s).mapError Refusal.malformed
        readByKey fields steps seen false record s
      | some field =>
        if seen.contains key then throw (.meaningless (.repeatedKey key) s)
        let s ← (readColon s).mapError Refusal.malformed
        let (set, s) ← field.read s
        readByKey fields steps (key :: seen) false (set record) s

/-- Ends a container. Its own refusal comes before a missing end, and a meaningless value in it is
placed where the container was left. -/
def finish {ρ : Type} (close : Input → Except Fault Unit × Input) :
    Except Refusal (ρ × Input) → Except Fault (ρ × Input)
  | .ok (record, s) => (close s).1.map fun _ ↦ (record, (close s).2)
  | .error (.malformed fault) => .error fault
  | .error (.meaningless reason s) => .error (.before reason (close s).2)

/-- Reads a record: an object with known members, none of them twice, or a list of the values of the
first fields in order. A field that is not there keeps what the blank record has; `wanted` names the
record in the fault of a value of another type. -/
def readRecord {ρ : Type} (wanted : String) (fields : List (Field ρ)) (blank : ρ) (s : Input) :
    Except Fault (ρ × Input) :=
  match skipSpace s with
  | [] => .error (.on .endOfValue [])
  | c :: r =>
    if c = '[' then finish closeList (readInOrder fields true blank r)
    else if c = '\x7b' then finish closeObject (readByKey fields (stepsFor r) [] true blank r)
    else .error (wrongType wanted (c :: r))

def document {α : Type} (read : Reader α) (text : String) : Except Error α :=
  match read text.toList with
  | .error (.malformed fault) => .error (fault.placeIn text)
  | .error (.meaningless reason _) => .error ⟨reason, none⟩
  | .ok (a, rest) =>
    match skipSpace rest with
    | [] => .ok a
    | c :: r => .error ((Fault.on .trailingCharacters (c :: r)).placeIn text)

end PackageStaging.Json
