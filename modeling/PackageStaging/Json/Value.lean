import PackageStaging.Json.Number

namespace PackageStaging.Json

inductive Value
  | null
  | boolean (b : Bool)
  | number (n : Number)
  | text (s : String)
  | list (xs : List Value)
  | object (ms : List (String × Value))

/-- A value may be nested in at most one container less than this. -/
def depthLimit : Nat := 128

/-- More steps than reading `s` can take. -/
def stepsFor (s : Input) : Nat := 2 * s.length + 2

def nextElement (isFirst : Bool) (s : Input) : Except Fault (Option Input) :=
  match skipSpace s with
  | [] => .error (.on .endOfList [])
  | c :: r =>
    if c = ']' then .ok none
    else if isFirst then .ok (some (c :: r))
    else if c = ',' then
      match skipSpace r with
      | [] => .error (.on .endOfValue [])
      | d :: r => if d = ']' then .error (.on .trailingComma (d :: r)) else .ok (some (d :: r))
    else .error (.on .expectedListEnd (c :: r))

def nextKey (isFirst : Bool) (s : Input) : Except Fault (Option Input) :=
  match skipSpace s with
  | [] => .error (.on .endOfObject [])
  | c :: r =>
    if c = '\x7d' then .ok none
    else if isFirst then
      if c = '"' then .ok (some r) else .error (.on .expectedKey (c :: r))
    else if c = ',' then
      match skipSpace r with
      | [] => .error (.on .endOfValue [])
      | d :: r =>
        if d = '"' then .ok (some r)
        else if d = '\x7d' then .error (.on .trailingComma (d :: r))
        else .error (.on .expectedKey (d :: r))
    else .error (.on .expectedObjectEnd (c :: r))

/-- Reads the closing bracket of a list; what is left is told also when it is missing. -/
def closeList (s : Input) : Except Fault Unit × Input :=
  match skipSpace s with
  | [] => (.error (.on .endOfList []), [])
  | c :: r =>
    if c = ']' then (.ok (), r)
    else if c = ',' then
      match skipSpace r with
      | [] => (.error (.on .trailingCharacters []), [])
      | d :: r =>
        (.error (.on (if d = ']' then .trailingComma else .trailingCharacters) (d :: r)), d :: r)
    else (.error (.on .trailingCharacters (c :: r)), c :: r)

def closeObject (s : Input) : Except Fault Unit × Input :=
  match skipSpace s with
  | [] => (.error (.on .endOfObject []), [])
  | c :: r =>
    if c = '\x7d' then (.ok (), r)
    else (.error (.on (if c = ',' then .trailingComma else .trailingCharacters) (c :: r)), c :: r)

mutual

/-- Reads a value nested in `depthLimit - depth` containers. -/
def readValue : (steps depth : Nat) → Input → Except Fault (Value × Input)
  | 0, _, s => .error (.before .endOfValue s)
  | steps + 1, depth, s =>
    match skipSpace s with
    | [] => .error (.on .endOfValue [])
    | c :: r =>
      if c = 'n' then (readKeyword ['u', 'l', 'l'] r).map fun r ↦ (.null, r)
      else if c = 't' then (readKeyword ['r', 'u', 'e'] r).map fun r ↦ (.boolean true, r)
      else if c = 'f' then (readKeyword ['a', 'l', 's', 'e'] r).map fun r ↦ (.boolean false, r)
      else if c = '"' then (readText r).map fun (t, r) ↦ (.text (String.ofList t), r)
      else if c = '-' || c.isDigit then (readNumber (c :: r)).map fun (n, r) ↦ (.number n, r)
      else if c = '[' then
        if depth ≤ 1 then .error (.on .tooDeep (c :: r))
        else (readElements steps (depth - 1) true r).map fun (xs, r) ↦ (.list xs, r)
      else if c = '\x7b' then
        if depth ≤ 1 then .error (.on .tooDeep (c :: r))
        else (readMembers steps (depth - 1) true r).map fun (ms, r) ↦ (.object ms, r)
      else .error (.on .expectedValue (c :: r))

def readElements : (steps depth : Nat) → Bool → Input → Except Fault (List Value × Input)
  | 0, _, _, s => .error (.before .endOfValue s)
  | steps + 1, depth, isFirst, s => do
    match ← nextElement isFirst s with
    | none => return ([], (closeList s).2)
    | some s =>
      let (x, s) ← readValue steps depth s
      let (xs, s) ← readElements steps depth false s
      return (x :: xs, s)

def readMembers : (steps depth : Nat) → Bool → Input →
    Except Fault (List (String × Value) × Input)
  | 0, _, _, s => .error (.before .endOfValue s)
  | steps + 1, depth, isFirst, s => do
    match ← nextKey isFirst s with
    | none => return ([], (closeObject s).2)
    | some s =>
      let (key, s) ← readText s
      let s ← readColon s
      let (x, s) ← readValue steps depth s
      let (ms, s) ← readMembers steps depth false s
      return ((String.ofList key, x) :: ms, s)

end

mutual

def skipValue : (steps : Nat) → Input → Except Fault Input
  | 0, s => .error (.before .endOfValue s)
  | steps + 1, s =>
    match skipSpace s with
    | [] => .error (.on .endOfValue [])
    | c :: r =>
      if c = 'n' then readKeyword ['u', 'l', 'l'] r
      else if c = 't' then readKeyword ['r', 'u', 'e'] r
      else if c = 'f' then readKeyword ['a', 'l', 's', 'e'] r
      else if c = '"' then skipText r
      else if c = '-' || c.isDigit then (readNumeral .invalidNumber (c :: r)).map (·.2)
      else if c = '[' then skipElements steps true r
      else if c = '\x7b' then skipMembers steps true r
      else .error (.on .expectedValue (c :: r))

def skipElements : (steps : Nat) → Bool → Input → Except Fault Input
  | 0, _, s => .error (.before .endOfValue s)
  | steps + 1, isFirst, s =>
    match skipSpace s with
    | [] => .error (.on .endOfList [])
    | c :: r =>
      if c = ']' then .ok r
      else if isFirst then skipValue steps (c :: r) >>= skipElements steps false
      else if c = ',' then skipValue steps r >>= skipElements steps false
      else .error (.on .expectedListEnd (c :: r))

def skipMembers : (steps : Nat) → Bool → Input → Except Fault Input
  | 0, _, s => .error (.before .endOfValue s)
  | steps + 1, isFirst, s =>
    match skipSpace s with
    | [] => .error (.on .endOfObject [])
    | c :: r =>
      if c = '\x7d' then .ok r
      else if isFirst || c = ',' then
        match skipSpace (if isFirst then c :: r else r) with
        | [] => .error (.on .endOfObject [])
        | d :: r => do
          if d ≠ '"' then throw (.on .expectedKey (d :: r))
          let r ← skipText r
          let r ← readColon r
          let r ← skipValue steps r
          skipMembers steps false r
      else .error (.on .expectedObjectEnd (c :: r))

end

end PackageStaging.Json
