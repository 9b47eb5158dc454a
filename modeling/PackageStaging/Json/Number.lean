import PackageStaging.Json.Token

namespace PackageStaging.Json

inductive Number
  | natural (n : Nat)
  /-- The number `-(n + 1)`. -/
  | negative (n : Nat)
  | decimal (x : Float)

def wordLimit : Nat := 0x10000000000000000

def signedLimit : Nat := 0x8000000000000000

def exponentLimit : Nat := 0x80000000

structure Numeral where
  isNegative : Bool
  whole : List Char
  fraction : Option (List Char)
  exponent : Option (Bool × List Char)
  deriving DecidableEq, Repr

def digitValue (c : Char) : Nat := c.toNat - '0'.toNat

def takeDigits (s : Input) : List Char × Input :=
  (s.takeWhile Char.isDigit, s.dropWhile Char.isDigit)

def readWhole (atEnd : Reason) : Input → Except Fault (List Char × Input)
  | [] => .error (.before atEnd [])
  | c :: s =>
    if c = '0' then
      match s with
      | d :: _ => if d.isDigit then .error (.on .invalidNumber s) else .ok (['0'], s)
      | [] => .ok (['0'], [])
    else if c.isDigit then .ok (takeDigits (c :: s))
    else .error (.on .invalidNumber (c :: s))

def readFraction (atEnd : Reason) (s : Input) : Except Fault (Option (List Char) × Input) :=
  match s with
  | '.' :: s =>
    match takeDigits s with
    | ([], []) => .error (.on atEnd [])
    | ([], s) => .error (.on .invalidNumber s)
    | (digits, s) => .ok (some digits, s)
  | s => .ok (none, s)

def readExponentDigits (atEnd : Reason) (s : Input) : Except Fault (List Char × Input) :=
  match takeDigits s with
  | ([], []) => .error (.before atEnd [])
  | ([], s) => .error (.on .invalidNumber s)
  | found => .ok found

def readExponent (atEnd : Reason) (s : Input) :
    Except Fault (Option (Bool × List Char) × Input) :=
  match s with
  | [] => .ok (none, [])
  | c :: r =>
    if c = 'e' || c = 'E' then
      let (isNegative, r) := match r with
        | '-' :: r => (true, r)
        | '+' :: r => (false, r)
        | r => (false, r)
      (readExponentDigits atEnd r).map fun (digits, r) ↦ (some (isNegative, digits), r)
    else .ok (none, s)

/-- Reads a number; `atEnd` is the reason when the text ends where a digit has to stand. -/
def readNumeral (atEnd : Reason) (s : Input) : Except Fault (Numeral × Input) := do
  let (isNegative, s) := match s with
    | '-' :: s => (true, s)
    | s => (false, s)
  let (whole, s) ← readWhole atEnd s
  let (fraction, s) ← readFraction atEnd s
  let (exponent, s) ← readExponent atEnd s
  return (⟨isNegative, whole, fraction, exponent⟩, s)

/-- Digits that fit 64 bits, and the power of ten that stands for those that do not. -/
structure Significand where
  value : Nat
  exponent : Int

namespace Significand

/-- One more digit of the whole part; once a digit does not fit, it and all later ones only count.
-/
def pushWhole (m : Significand) (c : Char) : Significand :=
  let next := m.value * 10 + digitValue c
  if m.exponent = 0 ∧ next < wordLimit then ⟨next, 0⟩ else ⟨m.value, m.exponent + 1⟩

def pushFraction (m : Significand) : List Char → Significand
  | [] => m
  | c :: cs =>
    let next := m.value * 10 + digitValue c
    if next < wordLimit then pushFraction ⟨next, m.exponent - 1⟩ cs else m

end Significand

/-- An exponent up to the digit that takes it out of 32 bits, with the digits after that one. -/
def exponentValue (n : Nat) : List Char → Nat × Option (List Char)
  | [] => (n, none)
  | c :: cs =>
    let next := n * 10 + digitValue c
    if next < exponentLimit then exponentValue next cs else (next, some cs)

def powerOfTen (e : Nat) : Float := Float.ofScientific 1 false e

/-- Divides by `10^e`, by at most `10^308` at a time and until nothing is left; `steps` bounds the
number of divisions. -/
def divideByPower : (steps : Nat) → Float → Nat → Float
  | 0, x, e => x / powerOfTen e
  | steps + 1, x, e =>
    if e ≤ 308 then x / powerOfTen e
    else if x == 0 then x
    else divideByPower steps (x / powerOfTen 308) (e - 308)

def scaled? (m : Nat) (e : Int) : Option Float :=
  let x := m.toUInt64.toFloat
  if e < 0 then some (divideByPower e.natAbs x e.natAbs)
  else if e ≤ 308 then
    let y := x * powerOfTen e.toNat
    if y.isInf then none else some y
  else if m = 0 then some x
  else none

namespace Numeral

def significand (n : Numeral) : Significand :=
  let m := n.whole.foldl Significand.pushWhole ⟨0, 0⟩
  m.pushFraction (n.fraction.getD [])

def signed (n : Numeral) (x : Float) : Float := if n.isNegative then -x else x

/-- The number that is written: an integer if it has neither fraction nor exponent and fits 64 bits,
and a double otherwise, as `-0` is. Out of range it tells how many of its digits were left then. -/
def value (n : Numeral) : Except Nat Number :=
  let m := n.significand
  match n.exponent with
  | some (isNegative, digits) =>
    match exponentValue 0 digits with
    | (_, some left) =>
      if m.value ≠ 0 ∧ !isNegative then .error left.length else .ok (.decimal (n.signed 0))
    | (e, none) =>
      match scaled? m.value (if isNegative then m.exponent - e else m.exponent + e) with
      | some x => .ok (.decimal (n.signed x))
      | none => .error 0
  | none =>
    if n.fraction.isNone ∧ m.exponent = 0 then
      if !n.isNegative then .ok (.natural m.value)
      else if 0 < m.value ∧ m.value ≤ signedLimit then .ok (.negative (m.value - 1))
      else .ok (.decimal (n.signed m.value.toUInt64.toFloat))
    else
      match scaled? m.value m.exponent with
      | some x => .ok (.decimal (n.signed x))
      | none => .error 0

end Numeral

def Number.found : Number → Found
  | natural n => .integer n
  | negative n => .integer (Int.negSucc n)
  | decimal x => .decimal x

def readNumber (s : Input) : Except Fault (Number × Input) := do
  let (numeral, s) ← readNumeral .endOfValue s
  match numeral.value with
  | .ok n => return (n, s)
  | .error left => throw ⟨.numberOutOfRange, byteCount s + left⟩

end PackageStaging.Json
