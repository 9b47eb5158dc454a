import PackageStaging.Json.Fault

namespace PackageStaging.Json

def isSpace (c : Char) : Bool := c == ' ' || c == '\t' || c == '\n' || c == '\r'

def skipSpace (s : Input) : Input := s.dropWhile isSpace

def readKeyword : List Char → Input → Except Fault Input
  | [], s => .ok s
  | _ :: _, [] => .error (.before .endOfValue [])
  | k :: ks, c :: s => if c = k then readKeyword ks s else .error (.on .expectedKeyword (c :: s))

def hexUnit? (a b c d : Char) : Option Nat := do
  let high := (← Text.hexValue? a) * 16 + (← Text.hexValue? b)
  let low := (← Text.hexValue? c) * 16 + (← Text.hexValue? d)
  return high * 256 + low

/-- The fault of a hexadecimal escape whose digits should have stood at `s`: four bytes are taken as
its digits, whatever they hold. -/
def hexFault (s : Input) : Fault :=
  if byteCount s < 4 then ⟨.endOfText, 0⟩ else ⟨.invalidEscape, byteCount s - 4⟩

def shortEscape? : Char → Option Char
  | '"' => some '"'
  | '\\' => some '\\'
  | '/' => some '/'
  | 'b' => some '\x08'
  | 'f' => some '\x0c'
  | 'n' => some '\n'
  | 'r' => some '\r'
  | 't' => some '\t'
  | _ => none

def isHighSurrogate (n : Nat) : Bool := 0xD800 ≤ n && n ≤ 0xDBFF

def isLowSurrogate (n : Nat) : Bool := 0xDC00 ≤ n && n ≤ 0xDFFF

def pairedChar (high low : Nat) : Char :=
  Char.ofNat ((high - 0xD800) * 0x400 + (low - 0xDC00) + 0x10000)

/-- The fault of a high surrogate that `s` does not go on with the escape of a low one. -/
def pairFault : Input → Fault
  | [] => .before .endOfText []
  | '\\' :: [] => .before .endOfText []
  | '\\' :: 'u' :: s => hexFault s
  | '\\' :: s => .on .brokenSurrogatePair s
  | s => .on .brokenSurrogatePair s

def readText : Input → Except Fault (List Char × Input)
  | [] => .error (.before .endOfText [])
  | c :: s =>
    if c = '"' then .ok ([], s)
    else if c = '\\' then
      match s with
      | [] => .error (.before .endOfText [])
      | 'u' :: a :: b :: c :: d :: s =>
        match hexUnit? a b c d with
        | none => .error (hexFault (a :: b :: c :: d :: s))
        | some n =>
          if isLowSurrogate n then .error (.before .loneSurrogate s)
          else if isHighSurrogate n then
            match s with
            | '\\' :: 'u' :: a :: b :: c :: d :: s' =>
              match hexUnit? a b c d with
              | none => .error (hexFault (a :: b :: c :: d :: s'))
              | some m =>
                if isLowSurrogate m then
                  (readText s').map fun (t, r) ↦ (pairedChar n m :: t, r)
                else .error (.before .loneSurrogate s')
            | s => .error (pairFault s)
          else (readText s).map fun (t, r) ↦ (Char.ofNat n :: t, r)
      | e :: s =>
        match shortEscape? e with
        | some x => (readText s).map fun (t, r) ↦ (x :: t, r)
        | none => .error (if e = 'u' then hexFault s else .on .invalidEscape (e :: s))
    else if c.toNat < 0x20 then .error (.on .controlCharacter (c :: s))
    else (readText s).map fun (t, r) ↦ (c :: t, r)

def skipText : Input → Except Fault Input
  | [] => .error (.before .endOfText [])
  | c :: s =>
    if c = '"' then .ok s
    else if c = '\\' then
      match s with
      | [] => .error (.before .endOfText [])
      | 'u' :: a :: b :: c :: d :: s =>
        match hexUnit? a b c d with
        | none => .error (hexFault (a :: b :: c :: d :: s))
        | some _ => skipText s
      | e :: s =>
        match shortEscape? e with
        | some _ => skipText s
        | none => .error (if e = 'u' then hexFault s else .on .invalidEscape (e :: s))
    else if c.toNat < 0x20 then .error (.before .controlCharacter (c :: s))
    else skipText s

def readColon (s : Input) : Except Fault Input :=
  match skipSpace s with
  | [] => .error (.on .endOfObject [])
  | c :: s => if c = ':' then .ok s else .error (.on .expectedColon (c :: s))

end PackageStaging.Json
