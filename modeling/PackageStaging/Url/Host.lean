import PackageStaging.Url.Percent

/-!
Hosts of a URL. The host of a special scheme is an IPv6 address in brackets, an IPv4 address when
its last label is a number, and a lower-case domain otherwise; any other scheme takes its host as
written. The conversion of international domains to ASCII is left out: a domain outside ASCII keeps
its letters, and one that the conversion would refuse (`xn--a`, a soft hyphen by itself, or a
replacement character) is read as it stands.
-/

namespace PackageStaging

inductive UrlFault
  | relative
  | emptyHost
  | invalidPort
  | invalidIpv4
  | invalidIpv6
  | invalidDomain
  | invalidDomainCharacter
  deriving DecidableEq, Repr

def UrlFault.message : UrlFault → String
  | relative => "relative URL without a base"
  | emptyHost => "empty host"
  | invalidPort => "invalid port number"
  | invalidIpv4 => "invalid IPv4 address"
  | invalidIpv6 => "invalid IPv6 address"
  | invalidDomain => "invalid international domain name"
  | invalidDomainCharacter => "invalid domain character"

inductive Host
  | domain (name : String)
  | ipv4 (address : Nat)
  | ipv6 (pieces : List Nat)
  deriving DecidableEq, Repr

namespace Host

def digitsIn (base : Nat) (cs : List Char) : Option Nat :=
  cs.foldlM (fun n c ↦ do
    let d ← Text.hexValue? c
    if d < base then some (n * base + d) else none) 0

/-- The number a label of an IPv4 address stands for, in base ten, eight or sixteen. -/
def ipv4Label? : List Char → Option Nat
  | [] => none
  | '0' :: 'x' :: cs | '0' :: 'X' :: cs => digitsIn 16 cs
  | '0' :: c :: cs => digitsIn 8 (c :: cs)
  | cs => digitsIn 10 cs

def labels (domain : List Char) : List (List Char) :=
  let ls := domain.splitOnP (· == '.')
  if 1 < ls.length ∧ ls.getLast? = some [] then ls.dropLast else ls

def endsInNumber (domain : List Char) : Bool :=
  match (labels domain).getLast? with
  | none | some [] => false
  | some l => l.all Char.isDigit || (ipv4Label? l).isSome

def readIpv4 (domain : List Char) : Except UrlFault Host := do
  let numbers ← match (labels domain).mapM ipv4Label? with
    | some ns => pure ns
    | none => throw .invalidIpv4
  match numbers.reverse with
  | last :: front =>
    if 3 < front.length ∨ front.any (255 < ·) ∨ Nat.pow 256 (4 - front.length) ≤ last then
      throw .invalidIpv4
    else
      let high := front.reverse.foldl (fun n byte ↦ n * 256 + byte) 0
      return .ipv4 (high * Nat.pow 256 (4 - front.length) + last)
  | [] => throw .invalidIpv4

/-- A byte of the IPv4 address that may end an IPv6 one: no zero in front of another digit. -/
def decimalByte? (cs : List Char) : Option Nat :=
  match cs with
  | [] => none
  | '0' :: _ :: _ => none
  | cs => if cs.all Char.isDigit then (digitsIn 10 cs).filter (· < 256) else none

/-- The pieces of an IPv6 address in order, and how many stand up to the one that is stretched. -/
structure Ipv6Pieces where
  pieces : List Nat
  stretch : Option Nat

def readIpv6Pieces : (steps : Nat) → Ipv6Pieces → List Char → Option Ipv6Pieces
  | _, found, [] => some found
  | 0, _, _ => none
  | steps + 1, found, c :: cs =>
    let count := found.pieces.length
    if count = 8 then none
    else if c = ':' then
      if found.stretch.isSome then none
      else readIpv6Pieces steps ⟨found.pieces ++ [0], some (count + 1)⟩ cs
    else
      let text := c :: cs
      let digits := (text.take 4).takeWhile fun c ↦ (Text.hexValue? c).isSome
      let piece := (digitsIn 16 digits).getD 0
      match text.drop digits.length with
      | [] => readIpv6Pieces steps { found with pieces := found.pieces ++ [piece] } []
      | ':' :: d :: rest =>
        readIpv6Pieces steps { found with pieces := found.pieces ++ [piece] } (d :: rest)
      | '.' :: _ =>
        if digits.isEmpty ∨ 6 < count then none
        else
          match (text.splitOnP (· == '.')).mapM decimalByte? with
          | some [a, b, c, d] =>
            some { found with pieces := found.pieces ++ [a * 256 + b, c * 256 + d] }
          | _ => none
      | _ => none

def readIpv6 (cs : List Char) : Except UrlFault Host :=
  let found := match cs with
    | ':' :: ':' :: rest => readIpv6Pieces cs.length ⟨[0], some 1⟩ rest
    | [] | [_] | ':' :: _ => none
    | cs => readIpv6Pieces cs.length ⟨[], none⟩ cs
  match found with
  | some ⟨pieces, some n⟩ =>
    .ok (.ipv6 (pieces.take n ++ List.replicate (8 - pieces.length) 0 ++ pieces.drop n))
  | some ⟨pieces, none⟩ => if pieces.length = 8 then .ok (.ipv6 pieces) else .error .invalidIpv6
  | none => .error .invalidIpv6

def isForbiddenInDomain (c : Char) : Bool :=
  c.toNat ≤ 0x20 || c.toNat == 0x7F || "%#/:<>?@[\\]^|".toList.contains c

def isForbidden (c : Char) : Bool :=
  c == '\x00' || c == '\t' || c == '\n' || c == '\r' || " #/:<>?@[\\]^|".toList.contains c

def readBracketed (cs : List Char) : Except UrlFault Host :=
  if cs.getLast? = some ']' then readIpv6 cs.dropLast else .error .invalidIpv6

def readSpecial (cs : List Char) : Except UrlFault Host :=
  match cs with
  | '[' :: rest => readBracketed rest
  | cs =>
    match String.fromUTF8? ⟨(Percent.decode cs).toArray⟩ with
    | none => .error .invalidDomain
    | some decoded =>
      let domain := decoded.toList.map Char.toLower
      if domain.any isForbiddenInDomain then .error .invalidDomain
      else if domain.isEmpty then .error .emptyHost
      else if endsInNumber domain then readIpv4 domain
      else .ok (.domain (String.ofList domain))

def readPlain (cs : List Char) : Except UrlFault Host :=
  match cs with
  | '[' :: rest => readBracketed rest
  | cs =>
    if cs.any isForbidden then .error .invalidDomainCharacter
    else .ok (.domain (Percent.encode Percent.isPrintable (String.ofList cs)))

def renderIpv4 (address : Nat) : String :=
  ".".intercalate
    [toString (address / 0x1000000), toString (address / 0x10000 % 256),
      toString (address / 256 % 256), toString (address % 256)]

def longestZeros (pieces : List Nat) : Nat × Nat :=
  let runs := (List.range pieces.length).map fun i ↦
    (i, ((pieces.drop i).takeWhile (· == 0)).length)
  runs.foldl (fun best run ↦ if best.2 < run.2 then run else best) (0, 0)

def renderPieces (pieces : List Nat) : String :=
  ":".intercalate (pieces.map Text.lowerHex)

def renderIpv6 (pieces : List Nat) : String :=
  let (before, length) := longestZeros pieces
  if length < 2 then renderPieces pieces
  else renderPieces (pieces.take before) ++ "::" ++ renderPieces (pieces.drop (before + length))

def render : Host → String
  | domain name => name
  | ipv4 address => renderIpv4 address
  | ipv6 pieces => "[" ++ renderIpv6 pieces ++ "]"

end Host

end PackageStaging
