namespace PackageStaging.Decimal

/-- A positive finite double `mantissa · 2^exponent`. -/
structure Binary where
  mantissa : Nat
  exponent : Int
  /-- Whether the neighbour below is only half as far away as the one above. -/
  narrowBelow : Bool

structure Digits where
  digits : Nat
  exponent : Int

/-- The bit of the mantissa that a normal double does not store. -/
def hiddenBit : Nat := 0x10000000000000

def signBit : Nat := 0x8000000000000000

def Binary.ofBits (bits : Nat) : Binary :=
  let biased : Nat := bits / hiddenBit % 0x800
  let fraction : Nat := bits % hiddenBit
  if biased = 0 then ⟨fraction, -1074, false⟩
  else ⟨hiddenBit + fraction, (biased : Int) - 1075, fraction == 0 && 1 < biased⟩

def power (base : Nat) (e : Int) : Nat := base.pow e.toNat

namespace Binary

def numerator (b : Binary) (k : Int) : Nat := b.mantissa * power 2 b.exponent * power 10 (-k)

def denominator (b : Binary) (k : Int) : Nat := power 2 (-b.exponent) * power 10 k

/-- Whether `d · 10^k` reads back as `b`. Both sides are taken four times, so that the middle
between two doubles is whole. -/
def covers (b : Binary) (k : Int) (d : Nat) : Bool :=
  let unit := power 2 b.exponent * power 10 (-k)
  let point := 4 * d * b.denominator k
  let lower := (4 * b.mantissa - if b.narrowBelow then 1 else 2) * unit
  let upper := (4 * b.mantissa + 2) * unit
  if b.mantissa % 2 = 0 then lower ≤ point && point ≤ upper else lower < point && point < upper

def leading (b : Binary) : Int :=
  (Nat.toDigits 10 (b.numerator (-400) / b.denominator (-400))).length - 401

/-- The point of the grid `10^k` nearest to `b` that reads back as it; of two equally near ones, the
even one. -/
def onGrid? (b : Binary) (k : Int) : Option Nat :=
  let below := b.numerator k / b.denominator k
  let beyond := 2 * (b.numerator k % b.denominator k)
  let preferBelow := beyond < b.denominator k || (beyond = b.denominator k && below % 2 = 0)
  if preferBelow && b.covers k below then some below
  else if b.covers k (below + 1) then some (below + 1)
  else if b.covers k below then some below
  else none

def shortestFrom (b : Binary) (n : Nat) : Nat → Digits
  | 0 => ⟨b.numerator (b.leading - 16) / b.denominator (b.leading - 16), b.leading - 16⟩
  | more + 1 =>
    let k := b.leading - n + 1
    match b.onGrid? k with
    | some d => ⟨d, k⟩
    | none => b.shortestFrom (n + 1) more

/-- The shortest decimal that reads back as a double: of the grids with 1, 2, … digits the first one
with a point in the interval that does, and on it the point nearest to the double. -/
def shortest (b : Binary) : Digits := b.shortestFrom 1 17

end Binary

/-- A digit string, its leading digit worth `10^e`: positional from `10^-5` up to `10^16`, always
with a point, and otherwise with an exponent and its sign. -/
def layout (digits : List Char) (e : Int) : List Char :=
  if 0 ≤ e && e < 16 then
    let whole := (digits ++ List.replicate (e.toNat + 1 - digits.length) '0').take (e.toNat + 1)
    match digits.drop (e.toNat + 1) with
    | [] => whole ++ ['.', '0']
    | fraction => whole ++ '.' :: fraction
  else if -5 ≤ e && e < 0 then
    '0' :: '.' :: List.replicate ((-e).toNat - 1) '0' ++ digits
  else
    let scale := 'e' :: (if e < 0 then '-' else '+') :: Nat.toDigits 10 e.natAbs
    match digits with
    | d :: fraction => d :: ((if fraction.isEmpty then [] else '.' :: fraction) ++ scale)
    | [] => scale

def render (x : Float) : String :=
  let bits := x.toBits.toNat
  let sign := if bits < signBit then "" else "-"
  let b := Binary.ofBits (bits % signBit)
  if b.mantissa = 0 then sign ++ "0.0"
  else
    let d := b.shortest
    let digits := Nat.toDigits 10 d.digits
    let significant := (digits.reverse.dropWhile (· == '0')).reverse
    sign ++ String.ofList (layout significant (d.exponent + digits.length - 1))

end PackageStaging.Decimal
