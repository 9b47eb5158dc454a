import Mathlib.Data.List.TakeWhile
import PackageStaging.Proofs.Json.Written

namespace PackageStaging.Json

/-- The digits of a natural number, of which only zero starts with a zero. -/
def IsWhole (digits : List Char) : Prop :=
  digits = ['0'] ∨ digits ≠ [] ∧ digits.head? ≠ some '0' ∧ ∀ c ∈ digits, c.isDigit

def decimalValue (digits : List Char) : Nat := Nat.ofDigitChars 10 digits 0

/-- A literal without fraction and exponent, and the integer that it stands for; `-0` is none. -/
inductive IsInteger : List Char → Int → Prop
  | natural {digits : List Char} (whole : IsWhole digits) : IsInteger digits (decimalValue digits)
  | negative {digits : List Char} (whole : IsWhole digits) (nonzero : digits ≠ ['0']) :
      IsInteger ('-' :: digits) (-decimalValue digits)

def EndsDigits (rest : Input) : Prop := ∀ c ∈ rest.head?, c.isDigit = false

def EndsNumeral (rest : Input) : Prop :=
  ∀ c ∈ rest.head?, c.isDigit = false ∧ c ≠ '.' ∧ c ≠ 'e' ∧ c ≠ 'E'

theorem EndsNumeral.endsDigits {rest : Input} (h : EndsNumeral rest) : EndsDigits rest :=
  fun c hc ↦ (h c hc).1

variable {digits letters : List Char} {s rest : Input} {atEnd : Reason} {i : Int}

section

variable {ε α β : Type} {r : Except ε α} {b : β}

theorem exists_of_map_ok {f : α → β} (h : r.map f = .ok b) : ∃ a, r = .ok a ∧ f a = b := by
  cases r with
  | error e => cases h
  | ok a => exact ⟨a, rfl, Except.ok.inj h⟩

theorem exists_of_bind_ok {next : α → Except ε β} (h : r >>= next = .ok b) :
    ∃ a, r = .ok a ∧ next a = .ok b := by
  cases r with
  | error e => cases h
  | ok a => exact ⟨a, rfl, h⟩

end

theorem exists_of_readWhole (h : readWhole atEnd s = .ok (digits, rest)) :
    s = digits ++ rest ∧ IsWhole digits := by
  unfold readWhole at h
  split at h
  · cases h
  · rename_i c s
    split at h
    · rename_i hzero
      subst hzero
      split at h
      · split at h
        · cases h
        · cases h
          exact ⟨rfl, .inl rfl⟩
      · cases h
        exact ⟨rfl, .inl rfl⟩
    · rename_i hzero
      split at h
      · rename_i hdigit
        have htake := List.takeWhile_cons_of_pos (l := s) hdigit
        cases h
        refine ⟨List.takeWhile_append_dropWhile.symm, .inr ⟨?_, ?_, ?_⟩⟩
        · simp [htake]
        · simpa [htake] using hzero
        · exact fun d hd ↦ List.mem_takeWhile_imp hd
      · cases h

theorem takeDigits_append (h : ∀ c ∈ digits, c.isDigit) (hrest : EndsDigits rest) :
    takeDigits (digits ++ rest) = (digits, rest) := by
  rw [takeDigits, List.takeWhile_append_of_pos h, List.dropWhile_append_of_pos h]
  cases rest with
  | nil => simp
  | cons c rest => simp [hrest c rfl]

theorem readWhole_of_isWhole (h : IsWhole digits) (hrest : EndsDigits rest) :
    readWhole atEnd (digits ++ rest) = .ok (digits, rest) := by
  rcases h with rfl | ⟨hne, hzero, hdigits⟩
  · cases rest with
    | nil => rfl
    | cons c rest => simp [readWhole, hrest c rfl]
  · obtain ⟨c, cs, rfl⟩ := List.exists_cons_of_ne_nil hne
    have hc : c ≠ '0' := fun he ↦ hzero (congrArg some he)
    rw [List.cons_append, readWhole.eq_def]
    simp only [if_neg hc, if_pos (hdigits c List.mem_cons_self)]
    rw [← List.cons_append, takeDigits_append hdigits hrest]

theorem eq_of_readFraction_none (h : readFraction atEnd s = .ok (none, rest)) : rest = s := by
  unfold readFraction at h
  split at h
  · split at h <;> cases h
  · cases h
    rfl

theorem readFraction_of_ne (h : rest.head? ≠ some '.') :
    readFraction atEnd rest = .ok (none, rest) := by
  unfold readFraction
  split
  · exact absurd rfl h
  · rfl

theorem eq_of_readExponent_none (h : readExponent atEnd s = .ok (none, rest)) : rest = s := by
  unfold readExponent at h
  split at h
  · cases h
    rfl
  · split at h
    · obtain ⟨found, -, hsome⟩ := exists_of_map_ok h
      cases hsome
    · cases h
      rfl

theorem readExponent_of_ends (h : EndsNumeral rest) :
    readExponent atEnd rest = .ok (none, rest) := by
  cases rest with
  | nil => rfl
  | cons c rest =>
    obtain ⟨-, -, he, hE⟩ := h c rfl
    simp [readExponent, he, hE]

def readUnsigned (atEnd : Reason) (isNegative : Bool) (s : Input) :
    Except Fault (Numeral × Input) := do
  let (whole, s) ← readWhole atEnd s
  let (fraction, s) ← readFraction atEnd s
  let (exponent, s) ← readExponent atEnd s
  return (⟨isNegative, whole, fraction, exponent⟩, s)

theorem readNumeral_negative (s : Input) :
    readNumeral atEnd ('-' :: s) = readUnsigned atEnd true s := rfl

theorem readNumeral_natural (h : s.head? ≠ some '-') :
    readNumeral atEnd s = readUnsigned atEnd false s := by
  unfold readNumeral
  split
  rename_i hsign
  split at hsign
  · exact absurd rfl h
  · cases hsign
    rfl

theorem exists_of_readUnsigned {isNegative : Bool} {n : Numeral}
    (h : readUnsigned atEnd isNegative s = .ok (n, rest)) (hfraction : n.fraction = none)
    (hexponent : n.exponent = none) :
    s = n.whole ++ rest ∧ IsWhole n.whole ∧ n.isNegative = isNegative := by
  obtain ⟨⟨whole, s₁⟩, hwhole, h⟩ := exists_of_bind_ok h
  obtain ⟨⟨fraction, s₂⟩, hf, h⟩ := exists_of_bind_ok h
  obtain ⟨⟨exponent, s₃⟩, he, h⟩ := exists_of_bind_ok h
  cases h
  obtain rfl : fraction = none := hfraction
  obtain rfl : exponent = none := hexponent
  obtain rfl := eq_of_readFraction_none hf
  obtain rfl := eq_of_readExponent_none he
  obtain ⟨hs, hdigits⟩ := exists_of_readWhole hwhole
  exact ⟨hs, hdigits, rfl⟩

theorem readUnsigned_of_isWhole (h : IsWhole digits) (hrest : EndsNumeral rest)
    (isNegative : Bool) : readUnsigned atEnd isNegative (digits ++ rest) =
      .ok (⟨isNegative, digits, none, none⟩, rest) := by
  have hpoint : rest.head? ≠ some '.' := fun hc ↦ (hrest '.' hc).2.1 rfl
  rw [readUnsigned, readWhole_of_isWhole h hrest.endsDigits]
  simp only [bind, Except.bind, readFraction_of_ne hpoint, readExponent_of_ends hrest]
  rfl

theorem le_ofDigitChars (digits : List Char) (n : Nat) : n ≤ Nat.ofDigitChars 10 digits n := by
  induction digits generalizing n with
  | nil => exact Nat.le_refl n
  | cons c digits ih =>
    rw [Nat.ofDigitChars_cons]
    exact Nat.le_trans (by omega) (ih _)

theorem foldl_pushWhole_of_lt {n : Nat} (h : Nat.ofDigitChars 10 digits n < wordLimit) :
    digits.foldl Significand.pushWhole ⟨n, 0⟩ = ⟨Nat.ofDigitChars 10 digits n, 0⟩ := by
  induction digits generalizing n with
  | nil => rfl
  | cons c digits ih =>
    have hnext : n * 10 + digitValue c = 10 * n + (c.toNat - '0'.toNat) := by
      rw [digitValue, Nat.mul_comm]
    rw [Nat.ofDigitChars_cons, ← hnext] at h ⊢
    have hlt := Nat.lt_of_le_of_lt (le_ofDigitChars digits _) h
    rw [List.foldl_cons, Significand.pushWhole, if_pos ⟨rfl, hlt⟩, ih h]

/-- Digits that all fit make no exponent, and they are the only ones that make none. -/
theorem of_foldl_pushWhole_exponent {m : Significand} (hm : 0 ≤ m.exponent)
    (h : (digits.foldl Significand.pushWhole m).exponent = 0) :
    m.exponent = 0 ∧ (digits.foldl Significand.pushWhole m).value =
      Nat.ofDigitChars 10 digits m.value ∧
      (m.value < wordLimit → Nat.ofDigitChars 10 digits m.value < wordLimit) := by
  induction digits generalizing m with
  | nil => exact ⟨h, rfl, id⟩
  | cons c digits ih =>
    have hnext : m.value * 10 + digitValue c = 10 * m.value + (c.toNat - '0'.toNat) := by
      rw [digitValue, Nat.mul_comm]
    rw [List.foldl_cons, Significand.pushWhole] at h ⊢
    rw [Nat.ofDigitChars_cons, ← hnext]
    split at h
    · rename_i hfits
      rw [if_pos hfits]
      obtain ⟨-, hvalue, hlt⟩ := ih (Int.le_refl 0) h
      exact ⟨hfits.1, hvalue, fun _ ↦ hlt hfits.2⟩
    · obtain ⟨hexponent, -, -⟩ := ih (Int.le_add_one hm) h
      simp only at hexponent
      omega

def Number.integer? : Number → Option Int
  | natural n => some n
  | negative n => some (Int.negSucc n)
  | decimal _ => none

namespace Numeral

variable {n : Numeral} {number : Number}

theorem significand_of_whole (h : n.fraction = none) :
    n.significand = n.whole.foldl Significand.pushWhole ⟨0, 0⟩ := by
  rw [significand, h]
  rfl

theorem exponent_eq_none (hvalue : n.value = .ok number) (hinteger : number.integer? = some i) :
    n.exponent = none := by
  cases hexponent : n.exponent with
  | none => rfl
  | some exponent =>
    simp only [value, hexponent] at hvalue
    split at hvalue
    · split at hvalue <;> cases hvalue
      cases hinteger
    · split at hvalue <;> cases hvalue
      cases hinteger

theorem of_value_integer (hvalue : n.value = .ok number) (hinteger : number.integer? = some i) :
    n.fraction = none ∧ n.exponent = none ∧
      (n.isNegative = false ∧ i = decimalValue n.whole ∧ decimalValue n.whole < wordLimit ∨
        n.isNegative = true ∧ i = -decimalValue n.whole ∧ 0 < decimalValue n.whole ∧
          decimalValue n.whole ≤ signedLimit) := by
  have hexponent := exponent_eq_none hvalue hinteger
  simp only [value, hexponent] at hvalue
  split at hvalue
  · rename_i hwhole
    obtain ⟨hnone, hzero⟩ := hwhole
    rw [Option.isNone_iff_eq_none] at hnone
    rw [significand_of_whole hnone] at hvalue hzero
    obtain ⟨-, hdigits, hfits⟩ : _ ∧ (n.whole.foldl Significand.pushWhole ⟨0, 0⟩).value =
        decimalValue n.whole ∧ (0 < wordLimit → decimalValue n.whole < wordLimit) :=
      of_foldl_pushWhole_exponent (Int.le_refl 0) hzero
    rw [hdigits] at hvalue
    refine ⟨hnone, hexponent, ?_⟩
    split at hvalue
    · rename_i hsign
      cases hvalue
      cases hinteger
      exact .inl ⟨by simpa using hsign, rfl, hfits (by decide)⟩
    · rename_i hsign
      split at hvalue
      · rename_i hrange
        cases hvalue
        cases hinteger
        refine .inr ⟨by simpa using hsign, ?_, hrange⟩
        obtain ⟨hpositive, -⟩ := hrange
        omega
      · cases hvalue
        cases hinteger
  · split at hvalue <;> cases hvalue
    cases hinteger

theorem value_natural (h : decimalValue digits < wordLimit) :
    value ⟨false, digits, none, none⟩ = .ok (.natural (decimalValue digits)) := by
  rw [value, significand_of_whole rfl, foldl_pushWhole_of_lt h]
  rfl

theorem value_negative (hpositive : 0 < decimalValue digits)
    (h : decimalValue digits ≤ signedLimit) :
    value ⟨true, digits, none, none⟩ = .ok (.negative (decimalValue digits - 1)) := by
  have hlt : decimalValue digits < wordLimit := Nat.lt_of_le_of_lt h (by decide)
  rw [value, significand_of_whole rfl, foldl_pushWhole_of_lt hlt, ← decimalValue]
  simp [hpositive, h]

end Numeral

theorem IsWhole.exists_cons (h : IsWhole digits) : ∃ c cs, digits = c :: cs ∧ c.isDigit := by
  rcases h with rfl | ⟨hne, -, hdigits⟩
  · exact ⟨'0', [], rfl, rfl⟩
  · obtain ⟨c, cs, rfl⟩ := List.exists_cons_of_ne_nil hne
    exact ⟨c, cs, rfl, hdigits c List.mem_cons_self⟩

theorem IsWhole.head?_ne (h : IsWhole digits) : (digits ++ rest).head? ≠ some '-' := by
  obtain ⟨c, cs, rfl, hdigit⟩ := h.exists_cons
  rw [List.cons_append, List.head?_cons]
  rintro ⟨⟩
  cases hdigit

theorem IsWhole.pos (h : IsWhole digits) (hne : digits ≠ ['0']) : 0 < decimalValue digits := by
  rcases h with rfl | ⟨hnil, hzero, hdigits⟩
  · exact absurd rfl hne
  · obtain ⟨c, cs, rfl⟩ := List.exists_cons_of_ne_nil hnil
    have hc : c ≠ '0' := fun he ↦ hzero (congrArg some he)
    obtain ⟨hlow, -⟩ := Char.isDigit_iff_toNat.1 (hdigits c List.mem_cons_self)
    have hlt : '0'.toNat < c.toNat :=
      Nat.lt_of_le_of_ne hlow fun he ↦ hc (Char.toNat_inj.1 he.symm)
    rw [decimalValue, Nat.ofDigitChars_cons]
    exact Nat.lt_of_lt_of_le (by omega) (le_ofDigitChars cs _)

theorem exists_of_readNumber {number : Number} (h : readNumber s = .ok (number, rest)) :
    ∃ n, readNumeral .endOfValue s = .ok (n, rest) ∧ n.value = .ok number := by
  obtain ⟨⟨n, s⟩, hread, h⟩ := exists_of_bind_ok h
  cases hvalue : n.value with
  | error left =>
    simp only [hvalue] at h
    cases h
  | ok number =>
    simp only [hvalue] at h
    cases h
    exact ⟨n, hread, hvalue⟩

/-- A number that is read as an integer is written as one, and fits. -/
theorem exists_integer_of_readNumber {number : Number} (h : readNumber s = .ok (number, rest))
    (hinteger : number.integer? = some i) :
    ∃ letters, s = letters ++ rest ∧ IsInteger letters i ∧ -signedLimit ≤ i ∧ i < wordLimit := by
  obtain ⟨n, hread, hvalue⟩ := exists_of_readNumber h
  obtain ⟨hfraction, hexponent, hrange⟩ := Numeral.of_value_integer hvalue hinteger
  by_cases hsign : s.head? = some '-'
  · obtain ⟨s, rfl⟩ : ∃ r, s = '-' :: r := List.head?_eq_some_iff.1 hsign
    rw [readNumeral_negative] at hread
    obtain ⟨rfl, hwhole, hnegative⟩ := exists_of_readUnsigned hread hfraction hexponent
    rw [hnegative] at hrange
    rcases hrange with ⟨⟨⟩, -⟩ | ⟨-, rfl, hpos, hfits⟩
    refine ⟨_, rfl, .negative hwhole ?_, by omega, by omega⟩
    intro hzero
    rw [hzero] at hpos
    exact absurd hpos (by decide)
  · rw [readNumeral_natural hsign] at hread
    obtain ⟨rfl, hwhole, hnegative⟩ := exists_of_readUnsigned hread hfraction hexponent
    rw [hnegative] at hrange
    rcases hrange with ⟨-, rfl, hfits⟩ | ⟨⟨⟩, -⟩
    exact ⟨_, rfl, .natural hwhole, by omega, by omega⟩

theorem readNumber_of_isInteger (h : IsInteger letters i) (hlow : -signedLimit ≤ i)
    (hhigh : i < wordLimit) (hrest : EndsNumeral rest) :
    ∃ number, readNumber (letters ++ rest) = .ok (number, rest) ∧ number.integer? = some i := by
  cases h with
  | natural whole =>
    have hfits : decimalValue letters < wordLimit := by omega
    refine ⟨.natural _, ?_, rfl⟩
    rw [readNumber, readNumeral_natural whole.head?_ne, readUnsigned_of_isWhole whole hrest]
    simp only [bind, Except.bind, Numeral.value_natural hfits]
    rfl
  | @negative digits whole nonzero =>
    have hpos := whole.pos nonzero
    have hfits : decimalValue digits ≤ signedLimit := by omega
    refine ⟨.negative (decimalValue digits - 1), ?_, ?_⟩
    · rw [List.cons_append, readNumber, readNumeral_negative, readUnsigned_of_isWhole whole hrest]
      simp only [bind, Except.bind, Numeral.value_negative hpos hfits]
      rfl
    · rw [Number.integer?, Option.some.injEq]
      omega

end PackageStaging.Json
