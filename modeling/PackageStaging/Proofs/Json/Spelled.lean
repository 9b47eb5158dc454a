import PackageStaging.Proofs.Json.Written

namespace PackageStaging.Json

def IsHexDigit (c : Char) (n : Nat) : Prop :=
  n < 16 ∧ (c = Nat.digitChar n ∨ c = (Nat.digitChar n).toUpper)

variable {a b c d e x : Char} {n m : Nat}

theorem isHexDigit_of_hexValue? (h : Text.hexValue? c = some n) : IsHexDigit c n := by
  have hletters : ∀ k < 6, Char.ofNat (97 + k) = Nat.digitChar (k + 10) ∧
      Char.ofNat (65 + k) = (Nat.digitChar (k + 10)).toUpper := by decide
  unfold Text.hexValue? at h
  split at h
  · rename_i hdigit
    cases h
    obtain ⟨hlow, hhigh⟩ := Char.isDigit_iff_toNat.1 hdigit
    have hzero : '0'.toNat = 48 := rfl
    have hnine : '9'.toNat = 57 := rfl
    refine ⟨by omega, .inl (Char.toNat_inj.1 ?_)⟩
    rw [Nat.toNat_digitChar_of_lt_ten (by omega)]
    omega
  · split at h
    · rename_i hlower
      cases h
      obtain ⟨hlow, hhigh⟩ : 97 ≤ c.toNat ∧ c.toNat ≤ 102 := hlower
      obtain ⟨k, hk⟩ := Nat.exists_eq_add_of_le hlow
      have ha : 'a'.toNat = 97 := rfl
      have hvalue : c.toNat - 'a'.toNat + 10 = k + 10 := by omega
      rw [hvalue]
      refine ⟨by omega, .inl ?_⟩
      rw [← (hletters k (by omega)).1, ← hk, Char.ofNat_toNat]
    · split at h
      · rename_i hupper
        cases h
        obtain ⟨hlow, hhigh⟩ : 65 ≤ c.toNat ∧ c.toNat ≤ 70 := hupper
        obtain ⟨k, hk⟩ := Nat.exists_eq_add_of_le hlow
        have ha : 'A'.toNat = 65 := rfl
        have hvalue : c.toNat - 'A'.toNat + 10 = k + 10 := by omega
        rw [hvalue]
        refine ⟨by omega, .inr ?_⟩
        rw [← (hletters k (by omega)).2, ← hk, Char.ofNat_toNat]
      · cases h

theorem hexValue?_eq_some_iff : Text.hexValue? c = some n ↔ IsHexDigit c n := by
  constructor
  · exact isHexDigit_of_hexValue?
  · rintro ⟨hn, rfl | rfl⟩
    · exact Text.hexValue?_lowerHexDigit hn
    · exact Text.hexValue?_upperHexDigit hn

def IsHexUnit (a b c d : Char) (n : Nat) : Prop :=
  ∃ i j k l, IsHexDigit a i ∧ IsHexDigit b j ∧ IsHexDigit c k ∧ IsHexDigit d l ∧
    n = ((i * 16 + j) * 16 + k) * 16 + l

theorem IsHexUnit.lt (h : IsHexUnit a b c d n) : n < 0x10000 := by
  obtain ⟨i, j, k, l, ⟨hi, -⟩, ⟨hj, -⟩, ⟨hk, -⟩, ⟨hl, -⟩, rfl⟩ := h
  omega

theorem hexUnit?_eq_some_iff : hexUnit? a b c d = some n ↔ IsHexUnit a b c d n := by
  simp only [hexUnit?, Option.bind_eq_bind, Option.bind_eq_some_iff, Option.pure_def,
    Option.some.injEq, hexValue?_eq_some_iff, IsHexUnit]
  constructor
  · rintro ⟨i, hi, j, hj, k, hk, l, hl, hn⟩
    exact ⟨i, j, k, l, hi, hj, hk, hl, by omega⟩
  · rintro ⟨i, j, k, l, hi, hj, hk, hl, hn⟩
    exact ⟨i, hi, j, hj, k, hk, l, hl, by omega⟩

def shortEscapes : List (Char × Char) :=
  [('"', '"'), ('\\', '\\'), ('/', '/'), ('b', '\x08'), ('f', '\x0c'), ('n', '\n'), ('r', '\r'),
    ('t', '\t')]

theorem shortEscape?_eq_some_iff : shortEscape? e = some x ↔ (e, x) ∈ shortEscapes := by
  constructor
  · intro h
    unfold shortEscape? at h
    split at h <;> cases h <;> decide
  · intro h
    simp only [shortEscapes, List.mem_cons, Prod.mk.injEq, List.not_mem_nil, or_false] at h
    rcases h with h | h | h | h | h | h | h | h <;> obtain ⟨rfl, rfl⟩ := h <;> rfl

/-- Letters that may stand between quotes, and the characters of the text that they spell. -/
inductive Spells : (letters text : List Char) → Prop
  | nil : Spells [] []
  | plain {c : Char} {letters text : List Char} (quote : c ≠ '"') (slash : c ≠ '\\')
      (shown : 0x20 ≤ c.toNat) (rest : Spells letters text) : Spells (c :: letters) (c :: text)
  | short {e x : Char} {letters text : List Char} (escape : (e, x) ∈ shortEscapes)
      (rest : Spells letters text) : Spells ('\\' :: e :: letters) (x :: text)
  | unit {a b c d x : Char} {letters text : List Char} (digits : IsHexUnit a b c d x.toNat)
      (rest : Spells letters text) :
      Spells ('\\' :: 'u' :: a :: b :: c :: d :: letters) (x :: text)
  /-- A character beyond the first plane, by its surrogates. -/
  | pair {a b c d a₂ b₂ c₂ d₂ x : Char} {high low : Nat} {letters text : List Char}
      (first : IsHexUnit a b c d high) (is_high : 0xD800 ≤ high ∧ high < 0xDC00)
      (second : IsHexUnit a₂ b₂ c₂ d₂ low) (is_low : 0xDC00 ≤ low ∧ low < 0xE000)
      (paired : x.toNat = 0x10000 + (high - 0xD800) * 0x400 + (low - 0xDC00))
      (rest : Spells letters text) :
      Spells ('\\' :: 'u' :: a :: b :: c :: d :: '\\' :: 'u' :: a₂ :: b₂ :: c₂ :: d₂ :: letters)
        (x :: text)

theorem isLowSurrogate_iff : isLowSurrogate n ↔ 0xDC00 ≤ n ∧ n < 0xE000 := by
  simp only [isLowSurrogate, Bool.and_eq_true, decide_eq_true_eq]
  omega

theorem isHighSurrogate_iff : isHighSurrogate n ↔ 0xD800 ≤ n ∧ n < 0xDC00 := by
  simp only [isHighSurrogate, Bool.and_eq_true, decide_eq_true_eq]
  omega

theorem toNat_ofNat_of_valid (h : n < 0xD800 ∨ 0xDFFF < n ∧ n < 0x110000) :
    (Char.ofNat n).toNat = n := by
  rw [Char.ofNat, dif_pos h]
  rfl

theorem readText_pair {a₂ b₂ c₂ d₂ : Char} (hn : IsHexUnit a b c d n) (hm : IsHexUnit a₂ b₂ c₂ d₂ m)
    (hhigh : isHighSurrogate n) (hlow : isLowSurrogate m) (s : Input) :
    readText ('\\' :: 'u' :: a :: b :: c :: d :: '\\' :: 'u' :: a₂ :: b₂ :: c₂ :: d₂ :: s) =
      (readText s).map fun (t, r) ↦ (pairedChar n m :: t, r) := by
  have hno : isLowSurrogate n = false := by
    rw [isHighSurrogate_iff] at hhigh
    rw [← Bool.not_eq_true, isLowSurrogate_iff]
    omega
  rw [readText, if_neg (by decide), if_pos rfl]
  simp only [hexUnit?_eq_some_iff.2 hn, hexUnit?_eq_some_iff.2 hm, hno, hhigh, hlow,
    Bool.false_eq_true, if_false, if_true]

theorem readText_of_spells {letters text : List Char} (h : Spells letters text) (rest : Input) :
    readText (letters ++ '"' :: rest) = .ok (text, rest) := by
  induction h with
  | nil => exact readText_quote rest
  | plain quote slash shown _ ih =>
    rw [List.cons_append, readText_plain quote slash (by omega), ih]
    rfl
  | short escape _ ih =>
    rw [List.cons_append, List.cons_append, readText_short (shortEscape?_eq_some_iff.2 escape), ih]
    rfl
  | unit digits _ ih =>
    simp only [List.cons_append]
    rw [readText_unit (hexUnit?_eq_some_iff.2 digits), ih]
    rfl
  | pair first is_high second is_low paired _ ih =>
    simp only [List.cons_append]
    rw [readText_pair first second (isHighSurrogate_iff.2 is_high) (isLowSurrogate_iff.2 is_low),
      ih, pairedChar, Nat.add_comm, ← Nat.add_assoc, ← paired, Char.ofNat_toNat]
    rfl

theorem exists_spells_cons {s rest : Input} {text : List Char} (front : List Char)
    (hfront : ∀ letters text, Spells letters text → Spells (front ++ letters) (x :: text))
    (ih : ∀ {text}, readText s = .ok (text, rest) →
      ∃ letters, s = letters ++ '"' :: rest ∧ Spells letters text)
    (h : ((readText s).map fun (t, r) ↦ (x :: t, r)) = .ok (text, rest)) :
    ∃ letters, front ++ s = letters ++ '"' :: rest ∧ Spells letters text := by
  cases hread : readText s with
  | error fault => rw [hread] at h; cases h
  | ok found =>
    rw [hread] at h
    cases h
    obtain ⟨letters, rfl, hspells⟩ := ih hread
    exact ⟨front ++ letters, (List.append_assoc front letters _).symm, hfront letters _ hspells⟩

theorem exists_spells_of_readText {s rest : Input} {text : List Char}
    (h : readText s = .ok (text, rest)) :
    ∃ letters, s = letters ++ '"' :: rest ∧ Spells letters text := by
  fun_induction readText s generalizing text with
  | case2 s =>
    cases h
    exact ⟨[], rfl, .nil⟩
  | case7 a b c d n hn hno hhigh a₂ b₂ c₂ d₂ s m hm hlow _ ih =>
    rw [hexUnit?_eq_some_iff] at hn hm
    rw [isHighSurrogate_iff] at hhigh
    rw [isLowSurrogate_iff] at hlow
    have hpaired : (pairedChar n m).toNat = 0x10000 + (n - 0xD800) * 0x400 + (m - 0xDC00) := by
      rw [pairedChar, toNat_ofNat_of_valid (by omega)]
      omega
    exact exists_spells_cons ['\\', 'u', a, b, c, d, '\\', 'u', a₂, b₂, c₂, d₂]
      (fun _ _ ↦ .pair hn hhigh hm hlow hpaired) ih h
  | case10 a b c d s n hn hlow hhigh _ ih =>
    rw [hexUnit?_eq_some_iff] at hn
    rw [isLowSurrogate_iff] at hlow
    rw [isHighSurrogate_iff] at hhigh
    have hlt := hn.lt
    have hx : (Char.ofNat n).toNat = n := toNat_ofNat_of_valid (by omega)
    rw [← hx] at hn
    exact exists_spells_cons ['\\', 'u', a, b, c, d] (fun _ _ ↦ .unit hn) ih h
  | case11 e s _ x hescape _ ih =>
    rw [shortEscape?_eq_some_iff] at hescape
    exact exists_spells_cons ['\\', e] (fun _ _ ↦ .short hescape) ih h
  | case14 c s hquote hslash hshown ih =>
    exact exists_spells_cons [c] (fun _ _ ↦ .plain hquote hslash (Nat.le_of_not_lt hshown)) ih h
  | _ => cases h

/-- A text is read from the letters that spell it, up to the closing quote, and from no others. -/
theorem readText_eq_ok_iff {s rest : Input} {text : List Char} : readText s = .ok (text, rest) ↔
    ∃ letters, s = letters ++ '"' :: rest ∧ Spells letters text := by
  constructor
  · exact exists_spells_of_readText
  · rintro ⟨letters, rfl, hspells⟩
    exact readText_of_spells hspells rest

theorem spells_written (text : List Char) : Spells (text.flatMap escapeChar) text := by
  obtain ⟨letters, hletters, hspells⟩ := readText_eq_ok_iff.1 (readText_written text [])
  rwa [List.append_cancel_right hletters]

end PackageStaging.Json
