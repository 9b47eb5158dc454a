import PackageStaging.Proofs.Json.Document

namespace PackageStaging.Json

/-- Letters between quotes whose escapes are well formed, also where they name no character. -/
inductive IsRawText : List Char → Prop
  | nil : IsRawText []
  | plain {c : Char} {letters : List Char} (quote : c ≠ '"') (slash : c ≠ '\\')
      (shown : 0x20 ≤ c.toNat) (rest : IsRawText letters) : IsRawText (c :: letters)
  | short {e x : Char} {letters : List Char} (escape : (e, x) ∈ shortEscapes)
      (rest : IsRawText letters) : IsRawText ('\\' :: e :: letters)
  | unit {a b c d : Char} {n : Nat} {letters : List Char} (digits : IsHexUnit a b c d n)
      (rest : IsRawText letters) : IsRawText ('\\' :: 'u' :: a :: b :: c :: d :: letters)

section Raw

variable {rest letters raw : List Char}

theorem Spells.isRawText {text : List Char} (h : Spells letters text) : IsRawText letters := by
  induction h with
  | nil => exact .nil
  | plain quote slash shown _ ih => exact .plain quote slash shown ih
  | short escape _ ih => exact .short escape ih
  | unit digits _ ih => exact .unit digits ih
  | pair first _ second _ _ _ ih => exact .unit first (.unit second ih)

theorem skipText_of_isRawText (h : IsRawText raw) (rest : Input) :
    skipText (raw ++ '"' :: rest) = .ok rest := by
  induction h with
  | nil =>
    rw [List.nil_append, skipText.eq_def]
    exact if_pos rfl
  | plain quote slash shown _ ih =>
    rw [List.cons_append, skipText.eq_def]
    simp only [if_neg quote, if_neg slash, if_neg (Nat.not_lt.2 shown), ih]
  | @short e x letters escape _ ih =>
    have hescape := shortEscape?_eq_some_iff.2 escape
    have hu : e ≠ 'u' := by
      rintro rfl
      cases hescape
    rw [List.cons_append, List.cons_append, skipText, if_neg (by decide), if_pos rfl]
    · simp only [hescape, ih]
    · exact fun _ _ _ _ _ he ↦ absurd he hu
  | unit digits _ ih =>
    simp only [List.cons_append]
    rw [skipText, if_neg (by decide), if_pos rfl]
    simp only [hexUnit?_eq_some_iff.2 digits, ih]

theorem eq_of_isRawText {other r : List Char} (h : IsRawText raw) (hother : IsRawText other)
    (heq : raw ++ '"' :: rest = other ++ '"' :: r) : raw = other ∧ rest = r := by
  have hskip := skipText_of_isRawText h rest
  rw [heq, skipText_of_isRawText hother r] at hskip
  obtain rfl := Except.ok.inj hskip
  exact ⟨List.append_cancel_right heq, rfl⟩

theorem readText_of_isRawText {text r : List Char} (h : IsRawText raw)
    (hread : readText (raw ++ '"' :: rest) = .ok (text, r)) : r = rest ∧ Spells raw text := by
  obtain ⟨spelled, heq, hspells⟩ := readText_eq_ok_iff.1 hread
  obtain ⟨rfl, rfl⟩ := eq_of_isRawText h hspells.isRawText heq
  exact ⟨rfl, hspells⟩

end Raw

inductive IsFraction : List Char → Prop
  | nothing : IsFraction []
  | digits {digits : List Char} (nonempty : digits ≠ []) (all : ∀ c ∈ digits, c.isDigit) :
      IsFraction ('.' :: digits)

inductive IsExponent : List Char → Prop
  | nothing : IsExponent []
  | digits {mark : Char} {sign digits : List Char} (mark_eq : mark = 'e' ∨ mark = 'E')
      (sign_eq : sign = [] ∨ sign = ['+'] ∨ sign = ['-']) (nonempty : digits ≠ [])
      (all : ∀ c ∈ digits, c.isDigit) : IsExponent (mark :: (sign ++ digits))

inductive IsNumeral : List Char → Prop
  | natural {whole fraction exponent : List Char} (whole_digits : IsWhole whole)
      (after_point : IsFraction fraction) (power : IsExponent exponent) :
      IsNumeral (whole ++ (fraction ++ exponent))
  | negative {whole fraction exponent : List Char} (whole_digits : IsWhole whole)
      (after_point : IsFraction fraction) (power : IsExponent exponent) :
      IsNumeral ('-' :: (whole ++ (fraction ++ exponent)))

section Numerals

variable {fraction exponent whole digits letters rest : List Char} {atEnd : Reason}

theorem IsExponent.ends (h : IsExponent exponent) (hrest : EndsNumeral rest) :
    ∀ c ∈ (exponent ++ rest).head?, c.isDigit = false ∧ c ≠ '.' := by
  cases h with
  | nothing => exact fun c hc ↦ ⟨(hrest c hc).1, (hrest c hc).2.1⟩
  | digits mark_eq =>
    intro c hc
    obtain rfl := Option.some.inj hc
    rcases mark_eq with rfl | rfl <;> decide

theorem IsFraction.endsDigits (h : IsFraction fraction) (hexponent : IsExponent exponent)
    (hrest : EndsNumeral rest) : EndsDigits (fraction ++ (exponent ++ rest)) := by
  cases h with
  | nothing => exact fun c hc ↦ (hexponent.ends hrest c hc).1
  | digits =>
    intro c hc
    obtain rfl := Option.some.inj hc
    rfl

theorem exists_readFraction (h : IsFraction fraction) (hexponent : IsExponent exponent)
    (hrest : EndsNumeral rest) : ∃ found,
      readFraction atEnd (fraction ++ (exponent ++ rest)) = .ok (found, exponent ++ rest) := by
  have hends := hexponent.ends hrest
  cases h with
  | nothing => exact ⟨none, readFraction_of_ne fun hc ↦ (hends '.' hc).2 rfl⟩
  | @digits digits nonempty all =>
    refine ⟨some digits, ?_⟩
    rw [List.cons_append, readFraction, takeDigits_append all fun c hc ↦ (hends c hc).1]
    cases digits with
    | nil => exact absurd rfl nonempty
    | cons d digits => rfl

theorem readExponentDigits_of_digits (hne : digits ≠ []) (hall : ∀ c ∈ digits, c.isDigit)
    (hrest : EndsNumeral rest) :
    readExponentDigits atEnd (digits ++ rest) = .ok (digits, rest) := by
  rw [readExponentDigits, takeDigits_append hall hrest.endsDigits]
  cases digits with
  | nil => exact absurd rfl hne
  | cons d digits => rfl

theorem readExponent_unsigned {mark d : Char} (hmark : mark = 'e' ∨ mark = 'E') (hd : d.isDigit)
    (s : Input) : readExponent atEnd (mark :: d :: s) =
      (readExponentDigits atEnd (d :: s)).map fun (digits, r) ↦ (some (false, digits), r) := by
  rw [readExponent, if_pos (by simpa using hmark)]
  all_goals
    rintro r ⟨⟩
    cases hd

theorem exists_readExponent (h : IsExponent exponent) (hrest : EndsNumeral rest) :
    ∃ found, readExponent atEnd (exponent ++ rest) = .ok (found, rest) := by
  cases h with
  | nothing => exact ⟨none, readExponent_of_ends hrest⟩
  | @digits mark sign digits mark_eq sign_eq nonempty all =>
    have hdigits : readExponentDigits atEnd (digits ++ rest) = .ok (digits, rest) :=
      readExponentDigits_of_digits nonempty all hrest
    have hmark : (decide (mark = 'e') || decide (mark = 'E')) = true := by simpa using mark_eq
    rcases sign_eq with rfl | rfl | rfl
    · obtain ⟨d, digits, rfl⟩ := List.exists_cons_of_ne_nil nonempty
      refine ⟨some (false, d :: digits), ?_⟩
      rw [List.nil_append, List.cons_append, List.cons_append,
        readExponent_unsigned mark_eq (all d List.mem_cons_self), ← List.cons_append, hdigits]
      rfl
    · refine ⟨some (false, digits), ?_⟩
      rw [List.cons_append, List.append_assoc, List.singleton_append, readExponent, if_pos hmark]
      exact congrArg (Except.map _) hdigits
    · refine ⟨some (true, digits), ?_⟩
      rw [List.cons_append, List.append_assoc, List.singleton_append, readExponent, if_pos hmark]
      exact congrArg (Except.map _) hdigits

theorem exists_readUnsigned (hwhole : IsWhole whole) (hfraction : IsFraction fraction)
    (hexponent : IsExponent exponent) (hrest : EndsNumeral rest) (isNegative : Bool) :
    ∃ n, readUnsigned atEnd isNegative (whole ++ (fraction ++ (exponent ++ rest))) =
      .ok (n, rest) := by
  obtain ⟨point, hpoint⟩ : ∃ found,
      readFraction atEnd (fraction ++ (exponent ++ rest)) = .ok (found, exponent ++ rest) :=
    exists_readFraction hfraction hexponent hrest
  obtain ⟨power, hpower⟩ : ∃ found, readExponent atEnd (exponent ++ rest) = .ok (found, rest) :=
    exists_readExponent hexponent hrest
  refine ⟨⟨isNegative, whole, point, power⟩, ?_⟩
  rw [readUnsigned, readWhole_of_isWhole hwhole (hfraction.endsDigits hexponent hrest)]
  simp only [bind, Except.bind, hpoint, hpower]
  rfl

theorem exists_readNumeral (h : IsNumeral letters) (hrest : EndsNumeral rest) :
    ∃ n, readNumeral atEnd (letters ++ rest) = .ok (n, rest) := by
  cases h with
  | natural whole_digits after_point power =>
    obtain ⟨n, hn⟩ := exists_readUnsigned whole_digits after_point power hrest false
    refine ⟨n, ?_⟩
    rw [List.append_assoc, List.append_assoc, readNumeral_natural whole_digits.head?_ne, hn]
  | negative whole_digits after_point power =>
    obtain ⟨n, hn⟩ := exists_readUnsigned whole_digits after_point power hrest true
    refine ⟨n, ?_⟩
    rw [List.cons_append, List.append_assoc, List.append_assoc, readNumeral_negative, hn]

theorem IsNumeral.exists_cons (h : IsNumeral letters) :
    ∃ c cs, letters = c :: cs ∧ (c = '-' || c.isDigit) := by
  cases h with
  | natural whole_digits =>
    obtain ⟨c, cs, rfl, hc⟩ := whole_digits.exists_cons
    exact ⟨c, _, List.cons_append, by rw [hc, Bool.or_true]⟩
  | negative => exact ⟨'-', _, rfl, rfl⟩

end Numerals

/-- What stands between the brackets of a container: its parts with commas between them, or space
alone. -/
inductive IsBody : (parts : List (List Char)) → List Char → Prop
  | blank {gap : List Char} (padding : IsPadding gap) : IsBody [] gap
  | filled (part : List Char) (parts : List (List Char)) :
      IsBody (part :: parts) (part ++ parts.flatMap (',' :: ·))

structure Element where
  before : List Char
  value : List Char
  after : List Char

def Element.letters (e : Element) : List Char := e.before ++ (e.value ++ e.after)

structure Element.IsSpaced (e : Element) : Prop where
  before : IsPadding e.before
  after : IsPadding e.after

/-- A member of an object as it stands there; its key is what stands between the quotes. -/
structure Entry where
  beforeKey : List Char
  key : List Char
  afterKey : List Char
  beforeValue : List Char
  value : List Char
  afterValue : List Char

def Entry.letters (e : Entry) : List Char :=
  e.beforeKey ++ '"' :: (e.key ++ '"' :: (e.afterKey ++
    ':' :: (e.beforeValue ++ (e.value ++ e.afterValue))))

structure Entry.IsSpaced (e : Entry) : Prop where
  beforeKey : IsPadding e.beforeKey
  afterKey : IsPadding e.afterKey
  beforeValue : IsPadding e.beforeValue
  afterValue : IsPadding e.afterValue

def keywords : List (Char × List Char) :=
  [('n', ['u', 'l', 'l']), ('t', ['r', 'u', 'e']), ('f', ['a', 'l', 's', 'e'])]

/-- The letters of a value, without space around them. -/
inductive IsValue : List Char → Prop
  | keyword {k : Char} {ks : List Char} (known : (k, ks) ∈ keywords) : IsValue (k :: ks)
  | number {letters : List Char} (numeral : IsNumeral letters) : IsValue letters
  | text {raw : List Char} (is_raw : IsRawText raw) : IsValue ('"' :: raw ++ ['"'])
  | list {elements : List Element} {body : List Char}
      (is_body : IsBody (elements.map Element.letters) body)
      (spaced : ∀ e ∈ elements, e.IsSpaced) (values : ∀ e ∈ elements, IsValue e.value) :
      IsValue ('[' :: body ++ [']'])
  | object {entries : List Entry} {body : List Char}
      (is_body : IsBody (entries.map Entry.letters) body)
      (spaced : ∀ e ∈ entries, e.IsSpaced) (keys : ∀ e ∈ entries, IsRawText e.key)
      (values : ∀ e ∈ entries, IsValue e.value) : IsValue ('\x7b' :: body ++ ['\x7d'])

section Values

variable {c : Char} {cs letters : List Char}

theorem IsValue.cases_cons (h : IsValue (c :: cs)) :
    (c, cs) ∈ keywords ∨ (c = '"' ∧ ∃ raw, cs = raw ++ ['"'] ∧ IsRawText raw) ∨
      ((c = '-' || c.isDigit) ∧ IsNumeral (c :: cs)) ∨ c = '[' ∨ c = '\x7b' := by
  generalize hletters : c :: cs = letters at h
  cases h with
  | keyword known => cases hletters; exact .inl known
  | number numeral =>
    obtain ⟨d, ds, hd, hdigit⟩ := numeral.exists_cons
    rw [← hletters] at hd numeral
    obtain ⟨rfl, -⟩ := List.cons.inj hd
    exact .inr (.inr (.inl ⟨hdigit, hletters ▸ numeral⟩))
  | text is_raw =>
    cases hletters
    exact .inr (.inl ⟨rfl, _, rfl, is_raw⟩)
  | list => cases hletters; simp
  | object => cases hletters; simp

theorem mem_keywords_cases (h : (c, cs) ∈ keywords) :
    c = 'n' ∧ cs = ['u', 'l', 'l'] ∨ c = 't' ∧ cs = ['r', 'u', 'e'] ∨
      c = 'f' ∧ cs = ['a', 'l', 's', 'e'] := by
  simpa [keywords] using h

theorem IsValue.exists_cons (h : IsValue letters) :
    ∃ c cs, letters = c :: cs ∧ isSpace c = false ∧ c ≠ ']' := by
  cases letters with
  | nil =>
    cases h with
    | number numeral =>
      obtain ⟨c, cs, hc, -⟩ := numeral.exists_cons
      cases hc
  | cons c cs =>
    refine ⟨c, cs, rfl, ?_⟩
    rcases h.cases_cons with hknown | ⟨rfl, -⟩ | ⟨hc, -⟩ | rfl | rfl
    · rcases mem_keywords_cases hknown with ⟨rfl, -⟩ | ⟨rfl, -⟩ | ⟨rfl, -⟩ <;> decide
    · decide
    · exact ⟨isSpace_of_opensNumeral hc, ne_of_opensNumeral hc rfl⟩
    iterate 2 decide

theorem IsValue.of_keyword {ks : List Char} (h : IsValue (c :: cs)) (hc : (c, ks) ∈ keywords) :
    cs = ks := by
  rcases h.cases_cons with hknown | ⟨rfl, -⟩ | ⟨hdigit, -⟩ | rfl | rfl
  · rcases mem_keywords_cases hknown with ⟨rfl, rfl⟩ | ⟨rfl, rfl⟩ | ⟨rfl, rfl⟩ <;>
      simpa [keywords, eq_comm] using hc
  · simp [keywords] at hc
  · rcases mem_keywords_cases hc with ⟨rfl, -⟩ | ⟨rfl, -⟩ | ⟨rfl, -⟩ <;> cases hdigit
  · simp [keywords] at hc
  · simp [keywords] at hc

theorem IsValue.of_opensNumeral (h : IsValue (c :: cs)) (hc : c = '-' || c.isDigit) :
    IsNumeral (c :: cs) := by
  rcases h.cases_cons with hknown | ⟨rfl, -⟩ | ⟨-, hnumeral⟩ | rfl | rfl
  · rcases mem_keywords_cases hknown with ⟨rfl, -⟩ | ⟨rfl, -⟩ | ⟨rfl, -⟩ <;> cases hc
  · cases hc
  · exact hnumeral
  iterate 2 cases hc

theorem IsValue.of_quote (h : IsValue ('"' :: cs)) : ∃ raw, cs = raw ++ ['"'] ∧ IsRawText raw := by
  rcases h.cases_cons with h | ⟨-, hraw⟩ | ⟨h, -⟩ | h | h
  · simp [keywords] at h
  · exact hraw
  iterate 3 cases h

end Values

section Skipping

variable {c : Char} {gap letters rest s body : List Char} {steps : Nat}

theorem IsPadding.endsNumeral_append (h : IsPadding gap) (hs : EndsNumeral s) :
    EndsNumeral (gap ++ s) := by
  cases gap with
  | nil => exact hs
  | cons c gap => exact fun d hd ↦ h.endsNumeral d hd

theorem endsNumeral_parts (parts : List (List Char)) (hclose : c = ']' ∨ c = '\x7d') :
    EndsNumeral (parts.flatMap (',' :: ·) ++ c :: rest) := by
  cases parts with
  | nil =>
    intro d hd
    obtain rfl := Option.some.inj hd
    rcases hclose with rfl | rfl <;> decide
  | cons part parts =>
    intro d hd
    obtain rfl := Option.some.inj hd
    decide

theorem readKeyword_append (letters : List Char) (s : Input) :
    readKeyword letters (letters ++ s) = .ok s := by
  induction letters with
  | nil => rw [List.nil_append, readKeyword]
  | cons c letters ih => rw [List.cons_append, readKeyword, if_pos rfl, ih]

theorem readColon_append (h : IsPadding gap) (s : Input) : readColon (gap ++ ':' :: s) = .ok s := by
  rw [readColon, skipSpace_append h rfl]
  exact if_pos rfl

/-- A value in letters is passed over in as many steps as it has letters. -/
def Skips (letters : List Char) : Prop :=
  ∀ steps : Nat, letters.length ≤ steps → ∀ gap rest : List Char, IsPadding gap →
    EndsNumeral rest → skipValue steps (gap ++ (letters ++ rest)) = .ok rest

theorem skipElements_later {elements : List Element} (hspaced : ∀ e ∈ elements, e.IsSpaced)
    (hskips : ∀ e ∈ elements, Skips e.value) (hgap : IsPadding gap)
    (hsteps : ((elements.map Element.letters).flatMap (',' :: ·)).length < steps) :
    skipElements steps false
        (gap ++ ((elements.map Element.letters).flatMap (',' :: ·) ++ ']' :: rest)) =
      .ok rest := by
  obtain ⟨steps, rfl⟩ : ∃ n, steps = n + 1 := ⟨steps - 1, by omega⟩
  -- What stands behind one element is the gap in front of the next comma.
  induction elements generalizing gap steps with
  | nil =>
    rw [skipElements, List.map_nil, List.flatMap_nil, List.nil_append, skipSpace_append hgap rfl]
    exact if_pos rfl
  | cons e elements ih =>
    obtain ⟨he, hspaced⟩ := List.forall_mem_cons.1 hspaced
    obtain ⟨hvalue, hskips⟩ := List.forall_mem_cons.1 hskips
    rw [List.map_cons, List.flatMap_cons, List.cons_append, List.length_cons, List.length_append,
      Element.letters, List.length_append, List.length_append] at hsteps
    obtain ⟨steps, rfl⟩ : ∃ n, steps = n + 1 := ⟨steps - 1, by omega⟩
    rw [skipElements, List.map_cons, List.flatMap_cons, List.append_assoc, List.cons_append,
      skipSpace_append hgap rfl]
    simp only [if_neg (show ',' ≠ ']' by decide), if_true, Bool.false_eq_true, if_false]
    rw [Element.letters, List.append_assoc, List.append_assoc,
      hvalue _ (by omega) _ _ he.before
        (he.after.endsNumeral_append (endsNumeral_parts _ (.inl rfl)))]
    exact ih hspaced hskips he.after _ (by omega)

theorem skipElements_body {elements : List Element} (hspaced : ∀ e ∈ elements, e.IsSpaced)
    (hvalues : ∀ e ∈ elements, IsValue e.value) (hskips : ∀ e ∈ elements, Skips e.value)
    (hbody : IsBody (elements.map Element.letters) body) (hsteps : body.length < steps) :
    skipElements steps true (body ++ ']' :: rest) = .ok rest := by
  obtain ⟨steps, rfl⟩ : ∃ n, steps = n + 1 := ⟨steps - 1, by omega⟩
  cases elements with
  | nil =>
    cases hbody with
    | blank padding =>
      rw [skipElements, skipSpace_append padding rfl]
      exact if_pos rfl
  | cons e elements =>
    obtain ⟨he, hspaced⟩ := List.forall_mem_cons.1 hspaced
    obtain ⟨hvalue, -⟩ := List.forall_mem_cons.1 hvalues
    obtain ⟨hskip, hskips⟩ := List.forall_mem_cons.1 hskips
    cases hbody with
    | filled =>
      rw [List.length_append, Element.letters, List.length_append, List.length_append] at hsteps
      -- The first element is skipped from its first letter on, without the space in front of it.
      have hfirst (s : Input) (hs : EndsNumeral s) : skipValue steps (e.value ++ s) = .ok s :=
        hskip steps (by omega) [] s nofun hs
      obtain ⟨c, cs, hc, hspace, hclose⟩ := hvalue.exists_cons
      have hlength : 0 < e.value.length := by rw [hc]; exact Nat.succ_pos _
      rw [skipElements, Element.letters]
      simp only [List.append_assoc]
      rw [hc, List.cons_append, skipSpace_append he.before hspace]
      simp only [if_neg hclose, if_true]
      rw [← List.cons_append, ← hc,
        hfirst _ (he.after.endsNumeral_append (endsNumeral_parts _ (.inl rfl)))]
      exact skipElements_later hspaced hskips he.after (by omega)

def Entry.behindQuote (e : Entry) (rest : List Char) : List Char :=
  e.key ++ '"' :: (e.afterKey ++ ':' :: (e.beforeValue ++ (e.value ++ (e.afterValue ++ rest))))

theorem Entry.letters_append (e : Entry) (rest : List Char) :
    e.letters ++ rest = e.beforeKey ++ '"' :: e.behindQuote rest := by
  simp [letters, behindQuote]

theorem Entry.length_value_lt (e : Entry) : e.value.length < e.letters.length := by
  simp only [letters, List.length_append, List.length_cons]
  omega

theorem skipMembers_entry {e : Entry} {isFirst : Bool} {r : List Char} (he : e.IsSpaced)
    (hkey : IsRawText e.key) (hvalue : Skips e.value) (hsteps : e.value.length ≤ steps)
    (hrest : EndsNumeral rest) (hs : skipSpace s = c :: r) (hc : c ≠ '\x7d')
    (hcomma : isFirst || c = ',')
    (hquote : skipSpace (if isFirst then c :: r else r) = '"' :: e.behindQuote rest) :
    skipMembers (steps + 1) isFirst s = skipMembers steps false (e.afterValue ++ rest) := by
  rw [skipMembers, hs]
  simp only [if_neg hc, hcomma, if_true, hquote, Entry.behindQuote, ne_eq, not_true_eq_false,
    if_false, skipText_of_isRawText hkey, readColon_append he.afterKey,
    hvalue steps hsteps _ _ he.beforeValue (he.afterValue.endsNumeral_append hrest), bind,
    Except.bind]

theorem skipMembers_later {entries : List Entry} (hspaced : ∀ e ∈ entries, e.IsSpaced)
    (hkeys : ∀ e ∈ entries, IsRawText e.key) (hskips : ∀ e ∈ entries, Skips e.value)
    (hgap : IsPadding gap)
    (hsteps : ((entries.map Entry.letters).flatMap (',' :: ·)).length < steps) :
    skipMembers steps false
        (gap ++ ((entries.map Entry.letters).flatMap (',' :: ·) ++ '\x7d' :: rest)) =
      .ok rest := by
  obtain ⟨steps, rfl⟩ : ∃ n, steps = n + 1 := ⟨steps - 1, by omega⟩
  induction entries generalizing gap steps with
  | nil =>
    rw [skipMembers, List.map_nil, List.flatMap_nil, List.nil_append, skipSpace_append hgap rfl]
    exact if_pos rfl
  | cons e entries ih =>
    obtain ⟨he, hspaced⟩ := List.forall_mem_cons.1 hspaced
    obtain ⟨hkey, hkeys⟩ := List.forall_mem_cons.1 hkeys
    obtain ⟨hvalue, hskips⟩ := List.forall_mem_cons.1 hskips
    rw [List.map_cons, List.flatMap_cons, List.cons_append, List.length_cons, List.length_append]
      at hsteps
    have hlength := e.length_value_lt
    obtain ⟨steps, rfl⟩ : ∃ n, steps = n + 1 := ⟨steps - 1, by omega⟩
    rw [List.map_cons, List.flatMap_cons, List.append_assoc, List.cons_append, e.letters_append]
    refine Eq.trans (skipMembers_entry he hkey hvalue ?_ (endsNumeral_parts _ (.inr rfl))
      (skipSpace_append hgap rfl _) (by decide) rfl (skipSpace_append he.beforeKey rfl _)) ?_
    · omega
    · exact ih hspaced hkeys hskips he.afterValue _ (by omega)

theorem skipMembers_body {entries : List Entry} (hspaced : ∀ e ∈ entries, e.IsSpaced)
    (hkeys : ∀ e ∈ entries, IsRawText e.key) (hskips : ∀ e ∈ entries, Skips e.value)
    (hbody : IsBody (entries.map Entry.letters) body) (hsteps : body.length < steps) :
    skipMembers steps true (body ++ '\x7d' :: rest) = .ok rest := by
  obtain ⟨steps, rfl⟩ : ∃ n, steps = n + 1 := ⟨steps - 1, by omega⟩
  cases entries with
  | nil =>
    cases hbody with
    | blank padding =>
      rw [skipMembers, skipSpace_append padding rfl]
      exact if_pos rfl
  | cons e entries =>
    obtain ⟨he, hspaced⟩ := List.forall_mem_cons.1 hspaced
    obtain ⟨hkey, hkeys⟩ := List.forall_mem_cons.1 hkeys
    obtain ⟨hvalue, hskips⟩ := List.forall_mem_cons.1 hskips
    cases hbody with
    | filled =>
      rw [List.length_append] at hsteps
      have hlength := e.length_value_lt
      rw [List.append_assoc, e.letters_append]
      refine Eq.trans (skipMembers_entry he hkey hvalue ?_ (endsNumeral_parts _ (.inr rfl))
        (skipSpace_append he.beforeKey rfl _) (by decide) rfl (skipSpace_cons rfl _)) ?_
      · omega
      · exact skipMembers_later hspaced hkeys hskips he.afterValue (by omega)

/-- A value of any depth is passed over up to its end. -/
theorem IsValue.skips (h : IsValue letters) : Skips letters := by
  -- On the grammar. A part has fewer letters than the container around it, so the steps that are
  -- left for it do not run out.
  induction h with
  | keyword known =>
    intro steps hsteps gap rest hgap _
    obtain ⟨steps, rfl⟩ : ∃ n, steps = n + 1 := ⟨steps - 1, by simp at hsteps; omega⟩
    rcases mem_keywords_cases known with ⟨rfl, rfl⟩ | ⟨rfl, rfl⟩ | ⟨rfl, rfl⟩
    all_goals
      rw [List.cons_append, skipValue, skipSpace_append hgap rfl]
      exact readKeyword_append _ rest
  | @number letters numeral =>
    intro steps hsteps gap rest hgap hrest
    obtain ⟨c, cs, rfl, hc⟩ := numeral.exists_cons
    obtain ⟨steps, rfl⟩ : ∃ n, steps = n + 1 := ⟨steps - 1, by simp at hsteps; omega⟩
    obtain ⟨n, hn⟩ : ∃ n, readNumeral .invalidNumber (c :: cs ++ rest) = .ok (n, rest) :=
      exists_readNumeral numeral hrest
    rw [List.cons_append, skipValue, skipSpace_append hgap (isSpace_of_opensNumeral hc)]
    simp only [if_neg (ne_of_opensNumeral (d := 'n') hc rfl),
      if_neg (ne_of_opensNumeral (d := 't') hc rfl), if_neg (ne_of_opensNumeral (d := 'f') hc rfl),
      if_neg (ne_of_opensNumeral (d := '"') hc rfl), if_pos hc]
    rw [← List.cons_append, hn]
    rfl
  | text is_raw =>
    intro steps hsteps gap rest hgap _
    obtain ⟨steps, rfl⟩ : ∃ n, steps = n + 1 := ⟨steps - 1, by simp at hsteps; omega⟩
    rw [List.cons_append, List.cons_append, List.append_assoc, skipValue,
      skipSpace_append hgap rfl]
    exact skipText_of_isRawText is_raw rest
  | list is_body spaced values ih =>
    intro steps hsteps gap rest hgap _
    rw [List.length_append, List.length_cons, List.length_singleton] at hsteps
    obtain ⟨steps, rfl⟩ : ∃ n, steps = n + 1 := ⟨steps - 1, by omega⟩
    rw [List.cons_append, List.cons_append, List.append_assoc, skipValue,
      skipSpace_append hgap rfl]
    exact skipElements_body spaced values (fun e he ↦ ih e he) is_body (by omega)
  | object is_body spaced keys values ih =>
    intro steps hsteps gap rest hgap _
    rw [List.length_append, List.length_cons, List.length_singleton] at hsteps
    obtain ⟨steps, rfl⟩ : ∃ n, steps = n + 1 := ⟨steps - 1, by omega⟩
    rw [List.cons_append, List.cons_append, List.append_assoc, skipValue,
      skipSpace_append hgap rfl]
    exact skipMembers_body spaced keys (fun e he ↦ ih e he) is_body (by omega)

end Skipping

end PackageStaging.Json
