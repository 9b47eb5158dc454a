import PackageStaging.Proofs.Json.Grammar

namespace PackageStaging.Json

variable {ε δ α β : Type}

/-- Of all well-formed values a reader takes those that mean something, for what they mean. -/
def ReadsValues (read : Input → Except ε (α × Input)) (means : List Char → α → Prop) : Prop :=
  ∀ letters, IsValue letters → ∀ gap rest, IsPadding gap → EndsNumeral rest → ∀ a r,
    read (gap ++ (letters ++ rest)) = .ok (a, r) ↔ r = rest ∧ means letters a

variable {read : Input → Except ε (α × Input)} {means : List Char → α → Prop}

theorem ReadsValues.map (h : ReadsValues read means) (f : α → β) :
    ReadsValues (fun s ↦ (read s).map fun (a, r) ↦ (f a, r))
      fun letters b ↦ ∃ a, means letters a ∧ b = f a := by
  intro letters hvalue gap rest hgap hrest b r
  have hread := h letters hvalue gap rest hgap hrest
  constructor
  · intro hmap
    obtain ⟨⟨a, r⟩, ha, hb⟩ := exists_of_map_ok hmap
    cases hb
    obtain ⟨rfl, hmeans⟩ := (hread _ _).1 ha
    exact ⟨rfl, a, hmeans, rfl⟩
  · rintro ⟨rfl, a, hmeans, rfl⟩
    simp only [(hread a r).2 ⟨rfl, hmeans⟩, Except.map]

theorem ReadsValues.mapError (h : ReadsValues read means) (f : ε → δ) :
    ReadsValues (fun s ↦ (read s).mapError f) means := by
  intro letters hvalue gap rest hgap hrest a r
  rw [← h letters hvalue gap rest hgap hrest]
  dsimp only
  cases read (gap ++ (letters ++ rest)) <;> simp [Except.mapError]

theorem ReadsValues.congr (h : ReadsValues read means) {other : List Char → α → Prop}
    (hmeans : ∀ letters a, other letters a ↔ means letters a) : ReadsValues read other := by
  intro letters hvalue gap rest hgap hrest a r
  rw [hmeans, h letters hvalue gap rest hgap hrest]

theorem ReadsValues.unique (h : ReadsValues read means) {letters : List Char}
    (hvalue : IsValue letters) {a b : α} (ha : means letters a) (hb : means letters b) : a = b := by
  have hread := h letters hvalue [] [] nofun nofun
  have hfirst := (hread a []).2 ⟨rfl, ha⟩
  rw [(hread b []).2 ⟨rfl, hb⟩] at hfirst
  cases hfirst
  rfl

def IsText (letters : List Char) (t : String) : Prop :=
  ∃ raw, letters = '"' :: raw ++ ['"'] ∧ Spells raw t.toList

def IsBoolean (letters : List Char) (b : Bool) : Prop := letters = (ofBool b).toList

theorem isText_of_readText {cs rest r : List Char} {t : String} (hvalue : IsValue ('"' :: cs))
    (h : readText (cs ++ rest) = .ok (t.toList, r)) : r = rest ∧ IsText ('"' :: cs) t := by
  obtain ⟨raw, rfl, hraw⟩ := hvalue.of_quote
  rw [List.append_assoc] at h
  obtain ⟨rfl, hspells⟩ := readText_of_isRawText hraw h
  exact ⟨rfl, raw, rfl, hspells⟩

theorem readsValues_readString (wanted : String) : ReadsValues (readString wanted) IsText := by
  intro letters hvalue gap rest hgap _ t r
  obtain ⟨c, cs, rfl, hspace, -⟩ := hvalue.exists_cons
  rw [List.cons_append, readString, skipSpace_append hgap hspace]
  by_cases hc : c = '"'
  · subst hc
    simp only [if_true]
    constructor
    · intro h
      obtain ⟨⟨t', r'⟩, hread, heq⟩ := exists_of_map_ok h
      cases heq
      exact isText_of_readText hvalue (by rw [hread, String.toList_ofList])
    · rintro ⟨rfl, raw, heq, hspells⟩
      rw [List.cons_append] at heq
      obtain ⟨-, rfl⟩ := List.cons.inj heq
      rw [List.append_assoc, List.singleton_append, readText_of_spells hspells]
      simp only [Except.map, String.ofList_toList]
  · simp only [if_neg hc]
    constructor
    · intro h
      cases h
    · rintro ⟨-, raw, heq, -⟩
      exact absurd (List.cons.inj heq).1 hc

theorem readsValues_readBoolean : ReadsValues readBoolean IsBoolean := by
  intro letters hvalue gap rest hgap _ b r
  obtain ⟨c, cs, rfl, hspace, -⟩ := hvalue.exists_cons
  rw [List.cons_append, readBoolean, skipSpace_append hgap hspace]
  dsimp only
  by_cases ht : c = 't'
  · subst ht
    have hknown : ('t', ['r', 'u', 'e']) ∈ keywords := by decide
    obtain rfl := hvalue.of_keyword hknown
    rw [if_pos rfl, readKeyword_append]
    cases b <;> simp [Except.map, IsBoolean, ofBool, eq_comm]
  · rw [if_neg ht]
    by_cases hf : c = 'f'
    · subst hf
      have hknown : ('f', ['a', 'l', 's', 'e']) ∈ keywords := by decide
      obtain rfl := hvalue.of_keyword hknown
      rw [if_pos rfl, readKeyword_append]
      cases b <;> simp [Except.map, IsBoolean, ofBool, eq_comm]
    · rw [if_neg hf]
      refine ⟨nofun, ?_⟩
      rintro ⟨-, hb⟩
      cases b with
      | true => exact absurd (List.cons.inj hb).1 ht
      | false => exact absurd (List.cons.inj hb).1 hf

/-- A value that may be missing: `null`, or what the value itself means. -/
inductive IsOptional (means : List Char → α → Prop) : List Char → Option α → Prop
  | null : IsOptional means ['n', 'u', 'l', 'l'] none
  | some {letters : List Char} {a : α} (is_value : means letters a) :
      IsOptional means letters (some a)

theorem readsValues_readOption {read : Input → Except Fault (α × Input)}
    (h : ReadsValues read means) (hnull : ∀ cs a, ¬ means ('n' :: cs) a) :
    ReadsValues (readOption read) (IsOptional means) := by
  intro letters hvalue gap rest hgap hrest o r
  obtain ⟨c, cs, rfl, hspace, -⟩ := hvalue.exists_cons
  rw [List.cons_append, readOption, skipSpace_append hgap hspace]
  dsimp only
  by_cases hn : c = 'n'
  · subst hn
    have hknown : ('n', ['u', 'l', 'l']) ∈ keywords := by decide
    obtain rfl := hvalue.of_keyword hknown
    rw [if_pos rfl, readKeyword_append]
    constructor
    · intro heq
      cases heq
      exact ⟨rfl, .null⟩
    · rintro ⟨rfl, hmeans⟩
      cases hmeans with
      | null => rfl
      | some is_value => exact absurd is_value (hnull _ _)
  · rw [if_neg hn]
    have hread := h.map some (c :: cs) hvalue [] rest (List.forall_mem_nil _) hrest o r
    rw [List.nil_append, List.cons_append] at hread
    rw [hread]
    refine and_congr_right fun _ ↦ ?_
    constructor
    · rintro ⟨a, hmeans, rfl⟩
      exact .some hmeans
    · intro hmeans
      cases hmeans with
      | null => exact absurd rfl hn
      | some is_value => exact ⟨_, is_value, rfl⟩

end PackageStaging.Json
