import PackageStaging.Proofs.Json.Integer
import PackageStaging.Proofs.Json.Spelled

namespace PackageStaging.Json

def IsPadding (cs : List Char) : Prop := ∀ c ∈ cs, c = ' ' ∨ c = '\t' ∨ c = '\n' ∨ c = '\r'

variable {c : Char} {s rest before letters : List Char} {steps depth : Nat}

theorem isSpace_iff : isSpace c ↔ c = ' ' ∨ c = '\t' ∨ c = '\n' ∨ c = '\r' := by
  simp [isSpace, or_assoc]

theorem skipSpace_eq_nil_iff : skipSpace s = [] ↔ IsPadding s := by
  rw [skipSpace, List.dropWhile_eq_nil_iff]
  exact forall₂_congr fun c _ ↦ isSpace_iff

theorem exists_padding (s : Input) : ∃ before, IsPadding before ∧ s = before ++ skipSpace s :=
  ⟨s.takeWhile isSpace, fun _ hc ↦ isSpace_iff.1 (List.mem_takeWhile_imp hc),
    List.takeWhile_append_dropWhile.symm⟩

theorem skipSpace_append (h : IsPadding before) (hc : isSpace c = false) (s : Input) :
    skipSpace (before ++ c :: s) = c :: s := by
  rw [skipSpace, List.dropWhile_append_of_pos fun d hd ↦ isSpace_iff.2 (h d hd)]
  exact skipSpace_cons hc s

theorem IsPadding.endsNumeral (h : IsPadding rest) : EndsNumeral rest := by
  intro c hc
  rcases h c (List.mem_of_mem_head? hc) with rfl | rfl | rfl | rfl <;> decide

theorem document_eq_ok_iff {α : Type} {read : Reader α} {text : String} {a : α} :
    document read text = .ok a ↔ ∃ rest, read text.toList = .ok (a, rest) ∧ IsPadding rest := by
  constructor
  · intro h
    unfold document at h
    split at h
    · cases h
    · cases h
    · rename_i found rest hread
      split at h
      · rename_i hrest
        cases h
        exact ⟨rest, hread, skipSpace_eq_nil_iff.1 hrest⟩
      · cases h
  · rintro ⟨rest, hread, hrest⟩
    simp only [document, hread, skipSpace_eq_nil_iff.2 hrest]

/-- Where a text or a number was read from: what stood behind the space in front of it. -/
def Value.Stems (s rest : Input) : Value → Prop
  | .text t => ∃ r, s = '"' :: r ∧ readText r = .ok (t.toList, rest)
  | .number n => readNumber s = .ok (n, rest)
  | _ => True

theorem stems_of_readValue {value : Value} (h : readValue (steps + 1) depth s = .ok (value, rest)) :
    value.Stems (skipSpace s) rest := by
  rw [readValue] at h
  split at h
  · cases h
  · rename_i c r hs
    rw [hs]
    -- A keyword holds neither a text nor a number, and at the end no more does a container.
    iterate 3
      split at h
      · obtain ⟨_, -, hvalue⟩ := exists_of_map_ok h
        cases hvalue
        trivial
    split at h
    · rename_i hquote
      obtain ⟨⟨t, r'⟩, hread, hvalue⟩ := exists_of_map_ok h
      cases hvalue
      exact ⟨r, by rw [hquote], by rw [String.toList_ofList, hread]⟩
    · split at h
      · obtain ⟨⟨n, r'⟩, hread, hvalue⟩ := exists_of_map_ok h
        cases hvalue
        exact hread
      · iterate 2
          split at h
          · split at h
            · cases h
            · obtain ⟨_, -, hvalue⟩ := exists_of_map_ok h
              cases hvalue
              trivial
        cases h

theorem readValue_spelled {text : List Char} (hbefore : IsPadding before)
    (h : Spells letters text) (rest : Input) :
    readValue (steps + 1) depth (before ++ '"' :: (letters ++ '"' :: rest)) =
      .ok (.text (String.ofList text), rest) := by
  rw [readValue, skipSpace_append hbefore rfl]
  simp [readText_of_spells h, Except.map]

theorem ne_of_opensNumeral {d : Char} (hc : c = '-' || c.isDigit)
    (hd : (d = '-' || d.isDigit) = false) : c ≠ d := by
  rintro rfl
  rw [hd] at hc
  cases hc

theorem isSpace_of_opensNumeral (hc : c = '-' || c.isDigit) : isSpace c = false := by
  rw [← Bool.not_eq_true, isSpace_iff]
  rintro (h | h | h | h)
  iterate 4 exact ne_of_opensNumeral hc rfl h

theorem readValue_number (hbefore : IsPadding before) (hc : c = '-' || c.isDigit) (s : Input) :
    readValue (steps + 1) depth (before ++ c :: s) =
      (readNumber (c :: s)).map fun (n, r) ↦ (.number n, r) := by
  rw [readValue, skipSpace_append hbefore (isSpace_of_opensNumeral hc)]
  simp only [if_neg (ne_of_opensNumeral (d := 'n') hc rfl),
    if_neg (ne_of_opensNumeral (d := 't') hc rfl), if_neg (ne_of_opensNumeral (d := 'f') hc rfl),
    if_neg (ne_of_opensNumeral (d := '"') hc rfl), if_pos hc]

theorem IsInteger.exists_cons {i : Int} (h : IsInteger letters i) :
    ∃ c cs, letters = c :: cs ∧ (c = '-' || c.isDigit) := by
  cases h with
  | negative => exact ⟨'-', _, rfl, rfl⟩
  | natural whole =>
    obtain ⟨c, cs, rfl, hc⟩ := whole.exists_cons
    exact ⟨c, cs, rfl, by rw [hc, Bool.or_true]⟩

end PackageStaging.Json
