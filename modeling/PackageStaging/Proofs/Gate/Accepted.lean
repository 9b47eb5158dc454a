import PackageStaging.Proofs.Config.Written
import PackageStaging.Proofs.Json.Document

namespace PackageStaging

namespace GateStatus

open Json (IsInteger IsPadding Spells)

variable {letters : List Char} {status : GateStatus} {i : Int}

/-- The letters of a value that stands for a status: an integer of 64 bits or the text of a name. -/
inductive Denotes : List Char → GateStatus → Prop
  | one {letters : List Char} (integer : IsInteger letters 1) : Denotes letters .enabled
  | two {letters : List Char} (integer : IsInteger letters 2) : Denotes letters .requiresAgreement
  | other {letters : List Char} {i : Int} (integer : IsInteger letters i)
      (low : -0x8000000000000000 ≤ i) (high : i < 0x8000000000000000) (not_one : i ≠ 1)
      (not_two : i ≠ 2) : Denotes letters .disabled
  | disabled {letters : List Char} (spelled : Spells letters "disabled".toList) :
      Denotes ('"' :: letters ++ ['"']) .disabled
  | enabled {letters : List Char} (spelled : Spells letters "enabled".toList) :
      Denotes ('"' :: letters ++ ['"']) .enabled
  | requiresAgreement {letters : List Char} (spelled : Spells letters "requires-agreement".toList) :
      Denotes ('"' :: letters ++ ['"']) .requiresAgreement

theorem Denotes.of_name (h : Spells letters status.name.toList) :
    Denotes ('"' :: letters ++ ['"']) status := by
  cases status with
  | disabled => exact .disabled h
  | enabled => exact .enabled h
  | requiresAgreement => exact .requiresAgreement h

theorem Denotes.of_code (h : IsInteger letters i) (hlow : -Json.signedLimit ≤ i)
    (hhigh : i < Json.signedLimit) : Denotes letters (ofCode i) := by
  unfold ofCode
  split
  · exact .one h
  · exact .two h
  · rename_i hone htwo
    exact .other h hlow hhigh hone htwo

theorem Denotes.name_or_code (h : Denotes letters status) :
    (∃ inner, letters = '"' :: inner ++ ['"'] ∧ Spells inner status.name.toList) ∨
      ∃ i, IsInteger letters i ∧ -Json.signedLimit ≤ i ∧ i < Json.signedLimit ∧
        status = ofCode i := by
  cases h with
  | one integer => exact .inr ⟨1, integer, by decide, by decide, rfl⟩
  | two integer => exact .inr ⟨2, integer, by decide, by decide, rfl⟩
  | @other _ i integer low high not_one not_two =>
    refine .inr ⟨i, integer, low, high, ?_⟩
    unfold ofCode
    split
    · exact absurd rfl not_one
    · exact absurd rfl not_two
    · rfl
  | disabled spelled | enabled spelled | requiresAgreement spelled =>
    exact .inl ⟨_, rfl, spelled⟩

theorem ofName?_eq_some_iff {s : String} : ofName? s = some status ↔ s = status.name := by
  constructor
  · intro h
    have hfound := List.find?_some h
    exact (beq_iff_eq.1 hfound).symm
  · rintro rfl
    exact ofName?_name status

theorem ofValue_text {s : String} : ofValue (.text s) = .ok status ↔ s = status.name := by
  rw [← ofName?_eq_some_iff, ofValue]
  cases ofName? s <;> simp

theorem ofValue_number {n : Json.Number} : ofValue (.number n) = .ok status ↔
    ∃ i, n.integer? = some i ∧ i < Json.signedLimit ∧ status = ofCode i := by
  cases n with
  | natural n =>
    rw [ofValue]
    split
    · rename_i hfits
      constructor
      · intro h
        cases h
        exact ⟨n, rfl, Int.ofNat_lt.2 hfits, rfl⟩
      · rintro ⟨i, hi, -, rfl⟩
        cases hi
        rfl
    · rename_i hfits
      constructor
      · intro h
        cases h
      · rintro ⟨i, hi, hlt, -⟩
        cases hi
        exact absurd (Int.ofNat_lt.1 hlt) hfits
  | negative n =>
    constructor
    · intro h
      cases h
      exact ⟨Int.negSucc n, rfl, by omega, rfl⟩
    · rintro ⟨i, hi, -, rfl⟩
      cases hi
      rfl
  | decimal x =>
    constructor
    · intro h
      cases h
    · rintro ⟨i, hi, -⟩
      cases hi

theorem ofValue_cases {value : Json.Value} (h : ofValue value = .ok status) :
    value = .text status.name ∨ ∃ n, value = .number n := by
  cases value with
  | text s => exact .inl (congrArg Json.Value.text (ofValue_text.1 h))
  | number n => exact .inr ⟨n, rfl⟩
  | _ => cases h

theorem reader_eq_ok_iff {depth : Nat} {s rest : Json.Input} :
    reader depth s = .ok (status, rest) ↔ ∃ value,
      Json.readValue (Json.stepsFor s) depth s = .ok (value, rest) ∧ ofValue value = .ok status := by
  constructor
  · intro h
    unfold reader at h
    split at h
    · cases h
    · rename_i value rest hread
      split at h
      · rename_i status hvalue
        cases h
        exact ⟨value, hread, hvalue⟩
      · cases h
  · rintro ⟨value, hread, hvalue⟩
    simp only [reader, hread, hvalue]

def IsSpelledBy (status : GateStatus) (text : String) : Prop :=
  ∃ before letters after, text.toList = before ++ letters ++ after ∧ IsPadding before ∧
    IsPadding after ∧ Denotes letters status

theorem isSpelledBy_of_read {text : String} (h : read text = .ok status) :
    status.IsSpelledBy text := by
  obtain ⟨rest, hreader, hrest⟩ := Json.document_eq_ok_iff.1 h
  obtain ⟨value, hread, hvalue⟩ := reader_eq_ok_iff.1 hreader
  obtain ⟨before, hbefore, hs⟩ := Json.exists_padding text.toList
  have hstems := Json.stems_of_readValue hread
  rcases ofValue_cases hvalue with rfl | ⟨n, rfl⟩
  · obtain ⟨r, hquote, htext⟩ := hstems
    obtain ⟨letters, rfl, hspells⟩ := Json.readText_eq_ok_iff.1 htext
    refine ⟨before, '"' :: letters ++ ['"'], rest, ?_, hbefore, hrest, .of_name hspells⟩
    rw [hs, hquote]
    simp
  · obtain ⟨i, hinteger, hfits, rfl⟩ := ofValue_number.1 hvalue
    obtain ⟨letters, hletters, hspelled, hlow, -⟩ :=
      Json.exists_integer_of_readNumber hstems hinteger
    refine ⟨before, letters, rest, ?_, hbefore, hrest, .of_code hspelled hlow hfits⟩
    rw [hs, hletters, List.append_assoc]

theorem reader_of_denotes {before rest : List Char} (h : Denotes letters status)
    (hbefore : IsPadding before) (hrest : Json.EndsNumeral rest) (depth : Nat) :
    reader depth (before ++ (letters ++ rest)) = .ok (status, rest) := by
  rw [reader_eq_ok_iff, Json.stepsFor]
  rcases h.name_or_code with ⟨inner, rfl, hspelled⟩ | ⟨i, hinteger, hlow, hhigh, rfl⟩
  · refine ⟨.text status.name, ?_, ofValue_text.2 rfl⟩
    rw [List.cons_append, List.cons_append, List.append_assoc, List.singleton_append,
      Json.readValue_spelled hbefore hspelled rest, String.ofList_toList]
  · have hlimit : i < Json.wordLimit := Int.lt_trans hhigh (by decide)
    obtain ⟨n, hnumber, hn⟩ := Json.readNumber_of_isInteger hinteger hlow hlimit hrest
    obtain ⟨c, cs, rfl, hc⟩ := hinteger.exists_cons
    refine ⟨.number n, ?_, ofValue_number.2 ⟨i, hn, hhigh, rfl⟩⟩
    rw [List.cons_append, Json.readValue_number hbefore hc, ← List.cons_append, hnumber]
    rfl

theorem read_of_isSpelledBy {text : String} (h : status.IsSpelledBy text) :
    read text = .ok status := by
  obtain ⟨before, letters, after, htext, hbefore, hafter, hdenotes⟩ := h
  refine Json.document_eq_ok_iff.2 ⟨after, ?_, hafter⟩
  rw [htext, List.append_assoc]
  exact reader_of_denotes hdenotes hbefore hafter.endsNumeral _

/-- The texts that are read as a status are those that spell it, as a name or as an integer between
padding; every other text is refused. A status is read back from what it is written as. -/
theorem read_accepts :
    (∀ text status, read text = .ok status ↔ status.IsSpelledBy text) ∧
    (∀ text, (∃ e, read text = .error e) ↔ ∀ status : GateStatus, ¬ status.IsSpelledBy text) ∧
    ∀ status : GateStatus, read status.toJson = .ok status := by
  have hread (text : String) (status : GateStatus) :
      read text = .ok status ↔ status.IsSpelledBy text :=
    ⟨isSpelledBy_of_read, read_of_isSpelledBy⟩
  refine ⟨hread, fun text ↦ ?_, fun status ↦ ?_⟩
  · simp only [← hread]
    cases read text <;> simp
  · have hreader := reader_toJson Json.depthLimit status []
    rw [List.append_nil] at hreader
    exact Json.document_eq_ok_iff.2 ⟨[], hreader, fun _ hc ↦ absurd hc List.not_mem_nil⟩

theorem read_accepts_escaped :
    read "\t\"\\u0065nabled\"\n" = .ok .enabled ∧ read "-9223372036854775808" = .ok .disabled := by
  have hpadding (c : Char) (hc : c = ' ' ∨ c = '\t' ∨ c = '\n' ∨ c = '\r') : IsPadding [c] := by
    intro d hd
    rwa [List.mem_singleton.1 hd]
  have hnone : IsPadding [] := fun _ hc ↦ absurd hc List.not_mem_nil
  have hrest : Spells "nabled".toList "nabled".toList := Json.spells_written "nabled".toList
  have hunit : Json.IsHexUnit '0' '0' '6' '5' 'e'.toNat :=
    ⟨0, 0, 6, 5, ⟨by decide, .inl rfl⟩, ⟨by decide, .inl rfl⟩, ⟨by decide, .inl rfl⟩,
      ⟨by decide, .inl rfl⟩, rfl⟩
  have hdigits : "9223372036854775808".toList.all Char.isDigit := rfl
  have hlowest : IsInteger "-9223372036854775808".toList (-0x8000000000000000) :=
    .negative (.inr ⟨by decide, by decide, List.all_eq_true.1 hdigits⟩) (by decide)
  constructor
  · exact (read_accepts.1 _ _).2 ⟨['\t'], _, ['\n'], rfl, hpadding _ (by decide),
      hpadding _ (by decide), .enabled (.unit hunit hrest)⟩
  · exact (read_accepts.1 _ _).2 ⟨[], _, [], rfl, hnone, hnone,
      .other hlowest (by decide) (by decide) (by decide) (by decide)⟩

end GateStatus

end PackageStaging
