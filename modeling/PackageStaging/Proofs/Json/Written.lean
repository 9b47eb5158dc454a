import Mathlib.Data.List.Basic
import PackageStaging.Json.Printer
import PackageStaging.Json.Record

namespace PackageStaging.Json

variable {c e x : Char}

theorem readText_short (h : shortEscape? e = some x) (s : Input) :
    readText ('\\' :: e :: s) = (readText s).map fun (t, r) ↦ (x :: t, r) := by
  have hu : e ≠ 'u' := by
    rintro rfl
    cases h
  rw [readText, if_neg (by decide), if_pos rfl]
  · simp only [h]
  · exact fun _ _ _ _ _ he ↦ absurd he hu

theorem hexUnit?_control (h : c.toNat < 0x20) :
    hexUnit? '0' '0' (Text.lowerHexDigit (c.toNat / 16)) (Text.lowerHexDigit (c.toNat % 16)) =
      some c.toNat := by
  have hzero : Text.hexValue? '0' = some 0 := rfl
  have hhigh : Text.hexValue? (Text.lowerHexDigit (c.toNat / 16)) = some (c.toNat / 16) :=
    Text.hexValue?_lowerHexDigit (by omega)
  have hlow : Text.hexValue? (Text.lowerHexDigit (c.toNat % 16)) = some (c.toNat % 16) :=
    Text.hexValue?_lowerHexDigit (by omega)
  simp only [hexUnit?, hzero, hhigh, hlow, bind, Option.bind, pure, Option.some.injEq]
  omega

theorem not_isSurrogate_toNat (x : Char) :
    isLowSurrogate x.toNat = false ∧ isHighSurrogate x.toNat = false := by
  have hvalid : x.toNat < 0xD800 ∨ 0xDFFF < x.toNat ∧ x.toNat < 0x110000 := x.valid
  simp only [isLowSurrogate, isHighSurrogate, Bool.and_eq_false_iff, decide_eq_false_iff_not]
  omega

theorem readText_unit {a b d : Char} (h : hexUnit? a b c d = some x.toNat) (s : Input) :
    readText ('\\' :: 'u' :: a :: b :: c :: d :: s) =
      (readText s).map fun (t, r) ↦ (x :: t, r) := by
  obtain ⟨hlow, hhigh⟩ := not_isSurrogate_toNat x
  rw [readText, if_neg (by decide), if_pos rfl]
  simp only [h, hlow, hhigh, Char.ofNat_toNat, Bool.false_eq_true, if_false]

theorem readText_plain (hquote : c ≠ '"') (hslash : c ≠ '\\') (hcontrol : ¬ c.toNat < 0x20)
    (s : Input) : readText (c :: s) = (readText s).map fun (t, r) ↦ (c :: t, r) := by
  rw [readText.eq_def]
  simp only [if_neg hquote, if_neg hslash, if_neg hcontrol]

theorem readText_escapeChar (c : Char) (s : Input) :
    readText (escapeChar c ++ s) = (readText s).map fun (t, r) ↦ (c :: t, r) := by
  unfold escapeChar
  split
  iterate 7 exact readText_short rfl s
  · rename_i hquote hslash _ _ _ _ _
    split
    · rename_i hcontrol
      exact readText_unit (hexUnit?_control hcontrol) s
    · rename_i hcontrol
      exact readText_plain hquote hslash hcontrol s

theorem readText_quote (s : Input) : readText ('"' :: s) = .ok ([], s) := by
  rw [readText.eq_def]
  exact if_pos rfl

theorem readText_written (text : List Char) (rest : Input) :
    readText (text.flatMap escapeChar ++ '"' :: rest) = .ok (text, rest) := by
  induction text with
  | nil => exact readText_quote rest
  | cons c text ih =>
    rw [List.flatMap_cons, List.append_assoc, readText_escapeChar, ih]
    rfl

theorem toList_ofText_append (text : String) (rest : Input) :
    (ofText text).toList ++ rest = '"' :: (text.toList.flatMap escapeChar ++ '"' :: rest) := by
  simp [ofText]

theorem skipSpace_cons (h : isSpace c = false) (s : Input) : skipSpace (c :: s) = c :: s :=
  List.dropWhile_cons_of_neg (by simp [h])

theorem skipSpace_quote (s : Input) : skipSpace ('"' :: s) = '"' :: s := skipSpace_cons rfl s

theorem readString_ofText (wanted text : String) (rest : Input) :
    readString wanted ((ofText text).toList ++ rest) = .ok (text, rest) := by
  rw [toList_ofText_append, readString, skipSpace_quote]
  simp only [if_true, readText_written, Except.map, String.ofList_toList]

theorem readOption_ofText (wanted text : String) (rest : Input) :
    readOption (readString wanted) ((ofText text).toList ++ rest) = .ok (some text, rest) := by
  have hread := readString_ofText wanted text rest
  rw [toList_ofText_append] at hread ⊢
  rw [readOption, skipSpace_quote]
  simp only [if_neg (show '"' ≠ 'n' by decide), hread, Except.map]

theorem readBoolean_ofBool (b : Bool) (rest : Input) :
    readBoolean ((ofBool b).toList ++ rest) = .ok (b, rest) := by
  cases b <;> rfl

theorem readValue_ofText (steps depth : Nat) (text : String) (rest : Input) :
    readValue (steps + 1) depth ((ofText text).toList ++ rest) = .ok (.text text, rest) := by
  rw [toList_ofText_append, readValue, skipSpace_quote]
  simp only [if_true, if_neg (show '"' ≠ 'n' by decide), if_neg (show '"' ≠ 't' by decide),
    if_neg (show '"' ≠ 'f' by decide), readText_written, Except.map, String.ofList_toList]

/-- A member of an object as it is written, and what is meant by it in a record. -/
structure Member (ρ : Type) where
  key : String
  value : String
  set : ρ → ρ

namespace Member

variable {ρ : Type}

def letters (m : Member ρ) : List Char := (ofText m.key).toList ++ ':' :: m.value.toList

/-- The field of its key takes the member for what is meant by it. -/
def IsTaken (fields : List (Field ρ)) (m : Member ρ) : Prop :=
  ∃ field, fields.find? (·.key == m.key) = some field ∧
    ∀ rest, field.read (m.value.toList ++ rest) = .ok (m.set, rest)

def setAll (ms : List (Member ρ)) (record : ρ) : ρ := ms.foldl (fun r m ↦ m.set r) record

end Member

section

variable {ρ : Type} {fields : List (Field ρ)} {m : Member ρ} {ms : List (Member ρ)}

theorem readByKey_member {steps : Nat} {seen : List String} {isFirst : Bool} {record : ρ}
    {s : Input} (rest : Input) (htaken : m.IsTaken fields) (hseen : m.key ∉ seen)
    (hnext : nextKey isFirst s =
      .ok (some (m.key.toList.flatMap escapeChar ++ '"' :: ':' :: (m.value.toList ++ rest)))) :
    readByKey fields (steps + 1) seen isFirst record s =
      readByKey fields steps (m.key :: seen) false (m.set record) rest := by
  obtain ⟨field, hfind, hread⟩ := htaken
  have hcolon : readColon (':' :: (m.value.toList ++ rest)) = .ok (m.value.toList ++ rest) := by
    rw [readColon, skipSpace_cons rfl]
    exact if_pos rfl
  rw [readByKey, hnext]
  simp only [Reader.ofFault, readText_written, Except.mapError, String.ofList_toList, hfind, bind,
    Except.bind, List.contains_iff_mem, hseen, if_false, hcolon, hread]

theorem readByKey_close (steps : Nat) (seen : List String) (isFirst : Bool) (record : ρ)
    (rest : Input) : readByKey fields (steps + 1) seen isFirst record ('\x7d' :: rest) =
      .ok (record, '\x7d' :: rest) := by
  rw [readByKey, nextKey, skipSpace_cons rfl]
  rfl

theorem readByKey_later {steps : Nat} {seen : List String} {record : ρ}
    (htaken : ∀ m ∈ ms, m.IsTaken fields) (hkeys : (ms.map Member.key).Nodup)
    (hseen : ∀ m ∈ ms, m.key ∉ seen) (hsteps : ms.length < steps) (rest : Input) :
    readByKey fields steps seen false record
        ((ms.map Member.letters).flatMap (',' :: ·) ++ '\x7d' :: rest) =
      .ok (Member.setAll ms record, '\x7d' :: rest) := by
  obtain ⟨steps, rfl⟩ : ∃ n, steps = n + 1 := ⟨steps - 1, by omega⟩
  induction ms generalizing steps seen record with
  | nil => exact readByKey_close steps seen false record rest
  | cons m ms ih =>
    obtain ⟨hm, htaken⟩ := List.forall_mem_cons.1 htaken
    obtain ⟨hnew, hseen⟩ := List.forall_mem_cons.1 hseen
    obtain ⟨hother, hkeys⟩ := List.nodup_cons.1 hkeys
    obtain ⟨steps, rfl⟩ : ∃ n, steps = n + 1 := ⟨steps - 1, by simp at hsteps; omega⟩
    have hlater : ∀ m' ∈ ms, m'.key ∉ m.key :: seen := by
      intro m' hm' hmem
      rcases List.mem_cons.1 hmem with he | hmem
      · exact hother (List.mem_map.2 ⟨m', hm', he⟩)
      · exact hseen m' hm' hmem
    rw [readByKey_member ((ms.map Member.letters).flatMap (',' :: ·) ++ '\x7d' :: rest) hm hnew]
    · exact ih htaken hkeys hlater _ (Nat.lt_of_succ_lt_succ hsteps)
    · simp only [List.map_cons, List.flatMap_cons, Member.letters, List.cons_append,
        List.append_assoc, toList_ofText_append]
      rw [nextKey, skipSpace_cons rfl]
      rfl

theorem intercalate_comma (x : List Char) (xs : List (List Char)) :
    [','].intercalate (x :: xs) = x ++ xs.flatMap (',' :: ·) := by
  induction xs generalizing x with
  | nil => simp
  | cons y ys ih => simp [List.intercalate_cons_cons, ih]

theorem length_le_flatMap_comma (xs : List (List Char)) :
    xs.length ≤ (xs.flatMap (',' :: ·)).length := by
  induction xs with
  | nil => exact Nat.le_refl _
  | cons x xs ih =>
    rw [List.flatMap_cons, List.length_append, List.length_cons, List.length_cons]
    omega

theorem readByKey_members (htaken : ∀ m ∈ ms, m.IsTaken fields)
    (hkeys : (ms.map Member.key).Nodup) (record : ρ) (rest : Input) :
    readByKey fields (stepsFor ([','].intercalate (ms.map Member.letters) ++ '\x7d' :: rest)) []
        true record ([','].intercalate (ms.map Member.letters) ++ '\x7d' :: rest) =
      .ok (Member.setAll ms record, '\x7d' :: rest) := by
  cases ms with
  | nil => exact readByKey_close _ [] true record rest
  | cons m ms =>
    obtain ⟨hm, htaken⟩ := List.forall_mem_cons.1 htaken
    obtain ⟨hother, hkeys⟩ := List.nodup_cons.1 hkeys
    rw [List.map_cons, intercalate_comma, List.append_assoc]
    generalize hs : (ms.map Member.letters).flatMap (',' :: ·) ++ '\x7d' :: rest = later
    have hsteps : ms.length < 2 * (m.letters ++ later).length + 1 := by
      have hlength := length_le_flatMap_comma (ms.map Member.letters)
      rw [List.length_map] at hlength
      rw [← hs, List.length_append, List.length_append]
      omega
    rw [stepsFor, readByKey_member later hm List.not_mem_nil]
    · rw [← hs]
      refine readByKey_later htaken hkeys (fun m' hm' ↦ ?_) (hs ▸ hsteps) rest
      rw [List.mem_singleton]
      exact fun he ↦ hother (List.mem_map.2 ⟨m', hm', he⟩)
    · simp only [Member.letters, List.cons_append, List.append_assoc, toList_ofText_append]
      rw [nextKey, skipSpace_quote]
      rfl

theorem toList_ofMembers (ms : List (Member ρ)) :
    (ofMembers (ms.map fun m ↦ (m.key, m.value))).toList =
      '\x7b' :: ([','].intercalate (ms.map Member.letters) ++ ['\x7d']) := by
  have hletters : Member.letters =
      fun m : Member ρ ↦ (ofText m.key).toList ++ ':' :: m.value.toList := rfl
  simp [ofMembers, hletters, String.toList_intercalate, Function.comp_def]

/-- A record is read as what its fields take the written members for. -/
theorem readRecord_ofMembers (wanted : String) (blank : ρ) (htaken : ∀ m ∈ ms, m.IsTaken fields)
    (hkeys : (ms.map Member.key).Nodup) :
    readRecord wanted fields blank (ofMembers (ms.map fun m ↦ (m.key, m.value))).toList =
      .ok (Member.setAll ms blank, []) := by
  rw [toList_ofMembers, readRecord, skipSpace_cons rfl]
  simp only [if_neg (show '\x7b' ≠ '[' by decide), if_true,
    readByKey_members htaken hkeys blank []]
  rfl

end

end PackageStaging.Json
