import PackageStaging.Proofs.Json.Typed

namespace PackageStaging.Json

structure NamedEntry extends Entry where
  name : String

structure NamedEntry.IsValid (e : NamedEntry) : Prop where
  spaced : e.IsSpaced
  named : Spells e.key e.name.toList
  is_value : IsValue e.value

/-- A text of JSON that holds one object, with its members in order. -/
def IsObject (text : String) (entries : List NamedEntry) : Prop :=
  ∃ before body after, text.toList = before ++ '\x7b' :: (body ++ '\x7d' :: after) ∧
    IsPadding before ∧ IsPadding after ∧ IsBody (entries.map fun e ↦ e.letters) body ∧
    ∀ e ∈ entries, e.IsValid

section

variable {ρ : Type} (fields : List (Field ρ)) (means : String → List Char → (ρ → ρ) → Prop)

/-- The record that members make of another one, where some keys were seen before: a member that no
field knows makes nothing, and one that a field knows must be new and mean something. -/
inductive Makes : List String → ρ → List NamedEntry → ρ → Prop
  | done {seen : List String} {record : ρ} : Makes seen record [] record
  | skipped {seen : List String} {record made : ρ} {e : NamedEntry} {entries : List NamedEntry}
      (unknown : fields.find? (·.key == e.name) = none) (rest : Makes seen record entries made) :
      Makes seen record (e :: entries) made
  | taken {seen : List String} {record made : ρ} {e : NamedEntry} {entries : List NamedEntry}
      {field : Field ρ} {set : ρ → ρ} (known : fields.find? (·.key == e.name) = some field)
      (unseen : e.name ∉ seen) (is_meant : means e.name e.value set)
      (rest : Makes (e.name :: seen) (set record) entries made) :
      Makes seen record (e :: entries) made

end

variable {ρ : Type} {fields : List (Field ρ)} {means : String → List Char → (ρ → ρ) → Prop}
  {e : NamedEntry} {entries : List NamedEntry} {gap s rest : List Char} {isFirst : Bool}
  {steps : Nat} {seen : List String} {record made : ρ}

theorem nextKey_first (he : e.IsSpaced) (rest : Input) :
    nextKey true (e.letters ++ rest) = .ok (some (e.behindQuote rest)) := by
  rw [e.letters_append, nextKey, skipSpace_append he.beforeKey rfl]
  rfl

theorem nextKey_later (he : e.IsSpaced) (hgap : IsPadding gap) (rest : Input) :
    nextKey false (gap ++ ',' :: (e.letters ++ rest)) = .ok (some (e.behindQuote rest)) := by
  rw [nextKey, skipSpace_append hgap rfl]
  simp only [if_neg (show ',' ≠ '\x7d' by decide), Bool.false_eq_true, if_false, if_true]
  rw [e.letters_append, skipSpace_append he.beforeKey rfl]
  exact if_pos rfl

theorem readText_behindQuote (he : e.IsValid) (rest : Input) :
    readText (e.behindQuote rest) = .ok (e.name.toList,
      e.afterKey ++ ':' :: (e.beforeValue ++ (e.value ++ (e.afterValue ++ rest)))) :=
  readText_of_spells he.named _

theorem readByKey_unknown (he : e.IsValid) (hrest : EndsNumeral rest)
    (hnext : nextKey isFirst s = .ok (some (e.behindQuote rest)))
    (hunknown : fields.find? (·.key == e.name) = none) :
    readByKey fields (steps + 1) seen isFirst record s =
      readByKey fields steps seen false record (e.afterValue ++ rest) := by
  have hskip : skipValue (stepsFor (e.beforeValue ++ (e.value ++ (e.afterValue ++ rest))))
      (e.beforeValue ++ (e.value ++ (e.afterValue ++ rest))) = .ok (e.afterValue ++ rest) := by
    refine he.is_value.skips _ ?_ _ _ he.spaced.beforeValue
      (he.spaced.afterValue.endsNumeral_append hrest)
    simp only [stepsFor, List.length_append]
    omega
  rw [readByKey, hnext]
  simp only [Reader.ofFault, readText_behindQuote he, Except.mapError, String.ofList_toList,
    hunknown, bind, Except.bind, readColon_append he.spaced.afterKey, hskip]

theorem readByKey_known {field : Field ρ} (he : e.IsValid)
    (hnext : nextKey isFirst s = .ok (some (e.behindQuote rest)))
    (hknown : fields.find? (·.key == e.name) = some field) (hunseen : e.name ∉ seen) :
    readByKey fields (steps + 1) seen isFirst record s = (do
      let (set, s) ← field.read (e.beforeValue ++ (e.value ++ (e.afterValue ++ rest)))
      readByKey fields steps (e.name :: seen) false (set record) s) := by
  rw [readByKey, hnext]
  simp only [Reader.ofFault, readText_behindQuote he, Except.mapError, String.ofList_toList,
    hknown, bind, Except.bind, List.contains_iff_mem, hunseen, if_false,
    readColon_append he.spaced.afterKey]

theorem exists_readByKey_error {field : Field ρ} (he : e.IsValid)
    (hnext : nextKey isFirst s = .ok (some (e.behindQuote rest)))
    (hknown : fields.find? (·.key == e.name) = some field) (hseen : e.name ∈ seen) :
    ∃ refusal, readByKey fields (steps + 1) seen isFirst record s = .error refusal := by
  rw [readByKey, hnext]
  simp only [Reader.ofFault, readText_behindQuote he, Except.mapError, String.ofList_toList,
    hknown, bind, Except.bind, List.contains_iff_mem, hseen, if_true]
  exact ⟨_, rfl⟩

theorem finish_error {close : Input → Except Fault Unit × Input} {refusal : Refusal}
    {found : ρ × Input} : finish close (.error refusal) ≠ .ok found := by
  cases refusal <;> exact nofun

theorem finish_readByKey_close (hgap : IsPadding gap) (steps : Nat) (seen : List String)
    (isFirst : Bool) (record : ρ) (rest : Input) :
    finish closeObject (readByKey fields (steps + 1) seen isFirst record (gap ++ '\x7d' :: rest)) =
      .ok (record, rest) := by
  have hnext : nextKey isFirst (gap ++ '\x7d' :: rest) = .ok none := by
    rw [nextKey, skipSpace_append hgap rfl]
    exact if_pos rfl
  have hclose : closeObject (gap ++ '\x7d' :: rest) = (.ok (), rest) := by
    rw [closeObject, skipSpace_append hgap rfl]
    exact if_pos rfl
  rw [readByKey, hnext]
  simp only [finish, hclose, Except.map]

theorem makes_nil {r : Input} : r = rest ∧ Makes fields means seen record [] made ↔
    (.ok (record, rest) : Except Fault (ρ × Input)) = .ok (made, r) := by
  constructor
  · rintro ⟨rfl, hmakes⟩
    cases hmakes
    rfl
  · intro h
    cases h
    exact ⟨rfl, .done⟩

variable {r behind : Input}

theorem finish_readByKey_cons (he : e.IsValid) (hrest : EndsNumeral rest)
    (hfields : ∀ field, fields.find? (·.key == e.name) = some field →
      ReadsValues field.read (means e.name))
    (hnext : nextKey isFirst s = .ok (some (e.behindQuote rest)))
    (hlater : ∀ (seen : List String) (record : ρ),
      finish closeObject (readByKey fields steps seen false record (e.afterValue ++ rest)) =
        .ok (made, r) ↔ r = behind ∧ Makes fields means seen record entries made) :
    finish closeObject (readByKey fields (steps + 1) seen isFirst record s) = .ok (made, r) ↔
      r = behind ∧ Makes fields means seen record (e :: entries) made := by
  cases hfind : fields.find? (·.key == e.name) with
  | none =>
    rw [readByKey_unknown he hrest hnext hfind, hlater]
    refine and_congr_right fun _ ↦ ⟨.skipped hfind, fun hmakes ↦ ?_⟩
    cases hmakes with
    | skipped _ rest => exact rest
    | taken known => simp [hfind] at known
  | some field =>
    by_cases hseen : e.name ∈ seen
    · obtain ⟨refusal, hread⟩ : ∃ refusal,
          readByKey fields (steps + 1) seen isFirst record s = .error refusal :=
        exists_readByKey_error he hnext hfind hseen
      rw [hread]
      refine ⟨fun h ↦ absurd h finish_error, ?_⟩
      rintro ⟨-, hmakes⟩
      cases hmakes with
      | skipped unknown => simp [hfind] at unknown
      | taken _ unseen => exact absurd hseen unseen
    · have hreads := hfields field hfind e.value he.is_value e.beforeValue (e.afterValue ++ rest)
        he.spaced.beforeValue (he.spaced.afterValue.endsNumeral_append hrest)
      rw [readByKey_known he hnext hfind hseen]
      constructor
      · intro h
        cases hread : field.read (e.beforeValue ++ (e.value ++ (e.afterValue ++ rest))) with
        | error refusal =>
          rw [hread] at h
          exact absurd h finish_error
        | ok found =>
          obtain ⟨set, s⟩ := found
          obtain ⟨rfl, hmeans⟩ := (hreads set s).1 hread
          rw [hread] at h
          obtain ⟨rfl, hmakes⟩ := (hlater _ _).1 h
          exact ⟨rfl, .taken hfind hseen hmeans hmakes⟩
      · rintro ⟨rfl, hmakes⟩
        cases hmakes with
        | skipped unknown => simp [hfind] at unknown
        | taken _ _ is_meant rest =>
          rw [(hreads _ _).2 ⟨rfl, is_meant⟩]
          exact (hlater _ _).2 ⟨rfl, rest⟩

theorem finish_readByKey_later (hvalid : ∀ e ∈ entries, e.IsValid)
    (hfields : ∀ key field, fields.find? (·.key == key) = some field →
      ReadsValues field.read (means key))
    (hgap : IsPadding gap) (hsteps : entries.length < steps) :
    finish closeObject (readByKey fields steps seen false record
        (gap ++ ((entries.map fun e ↦ e.letters).flatMap (',' :: ·) ++ '\x7d' :: behind))) =
      .ok (made, r) ↔ r = behind ∧ Makes fields means seen record entries made := by
  obtain ⟨steps, rfl⟩ : ∃ n, steps = n + 1 := ⟨steps - 1, by omega⟩
  -- A known member changes both the record and the keys that were seen, hence for all of them.
  induction entries generalizing gap steps seen record with
  | nil =>
    rw [makes_nil, List.map_nil, List.flatMap_nil, List.nil_append, finish_readByKey_close hgap]
  | cons e entries ih =>
    obtain ⟨he, hvalid⟩ := List.forall_mem_cons.1 hvalid
    obtain ⟨steps, rfl⟩ : ∃ n, steps = n + 1 := ⟨steps - 1, by simp at hsteps; omega⟩
    have hnext := nextKey_later he.spaced hgap
      ((entries.map fun e ↦ e.letters).flatMap (',' :: ·) ++ '\x7d' :: behind)
    rw [List.map_cons, List.flatMap_cons, List.append_assoc, List.cons_append]
    exact finish_readByKey_cons he (endsNumeral_parts _ (.inr rfl)) (hfields e.name) hnext
      fun _ _ ↦ ih hvalid he.spaced.afterValue _ (Nat.lt_of_succ_lt_succ hsteps)

theorem finish_readByKey_body {body : List Char} (hvalid : ∀ e ∈ entries, e.IsValid)
    (hfields : ∀ key field, fields.find? (·.key == key) = some field →
      ReadsValues field.read (means key))
    (hbody : IsBody (entries.map fun e ↦ e.letters) body) :
    finish closeObject (readByKey fields (stepsFor (body ++ '\x7d' :: behind)) [] true record
        (body ++ '\x7d' :: behind)) =
      .ok (made, r) ↔ r = behind ∧ Makes fields means [] record entries made := by
  cases entries with
  | nil =>
    cases hbody with
    | blank padding => rw [makes_nil, stepsFor, finish_readByKey_close padding]
  | cons e entries =>
    obtain ⟨he, hvalid⟩ := List.forall_mem_cons.1 hvalid
    cases hbody with
    | filled =>
      have hnext := nextKey_first he.spaced
        ((entries.map fun e ↦ e.letters).flatMap (',' :: ·) ++ '\x7d' :: behind)
      have hlength := length_le_flatMap_comma (entries.map fun e ↦ e.letters)
      rw [List.append_assoc]
      refine finish_readByKey_cons he (endsNumeral_parts _ (.inr rfl)) (hfields e.name) hnext
        fun _ _ ↦ finish_readByKey_later hvalid hfields he.spaced.afterValue ?_
      rw [List.length_map] at hlength
      simp only [List.length_append]
      omega

/-- A text that holds an object is read as a record just when its members make that record. -/
theorem document_readRecord_eq_ok_iff {text : String} (h : IsObject text entries)
    (hfields : ∀ key field, fields.find? (·.key == key) = some field →
      ReadsValues field.read (means key)) (wanted : String) :
    document (.ofFault (readRecord wanted fields record)) text = .ok made ↔
      Makes fields means [] record entries made := by
  obtain ⟨before, body, after, htext, hbefore, hafter, hbody, hvalid⟩ := h
  have hread (r : Input) :
      Reader.ofFault (readRecord wanted fields record) text.toList = .ok (made, r) ↔
        r = after ∧ Makes fields means [] record entries made := by
    rw [← finish_readByKey_body hvalid hfields hbody, Reader.ofFault, htext, readRecord,
      skipSpace_append hbefore rfl]
    simp only [if_neg (show '\x7b' ≠ '[' by decide), if_true]
    generalize finish closeObject _ = found
    cases found <;> simp [Except.mapError]
  rw [document_eq_ok_iff]
  constructor
  · rintro ⟨r, hr, -⟩
    exact ((hread r).1 hr).2
  · intro hmakes
    exact ⟨after, (hread after).2 ⟨rfl, hmakes⟩, hafter⟩

end PackageStaging.Json
