import PackageStaging.Proofs.Text.Item

namespace PackageStaging.Text

def wordPieces (cs : List Char) : List (List Char) := (cs.splitOnP isBlank).filter (!·.isEmpty)

theorem words_eq (s : String) : words s = (wordPieces s.toList).map String.ofList := rfl

theorem wordPieces_append_blank {c : Char} (h : isBlank c) (xs ys : List Char) :
    wordPieces (xs ++ c :: ys) = wordPieces xs ++ wordPieces ys := by
  rw [wordPieces, List.splitOnP_append_cons _ _ h, List.filter_append, wordPieces, wordPieces]

theorem wordPieces_nil : wordPieces [] = [] := rfl

theorem wordPieces_dropWhile (cs : List Char) :
    wordPieces (cs.dropWhile isBlank) = wordPieces cs := by
  induction cs with
  | nil => rfl
  | cons c cs ih =>
    by_cases hc : isBlank c
    · have hsplit := wordPieces_append_blank hc [] cs
      rw [List.dropWhile_cons_of_pos hc, ih, ← List.nil_append (c :: cs), hsplit, wordPieces_nil,
        List.nil_append]
    · rw [List.dropWhile_cons_of_neg hc]

theorem wordPieces_rdropWhile (cs : List Char) :
    wordPieces (cs.rdropWhile isBlank) = wordPieces cs := by
  induction cs using List.reverseRecOn with
  | nil => rfl
  | append_singleton cs c ih =>
    by_cases hc : isBlank c
    · rw [List.rdropWhile_concat_pos _ _ _ hc, ih, wordPieces_append_blank hc, wordPieces_nil,
        List.append_nil]
    · rw [List.rdropWhile_concat_neg _ _ _ hc]

theorem words_trim (s : String) : words (trim s) = words s := by
  rw [words_eq, toList_trim, trimChars_eq, wordPieces_rdropWhile, wordPieces_dropWhile, words_eq]

theorem wordPieces_cons_ne_nil {c : Char} (h : isBlank c = false) (cs : List Char) :
    wordPieces (c :: cs) ≠ [] := by
  obtain ⟨first, rest, hs⟩ := List.exists_cons_of_ne_nil (List.splitOnP_ne_nil isBlank cs)
  rw [wordPieces, List.splitOnP_cons_eq_if_modifyHead, hs]
  simp [h]

def IsBlank (s : String) : Prop := ∀ c ∈ s.toList, isBlank c

instance (s : String) : Decidable (IsBlank s) := List.decidableBAll _ _

theorem IsBlank.append {s t : String} (hs : IsBlank s) (ht : IsBlank t) : IsBlank (s ++ t) := by
  rw [IsBlank, String.toList_append]
  exact List.forall_mem_append.2 ⟨hs, ht⟩

theorem trim_eq_empty_iff {s : String} : trim s = "" ↔ IsBlank s := by
  rw [← String.toList_eq_nil_iff, toList_trim, trimChars_eq, List.rdropWhile_eq_nil_iff]
  constructor
  · intro h
    refine List.dropWhile_eq_nil_iff.1 ?_
    have hhead := List.head?_dropWhile_not isBlank s.toList
    cases hdrop : s.toList.dropWhile isBlank with
    | nil => rfl
    | cons c cs =>
      rw [hdrop] at h hhead
      simp [h c List.mem_cons_self] at hhead
  · intro h c hc
    exact h c (List.dropWhile_subset isBlank hc)

theorem trim_append_of_isBlank {blanks : String} (h : IsBlank blanks) (s : String) :
    trim (s ++ blanks) = trim s := by
  rw [trim, String.toList_append, trimChars_append_of_isBlank h, trim]

/-- What is left of a text when the blanks at its end are set apart. -/
theorem exists_end_isBlank (s : String) : ∃ t blanks, s = t ++ blanks ∧ IsBlank blanks ∧
    ∀ c ∈ t.toList.getLast?, isBlank c = false := by
  refine ⟨String.ofList (s.toList.rdropWhile isBlank),
    String.ofList (s.toList.rtakeWhile isBlank), ?_, ?_, ?_⟩
  · rw [← String.toList_inj, String.toList_append, String.toList_ofList, String.toList_ofList,
      List.rdropWhile_append_rtakeWhile]
  · intro c hc
    rw [String.toList_ofList] at hc
    exact List.mem_rtakeWhile_imp hc
  · intro c hc
    rw [String.toList_ofList] at hc
    obtain ⟨hne, rfl⟩ := List.mem_getLast?_eq_getLast hc
    exact Bool.eq_false_iff.2 (List.rdropWhile_last_not isBlank _ hne)

/-- A text has a word unless it is blank: trimmed, it starts with one. -/
theorem words_eq_nil_iff {s : String} : words s = [] ↔ IsBlank s := by
  rw [← trim_eq_empty_iff]
  constructor
  · intro h
    by_contra hne
    have hchars : (trim s).toList ≠ [] := mt String.toList_eq_nil_iff.1 hne
    obtain ⟨c, cs, hs⟩ := List.exists_cons_of_ne_nil hchars
    have hhead := head?_trimChars s.toList
    rw [← toList_trim, hs] at hhead
    rw [← words_trim, words_eq, hs, List.map_eq_nil_iff] at h
    exact wordPieces_cons_ne_nil (hhead c rfl) cs h
  · intro h
    rw [← words_trim, h]
    rfl

theorem IsItem.not_isBlank {s : String} (h : IsItem s) : ¬ IsBlank s := by
  rw [← trim_eq_empty_iff, h.trim_eq]
  exact h.ne_empty

theorem IsItem.words_ne_nil {s : String} (h : IsItem s) : words s ≠ [] :=
  mt words_eq_nil_iff.1 h.not_isBlank

theorem nonBlank?_eq (s : String) : nonBlank? s = if IsBlank s then none else some (trim s) := by
  simp only [nonBlank?, String.isEmpty_iff, trim_eq_empty_iff]

theorem filterMap_nonBlank? (texts : List String) :
    texts.filterMap nonBlank? = (texts.filter (¬ IsBlank ·)).map trim := by
  induction texts with
  | nil => rfl
  | cons s texts ih =>
    rw [List.filterMap_cons, nonBlank?_eq, ih]
    by_cases h : IsBlank s <;> simp [h]

theorem words_append_space (s t : String) : words (s ++ " " ++ t) = words s ++ words t := by
  have hjoin : (s ++ " " ++ t).toList = s.toList ++ ' ' :: t.toList := by simp
  rw [words_eq, hjoin, wordPieces_append_blank (by decide), List.map_append, words_eq, words_eq]

theorem words_intercalate_space (texts : List String) :
    words (" ".intercalate texts) = texts.flatMap words := by
  induction texts with
  | nil => rfl
  | cons s texts ih =>
    cases texts with
    | nil => simp
    | cons t texts =>
      rw [String.intercalate_cons_cons, words_append_space, ih]
      rfl

end PackageStaging.Text
