import Mathlib.Data.List.DropRight
import PackageStaging.Text.Line

namespace PackageStaging.Text

theorem trimChars_eq (cs : List Char) :
    trimChars cs = (cs.dropWhile isBlank).rdropWhile isBlank := rfl

theorem trimChars_subset (cs : List Char) : trimChars cs ⊆ cs := by
  rw [trimChars_eq]
  exact List.Subset.trans (List.rdropWhile_prefix isBlank _).subset (List.dropWhile_subset isBlank)

theorem head?_trimChars (cs : List Char) : ∀ c ∈ (trimChars cs).head?, isBlank c = false := by
  intro c hc
  obtain ⟨rest, hrest⟩ := List.rdropWhile_prefix isBlank (cs.dropWhile isBlank)
  have hhead : c ∈ (cs.dropWhile isBlank).head? := by
    rw [← hrest]
    rw [trimChars_eq] at hc
    simp [Option.mem_def.1 hc]
  have h := List.head?_dropWhile_not isBlank cs
  rwa [Option.mem_def.1 hhead] at h

theorem getLast?_trimChars (cs : List Char) :
    ∀ c ∈ (trimChars cs).getLast?, isBlank c = false := by
  intro c hc
  obtain ⟨hne, rfl⟩ := List.mem_getLast?_eq_getLast hc
  have h := List.rdropWhile_last_not isBlank (cs.dropWhile isBlank) hne
  exact Bool.eq_false_iff.2 h

theorem trimChars_of_ends {cs : List Char} (hhead : ∀ c ∈ cs.head?, isBlank c = false)
    (hlast : ∀ c ∈ cs.getLast?, isBlank c = false) : trimChars cs = cs := by
  have hdrop : cs.dropWhile isBlank = cs := by
    cases cs with
    | nil => rfl
    | cons c cs => simp [hhead c rfl]
  rw [trimChars_eq, hdrop, List.rdropWhile_eq_self_iff]
  intro hne
  simp [hlast _ (List.getLast?_eq_some_getLast hne)]

theorem trimChars_trimChars (cs : List Char) : trimChars (trimChars cs) = trimChars cs :=
  trimChars_of_ends (head?_trimChars cs) (getLast?_trimChars cs)

theorem trim_trim (s : String) : trim (trim s) = trim s := by
  simp [trim, trimChars_trimChars]

theorem trimChars_concat_of_isBlank {c : Char} (cs : List Char) (h : isBlank c) :
    trimChars (cs ++ [c]) = trimChars cs := by
  rw [trimChars_eq, trimChars_eq, List.dropWhile_append]
  by_cases hcs : (cs.dropWhile isBlank).isEmpty
  · simp [List.isEmpty_iff.1 hcs, h]
  · simp only [hcs, Bool.false_eq_true, if_false]
    exact List.rdropWhile_concat_pos isBlank _ _ h

theorem trimChars_append_of_isBlank {blanks : List Char} (h : ∀ c ∈ blanks, isBlank c)
    (cs : List Char) : trimChars (cs ++ blanks) = trimChars cs := by
  induction blanks using List.reverseRecOn with
  | nil => rw [List.append_nil]
  | append_singleton blanks c ih =>
    obtain ⟨hblanks, hc⟩ := List.forall_mem_append.1 h
    rw [← List.append_assoc, trimChars_concat_of_isBlank _ (hc c List.mem_cons_self), ih hblanks]

theorem trimChars_dropReturn (line : List Char) : trimChars (dropReturn line) = trimChars line := by
  unfold dropReturn
  split
  · rename_i h
    have hline : line = line.dropLast ++ ['\r'] :=
      (List.dropLast_append_getLast? _ (Option.mem_def.2 h)).symm
    conv_rhs => rw [hline, trimChars_concat_of_isBlank _ (by decide)]
  · rfl

/-- A text that stands on a line of its own and is not changed by trimming. -/
structure IsItem (s : String) : Prop where
  trim_eq : trim s = s
  ne_empty : s ≠ ""
  one_line : '\n' ∉ s.toList

theorem IsItem.trimChars_eq {s : String} (h : IsItem s) : trimChars s.toList = s.toList := by
  rw [← toList_trim, h.trim_eq]

theorem nonBlank?_eq_some {s t : String} : nonBlank? s = some t ↔ trim s = t ∧ t ≠ "" := by
  by_cases h : trim s = ""
  · simp only [nonBlank?, h, String.isEmpty_iff, if_true]
    simp +contextual [eq_comm]
  · simp only [nonBlank?, String.isEmpty_iff, h, if_false, Option.some.injEq]
    exact ⟨fun he ↦ ⟨he, he ▸ h⟩, fun he ↦ he.1⟩

theorem IsItem.nonBlank?_eq {s : String} (h : IsItem s) : nonBlank? s = some s :=
  nonBlank?_eq_some.2 ⟨h.trim_eq, h.ne_empty⟩

theorem isItem_trim {s : String} (hne : trim s ≠ "") (hline : '\n' ∉ (trim s).toList) :
    IsItem (trim s) := ⟨trim_trim s, hne, hline⟩

theorem isItem_of_nonBlank? {s t : String} (h : nonBlank? s = some t)
    (hline : '\n' ∉ s.toList) : IsItem t := by
  obtain ⟨rfl, hne⟩ := nonBlank?_eq_some.1 h
  refine isItem_trim hne ?_
  intro hm
  apply hline
  rw [toList_trim] at hm
  exact trimChars_subset _ hm

theorem not_of_mem_splitOnP {α : Type} {p : α → Bool} {xs piece : List α}
    (h : piece ∈ xs.splitOnP p) : ∀ a ∈ piece, ¬ p a := by
  induction xs generalizing piece with
  | nil => simp_all
  | cons x xs ih =>
    rw [List.splitOnP_cons_eq_if_modifyHead] at h
    by_cases hx : p x
    · simp only [hx, if_true, List.mem_cons] at h
      rcases h with rfl | h
      · simp
      · exact ih h
    · obtain ⟨first, rest, hs⟩ := List.exists_cons_of_ne_nil (List.splitOnP_ne_nil p xs)
      simp only [hx, hs, Bool.false_eq_true, if_false, List.modifyHead_cons, List.mem_cons] at h
      rcases h with rfl | h
      · have hfirst := ih (hs ▸ List.mem_cons_self)
        simpa [hx] using hfirst
      · exact ih (hs ▸ List.mem_cons_of_mem _ h)

theorem linesOfPieces_cons {pieces : List (List Char)} (h : pieces ≠ []) (piece : List Char) :
    linesOfPieces (piece :: pieces) = dropReturn piece :: linesOfPieces pieces := by
  cases pieces with
  | nil => exact absurd rfl h
  | cons next rest => rfl

/-- How a line ended does not matter to its item, nor whether the last line ended at all. -/
theorem filterMap_linesOfPieces (pieces : List (List Char)) :
    (linesOfPieces pieces).filterMap (nonBlank? ∘ String.ofList) =
      pieces.filterMap (nonBlank? ∘ String.ofList) := by
  induction pieces with
  | nil => rfl
  | cons piece pieces ih =>
    by_cases hp : pieces = []
    · subst hp
      by_cases h : piece = []
      · subst h; rfl
      · simp [linesOfPieces, h]
    · have hreturn : nonBlank? (String.ofList (dropReturn piece)) =
          nonBlank? (String.ofList piece) := by
        simp [nonBlank?, trim, trimChars_dropReturn]
      rw [linesOfPieces_cons hp, List.filterMap_cons, List.filterMap_cons, ih,
        Function.comp_apply, hreturn, Function.comp_apply]

theorem items_eq (s : String) :
    items s = (s.toList.splitOnP (· == '\n')).filterMap (nonBlank? ∘ String.ofList) := by
  rw [items, lines, List.filterMap_map, filterMap_linesOfPieces]

theorem isItem_of_mem_items {s t : String} (h : t ∈ items s) : IsItem t := by
  rw [items_eq, List.mem_filterMap] at h
  obtain ⟨piece, hpiece, ht⟩ := h
  rw [Function.comp_apply] at ht
  refine isItem_of_nonBlank? ht ?_
  intro hm
  rw [String.toList_ofList] at hm
  exact not_of_mem_splitOnP hpiece _ hm (by decide)

theorem items_append_line (s t : String) : items (s ++ "\n" ++ t) = items s ++ items t := by
  have hsplit : (s ++ "\n" ++ t).toList = s.toList ++ '\n' :: t.toList := by simp
  rw [items_eq, hsplit, List.splitOnP_append_cons _ _ (by decide), List.filterMap_append,
    ← items_eq, ← items_eq]

theorem items_of_one_line {s : String} (h : '\n' ∉ s.toList) :
    items s = (nonBlank? s).toList := by
  have hsplit : s.toList.splitOnP (· == '\n') = [s.toList] :=
    List.splitOnP_eq_singleton fun c hc ↦ by simpa using ne_of_mem_of_not_mem hc h
  rw [items_eq, hsplit, List.filterMap_cons, Function.comp_apply, String.ofList_toList]
  cases nonBlank? s <;> rfl

theorem IsItem.items_eq {s : String} (h : IsItem s) : items s = [s] := by
  rw [items_of_one_line h.one_line, h.nonBlank?_eq]
  rfl

theorem ofItems_cons_item {x : String} (h : IsItem x) (xs : List String) :
    ofItems (x :: xs) = x ++ "\n" ++ ofItems xs := by
  simp [ofItems, h.nonBlank?_eq]

theorem ofItems_of_isItem {xs : List String} (h : ∀ x ∈ xs, IsItem x) :
    ofItems xs = String.join (xs.map (· ++ "\n")) := by
  have hitems : xs.filterMap nonBlank? = xs := by
    rw [List.filterMap_congr fun x hx ↦ (h x hx).nonBlank?_eq, List.filterMap_some]
  rw [ofItems, hitems]

theorem nonBlank?_congr {xs ys : List Char} (h : trimChars xs = trimChars ys) :
    nonBlank? (String.ofList xs) = nonBlank? (String.ofList ys) := by
  simp only [nonBlank?, trim, String.toList_ofList, h]

section Ends

variable {c : Char} (hc : isBlank c) (cs : List Char)

include hc

/-- Blanks in front of a text, be they ends of lines, make no item and belong to none. -/
theorem items_cons_of_isBlank : items (String.ofList (c :: cs)) = items (String.ofList cs) := by
  obtain ⟨first, rest, hs⟩ := List.exists_cons_of_ne_nil (List.splitOnP_ne_nil (· == '\n') cs)
  have htrim : trimChars (c :: first) = trimChars first := by
    rw [trimChars_eq, trimChars_eq, List.dropWhile_cons_of_pos hc]
  rw [items_eq, items_eq, String.toList_ofList, String.toList_ofList,
    List.splitOnP_cons_eq_if_modifyHead, hs]
  split
  · have hnone : (nonBlank? ∘ String.ofList) [] = none := rfl
    exact List.filterMap_cons_none hnone
  · simp only [List.modifyHead_cons, List.filterMap_cons, Function.comp_apply,
      nonBlank?_congr htrim]

theorem items_concat_of_isBlank : items (String.ofList (cs ++ [c])) = items (String.ofList cs) := by
  have hjoin (xs ys : List Char) : String.ofList (xs ++ '\n' :: ys) =
      String.ofList xs ++ "\n" ++ String.ofList ys := by
    rw [← String.toList_inj]
    simp
  by_cases hend : c = '\n'
  · rw [hend, hjoin, items_append_line]
    exact List.append_nil _
  · have hlast {line : List Char} (hline : '\n' ∉ line) :
        items (String.ofList (line ++ [c])) = items (String.ofList line) := by
      rw [items_of_one_line (by simpa [hline] using Ne.symm hend), items_of_one_line (by simpa),
        nonBlank?_congr (trimChars_concat_of_isBlank line hc)]
    by_cases hmem : '\n' ∈ cs
    · -- What stands before the last line is not touched.
      obtain ⟨line, before, hcs, hline⟩ := List.eq_append_cons_of_mem (List.mem_reverse.2 hmem)
      obtain rfl : cs = before.reverse ++ '\n' :: line.reverse := by
        rw [← List.reverse_reverse cs, hcs]
        simp
      rw [List.append_assoc, List.cons_append, hjoin, hjoin, items_append_line, items_append_line,
        hlast (by simpa using hline)]
    · exact hlast hmem

end Ends

theorem items_trim (s : String) : items (trim s) = items s := by
  have hfront (cs : List Char) :
      items (String.ofList (cs.dropWhile isBlank)) = items (String.ofList cs) := by
    induction cs with
    | nil => rfl
    | cons c cs ih =>
      by_cases hc : isBlank c
      · rw [List.dropWhile_cons_of_pos hc, ih, items_cons_of_isBlank hc]
      · rw [List.dropWhile_cons_of_neg hc]
  have hback (cs : List Char) :
      items (String.ofList (cs.rdropWhile isBlank)) = items (String.ofList cs) := by
    induction cs using List.reverseRecOn with
    | nil => rfl
    | append_singleton cs c ih =>
      by_cases hc : isBlank c
      · rw [List.rdropWhile_concat_pos _ _ _ hc, ih, items_concat_of_isBlank hc]
      · rw [List.rdropWhile_concat_neg _ _ _ hc]
  rw [trim, trimChars_eq, hback, hfront, String.ofList_toList]

/-- What is read of written texts are their items, whatever the texts. -/
theorem items_ofItems_eq (xs : List String) : items (ofItems xs) = xs.flatMap items := by
  induction xs with
  | nil => rfl
  | cons x xs ih =>
    have hx : items x = items (trim x) := (items_trim x).symm
    rw [List.flatMap_cons, hx, ← ih]
    by_cases hempty : trim x = ""
    · have hnone : nonBlank? x = none := by simp [nonBlank?, hempty]
      rw [ofItems, List.filterMap_cons_none hnone, ← ofItems, hempty]
      rfl
    · have hsome : nonBlank? x = some (trim x) := nonBlank?_eq_some.2 ⟨rfl, hempty⟩
      rw [ofItems, List.filterMap_cons_some hsome, List.map_cons, String.join_cons, ← ofItems,
        items_append_line]

theorem items_ofItems {xs : List String} (h : ∀ x ∈ xs, IsItem x) : items (ofItems xs) = xs := by
  rw [items_ofItems_eq, List.flatMap_congr fun x hx ↦ (h x hx).items_eq, List.flatMap_singleton']

theorem lines_append_line {s : String} (h : '\n' ∉ s.toList) (t : String) :
    lines (s ++ "\n" ++ t) = String.ofList (dropReturn s.toList) :: lines t := by
  have hjoin : (s ++ "\n" ++ t).toList = s.toList ++ '\n' :: t.toList := by simp
  have hsplit : s.toList.splitOnP (· == '\n') = [s.toList] :=
    List.splitOnP_eq_singleton fun c hc ↦ by simpa using ne_of_mem_of_not_mem hc h
  rw [lines, hjoin, List.splitOnP_append_cons _ _ (by decide), hsplit, List.singleton_append,
    linesOfPieces_cons (List.splitOnP_ne_nil _ _), List.map_cons, lines]

theorem IsItem.dropReturn_eq {s : String} (h : IsItem s) : dropReturn s.toList = s.toList := by
  refine if_neg fun hlast ↦ ?_
  have hblank := getLast?_trimChars s.toList
  rw [h.trimChars_eq] at hblank
  exact absurd (hblank _ hlast) (by decide)

theorem lines_ofItems {xs : List String} (h : ∀ x ∈ xs, IsItem x) : lines (ofItems xs) = xs := by
  induction xs with
  | nil => rfl
  | cons x xs ih =>
    obtain ⟨hx, hxs⟩ := List.forall_mem_cons.1 h
    rw [ofItems_cons_item hx, lines_append_line hx.one_line, hx.dropReturn_eq, String.ofList_toList,
      ih hxs]

end PackageStaging.Text
