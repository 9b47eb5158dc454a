import Mathlib.Data.List.Basic
import PackageStaging.Url.Basic

namespace PackageStaging.Url

variable {found below segments xs ys : List (List Char)} {segment s : List Char} {last : Bool}

/-- A segment that is never found in a path, in whichever way its dots are written. -/
def isDots (segment : List Char) : Bool := isSingleDot segment || isDoubleDot segment

/-- The segments found, held in reverse, with one more; the last one of a path leaves its place. -/
def push (last : Bool) (found : List (List Char)) (segment : List Char) : List (List Char) :=
  if isDoubleDot segment then if last then [] :: dropSegment found else dropSegment found
  else if isSingleDot segment then if last then [] :: found else found
  else segment :: found

theorem push_of_not_isDots (h : isDots segment = false) :
    push last found segment = segment :: found := by
  obtain ⟨hsingle, hdouble⟩ := Bool.or_eq_false_iff.1 h
  simp [push, hsingle, hdouble]

theorem resolveDots_cons (found : List (List Char)) (segment : List Char)
    (rest : List (List Char)) : resolveDots false found (segment :: rest) =
      resolveDots false (push rest.isEmpty found segment) rest := by
  rw [resolveDots]
  rfl

theorem resolveDots_append (found xs : List (List Char)) (hys : ys ≠ []) :
    resolveDots false found (xs ++ ys) = resolveDots false (xs.foldl (push false) found) ys := by
  induction xs generalizing found with
  | nil => rfl
  | cons x xs ih =>
    have hmore : (xs ++ ys).isEmpty = false := by simp [hys]
    rw [List.cons_append, resolveDots_cons, hmore, ih, List.foldl_cons]

/-- Segments that take back more than they add. -/
def climbs (below : List (List Char)) : List (List Char) → Bool
  | [] => false
  | segment :: rest =>
    (isDoubleDot segment && below.isEmpty) || climbs (push rest.isEmpty below segment) rest

theorem dropSegment_append (h : below ≠ []) :
    dropSegment (below ++ found) = dropSegment below ++ found := by
  cases below with
  | nil => exact absurd rfl h
  | cons b bs =>
    simp only [List.cons_append, dropSegment]
    split <;> rfl

theorem dropSegment_suffix (found : List (List Char)) : dropSegment found <:+ found := by
  cases found with
  | nil => exact List.suffix_rfl
  | cons b bs =>
    simp only [dropSegment]
    split
    · exact List.suffix_rfl
    · exact List.suffix_cons b bs

theorem push_append (h : (isDoubleDot segment && below.isEmpty) = false) :
    push last (below ++ found) segment = push last below segment ++ found := by
  unfold push
  by_cases hdouble : isDoubleDot segment
  · have hbelow : below ≠ [] := by
      rintro rfl
      simp [hdouble] at h
    simp only [hdouble, if_true, dropSegment_append hbelow]
    split <;> rfl
  · simp only [hdouble, if_false, Bool.false_eq_true]
    split
    · split <;> rfl
    · rfl

theorem resolveDots_of_not_climbs (h : climbs below segments = false) :
    resolveDots false (below ++ found) segments = resolveDots false below segments ++ found := by
  induction segments generalizing below with
  | nil => rfl
  | cons segment rest ih =>
    obtain ⟨hfirst, hrest⟩ := Bool.or_eq_false_iff.1 h
    rw [resolveDots_cons, resolveDots_cons, push_append hfirst, ih hrest]

theorem resolveDots_around (hclimbs : climbs [] ys = false) : resolveDots false [] (xs ++ s :: ys) =
    resolveDots false [] ys ++ push ys.isEmpty (xs.foldl (push false) []) s := by
  have hunder (found : List (List Char)) :
      resolveDots false ([] ++ found) ys = resolveDots false [] ys ++ found :=
    resolveDots_of_not_climbs hclimbs
  rw [resolveDots_append [] xs (List.cons_ne_nil s ys), resolveDots_cons]
  exact hunder _

theorem push_ne_cons_of_isDots (h : isDots segment) (hs : s ≠ []) :
    push last found segment ≠ s :: found := by
  intro he
  -- Dots make a path no longer, unless by an empty segment at its end.
  have hlength := congrArg List.length he
  have hdrop := (dropSegment_suffix found).length_le
  have hhead := congrArg List.head? he
  rw [isDots, Bool.or_eq_true] at h
  unfold push at hlength hhead
  split at hlength
  · rename_i hdouble
    rw [if_pos hdouble] at hhead
    cases last with
    | true => simp [hs.symm] at hhead
    | false =>
      simp only [Bool.false_eq_true, if_false, List.length_cons] at hlength
      omega
  · rename_i hdouble
    have hsingle := h.resolve_right hdouble
    rw [if_neg hdouble, if_pos hsingle] at hhead
    rw [if_pos hsingle] at hlength
    cases last with
    | true => simp [hs.symm] at hhead
    | false =>
      simp only [Bool.false_eq_true, if_false, List.length_cons] at hlength
      omega

theorem push_last_ne_nil : push true found segment ≠ [] := by
  unfold push
  split
  · exact List.cons_ne_nil _ _
  · split <;> exact List.cons_ne_nil _ _

theorem resolveDots_ne_nil (h : segments ≠ []) : resolveDots false found segments ≠ [] := by
  induction segments generalizing found with
  | nil => exact absurd rfl h
  | cons segment rest ih =>
    rw [resolveDots_cons]
    cases rest with
    | nil => exact push_last_ne_nil
    | cons next rest => exact ih (List.cons_ne_nil _ _)

theorem mem_push (h : s ∈ push last found segment) : s = [] ∨ s ∈ found ∨ s = segment := by
  have hdrop := (dropSegment_suffix found).subset
  unfold push at h
  split at h
  · split at h
    · rcases List.mem_cons.1 h with h | h
      · exact .inl h
      · exact .inr (.inl (hdrop h))
    · exact .inr (.inl (hdrop h))
  · split at h
    · split at h
      · rcases List.mem_cons.1 h with h | h
        · exact .inl h
        · exact .inr (.inl h)
      · exact .inr (.inl h)
    · rcases List.mem_cons.1 h with h | h
      · exact .inr (.inr h)
      · exact .inr (.inl h)

theorem mem_resolveDots (h : s ∈ resolveDots false found segments) :
    s = [] ∨ s ∈ found ∨ s ∈ segments := by
  induction segments generalizing found with
  | nil => exact .inr (.inl h)
  | cons segment rest ih =>
    rw [resolveDots_cons] at h
    rcases ih h with h | h | h
    · exact .inl h
    · rcases mem_push h with h | h | rfl
      · exact .inl h
      · exact .inr (.inl h)
      · exact .inr (.inr List.mem_cons_self)
    · exact .inr (.inr (List.mem_cons_of_mem _ h))

theorem cons_intercalate (h : segments ≠ []) :
    '/' :: List.intercalate ['/'] segments = segments.flatMap ('/' :: ·) := by
  induction segments with
  | nil => exact absurd rfl h
  | cons segment rest ih =>
    cases rest with
    | nil => simp [List.intercalate]
    | cons next rest =>
      rw [List.intercalate_cons_cons, List.flatMap_cons, ← ih (List.cons_ne_nil _ _)]
      simp

theorem flatMap_cons_injective (hx : ∀ s ∈ xs, '/' ∉ s) (hy : ∀ s ∈ ys, '/' ∉ s) (hxs : xs ≠ [])
    (hys : ys ≠ []) (h : xs.flatMap ('/' :: ·) = ys.flatMap ('/' :: ·)) : xs = ys := by
  rw [← cons_intercalate hxs, ← cons_intercalate hys] at h
  rw [← List.splitOn_intercalate '/' hx hxs, List.tail_eq_of_cons_eq h,
    List.splitOn_intercalate '/' hy hys]

def pathText (segments : List (List Char)) : List Char :=
  (resolveDots false [] segments).reverse.flatMap ('/' :: ·)

theorem resolveDots_eq_of_pathText_eq (hx : ∀ s ∈ xs, '/' ∉ s) (hy : ∀ s ∈ ys, '/' ∉ s)
    (hxs : xs ≠ []) (hys : ys ≠ []) (h : pathText xs = pathText ys) :
    resolveDots false [] xs = resolveDots false [] ys := by
  have hfree {zs : List (List Char)} (hzs : ∀ s ∈ zs, '/' ∉ s) :
      ∀ s ∈ (resolveDots false [] zs).reverse, '/' ∉ s := by
    intro s hs
    rcases mem_resolveDots (List.mem_reverse.1 hs) with rfl | hs | hs
    · exact List.not_mem_nil
    · exact absurd hs List.not_mem_nil
    · exact hzs s hs
  have hne {zs : List (List Char)} (hzs : zs ≠ []) : (resolveDots false [] zs).reverse ≠ [] :=
    mt List.reverse_eq_nil_iff.1 (resolveDots_ne_nil hzs)
  exact List.reverse_inj.1 (flatMap_cons_injective (hfree hx) (hfree hy) (hne hxs) (hne hys) h)

end PackageStaging.Url
