import Mathlib.Data.List.DropRight
import PackageStaging.Proofs.Text.Item
import PackageStaging.Proofs.Url.Dots
import PackageStaging.Proofs.Url.Encoded
import PackageStaging.Proofs.Url.Reading

namespace PackageStaging

section Lists

variable {α : Type} {p : α → Bool}

theorem splitOnP_eq_cons (xs : List α) :
    xs.splitOnP p = xs.takeWhile (!p ·) :: (xs.splitOnP p).tail := by
  induction xs with
  | nil => rfl
  | cons x xs ih =>
    rw [List.splitOnP_cons_eq_if_modifyHead]
    cases hx : p x with
    | true => simp [hx]
    | false =>
      rw [ih]
      simp [hx]

theorem splitOnP_append_of_forall {xs : List α} (h : ∀ x ∈ xs, p x = false) (ys : List α) :
    (xs ++ ys).splitOnP p = (xs ++ ys.takeWhile (!p ·)) :: (ys.splitOnP p).tail := by
  induction xs with
  | nil => exact splitOnP_eq_cons ys
  | cons x xs ih =>
    obtain ⟨hx, hxs⟩ := List.forall_mem_cons.1 h
    rw [List.cons_append, List.splitOnP_cons_eq_if_modifyHead, hx, ih hxs]
    rfl

end Lists

namespace Url

theorem isPathEnd_of_isPlain {c : Char} (h : Percent.isPlain c) : isPathEnd c = false :=
  Percent.forall_isPlain (p := fun c ↦ isPathEnd c = false) (by decide) h

theorem isSlash_of_isPlain {c : Char} (h : Percent.isPlain c) : isSlash true c = false :=
  Percent.forall_isPlain (p := fun c ↦ isSlash true c = false) (by decide) h

def escape (segment : List Char) : List Char :=
  segment.flatMap (Percent.ofChar Percent.keepInPath)

def segments (cs : List Char) : List (List Char) := (cs.splitOnP (isSlash true)).map escape

theorem not_mem_escape {segment : List Char} (h : '/' ∉ segment) : '/' ∉ escape segment := by
  intro hm
  obtain ⟨c, hc, hm⟩ := List.mem_flatMap.1 hm
  unfold Percent.ofChar at hm
  split at hm
  · rw [List.mem_singleton] at hm
    exact h (hm ▸ hc)
  · obtain ⟨b, -, hb⟩ := List.mem_flatMap.1 hm
    exact absurd (Percent.isPlain_of_mem_ofByte hb) (by decide)

theorem not_mem_of_mem_segments {cs s : List Char} (h : s ∈ segments cs) : '/' ∉ s := by
  obtain ⟨piece, hpiece, rfl⟩ := List.mem_map.1 h
  exact not_mem_escape fun hm ↦ Text.not_of_mem_splitOnP hpiece '/' hm rfl

theorem segments_ne_nil (cs : List Char) : segments cs ≠ [] := by
  simp [segments, List.splitOnP_ne_nil]

theorem toList_readPath (cs : List Char) :
    (readPath true false cs).toList = pathText (segments cs) := by
  have hne : (resolveDots false [] (segments cs)).reverse ≠ [] :=
    mt List.reverse_eq_nil_iff.1 (resolveDots_ne_nil (segments_ne_nil cs))
  rw [pathText, ← cons_intercalate hne]
  have hread : readPath true false cs = "/" ++ "/".intercalate
      ((resolveDots false [] (segments cs)).reverse.map String.ofList) := rfl
  rw [hread, String.toList_append, String.toList_intercalate]
  simp [Function.comp_def]

theorem readTail_query {text : List Char} (h : '#' ∉ text) (more : List Char) :
    (readTail true ('?' :: (text ++ more))).1 =
      some (Percent.encode Percent.keepInSpecialQuery
        (String.ofList (text ++ more.takeWhile (· != '#')))) := by
  have htake : ('?' :: (text ++ more)).takeWhile (· != '#') =
      '?' :: (text ++ more.takeWhile (· != '#')) := by
    rw [← List.cons_append, List.takeWhile_append_of_pos]
    · rfl
    · intro c hc
      rcases List.mem_cons.1 hc with rfl | hc
      · decide
      · simpa using ne_of_mem_of_not_mem hc h
  unfold readTail
  simp only [htake, if_true]

/-- A place in the text behind the authority of a URL. -/
structure Gap where
  before : List Char
  behind : List Char

namespace Gap

def fill (g : Gap) (x : List Char) : List Char := g.before ++ x ++ g.behind

def isInQuery (g : Gap) : Bool := g.before.contains '?' && !g.before.contains '#'

def isInPath (g : Gap) : Bool := g.before.head?.any (isSlash true) && g.before.all (!isPathEnd ·)

def pathBehind (g : Gap) : List Char := g.behind.takeWhile (!isPathEnd ·)

/-- The segment of the path in which the gap is, filled with a text. -/
def segment (g : Gap) (x : List Char) : List Char :=
  escape (g.before.rtakeWhile (!isSlash true ·) ++ x ++ g.pathBehind.takeWhile (!isSlash true ·))

def later (g : Gap) : List (List Char) := (segments g.pathBehind).tail

theorem segment_eq (g : Gap) {x : List Char} (hx : ∀ c ∈ x, Percent.isPlain c) :
    g.segment x = escape (g.before.rtakeWhile (!isSlash true ·)) ++ x ++
      escape (g.pathBehind.takeWhile (!isSlash true ·)) := by
  have hkept : escape x = x :=
    Percent.flatMap_ofChar_of_forall fun c hc ↦ Percent.keepInPath_of_isPlain (hx c hc)
  rw [segment, escape, List.flatMap_append, List.flatMap_append, ← escape, ← escape, ← escape,
    hkept]

variable {g : Gap}

theorem exists_cut_of_isInQuery (h : g.isInQuery) :
    ∃ text, g.before.dropWhile (!isPathEnd ·) = '?' :: text ∧ '#' ∉ text := by
  simp only [isInQuery, Bool.and_eq_true, Bool.not_eq_true', List.contains_eq_mem,
    decide_eq_true_eq, decide_eq_false_iff_not] at h
  obtain ⟨hquery, hfragment⟩ := h
  cases hdrop : g.before.dropWhile (!isPathEnd ·) with
  | nil => simpa [isPathEnd] using List.dropWhile_eq_nil_iff.1 hdrop '?' hquery
  | cons c text =>
    have hsubset : c :: text ⊆ g.before := hdrop ▸ List.dropWhile_subset (!isPathEnd ·)
    have hend := List.head?_dropWhile_not (!isPathEnd ·) g.before
    rw [hdrop] at hend
    have hc : c ≠ '#' := ne_of_mem_of_not_mem (hsubset List.mem_cons_self) hfragment
    have hmark : c = '?' := by simpa [isPathEnd, hc] using hend
    exact ⟨text, by rw [hmark], fun hm ↦ hfragment (hsubset (List.mem_cons_of_mem _ hm))⟩

theorem target_of_isInQuery (h : g.isInQuery) : ∃ front back : String, ∀ (u : Url) (x : List Char),
    (∀ c ∈ x, Percent.isPlain c) →
      (u.followedBy (g.fill x)).target = front ++ String.ofList x ++ back := by
  obtain ⟨text, hcut, htext⟩ := exists_cut_of_isInQuery h
  let encoded (cs : List Char) := cs.flatMap (Percent.ofChar Percent.keepInSpecialQuery)
  refine ⟨readPathAfterAuthority true false (g.before.takeWhile (!isPathEnd ·)) ++ "?" ++
    String.ofList (encoded text), String.ofList (encoded (g.behind.takeWhile (· != '#'))), ?_⟩
  intro u x hx
  have hmore := span_append hcut (x ++ g.behind)
  have hmark : '#' ∉ text ++ x := by
    rw [List.mem_append, not_or]
    exact ⟨htext, fun hm ↦ absurd (hx _ hm) (by decide)⟩
  have hkept : x.flatMap (Percent.ofChar Percent.keepInSpecialQuery) = x :=
    Percent.flatMap_ofChar_of_forall fun c hc ↦ Percent.keepInSpecialQuery_of_isPlain (hx c hc)
  rw [fill, List.append_assoc, target, followedBy]
  simp only [hmore.1, hmore.2]
  rw [← List.append_assoc text, readTail_query hmark]
  simp [encoded, Percent.encode, hkept, String.append_assoc]

theorem exists_slash_of_isInPath (h : g.isInPath) : ∃ front sep, isSlash true sep ∧
    g.before = front ++ sep :: g.before.rtakeWhile (!isSlash true ·) := by
  simp only [isInPath, Bool.and_eq_true, Option.any_eq_true] at h
  obtain ⟨⟨c, hc, hslash⟩, -⟩ := h
  have hne : g.before.rdropWhile (!isSlash true ·) ≠ [] := by
    intro hnil
    have hall := List.rdropWhile_eq_nil_iff.1 hnil c (List.mem_of_mem_head? hc)
    simp [hslash] at hall
  obtain ⟨front, sep, hfront⟩ := (List.eq_nil_or_concat _).resolve_left hne
  refine ⟨front, sep, ?_, ?_⟩
  · have hlast := List.rdropWhile_last_not (!isSlash true ·) g.before hne
    simpa [hfront] using hlast
  · have hsplit := List.rdropWhile_append_rtakeWhile (p := (!isSlash true ·)) (l := g.before)
    rw [hfront] at hsplit
    simpa using hsplit.symm

/-- Up to the last slash before the gap the segments are settled, and so are the later ones. -/
theorem segments_fill (h : g.isInPath) : ∃ outer : List (List Char), ∀ x : List Char,
    (∀ c ∈ x, Percent.isPlain c) →
      segments ((g.before ++ x ++ g.pathBehind).tail) = outer ++ g.segment x :: g.later := by
  obtain ⟨front, sep, hsep, hbefore⟩ := exists_slash_of_isInPath h
  have hfill (x : List Char) (hx : ∀ c ∈ x, Percent.isPlain c) :
      segments (g.before.rtakeWhile (!isSlash true ·) ++ x ++ g.pathBehind) =
        g.segment x :: g.later := by
    rw [segments, splitOnP_append_of_forall]
    · simp [segment, later, segments]
    · intro c hc
      rcases List.mem_append.1 hc with hc | hc
      · simpa using List.mem_rtakeWhile_imp hc
      · exact isSlash_of_isPlain (hx c hc)
  cases front with
  | nil =>
    refine ⟨[], fun x hx ↦ ?_⟩
    rw [← hfill x hx]
    nth_rewrite 1 [hbefore]
    simp
  | cons first rest =>
    refine ⟨segments rest, fun x hx ↦ ?_⟩
    rw [← hfill x hx]
    nth_rewrite 1 [hbefore]
    simp [segments, List.splitOnP_append_cons _ _ hsep]

theorem target_of_isInPath (h : g.isInPath) : ∃ (outer : List (List Char)) (query : String),
    ∀ x : List Char, (∀ c ∈ x, Percent.isPlain c) →
      (∀ s ∈ outer ++ g.segment x :: g.later, '/' ∉ s) ∧ ∀ u : Url,
        (u.followedBy (g.fill x)).target =
          String.ofList (pathText (outer ++ g.segment x :: g.later)) ++ query := by
  obtain ⟨outer, hsegments⟩ := segments_fill h
  simp only [isInPath, Bool.and_eq_true, Option.any_eq_true, List.all_eq_true] at h
  obtain ⟨⟨c, hc, hslash⟩, hopen⟩ := h
  obtain ⟨rest, hbefore⟩ : ∃ rest, g.before = c :: rest := List.head?_eq_some_iff.1 hc
  refine ⟨outer, (readTail true (g.behind.dropWhile (!isPathEnd ·))).1.elim "" ("?" ++ ·),
    fun x hx ↦ ⟨?_, fun u ↦ ?_⟩⟩
  · intro s hs
    rw [← hsegments x hx] at hs
    exact not_mem_of_mem_segments hs
  · have hpath : ∀ d ∈ g.before ++ x, (!isPathEnd d) = true := by
      intro d hd
      rcases List.mem_append.1 hd with hd | hd
      · exact hopen d hd
      · simp [isPathEnd_of_isPlain (hx d hd)]
    rw [fill, target, followedBy]
    simp only [List.takeWhile_append_of_pos hpath, List.dropWhile_append_of_pos hpath]
    congr 1
    rw [← String.toList_inj, String.toList_ofList, ← hsegments x hx, ← toList_readPath]
    simp only [hbefore, List.cons_append, List.tail_cons, readPathAfterAuthority, hslash, if_true,
      pathBehind]

/-- What is put into a gap is lost when it makes a segment of dots. -/
def loses (g : Gap) (x : List Char) : Bool := g.isInPath && isDots (g.segment x)

theorem isInQuery_of_isInPath (h : g.isInPath) : g.isInQuery = false := by
  rw [isInPath, Bool.and_eq_true, List.all_eq_true] at h
  have hmark : '?' ∉ g.before := fun hm ↦ absurd (h.2 '?' hm) (by decide)
  simp [isInQuery, hmark]

/-- What is put into the gap is left in the target: no later segment climbs out over it. -/
def isKept (g : Gap) : Bool := g.isInQuery || (g.isInPath && !climbs [] g.later)

theorem before_ne_nil_of_isKept (h : g.isKept) : g.before ≠ [] := by
  intro hnil
  simp [isKept, isInQuery, isInPath, hnil] at h

/-- What is put into a gap and is not lost stands for itself, at the same place of the target. -/
theorem target_fill (h : g.isKept) : ∃ front back : String, ∀ (u : Url) (x : List Char),
    (∀ c ∈ x, Percent.isPlain c) → g.loses x = false →
      (u.followedBy (g.fill x)).target = front ++ String.ofList x ++ back := by
  rw [isKept, Bool.or_eq_true, Bool.and_eq_true, Bool.not_eq_true'] at h
  rcases h with hquery | ⟨hpath, hclimbs⟩
  · obtain ⟨front, back, htarget⟩ := target_of_isInQuery hquery
    exact ⟨front, back, fun u x hx _ ↦ htarget u x hx⟩
  · obtain ⟨outer, query, htarget⟩ := target_of_isInPath hpath
    let found := (outer.foldl (push false) []).reverse.flatMap ('/' :: ·)
    let more := (resolveDots false [] g.later).reverse.flatMap ('/' :: ·)
    refine ⟨String.ofList (found ++ '/' :: escape (g.before.rtakeWhile (!isSlash true ·))),
      String.ofList (escape (g.pathBehind.takeWhile (!isSlash true ·)) ++ more) ++ query,
      fun u x hx hkept ↦ ?_⟩
    have hdots : isDots (g.segment x) = false := by simpa [loses, hpath] using hkept
    rw [(htarget x hx).2 u, pathText, resolveDots_around hclimbs, push_of_not_isDots hdots,
      segment_eq g hx]
    simp [found, more, String.append_assoc]

theorem target_ne_of_loses (h : g.isKept) {x y : List Char} (hx : ∀ c ∈ x, Percent.isPlain c)
    (hy : ∀ c ∈ y, Percent.isPlain c) (hlost : g.loses x) (hkept : g.loses y = false) (hne : y ≠ [])
    (u v : Url) : (u.followedBy (g.fill x)).target ≠ (v.followedBy (g.fill y)).target := by
  rw [loses, Bool.and_eq_true] at hlost
  obtain ⟨hpath, hdots⟩ := hlost
  have hother : isDots (g.segment y) = false := by simpa [loses, hpath] using hkept
  have hclimbs : climbs [] g.later = false := by
    simpa [isKept, isInQuery_of_isInPath hpath, hpath] using h
  obtain ⟨outer, query, htarget⟩ := target_of_isInPath hpath
  obtain ⟨hslashx, htargetx⟩ := htarget x hx
  obtain ⟨hslashy, htargety⟩ := htarget y hy
  rw [htargetx u, htargety v]
  intro he
  have hne' (s : List Char) : outer ++ s :: g.later ≠ [] := by simp
  -- What is before and behind the gap is the same in both paths, so only its segment is left.
  have hsame := resolveDots_eq_of_pathText_eq hslashx hslashy (hne' _) (hne' _)
    (String.ofList_injective ((String.append_left_inj query).1 he))
  rw [resolveDots_around hclimbs, resolveDots_around hclimbs, List.append_cancel_left_eq,
    push_of_not_isDots hother] at hsame
  have hsegment : g.segment y ≠ [] := by
    rw [segment_eq g hy]
    simp [hne]
  exact push_ne_cons_of_isDots hdots hsegment hsame

theorem target_fill_ne (h : g.isKept) {x y : List Char} (hx : ∀ c ∈ x, Percent.isPlain c)
    (hy : ∀ c ∈ y, Percent.isPlain c) (hxne : x ≠ []) (hyne : y ≠ []) (hdiffer : x ≠ y)
    (hboth : ¬ (g.loses x ∧ g.loses y)) (u v : Url) :
    (u.followedBy (g.fill x)).target ≠ (v.followedBy (g.fill y)).target := by
  by_cases hlost : g.loses x
  · have hkept := Bool.eq_false_iff.2 fun hlost' ↦ hboth ⟨hlost, hlost'⟩
    exact target_ne_of_loses h hx hy hlost hkept hyne u v
  rw [Bool.not_eq_true] at hlost
  by_cases hlost' : g.loses y
  · exact (target_ne_of_loses h hy hx hlost' hlost hxne v u).symm
  rw [Bool.not_eq_true] at hlost'
  obtain ⟨front, back, htarget⟩ := target_fill h
  rw [htarget u x hx hlost, htarget v y hy hlost']
  intro he
  exact hdiffer (String.ofList_injective
    ((String.append_right_inj front).1 ((String.append_left_inj back).1 he)))

end Gap

end Url

end PackageStaging
