import PackageStaging.Files.Tree

namespace PackageStaging.FileTree

def IsDirectory (t : FileTree) (place : Place) : Prop :=
  ∃ mode, t.node? place = some (.directory mode)

def origin (t : FileTree) (p : Path) : Place := if p.isRooted then [] else t.working

theorem start_cases (p : Path) :
    (∃ e, ∀ t : FileTree, t.start p = .error e) ∨ ∀ t : FileTree, t.start p = .ok (t.origin p) := by
  unfold start
  by_cases hnul : p.text.toList.contains '\x00'
  · exact .inl ⟨.nulInPath, fun t ↦ by simp only [hnul, if_true]⟩
  · by_cases hempty : p.text.isEmpty
    · exact .inl ⟨.notFound, fun t ↦ by simp only [hnul, hempty, if_true]; rfl⟩
    · by_cases hlong : longestPath < p.text.utf8ByteSize
      · exact .inl ⟨.nameTooLong, fun t ↦ by simp only [hnul, hempty, hlong, if_true]; rfl⟩
      · exact .inr fun t ↦ by simp only [hnul, hempty, hlong, if_false]; rfl

theorem start_ok {t : FileTree} {p : Path} {place : Place} (h : t.start p = .ok place)
    (u : FileTree) : u.start p = .ok (u.origin p) := by
  rcases start_cases p with ⟨e, he⟩ | hp
  · rw [he] at h; cases h
  · exact hp u

theorem exists_start_iff {t : FileTree} {p : Path} : (∃ place, t.start p = .ok place) ↔
    '\x00' ∉ p.text.toList ∧ p.text ≠ "" ∧ p.text.utf8ByteSize ≤ longestPath := by
  unfold start
  by_cases hnul : '\x00' ∈ p.text.toList
  · simp [hnul]
  · by_cases hempty : p.text = ""
    · simp [hempty]
    · by_cases hlong : longestPath < p.text.utf8ByteSize
      · simp [hnul, hempty, hlong]
      · simpa [hnul, hempty, hlong] using Nat.le_of_not_lt hlong

theorem start_error {t : FileTree} {p : Path} {e : FileError} (h : t.start p = .error e)
    (u : FileTree) : u.start p = .error e := by
  rcases start_cases p with ⟨e', he⟩ | hp
  · rw [he] at h ⊢; exact h
  · rw [hp] at h; cases h

theorem isDirectory_of_step {t : FileTree} {place next : Place} {name : String}
    (h : t.step place name = .ok next) : t.IsDirectory place := by
  unfold step at h
  split at h
  · cases h
  · cases h
  · rename_i mode hm
    exact ⟨mode, hm⟩

theorem step_eq_of_isDirectory {t u : FileTree} {place : Place} (ht : t.IsDirectory place)
    (hu : u.IsDirectory place) (name : String) : u.step place name = t.step place name := by
  obtain ⟨m, hm⟩ := ht
  obtain ⟨n, hn⟩ := hu
  simp only [step, hm, hn]

theorem step_nothing {t : FileTree} {place : Place} (h : t.IsDirectory place) :
    t.step place "" = .ok place := by
  obtain ⟨mode, hm⟩ := h
  simp [step, hm]

theorem walk_append (t : FileTree) (place : Place) (xs ys : List String) :
    t.walk place (xs ++ ys) = t.walk place xs >>= fun next ↦ t.walk next ys := by
  induction xs generalizing place with
  | nil => rfl
  | cons x xs ih =>
    simp only [List.cons_append, walk]
    cases t.step place x with
    | error e => rfl
    | ok next => exact ih next

theorem walk_concat (t : FileTree) (place : Place) (names : List String) (name : String) :
    t.walk place (names ++ [name]) = t.walk place names >>= fun next ↦ t.step next name := by
  rw [walk_append]
  congr 1
  funext next
  simp only [walk]
  cases t.step next name <;> rfl

theorem walk_concat_ok {t : FileTree} {place last : Place} {names : List String} {name : String}
    (h : t.walk place (names ++ [name]) = .ok last) :
    ∃ next, t.walk place names = .ok next ∧ t.step next name = .ok last := by
  rw [walk_concat] at h
  cases hw : t.walk place names with
  | error e => rw [hw] at h; cases h
  | ok next => rw [hw] at h; exact ⟨next, rfl, h⟩

/-- Slashes at the end of a path that leads to a directory do not lead further. -/
theorem walk_of_walk_nothing {t : FileTree} {place last : Place} {names : List String}
    (h : t.walk place (names ++ [""]) = .ok last) : t.walk place names = .ok last := by
  obtain ⟨next, hnext, hs⟩ := walk_concat_ok h
  rw [step_nothing (isDirectory_of_step hs)] at hs
  cases hs
  exact hnext

theorem walk_mono {t u : FileTree} (hdir : ∀ place, t.IsDirectory place → u.IsDirectory place)
    {place last : Place} {names : List String} (h : t.walk place names = .ok last) :
    u.walk place names = .ok last := by
  induction names generalizing place with
  | nil => exact h
  | cons name names ih =>
    simp only [walk] at h ⊢
    cases hs : t.step place name with
    | error e => rw [hs] at h; cases h
    | ok next =>
      have hd := isDirectory_of_step hs
      rw [hs] at h
      rw [step_eq_of_isDirectory hd (hdir _ hd), hs]
      exact ih h

theorem isDirectory_put_file {t : FileTree} {place : Place} (h : ¬ t.IsDirectory place)
    (content : ByteArray) (mode : Nat) (other : Place) :
    (t.put place (.file content mode)).IsDirectory other ↔ t.IsDirectory other := by
  by_cases he : other = place
  · subst he
    simp only [IsDirectory, node?_put_self]
    refine ⟨fun ⟨_, hm⟩ ↦ by simp at hm, fun hd ↦ absurd hd h⟩
  · simp only [IsDirectory, node?_put_of_ne _ _ he]

end PackageStaging.FileTree
