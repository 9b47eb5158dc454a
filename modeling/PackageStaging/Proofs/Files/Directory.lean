import Mathlib.Data.List.Induction
import PackageStaging.Proofs.Files.Entry
import PackageStaging.Proofs.World

namespace PackageStaging

namespace FileTree

variable {t u : FileTree} {p : Path} {d : Place}

theorem text_of_start_notFound (h : t.start p = .error .notFound) : p.text = "" := by
  unfold start at h
  split at h
  · cases h
  · split at h
    · rename_i he
      simpa using he
    · split at h <;> cases h

theorem walk_dropNothing {place : Place} {names : List String}
    (h : t.walk place names = .ok d) :
    t.walk place (names.reverse.dropWhile (· == "")).reverse = .ok d := by
  induction names using List.reverseRecOn with
  | nil => exact h
  | append_singleton names name ih =>
    by_cases hn : name = ""
    · subst hn
      simpa using ih (walk_of_walk_nothing h)
    · simpa [hn] using h

theorem walk_of_dropNothing {place : Place} {names : List String} (hd : t.IsDirectory d)
    (h : t.walk place (names.reverse.dropWhile (· == "")).reverse = .ok d) :
    t.walk place names = .ok d := by
  induction names using List.reverseRecOn with
  | nil => exact h
  | append_singleton names name ih =>
    by_cases hn : name = ""
    · subst hn
      rw [walk_concat, ih (by simpa using h)]
      exact step_nothing hd
    · simpa [hn] using h

theorem entryComponents_eq (p : Path) :
    entryComponents p = (p.parts.reverse.dropWhile (· == "")).reverse := by
  unfold entryComponents
  rcases p.text_cases with h | ⟨cs, h⟩ | ⟨cs, c, hc, h⟩
  · rw [Path.parts_of_nil h]
    simp [Path.components, h]
  · rw [(Path.parts_of_slash h).2]
    simp
  · rw [Path.parts_of_other hc h]

theorem Enters.locate (h : t.Enters p d) (hs : t.start p = .ok (t.origin p)) :
    t.locate p = .ok d := by
  have hwalk := h.walk
  simp only [FileTree.locate, hs, bind, Except.bind]
  rcases p.text_cases with hp | ⟨cs, hp⟩ | ⟨cs, c, hc, hp⟩
  · rw [Path.parts_of_nil hp] at hwalk
    have hcomponents : p.components = [] ++ [""] := by simp [Path.components, hp]
    rw [hcomponents, walk_concat, hwalk]
    exact step_nothing h.isDirectory
  · rw [(Path.parts_of_slash hp).2, walk_concat, hwalk]
    exact step_nothing h.isDirectory
  · rwa [← Path.parts_of_other hc hp]

theorem Enters.stat? (h : t.Enters p d) (hs : t.start p = .ok (t.origin p)) :
    ∃ mode, t.stat? p = some (.directory mode) := by
  obtain ⟨mode, hm⟩ := h.isDirectory
  exact ⟨mode, by rw [FileTree.stat?, h.locate hs]; exact hm⟩

theorem exists_text_child (p : Path) : ∃ slash, ∀ n, (p.child n).text = p.text ++ slash ++ n := by
  rcases p.text_cases with h | ⟨cs, h⟩ | ⟨cs, c, hc, h⟩
  · exact ⟨"", fun n ↦ by simp [Path.child, h]⟩
  · exact ⟨"", fun n ↦ by simp [Path.child, h]⟩
  · exact ⟨"/", fun n ↦ by simp [Path.child, h]⟩

theorem start_of_child {n : String} (h : t.start (p.child n) = .ok (t.origin (p.child n)))
    (hp : p.text ≠ "") : t.start p = .ok (t.origin p) := by
  obtain ⟨slash, hslash⟩ := exists_text_child p
  obtain ⟨hnul, -, hlong⟩ := exists_start_iff.1 ⟨_, h⟩
  rw [hslash, String.append_assoc, String.toList_append, List.mem_append, not_or] at hnul
  rw [hslash, String.append_assoc, String.utf8ByteSize_append] at hlong
  obtain ⟨place, hplace⟩ := (exists_start_iff (t := t)).2 ⟨hnul.1, hp, by omega⟩
  exact start_ok hplace t

theorem start_child_of_le {n m : String} (h : t.start (p.child n) = .ok (t.origin (p.child n)))
    (hm : IsEntryName m) (hnul : '\x00' ∉ m.toList) (hle : m.utf8ByteSize ≤ n.utf8ByteSize) :
    t.start (p.child m) = .ok (t.origin (p.child m)) := by
  obtain ⟨slash, hslash⟩ := exists_text_child p
  obtain ⟨hnul', -, hlong⟩ := exists_start_iff.1 ⟨_, h⟩
  rw [hslash, String.toList_append, List.mem_append, not_or] at hnul'
  rw [hslash, String.utf8ByteSize_append] at hlong
  have hexists : ∃ place, t.start (p.child m) = .ok place := by
    rw [exists_start_iff, hslash, String.toList_append, List.mem_append, not_or,
      String.utf8ByteSize_append]
    exact ⟨⟨hnul'.1, hnul⟩, by simp [hm.ne_empty], by omega⟩
  obtain ⟨place, hplace⟩ := hexists
  exact start_ok hplace t

theorem Enters.makeDirectory (h : t.Enters p d) :
    ∃ e, t.makeDirectory p = .error e ∧ (e = .notFound → p.text = "") := by
  unfold FileTree.makeDirectory
  cases hs : t.start p with
  | error e => exact ⟨e, rfl, fun he ↦ text_of_start_notFound (he ▸ hs)⟩
  | ok first =>
    obtain rfl : first = t.origin p := by
      rw [start_ok hs t] at hs
      cases hs
      rfl
    obtain ⟨mode, hm⟩ := h.isDirectory
    have hwalk := walk_dropNothing h.walk
    rw [← entryComponents_eq] at hwalk
    refine ⟨.alreadyExists, ?_, fun he ↦ by cases he⟩
    simp only [bind, Except.bind, hwalk, hm]
    rfl

/-- To make a directory puts an empty one at the place of the path, where nothing stands. -/
theorem put_of_makeDirectory (h : t.makeDirectory p = .ok u) :
    ∃ place, t.start p = .ok (t.origin p) ∧ t.walk (t.origin p) (entryComponents p) = .ok place ∧
      t.node? place = none ∧ u = t.put place (.directory newDirectoryMode) := by
  unfold makeDirectory at h
  cases hs : t.start p with
  | error e => rw [hs] at h; cases h
  | ok first =>
    have hstart := start_ok hs t
    obtain rfl : first = t.origin p := Except.ok.inj (hs.symm.trans hstart)
    rw [hs] at h
    simp only [bind, Except.bind] at h
    cases hw : t.walk (t.origin p) (entryComponents p) with
    | error e => rw [hw] at h; cases h
    | ok place =>
      rw [hw] at h
      cases hnode : t.node? place with
      | some node => simp only [hnode] at h; cases h
      | none =>
        simp only [hnode] at h
        cases h
        exact ⟨place, rfl, rfl, hnode, rfl⟩

theorem isDirectory_put_of_none {place : Place} (hnone : t.node? place = none) (node : Node)
    (hd : t.IsDirectory d) : (t.put place node).IsDirectory d := by
  obtain ⟨mode, hm⟩ := hd
  have hne : d ≠ place := by
    rintro rfl
    simp [hnone] at hm
  exact ⟨mode, (node?_put_of_ne t node hne).trans hm⟩

theorem locate_makeDirectory (h : t.makeDirectory p = .ok u) :
    ∃ place, u.locate p = .ok place ∧ t.node? place = none ∧
      u = t.put place (.directory newDirectoryMode) := by
  obtain ⟨place, hstart, hwalk, hnone, rfl⟩ := put_of_makeDirectory h
  refine ⟨place, ?_, hnone, rfl⟩
  have hu := walk_mono
    (fun _ ↦ isDirectory_put_of_none hnone (.directory newDirectoryMode)) hwalk
  simp only [FileTree.locate, start_ok hstart, bind, Except.bind]
  exact walk_of_dropNothing ⟨_, node?_put_self _ _ _⟩ hu

end FileTree

namespace World

theorem makeDirectory_run (w : World) (p : Path) :
    (FileSystem.makeDirectory p : Simulation (Except FileError Unit)) w =
      match w.tree.makeDirectory p with
      | .ok tree => (.ok (), { w with tree })
      | .error e => (.error e, w) := rfl

/-- The world after a directory and those around it were made, as far as that went. -/
def withDirectory (w : World) (p : Path) : World :=
  ((FileSystem.makeDirectories p : Simulation (Except FileError Unit)) w).2

theorem settle_run (w : World) (p : Path) (e : FileError) :
    ((do if ← FileSystem.isDirectory p then return .ok () else return .error e :
      Simulation (Except FileError Unit)) w) = (match w.tree.stat? p with
        | some (.directory _) => .ok ()
        | _ => .error e, w) := by
  have hlook : (FileSystem.isDirectory p : Simulation Bool) w =
      (match w.tree.stat? p with
        | some (.directory _) => true
        | _ => false, w) := rfl
  rw [Simulation.bind_apply, hlook]
  rcases w.tree.stat? p with _ | _ | _ <;> rfl

theorem makeEach_of_error {w : World} {p : Path} {e : FileError}
    (h : w.tree.makeDirectory p = .error e) (he : e ≠ .notFound) (outer : List Path) :
    (FileSystem.makeEach (p :: outer) : Simulation (Except FileError Unit)) w =
      (match w.tree.stat? p with
        | some (.directory _) => .ok ()
        | _ => .error e, w) := by
  have hmake : (FileSystem.makeDirectory p : Simulation (Except FileError Unit)) w =
      (.error e, w) := by
    rw [makeDirectory_run, h]
  rw [FileSystem.makeEach, Simulation.bind_apply, hmake]
  cases e with
  | notFound => exact absurd rfl he
  | _ => exact w.settle_run p _

/-- What making each of some directories keeps is kept when they are made as they are needed. -/
theorem makeEach_induction {P : FileTree → Prop} {paths : List Path}
    (hstep : ∀ p ∈ paths, ∀ t u, P t → t.makeDirectory p = .ok u → P u) {w : World}
    (hw : P w.tree) :
    P ((FileSystem.makeEach paths : Simulation (Except FileError Unit)) w).2.tree := by
  induction paths with
  | nil => exact hw
  | cons p outer ih =>
    obtain ⟨hp, houter⟩ := List.forall_mem_cons.1 hstep
    cases hmake : w.tree.makeDirectory p with
    | ok u =>
      rw [FileSystem.makeEach, Simulation.bind_apply, makeDirectory_run, hmake]
      exact hp _ _ hw hmake
    | error e =>
      by_cases he : e = .notFound
      · subst he
        have hv := ih houter
        rw [FileSystem.makeEach, Simulation.bind_apply, makeDirectory_run, hmake]
        dsimp only
        rw [Simulation.bind_apply]
        generalize (FileSystem.makeEach outer : Simulation (Except FileError Unit)) w = made at hv ⊢
        obtain ⟨r, v⟩ := made
        cases r with
        | error e => exact hv
        | ok =>
          dsimp only
          rw [Simulation.bind_apply, makeDirectory_run]
          cases hagain : v.tree.makeDirectory p with
          | ok u => exact hp _ _ hv hagain
          | error e =>
            dsimp only
            rw [settle_run]
            exact hv
      · rw [makeEach_of_error hmake he]
        exact hw

theorem withDirectory_induction {P : FileTree → Prop} {w : World} {p : Path}
    (hstep : ∀ q ∈ p.withEnclosing, ∀ t u, P t → t.makeDirectory q = .ok u → P u)
    (hw : P w.tree) : P (w.withDirectory p).tree :=
  makeEach_induction hstep hw

/-- Where a directory stands there is nothing to make; and if its path can be walked at all, the
attempt to make it is no error. -/
theorem makeDirectories_of_enters {w : World} {p : Path} {d : Place} (h : w.tree.Enters p d) :
    ∃ r, (FileSystem.makeDirectories p : Simulation (Except FileError Unit)) w = (r, w) ∧
      (p.text = "" ∨ w.tree.start p = .ok (w.tree.origin p) → r = .ok ()) := by
  unfold FileSystem.makeDirectories Path.withEnclosing
  cases hs : p.steps.reverse with
  | nil => exact ⟨.ok (), rfl, fun _ ↦ rfl⟩
  | cons last outer =>
    have htext : p.text ≠ "" := by
      intro hp
      obtain rfl : p = ⟨""⟩ := congrArg Path.mk hp
      have hnil : Path.steps ⟨""⟩ = [] := by decide
      simp [hnil] at hs
    obtain ⟨e, he, hfound⟩ := h.makeDirectory
    rw [makeEach_of_error he fun hnone ↦ htext (hfound hnone)]
    refine ⟨_, rfl, ?_⟩
    rintro (hp | hstart)
    · exact absurd hp htext
    · obtain ⟨mode, hm⟩ := h.stat? hstart
      rw [hm]

theorem withDirectory_of_enters {w : World} {p : Path} {d : Place} (h : w.tree.Enters p d) :
    w.withDirectory p = w := by
  obtain ⟨r, hr, -⟩ := makeDirectories_of_enters h
  rw [withDirectory, hr]

end World

end PackageStaging
