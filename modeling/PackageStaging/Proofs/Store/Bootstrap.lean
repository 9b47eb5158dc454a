import PackageStaging.Proofs.Files.Alteration
import PackageStaging.Proofs.Session.Reopening

namespace PackageStaging

open FileTree (newDirectoryMode newFileMode)

variable {base : Path} {t u : FileTree} {place q : Place} {node : Node}

namespace Store

/-- What opening may make at a place: an empty file of a list, or a directory that the base
directory needs. -/
inductive IsBootstrap (base : Path) (u : FileTree) (place : Place) : Prop
  | directory {p : Path} (enclosing : p ∈ base.withEnclosing) (leads : u.locate p = .ok place)
      (made : u.node? place = some (.directory newDirectoryMode))
  | list (list : StoredList) (leads : u.locate (Store.path ⟨base⟩ list) = .ok place)
      (made : u.node? place = some (.file "".toUTF8 newFileMode))

/-- The tree `u` is the tree `t` with what opening makes in places where nothing stood. -/
structure Adds (base : Path) (t u : FileTree) : Prop where
  working : u.working = t.working
  node? (q : Place) : u.node? q = t.node? q ∨ t.node? q = none ∧ IsBootstrap base u q

theorem Adds.refl (base : Path) (t : FileTree) : Adds base t t := ⟨rfl, fun _ ↦ .inl rfl⟩

theorem IsBootstrap.put (h : IsBootstrap base u q) (hnone : u.node? place = none) (node : Node) :
    IsBootstrap base (u.put place node) q := by
  have hleads {p : Path} {next : Place} : u.locate p = .ok next →
      (u.put place node).locate p = .ok next :=
    FileTree.locate_mono rfl fun _ ↦ FileTree.isDirectory_put_of_none hnone node
  have hkeeps {old : Node} (hq : u.node? q = some old) : (u.put place node).node? q = some old := by
    have hne : q ≠ place := by
      rintro rfl
      simp [hnone] at hq
    rw [FileTree.node?_put_of_ne u node hne, hq]
  cases h with
  | directory enclosing leads made => exact .directory enclosing (hleads leads) (hkeeps made)
  | list list leads made => exact .list list (hleads leads) (hkeeps made)

theorem Adds.put (h : Adds base t u) (hnone : u.node? place = none)
    (hnew : IsBootstrap base (u.put place node) place) : Adds base t (u.put place node) where
  working := h.working
  node? q := by
    by_cases hq : q = place
    · subst hq
      refine .inr ⟨?_, hnew⟩
      rcases h.node? q with he | ⟨hfree, -⟩
      · rw [← he, hnone]
      · exact hfree
    · rcases h.node? q with he | ⟨hfree, hmade⟩
      · exact .inl ((FileTree.node?_put_of_ne u node hq).trans he)
      · exact .inr ⟨hfree, hmade.put hnone node⟩

theorem Adds.makeDirectory {p : Path} {v : FileTree} (h : Adds base t u)
    (hp : p ∈ base.withEnclosing) (hmake : u.makeDirectory p = .ok v) : Adds base t v := by
  obtain ⟨place, hplace, hnone, rfl⟩ := FileTree.locate_makeDirectory hmake
  exact h.put hnone (.directory hp hplace (FileTree.node?_put_self _ _ _))

theorem put_of_makeList {list : StoredList} (hnone : t.stat? (Store.path ⟨base⟩ list) = none)
    (hsave : saveIn ⟨base⟩ t list [] = .ok u) :
    ∃ place, u.locate (Store.path ⟨base⟩ list) = .ok place ∧ t.node? place = none ∧
      u = t.put place (.file "".toUTF8 newFileMode) := by
  have hlocate := FileTree.locate_write list.isEntryName list.isEntryName hsave
  obtain ⟨d, hd⟩ := FileTree.leadsInto_of_write list.isEntryName hsave
  have hfree : t.node? (list.fileName :: d) = none := by
    rw [← hd.stat? list.isEntryName]
    exact hnone
  have hempty : Text.ofItems [] = "" := rfl
  rw [saveIn, path, hd.write_eq list.isEntryName, hfree, hempty] at hsave
  cases hsave
  exact ⟨_, hlocate.trans (hd.locate list.isEntryName), hfree, rfl⟩

theorem Adds.makeList {list : StoredList} {v : FileTree} (h : Adds base t u)
    (hnone : u.stat? (Store.path ⟨base⟩ list) = none)
    (hsave : saveIn ⟨base⟩ u list [] = .ok v) : Adds base t v := by
  obtain ⟨place, hplace, hfree, rfl⟩ := put_of_makeList hnone hsave
  exact h.put hfree (.list list hplace (FileTree.node?_put_self _ _ _))

theorem adds_withDirectory (w : World) (base : Path) :
    Adds base w.tree (w.withDirectory base).tree :=
  World.withDirectory_induction (fun _ hp _ _ ht hmake ↦ ht.makeDirectory hp hmake) (.refl _ _)

theorem Adds.node?_of_some (h : Adds base t u) (hq : t.node? q = some node) :
    u.node? q = some node := by
  rcases h.node? q with he | ⟨hnone, -⟩
  · rw [he, hq]
  · simp [hnone] at hq

theorem Adds.stat?_of_some {p : Path} (h : Adds base t u) (hp : t.stat? p = some node) :
    u.stat? p = some node := by
  obtain ⟨q, hq, hnode⟩ := FileTree.exists_locate_of_stat? hp
  have hdirectory (d : Place) (hd : t.IsDirectory d) : u.IsDirectory d := by
    obtain ⟨mode, hm⟩ := hd
    exact ⟨mode, h.node?_of_some hm⟩
  rw [FileTree.stat?, FileTree.locate_mono h.working hdirectory hq]
  exact h.node?_of_some hnode

end Store

namespace Session

variable {s : Session Simulation} {c : Config} {catalog : Catalog Simulation} {w v : World}

theorem adds_start {r : Except StageError (Session Simulation)}
    (h : w.perform (start c catalog) = (r, v)) : Store.Adds c.base w.tree v.tree :=
  start_induction (fun _ _ _ ht hnone hsave ↦ ht.makeList hnone hsave)
    (Store.adds_withDirectory w c.base) h

theorem stat?_start_cases {r : Except StageError (Session Simulation)}
    (h : w.perform (start c catalog) = (r, v)) (list : StoredList) :
    v.tree.stat? (Store.path ⟨c.base⟩ list) =
        (w.withDirectory c.base).tree.stat? (Store.path ⟨c.base⟩ list) ∨
      (w.withDirectory c.base).tree.stat? (Store.path ⟨c.base⟩ list) = none ∧
        v.tree.stat? (Store.path ⟨c.base⟩ list) = some (.file "".toUTF8 newFileMode) := by
  refine start_induction (P := fun t ↦ t.stat? _ = _ ∨ _ = none ∧ t.stat? _ = _) ?_ (.inl rfl) h
  intro made t u ht hnone hsave
  by_cases hl : list = made
  · subst hl
    obtain ⟨place, hplace, -, rfl⟩ := Store.put_of_makeList hnone hsave
    refine .inr ⟨?_, by rw [FileTree.stat?, hplace]; exact FileTree.node?_put_self _ _ _⟩
    rcases ht with he | ⟨hbefore, -⟩
    · rw [← he, hnone]
    · exact hbefore
  · have hother : u.stat? (Store.path ⟨c.base⟩ list) = t.stat? (Store.path ⟨c.base⟩ list) :=
      FileTree.stat?_write_of_ne made.isEntryName list.isEntryName (StoredList.fileName_ne hl) hsave
    rwa [hother]

/-- Once the base directory is there, opening keeps what stands at the lists, and it puts an empty
file wherever one does not exist. -/
theorem stat?_start (h : w.perform (start c catalog) = (.ok s, v)) (list : StoredList) :
    v.tree.stat? (Store.path ⟨c.base⟩ list) =
      some (((w.withDirectory c.base).tree.stat? (Store.path ⟨c.base⟩ list)).getD
        (.file "".toUTF8 newFileMode)) := by
  rcases stat?_start_cases h list with hkept | ⟨hbefore, hmade⟩
  · obtain ⟨node, hnode⟩ := Option.isSome_iff_exists.1 ((isOpened_start h).2 list)
    rw [← hkept, hnode, Option.getD_some]
  · rw [hmade, hbefore, Option.getD_none]

end Session

end PackageStaging
