import PackageStaging.Proofs.Files.Alteration
import PackageStaging.Proofs.Session.Exact
import PackageStaging.Proofs.Store.Written

namespace PackageStaging

variable {w v : World} {t : FileTree}

namespace Store

variable {s : Store} {list : StoredList}

/-- What stands at a list is a directory, or a file that is no text. -/
inductive IsSpoilt (s : Store) (t : FileTree) (list : StoredList) : Prop
  | directory {mode : Nat} (h : t.stat? (s.path list) = some (.directory mode))
  | notText {content : ByteArray} {mode : Nat}
      (h : t.stat? (s.path list) = some (.file content mode))
      (invalid : String.fromUTF8? content = none)

theorem IsSpoilt.itemsIn_error (h : s.IsSpoilt t list) : ∃ e, s.itemsIn t list = .error e := by
  cases h with
  | directory h =>
    rw [itemsIn, FileTree.text, FileTree.read_of_stat?_directory h]
    exact ⟨_, rfl⟩
  | notText h invalid =>
    simp only [itemsIn, FileTree.text, FileTree.read_of_stat? h, invalid]
    exact ⟨_, rfl⟩

theorem Logged.node?_eq {c : Change} {u : FileTree} (h : s.Logged c t u) {place : Place}
    (hplace : t.locate (s.path .unstaged) ≠ .ok place) : u.node? place = t.node? place := by
  obtain ⟨log, -, hsave⟩ := h
  obtain ⟨written, hl, halters⟩ := FileTree.alters_write hsave
  refine halters.elsewhere place ?_
  rintro rfl
  exact hplace hl

end Store

namespace Session

variable {s : Session Simulation} {o : Operation} {name : String} {r : Except StageError Unit}

theorem add_of_unread {e : StageError} (hload : s.store.itemsIn w.tree .remove = .error e)
    (h : w.perform (s.add name) = (r, v)) : (∃ e, r = .error e) ∧ v = w := by
  rcases guarded_cases h with ⟨e', rfl, rfl, -⟩ | ⟨n, -, -, h⟩
  · exact ⟨⟨e', rfl⟩, rfl⟩
  · have hpackages : w.perform (s.packages .remove) = (.error e, w) := by
      rw [perform_packages]
      exact congrArg (·, w) hload
    rw [World.perform_bind, hpackages] at h
    cases h
    exact ⟨⟨e, rfl⟩, rfl⟩

/-- An error of storage bounds what a call has written. The lists of names are as they were, and so
is whatever stands elsewhere but at the log; the tree is as it was, too, or the log holds the text of
its net effect with the change of the call. And a call that stages a package for installation has
written nothing if the recorded removals are no text. -/
theorem stage_of_storage_error (hquiet : s.catalog.IsQuiet)
    (h : w.perform (s.stage o name) = (r, v)) :
    (∀ e, r = .error e → e.isStorage →
      (∀ p, s.store.KeepsFile (.ofOperation p) w.tree v.tree) ∧
      (∀ place, w.tree.locate (s.store.path .unstaged) ≠ .ok place →
        v.tree.node? place = w.tree.node? place) ∧
      (v.tree = w.tree ∨ ∃ log, s.store.logIn w.tree = .ok log ∧
        v.tree.read (s.store.path .unstaged) =
          .ok (Log.net (log ++ [⟨o, Text.trim name⟩])).text.toUTF8)) ∧
    (o = .add → s.store.IsSpoilt w.tree .remove → (∃ e, r = .error e) ∧ v.tree = w.tree) := by
  constructor
  · rintro e rfl he
    have ho := outcome_stage hquiet h
    generalize v.tree = u at ho ⊢
    cases ho with
    | refused reason => exact ⟨fun _ ↦ rfl, fun _ _ ↦ rfl, .inl rfl⟩
    | halted valid logged stuck storage =>
      obtain ⟨rfl, hitem⟩ := validName_ok valid
      obtain ⟨log, hlog, hwritten⟩ := logged.hasWritten hitem
      exact ⟨logged.keepsFile, fun place hplace ↦ logged.node?_eq hplace,
        .inr ⟨log, hlog, hwritten.read⟩⟩
  · rintro rfl hspoilt
    obtain ⟨e, hload⟩ := hspoilt.itemsIn_error
    obtain ⟨herror, rfl⟩ := add_of_unread hload h
    exact ⟨herror, rfl⟩

def obstructed (o : Operation) : World := { World.bare with
  tree := World.bare.tree.put [(StoredList.ofOperation o).fileName, "state"] (.directory 0o755) }

theorem read_obstructed : ((obstructed .add).perform
      (OpenSession.bare.session.stage .add "vim")).2.tree.read
        (Store.path ⟨Config.bare.base⟩ .unstaged) = .ok "+ vim\n".toUTF8 := by
  rfl

/-- The directory is found when the log is written already, unless it stands at the removals. -/
theorem stage_of_storage_error_obstructed :
    (∃ v, (obstructed .add).perform (OpenSession.bare.session.stage .add "vim") =
        (.error (.fileFailed (Store.path ⟨Config.bare.base⟩ .add) .isADirectory), v) ∧
      Store.KeepsFile ⟨Config.bare.base⟩ .add (obstructed .add).tree v.tree ∧
      v.tree.read (Store.path ⟨Config.bare.base⟩ .unstaged) = .ok "+ vim\n".toUTF8) ∧
    ∃ v, (obstructed .remove).perform (OpenSession.bare.session.stage .add "vim") =
        (.error (.fileFailed (Store.path ⟨Config.bare.base⟩ .remove) .isADirectory), v) ∧
      v.tree = (obstructed .remove).tree := by
  have hquiet : OpenSession.bare.session.catalog.IsQuiet := Catalog.isQuiet_fixed _
  constructor
  · obtain ⟨v, h⟩ : ∃ v, (obstructed .add).perform (OpenSession.bare.session.stage .add "vim") =
        (.error (.fileFailed (Store.path ⟨Config.bare.base⟩ .add) .isADirectory), v) := ⟨_, rfl⟩
    have hread := read_obstructed
    rw [h] at hread
    exact ⟨v, h, ((stage_of_storage_error hquiet h).1 _ rfl rfl).1 .add, hread⟩
  · obtain ⟨v, h⟩ : ∃ v, (obstructed .remove).perform (OpenSession.bare.session.stage .add "vim") =
        (.error (.fileFailed (Store.path ⟨Config.bare.base⟩ .remove) .isADirectory), v) := ⟨_, rfl⟩
    have hspoilt : Store.IsSpoilt ⟨Config.bare.base⟩ (obstructed .remove).tree .remove :=
      .directory rfl
    exact ⟨v, h, ((stage_of_storage_error hquiet h).2 rfl hspoilt).2⟩

end Session

end PackageStaging
