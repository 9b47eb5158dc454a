import PackageStaging.Proofs.Change.Written
import PackageStaging.Proofs.Files.Entry
import PackageStaging.Proofs.World
import PackageStaging.Store

namespace PackageStaging

open Text (IsItem)

theorem fromUTF8?_toUTF8 (s : String) : String.fromUTF8? s.toUTF8 = some s := by
  simp [String.fromUTF8?, String.fromUTF8, s.isValidUTF8]

theorem StoredList.isEntryName (list : StoredList) : IsEntryName list.fileName where
  one_component := by cases list <;> decide
  ne_empty := by cases list <;> decide
  ne_here := by cases list <;> decide
  ne_outer := by cases list <;> decide
  short := by cases list <;> decide

theorem StoredList.fileName_ne {a b : StoredList} (h : a ≠ b) : a.fileName ≠ b.fileName :=
  fun he ↦ h (fileName_inj he)

namespace Store

variable (s : Store)

def itemsIn (t : FileTree) (list : StoredList) : Except StageError (List String) :=
  match t.text (s.path list) with
  | .ok text => .ok (Text.items text)
  | .error .notFound => .ok []
  | .error e => .error (.ofFile (s.path list) e)

def logIn (t : FileTree) : Except StageError Log :=
  (s.itemsIn t .unstaged).map (List.filterMap fun line ↦ (Change.read line).toOption)

def saveIn (t : FileTree) (list : StoredList) (items : List String) : Except FileError FileTree :=
  t.write (s.path list) (Text.ofItems items).toUTF8

theorem perform_read (w : World) (list : StoredList) : w.perform (s.read list) =
    (((w.tree.text (s.path list)).map Text.items).mapError (.ofFile (s.path list)), w) := by
  rw [read, World.perform_bind, World.perform_onFile, World.readText_run]
  cases w.tree.text (s.path list) <;> rfl

theorem perform_load (w : World) (list : StoredList) :
    w.perform (s.load list) = (s.itemsIn w.tree list, w) := by
  rw [load, World.perform_tryCatch, perform_read, itemsIn]
  cases w.tree.text (s.path list) with
  | ok text => rfl
  | error e => cases e <;> rfl

theorem perform_save (w : World) (list : StoredList) (items : List String) :
    w.perform (s.save list items) = match s.saveIn w.tree list items with
      | .ok tree => (.ok (), { w with tree })
      | .error e => (.error (.ofFile (s.path list) e), w) := by
  rw [save, World.perform_onFile, World.writeText_run, saveIn]
  cases w.tree.write (s.path list) (Text.ofItems items).toUTF8 <;> rfl

theorem perform_loadLog (w : World) : w.perform s.loadLog = (s.logIn w.tree, w) := by
  rw [loadLog, World.perform_bind, perform_load, logIn]
  cases s.itemsIn w.tree .unstaged <;> rfl

theorem perform_saveLog (w : World) (log : Log) : w.perform (s.saveLog log) =
    match s.saveIn w.tree .unstaged (log.net.map Change.render) with
    | .ok tree => (.ok log.net, { w with tree })
    | .error e => (.error (.ofFile (s.path .unstaged) e), w) := by
  rw [saveLog, World.perform_bind, perform_save]
  cases s.saveIn w.tree .unstaged (log.net.map Change.render) <;> rfl

theorem keepsOutside_load (list : StoredList) : Keeps World.outside (s.load list) := by
  intro w
  rw [perform_load]

theorem keepsOutside_save (list : StoredList) (items : List String) :
    Keeps World.outside (s.save list items) := by
  intro w
  rw [perform_save]
  cases s.saveIn w.tree list items <;> rfl

variable {s} {t u : FileTree} {list other : StoredList}

theorem isItem_of_mem_itemsIn {items : List String} (h : s.itemsIn t list = .ok items) :
    ∀ x ∈ items, IsItem x := by
  unfold itemsIn at h
  split at h
  · cases h
    exact fun x hx ↦ Text.isItem_of_mem_items hx
  · cases h
    simp
  · cases h

theorem itemsIn_of_absent (hnone : t.stat? (s.path list) = none) {items : List String}
    (h : s.itemsIn t list = .ok items) : items = [] := by
  obtain ⟨e, he⟩ := FileTree.read_of_stat?_none hnone
  unfold itemsIn FileTree.text at h
  rw [he] at h
  cases e with
  | notFound => cases h; rfl
  | _ => cases h

theorem isProper_logIn {log : Log} (h : s.logIn t = .ok log) : log.IsProper := by
  unfold logIn at h
  cases hl : s.itemsIn t .unstaged with
  | error e => rw [hl] at h; cases h
  | ok lines =>
    rw [hl] at h
    cases h
    exact Log.isProper_filterMap_read (isItem_of_mem_itemsIn hl)

theorem itemsIn_congr (h : u.read (s.path list) = t.read (s.path list)) :
    s.itemsIn u list = s.itemsIn t list := by
  simp only [itemsIn, FileTree.text, h]

theorem itemsIn_of_read {text : String} (h : t.read (s.path list) = .ok text.toUTF8) :
    s.itemsIn t list = .ok (Text.items text) := by
  simp only [itemsIn, FileTree.text, h, fromUTF8?_toUTF8]

theorem itemsIn_save {items : List String} (h : s.saveIn t list items = .ok u) :
    s.itemsIn u list = .ok (Text.items (Text.ofItems items)) :=
  itemsIn_of_read (FileTree.read_write_self list.isEntryName h)

theorem itemsIn_save_self {items : List String} (h : s.saveIn t list items = .ok u)
    (hitems : ∀ x ∈ items, IsItem x) : s.itemsIn u list = .ok items := by
  rw [itemsIn_save h, Text.items_ofItems hitems]

theorem itemsIn_save_of_ne {items : List String} (h : s.saveIn t list items = .ok u)
    (hne : other ≠ list) : s.itemsIn u other = s.itemsIn t other :=
  itemsIn_congr (FileTree.read_write_of_ne list.isEntryName other.isEntryName
    (StoredList.fileName_ne hne) h)

theorem logIn_of_read {log : Log}
    (h : t.read (s.path .unstaged) = .ok (Text.ofItems (log.map Change.render)).toUTF8)
    (hlog : log.IsProper) : s.logIn t = .ok log := by
  rw [logIn, itemsIn_of_read h, Text.items_ofItems hlog.isItem_render]
  exact congrArg Except.ok hlog.filterMap_read_render

theorem logIn_save_self {log : Log} (h : s.saveIn t .unstaged (log.map Change.render) = .ok u)
    (hlog : log.IsProper) : s.logIn u = .ok log :=
  logIn_of_read (FileTree.read_write_self StoredList.unstaged.isEntryName h) hlog

theorem logIn_save_of_ne {items : List String} (h : s.saveIn t list items = .ok u)
    (hne : .unstaged ≠ list) : s.logIn u = s.logIn t := by
  rw [logIn, itemsIn_save_of_ne h hne, logIn]

end Store

end PackageStaging
