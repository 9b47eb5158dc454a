import PackageStaging.Proofs.Change.Lists
import PackageStaging.Proofs.Files.Alteration
import PackageStaging.Proofs.Store.Contents

namespace PackageStaging

open Text (IsItem)

theorem StageError.isStorage_ofFile (p : Path) (e : FileError) : (ofFile p e).isStorage := by
  cases e <;> rfl

namespace Store

variable (s : Store) (c : Change) (t : FileTree)

/-- A list does not load, or cannot be saved. -/
inductive IsStuck : Prop
  | load {list : StoredList} {e : StageError} (h : s.itemsIn t list = .error e)
  | save {list : StoredList} {items : List String} {e : FileError}
      (h : s.saveIn t list items = .error e)

def Logged (u : FileTree) : Prop :=
  ∃ log, s.logIn t = .ok log ∧
    s.saveIn t .unstaged ((Log.net (log ++ [c])).map Change.render) = .ok u

/-- The name of a change was taken out of the opposite list, or stands in its own. -/
inductive Moved : FileTree → Prop
  | takenBack {names : List String} {u : FileTree}
      (load : s.itemsIn t (.ofOperation c.operation.opposite) = .ok names) (mem : c.name ∈ names)
      (save : s.saveIn t (.ofOperation c.operation.opposite) (names.erase c.name) = .ok u) :
      Moved u
  | kept {others names : List String}
      (load_opposite : s.itemsIn t (.ofOperation c.operation.opposite) = .ok others)
      (not_mem_opposite : c.name ∉ others)
      (load : s.itemsIn t (.ofOperation c.operation) = .ok names) (mem : c.name ∈ names) : Moved t
  | recorded {others names : List String} {u : FileTree}
      (load_opposite : s.itemsIn t (.ofOperation c.operation.opposite) = .ok others)
      (not_mem_opposite : c.name ∉ others)
      (load : s.itemsIn t (.ofOperation c.operation) = .ok names) (not_mem : c.name ∉ names)
      (save : s.saveIn t (.ofOperation c.operation) (names ++ [c.name]) = .ok u) : Moved u

variable {s c t}

theorem isStorage_of_itemsIn {list : StoredList} {e : StageError}
    (h : s.itemsIn t list = .error e) : e.isStorage := by
  unfold itemsIn at h
  split at h
  · cases h
  · cases h
  · cases h
    exact StageError.isStorage_ofFile _ _

theorem itemsIn_of_logIn_error {e : StageError} (h : s.logIn t = .error e) :
    s.itemsIn t .unstaged = .error e := by
  unfold logIn at h
  cases hl : s.itemsIn t .unstaged with
  | ok lines => rw [hl] at h; cases h
  | error e' => rw [hl] at h; cases h; rfl

theorem Logged.itemsIn {u : FileTree} (h : s.Logged c t u) (list : StoredList)
    (hne : list ≠ .unstaged) : s.itemsIn u list = s.itemsIn t list := by
  obtain ⟨log, -, hsave⟩ := h
  exact itemsIn_save_of_ne hsave hne

theorem Logged.read_log {u : FileTree} {log : Log} (h : s.Logged c t u)
    (hlog : s.logIn t = .ok log) : u.read (s.path .unstaged) =
      .ok (Text.ofItems ((Log.net (log ++ [c])).map Change.render)).toUTF8 := by
  obtain ⟨held, hheld, hsave⟩ := h
  obtain rfl : log = held := Except.ok.inj (hlog.symm.trans hheld)
  exact FileTree.read_write_self StoredList.unstaged.isEntryName hsave

def HoldsNames (s : Store) (t : FileTree) (names : Operation → List String) : Prop :=
  ∀ o, s.itemsIn t (.ofOperation o) = .ok (names o)

/-- The lists of a store as they load. -/
structure Holds (s : Store) (t : FileTree) (l : Lists) : Prop where
  names : s.HoldsNames t l.names
  log : s.logIn t = .ok l.log

def Stands (s : Store) (t : FileTree) : Prop :=
  ∀ list, ∃ content mode, t.stat? (s.path list) = some (.file content mode)

variable {u v : FileTree} {names : Operation → List String} {l : Lists}

theorem HoldsNames.eq (h : s.HoldsNames t names) {o : Operation} {items : List String}
    (hitems : s.itemsIn t (.ofOperation o) = .ok items) : names o = items := by
  simpa [h o] using hitems

theorem HoldsNames.isItem (h : s.HoldsNames t names) {o : Operation} {n : String}
    (hn : n ∈ names o) : IsItem n := isItem_of_mem_itemsIn (h o) n hn

theorem HoldsNames.saveLog {items : List String} (h : s.HoldsNames t names)
    (hsave : s.saveIn t .unstaged items = .ok u) : s.HoldsNames u names :=
  fun o ↦ (itemsIn_save_of_ne hsave (StoredList.ofOperation_ne_unstaged o)).trans (h o)

theorem HoldsNames.logged (h : s.HoldsNames t names) (hlog : s.Logged c t u) :
    s.HoldsNames u names := by
  obtain ⟨log, -, hsave⟩ := hlog
  exact h.saveLog hsave

theorem HoldsNames.save (h : s.HoldsNames t names) {o : Operation} {items : List String}
    (hitems : ∀ x ∈ items, IsItem x) (hsave : s.saveIn t (.ofOperation o) items = .ok u) :
    s.HoldsNames u (Function.update names o items) := by
  intro p
  by_cases hp : p = o
  · subst hp
    simpa using itemsIn_save_self hsave hitems
  · have hne : StoredList.ofOperation p ≠ .ofOperation o := mt StoredList.ofOperation_inj hp
    simpa [hp] using (itemsIn_save_of_ne hsave hne).trans (h p)

theorem HoldsNames.move_cases (h : s.HoldsNames t names) (hmoved : s.Moved c t u) :
    Lists.move names c = names ∧ u = t ∨
      ∃ o items, Lists.move names c = Function.update names o items ∧
        s.saveIn t (.ofOperation o) items = .ok u := by
  cases hmoved with
  | takenBack load mem save =>
    obtain rfl := h.eq load
    exact .inr ⟨_, _, if_pos mem, save⟩
  | kept load_opposite not_mem_opposite load mem =>
    obtain rfl := h.eq load_opposite
    obtain rfl := h.eq load
    exact .inl ⟨by simp only [Lists.move, not_mem_opposite, mem, if_true, if_false], rfl⟩
  | recorded load_opposite not_mem_opposite load not_mem save =>
    obtain rfl := h.eq load_opposite
    obtain rfl := h.eq load
    exact .inr ⟨_, _, by simp only [Lists.move, not_mem_opposite, not_mem, if_false], save⟩

theorem HoldsNames.moved (h : s.HoldsNames t names) (hc : IsItem c.name) (hmoved : s.Moved c t u) :
    s.HoldsNames u (Lists.move names c) := by
  rcases h.move_cases hmoved with ⟨hnames, rfl⟩ | ⟨o, items, hnames, hsave⟩
  · rwa [hnames]
  · have hitems : Lists.move names c o = items := by rw [hnames, Function.update_self]
    rw [hnames]
    refine h.save (fun n hn ↦ ?_) hsave
    rw [← hitems] at hn
    rcases Lists.mem_move hn with hn | rfl
    · exact h.isItem hn
    · exact hc

theorem itemsIn_make {list : StoredList} {items : List String}
    (hnone : t.stat? (s.path list) = none) (hload : s.itemsIn t list = .ok items)
    (hsave : s.saveIn t list [] = .ok u) (other : StoredList) :
    s.itemsIn u other = s.itemsIn t other := by
  by_cases ho : other = list
  · subst ho
    rw [itemsIn_save_self hsave (by simp), hload, itemsIn_of_absent hnone hload]
  · exact itemsIn_save_of_ne hsave ho

theorem HoldsNames.make (h : s.HoldsNames t names) {list : StoredList}
    (hnone : t.stat? (s.path list) = none) (hsave : s.saveIn t list [] = .ok u) :
    s.HoldsNames u names := by
  intro o
  by_cases ho : .ofOperation o = list
  · subst ho
    exact (itemsIn_make hnone (h o) hsave _).trans (h o)
  · exact (itemsIn_save_of_ne hsave ho).trans (h o)

theorem Moved.unchanged_or_saved (h : s.Moved c t u) :
    u = t ∨ ∃ o items, s.saveIn t (.ofOperation o) items = .ok u := by
  cases h with
  | takenBack load mem save => exact .inr ⟨_, _, save⟩
  | kept => exact .inl rfl
  | recorded load_opposite not_mem_opposite load not_mem save => exact .inr ⟨_, _, save⟩

theorem Moved.read_log (h : s.Moved c t u) :
    u.read (s.path .unstaged) = t.read (s.path .unstaged) := by
  rcases h.unchanged_or_saved with rfl | ⟨o, items, hsave⟩
  · rfl
  · exact FileTree.read_write_of_ne (StoredList.ofOperation o).isEntryName
      StoredList.unstaged.isEntryName
      (StoredList.fileName_ne (StoredList.ofOperation_ne_unstaged o).symm) hsave

theorem Moved.logIn (h : s.Moved c t u) : s.logIn u = s.logIn t := by
  rw [Store.logIn, itemsIn_congr h.read_log, ← Store.logIn]

theorem Holds.logged (hl : s.Holds t l) (hc : IsItem c.name) (h : s.Logged c t u) :
    s.Holds u { l with log := Log.net (l.log ++ [c]) } where
  names := hl.names.logged h
  log := by
    obtain ⟨log, hlog, hsave⟩ := h
    obtain rfl : l.log = log := by simpa [hl.log] using hlog
    exact logIn_save_self hsave ((isProper_logIn hlog).append hc).net

theorem Holds.stage (hl : s.Holds t l) (hc : IsItem c.name) (hlog : s.Logged c t u)
    (hmoved : s.Moved c u v) : s.Holds v (l.stage c) where
  names := (hl.names.logged hlog).moved hc hmoved
  log := hmoved.logIn.trans (hl.logged hc hlog).log

theorem Holds.clear (hl : s.Holds t l) (h : s.saveIn t .unstaged [] = .ok u) :
    s.Holds u l.clear where
  names := hl.names.saveLog h
  log := by
    have hlog : s.saveIn t .unstaged (([] : Log).map Change.render) = .ok u := h
    exact logIn_save_self hlog (by simp [Log.IsProper, Lists.clear])

theorem Logged.changesOnly (h : s.Logged c t u) : t.ChangesOnly u [s.path .unstaged] := by
  obtain ⟨log, -, hsave⟩ := h
  exact FileTree.changesOnly_write hsave

theorem Moved.changesOnly (h : s.Moved c t u) :
    ∃ o, t.ChangesOnly u [s.path (.ofOperation o)] := by
  rcases h.unchanged_or_saved with rfl | ⟨o, items, hsave⟩
  · exact ⟨c.operation, .refl u _⟩
  · exact ⟨o, FileTree.changesOnly_write hsave⟩

theorem Stands.changesOnly {paths : List Path} (hs : s.Stands t) (h : t.ChangesOnly u paths) :
    s.Stands u := by
  intro list
  obtain ⟨content, mode, hm⟩ := hs list
  exact h.isFile hm

theorem Stands.write {p : Path} {content : ByteArray} (hs : s.Stands t)
    (h : t.write p content = .ok u) : s.Stands u :=
  hs.changesOnly (FileTree.changesOnly_write h)

theorem Stands.logged (hs : s.Stands t) (h : s.Logged c t u) : s.Stands u :=
  hs.changesOnly h.changesOnly

theorem Stands.moved (hs : s.Stands t) (h : s.Moved c t u) : s.Stands u := by
  obtain ⟨o, hchanges⟩ := h.changesOnly
  exact hs.changesOnly hchanges

theorem Stands.exists_save (hs : s.Stands t) (list : StoredList) (items : List String) :
    ∃ u, s.saveIn t list items = .ok u := by
  obtain ⟨content, mode, hm⟩ := hs list
  exact FileTree.write_of_file list.isEntryName hm _

theorem Stands.not_isStuck (hs : s.Stands t) (hl : s.Holds t l) : ¬ s.IsStuck t := by
  rintro (@⟨list, e, he⟩ | @⟨list, items, e, he⟩)
  · cases list with
    | add => cases he.symm.trans (hl.names .add)
    | remove => cases he.symm.trans (hl.names .remove)
    | unstaged =>
      have hlog := hl.log
      rw [logIn, he] at hlog
      cases hlog
  · obtain ⟨u, hu⟩ := hs.exists_save list items
    rw [hu] at he
    cases he

theorem enters_save {list : StoredList} {items : List String} {p : Path} {d : Place}
    (hd : t.Enters p d) (h : s.saveIn t list items = .ok u) : u.Enters p d :=
  hd.write list.isEntryName h

theorem Logged.enters {p : Path} {d : Place} (h : s.Logged c t u) (hd : t.Enters p d) :
    u.Enters p d := by
  obtain ⟨log, -, hsave⟩ := h
  exact enters_save hd hsave

theorem Moved.enters {p : Path} {d : Place} (h : s.Moved c t u) (hd : t.Enters p d) :
    u.Enters p d := by
  rcases h.unchanged_or_saved with rfl | ⟨o, items, hsave⟩
  · exact hd
  · exact enters_save hd hsave

section Other

variable {n : String} {content : ByteArray} (hn : IsEntryName n)
  (hother : ∀ list : StoredList, n ≠ list.fileName)
  (h : t.write (s.base.child n) content = .ok u)

include hn hother h

theorem itemsIn_write_other (list : StoredList) : s.itemsIn u list = s.itemsIn t list :=
  itemsIn_congr (FileTree.read_write_of_ne hn list.isEntryName (hother list).symm h)

theorem HoldsNames.write_other (hnames : s.HoldsNames t names) : s.HoldsNames u names :=
  fun o ↦ (itemsIn_write_other hn hother h _).trans (hnames o)

theorem Holds.write_other (hl : s.Holds t l) : s.Holds u l where
  names := hl.names.write_other hn hother h
  log := by
    have hlog := hl.log
    rwa [logIn, ← itemsIn_write_other hn hother h, ← logIn] at hlog

end Other

end Store

end PackageStaging
