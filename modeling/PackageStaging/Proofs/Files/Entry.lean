import PackageStaging.Proofs.Files.Walk

namespace PackageStaging

/-- A name of one component that is no way of naming a directory. -/
structure IsEntryName (name : String) : Prop where
  one_component : '/' ∉ name.toList
  ne_empty : name ≠ ""
  ne_here : name ≠ "."
  ne_outer : name ≠ ".."
  short : name.utf8ByteSize ≤ FileTree.longestName

namespace Path

def parts (p : Path) : List String :=
  match p.text.toList.getLast? with
  | none => []
  | some '/' => p.components.dropLast
  | some _ => p.components

theorem text_cases (p : Path) :
    p.text.toList = [] ∨ (∃ cs, p.text.toList = cs ++ ['/']) ∨
      ∃ cs c, c ≠ '/' ∧ p.text.toList = cs ++ [c] := by
  rcases List.eq_nil_or_concat p.text.toList with h | ⟨cs, c, h⟩
  · exact .inl h
  · by_cases hc : c = '/'
    · exact .inr (.inl ⟨cs, by simp [h, hc]⟩)
    · exact .inr (.inr ⟨cs, c, hc, by simp [h]⟩)

theorem parts_of_nil {p : Path} (h : p.text.toList = []) : p.parts = [] := by
  simp [parts, h]

theorem parts_of_slash {p : Path} {cs : List Char} (h : p.text.toList = cs ++ ['/']) :
    p.parts = (cs.splitOnP (· == '/')).map String.ofList ∧ p.components = p.parts ++ [""] := by
  have hsplit : p.components = (cs.splitOnP (· == '/')).map String.ofList ++ [""] := by
    simp [components, h, List.splitOnP_append_cons]
  simp [parts, h, hsplit]

theorem parts_of_other {p : Path} {cs : List Char} {c : Char} (hc : c ≠ '/')
    (h : p.text.toList = cs ++ [c]) : p.parts = p.components := by
  simp [parts, h]

theorem toList_child {p : Path} (name : String) :
    (p.child name).text.toList = p.text.toList ++ name.toList ∧
        (p.text.toList = [] ∨ ∃ cs, p.text.toList = cs ++ ['/']) ∨
      (p.child name).text.toList = p.text.toList ++ '/' :: name.toList ∧
        ∃ cs c, c ≠ '/' ∧ p.text.toList = cs ++ [c] := by
  rcases p.text_cases with h | ⟨cs, h⟩ | ⟨cs, c, hc, h⟩
  · exact .inl ⟨by simp [child, h], .inl h⟩
  · exact .inl ⟨by simp [child, h], .inr ⟨cs, h⟩⟩
  · exact .inr ⟨by simp [child, h], cs, c, hc, h⟩

theorem components_child (p : Path) {name : String} (hn : IsEntryName name) :
    (p.child name).components = p.parts ++ [name] := by
  have hname : name.toList.splitOnP (· == '/') = [name.toList] :=
    List.splitOnP_eq_singleton fun c hc ↦ by
      simpa using ne_of_mem_of_not_mem hc hn.one_component
  rcases p.toList_child name with ⟨ht, h | ⟨cs, h⟩⟩ | ⟨ht, cs, c, hc, h⟩
  · simp [components, ht, h, hname, parts_of_nil h]
  · simp [components, ht, h, hname, (parts_of_slash h).1, List.splitOnP_append_cons]
  · rw [parts_of_other hc h, components, ht, List.splitOnP_append_cons _ _ (by decide), hname]
    simp [components]

theorem isRooted_child (p : Path) {name : String} (hn : IsEntryName name) :
    (p.child name).isRooted = p.isRooted := by
  rcases p.toList_child name with ⟨ht, h | ⟨cs, h⟩⟩ | ⟨ht, cs, c, hc, h⟩
  · have hne : name.toList.head? ≠ some '/' :=
      fun he ↦ hn.one_component (List.mem_of_mem_head? he)
    simp [isRooted, ht, h, hne]
  · cases cs <;> simp [isRooted, ht, h]
  · cases cs <;> simp [isRooted, ht, h]

end Path

namespace FileTree

variable {t u : FileTree} {p : Path} {n m : String} {d : Place}

theorem origin_child (t : FileTree) (p : Path) (hn : IsEntryName n) :
    t.origin (p.child n) = t.origin p := by
  simp only [origin, p.isRooted_child hn]

theorem step_entry (hn : IsEntryName n) (h : t.IsDirectory d) : t.step d n = .ok (n :: d) := by
  obtain ⟨mode, hm⟩ := h
  have hshort := hn.short
  simp [step, hm, hn.ne_empty, hn.ne_here, hn.ne_outer, hshort]

/-- The directory that a path names stands at `d`. -/
structure Enters (t : FileTree) (p : Path) (d : Place) : Prop where
  walk : t.walk (t.origin p) p.parts = .ok d
  isDirectory : t.IsDirectory d

theorem Enters.unique {e : Place} (h : t.Enters p d) (h' : t.Enters p e) : d = e := by
  have hw := h.walk
  rw [h'.walk] at hw
  cases hw
  rfl

theorem Enters.mono (h : t.Enters p d) (hw : u.working = t.working)
    (hdir : ∀ place, t.IsDirectory place → u.IsDirectory place) : u.Enters p d where
  walk := by
    have ho : u.origin p = t.origin p := by simp only [origin, hw]
    rw [ho]
    exact walk_mono hdir h.walk
  isDirectory := hdir d h.isDirectory

/-- The path of the entry `n` of `p` can be walked, and the directory stands at `d`. -/
structure LeadsInto (t : FileTree) (p : Path) (n : String) (d : Place) : Prop where
  start : t.start (p.child n) = .ok (t.origin (p.child n))
  enters : t.Enters p d

theorem LeadsInto.locate (h : t.LeadsInto p n d) (hn : IsEntryName n) :
    t.locate (p.child n) = .ok (n :: d) := by
  simp only [FileTree.locate, h.start, p.components_child hn, bind, Except.bind]
  rw [walk_concat, origin_child t p hn, h.enters.walk]
  exact step_entry hn h.enters.isDirectory

theorem leadsInto_of_locate (hn : IsEntryName n) {place : Place}
    (h : t.locate (p.child n) = .ok place) : ∃ d, t.LeadsInto p n d ∧ place = n :: d := by
  unfold FileTree.locate at h
  cases hs : t.start (p.child n) with
  | error e => rw [hs] at h; cases h
  | ok first =>
    have hstart := start_ok hs t
    rw [hstart, p.components_child hn] at h
    obtain ⟨d, hd, hstep⟩ := walk_concat_ok h
    rw [origin_child t p hn] at hd
    have hdir := isDirectory_of_step hstep
    rw [step_entry hn hdir] at hstep
    cases hstep
    exact ⟨d, ⟨hstart, hd, hdir⟩, rfl⟩

theorem LeadsInto.mono (h : t.LeadsInto p n d) (hw : u.working = t.working)
    (hdir : ∀ place, t.IsDirectory place → u.IsDirectory place) : u.LeadsInto p n d :=
  ⟨start_ok h.start u, h.enters.mono hw hdir⟩

theorem read_of_stat? {content : ByteArray} {mode : Nat}
    (h : t.stat? p = some (.file content mode)) : t.read p = .ok content := by
  unfold stat? at h
  split at h
  · rename_i place hl
    simp only [read, hl, bind, Except.bind, h]
  · cases h

theorem read_of_stat?_directory {mode : Nat} (h : t.stat? p = some (.directory mode)) :
    t.read p = .error .isADirectory := by
  unfold stat? at h
  split at h
  · rename_i place hl
    simp only [read, hl, bind, Except.bind, h]
  · cases h

theorem read_of_stat?_none (h : t.stat? p = none) : ∃ e, t.read p = .error e := by
  unfold stat? at h
  split at h
  · rename_i place hl
    exact ⟨.notFound, by simp only [read, hl, bind, Except.bind, h]⟩
  · rename_i e hl
    exact ⟨e, by simp only [read, hl, bind, Except.bind]⟩

theorem stat?_of_read {content : ByteArray} (h : t.read p = .ok content) :
    ∃ mode, t.stat? p = some (.file content mode) := by
  unfold read at h
  unfold stat?
  cases hl : t.locate p with
  | error e => rw [hl] at h; cases h
  | ok place =>
    simp only [hl, bind, Except.bind] at h
    dsimp only
    cases hnode : t.node? place with
    | none => rw [hnode] at h; cases h
    | some node =>
      rw [hnode] at h
      cases node with
      | directory mode => cases h
      | file old mode => cases h; exact ⟨mode, rfl⟩

theorem LeadsInto.stat? (h : t.LeadsInto p n d) (hn : IsEntryName n) :
    t.stat? (p.child n) = t.node? (n :: d) := by
  simp [FileTree.stat?, h.locate hn]

theorem leadsInto_of_stat? (hn : IsEntryName n) {node : Node}
    (h : t.stat? (p.child n) = some node) : ∃ d, t.LeadsInto p n d ∧ t.node? (n :: d) = node := by
  unfold FileTree.stat? at h
  split at h
  · rename_i place hl
    obtain ⟨d, hd, rfl⟩ := leadsInto_of_locate hn hl
    exact ⟨d, hd, h⟩
  · cases h

theorem LeadsInto.write_eq (h : t.LeadsInto p n d) (hn : IsEntryName n) (content : ByteArray) :
    t.write (p.child n) content = match t.node? (n :: d) with
      | some (.directory _) => .error .isADirectory
      | some (.file _ mode) => .ok (t.put (n :: d) (.file content mode))
      | none => .ok (t.put (n :: d) (.file content newFileMode)) := by
  have hlast : ¬ (p.child n).components.getLast? = some "" := by
    simp [p.components_child hn, hn.ne_empty]
  have hwalk : t.walk (t.origin (p.child n)) (p.child n).components = .ok (n :: d) := by
    have hl := h.locate hn
    simpa only [FileTree.locate, h.start, bind, Except.bind] using hl
  simp only [FileTree.write, h.start, hlast, if_false, bind, Except.bind, hwalk]
  split <;> simp_all [throw, throwThe, MonadExceptOf.throw, pure, Except.pure]

theorem leadsInto_of_write (hn : IsEntryName n) {content : ByteArray}
    (h : t.write (p.child n) content = .ok u) : ∃ d, t.LeadsInto p n d := by
  have hlast : ¬ (p.child n).components.getLast? = some "" := by
    simp [p.components_child hn, hn.ne_empty]
  cases hl : t.locate (p.child n) with
  | ok place =>
    obtain ⟨d, hd, -⟩ := leadsInto_of_locate hn hl
    exact ⟨d, hd⟩
  | error e =>
    simp only [FileTree.write, hlast, if_false] at h
    simp only [FileTree.locate] at hl
    cases hs : t.start (p.child n) with
    | error e => rw [hs] at h; cases h
    | ok first =>
      rw [hs] at h hl
      have hw : t.walk first (p.child n).components = .error e := hl
      simp only [bind, Except.bind, hw] at h
      cases h

theorem write_ok (hn : IsEntryName n) {content : ByteArray}
    (h : t.write (p.child n) content = .ok u) :
    ∃ d mode, t.LeadsInto p n d ∧ ¬ t.IsDirectory (n :: d) ∧
      u = t.put (n :: d) (.file content mode) := by
  obtain ⟨d, hd⟩ := leadsInto_of_write hn h
  rw [hd.write_eq hn] at h
  refine ⟨d, ?_⟩
  cases hnode : t.node? (n :: d) with
  | none =>
    rw [hnode] at h
    cases h
    exact ⟨newFileMode, hd, fun ⟨_, hm⟩ ↦ by simp [hnode] at hm, rfl⟩
  | some node =>
    cases node with
    | directory mode => rw [hnode] at h; cases h
    | file old mode =>
      rw [hnode] at h
      cases h
      exact ⟨mode, hd, fun ⟨_, hm⟩ ↦ by simp [hnode] at hm, rfl⟩

theorem write_of_file (hn : IsEntryName n) {old : ByteArray} {mode : Nat}
    (h : t.stat? (p.child n) = some (.file old mode)) (content : ByteArray) :
    ∃ u, t.write (p.child n) content = .ok u := by
  obtain ⟨d, hd, hnode⟩ := leadsInto_of_stat? hn h
  rw [hd.write_eq hn, hnode]
  exact ⟨_, rfl⟩

theorem working_write (hn : IsEntryName n) {content : ByteArray}
    (h : t.write (p.child n) content = .ok u) : u.working = t.working := by
  obtain ⟨d, mode, -, -, rfl⟩ := write_ok hn h
  rfl

theorem isDirectory_write (hn : IsEntryName n) {content : ByteArray}
    (h : t.write (p.child n) content = .ok u) (place : Place) :
    u.IsDirectory place ↔ t.IsDirectory place := by
  obtain ⟨d, mode, -, hdir, rfl⟩ := write_ok hn h
  exact isDirectory_put_file hdir content mode place

theorem Enters.write (hd : t.Enters p d) (hn : IsEntryName n) {q : Path} {content : ByteArray}
    (h : t.write (q.child n) content = .ok u) : u.Enters p d :=
  hd.mono (working_write hn h) fun place ↦ (isDirectory_write hn h place).2

theorem LeadsInto.write (hd : t.LeadsInto p m d) (hn : IsEntryName n) {q : Path}
    {content : ByteArray} (h : t.write (q.child n) content = .ok u) : u.LeadsInto p m d :=
  hd.mono (working_write hn h) fun place ↦ (isDirectory_write hn h place).2

theorem locate_write (hn : IsEntryName n) (hm : IsEntryName m) {content : ByteArray}
    (h : t.write (p.child n) content = .ok u) :
    u.locate (p.child m) = t.locate (p.child m) := by
  obtain ⟨d, hd⟩ := leadsInto_of_write hn h
  cases hs : t.start (p.child m) with
  | error e => simp only [FileTree.locate, hs, start_error hs u, bind, Except.bind]
  | ok first =>
    have hmd : t.LeadsInto p m d := ⟨start_ok hs t, hd.enters⟩
    have hmu : u.LeadsInto p m d := ⟨start_ok hs u, hd.enters.write hn h⟩
    rw [hmd.locate hm, hmu.locate hm]

theorem node?_write_of_ne (hn : IsEntryName n) (hm : IsEntryName m) (hne : m ≠ n)
    {content : ByteArray} (h : t.write (p.child n) content = .ok u) {place : Place}
    (hl : t.locate (p.child m) = .ok place) : u.node? place = t.node? place := by
  obtain ⟨d, mode, hd, -, rfl⟩ := write_ok hn h
  obtain ⟨e, he, rfl⟩ := leadsInto_of_locate hm hl
  obtain rfl := hd.enters.unique he.enters
  exact node?_put_of_ne _ _ (by simp [hne])

theorem stat?_write_self (hn : IsEntryName n) {content : ByteArray}
    (h : t.write (p.child n) content = .ok u) :
    ∃ mode, u.stat? (p.child n) = some (.file content mode) := by
  have hl := locate_write hn hn h
  obtain ⟨d, mode, hd, -, rfl⟩ := write_ok hn h
  rw [hd.locate hn] at hl
  exact ⟨mode, by simp [FileTree.stat?, hl]⟩

theorem stat?_write_of_ne (hn : IsEntryName n) (hm : IsEntryName m) (hne : m ≠ n)
    {content : ByteArray} (h : t.write (p.child n) content = .ok u) :
    u.stat? (p.child m) = t.stat? (p.child m) := by
  simp only [FileTree.stat?, locate_write hn hm h]
  cases hl : t.locate (p.child m) with
  | error e => rfl
  | ok place => exact node?_write_of_ne hn hm hne h hl

theorem read_write_self (hn : IsEntryName n) {content : ByteArray}
    (h : t.write (p.child n) content = .ok u) : u.read (p.child n) = .ok content := by
  have hl := locate_write hn hn h
  obtain ⟨d, mode, hd, -, rfl⟩ := write_ok hn h
  rw [hd.locate hn] at hl
  simp [FileTree.read, hl, bind, Except.bind]

theorem put_of_node? {place : Place} {node : Node} (h : t.node? place = some node) :
    t.put place node = t := by
  have hnode : (t.put place node).node? = t.node? := by
    funext q
    by_cases hq : q = place
    · rw [hq, node?_put_self, h]
    · exact node?_put_of_ne t node hq
  calc t.put place node = { t with node? := (t.put place node).node? } := rfl
    _ = t := by rw [hnode]

theorem write_read_self (hn : IsEntryName n) {content : ByteArray}
    (h : t.read (p.child n) = .ok content) : t.write (p.child n) content = .ok t := by
  obtain ⟨mode, hm⟩ := stat?_of_read h
  obtain ⟨d, hd, hnode⟩ := leadsInto_of_stat? hn hm
  rw [hd.write_eq hn, hnode]
  exact congrArg Except.ok (put_of_node? hnode)

theorem read_write_of_ne (hn : IsEntryName n) (hm : IsEntryName m) (hne : m ≠ n)
    {content : ByteArray} (h : t.write (p.child n) content = .ok u) :
    u.read (p.child m) = t.read (p.child m) := by
  simp only [FileTree.read, locate_write hn hm h]
  cases hl : t.locate (p.child m) with
  | error e => rfl
  | ok place => simp only [bind, Except.bind, node?_write_of_ne hn hm hne h hl]

end FileTree

end PackageStaging
