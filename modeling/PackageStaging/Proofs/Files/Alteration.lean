import PackageStaging.Proofs.Files.Entry

namespace PackageStaging.FileTree

variable {t u v : FileTree} {p q : Path} {place other : Place}

theorem exists_locate_of_stat? {node : Node} (h : t.stat? p = some node) :
    ∃ place, t.locate p = .ok place ∧ t.node? place = some node := by
  unfold stat? at h
  split at h
  · rename_i place hl
    exact ⟨place, hl, h⟩
  · cases h

theorem read_eq_of_locate (hp : t.locate p = .ok place) (hq : t.locate q = .ok place) :
    t.read p = t.read q := by
  simp only [read, hp, hq]

/-- Trees with the same directories: whatever path can be walked in one leads there in the other. -/
structure SameDirectories (t u : FileTree) : Prop where
  working : u.working = t.working
  isDirectory (q : Place) : u.IsDirectory q ↔ t.IsDirectory q

theorem SameDirectories.refl (t : FileTree) : t.SameDirectories t := ⟨rfl, fun _ ↦ Iff.rfl⟩

theorem SameDirectories.trans (h : t.SameDirectories u) (h' : u.SameDirectories v) :
    t.SameDirectories v :=
  ⟨h'.working.trans h.working, fun q ↦ (h'.isDirectory q).trans (h.isDirectory q)⟩

theorem locate_mono (hworking : u.working = t.working)
    (hdir : ∀ q, t.IsDirectory q → u.IsDirectory q) (h : t.locate p = .ok place) :
    u.locate p = .ok place := by
  unfold FileTree.locate at h ⊢
  cases hs : t.start p with
  | error e => rw [hs] at h; cases h
  | ok first =>
    have hstart := start_ok hs t
    rw [hstart] at h
    have horigin : u.origin p = t.origin p := by rw [origin, origin, hworking]
    rw [start_ok hs u, horigin]
    exact walk_mono hdir h

theorem SameDirectories.locate_iff (h : t.SameDirectories u) :
    u.locate p = .ok place ↔ t.locate p = .ok place :=
  ⟨locate_mono h.working.symm fun q ↦ (h.isDirectory q).1,
    locate_mono h.working fun q ↦ (h.isDirectory q).2⟩

theorem sameDirectories_write_child {n : String} {content : ByteArray} (hn : IsEntryName n)
    (h : t.write (p.child n) content = .ok u) : t.SameDirectories u :=
  ⟨working_write hn h, isDirectory_write hn h⟩

/-- A tree was altered at one place, where something stands now. -/
structure Alters (t u : FileTree) (place : Place) : Prop extends SameDirectories t u where
  isSome : (u.node? place).isSome
  elsewhere (q : Place) (h : q ≠ place) : u.node? q = t.node? q

theorem alters_put {node : Node} (h : (∃ mode, node = .directory mode) ↔ t.IsDirectory place) :
    t.Alters (t.put place node) place where
  working := rfl
  isDirectory q := by
    by_cases hq : q = place
    · subst hq
      rw [← h, IsDirectory, node?_put_self]
      simp only [Option.some.injEq]
    · rw [IsDirectory, node?_put_of_ne _ _ hq, IsDirectory]
  isSome := by rw [node?_put_self]; rfl
  elsewhere q hq := node?_put_of_ne _ _ hq

theorem Alters.trans (h : t.Alters u place) (h' : u.Alters v place) : t.Alters v place where
  toSameDirectories := h.toSameDirectories.trans h'.toSameDirectories
  isSome := h'.isSome
  elsewhere q hq := (h'.elsewhere q hq).trans (h.elsewhere q hq)

theorem Alters.isSome_stat? (h : t.Alters u place) (hp : (t.stat? p).isSome) :
    (u.stat? p).isSome := by
  unfold stat? at hp ⊢
  cases hl : t.locate p with
  | error e => simp [hl] at hp
  | ok other =>
    simp only [hl] at hp
    simp only [h.locate_iff.2 hl]
    by_cases ho : other = place
    · rw [ho]; exact h.isSome
    · rwa [h.elsewhere other ho]

theorem Alters.stat?_eq (h : t.Alters u place) (hl : t.locate p = .ok other)
    (hother : other ≠ place) : u.stat? p = t.stat? p := by
  rw [stat?, stat?, h.locate_iff.2 hl, hl]
  exact h.elsewhere other hother

theorem Alters.read_eq (h : t.Alters u place) (hl : t.locate p = .ok other)
    (hother : other ≠ place) : u.read p = t.read p := by
  simp only [read, h.locate_iff.2 hl, hl, bind, Except.bind, h.elsewhere other hother]

/-- To write puts a file at the place of the path, where no directory may stand. -/
theorem put_of_write {content : ByteArray} (h : t.write p content = .ok u) :
    ∃ place mode, t.locate p = .ok place ∧ ¬ t.IsDirectory place ∧
      u = t.put place (.file content mode) := by
  unfold write at h
  cases hs : t.start p with
  | error e => rw [hs] at h; cases h
  | ok first =>
    rw [hs] at h
    simp only [bind, Except.bind] at h
    split at h
    · -- A path that ends in a slash is refused, however far it can be walked.
      cases hw : t.walk first (entryComponents p).dropLast with
      | error e => rw [hw] at h; cases h
      | ok parent =>
        simp only [hw] at h
        cases hstep : t.step parent "" with
        | error e => rw [hstep] at h; cases h
        | ok next => rw [hstep] at h; cases h
    · cases hw : t.walk first p.components with
      | error e => rw [hw] at h; cases h
      | ok place =>
        have hlocate : t.locate p = .ok place := by
          simp only [FileTree.locate, hs, bind, Except.bind, hw]
        simp only [hw] at h
        cases hnode : t.node? place with
        | none =>
          rw [hnode] at h
          cases h
          refine ⟨place, _, hlocate, ?_, rfl⟩
          rintro ⟨_, hm⟩
          simp [hnode] at hm
        | some node =>
          cases node with
          | directory mode => rw [hnode] at h; cases h
          | file old mode =>
            rw [hnode] at h
            cases h
            refine ⟨place, _, hlocate, ?_, rfl⟩
            rintro ⟨_, hm⟩
            simp [hnode] at hm

theorem alters_write {content : ByteArray} (h : t.write p content = .ok u) :
    ∃ place, t.locate p = .ok place ∧ t.Alters u place := by
  obtain ⟨place, mode, hlocate, hno, rfl⟩ := put_of_write h
  exact ⟨place, hlocate, alters_put (iff_of_false (by simp) hno)⟩

theorem read_write {content : ByteArray} (h : t.write p content = .ok u) :
    u.read p = .ok content := by
  obtain ⟨place, hlocate, halters⟩ := alters_write h
  obtain ⟨place', mode, hlocate', -, rfl⟩ := put_of_write h
  obtain rfl : place = place' := Except.ok.inj (hlocate.symm.trans hlocate')
  simp only [read, halters.locate_iff.2 hlocate, bind, Except.bind, node?_put_self]

theorem alters_setMode {mode : Nat} (h : t.setMode p mode = .ok u) :
    ∃ place, t.locate p = .ok place ∧ t.Alters u place := by
  unfold setMode at h
  cases hl : t.locate p with
  | error e => rw [hl] at h; cases h
  | ok place =>
    rw [hl] at h
    simp only [bind, Except.bind] at h
    refine ⟨place, rfl, ?_⟩
    cases hnode : t.node? place with
    | none => rw [hnode] at h; cases h
    | some node =>
      rw [hnode] at h
      cases node with
      | directory old =>
        cases h
        exact alters_put (iff_of_true ⟨_, rfl⟩ ⟨_, hnode⟩)
      | file content old =>
        cases h
        exact alters_put (iff_of_false (by simp) fun ⟨_, hm⟩ ↦ by simp [hnode] at hm)

theorem read_setMode {mode : Nat} {content : ByteArray} (h : t.setMode p mode = .ok u)
    (hread : t.read q = .ok content) : u.read q = .ok content := by
  obtain ⟨place, hplace, halters⟩ := alters_setMode h
  unfold read at hread ⊢
  cases hq : t.locate q with
  | error e => rw [hq] at hread; cases hread
  | ok other =>
    rw [hq] at hread
    simp only [halters.locate_iff.2 hq, bind, Except.bind] at hread ⊢
    by_cases ho : other = place
    · subst ho
      unfold setMode at h
      rw [hplace] at h
      simp only [bind, Except.bind] at h
      cases hnode : t.node? other with
      | none => rw [hnode] at h; cases h
      | some node =>
        rw [hnode] at h hread
        cases node with
        | directory old => cases hread
        | file old mode' =>
          cases h
          rw [node?_put_self]
          exact hread
    · rwa [halters.elsewhere other ho]

/-- A tree was changed at most where some paths lead, and nothing in it went away. -/
structure ChangesOnly (t u : FileTree) (paths : List Path) : Prop extends SameDirectories t u where
  stands (q : Place) (h : (t.node? q).isSome) : (u.node? q).isSome
  elsewhere (q : Place) (h : ∀ p ∈ paths, t.locate p ≠ .ok q) : u.node? q = t.node? q

variable {paths others : List Path}

theorem ChangesOnly.refl (t : FileTree) (paths : List Path) : t.ChangesOnly t paths where
  toSameDirectories := .refl t
  stands _ h := h
  elsewhere _ _ := rfl

theorem ChangesOnly.mono (h : t.ChangesOnly u paths) (hsub : paths ⊆ others) :
    t.ChangesOnly u others where
  toSameDirectories := h.toSameDirectories
  stands := h.stands
  elsewhere q hq := h.elsewhere q fun p hp ↦ hq p (hsub hp)

theorem ChangesOnly.trans (h : t.ChangesOnly u paths) (h' : u.ChangesOnly v others) :
    t.ChangesOnly v (paths ++ others) where
  toSameDirectories := h.toSameDirectories.trans h'.toSameDirectories
  stands q hq := h'.stands q (h.stands q hq)
  elsewhere q hq := by
    have hfirst := h.elsewhere q fun p hp ↦ hq p (List.mem_append_left _ hp)
    -- The paths of the second change lead in `u` where they led in `t`.
    have hsecond := h'.elsewhere q fun p hp hl ↦
      hq p (List.mem_append_right _ hp) (h.locate_iff.1 hl)
    rw [hsecond, hfirst]

theorem Alters.changesOnly (h : t.Alters u place) (hp : t.locate p = .ok place) :
    t.ChangesOnly u [p] where
  toSameDirectories := h.toSameDirectories
  stands q hq := by
    by_cases hplace : q = place
    · rw [hplace]; exact h.isSome
    · rwa [h.elsewhere q hplace]
  elsewhere q hq := by
    refine h.elsewhere q ?_
    rintro rfl
    exact hq p (List.mem_singleton_self p) hp

theorem changesOnly_write {content : ByteArray} (h : t.write p content = .ok u) :
    t.ChangesOnly u [p] := by
  obtain ⟨place, hplace, halters⟩ := alters_write h
  exact halters.changesOnly hplace

theorem ChangesOnly.stat?_eq (h : t.ChangesOnly u paths)
    (hp : ∀ q ∈ paths, ∀ place, t.locate p = .ok place → t.locate q ≠ .ok place) :
    u.stat? p = t.stat? p := by
  unfold stat?
  cases hl : t.locate p with
  | ok place =>
    simp only [h.locate_iff.2 hl]
    exact h.elsewhere place fun q hq ↦ hp q hq place hl
  | error e =>
    cases hu : u.locate p with
    | error e => rfl
    | ok place => simp [h.locate_iff.1 hu] at hl

theorem ChangesOnly.isFile (h : t.ChangesOnly u paths) {content : ByteArray} {mode : Nat}
    (hp : t.stat? p = some (.file content mode)) :
    ∃ content mode, u.stat? p = some (.file content mode) := by
  obtain ⟨q, hq, hnode⟩ := exists_locate_of_stat? hp
  have hstat : u.stat? p = u.node? q := by rw [stat?, h.locate_iff.2 hq]
  obtain ⟨node, hu⟩ := Option.isSome_iff_exists.1 (h.stands q (by rw [hnode]; rfl))
  cases node with
  | directory mode =>
    obtain ⟨_, hm⟩ := (h.isDirectory q).1 ⟨mode, hu⟩
    rw [hnode] at hm
    cases hm
  | file content mode => exact ⟨content, mode, hstat.trans hu⟩

end PackageStaging.FileTree
