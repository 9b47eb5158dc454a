import PackageStaging.Proofs.Files.Growth
import PackageStaging.Proofs.Session.Staging

namespace PackageStaging

namespace Store

variable {s : Store} {base : Path} {w v : World}

theorem ensure_cases {list : StoredList} {r : Except StageError Unit}
    (h : w.perform (s.ensure list) = (r, v)) :
    r = .ok () ∧ v = w ∧ (w.tree.stat? (s.path list)).isSome ∨
      w.tree.stat? (s.path list) = none ∧ w.perform (s.save list []) = (r, v) := by
  have hexists : (FileSystem.exists? (s.path list) : Simulation Bool) w =
      ((w.tree.stat? (s.path list)).isSome, w) := rfl
  rw [ensure, World.perform_bind, World.perform_lift, hexists] at h
  cases hstat : w.tree.stat? (s.path list) with
  | some node =>
    rw [hstat] at h
    cases h
    exact .inl ⟨rfl, rfl, rfl⟩
  | none =>
    rw [hstat] at h
    exact .inr ⟨rfl, h⟩

theorem ensureAll_induction {P : FileTree → Prop}
    (hstep : ∀ list t u, P t → t.stat? (s.path list) = none → s.saveIn t list [] = .ok u → P u)
    {lists : List StoredList} {r : Except StageError Unit} (hw : P w.tree)
    (h : w.perform (lists.forM fun list ↦ s.ensure list) = (r, v)) : P v.tree := by
  induction lists generalizing w with
  | nil => cases h; exact hw
  | cons list lists ih =>
    have hensure (q : Except StageError Unit) (u : World)
        (h : w.perform (s.ensure list) = (q, u)) : P u.tree := by
      rcases ensure_cases h with ⟨-, rfl, -⟩ | ⟨hnone, hmake⟩
      · exact hw
      · rcases save_cases hmake with ⟨-, hsave⟩ | hstall
        · exact hstep _ _ _ hw hnone hsave
        · rw [hstall.unchanged]; exact hw
    rcases World.perform_bind_cases h with ⟨e, h, -⟩ | ⟨_, u, hfirst, h⟩
    · exact hensure _ _ h
    · exact ih (hensure _ _ hfirst) h

theorem exists_of_ensureAll {lists : List StoredList}
    (h : w.perform (lists.forM fun list ↦ s.ensure list) = (.ok (), v)) :
    ∀ list ∈ lists, (v.tree.stat? (s.path list)).isSome := by
  induction lists generalizing w with
  | nil => simp
  | cons list lists ih =>
    rcases World.perform_bind_cases h with ⟨e, -, he⟩ | ⟨_, u, hfirst, h⟩
    · cases he
    · have hmade : (u.tree.stat? (s.path list)).isSome := by
        rcases ensure_cases hfirst with ⟨-, rfl, hsome⟩ | ⟨-, hmake⟩
        · exact hsome
        · rcases save_cases hmake with ⟨-, hsave⟩ | hstall
          · obtain ⟨mode, hm⟩ := FileTree.stat?_write_self list.isEntryName hsave
            rw [path, hm]
            rfl
          · obtain ⟨e, he, -⟩ := hstall.error
            cases he
      refine List.forall_mem_cons.2 ⟨?_, ih h⟩
      refine ensureAll_induction (P := fun t ↦ (t.stat? (s.path list)).isSome) ?_ hmade h
      intro other t t' ht hnone hsave
      have hne : list ≠ other := by
        rintro rfl
        simp [hnone] at ht
      have hkept := FileTree.stat?_write_of_ne other.isEntryName list.isEntryName
        (StoredList.fileName_ne hne) hsave
      rwa [path, hkept]

def IsBlank (s : Store) (list : StoredList) (t : FileTree) : Prop :=
  t.stat? (s.path list) = none ∨ ∃ mode, t.stat? (s.path list) = some (.file "".toUTF8 mode)

theorem IsBlank.save {t u : FileTree} {list made : StoredList} (ht : s.IsBlank list t)
    (h : s.saveIn t made [] = .ok u) : s.IsBlank list u := by
  by_cases hl : list = made
  · subst hl
    exact .inr (FileTree.stat?_write_self list.isEntryName h)
  · have hkept : u.stat? (s.path list) = t.stat? (s.path list) :=
      FileTree.stat?_write_of_ne made.isEntryName list.isEntryName (StoredList.fileName_ne hl) h
    rwa [IsBlank, hkept]

theorem prepare_eq (base : Path) : (prepare base : ExceptT StageError Simulation Store) = (do
    onFile base (FileSystem.makeDirectories base)
    StoredList.all.forM fun list ↦ (⟨base⟩ : Store).ensure list
    return ⟨base⟩) := by
  simp only [prepare, StoredList.all, List.forIn_cons, List.forIn_nil, List.forM, pure_bind,
    bind_assoc]

theorem prepare_induction {P : FileTree → Prop}
    (hstep : ∀ list t u, P t → t.stat? (Store.path ⟨base⟩ list) = none →
      Store.saveIn ⟨base⟩ t list [] = .ok u → P u)
    {r : Except StageError Store} (hw : P (w.withDirectory base).tree)
    (h : w.perform (prepare base) = (r, v)) : P v.tree := by
  rw [prepare_eq] at h
  rcases World.perform_bind_cases h with ⟨e, hmake, -⟩ | ⟨_, u, hmake, h⟩
  · rw [World.perform_onFile] at hmake
    obtain rfl : w.withDirectory base = v := congrArg Prod.snd hmake
    exact hw
  · rw [World.perform_onFile] at hmake
    obtain rfl : w.withDirectory base = u := congrArg Prod.snd hmake
    rcases World.perform_bind_cases h with ⟨e, h, -⟩ | ⟨_, u, h, hv⟩
    · exact ensureAll_induction hstep hw h
    · cases hv
      exact ensureAll_induction hstep hw h

theorem prepare_ok (h : w.perform (prepare base) = (.ok s, v)) :
    s = ⟨base⟩ ∧ ∀ list, (v.tree.stat? (s.path list)).isSome := by
  rw [prepare_eq] at h
  rcases World.perform_bind_cases h with ⟨e, -, he⟩ | ⟨_, u, -, h⟩
  · cases he
  · rcases World.perform_bind_cases h with ⟨e, -, he⟩ | ⟨_, u, hall, hv⟩
    · cases he
    · cases hv
      exact ⟨rfl, fun list ↦ exists_of_ensureAll hall list (by cases list <;> decide)⟩

def IsReachable (s : Store) (t : FileTree) (d : Place) : Prop :=
  ∀ list : StoredList, t.LeadsInto s.base list.fileName d

theorem ensure_ok {d : Place} (h : s.IsReachable w.tree d) (list : StoredList) :
    ∃ u, w.perform (s.ensure list) = (.ok (), u) ∧ s.IsReachable u.tree d := by
  rcases hensure : w.perform (s.ensure list) with ⟨r, u⟩
  rcases ensure_cases hensure with ⟨rfl, rfl, -⟩ | ⟨hnone, hmake⟩
  · exact ⟨u, rfl, h⟩
  · have hfree : w.tree.node? (list.fileName :: d) = none := by
      rw [← (h list).stat? list.isEntryName]
      exact hnone
    have hsave : ∃ t, s.saveIn w.tree list [] = .ok t := by
      rw [saveIn, path, (h list).write_eq list.isEntryName, hfree]
      exact ⟨_, rfl⟩
    obtain ⟨t, ht⟩ := hsave
    rw [perform_save, ht] at hmake
    cases hmake
    exact ⟨_, rfl, fun other ↦ (h other).write list.isEntryName ht⟩

theorem ensureAll_ok {d : Place} (h : s.IsReachable w.tree d) (lists : List StoredList) :
    ∃ u, w.perform (lists.forM fun list ↦ s.ensure list) = (.ok (), u) := by
  induction lists generalizing w with
  | nil => exact ⟨w, rfl⟩
  | cons list lists ih =>
    obtain ⟨u, hfirst, hu⟩ := ensure_ok h list
    obtain ⟨u', hrest⟩ := ih hu
    exact ⟨u', (World.perform_bind_ok hfirst _).trans hrest⟩

theorem prepare_ok_of_isReachable {d : Place} (h : Store.IsReachable ⟨base⟩ w.tree d) :
    ∃ u, w.perform (prepare base) = (.ok ⟨base⟩, u) := by
  have hadd := h .add
  obtain ⟨r, hmake, hr⟩ := World.makeDirectories_of_enters hadd.enters
  have hok : r = .ok () := by
    refine hr ?_
    by_cases hbase : base.text = ""
    · exact .inl hbase
    · exact .inr (FileTree.start_of_child hadd.start hbase)
  obtain ⟨u, hall⟩ := ensureAll_ok h StoredList.all
  have hfirst : w.perform (onFile base (FileSystem.makeDirectories base)) = (.ok (), w) := by
    rw [World.perform_onFile, hmake, hok]
    rfl
  refine ⟨u, ?_⟩
  rw [prepare_eq, World.perform_bind_ok hfirst, World.perform_bind_ok hall, World.perform_pure]

end Store

/-- A world in which a directory, once it is made, has none of the lists in it: it is absent or
empty, or it holds other things only. -/
def World.IsFresh (w : World) (base : Path) : Prop :=
  ∀ list, (w.withDirectory base).tree.stat? (Store.path ⟨base⟩ list) = none

theorem World.isFresh_of_enters {w : World} {base : Path} {d : Place} (h : w.tree.Enters base d)
    (hnone : ∀ list : StoredList, w.tree.node? (list.fileName :: d) = none) : w.IsFresh base := by
  intro list
  rw [withDirectory_of_enters h]
  cases hstat : w.tree.stat? (Store.path ⟨base⟩ list) with
  | none => rfl
  | some node =>
    obtain ⟨e, he, hnode⟩ := FileTree.leadsInto_of_stat? list.isEntryName hstat
    obtain rfl := h.unique he.enters
    simp [hnone] at hnode

theorem World.isFresh_of_absent {w : World} {base : Path} (hgrounded : w.tree.IsGrounded)
    (hup : ".." ∉ base.components) (habsent : ∀ d, ¬ w.tree.Enters base d) : w.IsFresh base :=
  fun list ↦ stat?_withDirectory_of_absent list.isEntryName hgrounded hup habsent

theorem Config.isEntryName_agreementName : IsEntryName Config.agreementName where
  one_component := by decide
  ne_empty := by decide
  ne_here := by decide
  ne_outer := by decide
  short := by decide

theorem Config.agreementName_ne (list : StoredList) : agreementName ≠ list.fileName := by
  cases list <;> decide

theorem Store.stat?_agreement_save {s : Store} {t u : FileTree} {list : StoredList}
    {items : List String} (h : s.saveIn t list items = .ok u) :
    u.stat? (s.base.child Config.agreementName) = t.stat? (s.base.child Config.agreementName) :=
  FileTree.stat?_write_of_ne list.isEntryName Config.isEntryName_agreementName
    (Config.agreementName_ne list) h

namespace Session

variable {s : Session Simulation} {c : Config} {catalog : Catalog Simulation} {base : Path}
  {w v : World}

/-- The lists and the agreement of a session are those of a base directory, and its catalog changes
no file. -/
structure IsAt (s : Session Simulation) (base : Path) : Prop where
  store : s.store = ⟨base⟩
  agreementFile : s.gate.agreementFile = base.child Config.agreementName
  quiet : s.catalog.IsQuiet

theorem start_cases {r : Except StageError (Session Simulation)}
    (h : w.perform (start c catalog) = (r, v)) :
    (∃ e, r = .error e ∧ w.perform (Store.prepare c.base) = (.error e, v)) ∨
      r = .ok ⟨⟨c.base⟩, ⟨c.status, c.agreementFile⟩, catalog, c.synthesizer⟩ ∧
        w.perform (Store.prepare c.base) = (.ok ⟨c.base⟩, v) := by
  rcases World.perform_bind_cases h with ⟨e, hprepare, rfl⟩ | ⟨store, u, hprepare, hr⟩
  · exact .inl ⟨e, rfl, hprepare⟩
  · obtain rfl := (Store.prepare_ok hprepare).1
    cases hr
    exact .inr ⟨rfl, hprepare⟩

theorem isAt_start (hquiet : catalog.IsQuiet) (h : w.perform (start c catalog) = (.ok s, v)) :
    s.IsAt c.base := by
  rcases start_cases h with ⟨e, he, -⟩ | ⟨hs, -⟩
  · cases he
  · cases hs
    exact ⟨rfl, rfl, hquiet⟩

theorem start_ok {d : Place} (h : Store.IsReachable ⟨c.base⟩ w.tree d) :
    ∃ u, w.perform (start c catalog) =
      (.ok ⟨⟨c.base⟩, ⟨c.status, c.agreementFile⟩, catalog, c.synthesizer⟩, u) := by
  obtain ⟨u, hprepare⟩ := Store.prepare_ok_of_isReachable h
  exact ⟨u, World.perform_bind_ok hprepare _⟩

theorem start_induction {P : FileTree → Prop}
    (hstep : ∀ list t u, P t → t.stat? (Store.path ⟨c.base⟩ list) = none →
      Store.saveIn ⟨c.base⟩ t list [] = .ok u → P u)
    {r : Except StageError (Session Simulation)} (hw : P (w.withDirectory c.base).tree)
    (h : w.perform (start c catalog) = (r, v)) : P v.tree := by
  rcases start_cases h with ⟨e, -, hprepare⟩ | ⟨-, hprepare⟩
  · exact Store.prepare_induction hstep hw hprepare
  · exact Store.prepare_induction hstep hw hprepare

theorem enters_of_stands (hs : Store.Stands ⟨base⟩ w.tree) : ∃ d, w.tree.Enters base d := by
  obtain ⟨content, mode, hm⟩ := hs .add
  obtain ⟨d, hd, -⟩ := FileTree.leadsInto_of_stat? StoredList.add.isEntryName hm
  exact ⟨d, hd.enters⟩

theorem start_of_stands (hs : Store.Stands ⟨c.base⟩ w.tree)
    {r : Except StageError (Session Simulation)}
    (h : w.perform (start c catalog) = (r, v)) : v.tree = w.tree := by
  obtain ⟨d, hd⟩ := enters_of_stands hs
  refine start_induction (P := (· = w.tree)) ?_ ?_ h
  · rintro list t u rfl hnone -
    obtain ⟨content, mode, hm⟩ := hs list
    rw [hm] at hnone
    cases hnone
  · rw [World.withDirectory_of_enters hd]

theorem start_of_fresh (hfresh : w.IsFresh c.base)
    (h : w.perform (start c catalog) = (.ok s, v)) :
    Store.Stands ⟨c.base⟩ v.tree ∧ Store.Holds ⟨c.base⟩ v.tree .empty := by
  have hblank (list : StoredList) : Store.IsBlank ⟨c.base⟩ list v.tree := by
    refine start_induction ?_ (.inl (hfresh list)) h
    intro made t u ht hnone hsave
    exact ht.save hsave
  have hempty (list : StoredList) :
      ∃ mode, v.tree.stat? (Store.path ⟨c.base⟩ list) = some (.file "".toUTF8 mode) := by
    rcases start_cases h with ⟨e, he, -⟩ | ⟨-, hprepare⟩
    · cases he
    · have hsome := (Store.prepare_ok hprepare).2 list
      rcases hblank list with hnone | hmode
      · simp [hnone] at hsome
      · exact hmode
  have hitems (list : StoredList) : Store.itemsIn ⟨c.base⟩ v.tree list = .ok [] := by
    obtain ⟨mode, hm⟩ := hempty list
    exact Store.itemsIn_of_read (FileTree.read_of_stat? hm)
  refine ⟨?_, fun o ↦ hitems _, ?_⟩
  · intro list
    obtain ⟨mode, hm⟩ := hempty list
    exact ⟨_, mode, hm⟩
  · rw [Store.logIn, hitems]
    rfl

end Session

end PackageStaging
