import PackageStaging.Proofs.Session.Progress

namespace PackageStaging

namespace Lists

/-- Neither list has a name twice, or a name of the other one. -/
def AreApart (names : Operation → List String) : Prop :=
  ∀ o, (names o).Nodup ∧ (names o).Disjoint (names o.opposite)

variable {names : Operation → List String}

theorem AreApart.update (h : AreApart names) {o : Operation} {items : List String}
    (hnodup : items.Nodup) (hdisjoint : items.Disjoint (names o.opposite)) :
    AreApart (Function.update names o items) := by
  intro p
  by_cases hp : p = o
  · subst hp
    rw [Function.update_self, Function.update_of_ne p.opposite_ne]
    exact ⟨hnodup, hdisjoint⟩
  · obtain rfl := Operation.eq_opposite_of_ne (Ne.symm hp)
    rw [Operation.opposite_opposite] at hdisjoint
    rw [Function.update_self, Function.update_of_ne hp]
    exact ⟨(h p).1, List.disjoint_symm hdisjoint⟩

theorem AreApart.move (h : AreApart names) (c : Change) : AreApart (move names c) := by
  unfold Lists.move
  split
  · obtain ⟨hnodup, hdisjoint⟩ := h c.operation.opposite
    exact h.update (hnodup.erase _) (List.disjoint_of_subset_left List.erase_subset hdisjoint)
  · rename_i hother
    obtain ⟨hnodup, hdisjoint⟩ := h c.operation
    split
    · exact h
    · rename_i hown
      refine h.update ?_ ?_
      · exact hnodup.append (List.nodup_singleton _) (by simpa using hown)
      · rw [List.disjoint_append_left]
        exact ⟨hdisjoint, by simpa using hother⟩

end Lists

namespace OpenSession

variable {l : OpenSession} {base : Path} {c : Call} {calls : List Call}

def IsApart (l : OpenSession) : Prop :=
  ∃ names, (∀ o, l.packages o = .ok (names o)) ∧ Lists.AreApart names

structure StaysApart (l : OpenSession) (base : Path) : Prop where
  isAt : l.session.IsAt base
  enters : ∃ d, l.world.tree.Enters base d
  apart : ∃ names, Store.HoldsNames ⟨base⟩ l.world.tree names ∧ Lists.AreApart names

theorem isApart_iff (hat : l.session.IsAt base) : l.IsApart ↔
    ∃ names, Store.HoldsNames ⟨base⟩ l.world.tree names ∧ Lists.AreApart names := by
  simp only [IsApart, packages, Session.perform_packages, hat.store]
  rfl

theorem enters_effect {t u : FileTree} {r : Except StageError Unit} {d : Place}
    (he : c.Effect base t r u) (hd : t.Enters base d) : u.Enters base d := by
  cases he with
  | refused | uncleared | unaccepted | asked => exact hd
  | staged item logged moved => exact moved.enters (logged.enters hd)
  | halted e item logged stuck => exact logged.enters hd
  | cleared save => exact Store.enters_save hd save
  | accepted r write => exact hd.write Config.isEntryName_agreementName write
  | reopened at_base start reopen =>
    subst at_base start
    refine Session.start_induction (P := fun t ↦ t.Enters _ d) ?_ ?_ reopen
    · intro list t u ht hnone hsave
      exact Store.enters_save ht hsave
    · rwa [World.withDirectory_of_enters hd]

theorem StaysApart.step (h : l.StaysApart base) (hc : c.StaysAt base) :
    (l.step c).2.StaysApart base := by
  obtain ⟨hat, ⟨d, hd⟩, names, hnames, hapart⟩ := h
  have he := effect_step hat hc
  refine ⟨isAt_step hat hc, ⟨d, enters_effect he hd⟩, ?_⟩
  generalize (l.step c).1 = r at he
  generalize (l.step c).2.world.tree = t at he
  cases he with
  | refused | uncleared | unaccepted | asked => exact ⟨names, hnames, hapart⟩
  | staged item logged moved =>
    exact ⟨_, (hnames.logged logged).moved item moved, hapart.move _⟩
  | halted e item logged stuck => exact ⟨names, hnames.logged logged, hapart⟩
  | cleared save => exact ⟨names, hnames.saveLog save, hapart⟩
  | accepted r write =>
    have hname := Config.isEntryName_agreementName
    exact ⟨names, hnames.write_other hname Config.agreementName_ne write, hapart⟩
  | reopened at_base start reopen =>
    subst at_base
    rw [← start] at hd hnames
    refine ⟨names, ?_, hapart⟩
    refine Session.start_induction (P := fun t ↦ Store.HoldsNames _ t names) ?_ ?_ reopen
    · intro list t u ht hnone hsave
      exact ht.make hnone hsave
    · rwa [World.withDirectory_of_enters hd]

theorem StaysApart.run (h : l.StaysApart base) (hcalls : ∀ c ∈ calls, c.StaysAt base) :
    (l.run calls).StaysApart base :=
  trace_induction (P := fun l _ ↦ l.StaysApart base) h StaysApart.step hcalls

/-- Lists that load and are apart do so after any calls, however each of them ends. The session may
be in any world: its first call may be the one that opens it. -/
theorem isApart_run (hat : l.session.IsAt base) (hdir : ∃ d, l.world.tree.Enters base d)
    (hapart : l.IsApart) (hcalls : ∀ c ∈ calls, c.StaysAt base) : (l.run calls).IsApart := by
  have h : l.StaysApart base := ⟨hat, hdir, (isApart_iff hat).1 hapart⟩
  have hrun := h.run hcalls
  exact (isApart_iff hrun.isAt).2 hrun.apart

def jammed : OpenSession where
  session := bare.session
  world := { World.bare with
    tree := (World.bare.tree.put ["packages.add", "state"] (.file " vim\r\n\n".toUTF8 0o644)).put
      ["packages.unstaged", "state"] (.directory 0o755) }

theorem packages_jammed (o : Operation) :
    jammed.packages o = .ok (if o = .add then ["vim"] else []) := by
  rw [packages, Session.perform_packages]
  cases o with
  | add =>
    have hread : jammed.world.tree.read (jammed.session.store.path .add) =
        .ok " vim\r\n\n".toUTF8 := by rfl
    have hitems : Text.items " vim\r\n\n" = ["vim"] := by decide
    rw [StoredList.ofOperation, Store.itemsIn_of_read hread, hitems]
    rfl
  | remove =>
    have hread : jammed.world.tree.read (jammed.session.store.path .remove) = .error .notFound := by
      rfl
    rw [StoredList.ofOperation, Store.itemsIn, FileTree.text, hread]
    rfl

theorem isApart_run_jammed : (jammed.run [.reopen .bare .full, .stage .add "nano",
    .stage .remove "vim", .clear]).IsApart := by
  have hat : jammed.session.IsAt Config.bare.base :=
    Session.isAt_start (Catalog.isQuiet_fixed _) start_bare
  have hdir : jammed.world.tree.Enters Config.bare.base ["state"] := ⟨rfl, _, rfl⟩
  have hapart : jammed.IsApart := ⟨_, packages_jammed, fun o ↦ by
    cases o <;> simp [Operation.opposite]⟩
  refine isApart_run hat ⟨_, hdir⟩ hapart (List.forall_mem_cons.2 ⟨⟨rfl, ?_⟩, ?_⟩)
  · exact Catalog.isQuiet_fixed _
  · simp [Call.StaysAt]

end OpenSession

end PackageStaging
