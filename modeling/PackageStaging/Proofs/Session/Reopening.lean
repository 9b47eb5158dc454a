import PackageStaging.Proofs.Session.Requests

namespace PackageStaging

namespace Store

variable {s : Store} {base : Path} {c : Change} {t u : FileTree} {w : World}

def IsOpened (s : Store) (t : FileTree) : Prop := ∀ list, (t.stat? (s.path list)).isSome

theorem Stands.isOpened (h : s.Stands t) : s.IsOpened t := by
  intro list
  obtain ⟨content, mode, hm⟩ := h list
  rw [hm]
  rfl

theorem IsOpened.changesOnly {paths : List Path} (h : s.IsOpened t) (hu : t.ChangesOnly u paths) :
    s.IsOpened u := by
  intro list
  obtain ⟨node, hnode⟩ := Option.isSome_iff_exists.1 (h list)
  obtain ⟨place, hplace, hstands⟩ := FileTree.exists_locate_of_stat? hnode
  rw [FileTree.stat?, hu.locate_iff.2 hplace]
  exact hu.stands place (by rw [hstands]; rfl)

theorem IsOpened.logged (h : s.IsOpened t) (hlog : s.Logged c t u) : s.IsOpened u :=
  h.changesOnly hlog.changesOnly

theorem IsOpened.moved (h : s.IsOpened t) (hmoved : s.Moved c t u) : s.IsOpened u := by
  obtain ⟨o, hchanges⟩ := hmoved.changesOnly
  exact h.changesOnly hchanges

theorem IsOpened.isReachable (h : s.IsOpened t) : ∃ d, s.IsReachable t d := by
  have hleads (list : StoredList) : ∃ d, t.LeadsInto s.base list.fileName d := by
    obtain ⟨node, hnode⟩ := Option.isSome_iff_exists.1 (h list)
    obtain ⟨d, hd, -⟩ := FileTree.leadsInto_of_stat? list.isEntryName hnode
    exact ⟨d, hd⟩
  obtain ⟨d, hd⟩ := hleads .add
  refine ⟨d, fun list ↦ ?_⟩
  obtain ⟨e, he⟩ := hleads list
  obtain rfl := hd.enters.unique he.enters
  exact he

theorem perform_ensure {list : StoredList} (h : (w.tree.stat? (s.path list)).isSome) :
    w.perform (s.ensure list) = (.ok (), w) := by
  rcases hensure : w.perform (s.ensure list) with ⟨r, v⟩
  rcases ensure_cases hensure with ⟨rfl, rfl, -⟩ | ⟨hnone, -⟩
  · rfl
  · simp [hnone] at h

theorem IsOpened.perform_ensureAll (h : s.IsOpened w.tree) (lists : List StoredList) :
    w.perform (lists.forM fun list ↦ s.ensure list) = (.ok (), w) := by
  induction lists with
  | nil => rfl
  | cons list lists ih => exact (World.perform_bind_ok (perform_ensure (h list)) _).trans ih

theorem IsOpened.perform_prepare (h : IsOpened ⟨base⟩ w.tree) :
    w.perform (prepare base) = (.ok ⟨base⟩, w) := by
  obtain ⟨d, hd⟩ := h.isReachable
  obtain ⟨u, hu⟩ := prepare_ok_of_isReachable hd
  have hmade := World.withDirectory_of_enters (hd .add).enters
  rw [prepare_eq] at hu ⊢
  rcases World.perform_bind_cases hu with ⟨e, -, he⟩ | ⟨_, v, hmake, hrest⟩
  · cases he
  · rw [World.perform_onFile] at hmake
    obtain rfl : w = v := hmade.symm.trans (congrArg Prod.snd hmake)
    rw [World.perform_bind_ok (World.perform_onFile _ _ _ ▸ hmake),
      World.perform_bind_ok (h.perform_ensureAll _), World.perform_pure]

end Store

namespace Session

variable {s : Session Simulation} {c : Config} {catalog : Catalog Simulation} {w v : World}

theorem isOpened_start (h : w.perform (start c catalog) = (.ok s, v)) :
    s = .ofConfig c catalog ∧ Store.IsOpened ⟨c.base⟩ v.tree := by
  rcases start_cases h with ⟨e, he, -⟩ | ⟨hs, hprepare⟩
  · cases he
  · exact ⟨Except.ok.inj hs, (Store.prepare_ok hprepare).2⟩

theorem start_of_isOpened (h : Store.IsOpened ⟨c.base⟩ w.tree) :
    w.perform (start c catalog) = (.ok (.ofConfig c catalog), w) :=
  World.perform_bind_ok h.perform_prepare _

theorem isOpened_stage {o : Operation} {name : String} (hquiet : s.catalog.IsQuiet)
    (hw : s.store.IsOpened w.tree) (h : w.perform (s.stage o name) = (.ok (), v)) :
    s.store.IsOpened v.tree := by
  obtain ⟨n, u, -, hlogged, hmoved⟩ := staged_of_ok hquiet h
  exact (hw.logged hlogged).moved hmoved

end Session

end PackageStaging
