import PackageStaging.Proofs.CommandLine.Outcome
import PackageStaging.Proofs.Files.Alteration

namespace PackageStaging

variable {t u : FileTree} {p : Path} {place : Place} {node : Node} {w v : World}

/-- Something stands where a path leads, under a name that is not that of a list. -/
structure FileTree.StandsApart (t : FileTree) (p : Path) (place : Place) (node : Node) : Prop where
  locate : t.locate p = .ok place
  node : t.node? place = some node
  apart (list : StoredList) (d : Place) : place ≠ list.fileName :: d

namespace FileTree.StandsApart

theorem loadIn_eq (h : t.StandsApart p place node) (hu : u.StandsApart p place node) :
    Config.loadIn u p = Config.loadIn t p := by
  have hstat : u.stat? p = t.stat? p := by
    simp only [stat?, h.locate, hu.locate, h.node, hu.node]
  have hread : u.read p = t.read p := by
    simp only [read, h.locate, hu.locate, bind, Except.bind, h.node, hu.node]
  rw [Config.loadIn, Config.loadIn, hstat, text, text, hread]

theorem grows {k : ℕ} (h : t.StandsApart p place node) (hgrows : Grows k t u) :
    u.StandsApart p place node where
  locate := locate_mono hgrows.working (fun _ ↦ hgrows.isDirectory) h.locate
  node := by
    rcases hgrows.node? place with he | ⟨hnone, -⟩
    · exact he.trans h.node
    · cases hnone.symm.trans h.node
  apart := h.apart

theorem save {s : Store} {list : StoredList} {items : List String}
    (h : t.StandsApart p place node) (hsave : s.saveIn t list items = .ok u) :
    u.StandsApart p place node := by
  obtain ⟨written, hwritten, halters⟩ := alters_write hsave
  obtain ⟨d, -, rfl⟩ := leadsInto_of_locate list.isEntryName hwritten
  exact ⟨halters.locate_iff.2 h.locate, (halters.elsewhere place (h.apart list d)).trans h.node,
    h.apart⟩

theorem logged {s : Store} {c : Change} (h : t.StandsApart p place node) (hlog : s.Logged c t u) :
    u.StandsApart p place node := by
  obtain ⟨log, -, hsave⟩ := hlog
  exact h.save hsave

theorem moved {s : Store} {c : Change} (h : t.StandsApart p place node)
    (hmoved : s.Moved c t u) : u.StandsApart p place node := by
  rcases hmoved.unchanged_or_saved with rfl | ⟨o, items, hsave⟩
  · exact h
  · exact h.save hsave

theorem start {c : Config} {catalog : Catalog Simulation}
    {r : Except StageError (Session Simulation)} (h : w.tree.StandsApart p place node)
    (hstart : w.perform (Session.start c catalog) = (r, v)) :
    v.tree.StandsApart p place node :=
  Session.start_induction (P := (·.StandsApart p place node)) (fun _ _ _ ht _ hsave ↦ ht.save hsave)
    (h.grows (w.grows_withDirectory c.base)) hstart

theorem stage {s : Session Simulation} {o : Operation} {name : String}
    {r : Except StageError Unit} (hquiet : s.catalog.IsQuiet)
    (h : w.tree.StandsApart p place node) (hstage : w.perform (s.stage o name) = (r, v)) :
    v.tree.StandsApart p place node := by
  have houtcome := Session.outcome_stage hquiet hstage
  generalize v.tree = t at houtcome ⊢
  cases houtcome with
  | refused reason => exact h
  | staged valid logged moved => exact (h.logged logged).moved moved
  | halted valid logged stuck storage => exact h.logged logged

end FileTree.StandsApart

namespace CommandLine

variable {o : Operation} {file : Path} {dryRun : Bool} {packages : List String}

theorem standsApart_stageEach {s : Session Simulation} (hquiet : s.catalog.IsQuiet)
    (h : w.tree.StandsApart p place node) :
    (stageEach s o packages w).2.tree.StandsApart p place node := by
  induction packages generalizing w with
  | nil => exact h
  | cons package packages ih =>
    rw [stageEach]
    rcases hstage : w.perform (s.stage o package) with ⟨r, v⟩
    cases r with
    | error e => exact h.stage hquiet hstage
    | ok a => exact ih (h.stage hquiet hstage)

theorem standsApart_stagingOutcome (h : w.tree.StandsApart p place node) :
    (stagingOutcome file dryRun o packages w).2.tree.StandsApart p place node := by
  rw [stagingOutcome]
  cases Config.loadIn w.tree file with
  | error e => exact h
  | ok loaded =>
    dsimp only
    rw [openedOutcome]
    rcases hstart : w.perform (Session.start (settled loaded dryRun)
      (WebCatalog.ofSetting (settled loaded dryRun).catalogUrl).toCatalog) with ⟨r, v⟩
    cases r with
    | error e => exact h.start hstart
    | ok s =>
      obtain ⟨rfl, -⟩ := Session.isOpened_start hstart
      exact standsApart_stageEach (WebCatalog.isQuiet_toCatalog _) (h.start hstart)

theorem loadIn_runEach {argss : List (List String)}
    (hargs : ∀ args ∈ argss, ∃ config? dryRun o packages,
      parse args = .ok ⟨config?, dryRun, .stage o packages⟩)
    (h : w.tree.StandsApart p place node) :
    Config.loadIn (runEach argss w).2.tree p = Config.loadIn w.tree p := by
  have hkept : (runEach argss w).2.tree.StandsApart p place node := by
    induction argss generalizing w with
    | nil => exact h
    | cons args rest ih =>
      obtain ⟨⟨config?, dryRun, o, packages, hparse⟩, hrest⟩ := List.forall_mem_cons.1 hargs
      obtain ⟨report, hrun, -⟩ := run_stage rfl hparse w
      rw [runEach_cons hrun]
      exact ih hrest (standsApart_stagingOutcome h)
  exact h.loadIn_eq hkept

end CommandLine

end PackageStaging
