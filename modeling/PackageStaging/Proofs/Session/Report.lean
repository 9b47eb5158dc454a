import PackageStaging.Proofs.Command.Parts
import PackageStaging.Proofs.Session.Closed

namespace PackageStaging

open Text (IsItem)

namespace Lists

theorem names_changes (l : Lists) (o : Operation) : l.changes.names o = l.names o := by
  have hsame (names : List String) (p : Operation) (hp : p = o) :
      Log.names (names.map (Change.mk p)) o = names := by
    induction names <;> simp_all [Log.names]
  have hother (names : List String) (p : Operation) (hp : p ≠ o) :
      Log.names (names.map (Change.mk p)) o = [] := by
    simp [Log.names, hp]
  have hchanges : l.changes = (l.names .add).map (Change.mk .add) ++
      (l.names .remove).map (Change.mk .remove) := rfl
  rw [hchanges, Log.names_append]
  cases o with
  | add => rw [hsame _ .add rfl, hother _ .remove (by decide), List.append_nil]
  | remove => rw [hother _ .add (by decide), hsame _ .remove rfl, List.nil_append]

theorem changes_eq_nil_iff {l : Lists} : l.changes = [] ↔ ∀ o, l.names o = [] := by
  constructor
  · intro hnil o
    rw [← names_changes, hnil]
    rfl
  · intro hnames
    rw [changes, hnames, hnames]
    rfl

end Lists

namespace Synthesizer

theorem isIdle_iff_of_isItem {names : List String} (h : ∀ n ∈ names, IsItem n) :
    IsIdle names ↔ names = [] := by
  constructor
  · intro hidle
    refine List.eq_nil_iff_forall_not_mem.2 fun n hn ↦ (h n hn).ne_empty ?_
    rw [← (h n hn).trim_eq, Text.trim_eq_empty_iff.2 (hidle n hn)]
  · rintro rfl
    exact nofun

end Synthesizer

/-- A path leads neither to a directory nor to anything in it. -/
def FileTree.LeadsOutside (t : FileTree) (directory p : Path) : Prop :=
  ∀ d place, t.Enters directory d → t.locate p = .ok place → ¬ d <:+ place

section Outside

variable {s : Store} {t u : FileTree} {names : Operation → List String} {place : Place}

theorem Store.HoldsNames.exists_enters (h : s.HoldsNames t names) {o : Operation}
    (hne : names o ≠ []) : ∃ d, t.Enters s.base d := by
  cases hstat : t.stat? (s.path (.ofOperation o)) with
  | none => exact absurd (Store.itemsIn_of_absent hstat (h o)) hne
  | some node =>
    obtain ⟨d, hd, -⟩ := FileTree.leadsInto_of_stat? (StoredList.isEntryName _) hstat
    exact ⟨d, hd.enters⟩

theorem Store.HoldsNames.alters (h : s.HoldsNames t names) {d : Place} (hd : t.Enters s.base d)
    (halters : t.Alters u place) (houtside : ¬ d <:+ place) : s.HoldsNames u names := by
  intro o
  have hinto := (isTextual_of_itemsIn (h o)).leadsInto (StoredList.isEntryName _) hd
  have hne : (StoredList.ofOperation o).fileName :: d ≠ place := by
    rintro rfl
    exact houtside (List.suffix_cons _ d)
  rw [← h o]
  exact itemsIn_congr (halters.read_eq (hinto.locate (StoredList.isEntryName _)) hne)

theorem Gate.isOpenIn_alters {g : Gate} (hopen : g.isOpenIn t) (halters : t.Alters u place) :
    g.isOpenIn u := by
  rw [isOpenIn, Bool.or_eq_true] at hopen ⊢
  exact hopen.imp_right halters.isSome_stat?

end Outside

namespace Session

variable {s : Session Simulation} {w : World} {l : Lists}

/-- A text reports the names that a session holds: every line is read as a change, these are the
additions of one list and then the removals of the other, and there is a line just if there is
something to do, however an upgrade is carried out. -/
structure Reports (s : Session Simulation) (w : World) (names : Operation → List String)
    (text : String) : Prop where
  packages (o : Operation) : w.perform (s.packages o) = (.ok (names o), w)
  summary : w.perform s.summary = (.ok text, w)
  read_lines : (Text.lines text).map Change.read =
    ((names .add).map Change.add ++ (names .remove).map Change.remove).map .ok
  text_eq_empty_iff : text = "" ↔ ∀ o, names o = []
  upgrade (synthesizer : Synthesizer) : ∃ command,
    w.perform ({ s with synthesizer }.command .upgrade) = (.ok command, w) ∧
      (command = "" ↔ ∀ o, names o = [])

theorem perform_upgrade (hnames : s.store.HoldsNames w.tree l.names) :
    w.perform (s.command .upgrade) =
      (.ok (s.synthesizer.command (l.names .add) (l.names .remove)), w) := by
  rw [command, World.perform_bind, perform_packages, hnames]
  dsimp only
  rw [World.perform_bind, perform_packages, hnames]
  rfl

theorem command_eq_empty_iff (hnames : s.store.HoldsNames w.tree l.names)
    (synthesizer : Synthesizer) :
    synthesizer.command (l.names .add) (l.names .remove) = "" ↔ ∀ o, l.names o = [] := by
  have hidle (o : Operation) : Synthesizer.IsIdle (l.names o) ↔ l.names o = [] :=
    Synthesizer.isIdle_iff_of_isItem fun _ hn ↦ hnames.isItem hn
  rw [Synthesizer.command_eq_empty_iff, Synthesizer.isIdle_append, hidle, hidle]
  constructor
  · rintro ⟨hadd, hremove⟩ o
    cases o <;> assumption
  · exact fun h ↦ ⟨h .add, h .remove⟩

theorem reports_of_holdsNames (hopen : s.gate.isOpenIn w.tree)
    (hnames : s.store.HoldsNames w.tree l.names) : s.Reports w l.names l.changes.text where
  packages o := by rw [perform_packages, hnames o]
  summary := perform_summary_text hopen hnames
  read_lines := hnames.isProper_changes.read_lines_text
  text_eq_empty_iff := Log.text_eq_empty_iff.trans Lists.changes_eq_nil_iff
  upgrade synthesizer :=
    ⟨_, perform_upgrade hnames, command_eq_empty_iff hnames synthesizer⟩

theorem Reports.unique {other : Session Simulation} {v : World}
    {names names' : Operation → List String} {text : String} (h : s.Reports w names text)
    (h' : other.Reports v names' text) : names = names' := by
  have hlines := h.read_lines
  rw [h'.read_lines] at hlines
  have hchanges : Lists.changes ⟨names', []⟩ = Lists.changes ⟨names, []⟩ :=
    List.map_injective_iff.2 (fun _ _ ↦ Except.ok.inj) hlines
  funext o
  have hnames := Lists.names_changes ⟨names, []⟩ o
  rwa [← hchanges, Lists.names_changes, eq_comm] at hnames

section Writing

variable {v : World} {path : Path} {r : Except StageError Bool}

theorem Writes.told_iff {told : Except StageError String} (h : Writes w path told r v) :
    (r = .ok false ↔ told = .ok "") ∧ (r = .ok false → v = w) ∧
      (r = .ok true → ∃ text, told = .ok text ∧ v.tree.read path = .ok text.toUTF8) := by
  cases h with
  | untold e => exact ⟨iff_of_false nofun nofun, nofun, nofun⟩
  | nothing => exact ⟨iff_of_true rfl rfl, fun _ ↦ rfl, nofun⟩
  | unwritten e some => exact ⟨iff_of_false nofun (by simpa using some), nofun, nofun⟩
  | written some outside write told mode =>
    refine ⟨iff_of_false told (by simpa using some), fun hfalse ↦ absurd hfalse told,
      fun _ ↦ ⟨_, rfl, ?_⟩⟩
    exact read_of_mode mode (FileTree.read_write write)

theorem reports_writeSummary (hopen : s.gate.isOpenIn w.tree)
    (hnames : s.store.HoldsNames w.tree l.names)
    (houtside : w.tree.LeadsOutside s.store.base path)
    (h : w.perform (s.writeSummary path) = (r, v)) : s.Reports v l.names l.changes.text := by
  obtain ⟨told, hsummary, hwrites⟩ := writes_writeSummary h
  rw [perform_summary_text hopen hnames] at hsummary
  cases hsummary
  obtain ⟨hempty, hsame, -⟩ := hwrites.told_iff
  by_cases hnil : ∀ o, l.names o = []
  · have htext : l.changes.text = "" :=
      Log.text_eq_empty_iff.2 (Lists.changes_eq_nil_iff.2 hnil)
    obtain rfl := hsame (hempty.2 (congrArg Except.ok htext))
    exact reports_of_holdsNames hopen hnames
  · obtain ⟨o, hne⟩ := not_forall.1 hnil
    obtain ⟨d, hd⟩ := hnames.exists_enters hne
    rcases writeSummary_cases h with rfl | ⟨-, place, hplace, halters⟩
    · exact reports_of_holdsNames hopen hnames
    · exact reports_of_holdsNames (Gate.isOpenIn_alters hopen halters)
        (hnames.alters hd halters (houtside d place hd hplace))

end Writing

/-- Where the gate is open and both lists of names are missing or texts, whatever they hold, the
summary reports them, and it reports no other lists in any session; written to any path outside of
the base directory it still reports them there. Behind a closed gate it is empty. An empty summary
and no other is not written, which changes nothing; one that is written is what the file holds. -/
theorem summary_reports (s : Session Simulation) (w : World) :
    ((∀ o, w.tree.IsTextual (s.store.path (.ofOperation o))) → s.gate.isOpenIn w.tree →
      ∃ names text, s.Reports w names text ∧
        (∀ (other : Session Simulation) v names', other.Reports v names' text → names' = names) ∧
        ∀ path r v, w.tree.LeadsOutside s.store.base path →
          w.perform (s.writeSummary path) = (r, v) → s.Reports v names text) ∧
    (s.gate.isOpenIn w.tree = false → w.perform s.summary = (.ok "", w)) ∧
    ∀ path r v, w.perform (s.writeSummary path) = (r, v) →
      (r = .ok false ↔ (w.perform s.summary).1 = .ok "") ∧ (r = .ok false → v = w) ∧
      (r = .ok true → ∃ text,
        w.perform s.summary = (.ok text, w) ∧ v.tree.read path = .ok text.toUTF8) := by
  refine ⟨fun htextual hopen ↦ ?_, fun hclosed ↦ summary_of_closed hclosed, fun path r v h ↦ ?_⟩
  · choose names hnames using fun o ↦ Store.itemsIn_of_isTextual (htextual o)
    let l : Lists := ⟨names, []⟩
    have hholds : s.store.HoldsNames w.tree l.names := hnames
    have hreports := reports_of_holdsNames hopen hholds
    exact ⟨names, _, hreports, fun other v names' h ↦ h.unique hreports,
      fun path r v houtside h ↦ reports_writeSummary hopen hholds houtside h⟩
  · obtain ⟨told, hsummary, hwrites⟩ := writes_writeSummary h
    rw [hsummary]
    obtain ⟨hempty, hsame, hread⟩ := hwrites.told_iff
    refine ⟨hempty, hsame, fun htrue ↦ ?_⟩
    obtain ⟨text, rfl, htext⟩ := hread htrue
    exact ⟨text, rfl, htext⟩

end Session

def World.edited : World := .spelled fun
  | .add => some "\t+ vim \r\n\n- x\ty\r\n"
  | _ => none

theorem holdsNames_edited : Store.HoldsNames ⟨Config.bare.base⟩ World.edited.tree fun
    | .add => ["+ vim", "- x\ty"]
    | .remove => [] := by
  intro o
  rw [World.edited, itemsIn_spelled]
  cases o with
  | add => exact congrArg Except.ok (by decide)
  | remove => rfl

theorem Session.summary_reports_edited :
    let s := OpenSession.bare.session
    (∀ o, World.edited.tree.IsTextual (s.store.path (.ofOperation o))) ∧
    s.gate.isOpenIn World.edited.tree ∧
    World.edited.tree.LeadsOutside s.store.base ⟨"/report"⟩ ∧
    ∃ text v, World.edited.perform (s.writeSummary ⟨"/report"⟩) = (.ok true, v) ∧
      v.tree.read ⟨"/report"⟩ = .ok text.toUTF8 ∧ v.perform s.summary = (.ok text, v) ∧
      (Text.lines text).map Change.read = [.ok (.add "+ vim"), .ok (.add "- x\ty")] := by
  intro s
  have htextual (o : Operation) : World.edited.tree.IsTextual (s.store.path (.ofOperation o)) :=
    (isReadable_spelled _).textual (.ofOperation o)
  have hopen : s.gate.isOpenIn World.edited.tree := rfl
  have houtside : World.edited.tree.LeadsOutside s.store.base ⟨"/report"⟩ := by
    intro d place hd hplace
    have hbase : World.edited.tree.Enters Config.bare.base ["state"] := ⟨rfl, _, rfl⟩
    have hreport : World.edited.tree.locate ⟨"/report"⟩ = .ok ["report"] := rfl
    obtain rfl := hd.unique hbase
    rw [hreport] at hplace
    cases hplace
    decide
  obtain ⟨hreports, -, hwrites⟩ := Session.summary_reports s World.edited
  obtain ⟨names, text, hnow, -, hlater⟩ := hreports htextual hopen
  have hnames (o : Operation) := holdsNames_edited.eq (congrArg Prod.fst
    ((s.perform_packages World.edited o).symm.trans (hnow.packages o)))
  have hlines := hnow.read_lines
  rw [← hnames .add, ← hnames .remove] at hlines
  have htold : (World.edited.perform (s.writeSummary ⟨"/report"⟩)).1.toOption = some true := by
    decide +kernel
  rcases hwritten : World.edited.perform (s.writeSummary ⟨"/report"⟩) with ⟨r, v⟩
  obtain rfl : r = .ok true := by
    rw [hwritten] at htold
    cases r <;> cases htold
    rfl
  obtain ⟨text', hsummary, hread⟩ := (hwrites _ _ _ hwritten).2.2 rfl
  obtain rfl : text' = text := Except.ok.inj (congrArg Prod.fst (hsummary.symm.trans hnow.summary))
  exact ⟨htextual, hopen, houtside, text', v, rfl, hread, (hlater _ _ _ houtside hwritten).summary,
    hlines⟩

end PackageStaging
