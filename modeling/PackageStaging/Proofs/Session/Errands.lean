import PackageStaging.Proofs.Files.Alteration
import PackageStaging.Proofs.Session.Requests

namespace PackageStaging

inductive Errand
  | request (r : Request)
  | writeSummary (path : Path)

namespace Errand

def stage (o : Operation) (name : String) : Errand := .request (.call (.stage o name))

def clear : Errand := .request (.call .clear)

def accept : Errand := .request (.call .accept)

def reopen (c : Config) (catalog : Catalog Simulation) : Errand :=
  .request (.call (.reopen c catalog))

def StaysAt (base : Path) : Errand → Prop
  | .request (.call c) => c.StaysAt base
  | _ => True

end Errand

namespace OpenSession

variable (l : OpenSession)

def attend : Errand → Except StageError Reply × OpenSession
  | .request r => l.respond r
  | .writeSummary path =>
    ((l.world.perform (l.session.writeSummary path)).1.map .flag,
      { l with world := (l.world.perform (l.session.writeSummary path)).2 })

def serve (l : OpenSession) : List Errand → List (Except StageError Reply) × OpenSession
  | [] => ([], l)
  | e :: es => ((l.attend e).1 :: ((l.attend e).2.serve es).1, ((l.attend e).2.serve es).2)

def after (errands : List Errand) : OpenSession := (l.serve errands).2

@[simp] theorem after_nil : l.after [] = l := rfl

@[simp] theorem after_cons (e : Errand) (errands : List Errand) :
    l.after (e :: errands) = (l.attend e).2.after errands := rfl

theorem after_append (before rest : List Errand) :
    l.after (before ++ rest) = (l.after before).after rest := by
  induction before generalizing l with
  | nil => rfl
  | cons e before ih => exact ih (l.attend e).2

theorem after_concat (errands : List Errand) (e : Errand) :
    l.after (errands ++ [e]) = ((l.after errands).attend e).2 := l.after_append errands [e]

/-- What holds at the start and is kept by every errand of a kind holds after any errands of it. -/
theorem after_induction {l : OpenSession} {P : OpenSession → Prop} {Q : Errand → Prop}
    {errands : List Errand} (hstart : P l) (hstep : ∀ {l e}, P l → Q e → P (l.attend e).2)
    (herrands : ∀ e ∈ errands, Q e) : P (l.after errands) := by
  induction errands generalizing l with
  | nil => exact hstart
  | cons e errands ih =>
    obtain ⟨he, hrest⟩ := List.forall_mem_cons.1 herrands
    exact ih (hstep hstart he) hrest

theorem attend_call (c : Call) : (l.attend (.request (.call c))).2 = (l.step c).2 := rfl

theorem reply_accept : (l.attend .accept).1 = (l.step .accept).1.map fun _ ↦ .done := rfl

end OpenSession

theorem Question.keeps_answer (s : Session Simulation) (q : Question) :
    Keeps id (q.answer s) := by
  cases q with
  | packages o => exact (s.keeps_packages o).bind fun _ ↦ keeps_pure _
  | packagesText o separator =>
    exact ((s.keeps_packages o).bind fun _ ↦ keeps_pure _).bind fun _ ↦ keeps_pure _
  | unstaged => exact s.keeps_unstaged.bind fun _ ↦ keeps_pure _
  | unstagedNames =>
    exact (s.keeps_unstaged.bind fun _ ↦ keeps_pure _).bind fun _ ↦ keeps_pure _
  | command t => exact (s.keeps_command t).bind fun _ ↦ keeps_pure _
  | summary => exact s.keeps_summary.bind fun _ ↦ keeps_pure _
  | check => exact s.gate.keeps_check.bind fun _ ↦ keeps_pure _
  | accepted => exact s.gate.keeps_isAccepted.bind fun _ ↦ keeps_pure _

theorem OpenSession.attend_question (l : OpenSession) (q : Question) :
    (l.attend (.request (.question q))).2 = l := by
  have hkept := q.keeps_answer l.session l.world
  exact congrArg (OpenSession.mk l.session) hkept

/-- The recorded packages as changes: what a summary tells, one a line. -/
def Lists.changes (l : Lists) : Log :=
  (l.names .add).map Change.add ++ (l.names .remove).map Change.remove

theorem Store.HoldsNames.isProper_changes {s : Store} {t : FileTree} {l : Lists}
    (h : s.HoldsNames t l.names) : l.changes.IsProper := by
  intro c hc
  rcases List.mem_append.1 hc with hc | hc
  · obtain ⟨n, hn, rfl⟩ := List.mem_map.1 hc
    exact h.isItem hn
  · obtain ⟨n, hn, rfl⟩ := List.mem_map.1 hc
    exact h.isItem hn

theorem Store.Holds.isItem_changes {s : Store} {t : FileTree} {l : Lists} (h : s.Holds t l) :
    ∀ line ∈ l.changes.map Change.render, Text.IsItem line := h.names.isProper_changes.isItem_render

theorem Session.perform_summary_text {s : Session Simulation} {w : World} {l : Lists}
    (hopen : s.gate.isOpenIn w.tree) (hnames : s.store.HoldsNames w.tree l.names) :
    w.perform s.summary = (.ok l.changes.text, w) := by
  rw [summary, World.perform_bind_ok (s.gate.perform_isAccepted w), if_pos hopen,
    World.perform_bind, perform_packages, hnames]
  dsimp only
  rw [World.perform_bind, perform_packages, hnames]
  rfl

theorem Session.perform_summary {s : Session Simulation} {w : World} {l : Lists}
    (hopen : s.gate.isOpenIn w.tree) (hl : s.store.Holds w.tree l) :
    w.perform s.summary = (.ok (Text.ofItems (l.changes.map Change.render)), w) := by
  rw [perform_summary_text hopen hl.names, hl.names.isProper_changes.ofItems_render]

namespace Session

/-- How the order to write a summary to a path ends, by what the summary comes to. -/
inductive Writes (w : World) (path : Path) :
    Except StageError String → Except StageError Bool → World → Prop
  | untold (e : StageError) : Writes w path (.error e) (.error e) w
  | nothing : Writes w path (.ok "") (.ok false) w
  | unwritten {text : String} (e : StageError) (some : text ≠ "") :
      Writes w path (.ok text) (.error e) w
  /-- The file is written; its mode is set, or that fails. -/
  | written {text : String} {u v : World} {r : Except StageError Bool} (some : text ≠ "")
      (outside : u.outside = w.outside) (write : w.tree.write path text.toUTF8 = .ok u.tree)
      (told : r ≠ .ok false)
      (mode : v = u ∨ v.outside = u.outside ∧ u.tree.setMode path 0o644 = .ok v.tree) :
      Writes w path (.ok text) r v

variable {s : Session Simulation} {w v : World} {path : Path} {r : Except StageError Bool}

theorem writes_writeSummary (h : w.perform (s.writeSummary path) = (r, v)) :
    ∃ told, w.perform s.summary = (told, w) ∧ Writes w path told r v := by
  have hkept := s.keeps_summary w
  rcases World.perform_bind_cases h with ⟨e, hsummary, rfl⟩ | ⟨text, u, hsummary, hrest⟩
  · rw [hsummary] at hkept
    obtain rfl : v = w := hkept
    exact ⟨.error e, hsummary, .untold e⟩
  · rw [hsummary] at hkept
    obtain rfl : u = w := hkept
    refine ⟨.ok text, hsummary, ?_⟩
    rw [World.perform_ite] at hrest
    split at hrest
    · rename_i hempty
      cases hrest
      rw [String.isEmpty_iff.1 hempty]
      exact .nothing
    · rename_i hsome
      rw [String.isEmpty_iff] at hsome
      rcases World.perform_bind_cases hrest with ⟨e, hwrite, rfl⟩ | ⟨_, t, hwrite, hmode⟩
      · rcases World.writeText_cases hwrite with ⟨-, -, rfl⟩ | ⟨hok, -⟩
        · exact .unwritten e hsome
        · cases hok
      · rcases World.writeText_cases hwrite with ⟨error, herror, -⟩ | ⟨-, houtside, hwritten⟩
        · cases herror
        · refine .written hsome houtside hwritten ?_ (World.setMode_then_cases hmode)
          rcases World.perform_bind_cases hmode with ⟨e, -, rfl⟩ | ⟨_, _, -, hreturn⟩
          · exact nofun
          · cases hreturn
            exact nofun

theorem summary_of_closed (hclosed : s.gate.isOpenIn w.tree = false) :
    w.perform s.summary = (.ok "", w) := by
  rw [summary, World.perform_bind_ok (s.gate.perform_isAccepted w), hclosed]
  rfl

theorem writeSummary_of_closed (hclosed : s.gate.isOpenIn w.tree = false) (path : Path) :
    w.perform (s.writeSummary path) = (.ok false, w) := by
  rw [writeSummary, World.perform_bind_ok (summary_of_closed hclosed)]
  rfl

/-- Writing a summary changes nothing, or the files at the place of its path. -/
theorem writeSummary_cases (h : w.perform (s.writeSummary path) = (r, v)) :
    v = w ∨ v.outside = w.outside ∧
      ∃ place, w.tree.locate path = .ok place ∧ w.tree.Alters v.tree place := by
  obtain ⟨told, -, hwrites⟩ := writes_writeSummary h
  cases hwrites with
  | untold | nothing | unwritten => exact .inl rfl
  | written some outside write told mode =>
    obtain ⟨place, hplace, halters⟩ := FileTree.alters_write write
    refine .inr ?_
    rcases mode with rfl | ⟨outside', hmode⟩
    · exact ⟨outside, place, hplace, halters⟩
    · obtain ⟨place', hplace', halters'⟩ := FileTree.alters_setMode hmode
      -- The file that was written is the one whose mode is set.
      rw [halters.locate_iff.2 hplace] at hplace'
      cases hplace'
      exact ⟨outside'.trans outside, place, hplace, halters.trans halters'⟩

theorem read_of_mode {u : World} {content : ByteArray}
    (hmode : v = u ∨ v.outside = u.outside ∧ u.tree.setMode path 0o644 = .ok v.tree)
    (hread : u.tree.read path = .ok content) : v.tree.read path = .ok content := by
  rcases hmode with rfl | ⟨-, hset⟩
  · exact hread
  · exact FileTree.read_setMode hset hread

theorem Writes.read {text : String} (h : Writes w path (.ok text) r v) :
    v = w ∨ v.tree.read path = .ok text.toUTF8 := by
  cases h with
  | nothing | unwritten => exact .inl rfl
  | written some outside write told mode =>
    exact .inr (read_of_mode mode (FileTree.read_write write))

/-- A summary that is written is the one of the lists that load, and it is there to be read. -/
theorem writeSummary_of_holdsNames {l : Lists} (hnames : s.store.HoldsNames w.tree l.names)
    (h : w.perform (s.writeSummary path) = (r, v)) :
    v = w ∨ v.tree.read path = .ok l.changes.text.toUTF8 := by
  obtain ⟨told, hsummary, hwrites⟩ := writes_writeSummary h
  by_cases hopen : s.gate.isOpenIn w.tree
  · rw [perform_summary_text hopen hnames] at hsummary
    cases hsummary
    exact hwrites.read
  · rw [writeSummary_of_closed (by simpa using hopen)] at h
    cases h
    exact .inl rfl

theorem read_writeSummary {text : String} {u : FileTree}
    (hsummary : w.perform s.summary = (.ok text, w)) (htext : text ≠ "")
    (hwrite : w.tree.write path text.toUTF8 = .ok u) (hread : u.read path = .ok text.toUTF8)
    (h : w.perform (s.writeSummary path) = (r, v)) : v.tree.read path = .ok text.toUTF8 := by
  have hwritten : w.perform (onFile path (FileSystem.writeText path text)) =
      (.ok (), { w with tree := u }) := by
    rw [World.perform_onFile, World.writeText_run, hwrite]
    rfl
  have hsome : ¬ text.isEmpty := by rwa [String.isEmpty_iff]
  rw [writeSummary, World.perform_bind_ok hsummary, World.perform_ite, if_neg hsome,
    World.perform_bind_ok hwritten] at h
  exact read_of_mode (World.setMode_then_cases h) hread

end Session

end PackageStaging
