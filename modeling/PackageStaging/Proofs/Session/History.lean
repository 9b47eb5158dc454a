import PackageStaging.Proofs.Session.Run

namespace PackageStaging

namespace Lists

def after (lists : Lists) : Call → Except StageError Unit → Lists
  | .stage o name, .ok () => lists.stage ⟨o, Text.trim name⟩
  | .clear, .ok () => lists.clear
  | _, _ => lists

theorem after_ofHistory (h : History) (c : Call) (r : Except StageError Unit) :
    (ofHistory h.all h.recent).after c r = ofHistory (h.after c r).all (h.after c r).recent := by
  cases r with
  | error e => cases c <;> rfl
  | ok a =>
    cases c with
    | stage o name =>
      simp only [after, stage_ofHistory, History.after, History.all, List.append_assoc]
    | clear => simp only [after, clear_ofHistory, History.after, History.all, List.append_nil]
    | accept | ask | reopen => rfl

end Lists

namespace OpenSession

variable {l : OpenSession} {base : Path} {lists : Lists} {h : History} {c : Call}
  {calls : List Call}

/-- A session at a base directory where every list has its file, and what the lists hold. -/
structure Records (l : OpenSession) (base : Path) (lists : Lists) : Prop where
  isAt : l.session.IsAt base
  stands : Store.Stands ⟨base⟩ l.world.tree
  holds : Store.Holds ⟨base⟩ l.world.tree lists

theorem Records.of_start {w : World} {config : Config} {catalog : Catalog Simulation}
    (hopen : w.perform (Session.start config catalog) = (.ok l.session, l.world))
    (hquiet : catalog.IsQuiet) (hfresh : w.IsFresh config.base) :
    l.Records config.base .empty := by
  obtain ⟨hstands, hholds⟩ := Session.start_of_fresh hfresh hopen
  exact ⟨Session.isAt_start hquiet hopen, hstands, hholds⟩

theorem Records.step (hl : l.Records base lists) (hc : c.StaysAt base) :
    (l.step c).2.Records base (lists.after c (l.step c).1) := by
  obtain ⟨hat, hstands, hholds⟩ := hl
  have hfiles : Store.Stands ⟨base⟩ (l.step c).2.world.tree ∧
      Store.Holds ⟨base⟩ (l.step c).2.world.tree (lists.after c (l.step c).1) := by
    have he := effect_step hat hc
    generalize (l.step c).1 = r at he
    generalize (l.step c).2.world.tree = t at he
    cases he with
    | refused o name e => exact ⟨hstands, hholds⟩
    | staged item logged moved =>
      exact ⟨(hstands.logged logged).moved moved, hholds.stage item logged moved⟩
    | halted e item logged stuck =>
      exact absurd stuck ((hstands.logged logged).not_isStuck (hholds.logged item logged))
    | cleared save => exact ⟨hstands.write save, hholds.clear save⟩
    | uncleared e stuck => exact absurd stuck (hstands.not_isStuck hholds)
    | accepted r write =>
      exact ⟨hstands.write write, hholds.write_other Config.isEntryName_agreementName
        Config.agreementName_ne write⟩
    | unaccepted r => exact ⟨hstands, hholds⟩
    | asked q r => exact ⟨hstands, hholds⟩
    | @reopened config catalog w v r at_base start reopen =>
      rw [← at_base, ← start] at hstands
      have htree := Session.start_of_stands hstands reopen
      rw [htree, start]
      rw [start, at_base] at hstands
      refine ⟨hstands, ?_⟩
      cases r <;> exact hholds
  exact ⟨isAt_step hat hc, hfiles.1, hfiles.2⟩

/-- A session at a base directory whose lists are what a history leads to. -/
structure Follows (l : OpenSession) (base : Path) (h : History) : Prop where
  isAt : l.session.IsAt base
  stands : Store.Stands ⟨base⟩ l.world.tree
  holds : Store.Holds ⟨base⟩ l.world.tree (.ofHistory h.all h.recent)

theorem Follows.records (hl : l.Follows base h) : l.Records base (.ofHistory h.all h.recent) :=
  ⟨hl.isAt, hl.stands, hl.holds⟩

theorem Follows.of_start {w : World} {config : Config} {catalog : Catalog Simulation}
    (hopen : w.perform (Session.start config catalog) = (.ok l.session, l.world))
    (hquiet : catalog.IsQuiet) (hfresh : w.IsFresh config.base) : l.Follows config.base {} := by
  obtain ⟨hat, hstands, hholds⟩ := Records.of_start hopen hquiet hfresh
  exact ⟨hat, hstands, hholds⟩

theorem Follows.step (hl : l.Follows base h) (hc : c.StaysAt base) :
    (l.step c).2.Follows base (h.after c (l.step c).1) := by
  have hstep := hl.records.step hc
  rw [Lists.after_ofHistory] at hstep
  exact ⟨hstep.isAt, hstep.stands, hstep.holds⟩

theorem Follows.run (hl : l.Follows base {}) (hcalls : ∀ c ∈ calls, c.StaysAt base) :
    (l.run calls).Follows base (l.history calls) :=
  trace_induction (P := (·.Follows base ·)) hl Follows.step hcalls

theorem Follows.itemsIn_eq (hl : l.Follows base h) (o : Operation) :
    l.session.store.itemsIn l.world.tree (.ofOperation o) = .ok (h.all.net.names o) := by
  rw [hl.isAt.store]
  exact hl.holds.names o

theorem Follows.logIn_eq (hl : l.Follows base h) :
    l.session.store.logIn l.world.tree = .ok h.recent.net := by
  rw [hl.isAt.store]
  exact hl.holds.log

theorem Follows.packages_eq (hl : l.Follows base h) (o : Operation) :
    l.packages o = .ok (h.all.net.names o) := by
  rw [packages, Session.perform_packages, hl.itemsIn_eq]

theorem Follows.unstaged_eq (hl : l.Follows base h) : l.unstaged = .ok h.recent.net := by
  rw [unstaged, Session.unstaged, Store.perform_loadLog, hl.logIn_eq]

theorem Follows.command_apply_eq (hl : l.Follows base h) : l.command .apply =
    .ok (l.session.synthesizer.command (h.recent.net.names .add) (h.recent.net.names .remove)) := by
  rw [command, Session.command, World.perform_bind, Session.unstaged, Store.perform_loadLog,
    hl.logIn_eq]
  rfl

theorem Follows.command_upgrade_eq (hl : l.Follows base h) : l.command .upgrade =
    .ok (l.session.synthesizer.command (h.all.net.names .add) (h.all.net.names .remove)) := by
  simp only [command, Session.command, World.perform_bind, Session.perform_packages, hl.itemsIn_eq]
  rfl

theorem applied_of_not_mem_clear (hcalls : Call.clear ∉ calls) :
    (l.history calls).applied = [] := by
  induction calls using List.reverseRecOn with
  | nil => rfl
  | append_singleton calls c ih =>
    simp only [List.mem_append, List.mem_singleton, not_or] at hcalls
    have hlast := ih hcalls.1
    rw [history_concat]
    cases c with
    | clear => exact absurd rfl hcalls.2
    | stage o name => cases ((l.run calls).step (.stage o name)).1 <;> exact hlast
    | _ => exact hlast

end OpenSession

end PackageStaging
