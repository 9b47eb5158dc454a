import PackageStaging.Proofs.Change.Standing
import PackageStaging.Proofs.Session.Progress

namespace PackageStaging.OpenSession

variable {l : OpenSession} {base : Path} {h : History} {calls : List Call}

structure Shows (l : OpenSession) (lists : Lists) : Prop where
  packages (o : Operation) : l.packages o = .ok (lists.names o)
  unstaged : l.unstaged = .ok lists.log

theorem Shows.unique {lists others : Lists} (h : l.Shows lists) (h' : l.Shows others) :
    lists = others := by
  ext1
  · funext o
    exact Except.ok.inj ((h.packages o).symm.trans (h'.packages o))
  · exact Except.ok.inj (h.unstaged.symm.trans h'.unstaged)

theorem Follows.shows (hl : l.Follows base h) : l.Shows (.ofHistory h.all h.recent) :=
  ⟨hl.packages_eq, hl.unstaged_eq⟩

theorem Follows.lastClear (hl : l.Follows base {}) (hcalls : ∀ c ∈ calls, c.StaysAt base) :
    (l.lastClear calls).Follows base (l.history (calls.rdropWhile (!·.isClear))) :=
  hl.run fun c hc ↦ hcalls c ((List.rdropWhile_prefix _ _).subset hc)

theorem applied_after {c : Call} (hc : c.isClear = false) (r : Except StageError Unit) :
    (h.after c r).applied = h.applied := by
  cases c with
  | clear => cases hc
  | stage o name => cases r <;> rfl
  | _ => rfl

theorem Follows.all_lastClear (hl : l.Follows base {}) (hcalls : ∀ c ∈ calls, c.StaysAt base) :
    (l.history (calls.rdropWhile (!·.isClear))).all = (l.history calls).applied := by
  induction calls using List.reverseRecOn with
  | nil => rfl
  | append_singleton calls c ih =>
    obtain ⟨hinit, -⟩ := List.forall_mem_append.1 hcalls
    cases hc : c.isClear with
    | false =>
      rw [List.rdropWhile_concat_pos _ _ _ (by simp [hc]), ih hinit, history_concat,
        applied_after hc]
    | true =>
      obtain rfl : c = .clear := by cases c <;> first | rfl | cases hc
      rw [List.rdropWhile_concat_neg _ _ _ (by simp [Call.isClear]), history_concat,
        (hl.run hinit).clear_ok]
      exact List.append_nil _

theorem mem_names_net {log : Log} {o : Operation} {n : String} :
    n ∈ log.net.names o ↔ log.net.standing n = some o := by
  rw [Log.mem_names, (Log.isSettled_net log).standing_eq_some]

/-- Where a name stands in the lists of names: the changes since the last clear go on from there. -/
theorem mem_names_all {o : Operation} {n : String} : n ∈ h.all.net.names o ↔
    (h.recent.operationsOn n).foldl Log.toggle (h.applied.net.standing n) = some o := by
  rw [mem_names_net, History.all, Log.standing_net_append]

theorem mem_log {o : Operation} {n : String} : ⟨o, n⟩ ∈ h.recent.net ↔
    (h.recent.operationsOn n).foldl Log.toggle none = some o := by
  rw [← (Log.isSettled_net h.recent).standing_eq_some, Log.standing_net]

theorem Follows.shows_lastClear (hl : l.Follows base {}) (hcalls : ∀ c ∈ calls, c.StaysAt base) :
    ∃ rest, (l.lastClear calls).Shows ⟨(l.history calls).applied.net.names, rest⟩ := by
  have hshows := (hl.lastClear hcalls).shows
  rw [hl.all_lastClear hcalls] at hshows
  exact ⟨_, hshows⟩

/-- A name that was in a list at the last clear, and is there no more, has the opposite change in
the log exactly if it went on to the opposite list or the changes to it took turns; otherwise it is
in neither list and the log does not know of it. -/
theorem log_of_gone {w : World} {config : Config} {catalog : Catalog Simulation}
    (hopen : w.perform (Session.start config catalog) = (.ok l.session, l.world))
    (hquiet : catalog.IsQuiet) (hfresh : w.IsFresh config.base)
    (hcalls : ∀ c ∈ calls, c.StaysAt config.base) :
    ∃ before now : Lists, (l.lastClear calls).Shows before ∧ (l.run calls).Shows now ∧
      (l.run calls).command .apply = .ok ((l.run calls).session.synthesizer.command
        (now.log.names .add) (now.log.names .remove)) ∧
      ∀ o, ∀ n ∈ before.names o, n ∉ now.names o →
        (⟨o.opposite, n⟩ ∈ now.log ↔ n ∈ now.names o.opposite ∨
          Log.takesTurns o.opposite ((l.history calls).recent.operationsOn n)) ∧
        (⟨o.opposite, n⟩ ∉ now.log → ∀ p, n ∉ now.names p ∧ ⟨p, n⟩ ∉ now.log) := by
  have hl := Follows.of_start hopen hquiet hfresh
  have hnow := hl.run hcalls
  obtain ⟨rest, hbefore⟩ := hl.shows_lastClear hcalls
  refine ⟨_, _, hbefore, hnow.shows, hnow.command_apply_eq, ?_⟩
  intro o n hn hgone
  have hstood := mem_names_net.1 hn
  have hleft := mt mem_names_all.2 hgone
  rw [hstood] at hleft
  have hiff : ⟨o.opposite, n⟩ ∈ (l.history calls).recent.net ↔
      n ∈ (l.history calls).all.net.names o.opposite ∨
        Log.takesTurns o.opposite ((l.history calls).recent.operationsOn n) := by
    rw [mem_log, mem_names_all, hstood]
    exact Log.foldl_toggle_of_gone hleft
  refine ⟨hiff, ?_⟩
  intro hlost p
  obtain ⟨hother, hturns⟩ := not_or.1 (mt hiff.2 hlost)
  have hnames : n ∉ (l.history calls).all.net.names p := by
    by_cases hp : p = o
    · rwa [hp]
    · rwa [Operation.eq_opposite_of_ne hp]
  refine ⟨hnames, fun hlog ↦ hnames ?_⟩
  -- The run from the list and the run from nothing have met, so the log holds what the lists do.
  rw [mem_names_all, hstood, Log.foldl_toggle_of_not_takesTurns hturns]
  exact mem_log.1 hlog

theorem log_of_gone_bare :
    ∃ now : Lists, (bare.run [.stage .add "vim", .clear, .stage .remove "vim"]).Shows now ∧
      "vim" ∉ now.names .add ∧ ⟨.remove, "vim"⟩ ∈ now.log := by
  have hplain : ∀ c ∈ [Call.stage .add "vim", .clear, .stage .remove "vim"], c.isPlain := by decide
  have hstays := fun c hc ↦ Call.staysAt_of_isPlain (hplain c hc) Config.bare.base
  obtain ⟨before, now, hbefore, hnow, -, hall⟩ :=
    log_of_gone start_bare (Catalog.isQuiet_fixed _) isFresh_bare hstays
  obtain rfl := hnow.unique (follows_bare.run hstays).shows
  obtain ⟨rest, hshows⟩ := follows_bare.shows_lastClear hstays
  obtain rfl := hbefore.unique hshows
  rw [history_bare hplain] at hnow hall
  have hvim : "vim" ∈ (Log.net [⟨.add, "vim"⟩]).names .add := by decide
  have hgone := hall .add "vim" hvim (by decide)
  exact ⟨_, hnow, by decide, hgone.1.2 (.inr (by decide))⟩

/-- An applied addition that is asked for once more and then taken back leaves no removal to apply:
the package is in no list, and the log is empty. -/
theorem gone_unlogged :
    let calls := [Call.stage .add "vim", .clear, .stage .add "vim", .stage .remove "vim"]
    (bare.lastClear calls).packages .add = .ok ["vim"] ∧
      (∀ o, (bare.run calls).packages o = .ok []) ∧ (bare.run calls).unstaged = .ok [] ∧
      (bare.run calls).command .apply = .ok "" := by
  intro calls
  have hplain : ∀ c ∈ calls, c.isPlain := by decide
  have hstays := fun c hc ↦ Call.staysAt_of_isPlain (hplain c hc) Config.bare.base
  obtain ⟨rest, hbefore⟩ := follows_bare.shows_lastClear hstays
  have hnow := follows_bare.run hstays
  rw [history_bare hplain] at hbefore hnow
  refine ⟨hbefore.packages .add, fun o ↦ (hnow.packages_eq o).trans ?_, hnow.unstaged_eq,
    hnow.command_apply_eq⟩
  cases o <;> rfl

end PackageStaging.OpenSession
