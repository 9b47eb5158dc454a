import PackageStaging.Proofs.Session.Progress

namespace PackageStaging.OpenSession

variable {l : OpenSession} {calls : List Call}

/-- The log is the net effect of the changes since it was last cleared, and the lists of names are the
two halves of the net effect of all changes. -/
theorem history_law {w : World} {config : Config} {catalog : Catalog Simulation}
    (hopen : w.perform (Session.start config catalog) = (.ok l.session, l.world))
    (hquiet : catalog.IsQuiet) (hfresh : w.IsFresh config.base)
    (hcalls : ∀ c ∈ calls, c.StaysAt config.base) :
    let h := l.history calls
    let now := l.run calls
    now.unstaged = .ok h.recent.net ∧
      (∀ o, now.packages o = .ok (h.all.net.names o)) ∧
      now.command .apply = .ok (now.session.synthesizer.command
        (h.recent.net.names .add) (h.recent.net.names .remove)) ∧
      now.command .upgrade = .ok (now.session.synthesizer.command
        (h.all.net.names .add) (h.all.net.names .remove)) ∧
      (Call.clear ∉ calls → now.command .apply = now.command .upgrade) := by
  intro h now
  have hnow : now.Follows config.base h := (Follows.of_start hopen hquiet hfresh).run hcalls
  refine ⟨hnow.unstaged_eq, hnow.packages_eq, hnow.command_apply_eq, hnow.command_upgrade_eq, ?_⟩
  intro hclear
  have hall : h.all = h.recent := by
    rw [History.all, applied_of_not_mem_clear hclear, List.nil_append]
  rw [hnow.command_apply_eq, hnow.command_upgrade_eq, hall]

theorem history_law_bare :
    let now := bare.run [.stage .add " vim ", .clear, .stage .remove "nano"]
    now.unstaged = .ok [⟨.remove, "nano"⟩] ∧ now.packages .add = .ok ["vim"] ∧
      now.command .apply = .ok "purge nano" ∧
      now.command .upgrade = .ok "install vim && purge nano" := by
  have hplain : ∀ c ∈ [Call.stage .add " vim ", .clear, .stage .remove "nano"], c.isPlain := by
    decide
  obtain ⟨hsession, hhistory⟩ :=
    follows_bare.run_plain (by decide) Catalog.isFull_full hplain
  obtain ⟨hunstaged, hpackages, happly, hupgrade, -⟩ :=
    history_law start_bare (Catalog.isQuiet_fixed _) isFresh_bare fun c hc ↦
      Call.staysAt_of_isPlain (hplain c hc) Config.bare.base
  rw [hhistory] at hunstaged hpackages happly hupgrade
  rw [hsession] at happly hupgrade
  exact ⟨hunstaged.trans rfl, (hpackages .add).trans rfl, happly.trans rfl, hupgrade.trans rfl⟩

end PackageStaging.OpenSession
