import PackageStaging.Proofs.Session.Edits
import PackageStaging.Proofs.Store.Written

namespace PackageStaging

namespace Session

variable {s : Session Simulation} {w v : World} {o : Operation} {name : String}

theorem hasWritten_stage (hquiet : s.catalog.IsQuiet)
    (h : w.perform (s.stage o name) = (.ok (), v)) : ∃ log, s.store.HasWritten v.tree log := by
  obtain ⟨n, u, hvalid, hlogged, hmoved⟩ := staged_of_ok hquiet h
  obtain ⟨log, -, hwritten⟩ := hlogged.hasWritten (validName_ok hvalid).2
  exact ⟨_, hwritten.moved hmoved⟩

theorem hasWritten_clear (h : w.perform s.clear = (.ok (), v)) :
    s.store.HasWritten v.tree [] := by
  rcases clear_cases h with ⟨-, hsave⟩ | hstall
  · have hempty : Log.IsProper [] := List.forall_mem_nil _
    exact Store.hasWritten_save hempty hsave
  · obtain ⟨e, he, -⟩ := hstall.error
    cases he

/-- After a change was staged or the log was cleared, the file of the log is the text of a log whose
changes have names that are trimmed, not empty, on one line and pairwise different. Each of its
lines is read as its change, so that this log is what loads; it is its own net effect; and saving it
again succeeds and changes nothing. -/
theorem log_heals (hquiet : s.catalog.IsQuiet)
    (h : (∃ o name, w.perform (s.stage o name) = (.ok (), v)) ∨
      w.perform s.clear = (.ok (), v)) :
    ∃ log : Log, v.tree.read (s.store.path .unstaged) = .ok log.text.toUTF8 ∧
      (∀ c ∈ log, Text.trim c.name = c.name ∧ c.name ≠ "" ∧ '\n' ∉ c.name.toList) ∧
      (log.map Change.name).Nodup ∧
      (Text.lines log.text).map Change.read = log.map .ok ∧
      v.perform s.unstaged = (.ok log, v) ∧
      log.net = log ∧
      v.perform (s.store.saveLog log) = (.ok log, v) := by
  obtain ⟨log, hwritten⟩ : ∃ log, s.store.HasWritten v.tree log := by
    rcases h with ⟨o, name, hstage⟩ | hclear
    · exact hasWritten_stage hquiet hstage
    · exact ⟨[], hasWritten_clear hclear⟩
  refine ⟨log, hwritten.read, fun c hc ↦ ?_, hwritten.settled, hwritten.proper.read_lines_text,
    hwritten.perform_loadLog, hwritten.settled.net_eq, hwritten.perform_saveLog⟩
  have hitem := hwritten.proper c hc
  exact ⟨hitem.trim_eq, hitem.ne_empty, hitem.one_line⟩

def frayed : StoredList → Option String
  | .unstaged => some "+ vim\r\n\n* nano\n -   git \n+ vim\nno change\n- vim\n+ a\tb\n+"
  | _ => none

theorem holds_frayed : Store.Holds ⟨Config.bare.base⟩ (World.spelled frayed).tree
    ⟨fun _ ↦ [], [⟨.add, "vim"⟩, ⟨.remove, "git"⟩, ⟨.add, "vim"⟩, ⟨.remove, "vim"⟩,
      ⟨.add, "a\tb"⟩]⟩ where
  names o := by
    rw [itemsIn_spelled]
    cases o <;> rfl
  log := by
    rw [Store.logIn, itemsIn_spelled]
    exact congrArg Except.ok (by decide)

theorem log_heals_frayed :
    let healed : Log := [⟨.remove, "git"⟩, ⟨.add, "a\tb"⟩, ⟨.remove, "nano"⟩]
    ∃ v, (World.spelled frayed).perform (OpenSession.bare.session.stage .remove " nano ") =
        (.ok (), v) ∧
      v.tree.read (Store.path ⟨Config.bare.base⟩ .unstaged) =
        .ok "- git\n+ a\tb\n- nano\n".toUTF8 ∧
      v.perform (Store.saveLog ⟨Config.bare.base⟩ healed) = (.ok healed, v) := by
  intro healed
  have hquiet : OpenSession.bare.session.catalog.IsQuiet := Catalog.isQuiet_fixed _
  have hvalid : validName " nano " = .ok "nano" := rfl
  have hok := (stage_ok_iff (s := OpenSession.bare.session) (o := .remove) hquiet
    (isReadable_spelled frayed) holds_frayed.names).2
      ⟨"nano", hvalid, rfl, .inr (lookUp_ok Catalog.isFull_full _ "nano")⟩
  obtain ⟨r, v, h⟩ : ∃ r v, (World.spelled frayed).perform
    (OpenSession.bare.session.stage .remove " nano ") = (r, v) := ⟨_, _, rfl⟩
  obtain rfl : r = .ok () := by rwa [h] at hok
  obtain ⟨log, hread, -, -, -, hload, -, hsave⟩ := log_heals hquiet (.inl ⟨_, _, h⟩)
  have hlog : log = healed := by
    obtain ⟨n, u, hn, hlogged, hmoved⟩ := staged_of_ok hquiet h
    obtain rfl : n = "nano" := Except.ok.inj (hn.symm.trans hvalid)
    have hlater := (holds_frayed.logged (validName_ok hvalid).2 hlogged).log
    rw [unstaged, Store.perform_loadLog, hmoved.logIn] at hload
    have hnet : log = Log.net _ :=
      Except.ok.inj ((congrArg Prod.fst hload).symm.trans hlater)
    exact hnet.trans (by decide)
  subst hlog
  exact ⟨v, h, hread, hsave⟩

end Session

end PackageStaging
