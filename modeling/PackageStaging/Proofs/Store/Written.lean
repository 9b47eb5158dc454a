import PackageStaging.Proofs.Store.Staged

namespace PackageStaging.Store

open Text (IsItem)

variable {s : Store} {c : Change} {t u : FileTree} {w : World} {log : Log}

/-- The file of the log holds the text of a log in which each change has an item for a name, and one
of its own. -/
structure HasWritten (s : Store) (t : FileTree) (log : Log) : Prop where
  read : t.read (s.path .unstaged) = .ok log.text.toUTF8
  proper : log.IsProper
  settled : log.IsSettled

theorem hasWritten_save (hlog : log.IsProper)
    (h : s.saveIn t .unstaged (log.net.map Change.render) = .ok u) : s.HasWritten u log.net where
  read := by
    rw [← hlog.net.ofItems_render]
    exact FileTree.read_write_self StoredList.unstaged.isEntryName h
  proper := hlog.net
  settled := Log.isSettled_net log

theorem Logged.hasWritten (hc : IsItem c.name) (h : s.Logged c t u) :
    ∃ log, s.logIn t = .ok log ∧ s.HasWritten u (Log.net (log ++ [c])) := by
  obtain ⟨log, hlog, hsave⟩ := h
  exact ⟨log, hlog, hasWritten_save ((isProper_logIn hlog).append hc) hsave⟩

theorem HasWritten.moved (h : s.HasWritten t log) (hmoved : s.Moved c t u) :
    s.HasWritten u log where
  read := hmoved.read_log.trans h.read
  proper := h.proper
  settled := h.settled

theorem HasWritten.perform_loadLog (h : s.HasWritten w.tree log) :
    w.perform s.loadLog = (.ok log, w) := by
  have hread := h.read
  rw [← h.proper.ofItems_render] at hread
  rw [Store.perform_loadLog, logIn_of_read hread h.proper]

theorem HasWritten.perform_saveLog (h : s.HasWritten w.tree log) :
    w.perform (s.saveLog log) = (.ok log, w) := by
  have hsave : s.saveIn w.tree .unstaged (log.net.map Change.render) = .ok w.tree := by
    rw [saveIn, h.settled.net_eq, h.proper.ofItems_render]
    exact FileTree.write_read_self StoredList.unstaged.isEntryName h.read
  rw [Store.perform_saveLog, hsave, h.settled.net_eq]

end PackageStaging.Store
