import PackageStaging.Proofs.Change.Restricted
import PackageStaging.Proofs.Session.Edits

namespace PackageStaging

variable {t u v : FileTree} {base : Path}

namespace Lists

def text (l : Lists) : StoredList → String
  | .add => Text.ofItems (l.names .add)
  | .remove => Text.ofItems (l.names .remove)
  | .unstaged => Text.ofItems (l.log.net.map Change.render)

theorem text_update_names (l : Lists) (o : Operation) (items : List String) :
    Function.update l.text (.ofOperation o) (Text.ofItems items) =
      text { l with names := Function.update l.names o items } := by
  funext list
  cases o <;> cases list <;> simp [text, StoredList.ofOperation]

theorem text_update_log (l : Lists) (log : Log) :
    Function.update l.text .unstaged (Text.ofItems (log.net.map Change.render)) =
      text { l with log := log.net } := by
  funext list
  cases list <;> simp [text, Log.net_net]

end Lists

namespace Store

variable {s : Store} {text : StoredList → String} {list : StoredList} {items : List String}
  {l : Lists} {c : Change}

def Spells (s : Store) (t : FileTree) (text : StoredList → String) : Prop :=
  ∀ list, t.read (s.path list) = .ok (text list).toUTF8

theorem Spells.save (h : s.Spells t text) (hsave : s.saveIn t list items = .ok u) :
    s.Spells u (Function.update text list (Text.ofItems items)) := by
  intro other
  by_cases ho : other = list
  · subst ho
    rw [Function.update_self]
    exact FileTree.read_write_self other.isEntryName hsave
  · rw [Function.update_of_ne ho, ← h other]
    exact FileTree.read_write_of_ne list.isEntryName other.isEntryName
      (StoredList.fileName_ne ho) hsave

/-- Each list stands as the text in which what it holds is written. -/
structure IsCanonical (s : Store) (t : FileTree) (l : Lists) : Prop where
  holds : s.Holds t l
  spells : s.Spells t l.text

theorem IsCanonical.net_log (h : s.IsCanonical t l) : l.log.net = l.log := by
  -- The net effect is what is written, so it is what loads.
  have hproper := (isProper_logIn h.holds.log).net
  exact Except.ok.inj ((logIn_of_read (h.spells .unstaged) hproper).symm.trans h.holds.log)

theorem Spells.logged (h : s.IsCanonical t l) (hlog : s.Logged c t u) :
    s.Spells u (Lists.text { l with log := Log.net (l.log ++ [c]) }) := by
  obtain ⟨log, hload, hsave⟩ := hlog
  obtain rfl := Except.ok.inj (h.holds.log.symm.trans hload)
  rw [← Lists.text_update_log]
  exact h.spells.save hsave

theorem Spells.moved (hnames : s.HoldsNames t l.names) (h : s.Spells t l.text)
    (hmoved : s.Moved c t u) :
    s.Spells u (Lists.text { l with names := Lists.move l.names c }) := by
  rcases hnames.move_cases hmoved with ⟨hsame, rfl⟩ | ⟨o, items, hnew, hsave⟩
  · rwa [hsame]
  · rw [hnew, ← Lists.text_update_names]
    exact h.save hsave

theorem IsCanonical.stage (h : s.IsCanonical t l) (hc : Text.IsItem c.name)
    (hlog : s.Logged c t u) (hmoved : s.Moved c u v) : s.IsCanonical v (l.stage c) where
  holds := h.holds.stage hc hlog hmoved
  spells := .moved (l := { l with log := Log.net (l.log ++ [c]) }) (h.holds.names.logged hlog)
    (.logged h hlog) hmoved

end Store

def Change.call (c : Change) : Call := .stage c.operation c.name

def Change.trimmed (c : Change) : Change := { c with name := Text.trim c.name }

namespace OpenSession

variable {l : OpenSession} {lists : Lists} {changes : List Change} {o : Operation} {n : String}

theorem isCanonical_run (hat : l.session.IsAt base)
    (h : Store.IsCanonical ⟨base⟩ l.world.tree lists) (hok : l.Succeeds (changes.map Change.call)) :
    Store.IsCanonical ⟨base⟩ (l.run (changes.map Change.call)).world.tree
      ((changes.map Change.trimmed).foldl Lists.stage lists) := by
  induction changes generalizing l lists with
  | nil => exact h
  | cons c changes ih =>
    obtain ⟨hfirst, hrest⟩ := hok
    obtain ⟨hitem, u, hlogged, hmoved⟩ := staged_of_ok hat hfirst
    rw [List.map_cons, run_cons]
    exact ih (isAt_step hat trivial) (h.stage hitem hlogged hmoved) hrest

/-- A change of a new package that is taken back after changes of other packages leaves each file
with the bytes that those changes alone leave it with. -/
theorem run_cancelled (hat : l.session.IsAt base)
    (hcanonical : Store.IsCanonical ⟨base⟩ l.world.tree lists) (htrim : Text.trim n = n)
    (hlacks : lists.Lacks n) (hothers : ∀ c ∈ changes, Text.trim c.name ≠ n)
    (halone : l.Succeeds (changes.map Change.call))
    (hpair : l.Succeeds ((⟨o, n⟩ :: (changes ++ [⟨o.opposite, n⟩])).map Change.call))
    (list : StoredList) : ∃ content,
      (l.run (changes.map Change.call)).world.tree.read (Store.path ⟨base⟩ list) = .ok content ∧
      (l.run ((⟨o, n⟩ :: (changes ++ [⟨o.opposite, n⟩])).map Change.call)).world.tree.read
        (Store.path ⟨base⟩ list) = .ok content := by
  have hlast := (isCanonical_run hat hcanonical halone).spells list
  have hlast' := (isCanonical_run hat hcanonical hpair).spells list
  have htrimmed (p : Operation) : Change.trimmed ⟨p, n⟩ = ⟨p, n⟩ := by rw [Change.trimmed, htrim]
  have hsame : ((⟨o, n⟩ :: (changes ++ [⟨o.opposite, n⟩])).map Change.trimmed).foldl Lists.stage
      lists = (changes.map Change.trimmed).foldl Lists.stage lists := by
    rw [List.map_cons, List.map_append, List.map_singleton, htrimmed, htrimmed, List.foldl_cons,
      List.foldl_concat]
    exact Lists.stage_opposite_foldl (c := ⟨o, n⟩) hcanonical.net_log hlacks
      (List.forall_mem_map.2 hothers)
  rw [hsame] at hlast'
  exact ⟨_, hlast, hlast'⟩

theorem isCanonical_tidy : Store.IsCanonical ⟨Config.bare.base⟩ tidy.world.tree .tidy where
  holds := holds_tidy
  spells list := by
    refine (World.read_spelled _ list).trans ?_
    cases list <;> exact congrArg (fun text : String ↦ Except.ok text.toUTF8) (by decide)

theorem run_cancelled_tidy :
    let others : List Change := [⟨.remove, " vim "⟩, ⟨.add, "ed"⟩]
    let pair (o : Operation) : List Change := ⟨o, "emacs"⟩ :: (others ++ [⟨o.opposite, "emacs"⟩])
    let file := Store.path ⟨Config.bare.base⟩ .unstaged
    ∃ content, (tidy.run (others.map Change.call)).world.tree.read file = .ok content ∧
      (tidy.run ((pair .add).map Change.call)).world.tree.read file = .ok content := by
  have hlacks : Lists.tidy.Lacks "emacs" := ⟨fun o ↦ by cases o <;> decide, by decide⟩
  dsimp only
  exact run_cancelled has_tidy.isAt isCanonical_tidy (by decide) hlacks (by decide)
    (succeeds_tidy (by decide)) (succeeds_tidy (by decide)) .unstaged

end OpenSession

end PackageStaging
