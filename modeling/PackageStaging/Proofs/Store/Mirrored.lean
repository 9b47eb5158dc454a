import Mathlib.Logic.Equiv.Basic
import PackageStaging.Proofs.Change.Mirrored
import PackageStaging.Proofs.Files.Alteration
import PackageStaging.Proofs.Store.Readable

namespace PackageStaging

theorem Log.IsProper.mirror {log : Log} (h : log.IsProper) : IsProper log.mirror :=
  List.forall_mem_map.2 h

namespace FileTree

variable {t : FileTree} {p q : Path} {place a b : Place}

def exchange (t : FileTree) (a b : Place) : FileTree :=
  { t with node? := fun place ↦ t.node? (Equiv.swap a b place) }

theorem node?_exchange (t : FileTree) (a b place : Place) :
    (t.exchange a b).node? place = t.node? (Equiv.swap a b place) := rfl

theorem sameDirectories_exchange (ha : ¬ t.IsDirectory a) (hb : ¬ t.IsDirectory b) :
    t.SameDirectories (t.exchange a b) where
  working := rfl
  isDirectory place := by
    have hswap : (t.exchange a b).IsDirectory place ↔ t.IsDirectory (Equiv.swap a b place) :=
      Iff.rfl
    rw [hswap]
    by_cases hpa : place = a
    · rw [hpa, Equiv.swap_apply_left]
      exact iff_of_false hb ha
    · by_cases hpb : place = b
      · rw [hpb, Equiv.swap_apply_right]
        exact iff_of_false ha hb
      · rw [Equiv.swap_apply_of_ne_of_ne hpa hpb]

theorem read_exchange (ha : ¬ t.IsDirectory a) (hb : ¬ t.IsDirectory b)
    (hp : t.locate p = .ok place) (hq : t.locate q = .ok (Equiv.swap a b place)) :
    (t.exchange a b).read p = t.read q := by
  simp only [read, (sameDirectories_exchange ha hb).locate_iff.2 hp, hq, bind, Except.bind,
    node?_exchange]

theorem stat?_exchange (ha : ¬ t.IsDirectory a) (hb : ¬ t.IsDirectory b)
    (hp : ∀ place, t.locate p = .ok place → place ≠ a ∧ place ≠ b) :
    (t.exchange a b).stat? p = t.stat? p := by
  have hlocate (place : Place) :
      (t.exchange a b).locate p = .ok place ↔ t.locate p = .ok place :=
    (sameDirectories_exchange ha hb).locate_iff
  rw [stat?, stat?]
  cases ht : t.locate p with
  | ok place =>
    obtain ⟨hpa, hpb⟩ := hp place ht
    rw [(hlocate place).2 ht]
    exact congrArg t.node? (Equiv.swap_apply_of_ne_of_ne hpa hpb)
  | error e =>
    cases hu : (t.exchange a b).locate p with
    | ok place => cases ht.symm.trans ((hlocate place).1 hu)
    | error e' => rfl

end FileTree

def StoredList.mirror : StoredList → StoredList
  | add => remove
  | remove => add
  | unstaged => unstaged

theorem StoredList.mirror_ofOperation (o : Operation) :
    (ofOperation o).mirror = ofOperation o.opposite := by
  cases o <;> rfl

namespace Store

variable {s : Store} {t u : FileTree} {l : Lists}

/-- The two lists of names have exchanged their files, and the log holds the opposite of every change
that loads from it. -/
structure Mirrors (s : Store) (t u : FileTree) : Prop where
  enters : ∃ d, u.Enters s.base d
  names (o : Operation) :
    u.read (s.path (.ofOperation o)) = t.read (s.path (.ofOperation o.opposite))
  log : ∃ log, s.logIn t = .ok log ∧ s.logIn u = .ok log.mirror
  agreement :
    u.stat? (s.base.child Config.agreementName) = t.stat? (s.base.child Config.agreementName)

theorem Mirrors.isReadable (h : s.Mirrors t u) (ht : s.IsReadable t) : s.IsReadable u where
  enters := h.enters
  textual list := by
    have hnames (o : Operation) : u.IsTextual (s.path (.ofOperation o)) := by
      rw [FileTree.IsTextual, FileTree.text_congr (h.names o)]
      exact ht.textual _
    obtain ⟨log, -, hlog⟩ := h.log
    cases list with
    | add => exact hnames .add
    | remove => exact hnames .remove
    | unstaged => exact isTextual_of_logIn hlog

theorem Mirrors.holds (h : s.Mirrors t u) (hl : s.Holds t l) : s.Holds u l.mirror where
  names o := by
    have hitems := hl.names o.opposite
    rw [itemsIn] at hitems ⊢
    rw [FileTree.text_congr (h.names o)]
    cases htext : t.text (s.path (.ofOperation o.opposite)) with
    | ok text =>
      rw [htext] at hitems
      exact hitems
    | error e =>
      rw [htext] at hitems
      cases e with
      | notFound => exact hitems
      | _ => cases hitems
  log := by
    obtain ⟨log, ht, hu⟩ := h.log
    obtain rfl : l.log = log := Except.ok.inj (hl.log.symm.trans ht)
    exact hu

/-- The lists of names can change their files, with everything else as it was. -/
theorem IsReadable.exists_exchanged (h : s.IsReadable t) : ∃ v, s.IsReadable v ∧
    (∀ list : StoredList, v.read (s.path list) = t.read (s.path list.mirror)) ∧
    v.stat? (s.base.child Config.agreementName) = t.stat? (s.base.child Config.agreementName) := by
  obtain ⟨d, hd⟩ := h.isReachable
  let place (list : StoredList) : Place := list.fileName :: d
  have hlocate (list : StoredList) : t.locate (s.path list) = .ok (place list) :=
    (hd list).locate list.isEntryName
  have hfile (list : StoredList) : ¬ t.IsDirectory (place list) :=
    (h.textual list).not_isDirectory list.isEntryName (hd list)
  have hread (list : StoredList) : (t.exchange (place .add) (place .remove)).read (s.path list) =
      t.read (s.path list.mirror) := by
    have hswap : Equiv.swap (place .add) (place .remove) (place list) = place list.mirror := by
      cases list with
      | add => exact Equiv.swap_apply_left _ _
      | remove => exact Equiv.swap_apply_right _ _
      | unstaged =>
        have hne (other : StoredList) (ho : .unstaged ≠ other) : place .unstaged ≠ place other :=
          fun he ↦ StoredList.fileName_ne ho (List.cons.inj he).1
        exact Equiv.swap_apply_of_ne_of_ne (hne .add (by decide)) (hne .remove (by decide))
    exact FileTree.read_exchange (hfile _) (hfile _) (hlocate list) (hswap ▸ hlocate list.mirror)
  refine ⟨_, ⟨⟨d, ?_⟩, fun list ↦ ?_⟩, hread, ?_⟩
  · have hsame := FileTree.sameDirectories_exchange (hfile .add) (hfile .remove)
    exact (hd .add).enters.mono hsame.working fun q ↦ (hsame.isDirectory q).2
  · rw [FileTree.IsTextual, FileTree.text_congr (hread list)]
    exact h.textual list.mirror
  · refine FileTree.stat?_exchange (hfile _) (hfile _) fun q hq ↦ ?_
    obtain ⟨e, -, rfl⟩ := FileTree.leadsInto_of_locate Config.isEntryName_agreementName hq
    have hne (list : StoredList) : Config.agreementName :: e ≠ place list :=
      fun he ↦ Config.agreementName_ne list (List.cons.inj he).1
    exact ⟨hne .add, hne .remove⟩

theorem IsReadable.exists_mirrors (h : s.IsReadable t) : ∃ u, s.Mirrors t u := by
  obtain ⟨l, hl⟩ := h.exists_holds
  obtain ⟨v, hv, hread, hagreement⟩ := h.exists_exchanged
  obtain ⟨u, hsave⟩ := hv.exists_save .unstaged (l.log.mirror.map Change.render)
  obtain ⟨d, hd⟩ := hv.enters
  refine ⟨u, ⟨d, enters_save hd hsave⟩, fun o ↦ ?_, ⟨l.log, hl.log, ?_⟩, ?_⟩
  · have hkept := FileTree.read_write_of_ne StoredList.unstaged.isEntryName
      (StoredList.ofOperation o).isEntryName
      (StoredList.fileName_ne (StoredList.ofOperation_ne_unstaged o)) hsave
    rw [← StoredList.mirror_ofOperation]
    exact hkept.trans (hread (.ofOperation o))
  · exact logIn_save_self hsave (isProper_logIn hl.log).mirror
  · exact (stat?_agreement_save hsave).trans hagreement

end Store

end PackageStaging
