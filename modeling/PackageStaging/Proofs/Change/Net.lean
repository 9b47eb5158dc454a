import Mathlib.Data.List.Induction
import Mathlib.Data.List.Nodup
import PackageStaging.Change.Log

namespace PackageStaging.Log

/-- No name stands in the log twice. -/
def IsSettled (log : Log) : Prop := (log.map Change.name).Nodup

theorem isSettled_nil : IsSettled [] := List.nodup_nil

theorem IsSettled.filter {log : Log} (h : log.IsSettled) (p : Change → Bool) :
    IsSettled (log.filter p) :=
  h.sublist (List.filter_sublist.map _)

theorem IsSettled.append {log : Log} (h : log.IsSettled) {c : Change}
    (hc : ∀ e ∈ log, e.name ≠ c.name) : IsSettled (log ++ [c]) := by
  simp only [IsSettled, List.map_append, List.map_cons, List.map_nil]
  refine List.Nodup.append h (List.nodup_singleton _) ?_
  simpa [List.Disjoint] using fun e he hn ↦ hc e he hn

theorem IsSettled.eq_of_name {log : Log} (h : log.IsSettled) {c d : Change} (hc : c ∈ log)
    (hd : d ∈ log) (hn : c.name = d.name) : c = d :=
  List.inj_on_of_nodup_map h hc hd hn

theorem IsSettled.nodup_names {log : Log} (h : log.IsSettled) (o : Operation) :
    (log.names o).Nodup := h.filter _

theorem find?_name_eq_none {log : Log} {n : String} :
    log.find? (·.name == n) = none ↔ ∀ e ∈ log, e.name ≠ n := by
  simp

theorem IsSettled.find?_name {log : Log} (h : log.IsSettled) {e : Change} (he : e ∈ log) :
    log.find? (·.name == e.name) = some e := by
  cases hf : log.find? (·.name == e.name) with
  | none => exact absurd rfl (find?_name_eq_none.1 hf e he)
  | some d =>
    have hn : d.name = e.name := by simpa using List.find?_some hf
    rw [h.eq_of_name (List.mem_of_find?_eq_some hf) he hn]

theorem IsSettled.eraseP_name {log : Log} (h : log.IsSettled) (n : String) :
    log.eraseP (·.name == n) = log.filter (·.name != n) := by
  induction log with
  | nil => rfl
  | cons e log ih =>
    obtain ⟨he, hlog⟩ := List.nodup_cons.1 h
    by_cases hn : e.name = n
    · have hrest : log.filter (·.name != n) = log := by
        refine List.filter_eq_self.2 ?_
        intro d hd
        simpa using fun hdn : d.name = n ↦ he (List.mem_map.2 ⟨d, hd, hdn.trans hn.symm⟩)
      simp [hn, hrest]
    · simp [hn, ih hlog]

theorem absorb_of_forall_ne {log : Log} {c : Change} (h : ∀ e ∈ log, e.name ≠ c.name) :
    log.absorb c = log ++ [c] := by
  rw [absorb, find?_name_eq_none.2 h]

theorem IsSettled.absorb_of_mem {log : Log} (h : log.IsSettled) {c : Change} (hc : c ∈ log) :
    log.absorb c = log := by
  simp [absorb, h.find?_name hc]

theorem IsSettled.absorb_of_opposite {log : Log} (h : log.IsSettled) {c : Change}
    (hc : ⟨c.operation.opposite, c.name⟩ ∈ log) :
    log.absorb c = log.filter (·.name != c.name) := by
  have hf := h.find?_name hc
  simp only [absorb, hf, c.operation.opposite_ne, if_false, h.eraseP_name]

/-- What a change can meet in a settled log: no change of its name, itself, or its opposite. -/
theorem meets (log : Log) (c : Change) :
    (∀ e ∈ log, e.name ≠ c.name) ∨ c ∈ log ∨ ⟨c.operation.opposite, c.name⟩ ∈ log := by
  by_cases h : ∀ e ∈ log, e.name ≠ c.name
  · exact .inl h
  · push Not at h
    obtain ⟨⟨o, n⟩, he, rfl⟩ := h
    obtain ⟨p, m⟩ := c
    cases o <;> cases p <;> simp_all [Operation.opposite]

theorem IsSettled.absorb {log : Log} (h : log.IsSettled) (c : Change) :
    IsSettled (log.absorb c) := by
  rcases log.meets c with hc | hc | hc
  · rw [absorb_of_forall_ne hc]; exact h.append hc
  · rwa [h.absorb_of_mem hc]
  · rw [h.absorb_of_opposite hc]; exact h.filter _

theorem isSettled_net (log : Log) : log.net.IsSettled := by
  induction log using List.reverseRecOn with
  | nil => exact isSettled_nil
  | append_singleton log c ih => rw [net_concat]; exact ih.absorb c

theorem IsSettled.net_eq {log : Log} (h : log.IsSettled) : log.net = log := by
  induction log using List.reverseRecOn with
  | nil => rfl
  | append_singleton log c ih =>
    simp only [IsSettled, List.map_append, List.map_cons, List.map_nil] at h
    obtain ⟨hlog, -, hc⟩ := List.nodup_append.1 h
    rw [net_concat, ih hlog]
    exact absorb_of_forall_ne fun e he ↦ hc e.name (List.mem_map_of_mem he) c.name (by simp)

theorem net_net (log : Log) : log.net.net = log.net := (isSettled_net log).net_eq

theorem absorb_sublist (log : Log) (c : Change) : (log.absorb c).Sublist (log ++ [c]) := by
  unfold absorb
  split
  · exact List.Sublist.refl _
  · split
    · exact List.sublist_append_left _ _
    · exact List.eraseP_sublist.trans (List.sublist_append_left _ _)

theorem net_sublist (log : Log) : log.net.Sublist log := by
  induction log using List.reverseRecOn with
  | nil => exact List.Sublist.refl _
  | append_singleton log c ih =>
    rw [net_concat]
    exact (absorb_sublist _ c).trans (ih.append_right [c])

theorem net_append (xs ys : Log) : net (xs ++ ys) = ys.foldl absorb xs.net := by
  simp [net]

theorem net_net_append (xs ys : Log) : net (xs.net ++ ys) = net (xs ++ ys) := by
  rw [net_append, net_net, net_append]

end PackageStaging.Log
