import Mathlib.Data.List.Forall2
import PackageStaging.Proofs.Change.Standing

namespace PackageStaging.Log

variable {log : Log} {c d : Change} {n : String} {i k : Nat}

def standingAfter (log : Log) (n : String) (k : Nat) : Option Operation :=
  (operationsOn (log.take k) n).foldl toggle none

/-- The change at place `i` brings an operation to stand for a name that had none. -/
def Raises (log : Log) (n : String) (i : Nat) : Prop :=
  log.standingAfter n i = none ∧ log.standingAfter n (i + 1) ≠ none

/-- The change at place `i` is the last one that raises its name, and its operation stands when the
log ends. -/
structure Remains (log : Log) (c : Change) (i : Nat) : Prop where
  place : log[i]? = some c
  stands : log.standingAfter c.name log.length = some c.operation
  raises : log.Raises c.name i
  last (j : Nat) (h : log.Raises c.name j) : j ≤ i

theorem standingAfter_of_length_le (h : log.length ≤ k) :
    log.standingAfter n k = log.standingAfter n log.length := by
  rw [standingAfter, standingAfter, List.take_of_length_le h, List.take_length]

theorem standingAfter_concat (h : k ≤ log.length) :
    standingAfter (log ++ [c]) n k = log.standingAfter n k := by
  rw [standingAfter, standingAfter, List.take_append_of_le_length h]

theorem standingAfter_concat_length : standingAfter (log ++ [c]) n (log.length + 1) =
    if c.name = n then toggle (log.standingAfter n log.length) c.operation
    else log.standingAfter n log.length := by
  have htake : (log ++ [c]).take (log.length + 1) = log ++ [c] :=
    List.take_of_length_le (by simp)
  rw [standingAfter, standingAfter, htake, List.take_length, operationsOn_concat,
    List.foldl_append]
  split <;> rfl

theorem Raises.lt_length (h : log.Raises n i) : i < log.length := by
  by_contra hi
  have hlast := standingAfter_of_length_le (n := n) (Nat.le_of_not_lt hi)
  have hbeyond := standingAfter_of_length_le (n := n) (Nat.le_succ_of_le (Nat.le_of_not_lt hi))
  exact h.2 (hbeyond.trans (hlast.symm.trans h.1))

theorem raises_concat_iff (h : i < log.length) : Raises (log ++ [c]) n i ↔ log.Raises n i := by
  rw [Raises, Raises, standingAfter_concat (Nat.le_of_lt h), standingAfter_concat h]

theorem Remains.lt_length (h : log.Remains c i) : i < log.length := h.raises.lt_length

/-- A change remains unless the next one takes it back. -/
theorem Remains.concat (h : log.Remains d i) (hc : c.name = d.name → c.operation = d.operation) :
    Remains (log ++ [c]) d i where
  place := by rw [List.getElem?_append_left h.lt_length, h.place]
  stands := by
    rw [List.length_append, List.length_singleton, standingAfter_concat_length, h.stands]
    split
    · rename_i hname
      rw [hc hname, toggle_self]
    · rfl
  raises := (raises_concat_iff h.lt_length).2 h.raises
  last j hj := by
    have hlength := hj.lt_length
    rw [List.length_append, List.length_singleton] at hlength
    rcases Nat.lt_or_eq_of_le (Nat.le_of_lt_succ hlength) with hlt | rfl
    · exact h.last j ((raises_concat_iff hlt).1 hj)
    · -- Something stands when the next change comes, so it raises nothing.
      have hnone := hj.1
      rw [standingAfter_concat (Nat.le_refl _), h.stands] at hnone
      cases hnone

theorem remains_concat (h : log.standingAfter c.name log.length = none) :
    Remains (log ++ [c]) c log.length where
  place := List.getElem?_concat_length
  stands := by
    rw [List.length_append, List.length_singleton, standingAfter_concat_length, if_pos rfl, h,
      toggle_none]
  raises := by
    refine ⟨(standingAfter_concat (Nat.le_refl _)).trans h, ?_⟩
    rw [standingAfter_concat_length, if_pos rfl, h, toggle_none]
    exact Option.some_ne_none _
  last j hj := by
    have hlength := hj.lt_length
    rw [List.length_append, List.length_singleton] at hlength
    exact Nat.le_of_lt_succ hlength

theorem standingAfter_length (log : Log) (n : String) :
    log.standingAfter n log.length = log.net.standing n := by
  rw [standingAfter, List.take_length, standing_net]

theorem standingAfter_length_eq_some {o : Operation} :
    log.standingAfter n log.length = some o ↔ ⟨o, n⟩ ∈ log.net := by
  rw [standingAfter_length, (isSettled_net log).standing_eq_some]

theorem standingAfter_length_eq_none :
    log.standingAfter n log.length = none ↔ ∀ e ∈ log.net, e.name ≠ n := by
  rw [standingAfter_length, standing, Option.map_eq_none_iff, find?_name_eq_none]

theorem exists_places (log : Log) : ∃ places : List Nat, places.Pairwise (· < ·) ∧
    List.Forall₂ log.Remains log.net places := by
  induction log using List.reverseRecOn with
  | nil => exact ⟨[], .nil, .nil⟩
  | append_singleton log c ih =>
    obtain ⟨places, hincreasing, hremains⟩ := ih
    have hsettled := isSettled_net log
    have hconcat {kept : Log} {held : List Nat} (h : List.Forall₂ (Remains log) kept held)
        (hkept : ∀ d ∈ kept, c.name = d.name → c.operation = d.operation) :
        List.Forall₂ (Remains (log ++ [c])) kept held :=
      ((List.forall₂_and_left _ _).2 ⟨hkept, h⟩).imp fun d i ⟨hd, hi⟩ ↦ hi.concat hd
    rw [net_concat]
    rcases meets (net log) c with hnone | hsame | hother
    · rw [absorb_of_forall_ne hnone]
      have hbefore : ∀ i ∈ places, i < log.length :=
        ((List.forall₂_and_left _ _).1 (hremains.flip.imp fun i d hd ↦ ⟨hd.lt_length, hd⟩)).1
      refine ⟨places ++ [log.length], List.pairwise_append.2 ⟨hincreasing,
        List.pairwise_singleton _ _, by simpa using hbefore⟩, ?_⟩
      refine List.rel_append (hconcat hremains fun d hd hname ↦ ?_) (.cons ?_ .nil)
      · exact absurd hname.symm (hnone d hd)
      · exact remains_concat (standingAfter_length_eq_none.2 hnone)
    · rw [hsettled.absorb_of_mem hsame]
      refine ⟨places, hincreasing, hconcat hremains fun d hd hname ↦ ?_⟩
      rw [hsettled.eq_of_name hsame hd hname]
    · rw [hsettled.absorb_of_opposite hother]
      refine ⟨places.filter fun i ↦ (log[i]?).map Change.name != some c.name,
        hincreasing.filter _, hconcat (List.rel_filter ?_ hremains) fun d hd hname ↦ ?_⟩
      · intro d i hi
        simp [hi.place]
      · have hne : d.name ≠ c.name := by simpa using (List.mem_filter.1 hd).2
        exact absurd hname.symm hne

/-- The net effect of a log by its automata: it holds a change of a name just if the automaton of
that name ends with its operation, and this change is the one with which the operation last came to
stand. So what is left are changes of the log in their order, no two of one name. -/
theorem net_by_automata (log : Log) :
    (∀ n o, ⟨o, n⟩ ∈ log.net ↔ log.standingAfter n log.length = some o) ∧
      log.net.IsSettled ∧ log.net.Sublist log ∧
      ∃ places : List Nat, places.Pairwise (· < ·) ∧ List.Forall₂ log.Remains log.net places :=
  ⟨fun _ _ ↦ standingAfter_length_eq_some.symm, isSettled_net log, net_sublist log,
    exists_places log⟩

end PackageStaging.Log
