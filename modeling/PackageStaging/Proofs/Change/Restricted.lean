import Mathlib.Data.Set.Basic
import PackageStaging.Proofs.Change.Lists

namespace PackageStaging

variable {S : Set String} [DecidablePred (· ∈ S)] {c : Change}

namespace Log

variable {log : Log}

variable (S) in
def restrict (log : Log) : Log := log.filter (·.name ∈ S)

theorem mem_restrict : c ∈ log.restrict S ↔ c ∈ log ∧ c.name ∈ S := by
  simp [restrict]

theorem restrict_concat (log : Log) (hc : c.name ∈ S) :
    restrict S (log ++ [c]) = restrict S log ++ [c] := by
  simp [restrict, hc]

theorem restrict_concat_of_not_mem (log : Log) (hc : c.name ∉ S) :
    restrict S (log ++ [c]) = restrict S log := by
  simp [restrict, hc]

theorem IsSettled.restrict_absorb (h : log.IsSettled) (hc : c.name ∈ S) :
    (log.absorb c).restrict S = (log.restrict S).absorb c := by
  have hrest : IsSettled (log.restrict S) := h.filter _
  rcases log.meets c with hnone | hsame | hother
  · have hnone' : ∀ e ∈ log.restrict S, e.name ≠ c.name := fun e he ↦ hnone e (mem_restrict.1 he).1
    rw [absorb_of_forall_ne hnone, absorb_of_forall_ne hnone', restrict_concat log hc]
  · rw [h.absorb_of_mem hsame, hrest.absorb_of_mem (mem_restrict.2 ⟨hsame, hc⟩)]
  · rw [h.absorb_of_opposite hother, hrest.absorb_of_opposite (mem_restrict.2 ⟨hother, hc⟩)]
    exact List.filter_comm _ _ _

theorem IsSettled.restrict_absorb_of_not_mem (h : log.IsSettled) (hc : c.name ∉ S) :
    (log.absorb c).restrict S = log.restrict S := by
  rcases log.meets c with hnone | hsame | hother
  · rw [absorb_of_forall_ne hnone, restrict_concat_of_not_mem log hc]
  · rw [h.absorb_of_mem hsame]
  · rw [h.absorb_of_opposite hother, restrict, List.filter_filter]
    refine List.filter_congr fun e _ ↦ ?_
    by_cases he : e.name = c.name <;> simp [he, hc]

/-- Taking the net effect and leaving names out can change places. -/
theorem restrict_net (log : Log) : log.net.restrict S = net (log.restrict S) := by
  induction log using List.reverseRecOn with
  | nil => rfl
  | append_singleton log c ih =>
    by_cases hc : c.name ∈ S
    · rw [restrict_concat log hc, net_concat, net_concat, (isSettled_net log).restrict_absorb hc,
        ih]
    · rw [restrict_concat_of_not_mem log hc, net_concat,
        (isSettled_net log).restrict_absorb_of_not_mem hc, ih]

end Log

namespace Lists

variable {l : Lists} {names : Operation → List String}

variable (S) in
def restrict (l : Lists) : Lists where
  names o := (l.names o).filter (· ∈ S)
  log := l.log.restrict S

theorem mem_names_restrict {o : Operation} {n : String} (hn : n ∈ S) :
    n ∈ (l.restrict S).names o ↔ n ∈ l.names o := by
  simp [restrict, hn]

theorem mem_log_restrict (hc : c.name ∈ S) : c ∈ (l.restrict S).log ↔ c ∈ l.log := by
  rw [restrict, Log.mem_restrict, and_iff_left hc]

theorem restrict_move (hc : c.name ∈ S) (o : Operation) :
    (move names c o).filter (· ∈ S) = move (fun o ↦ (names o).filter (· ∈ S)) c o := by
  simp only [move, List.mem_filter, hc, decide_true, and_true]
  split
  · by_cases ho : o = c.operation.opposite
    · subst ho
      simp [List.erase_filter]
    · simp [ho]
  · split
    · rfl
    · by_cases ho : o = c.operation
      · subst ho
        simp [hc]
      · simp [ho]

theorem restrict_move_of_not_mem (hc : c.name ∉ S) (o : Operation) :
    (move names c o).filter (· ∈ S) = (names o).filter (· ∈ S) := by
  unfold move
  split
  · by_cases ho : o = c.operation.opposite
    · subst ho
      have hgone : c.name ∉ (names c.operation.opposite).filter (· ∈ S) := by simp [hc]
      rw [Function.update_self, ← List.erase_filter, List.erase_of_not_mem hgone]
    · rw [Function.update_of_ne ho]
  · split
    · rfl
    · by_cases ho : o = c.operation
      · subst ho
        simp [hc]
      · rw [Function.update_of_ne ho]

theorem restrict_stage (hc : c.name ∈ S) : (l.stage c).restrict S = (l.restrict S).stage c := by
  ext1
  · funext o
    exact restrict_move hc o
  · exact (Log.restrict_net _).trans (congrArg Log.net (Log.restrict_concat l.log hc))

/-- The log is folded already: staging a change folds all of it. -/
theorem restrict_stage_of_not_mem (hl : l.log.net = l.log) (hc : c.name ∉ S) :
    (l.stage c).restrict S = l.restrict S := by
  ext1
  · funext o
    exact restrict_move_of_not_mem hc o
  · have hsettled : l.log.IsSettled := hl ▸ Log.isSettled_net l.log
    calc (Log.net (l.log ++ [c])).restrict S
        = (l.log.absorb c).restrict S := by rw [Log.net_concat, hl]
      _ = l.log.restrict S := hsettled.restrict_absorb_of_not_mem hc

theorem restrict_clear (l : Lists) : l.clear.restrict S = (l.restrict S).clear := rfl

variable {changes : List Change} {n : String}

theorem net_log_foldl_stage (hl : l.log.net = l.log) (changes : List Change) :
    (changes.foldl stage l).log.net = (changes.foldl stage l).log := by
  induction changes generalizing l with
  | nil => exact hl
  | cons c changes ih => exact ih (Log.net_net _)

theorem restrict_foldl_stage (hchanges : ∀ d ∈ changes, d.name ∈ S) :
    (changes.foldl stage l).restrict S = changes.foldl stage (l.restrict S) := by
  induction changes generalizing l with
  | nil => rfl
  | cons c changes ih =>
    obtain ⟨hc, hrest⟩ := List.forall_mem_cons.1 hchanges
    rw [List.foldl_cons, List.foldl_cons, ih hrest, restrict_stage hc]

theorem restrict_foldl_stage_of_not_mem (hl : l.log.net = l.log)
    (hchanges : ∀ d ∈ changes, d.name ∉ S) :
    (changes.foldl stage l).restrict S = l.restrict S := by
  induction changes generalizing l with
  | nil => rfl
  | cons c changes ih =>
    obtain ⟨hc, hrest⟩ := List.forall_mem_cons.1 hchanges
    rw [List.foldl_cons, ih (Log.net_net _) hrest, restrict_stage_of_not_mem hl hc]

def Lacks (l : Lists) (n : String) : Prop := (∀ o, n ∉ l.names o) ∧ ∀ c ∈ l.log, c.name ≠ n

theorem restrict_eq_empty : l.restrict {m | m = n} = empty ↔ l.Lacks n := by
  have hlacks (names : List String) : n ∉ names ↔ ∀ m ∈ names, ¬ m = n :=
    ⟨fun h m hm he ↦ h (he ▸ hm), fun h hn ↦ h n hn rfl⟩
  simp [Lists.ext_iff, funext_iff, restrict, Log.restrict, empty, Lacks, hlacks]

theorem Lacks.restrict_eq (h : l.Lacks n) : l.restrict {m | m ≠ n} = l := by
  ext1
  · funext o
    refine List.filter_eq_self.2 fun m hm ↦ ?_
    simpa using ne_of_mem_of_not_mem hm (h.1 o)
  · refine List.filter_eq_self.2 fun c hc ↦ ?_
    simpa using h.2 c hc

theorem stage_opposite_empty (c : Change) :
    (empty.stage c).stage ⟨c.operation.opposite, c.name⟩ = empty := by
  ext1
  · funext o
    by_cases ho : o = c.operation <;> simp [stage, move, empty, ho]
  · simp [stage, empty, Log.net, Log.absorb, c.operation.opposite_ne.symm]

/-- A change of a name that is lacking, changes of other names, and the opposite change: what is
left is what the changes of the other names come to. -/
theorem stage_opposite_foldl {c : Change} (hl : l.log.net = l.log) (hlacks : l.Lacks c.name)
    (hchanges : ∀ d ∈ changes, d.name ≠ c.name) :
    (changes.foldl stage (l.stage c)).stage ⟨c.operation.opposite, c.name⟩ =
      changes.foldl stage l := by
  have hself : c.name ∈ {m | m = c.name} := rfl
  have hfirst : (l.stage c).log.net = (l.stage c).log := Log.net_net _
  have hrest := net_log_foldl_stage hfirst changes
  -- Through the name itself nothing is seen at the end, either way.
  have hleft : ((changes.foldl stage (l.stage c)).stage
      ⟨c.operation.opposite, c.name⟩).Lacks c.name := by
    rw [← restrict_eq_empty] at hlacks ⊢
    rw [restrict_stage (c := ⟨c.operation.opposite, c.name⟩) hself,
      restrict_foldl_stage_of_not_mem hfirst hchanges, restrict_stage hself, hlacks,
      stage_opposite_empty]
  have hright : (changes.foldl stage l).Lacks c.name := by
    rw [← restrict_eq_empty] at hlacks ⊢
    rw [restrict_foldl_stage_of_not_mem hl hchanges, hlacks]
  -- Through all other names the pair is not seen at all.
  have hothers : c.name ∉ {m | m ≠ c.name} := fun h ↦ h rfl
  rw [← hleft.restrict_eq, ← hright.restrict_eq,
    restrict_stage_of_not_mem (c := ⟨c.operation.opposite, c.name⟩) hrest hothers,
    restrict_foldl_stage hchanges, restrict_foldl_stage hchanges,
    restrict_stage_of_not_mem hl hothers]

end Lists

end PackageStaging
