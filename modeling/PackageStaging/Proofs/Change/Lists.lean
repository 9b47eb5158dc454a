import Mathlib.Logic.Function.Basic
import PackageStaging.Proofs.Change.Net

namespace PackageStaging

@[ext]
structure Lists where
  names : Operation → List String
  log : Log

namespace Lists

def empty : Lists := ⟨fun _ ↦ [], []⟩

/-- The lists of names after one more change. A name that the opposite list holds is taken out of
it; otherwise the name is put at the end of its own list, unless it is there. -/
def move (names : Operation → List String) (c : Change) : Operation → List String :=
  if c.name ∈ names c.operation.opposite then
    Function.update names c.operation.opposite ((names c.operation.opposite).erase c.name)
  else if c.name ∈ names c.operation then names
  else Function.update names c.operation (names c.operation ++ [c.name])

theorem mem_move {names : Operation → List String} {c : Change} {o : Operation} {n : String}
    (hn : n ∈ move names c o) : n ∈ names o ∨ n = c.name := by
  unfold move at hn
  split at hn
  · by_cases ho : o = c.operation.opposite
    · subst ho
      rw [Function.update_self] at hn
      exact .inl (List.mem_of_mem_erase hn)
    · rw [Function.update_of_ne ho] at hn
      exact .inl hn
  · split at hn
    · exact .inl hn
    · by_cases ho : o = c.operation
      · subst ho
        rw [Function.update_self, List.mem_append, List.mem_singleton] at hn
        exact hn
      · rw [Function.update_of_ne ho] at hn
        exact .inl hn

def stage (l : Lists) (c : Change) : Lists where
  names := move l.names c
  log := Log.net (l.log ++ [c])

def clear (l : Lists) : Lists := { l with log := [] }

end Lists

namespace Log

theorem mem_names {log : Log} {o : Operation} {n : String} : n ∈ log.names o ↔ ⟨o, n⟩ ∈ log := by
  constructor
  · intro h
    obtain ⟨⟨p, m⟩, hc, rfl⟩ := List.mem_map.1 h
    obtain ⟨hmem, hp⟩ := List.mem_filter.1 hc
    obtain rfl : p = o := by simpa using hp
    exact hmem
  · intro h
    exact List.mem_map.2 ⟨_, List.mem_filter.2 ⟨h, by simp⟩, rfl⟩

theorem names_singleton (c : Change) (o : Operation) :
    names [c] o = if o = c.operation then [c.name] else [] := by
  by_cases h : o = c.operation
  · subst h; simp [names]
  · simp [names, h, Ne.symm h]

theorem names_filter_name (log : Log) (o : Operation) (n : String) :
    names (log.filter (·.name != n)) o = (log.names o).filter (· != n) := by
  simp [names, List.filter_map, List.filter_filter, Function.comp_def, Bool.and_comm]

theorem IsSettled.not_mem_opposite {log : Log} (h : log.IsSettled) {o : Operation} {n : String}
    (hn : n ∈ log.names o) : n ∉ log.names o.opposite := by
  intro hm
  have he := h.eq_of_name (mem_names.1 hn) (mem_names.1 hm) rfl
  exact o.opposite_ne (congrArg Change.operation he).symm

/-- The two halves of a settled log move like lists of names do. -/
theorem IsSettled.names_absorb {log : Log} (h : log.IsSettled) (c : Change) :
    (log.absorb c).names = Lists.move log.names c := by
  funext o
  rcases log.meets c with hc | hc | hc
  · have hnot (p : Operation) : c.name ∉ log.names p := fun hp ↦ hc _ (mem_names.1 hp) rfl
    rw [absorb_of_forall_ne hc, names_append, names_singleton]
    by_cases ho : o = c.operation
    · subst ho; simp [Lists.move, hnot]
    · simp [Lists.move, hnot, ho]
  · have hin : c.name ∈ log.names c.operation := mem_names.2 hc
    simp [Lists.move, h.absorb_of_mem hc, hin, h.not_mem_opposite hin]
  · have hin : c.name ∈ log.names c.operation.opposite := mem_names.2 hc
    rw [h.absorb_of_opposite hc, names_filter_name]
    by_cases ho : o = c.operation.opposite
    · subst ho
      simp [Lists.move, hin, (h.nodup_names _).erase_eq_filter]
    · have heq := Operation.eq_opposite_of_ne ho
      rw [Operation.opposite_opposite] at heq
      subst heq
      have hout := h.not_mem_opposite hin
      rw [Operation.opposite_opposite] at hout
      simp only [Lists.move, hin, if_true, Function.update_of_ne ho]
      refine List.filter_eq_self.2 ?_
      intro m hm
      have hne : m ≠ c.name := ne_of_mem_of_not_mem hm hout
      simpa using hne

end Log

namespace Lists

/-- The lists that some changes lead to, `recent` being those that were made since the log was last
cleared. -/
def ofHistory (all recent : Log) : Lists := ⟨all.net.names, recent.net⟩

theorem stage_ofHistory (all recent : Log) (c : Change) :
    (ofHistory all recent).stage c = ofHistory (all ++ [c]) (recent ++ [c]) := by
  ext1
  · simp only [ofHistory, Log.net_concat]
    exact ((Log.isSettled_net all).names_absorb c).symm
  · exact Log.net_net_append recent [c]

theorem clear_ofHistory (all recent : Log) : (ofHistory all recent).clear = ofHistory all [] := rfl

end Lists

end PackageStaging
