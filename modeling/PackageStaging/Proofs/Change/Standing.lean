import PackageStaging.Proofs.Change.Net

namespace PackageStaging.Log

/-- The operation that stands after one more was asked for. -/
def toggle : Option Operation → Operation → Option Operation
  | none, o => some o
  | some p, o => if p = o then some p else none

@[simp] theorem toggle_none (o : Operation) : toggle none o = some o := rfl

@[simp] theorem toggle_self (o : Operation) : toggle (some o) o = some o := if_pos rfl

@[simp] theorem toggle_opposite (o : Operation) : toggle (some o) o.opposite = none :=
  if_neg o.opposite_ne.symm

@[simp] theorem toggle_of_opposite (o : Operation) : toggle (some o.opposite) o = none :=
  if_neg o.opposite_ne

def standing (log : Log) (n : String) : Option Operation :=
  (log.find? (·.name == n)).map Change.operation

def operationsOn (log : Log) (n : String) : List Operation :=
  (log.filter (·.name == n)).map Change.operation

theorem operationsOn_concat (log : Log) (c : Change) (n : String) :
    operationsOn (log ++ [c]) n =
      log.operationsOn n ++ if c.name = n then [c.operation] else [] := by
  by_cases h : c.name = n <;> simp [operationsOn, h]

theorem IsSettled.standing_eq_some {log : Log} (h : log.IsSettled) {n : String} {o : Operation} :
    log.standing n = some o ↔ ⟨o, n⟩ ∈ log := by
  constructor
  · intro hs
    obtain ⟨e, he, rfl⟩ := Option.map_eq_some_iff.1 hs
    obtain rfl : e.name = n := by simpa using List.find?_some he
    exact List.mem_of_find?_eq_some he
  · intro hm
    simp [standing, h.find?_name hm]

theorem IsSettled.standing_absorb_self {log : Log} (h : log.IsSettled) (c : Change) :
    (log.absorb c).standing c.name = toggle (log.standing c.name) c.operation := by
  rcases log.meets c with hc | hc | hc
  · have hf := find?_name_eq_none.2 hc
    simp [absorb_of_forall_ne hc, standing, List.find?_append, hf]
  · simp [h.absorb_of_mem hc, standing, h.find?_name hc]
  · have hgone : (log.absorb c).standing c.name = none := by
      simp [h.absorb_of_opposite hc, standing]
    rw [hgone, h.standing_eq_some.2 hc, toggle_of_opposite]

theorem IsSettled.standing_absorb_of_ne {log : Log} (h : log.IsSettled) {c : Change} {n : String}
    (hn : c.name ≠ n) : (log.absorb c).standing n = log.standing n := by
  rcases log.meets c with hc | hc | hc
  · simp [absorb_of_forall_ne hc, standing, List.find?_append, hn]
  · rw [h.absorb_of_mem hc]
  · rw [h.absorb_of_opposite hc, standing, standing, List.find?_filter]
    congr 2
    funext e
    by_cases he : e.name = n <;> simp [he, Ne.symm hn]

theorem standing_net_append (xs ys : Log) (n : String) :
    (net (xs ++ ys)).standing n = (ys.operationsOn n).foldl toggle (xs.net.standing n) := by
  induction ys using List.reverseRecOn with
  | nil => simp [operationsOn]
  | append_singleton ys c ih =>
    rw [← List.append_assoc, net_concat, operationsOn_concat, List.foldl_append, ← ih]
    by_cases hn : c.name = n
    · subst hn
      simp [(isSettled_net _).standing_absorb_self]
    · simp [(isSettled_net _).standing_absorb_of_ne hn, hn]

theorem standing_net (log : Log) (n : String) :
    log.net.standing n = (log.operationsOn n).foldl toggle none := by
  simpa [standing, net] using standing_net_append [] log n

/-- Whether operations begin with `o` and none comes twice in a row. -/
def takesTurns : Operation → List Operation → Bool
  | _, [] => true
  | o, p :: ps => p == o && takesTurns o.opposite ps

theorem foldl_toggle_of_takesTurns {o : Operation} {ps : List Operation}
    (h : takesTurns o.opposite ps) :
    ps.foldl toggle (some o) = some o ∧ ps.foldl toggle none = none ∨
      ps.foldl toggle (some o) = none ∧ ps.foldl toggle none = some o.opposite := by
  induction ps generalizing o with
  | nil => exact .inl ⟨rfl, rfl⟩
  | cons p ps ih =>
    simp only [takesTurns, Bool.and_eq_true, beq_iff_eq] at h
    obtain ⟨rfl, h⟩ := h
    -- The two runs change places: the one that held `o` is empty now, the other holds its opposite.
    simp only [List.foldl_cons, toggle_opposite, toggle_none]
    rcases ih h with ⟨h₁, h₂⟩ | ⟨h₁, h₂⟩
    · exact .inr ⟨h₂, h₁⟩
    · exact .inl ⟨by simpa using h₂, h₁⟩

theorem foldl_toggle_of_not_takesTurns {o : Operation} {ps : List Operation}
    (h : ¬ takesTurns o.opposite ps) : ps.foldl toggle (some o) = ps.foldl toggle none := by
  induction ps generalizing o with
  | nil => exact absurd rfl h
  | cons p ps ih =>
    by_cases hp : p = o.opposite
    · subst hp
      simp only [takesTurns, beq_self_eq_true, Bool.true_and] at h
      simp only [List.foldl_cons, toggle_opposite, toggle_none]
      exact (ih h).symm
    · have heq := Operation.eq_opposite_of_ne hp
      rw [Operation.opposite_opposite] at heq
      simp [heq]

/-- Once an operation stands no more, the run from nothing holds its opposite exactly when the
first run does, too, or the operations took turns. -/
theorem foldl_toggle_of_gone {o : Operation} {ps : List Operation}
    (h : ps.foldl toggle (some o) ≠ some o) :
    ps.foldl toggle none = some o.opposite ↔
      ps.foldl toggle (some o) = some o.opposite ∨ takesTurns o.opposite ps := by
  by_cases ht : takesTurns o.opposite ps
  · rcases foldl_toggle_of_takesTurns ht with ⟨h₁, h₂⟩ | ⟨h₁, h₂⟩
    · exact absurd h₁ h
    · simp [h₂, ht]
  · simp [foldl_toggle_of_not_takesTurns ht, ht]

end PackageStaging.Log
