import PackageStaging.Proofs.Change.Lists

namespace PackageStaging

theorem Operation.opposite_injective : Function.Injective opposite :=
  Function.LeftInverse.injective opposite_opposite

def Change.mirror (c : Change) : Change := ⟨c.operation.opposite, c.name⟩

namespace Log

def mirror (log : Log) : Log := log.map Change.mirror

theorem mirror_append (xs ys : Log) : mirror (xs ++ ys) = xs.mirror ++ ys.mirror :=
  List.map_append

theorem mirror_absorb (log : Log) (c : Change) :
    (log.absorb c).mirror = log.mirror.absorb c.mirror := by
  have hfind : log.mirror.find? (·.name == c.mirror.name) =
      (log.find? (·.name == c.name)).map Change.mirror := List.find?_map
  rw [absorb, absorb, hfind]
  cases log.find? (·.name == c.name) with
  | none => exact mirror_append log [c]
  | some earlier =>
    have hsame : earlier.mirror.operation = c.mirror.operation ↔
        earlier.operation = c.operation := Operation.opposite_injective.eq_iff
    simp only [Option.map_some]
    by_cases ho : earlier.operation = c.operation
    · rw [if_pos ho, if_pos (hsame.2 ho)]
    · rw [if_neg ho, if_neg (mt hsame.1 ho)]
      have herase : log.mirror.eraseP (·.name == c.mirror.name) =
          mirror (log.eraseP (·.name == c.name)) := List.eraseP_map
      exact herase.symm

theorem mirror_net (log : Log) : log.net.mirror = log.mirror.net := by
  induction log using List.reverseRecOn with
  | nil => rfl
  | append_singleton log c ih =>
    have hlast : mirror (log ++ [c]) = mirror log ++ [c.mirror] := mirror_append log [c]
    rw [net_concat, mirror_absorb, ih, hlast, net_concat]

end Log

namespace Lists

variable (l : Lists) (c : Change)

/-- The lists of names in each other's place, and every change of the log turned round. -/
def mirror : Lists where
  names o := l.names o.opposite
  log := l.log.mirror

theorem mirror_move {names mirrored : Operation → List String}
    (h : ∀ o, mirrored o = names o.opposite) (o : Operation) :
    move mirrored c.mirror o = move names c o.opposite := by
  have hown : mirrored c.mirror.operation = names c.operation := by simp [h, Change.mirror]
  have hother : mirrored c.mirror.operation.opposite = names c.operation.opposite := by
    simp [h, Change.mirror]
  have hupdate (p : Operation) (items : List String) :
      Function.update mirrored p.opposite items o = Function.update names p items o.opposite := by
    by_cases hp : o = p.opposite
    · subst hp
      simp
    · have hne : o.opposite ≠ p := by
        rintro rfl
        exact hp o.opposite_opposite.symm
      rw [Function.update_of_ne hp, Function.update_of_ne hne, h]
  rw [move, move, hown, hother]
  have hname : c.mirror.name = c.name := rfl
  rw [hname]
  by_cases hopposite : c.name ∈ names c.operation.opposite
  · rw [if_pos hopposite, if_pos hopposite]
    exact hupdate c.operation.opposite _
  · rw [if_neg hopposite, if_neg hopposite]
    by_cases hmem : c.name ∈ names c.operation
    · rw [if_pos hmem, if_pos hmem, h]
    · rw [if_neg hmem, if_neg hmem]
      exact hupdate c.operation _

theorem mirror_stage : (l.stage c).mirror = l.mirror.stage c.mirror := by
  ext1
  · funext o
    exact (mirror_move c (fun _ ↦ rfl) o).symm
  · have hlog : Log.mirror (l.log ++ [c]) = l.log.mirror ++ [c.mirror] := Log.mirror_append _ [c]
    exact (Log.mirror_net _).trans (congrArg Log.net hlog)

theorem mirror_clear : l.clear.mirror = l.mirror.clear := rfl

end Lists

end PackageStaging
