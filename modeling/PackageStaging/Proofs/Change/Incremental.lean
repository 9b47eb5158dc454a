import PackageStaging.Proofs.Change.Restricted

namespace PackageStaging.Log

variable {xs ys : Log}

theorem net_filter (p : String → Bool) (log : Log) :
    net (log.filter fun c ↦ p c.name) = log.net.filter fun c ↦ p c.name := by
  have hrestrict (log : Log) : log.restrict {n | p n} = log.filter fun c ↦ p c.name := by
    simp [restrict]
  rw [← hrestrict, ← hrestrict, restrict_net]

theorem foldl_net_append (log : Log) (writes : List Log) :
    writes.foldl (fun log new ↦ net (log ++ new)) log.net = net (log ++ writes.flatten) := by
  induction writes generalizing log with
  | nil => simp
  | cons new writes ih =>
    rw [List.foldl_cons, net_net_append, ih, List.append_assoc, List.flatten_cons]

/-- Two logs that hold the same changes of each name, in the same order. -/
def SameTurns (xs ys : Log) : Prop :=
  ∀ n, xs.filter (·.name == n) = ys.filter (·.name == n)

theorem SameTurns.perm (h : xs.SameTurns ys) : xs.Perm ys := by
  have hcount (log : Log) (c : Change) : (log.filter (·.name == c.name)).count c = log.count c :=
    List.count_filter (beq_self_eq_true c.name)
  refine List.perm_iff_count.2 fun c ↦ ?_
  rw [← hcount xs, h, hcount]

theorem SameTurns.net (h : xs.SameTurns ys) : xs.net.SameTurns ys.net := by
  intro n
  calc xs.net.filter (·.name == n) = Log.net (xs.filter (·.name == n)) :=
        (net_filter (· == n) xs).symm
    _ = Log.net (ys.filter (·.name == n)) := by rw [h n]
    _ = ys.net.filter (·.name == n) := net_filter (· == n) ys

/-- Taking the net effect at every write comes to the same as taking it once, and it can be taken
name by name. Logs with the same turns are reorderings of one another, and so are their net
effects. -/
theorem net_incremental :
    (∀ xs ys : Log, net (xs.net ++ ys) = net (xs ++ ys)) ∧
    (∀ xs : Log, xs.net.net = xs.net) ∧
    (∀ (xs : Log) (writes : List Log),
      writes.foldl (fun log new ↦ net (log ++ new)) xs.net = net (xs ++ writes.flatten)) ∧
    (∀ (p : String → Bool) (xs : Log),
      net (xs.filter fun c ↦ p c.name) = xs.net.filter fun c ↦ p c.name) ∧
    ∀ xs ys : Log, xs.SameTurns ys → xs.Perm ys ∧ xs.net.Perm ys.net := by
  refine ⟨net_net_append, net_net, foldl_net_append, net_filter, ?_⟩
  intro xs ys h
  exact ⟨h.perm, h.net.perm⟩

theorem net_incremental_reordered :
    let xs : Log := [.add "vim", .add "git", .add "nano", .remove "nano"]
    let ys : Log := [.add "git", .add "nano", .add "vim", .remove "nano"]
    xs.SameTurns ys ∧ xs.net = [.add "vim", .add "git"] ∧ ys.net = [.add "git", .add "vim"] ∧
      xs.net.Perm ys.net := by
  intro xs ys
  have hturns : xs.SameTurns ys := by
    intro n
    by_cases hvim : "vim" = n
    · subst hvim; decide
    · simp [xs, ys, Change.add, hvim, List.filter_cons]
  exact ⟨hturns, by decide, by decide, (net_incremental.2.2.2.2 xs ys hturns).2⟩

end PackageStaging.Log
