import PackageStaging.Simulation

namespace PackageStaging

def FileTree.text (t : FileTree) (p : Path) : Except FileError String :=
  match t.read p with
  | .error e => .error e
  | .ok bytes =>
    match String.fromUTF8? bytes with
    | some s => .ok s
    | none => .error .notUtf8

variable {ε α β : Type}

theorem Simulation.bind_apply (act : Simulation α) (next : α → Simulation β) (w : World) :
    (act >>= next) w = next (act w).1 (act w).2 := rfl

namespace World

def perform (w : World) (act : ExceptT ε Simulation α) : Except ε α × World :=
  (ExceptT.run act : Simulation (Except ε α)) w

@[simp] theorem perform_pure (w : World) (a : α) :
    w.perform (pure a : ExceptT ε Simulation α) = (.ok a, w) := rfl

@[simp] theorem perform_throw (w : World) (e : ε) :
    w.perform (throw e : ExceptT ε Simulation α) = (.error e, w) := rfl

theorem perform_bind (w : World) (act : ExceptT ε Simulation α)
    (next : α → ExceptT ε Simulation β) :
    w.perform (act >>= next) = match w.perform act with
      | (.ok a, v) => v.perform (next a)
      | (.error e, v) => (.error e, v) := by
  change (ExceptT.run act >>= ExceptT.bindCont next : Simulation (Except ε β)) w = _
  rw [Simulation.bind_apply, perform]
  rcases (ExceptT.run act : Simulation (Except ε α)) w with ⟨r, v⟩
  cases r <;> rfl

theorem perform_bind_ok {w v : World} {act : ExceptT ε Simulation α} {a : α}
    (h : w.perform act = (.ok a, v)) (next : α → ExceptT ε Simulation β) :
    w.perform (act >>= next) = v.perform (next a) := by
  rw [perform_bind, h]

theorem perform_bind_cases {w v : World} {act : ExceptT ε Simulation α}
    {next : α → ExceptT ε Simulation β} {r : Except ε β}
    (h : w.perform (act >>= next) = (r, v)) :
    (∃ e, w.perform act = (.error e, v) ∧ r = .error e) ∨
      ∃ a u, w.perform act = (.ok a, u) ∧ u.perform (next a) = (r, v) := by
  rw [perform_bind] at h
  rcases hact : w.perform act with ⟨first, u⟩
  rw [hact] at h
  cases first with
  | error e => cases h; exact .inl ⟨e, rfl, rfl⟩
  | ok a => exact .inr ⟨a, u, rfl, h⟩

@[simp] theorem perform_lift (w : World) (act : Simulation α) :
    w.perform (liftM act : ExceptT ε Simulation α) = (.ok (act w).1, (act w).2) := rfl

@[simp] theorem perform_ofExcept (w : World) (r : Except ε α) :
    w.perform (MonadExcept.ofExcept r) = (r, w) := by
  cases r <;> rfl

@[simp] theorem perform_adapt {δ : Type} (w : World) (f : ε → δ) (act : ExceptT ε Simulation α) :
    w.perform (ExceptT.adapt f act) = ((w.perform act).1.mapError f, (w.perform act).2) := rfl

theorem perform_onFile (w : World) (p : Path) (act : Simulation (Except FileError α)) :
    w.perform (onFile p act) = ((act w).1.mapError (StageError.ofFile p), (act w).2) := rfl

theorem perform_ite (w : World) (p : Prop) [Decidable p] (a b : ExceptT ε Simulation α) :
    w.perform (if p then a else b) = if p then w.perform a else w.perform b :=
  apply_ite _ _ _ _

theorem perform_tryCatch (w : World) (act : ExceptT ε Simulation α)
    (handle : ε → ExceptT ε Simulation α) :
    w.perform (tryCatch act handle) = match w.perform act with
      | (.ok a, v) => (.ok a, v)
      | (.error e, v) => v.perform (handle e) := by
  change (ExceptT.run (ExceptT.tryCatch act handle) : Simulation (Except ε α)) w = _
  rw [ExceptT.tryCatch, ExceptT.run_mk, Simulation.bind_apply, perform, ExceptT.run]
  rcases act w with ⟨r, v⟩
  cases r <;> rfl

theorem readText_run (w : World) (p : Path) :
    (FileSystem.readText p : Simulation (Except FileError String)) w = (w.tree.text p, w) := by
  have hread : (FileSystem.readBytes p : Simulation (Except FileError ByteArray)) w =
      (w.tree.read p, w) := rfl
  rw [FileSystem.readText, Simulation.bind_apply, hread, FileTree.text]
  cases w.tree.read p with
  | error e => rfl
  | ok bytes =>
    cases hs : String.fromUTF8? bytes with
    | none => simp only [hs]; rfl
    | some s => simp only [hs]; rfl

theorem writeText_run (w : World) (p : Path) (s : String) :
    (FileSystem.writeText p s : Simulation (Except FileError Unit)) w =
      match w.tree.write p s.toUTF8 with
      | .ok tree => (.ok (), { w with tree })
      | .error e => (.error e, w) := rfl

end World

/-- An act that leaves a part of the world as it is, whatever comes of it. -/
def Keeps {γ : Type} (part : World → γ) (act : ExceptT ε Simulation α) : Prop :=
  ∀ w : World, part (w.perform act).2 = part w

section Keeps

variable {γ : Type} {part : World → γ}

theorem keeps_pure (a : α) : Keeps part (pure a : ExceptT ε Simulation α) := fun _ ↦ rfl

theorem keeps_throw (e : ε) : Keeps part (throw e : ExceptT ε Simulation α) := fun _ ↦ rfl

theorem keeps_ofExcept (r : Except ε α) :
    Keeps part (MonadExcept.ofExcept r : ExceptT ε Simulation α) := by
  intro w
  rw [World.perform_ofExcept]

theorem Keeps.bind {act : ExceptT ε Simulation α} {next : α → ExceptT ε Simulation β}
    (h : Keeps part act) (hnext : ∀ a, Keeps part (next a)) : Keeps part (act >>= next) := by
  intro w
  have hw := h w
  rw [World.perform_bind]
  rcases hact : w.perform act with ⟨r, v⟩
  rw [hact] at hw
  cases r with
  | error e => exact hw
  | ok a => exact (hnext a v).trans hw

theorem Keeps.adapt {δ : Type} {act : ExceptT ε Simulation α} (h : Keeps part act) (f : ε → δ) :
    Keeps part (ExceptT.adapt f act) := by
  intro w
  rw [World.perform_adapt]
  exact h w

theorem Keeps.ite {p : Prop} [Decidable p] {act other : ExceptT ε Simulation α}
    (h : Keeps part act) (hother : Keeps part other) : Keeps part (if p then act else other) := by
  split <;> assumption

theorem Keeps.forM {act : α → ExceptT ε Simulation PUnit} (h : ∀ a, Keeps part (act a))
    (xs : List α) : Keeps part (xs.forM act) := by
  induction xs with
  | nil => exact keeps_pure _
  | cons x xs ih => exact (h x).bind fun _ ↦ ih

theorem Keeps.comp {δ : Type} {act : ExceptT ε Simulation α} (h : Keeps part act) (f : γ → δ) :
    Keeps (f ∘ part) act := fun w ↦ congrArg f (h w)

end Keeps

/-- What a world holds apart from its files. -/
def World.outside (w : World) : World := { w with tree := .empty [] }

namespace World

theorem writeText_cases {w v : World} {path : Path} {e : Except StageError Unit} {text : String}
    (h : w.perform (onFile path (FileSystem.writeText path text)) = (e, v)) :
    (∃ error, e = .error error ∧ v = w) ∨ e = .ok () ∧ v.outside = w.outside ∧
      w.tree.write path text.toUTF8 = .ok v.tree := by
  rw [perform_onFile, writeText_run] at h
  cases hwrite : w.tree.write path text.toUTF8 with
  | error error =>
    rw [hwrite] at h
    cases h
    exact .inl ⟨_, rfl, rfl⟩
  | ok tree =>
    rw [hwrite] at h
    cases h
    exact .inr ⟨rfl, rfl, rfl⟩

theorem setMode_cases {w v : World} {path : Path} {e : Except StageError Unit} {mode : Nat}
    (h : w.perform (onFile path (FileSystem.setMode path mode)) = (e, v)) :
    v = w ∨ v.outside = w.outside ∧ w.tree.setMode path mode = .ok v.tree := by
  have hrun : (FileSystem.setMode path mode : Simulation (Except FileError Unit)) w =
      match w.tree.setMode path mode with
      | .ok tree => (.ok (), { w with tree })
      | .error error => (.error error, w) := rfl
  rw [perform_onFile, hrun] at h
  cases hset : w.tree.setMode path mode with
  | error error =>
    rw [hset] at h
    cases h
    exact .inl rfl
  | ok tree =>
    rw [hset] at h
    cases h
    exact .inr ⟨rfl, rfl⟩

theorem setMode_then_cases {w v : World} {path : Path} {mode : Nat} {a : α}
    {r : Except StageError α} (h : w.perform (do
      onFile path (FileSystem.setMode path mode)
      return a) = (r, v)) :
    v = w ∨ v.outside = w.outside ∧ w.tree.setMode path mode = .ok v.tree := by
  rcases perform_bind_cases h with ⟨e, hset, -⟩ | ⟨_, t, hset, hreturn⟩
  · exact setMode_cases hset
  · cases hreturn
    exact setMode_cases hset

end World

/-- An act that changes no file, whatever comes of it. -/
def LeavesFiles (act : ExceptT ε Simulation α) : Prop :=
  ∀ w : World, (w.perform act).2.tree = w.tree

end PackageStaging
