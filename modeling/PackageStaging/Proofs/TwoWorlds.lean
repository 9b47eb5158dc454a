import PackageStaging.Proofs.World

namespace PackageStaging

variable {ε α β : Type}

/-- Done in related worlds, two acts have the same result and leave related worlds. -/
def Agree (R : World → World → Prop) (act₁ act₂ : ExceptT ε Simulation α) : Prop :=
  ∀ ⦃w₁ w₂ : World⦄, R w₁ w₂ →
    (w₁.perform act₁).1 = (w₂.perform act₂).1 ∧ R (w₁.perform act₁).2 (w₂.perform act₂).2

variable {R : World → World → Prop}

theorem agree_pure (a : α) : Agree R (pure a : ExceptT ε Simulation α) (pure a) :=
  fun _ _ h ↦ ⟨rfl, h⟩

theorem agree_throw (e : ε) : Agree R (throw e : ExceptT ε Simulation α) (throw e) :=
  fun _ _ h ↦ ⟨rfl, h⟩

theorem agree_ofExcept (r : Except ε α) :
    Agree R (MonadExcept.ofExcept r : ExceptT ε Simulation α) (MonadExcept.ofExcept r) := by
  intro w₁ w₂ h
  rw [World.perform_ofExcept, World.perform_ofExcept]
  exact ⟨rfl, h⟩

theorem Agree.bind {act₁ act₂ : ExceptT ε Simulation α}
    {next₁ next₂ : α → ExceptT ε Simulation β} (h : Agree R act₁ act₂)
    (hnext : ∀ a, Agree R (next₁ a) (next₂ a)) : Agree R (act₁ >>= next₁) (act₂ >>= next₂) := by
  intro w₁ w₂ hw
  obtain ⟨hresult, hv⟩ := h hw
  rw [World.perform_bind, World.perform_bind]
  rcases hact₁ : w₁.perform act₁ with ⟨r₁, v₁⟩
  rcases hact₂ : w₂.perform act₂ with ⟨r₂, v₂⟩
  rw [hact₁, hact₂] at hresult hv
  obtain rfl : r₁ = r₂ := hresult
  cases r₁ with
  | error e => exact ⟨rfl, hv⟩
  | ok a => exact hnext a hv

theorem Agree.adapt {δ : Type} {act₁ act₂ : ExceptT ε Simulation α} (h : Agree R act₁ act₂)
    (f : ε → δ) : Agree R (ExceptT.adapt f act₁) (ExceptT.adapt f act₂) := by
  intro w₁ w₂ hw
  obtain ⟨hresult, hv⟩ := h hw
  rw [World.perform_adapt, World.perform_adapt, hresult]
  exact ⟨rfl, hv⟩

theorem Agree.ite {p : Prop} [Decidable p] {act₁ act₂ other₁ other₂ : ExceptT ε Simulation α}
    (h : Agree R act₁ act₂) (hother : Agree R other₁ other₂) :
    Agree R (if p then act₁ else other₁) (if p then act₂ else other₂) := by
  split <;> assumption

theorem Agree.forM {act₁ act₂ : α → ExceptT ε Simulation PUnit}
    (h : ∀ a, Agree R (act₁ a) (act₂ a)) (xs : List α) :
    Agree R (xs.forM act₁) (xs.forM act₂) := by
  induction xs with
  | nil => exact agree_pure _
  | cons x xs ih => exact (h x).bind fun _ ↦ ih

section Web

variable (hanswer : ∀ {w₁ w₂ : World}, R w₁ w₂ → w₁.answer? = w₂.answer?)
  (hnoted : ∀ {w₁ w₂ : World} (request : Http.Request), R w₁ w₂ →
    R { w₁ with requests := w₁.requests ++ [request] }
      { w₂ with requests := w₂.requests ++ [request] })

include hanswer hnoted

theorem Http.agree_get (text : String) : Agree R
    (Http.get text : ExceptT Http.TransportError Simulation Http.Response) (Http.get text) := by
  unfold Http.get
  cases Url.read text with
  | error fault => exact agree_throw _
  | ok url =>
    refine Agree.ite (Agree.bind ?_ fun response ↦ ?_) (agree_throw _)
    · intro w₁ w₂ h
      have hsame := congrFun (hanswer h) url
      simp only [World.perform_lift, Http.Network.fetch]
      cases hw : w₂.answer? url with
      | none =>
        rw [hw] at hsame
        simpa only [hsame, true_and] using h
      | some response =>
        rw [hw] at hsame
        simpa only [hsame, true_and] using hnoted _ h
    · cases response with
      | none => exact agree_throw _
      | some response => exact agree_pure response

theorem WebCatalog.agree_lookup (c : WebCatalog) (name : String) :
    Agree R (c.lookup name : ExceptT StageError Simulation Unit) (c.lookup name) := by
  refine (agree_ofExcept c.validTemplate).bind fun template ↦ ?_
  cases template with
  | none => exact agree_pure _
  | some template =>
    have hget := (Http.agree_get hanswer hnoted (packageUrl template name)).adapt
      StageError.transport
    refine Agree.bind (hget.bind fun response ↦ ?_) fun _ ↦ agree_pure _
    exact (agree_pure _).ite (agree_throw _)

end Web

end PackageStaging
