/-! Taking a computation apart that may fail, with a state or without. -/

namespace TestSkeleton

theorem bind_eq_ok {ε α β : Type} {first : Except ε α} {next : α → Except ε β} {result : β} :
    first >>= next = .ok result ↔ ∃ a, first = .ok a ∧ next a = .ok result := by
  cases first with
  | error e => simp [bind, Except.bind]
  | ok a => simp [bind, Except.bind]

theorem bind_eq_error {ε α β : Type} {first : Except ε α} {next : α → Except ε β} {e : ε} :
    first >>= next = .error e ↔ first = .error e ∨ ∃ a, first = .ok a ∧ next a = .error e := by
  cases first with
  | error e => simp [bind, Except.bind]
  | ok a => simp [bind, Except.bind]

theorem ok_bind {ε α β : Type} (a : α) (next : α → Except ε β) : Except.ok a >>= next = next a := rfl

theorem throw_bind {ε α β : Type} (e : ε) (next : α → Except ε β) :
    (throw e : Except ε α) >>= next = throw e := rfl

theorem bind_congr_ok {ε α β : Type} {first : Except ε α} {next next' : α → Except ε β}
    (same : ∀ a, first = .ok a → next a = next' a) : first >>= next = first >>= next' := by
  cases first with
  | error e => rfl
  | ok a => exact same a rfl

theorem map_error {ε α β : Type} (e : ε) (f : α → β) : (Except.error e).map f = .error e := rfl

theorem map_ok {ε α β : Type} (a : α) (f : α → β) :
    (Except.ok a : Except ε α).map f = .ok (f a) := rfl

theorem bind_pure_eq_map {ε α β : Type} (x : Except ε α) (f : α → β) :
    (x >>= fun a => pure (f a)) = x.map f := by
  cases x <;> rfl

theorem map_eq_ok {ε α β : Type} {first : Except ε α} {f : α → β} {result : β} :
    first.map f = .ok result ↔ ∃ a, first = .ok a ∧ f a = result := by
  cases first with
  | error e => simp [map_error]
  | ok a => simp [map_ok]

theorem pure_eq_ok {ε α : Type} {a result : α} :
    (pure a : Except ε α) = .ok result ↔ a = result := by
  simp [pure, Except.pure]

theorem mapError_ok {ε φ α : Type} (wrap : ε → φ) (a : α) :
    (Except.ok a : Except ε α).mapError wrap = .ok a := rfl

theorem mapError_eq_ok {ε φ α : Type} {wrap : ε → φ} {first : Except ε α} {result : α} :
    first.mapError wrap = .ok result ↔ first = .ok result := by
  cases first with
  | error e =>
    change Except.error (wrap e) = Except.ok result ↔ _
    simp
  | ok a =>
    change Except.ok a = Except.ok result ↔ _
    simp

theorem mapError_eq_error {ε φ α : Type} {wrap : ε → φ} {first : Except ε α} {e : φ} :
    first.mapError wrap = .error e ↔ ∃ cause, first = .error cause ∧ wrap cause = e := by
  cases first with
  | error cause =>
    change Except.error (wrap cause) = Except.error e ↔ _
    simp
  | ok a =>
    change Except.ok a = Except.error e ↔ _
    simp

theorem exists_ok_of_toOption {ε α : Type} {result : Except ε α} {p : α → Bool}
    (ends : result.toOption.any p = true) : ∃ a, result = .ok a ∧ p a = true := by
  cases result with
  | error e => cases ends
  | ok a => exact ⟨a, rfl, ends⟩

section Run

variable {ε σ α β : Type}

theorem run_bind (c : ExceptT ε (StateM σ) α) (next : α → ExceptT ε (StateM σ) β) (w : σ) :
    (c >>= next).run w = match c.run w with
      | (.ok a, w) => (next a).run w
      | (.error e, w) => (.error e, w) := by
  have step : (c >>= next).run w = ExceptT.bindCont next (c.run w).1 (c.run w).2 := rfl
  rw [step]
  rcases c.run w with ⟨result, w⟩
  cases result <;> rfl

theorem run_pure (a : α) (w : σ) : (pure a : ExceptT ε (StateM σ) α).run w = (.ok a, w) := rfl

theorem run_get (w : σ) : (get : ExceptT ε (StateM σ) σ).run w = (.ok w, w) := rfl

theorem run_throw (e : ε) (w : σ) : (throw e : ExceptT ε (StateM σ) α).run w = (.error e, w) := rfl

theorem run_tryCatch (c : ExceptT ε (StateM σ) α) (handle : ε → ExceptT ε (StateM σ) α) (w : σ) :
    (tryCatch c handle).run w = match c.run w with
      | (.ok a, w) => (.ok a, w)
      | (.error e, w) => (handle e).run w := by
  have step : ∀ next : Except ε α → StateM σ (Except ε α),
      (c.run >>= next) w = next (c.run w).1 (c.run w).2 := fun _ => rfl
  rw [ExceptT.run_tryCatch, step]
  rcases c.run w with ⟨result, w⟩
  cases result <;> rfl

theorem run_bind_eq_ok {c : ExceptT ε (StateM σ) α} {next : α → ExceptT ε (StateM σ) β} {w w' : σ}
    {b : β} :
    (c >>= next).run w = (.ok b, w') ↔
      ∃ a w₁, c.run w = (.ok a, w₁) ∧ (next a).run w₁ = (.ok b, w') := by
  rw [run_bind]
  rcases c.run w with ⟨result, w₁⟩
  cases result with
  | error e =>
    constructor
    · intro done
      cases done
    · rintro ⟨a, w₂, first, -⟩
      cases first
  | ok a =>
    constructor
    · exact fun done => ⟨a, w₁, rfl, done⟩
    · rintro ⟨a, w₂, first, done⟩
      cases first
      exact done

end Run

end TestSkeleton
