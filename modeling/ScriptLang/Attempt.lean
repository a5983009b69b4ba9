/-!
Computations on a state that may fail. Failure does not undo what was done before it: the state
that a failed computation reached is part of its outcome.
-/

set_option autoImplicit false
set_option relaxedAutoImplicit false

namespace ScriptLang

/-- A computation on a state of type `σ` that yields an `α` or fails with an `ε`. -/
def Attempt (σ ε α : Type) : Type :=
  σ → Except ε α × σ

namespace Attempt

variable {σ ε α β : Type}

protected def pure (a : α) : Attempt σ ε α :=
  fun s => (.ok a, s)

/-- One computation after another; the second is skipped if the first fails. -/
protected def bind (x : Attempt σ ε α) (f : α → Attempt σ ε β) : Attempt σ ε β :=
  fun s =>
    match x s with
    | (.ok a, t) => f a t
    | (.error e, t) => (.error e, t)

instance : Monad (Attempt σ ε) where
  pure := Attempt.pure
  bind := Attempt.bind

instance : MonadStateOf σ (Attempt σ ε) where
  get s := (.ok s, s)
  set t _ := (.ok (), t)
  modifyGet f s :=
    let (a, t) := f s
    (.ok a, t)

def fail (e : ε) : Attempt σ ε α :=
  fun s => (.error e, s)

@[simp] theorem pure_apply (a : α) (s : σ) : (pure a : Attempt σ ε α) s = (.ok a, s) := rfl

@[simp] theorem fail_apply (e : ε) (s : σ) : (fail e : Attempt σ ε α) s = (.error e, s) := rfl

@[simp] theorem get_apply (s : σ) : (get : Attempt σ ε σ) s = (.ok s, s) := rfl

@[simp] theorem modify_apply (f : σ → σ) (s : σ) :
    (modify f : Attempt σ ε PUnit) s = (.ok (), f s) := rfl

theorem bind_apply (x : Attempt σ ε α) (f : α → Attempt σ ε β) (s : σ) :
    (x >>= f) s = match x s with
      | (.ok a, t) => f a t
      | (.error e, t) => (.error e, t) := rfl

theorem bind_apply_ok {x : Attempt σ ε α} {f : α → Attempt σ ε β} {s t : σ} {a : α}
    (h : x s = (.ok a, t)) : (x >>= f) s = f a t := by
  rw [bind_apply, h]

theorem bind_apply_error {x : Attempt σ ε α} {f : α → Attempt σ ε β} {s t : σ} {e : ε}
    (h : x s = (.error e, t)) : (x >>= f) s = (.error e, t) := by
  rw [bind_apply, h]

private theorem id_map_eq (x : Attempt σ ε α) : id <$> x = x := by
  funext s
  change (match x s with | (.ok a, t) => (Except.ok a, t) | (.error e, t) => (.error e, t)) = x s
  split <;> simp_all

private theorem bind_assoc_eq {γ : Type} (x : Attempt σ ε α) (f : α → Attempt σ ε β)
    (g : β → Attempt σ ε γ) : x >>= f >>= g = x >>= fun a => f a >>= g := by
  funext s
  simp only [bind_apply]
  rcases x s with ⟨_ | _, _⟩ <;> rfl

instance : LawfulMonad (Attempt σ ε) :=
  LawfulMonad.mk' _ id_map_eq (fun _ _ => rfl) bind_assoc_eq

end Attempt

namespace Attempt

variable {σ ε α β : Type}

theorem bind_eq_ok {x : Attempt σ ε α} {f : α → Attempt σ ε β} {s u : σ} {b : β} :
    (x >>= f) s = (.ok b, u) ↔ ∃ a t, x s = (.ok a, t) ∧ f a t = (.ok b, u) := by
  rw [bind_apply]
  rcases x s with ⟨_ | a, t⟩
  · simp
  · simp only [Prod.mk.injEq, Except.ok.injEq]
    constructor
    · exact fun h => ⟨a, t, ⟨rfl, rfl⟩, h⟩
    · rintro ⟨_, _, ⟨rfl, rfl⟩, h⟩
      exact h

theorem pure_eq_ok {a b : α} {s u : σ} :
    (pure a : Attempt σ ε α) s = (.ok b, u) ↔ a = b ∧ s = u := by
  rw [pure_apply, Prod.mk.injEq, Except.ok.injEq]

theorem map_eq_ok {f : α → β} {x : Attempt σ ε α} {s u : σ} {b : β} :
    (f <$> x) s = (.ok b, u) ↔ ∃ a, x s = (.ok a, u) ∧ f a = b := by
  rw [map_eq_pure_bind, bind_eq_ok]
  constructor
  · rintro ⟨a, t, hx, h⟩
    obtain ⟨rfl, rfl⟩ := pure_eq_ok.mp h
    exact ⟨a, hx, rfl⟩
  · rintro ⟨a, hx, rfl⟩
    exact ⟨a, u, hx, rfl⟩

theorem discard_eq_ok {x : Attempt σ ε α} {s u : σ} {b : PUnit} :
    discard x s = (.ok b, u) ↔ ∃ a, x s = (.ok a, u) := by
  refine (map_eq_ok (f := Function.const α PUnit.unit)).trans ?_
  simp

theorem map_apply (f : α → β) (x : Attempt σ ε α) (s : σ) :
    (f <$> x) s = ((x s).1.map f, (x s).2) := by
  rw [map_eq_pure_bind, bind_apply]
  rcases x s with ⟨_ | a, t⟩ <;> rfl

theorem map_apply_ok {f : α → β} {x : Attempt σ ε α} {s t : σ} {a : α} (h : x s = (.ok a, t)) :
    (f <$> x) s = (.ok (f a), t) :=
  map_eq_ok.mpr ⟨a, h, rfl⟩

theorem discard_apply_ok {x : Attempt σ ε α} {s t : σ} {a : α} (h : x s = (.ok a, t)) :
    discard x s = (.ok (), t) :=
  discard_eq_ok.mpr ⟨a, h⟩

theorem discard_apply_error {x : Attempt σ ε α} {s t : σ} {e : ε}
    (h : x s = (.error e, t)) : discard x s = (.error e, t) := by
  change (Function.const α PUnit.unit <$> x) s = _
  rw [map_eq_pure_bind]
  exact bind_apply_error h

end Attempt

end ScriptLang
