import Cose.Error

/-!
# Computations that may fail

A sequence of steps succeeds exactly when its steps do, one after the other, and the first step that fails
decides its error.
-/

set_option autoImplicit false

namespace Cose

namespace Result

variable {ε δ α β : Type}

@[simp] theorem ok_bind (a : α) (f : α → Except ε β) : (Except.ok a >>= f) = f a := rfl

@[simp] theorem error_bind (e : ε) (f : α → Except ε β) : (Except.error e >>= f) = .error e := rfl

@[simp] theorem ok_mapError (f : ε → δ) (a : α) : (Except.ok a : Except ε α).mapError f = .ok a := rfl

@[simp] theorem error_mapError (f : ε → δ) (e : ε) :
    (Except.error e : Except ε α).mapError f = .error (f e) := rfl

theorem bind_eq_ok_iff {r : Except ε α} {f : α → Except ε β} {b : β} :
    (r >>= f) = .ok b ↔ ∃ a, r = .ok a ∧ f a = .ok b := by
  cases r <;> simp

theorem bind_eq_error_iff {r : Except ε α} {f : α → Except ε β} {e : ε} :
    (r >>= f) = .error e ↔ r = .error e ∨ ∃ a, r = .ok a ∧ f a = .error e := by
  cases r <;> simp

theorem mapM_eq_ok_iff {f : α → Except ε β} {xs : List α} {ys : List β} :
    xs.mapM f = .ok ys ↔ xs.map f = ys.map .ok := by
  induction xs generalizing ys with
  | nil => cases ys <;> simp [pure, Except.pure]
  | cons x xs ih =>
    rw [List.mapM_cons]
    cases ys with
    | nil => simp [bind_eq_ok_iff, pure, Except.pure]
    | cons y ys => simp [bind_eq_ok_iff, pure, Except.pure, ih]

theorem mapM_eq_error_iff {f : α → Except ε β} {xs : List α} {e : ε} :
    xs.mapM f = .error e ↔ ∃ before x after, xs = before ++ x :: after ∧
      (∀ y ∈ before, ∃ b, f y = .ok b) ∧ f x = .error e := by
  induction xs with
  | nil => simp [pure, Except.pure]
  | cons x xs ih =>
    rw [List.mapM_cons, bind_eq_error_iff]
    constructor
    · rintro (failed | ⟨b, passed, failed⟩)
      · exact ⟨[], x, xs, rfl, by simp, failed⟩
      · rcases bind_eq_error_iff.mp failed with later | ⟨bs, -, impossible⟩
        · obtain ⟨before, y, after, rfl, earlier, failed⟩ := ih.mp later
          exact ⟨x :: before, y, after, rfl, List.forall_mem_cons.mpr ⟨⟨b, passed⟩, earlier⟩, failed⟩
        · cases impossible
    · rintro ⟨before, y, after, eq, earlier, failed⟩
      cases before with
      | nil =>
        obtain ⟨rfl, rfl⟩ := List.cons.inj eq
        exact Or.inl failed
      | cons z before =>
        obtain ⟨rfl, rfl⟩ := List.cons.inj eq
        obtain ⟨⟨b, passed⟩, earlier⟩ := List.forall_mem_cons.mp earlier
        have later := ih.mpr ⟨before, y, after, rfl, earlier, failed⟩
        exact Or.inr ⟨b, passed, bind_eq_error_iff.mpr (Or.inl later)⟩

theorem map_eq_ok_iff {r : Except ε α} {f : α → β} {b : β} :
    r.map f = .ok b ↔ ∃ a, r = .ok a ∧ f a = b := by
  cases r <;> simp [Except.map]

theorem mapError_eq_ok_iff {r : Except ε α} {f : ε → δ} {a : α} :
    r.mapError f = .ok a ↔ r = .ok a := by
  cases r <;> simp

theorem ok_of_isOk {r : Except ε α} (h : r.isOk = true) : ∃ a, r = .ok a := by
  cases r with
  | error e => simp [Except.isOk, Except.toBool] at h
  | ok a => exact ⟨a, rfl⟩

theorem error_of_ne_ok {r : Except ε α} (h : ∀ a, r ≠ .ok a) : ∃ e, r = .error e := by
  cases r with
  | error e => exact ⟨e, rfl⟩
  | ok a => exact absurd rfl (h a)

theorem run_ofExcept {σ : Type} (r : Except ε α) (s : σ) :
    (MonadExcept.ofExcept r : EStateM ε σ α).run s = match r with
      | .ok a => .ok a s
      | .error e => .error e s := by
  cases r <;> rfl

/-- A call in place comes to the next state, or to an error and the state that it found. -/
def inPlace {σ : Type} (r : Except ε σ) (s : σ) : EStateM.Result ε σ Unit :=
  match r with
  | .ok next => .ok () next
  | .error e => .error e s

@[simp] theorem inPlace_ok {σ : Type} (next s : σ) : inPlace (.ok next : Except ε σ) s = .ok () next := rfl

@[simp] theorem inPlace_error {σ : Type} (e : ε) (s : σ) : inPlace (.error e) s = .error e s := rfl

theorem inPlace_eq_ok_iff {σ : Type} {r : Except ε σ} {s next : σ} :
    inPlace r s = .ok () next ↔ r = .ok next := by
  cases r <;> simp

theorem inPlace_eq_error_iff {σ : Type} {r : Except ε σ} {s left : σ} {e : ε} :
    inPlace r s = .error e left ↔ r = .error e ∧ left = s := by
  cases r <;> simp [eq_comm]

/-! The errors that a computation may end in. -/

/-- Every error that the computation may end in is one of these. -/
def FailsOnly (p : ε → Prop) (r : Except ε α) : Prop := ∀ e, r = .error e → p e

section

variable {p q : ε → Prop} {r : Except ε α}

theorem failsOnly_ok (a : α) : FailsOnly p (.ok a : Except ε α) := by
  rintro e ⟨⟩

theorem failsOnly_error {e : ε} (h : p e) : FailsOnly p (.error e : Except ε α) := by
  rintro _ ⟨⟩
  exact h

theorem failsOnly_dite {c : Prop} [Decidable c] (f : c → α) {e : ε} (h : p e) :
    FailsOnly p (if hc : c then .ok (f hc) else .error e : Except ε α) := by
  split
  · exact failsOnly_ok _
  · exact failsOnly_error h

theorem FailsOnly.bind_of_ok {f : α → Except ε β} (first : FailsOnly p r)
    (next : ∀ a, r = .ok a → FailsOnly p (f a)) : FailsOnly p (r >>= f) := by
  cases r with
  | error e => exact failsOnly_error (first e rfl)
  | ok a => exact next a rfl

theorem FailsOnly.bind {f : α → Except ε β} (first : FailsOnly p r) (next : ∀ a, FailsOnly p (f a)) :
    FailsOnly p (r >>= f) :=
  first.bind_of_ok fun a _ => next a

theorem FailsOnly.map (first : FailsOnly p r) (f : α → β) : FailsOnly p (r.map f) := by
  cases r with
  | error e => exact failsOnly_error (first e rfl)
  | ok a => exact failsOnly_ok (f a)

theorem FailsOnly.mono (fails : FailsOnly p r) (imp : ∀ e, p e → q e) : FailsOnly q r :=
  fun e failed => imp e (fails e failed)

end

end Result

end Cose
