import Mathlib.Algebra.Group.Nat.Defs
import Mathlib.Logic.Basic

/-! # Checked computations in `Except`

The vocabulary of a program that either completes with a value or aborts with
an error and leaves no effect behind: a guard (`revertIf`), and the arithmetic
of a language whose unsigned operators abort on overflow.

Every primitive comes with one inversion lemma of the same form, saying what a
*successful* run of it followed by a continuation means.  Together they are the
simp set that takes the success of a long `do` block apart into its guards and
the values it computed.
-/

namespace Checked

open List

variable {ε α β : Type}

/-! ## Success of a sequence -/

variable {x : Except ε α} {c : Prop} {w a b : Nat}

variable {k : α → Except ε β} {f : α → β} {y : Except ε α} {step : β →
  α → Except ε β}
  {items : List α}

@[simp] theorem bind_ok {b : β} : (x >>= k) = .ok b ↔ ∃ a, x = .ok a ∧ k a = .ok b := by
  cases x with
  | error e => simp [bind, Except.bind]
  | ok a => simp [bind, Except.bind]

@[simp] theorem pure_ok {a b : α} : (pure a : Except ε α) = .ok b ↔ a = b := by
  simp [pure, Except.pure]

@[simp] theorem map_ok_iff {b : β} : (f <$> x) = .ok b ↔ ∃ a, x = .ok a ∧ f a = b := by
  cases x with
  | error e => simp [Functor.map, Except.map]
  | ok a => simp [Functor.map, Except.map]

@[simp] theorem mapError_ok {ε' : Type} {f : ε → ε'} {a : α} :
    x.mapError f = .ok a ↔ x = .ok a := by
  cases x with
  | error e =>
    constructor
    · intro same
      cases same
    · intro same
      cases same
  | ok b =>
    constructor
    · intro same
      cases same
      rfl
    · intro same
      cases same
      rfl

@[simp] theorem ite_ok [Decidable c] {b : α} :
    (if c then x else y) = .ok b ↔ (c ∧ x = .ok b) ∨ (¬ c ∧ y = .ok b) := by
  by_cases h : c <;> simp [h]

/-- A sequence aborts at its first aborting part. -/
theorem bind_error {e : ε} :
    (x >>= k) = .error e ↔ x = .error e ∨ ∃ a, x = .ok a ∧ k a = .error e := by
  cases x with
  | error e' => simp [bind, Except.bind]
  | ok a => simp [bind, Except.bind]

theorem pure_ne_error {a : α} {e : ε} : (pure a : Except ε α) ≠ .error e :=
  fun same => nomatch same

theorem map_error_iff {e : ε} : (f <$> x) = .error e ↔ x = .error e := by
  cases x <;> simp [Functor.map, Except.map]

theorem ite_error_iff [Decidable c] {e : ε} :
    (if c then x else y) = .error e ↔ (c ∧ x = .error e) ∨ (¬ c ∧ y = .error e) := by
  by_cases h : c <;> simp [h]

/-! ## Guards -/

/-- Abort with `e` when the condition holds. -/
def revertIf (c : Prop) [Decidable c] (e : ε) : Except ε Unit :=
  if c then .error e else .ok ()

@[simp] theorem revertIf_ok [Decidable c] {e : ε} {u : Unit} : revertIf c e = .ok u ↔ ¬ c := by
  by_cases h : c <;> simp [revertIf, h]

theorem revertIf_error [Decidable c] {e e' : ε} : revertIf c e = .error e' ↔ c ∧ e = e' := by
  by_cases h : c <;> simp [revertIf, h]

/-- The value of an optional answer, or an abort when there is none. -/
def getOrRevert (x : Option α) (e : ε) : Except ε α :=
  match x with
  | some a => .ok a
  | none => .error e

@[simp] theorem getOrRevert_ok {x : Option α} {e : ε} {a : α} :
    getOrRevert x e = .ok a ↔ x = some a := by
  cases x <;> simp [getOrRevert]

theorem getOrRevert_error_iff {x : Option α} {e e' : ε} :
    getOrRevert x e = .error e' ↔ x = none ∧ e = e' := by
  cases x <;> simp [getOrRevert]

theorem forall_unit {p : Unit → Prop} : (∀ u, p u) ↔ p () :=
  ⟨fun all => all (), fun one _ => one⟩

@[simp] theorem exists_unit {p : Unit → Prop} : (∃ u, p u) ↔ p () :=
  ⟨fun ⟨_, h⟩ => h, fun h => ⟨(), h⟩⟩

/-- A loop of checks passes when each of them does. -/
@[simp] theorem forM_ok {l : List α} {f : α → Except ε PUnit} {u : PUnit} :
    l.forM f = .ok u ↔ ∀ a ∈ l, f a = .ok () := by
  induction l with
  | nil => simp
  | cons a rest ih =>
    have unfolds : (a :: rest).forM f = (f a >>= fun _ => rest.forM f) := rfl
    simp only [unfolds, bind_ok, ih, forall_mem_cons]
    exact exists_unit

/-- What every round of a loop keeps holds at its end. -/
theorem foldlM_ok_invariant {P : β → Prop} {start final : β} (holds : P start)
    (keeps : ∀ b, P b → ∀ a ∈ items, ∀ b', step b a = .ok b' → P b')
    (run : items.foldlM step start = .ok final) : P final := by
  induction items generalizing start with
  | nil =>
    rw [foldlM_nil, pure_ok] at run
    exact run ▸ holds
  | cons first rest ih =>
    rw [foldlM_cons, bind_ok] at run
    obtain ⟨middle, here, later⟩ := run
    exact ih (keeps start holds first mem_cons_self middle here)
      (fun b kept a member => keeps b kept a (mem_cons_of_mem _ member)) later

/-- A loop whose rounds all complete completes. -/
theorem foldlM_of_ok (write : β → α → β)
    (steps : ∀ b, ∀ a ∈ items, step b a = .ok (write b a))
    (start : β) : items.foldlM step start = .ok (items.foldl write start) := by
  induction items generalizing start with
  | nil => rfl
  | cons first rest ih =>
    rw [foldlM_cons, steps start first mem_cons_self, foldl_cons]
    exact ih (fun b a member => steps b a (mem_cons_of_mem _ member)) _

/-! ## Errors that a computation does not give -/

/-- The computation does not abort with `e`. -/
def Avoids (e : ε) (x : Except ε α) : Prop := x ≠ .error e

section
variable {e e' : ε}

variable {x : Except ε α}

/-- Each part of a sequence is run only after the parts before it completed. -/
@[simp] theorem avoids_bind_iff {k : α → Except ε β} :
    Avoids e (x >>= k) ↔ Avoids e x ∧ ∀ a, x = .ok a → Avoids e (k a) := by
  simp only [Avoids, ne_eq, bind_error, not_or, not_exists, not_and]

@[simp] theorem avoids_pure {a : α} : Avoids e (pure a : Except ε α) := pure_ne_error

@[simp] theorem avoids_ok {a : α} : Avoids e (.ok a : Except ε α) := pure_ne_error

@[simp] theorem avoids_error_iff : Avoids e (.error e' : Except ε α) ↔ e' ≠ e := by
  simp [Avoids]

@[simp] theorem avoids_ite_iff {c : Prop} [Decidable c] {y : Except ε α} :
    Avoids e (if c then x else y) ↔ (c → Avoids e x) ∧ (¬ c → Avoids e y) := by
  by_cases h : c <;> simp [h]

@[simp] theorem avoids_revertIf_iff {c : Prop} [Decidable c] :
    Avoids e (revertIf c e') ↔ (c → e' ≠ e) := by
  simp only [Avoids, ne_eq, revertIf_error, not_and]

@[simp] theorem avoids_getOrRevert_iff {x : Option α} :
    Avoids e (getOrRevert x e') ↔ (x = none → e' ≠ e) := by
  simp only [Avoids, ne_eq, getOrRevert_error_iff, not_and]

@[simp] theorem avoids_mapError_iff {ε' : Type} {x : Except ε' α} {f : ε' → ε} :
    Avoids e (x.mapError f) ↔ ∀ err, x = .error err → f err ≠ e := by
  cases x with
  | error err =>
    constructor
    · intro avoids err' same reported
      cases same
      exact avoids (congrArg Except.error reported)
    · intro differs same
      exact differs err rfl (Except.error.inj same)
  | ok a =>
    constructor
    · intro _ err' same
      cases same
    · intro _ same
      cases same

@[simp] theorem avoids_map_iff {f : α → β} : Avoids e (f <$> x) ↔ Avoids e x := by
  simp only [Avoids, ne_eq, map_error_iff]

@[simp] theorem avoids_forM {l : List α} {f : α → Except ε PUnit}
    (each : ∀ a ∈ l, Avoids e (f a)) : Avoids e (forM l f) := by
  induction l with
  | nil => exact avoids_pure
  | cons a rest ih =>
    have unfolds : forM (a :: rest) f = (f a >>= fun _ => forM rest f) := rfl
    rw [unfolds, avoids_bind_iff]
    exact ⟨each a mem_cons_self, fun _ _ => ih fun b member =>
      each b (mem_cons_of_mem _ member)⟩

end

/-! ## Unsigned arithmetic of a given width -/

/-- Addition at width `w`, aborting on overflow. -/
def add (w : Nat) (e : ε) (a b : Nat) : Except ε Nat :=
  if a + b < 2 ^ w then .ok (a + b) else .error e

/-- Subtraction, aborting on underflow. -/
def sub (e : ε) (a b : Nat) : Except ε Nat :=
  if b ≤ a then .ok (a - b) else .error e

/-- Multiplication at width `w`, aborting on overflow. -/
def mul (w : Nat) (e : ε) (a b : Nat) : Except ε Nat :=
  if a * b < 2 ^ w then .ok (a * b) else .error e

@[simp] theorem add_ok_iff {e : ε} {c : Nat} : add w e a b = .ok c ↔
    a + b < 2 ^ w ∧ c = a + b := by
  by_cases h : a + b < 2 ^ w <;> simp [add, h, eq_comm]

@[simp] theorem sub_ok_iff {e : ε} {c : Nat} : sub e a b = .ok c ↔ b ≤ a ∧ c = a - b := by
  by_cases h : b ≤ a <;> simp [sub, h, eq_comm]

@[simp] theorem mul_ok_iff {e : ε} {c : Nat} : mul w e a b = .ok c ↔
    a * b < 2 ^ w ∧ c = a * b := by
  by_cases h : a * b < 2 ^ w <;> simp [mul, h, eq_comm]

/-- A failing operation reports the error it was given. -/
theorem add_error {e e' : ε} (h : add w e a b = .error e') : e = e' := by
  unfold add at h
  split at h
  · cases h
  · exact Except.error.inj h

theorem sub_error {e e' : ε} (h : sub e a b = .error e') : e = e' := by
  unfold sub at h
  split at h
  · cases h
  · exact Except.error.inj h

theorem mul_error {e e' : ε} (h : mul w e a b = .error e') : e = e' := by
  unfold mul at h
  split at h
  · cases h
  · exact Except.error.inj h

end Checked
