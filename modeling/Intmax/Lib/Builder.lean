import Mathlib.Data.List.Forall2

/-! # Circuits as sets of values

Building a circuit allocates wires and adds constraints.  A part of a circuit that hands some of
its wires on is taken for the set of values those wires can have when the constraints of the part
hold, over all assignments to its other wires.  Parts compose as a monad.  A part whose wires are
determined is `pure`.
-/

/-- A part of a circuit, as the values of the wires it returns. -/
def Builder (α : Type) : Type := α → Prop

namespace Builder

variable {α β : Type}

instance instMonad : Monad Builder where
  pure a := fun b => b = a
  bind part rest := fun b => ∃ a, part a ∧ rest a b

/-- Wires that no constraint mentions yet. -/
def free : Builder α := fun _ => True

/-- A constraint. -/
def require (constraint : Prop) : Builder Unit := fun _ => constraint

/-- One copy of a part for each index. -/
def each {ι : Type} (part : ι → Builder α) : Builder (ι → α) := fun wires => ∀ i,
    part i (wires i)

@[simp] theorem pure_apply {a b : α} : (pure a : Builder α) b ↔ b = a := Iff.rfl

@[simp] theorem bind_apply {part : Builder α} {rest : α → Builder β} {b : β} :
    (part >>= rest) b ↔ ∃ a, part a ∧ rest a b := Iff.rfl

@[simp] theorem free_apply {a : α} : (free : Builder α) a := trivial

@[simp] theorem require_apply {constraint : Prop} {u : Unit} :
    require constraint u ↔ constraint :=
  Iff.rfl

@[simp] theorem each_apply {ι : Type} {part : ι → Builder α} {wires : ι → α} :
    each part wires ↔ ∀ i, part i (wires i) := Iff.rfl

theorem ext {part part' : Builder α} (same : ∀ a, part a ↔ part' a) : part = part' :=
  funext fun a => propext (same a)

theorem each_pure {ι : Type} {part : ι → Builder α} {f : ι → α}
    (determined : ∀ i, part i = pure (f i)) : each part = pure f := by
  refine ext fun wires => ?_
  simp [determined, funext_iff]

theorem id_map_eq (part : Builder α) : id <$> part = part := by
  refine ext fun a => ?_
  constructor
  · rintro ⟨b, yields, rfl⟩
    exact yields
  · intro yields
    exact ⟨a, yields, rfl⟩

theorem bind_assoc_eq {γ : Type} (part : Builder α) (rest : α → Builder β)
    (last : β → Builder γ) :
    part >>= rest >>= last = part >>= fun a => rest a >>= last := by
  refine ext fun c => ?_
  simp
  constructor
  · rintro ⟨b, ⟨a, first, second⟩, third⟩
    exact ⟨a, first, b, second, third⟩
  · rintro ⟨a, first, b, second, third⟩
    exact ⟨b, ⟨a, first, second⟩, third⟩

instance instLawfulMonad : LawfulMonad Builder :=
  LawfulMonad.mk' Builder id_map_eq (fun _ _ => ext fun _ => by simp) bind_assoc_eq

end Builder
