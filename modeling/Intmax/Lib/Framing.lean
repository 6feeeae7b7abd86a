import Mathlib.Data.Nat.ModEq

/-! # Images that show where they end

A preimage of a hash is often a concatenation in which some parts have no fixed width.  It can be
read back when every part shows where it ends: a part of a fixed width, a part behind its size,
or a list of such parts behind their number.
-/

namespace Framing

open List

variable {W α : Type}

/-- The image of a value and what follows it are told apart. -/
def Framed (valid : α → Prop) (image : α → List W) : Prop :=
  ∀ ⦃a a' : α⦄ ⦃rest rest' : List W⦄, valid a → valid a' →
    image a ++ rest = image a' ++ rest' → a = a' ∧ rest = rest'

variable {valid : α → Prop} {image : α → List W} {k : Nat} {l : List α}

/-- A body behind its size. -/
theorem Framed.sized {size : α → W} {body : α → List W}
    (width : ∀ a a', valid a → valid a' → size a = size a' →
      (body a).length = (body a').length)
    (injective : ∀ a a', valid a → valid a' → size a = size a' →
      body a = body a' → a = a') :
    Framed valid fun a => size a :: body a := by
  intro a a' rest rest' ok ok' same
  obtain ⟨sizes, bodies⟩ := cons.inj same
  obtain ⟨body, rest⟩ := append_inj bodies (width a a' ok ok' sizes)
  exact ⟨injective a a' ok ok' sizes body, rest⟩

theorem length_flatMap_ge (wide : ∀ a, valid a → k ≤ (image a).length)
    (all : ∀ a ∈ l, valid a) :
    k * l.length ≤ (l.flatMap image).length := by
  induction l with
  | nil => exact Nat.zero_le _
  | cons a l ih =>
    have here := wide a (all a mem_cons_self)
    have later := ih fun b member => all b (mem_cons_of_mem _ member)
    rw [flatMap_cons, length_append, length_cons, Nat.mul_succ]
    omega

/-- A number of entries that is a multiple of `m` and not zero needs more room than `rest` has. -/
theorem counted_overflow {m : Nat} (wide : ∀ a, valid a → k ≤ (image a).length) {a : α}
    {rest rest' : List W} (all : ∀ b ∈ a :: l, valid b) (short : rest.length < k * m)
    (count : 0 % m = (a :: l).length % m) : rest ≠ (a :: l).flatMap image ++ rest' := by
  intro same
  have many : m ≤ (a :: l).length := by
    by_contra few
    rw [Nat.mod_eq_of_lt (lt_of_not_ge few), Nat.zero_mod] at count
    cases count
  have room := length_flatMap_ge wide all
  have fits := congrArg length same
  rw [length_append] at fits
  have enough : k * m ≤ k * (a :: l).length := Nat.mul_le_mul_left k many
  omega

/-- Entries one after the other.  Their number is known modulo `m` only, but fewer than `m`
    entries fit into what follows. -/
theorem Framed.counted (framed : Framed valid image) {m : Nat}
    (wide : ∀ a, valid a → k ≤ (image a).length) {l' : List α} {rest rest' : List W}
    (all : ∀ a ∈ l, valid a) (all' : ∀ a ∈ l', valid a) (short : rest.length < k * m)
    (short' : rest'.length < k * m) (count : l.length % m = l'.length % m)
    (same : l.flatMap image ++ rest = l'.flatMap image ++ rest') : l = l' ∧ rest = rest' := by
  induction l generalizing l' with
  | nil =>
    cases l' with
    | nil => exact ⟨rfl, same⟩
    | cons a' l' => exact absurd same (counted_overflow wide all' short count)
  | cons a l ih =>
    cases l' with
    | nil => exact absurd same.symm (counted_overflow wide all short' count.symm)
    | cons a' l' =>
      simp at same
      obtain ⟨rfl, tails⟩ := framed (all a mem_cons_self) (all' a' mem_cons_self) same
      have later : l.length % m = l'.length % m := Nat.ModEq.add_right_cancel' 1 count
      obtain ⟨rfl, rests⟩ := ih (fun b member => all b (mem_cons_of_mem _ member))
        (fun b member => all' b (mem_cons_of_mem _ member)) later tails
      exact ⟨rfl, rests⟩

end Framing
