import Mathlib.Data.List.OfFn
import Intmax.Circuits.Hashing

/-! # The words of a Keccak preimage

Keccak hashes 32-bit words.  A number is one word, and a 32-byte value is eight of them, which
look like any other words: where one item ends and the next begins is not part of what is
hashed.  `KeccakInjective` speaks of preimages of one layout; here two preimages of any layouts
are compared by their words.
-/

namespace Intmax

open Hashing List Item

/-- The words of numbers and of 32-byte values. -/
structure Flattening (B W : Type) where
  word : Nat → W
  /-- `Bytes32::to_u32_vec`. -/
  limb : B → Fin 8 → W
  word_injective : Function.Injective word
  limb_injective : Function.Injective limb

namespace Flattening

variable {D B W : Type} [Hashing D B] (f : Flattening B W)

def ofItem : Item D B → List W
  | .elem n => [f.word n]
  | .digest d => List.ofFn (f.limb (ofDigest d))
  | .bytes b => List.ofFn (f.limb b)

def flatten (items : List (Item D B)) : List W := items.flatMap f.ofItem

/-- No two preimages with different words have one Keccak hash. -/
def KeccakInjective (D : Type) {B W : Type} [Hashing D B] (f : Flattening B W) : Prop :=
  ∀ l l' : List (Item D B), keccak l = keccak l' → f.flatten l = f.flatten l'

@[simp] theorem flatten_nil : f.flatten ([] : List (Item D B)) = [] := rfl

@[simp] theorem flatten_cons (item : Item D B) (rest : List (Item D B)) :
    f.flatten (item :: rest) = f.ofItem item ++ f.flatten rest :=
  flatMap_cons

@[simp] theorem flatten_append (l l' : List (Item D B)) :
    f.flatten (l ++ l') = f.flatten l ++ f.flatten l' :=
  flatMap_append

@[simp] theorem flatten_elems (ns : List Nat) :
    f.flatten (ns.map (.elem : Nat → Item D B)) = ns.map f.word := by
  induction ns with
  | nil => rfl
  | cons n ns ih => simp [ofItem, ih]

variable {f}

/-- Items of one kind have the same number of words. -/
theorem ofItem_append {item item' : Item D B} {rest rest' : List W}
    (kind : sameKind item item' = true)
    (same : f.ofItem item ++ rest = f.ofItem item' ++ rest') : item = item' ∧ rest = rest' := by
  cases item with
  | elem n =>
    cases item' with
    | elem n' =>
      obtain ⟨words, rests⟩ := cons.inj same
      exact ⟨congrArg elem (f.word_injective words), rests⟩
    | digest d => cases kind
    | bytes b => cases kind
  | digest d =>
    cases item' with
    | elem n => cases kind
    | digest d' =>
      obtain ⟨words, rests⟩ := append_inj same (by simp [ofItem])
      have equal := f.limb_injective (ofFn_injective words)
      exact ⟨congrArg digest (ofDigest_injective equal), rests⟩
    | bytes b => cases kind
  | bytes b =>
    cases item' with
    | elem n => cases kind
    | digest d => cases kind
    | bytes b' =>
      obtain ⟨words, rests⟩ := append_inj same (by simp [ofItem])
      exact ⟨congrArg bytes (f.limb_injective (ofFn_injective words)), rests⟩

/-- Fronts of one layout are read off the words. -/
theorem flatten_append_inj {l l' : List (Item D B)} {rest rest' : List W}
    (same : f.flatten l ++ rest = f.flatten l' ++ rest')
    (alike : Forall₂ (fun a b => sameKind a b = true) l l') : l = l' ∧ rest = rest' := by
  induction alike with
  | nil => exact ⟨rfl, same⟩
  | cons kind _ ih =>
    simp at same
    obtain ⟨rfl, tails⟩ := ofItem_append kind same
    obtain ⟨rfl, rests⟩ := ih tails
    exact ⟨rfl, rests⟩

theorem KeccakInjective.alike (injective : f.KeccakInjective D) : Hashing.KeccakInjective D := by
  intro l l' alike same
  have words : f.flatten l ++ [] = f.flatten l' ++ [] := by rw [injective l l' same]
  exact (flatten_append_inj words alike).1

end Flattening

/-! ## Words of a hashing without collisions -/

/-- Numbers and 32-byte values as words of their own. -/
def Free.flattening : Flattening Free.Bytes (Nat ⊕ Free.Bytes) where
  word := .inl
  limb b _ := .inr b
  word_injective _ _ same := Sum.inl.inj same
  limb_injective _ _ same := Sum.inr.inj (congrFun same 0)

theorem Free.flattening_keccakInjective : Free.flattening.KeccakInjective Free.Digest := by
  intro l l' same
  simp [Hashing.keccak] at same
  rw [Free.Items.ofList_injective same]

end Intmax
