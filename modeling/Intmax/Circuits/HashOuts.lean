import Intmax.Circuits.Splitting
import Mathlib.Data.List.FinRange

/-! # Digests as words, natively and in a circuit

`utils/poseidon_hash_out.rs`: a digest is four field elements, and as 32 bytes each of them is a
high and a low word.  Natively the elements are 64-bit integers, of which those from the order of
the field on stand for no element.
-/

namespace Intmax

open Builder Checked BitVec Target Bytes32Target

/-! ## Native conversions -/

/-- The elements of a `PoseidonHashOut`. -/
abbrev HashOutElements := Fin 4 → BitVec 64

/-- The limbs of a `Bytes32`. -/
abbrev Bytes32Limbs := Fin 8 → BitVec 32

inductive PoseidonHashOutError where
  | nonCanonicalElement (index : Fin 4)
  | recoveryFailed
deriving DecidableEq

theorem highLimb_lt (i : Fin 4) : 2 * i.val < 8 := by omega

theorem lowLimb_lt (i : Fin 4) : 2 * i.val + 1 < 8 := by omega

theorem elementOf_lt (j : Fin 8) : j.val / 2 < 4 := by omega

/-- The limb with the high word of an element. -/
def highLimb (i : Fin 4) : Fin 8 := ⟨2 * i.val, highLimb_lt i⟩

/-- The limb with the low word of an element. -/
def lowLimb (i : Fin 4) : Fin 8 := ⟨2 * i.val + 1, lowLimb_lt i⟩

/-- The element that a limb belongs to. -/
def elementOf (j : Fin 8) : Fin 4 := ⟨j.val / 2, elementOf_lt j⟩

/-- `From<PoseidonHashOut> for Bytes32`. -/
def HashOutElements.toBytes32 (value : HashOutElements) : Bytes32Limbs := fun j =>
  if j.val % 2 = 0 then (value (elementOf j) >>> 32).setWidth 32
    else (value (elementOf j)).setWidth 32

/-- `Bytes32::reduce_to_hash_out`. -/
def Bytes32Limbs.reduceToHashOut (value : Bytes32Limbs) : HashOutElements := fun i =>
  ((value (highLimb i)).setWidth 64 <<< 32) + (value (lowLimb i)).setWidth 64

/-- `TryFrom<Bytes32> for PoseidonHashOut`. -/
def Bytes32Limbs.tryIntoHashOut (value : Bytes32Limbs) :
    Except PoseidonHashOutError HashOutElements := do
  (List.finRange 4).forM fun i =>
    revertIf (goldilocksOrder ≤ (value.reduceToHashOut i).toNat) (.nonCanonicalElement i)
  revertIf (List.ofFn value ≠ List.ofFn value.reduceToHashOut.toBytes32) .recoveryFailed
  pure value.reduceToHashOut

/-! ## In a circuit -/

/-- `Bytes32Target::reduce_to_hash_out`. -/
def Bytes32Target.reduceToHashOut (b : Bytes32Target) : Fin 4 → Target := fun i =>
  Target.ofNat (2 ^ 32) * b (highLimb i) + b (lowLimb i)

/-- `Bytes32Target::to_hash_out`. -/
def Bytes32Target.toHashOut (b : Bytes32Target) : Builder (Fin 4 → Target) := do
  let hashOut := b.reduceToHashOut
  let recovered ← Bytes32Target.fromHashOut hashOut
  require (b = recovered)
  pure hashOut

/-- The wires of native limbs. -/
def Bytes32Target.constant (limbs : Bytes32Limbs) : Bytes32Target := fun j =>
  Target.ofNat (limbs j).toNat

/-- `to_canonical_u64` of each element. -/
def nativeElements (elements : Fin 4 → Target) : HashOutElements := fun i =>
  BitVec.ofNat 64 (elements i).val

/-! ## Words -/

theorem limbs_ext {α : Type} {f g : Fin 8 → α} (same : ∀ i : Fin 4,
    f (highLimb i) = g (highLimb i) ∧ f (lowLimb i) = g (lowLimb i)) : f = g := by
  funext j
  obtain ⟨high, low⟩ := same (elementOf j)
  rcases Nat.mod_two_eq_zero_or_one j.val with even | odd
  · have limb : highLimb (elementOf j) = j := Fin.ext (by simp only [highLimb, elementOf]; omega)
    rwa [limb] at high
  · have limb : lowLimb (elementOf j) = j := Fin.ext (by simp only [lowLimb, elementOf]; omega)
    rwa [limb] at low

@[simp] theorem elementOf_highLimb (i : Fin 4) : elementOf (highLimb i) = i :=
  Fin.ext (by simp only [highLimb, elementOf]; omega)

@[simp] theorem elementOf_lowLimb (i : Fin 4) : elementOf (lowLimb i) = i :=
  Fin.ext (by simp only [lowLimb, elementOf]; omega)

theorem HashOutElements.toBytes32_high (value : HashOutElements) (i : Fin 4) :
    (value.toBytes32 (highLimb i)).toNat = (value i).toNat / 2 ^ 32 := by
  have even : (highLimb i).val % 2 = 0 := by simp only [highLimb]; omega
  rw [toBytes32, if_pos even, elementOf_highLimb, toNat_setWidth, toNat_ushiftRight,
    Nat.shiftRight_eq_div_pow]
  omega

theorem HashOutElements.toBytes32_low (value : HashOutElements) (i : Fin 4) :
    (value.toBytes32 (lowLimb i)).toNat = (value i).toNat % 2 ^ 32 := by
  have odd : ¬ (lowLimb i).val % 2 = 0 := by simp only [lowLimb]; omega
  rw [toBytes32, if_neg odd, elementOf_lowLimb, toNat_setWidth]

theorem Bytes32Limbs.reduceToHashOut_toNat (value : Bytes32Limbs) (i : Fin 4) :
    (value.reduceToHashOut i).toNat =
      2 ^ 32 * (value (highLimb i)).toNat + (value (lowLimb i)).toNat := by
  simp [reduceToHashOut, Nat.shiftLeft_eq]
  omega

/-- Regrouping loses nothing, canonical or not. -/
theorem Bytes32Limbs.toBytes32_reduceToHashOut (value : Bytes32Limbs) :
    value.reduceToHashOut.toBytes32 = value := by
  refine limbs_ext fun i => ?_
  have whole := value.reduceToHashOut_toNat i
  constructor
  · apply eq_of_toNat_eq
    rw [HashOutElements.toBytes32_high, whole]
    omega
  · apply eq_of_toNat_eq
    rw [HashOutElements.toBytes32_low, whole]
    omega

theorem Bytes32Limbs.tryIntoHashOut_ok_iff {value : Bytes32Limbs} {hashOut : HashOutElements} :
    value.tryIntoHashOut = .ok hashOut ↔
      (∀ i, (value.reduceToHashOut i).toNat < goldilocksOrder) ∧
        hashOut = value.reduceToHashOut := by
  have recovers : ¬ List.ofFn value ≠ List.ofFn value.reduceToHashOut.toBytes32 :=
    not_not.mpr (congrArg List.ofFn value.toBytes32_reduceToHashOut.symm)
  rw [tryIntoHashOut, bind_ok, exists_unit, forM_ok, bind_ok, exists_unit]
  simp only [revertIf_ok, pure_ok, List.mem_finRange, true_implies, not_le, recovers,
    not_false_eq_true, true_and]
  exact and_congr_right fun _ => eq_comm

/-! ## Both sides -/

theorem nativeElements_toNat (elements : Fin 4 → Target) (i : Fin 4) :
    (nativeElements elements i).toNat = (elements i).val := by
  have bound : (elements i).val < 2 ^ 64 := lt_trans (elements i).isLt (by decide)
  rw [nativeElements, toNat_ofNat, Nat.mod_eq_of_lt bound]

/-- The circuit splits an element into the native words. -/
theorem Bytes32Target.fromHashOut_native (elements : Fin 4 → Target) :
    fromHashOut elements =
      pure (constant (nativeElements elements).toBytes32) := by
  rw [fromHashOut_eq]
  refine congrArg pure (limbs_ext fun i => ?_)
  have even : (highLimb i).val % 2 = 0 := by simp only [highLimb]; omega
  have odd : ¬ (lowLimb i).val % 2 = 0 := by simp only [lowLimb]; omega
  have high := elementOf_highLimb i
  have low := elementOf_lowLimb i
  simp only [elementOf] at high low
  simp only [if_pos even, if_neg odd, high, low, constant,
    HashOutElements.toBytes32_high, HashOutElements.toBytes32_low, nativeElements_toNat]
  exact ⟨rfl, rfl⟩

theorem Bytes32Target.toHashOut_apply {b : Bytes32Target} {out : Fin 4 → Target} :
    b.toHashOut out ↔ b = constant (nativeElements b.reduceToHashOut).toBytes32 ∧
      out = b.reduceToHashOut := by
  simp only [toHashOut, fromHashOut_native, pure_bind, bind_apply, require_apply, pure_apply,
    exists_const]

theorem Bytes32Target.reduceToHashOut_constant {limbs : Bytes32Limbs}
    (canonical : ∀ i, (limbs.reduceToHashOut i).toNat < goldilocksOrder) (i : Fin 4) :
    (reduceToHashOut (.constant limbs) i).val = (limbs.reduceToHashOut i).toNat := by
  have below := canonical i
  rw [limbs.reduceToHashOut_toNat] at below ⊢
  have high : (ofNat (limbs (highLimb i)).toNat).val = (limbs (highLimb i)).toNat :=
    ofNat_val (by have := (limbs (highLimb i)).isLt; omega)
  have low : (ofNat (limbs (lowLimb i)).toNat).val = (limbs (lowLimb i)).toNat :=
    ofNat_val (by have := (limbs (lowLimb i)).isLt; omega)
  rw [reduceToHashOut, constant, constant,
    val_mul_const_add (by decide) (by rw [high, low]; exact below), high, low]

/-- The circuit accepts the wires of exactly those limbs that the native conversion accepts, and
    gives the same digest. -/
theorem Bytes32Target.toHashOut_iff {b : Bytes32Target} {out : Fin 4 → Target} :
    b.toHashOut out ↔ ∃ limbs hashOut, b = .constant limbs ∧
      limbs.tryIntoHashOut = .ok hashOut ∧ ∀ i, (out i).val = (hashOut i).toNat := by
  rw [toHashOut_apply]
  constructor
  · rintro ⟨canonical, rfl⟩
    have back : (nativeElements b.reduceToHashOut).toBytes32.reduceToHashOut =
        nativeElements b.reduceToHashOut := by
      funext i
      apply eq_of_toNat_eq
      rw [Bytes32Limbs.reduceToHashOut_toNat, HashOutElements.toBytes32_high,
        HashOutElements.toBytes32_low]
      omega
    refine ⟨_, _, canonical, Bytes32Limbs.tryIntoHashOut_ok_iff.mpr ⟨fun i => ?_, rfl⟩,
      fun i => ?_⟩
    · rw [back, nativeElements_toNat]
      exact (b.reduceToHashOut i).isLt
    · rw [back, nativeElements_toNat]
  · rintro ⟨limbs, hashOut, rfl, accepted, values⟩
    obtain ⟨canonical, rfl⟩ := Bytes32Limbs.tryIntoHashOut_ok_iff.mp accepted
    have elements := reduceToHashOut_constant canonical
    refine ⟨?_, funext fun i => Fin.ext ((values i).trans (elements i).symm)⟩
    have native : nativeElements (reduceToHashOut (.constant limbs)) = limbs.reduceToHashOut := by
      funext i
      apply eq_of_toNat_eq
      rw [nativeElements_toNat, elements]
    rw [native, limbs.toBytes32_reduceToHashOut]

end Intmax
