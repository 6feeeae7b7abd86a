import Intmax.Circuits.Booleans
import Intmax.EthereumTypes.Conversions

/-! # 256-bit integers in a circuit

The circuits of `U256Target`.  The gadgets of `plonky2_u32` are parameters, with what they are
documented to enforce on their wires as a hypothesis; each circuit goes through its limbs in the
order of the native loop.
-/

namespace Intmax.EthereumTypes

open Builder Digits Gadgets List Target

/-! ## Gadgets -/

/-- `add_many_u32`, `sub_u32` and `list_le_circuit`. -/
structure U32Gadgets where
  addManyU32 : List Target → Builder (Target × Target)
  subU32 : Target → Target → Target → Builder (Target × Target)
  listLeCircuit : List Target → List Target → Nat → Builder BoolTarget

/-- What `plonky2_u32` documents of them, on wires in range: their constraints hold for these values
    of the wires they return and for no others. -/
structure U32Gadgets.Documented (gadgets : U32Gadgets) : Prop where
  /-- The low word of a sum of three words, and what is above it. -/
  addManyU32 : ∀ a b c : Target, RangeCheck a 32 → RangeCheck b 32 → RangeCheck c 32 →
    gadgets.addManyU32 [a, b, c] = pure (ofNat ((a.val + b.val + c.val) % 2 ^ 32),
      ofNat ((a.val + b.val + c.val) / 2 ^ 32))
  /-- The low word of a difference of words and a borrow, and the next borrow. -/
  subU32 : ∀ x y borrow : Target, RangeCheck x 32 → RangeCheck y 32 → RangeCheck borrow 1 →
    gadgets.subU32 x y borrow = pure (ofNat (subDigit (2 ^ 32) borrow.val x.val y.val),
      ofNat (subBorrow borrow.val x.val y.val))
  /-- Whether the first of two lists of words, lowest first, is at most the second. -/
  listLeCircuit : ∀ as bs : List Target, as.length = bs.length →
    (∀ a ∈ as, RangeCheck a 32) → (∀ b ∈ bs, RangeCheck b 32) →
    gadgets.listLeCircuit as bs 32 = pure (.ofBool (decide
      (Nat.ofDigits (2 ^ 32) (as.map Fin.val) ≤ Nat.ofDigits (2 ^ 32) (bs.map Fin.val))))

/-! ## Circuits -/

structure U256Target where
  limbs : List Target
  length_limbs : limbs.length = u256Len

namespace U256Target

/-- `to_vec().try_into().unwrap()`. -/
def ofLimbs (limbs : List Target) : Builder U256Target := fun t => t.limbs = limbs

/-- The limbs of both operands, the last ones first. -/
def limbPairs (a b : U256Target) : List (Target × Target) := a.limbs.reverse.zip b.limbs.reverse

section
variable (gadgets : U32Gadgets)

def addLoop : Target → List (Target × Target) → Builder (List Target × Target)
  | carry, [] => pure ([], carry)
  | carry, (a, b) :: rest => do
    let limb ← gadgets.addManyU32 [carry, a, b]
    let above ← addLoop limb.2 rest
    pure (limb.1 :: above.1, above.2)

def subLoop : Target → List (Target × Target) → Builder (List Target × Target)
  | borrow, [] => pure ([], borrow)
  | borrow, (a, b) :: rest => do
    let limb ← gadgets.subU32 a b borrow
    let above ← subLoop limb.2 rest
    pure (limb.1 :: above.1, above.2)

def add (a b : U256Target) : Builder U256Target := do
  let sum ← addLoop gadgets 0 (limbPairs a b)
  require (sum.2 = 0)
  ofLimbs sum.1.reverse

def sub (a b : U256Target) : Builder U256Target := do
  let difference ← subLoop gadgets 0 (limbPairs a b)
  require (difference.2 = 0)
  ofLimbs difference.1.reverse

def isLe (a b : U256Target) : Builder BoolTarget :=
  gadgets.listLeCircuit a.limbs.reverse b.limbs.reverse 32

end

/-- `U32LimbTargetTrait::is_equal`. -/
def isEqual (a b : U256Target) : BoolTarget :=
  (a.limbs.zip b.limbs).foldl (fun result pair => result.and (.isEqual pair.1 pair.2))
    (.ofBool true)

def isLt (gadgets : U32Gadgets) (a b : U256Target) : Builder BoolTarget := do
  let isLe ← isLe gadgets a b
  pure (isLe.and (isEqual a b).not)

/-- The limbs have been range-checked. -/
def RangeChecked (a : U256Target) : Prop := ∀ limb ∈ a.limbs, RangeCheck limb 32

/-- The integer that the limbs stand for. -/
def value (a : U256Target) : Nat := Nat.ofDigits (2 ^ 32) (a.limbs.reverse.map Fin.val)

/-! ## What the circuits compute -/

/-- Pairs of wires as pairs of digits. -/
def valPairs (pairs : List (Target × Target)) : List (Nat × Nat) :=
  pairs.map fun pair => (pair.1.val, pair.2.val)

theorem below_valPairs_cons {a b : Target} {rest : List (Target × Target)} :
    Below (2 ^ 32) (valPairs ((a, b) :: rest)) ↔
      (a.val < 2 ^ 32 ∧ b.val < 2 ^ 32) ∧ Below (2 ^ 32) (valPairs rest) :=
  below_cons

theorem carry_val {n : Nat} (small : n ≤ 1) : (ofNat n).val = n :=
  ofNat_val (lt_of_le_of_lt small (by decide))

section
variable {gadgets : U32Gadgets} (u32 : gadgets.Documented) {pairs : List (Target × Target)}
include u32

theorem addLoop_eq {carry : Target} (small : carry.val ≤ 1)
    (below : Below (2 ^ 32) (valPairs pairs)) : addLoop gadgets carry pairs =
      pure ((addUp (2 ^ 32) carry.val (valPairs pairs)).1.map ofNat,
        ofNat (addUp (2 ^ 32) carry.val (valPairs pairs)).2) := by
  induction pairs generalizing carry with
  | nil => simp [addLoop, addUp, valPairs, ofNat]
  | cons pair rest ih =>
    obtain ⟨a, b⟩ := pair
    obtain ⟨digit, rest_below⟩ := below_valPairs_cons.mp below
    have next := carry_le digit small
    have wire := carry_val next
    have word : RangeCheck carry 32 := lt_of_le_of_lt small (by decide)
    rw [addLoop, u32.addManyU32 carry a b word digit.1 digit.2, pure_bind,
      ih (wire.symm ▸ next) rest_below, wire, pure_bind]
    rfl

theorem subLoop_eq {borrow : Target} (small : borrow.val ≤ 1)
    (below : Below (2 ^ 32) (valPairs pairs)) : subLoop gadgets borrow pairs =
      pure ((subUp (2 ^ 32) borrow.val (valPairs pairs)).1.map ofNat,
        ofNat (subUp (2 ^ 32) borrow.val (valPairs pairs)).2) := by
  induction pairs generalizing borrow with
  | nil => simp [subLoop, subUp, valPairs, ofNat]
  | cons pair rest ih =>
    obtain ⟨a, b⟩ := pair
    obtain ⟨digit, rest_below⟩ := below_valPairs_cons.mp below
    have next := subBorrow_le borrow.val a.val b.val
    have wire := carry_val next
    rw [subLoop, u32.subU32 a b borrow digit.1 digit.2 (Nat.lt_succ_of_le small), pure_bind,
      ih (wire.symm ▸ next) rest_below, wire, pure_bind]
    rfl

end

/-! ## Exactness -/

section
variable {a b : U256Target}

theorem reverse_lengths (a b : U256Target) :
    a.limbs.reverse.length = b.limbs.reverse.length := by
  simp [a.length_limbs, b.length_limbs]

theorem first_limbPairs (a b : U256Target) :
    first (2 ^ 32) (valPairs (limbPairs a b)) = a.value :=
  first_zip (reverse_lengths a b)

theorem second_limbPairs (a b : U256Target) :
    second (2 ^ 32) (valPairs (limbPairs a b)) = b.value :=
  second_zip (reverse_lengths a b)

theorem below_limbPairs (left : a.RangeChecked) (right : b.RangeChecked) :
    Below (2 ^ 32) (valPairs (limbPairs a b)) :=
  below_zip (fun limb member => left limb (mem_reverse.mp member))
    fun limb member => right limb (mem_reverse.mp member)

theorem valPairs_length (a b : U256Target) : (valPairs (limbPairs a b)).length = u256Len := by
  simp [valPairs, limbPairs, a.length_limbs, b.length_limbs]

theorem RangeChecked.map_val_lt (checked : a.RangeChecked) :
    ∀ d ∈ a.limbs.reverse.map Fin.val, d < 2 ^ 32 := by
  intro d member
  obtain ⟨limb, inside, rfl⟩ := mem_map.mp member
  exact checked limb (mem_reverse.mp inside)

theorem RangeChecked.value_lt (checked : a.RangeChecked) : a.value < 2 ^ 256 := by
  have bound := Nat.ofDigits_lt_base_pow_length (by decide) checked.map_val_lt
  rwa [length_map, length_reverse, a.length_limbs, u256Len, ← pow_mul] at bound

variable {r : U256Target}

/-- Wires that were set to digits are the limbs of their number, and of no other. -/
theorem limbs_eq_iff {digits : List Nat} (length : digits.length = u256Len)
    (below : ∀ d ∈ digits, d < 2 ^ 32) : r.limbs = (digits.map ofNat).reverse ↔
      r.RangeChecked ∧ r.value = Nat.ofDigits (2 ^ 32) digits := by
  have wires : ∀ d ∈ digits, (ofNat d).val = d := fun d member =>
    ofNat_val (lt_trans (below d member) (by decide))
  have back : (digits.map ofNat).map Fin.val = digits := by
    rw [map_map]
    conv_rhs => rw [← map_id digits]
    exact map_congr_left wires
  constructor
  · intro set
    refine ⟨?_, ?_⟩
    · intro limb member
      rw [set, mem_reverse] at member
      obtain ⟨d, inside, rfl⟩ := mem_map.mp member
      rw [RangeCheck, wires d inside]
      exact below d inside
    · rw [value, set, reverse_reverse, back]
  · rintro ⟨checked, same⟩
    have equal : r.limbs.reverse.map Fin.val = digits := by
      refine Nat.ofDigits_inj_of_len_eq (by decide) ?_ checked.map_val_lt below same
      simp [r.length_limbs, length]
    rw [← equal, map_map, ← reverse_eq_iff]
    conv_lhs => rw [← map_id r.limbs.reverse]
    exact map_congr_left fun limb _ => Fin.ext (Nat.mod_eq_of_lt limb.isLt).symm

theorem wire_eq_zero_iff {n : Nat} (small : n ≤ 1) : ofNat n = 0 ↔ n = 0 := by
  rw [Fin.ext_iff, carry_val small]
  rfl

theorem base_pow : (2 ^ 32) ^ u256Len = 2 ^ 256 := by
  rw [u256Len, ← pow_mul]

theorem zero_val : (0 : Target).val = 0 := rfl

section
variable {gadgets : U32Gadgets} (u32 : gadgets.Documented)
include u32

theorem add_apply (left : a.RangeChecked) (right : b.RangeChecked) :
    a.add gadgets b r ↔ (addUp (2 ^ 32) 0 (valPairs (limbPairs a b))).2 = 0 ∧
      r.limbs = ((addUp (2 ^ 32) 0 (valPairs (limbPairs a b))).1.map ofNat).reverse := by
  have below := below_limbPairs left right
  have small := addUp_carry_le below (Nat.zero_le 1)
  rw [add, addLoop_eq u32 (zero_val.symm ▸ Nat.zero_le 1) below, pure_bind, zero_val]
  simp only [bind_apply, require_apply, ofLimbs, exists_const, wire_eq_zero_iff small]

theorem sub_apply (left : a.RangeChecked) (right : b.RangeChecked) :
    a.sub gadgets b r ↔ (subUp (2 ^ 32) 0 (valPairs (limbPairs a b))).2 = 0 ∧
      r.limbs = ((subUp (2 ^ 32) 0 (valPairs (limbPairs a b))).1.map ofNat).reverse := by
  have below := below_limbPairs left right
  have small := subUp_borrow_le (2 ^ 32) (valPairs (limbPairs a b)) (Nat.zero_le 1)
  rw [sub, subLoop_eq u32 (zero_val.symm ▸ Nat.zero_le 1) below, pure_bind, zero_val]
  simp only [bind_apply, require_apply, ofLimbs, exists_const, wire_eq_zero_iff small]

/-- The constraints of `add` hold for the integer sum and for nothing else. -/
theorem add_iff (left : a.RangeChecked) (right : b.RangeChecked) :
    a.add gadgets b r ↔ r.RangeChecked ∧ r.value = a.value + b.value := by
  have sum := addUp_value (2 ^ 32) 0 (valPairs (limbPairs a b))
  have none := addUp_carry_eq_zero_iff (by decide : 1 < 2 ^ 32) 0 (valPairs (limbPairs a b))
  rw [valPairs_length, base_pow, first_limbPairs, second_limbPairs, zero_add] at sum none
  rw [add_apply u32 left right, limbs_eq_iff (addUp_length.trans (valPairs_length a b))
    (addUp_below (by decide) 0 (valPairs (limbPairs a b))), none]
  constructor
  · rintro ⟨fits, checked, same⟩
    rw [none.mpr fits, mul_zero, add_zero] at sum
    exact ⟨checked, same.trans sum⟩
  · rintro ⟨checked, same⟩
    have fits : a.value + b.value < 2 ^ 256 := same ▸ checked.value_lt
    rw [none.mpr fits, mul_zero, add_zero] at sum
    exact ⟨fits, checked, same.trans sum.symm⟩

/-- The constraints of `sub` hold for the integer difference and for nothing else. -/
theorem sub_iff (left : a.RangeChecked) (right : b.RangeChecked) :
    a.sub gadgets b r ↔ r.RangeChecked ∧ a.value = r.value + b.value := by
  have below := below_limbPairs left right
  have difference := subUp_value below (Nat.zero_le 1)
  have none := subUp_borrow_eq_zero_iff (by decide) below (Nat.zero_le 1)
  rw [valPairs_length, base_pow] at difference
  rw [first_limbPairs, second_limbPairs, Nat.add_zero] at difference none
  rw [sub_apply u32 left right, limbs_eq_iff (subUp_length.trans (valPairs_length a b))
    (subUp_below below (Nat.zero_le 1)), none]
  constructor
  · rintro ⟨fits, checked, same⟩
    rw [none.mpr fits, Nat.mul_zero, Nat.add_zero] at difference
    exact ⟨checked, same ▸ difference⟩
  · rintro ⟨checked, same⟩
    have fits : b.value ≤ a.value := same ▸ Nat.le_add_left _ _
    rw [none.mpr fits, Nat.mul_zero, Nat.add_zero] at difference
    exact ⟨fits, checked, by omega⟩

theorem isLe_eq (left : a.RangeChecked) (right : b.RangeChecked) :
    a.isLe gadgets b = pure (.ofBool (decide (a.value ≤ b.value))) :=
  u32.listLeCircuit _ _ (reverse_lengths a b)
    (fun limb member => left limb (mem_reverse.mp member))
    fun limb member => right limb (mem_reverse.mp member)

end

theorem isEqual_foldl (acc : Bool) (pairs : List (Target × Target)) :
    pairs.foldl (fun result pair => result.and (.isEqual pair.1 pair.2)) (BoolTarget.ofBool acc) =
      BoolTarget.ofBool (acc && decide (∀ pair ∈ pairs, pair.1 = pair.2)) := by
  induction pairs generalizing acc with
  | nil => simp
  | cons pair rest ih =>
    rw [foldl_cons, BoolTarget.isEqual, BoolTarget.and_ofBool, ih]
    congr 1
    simp [Bool.and_assoc]

/-- Limbs in range are equal where their integers are. -/
theorem isEqual_eq (left : a.RangeChecked) (right : b.RangeChecked) :
    a.isEqual b = .ofBool (decide (a.value = b.value)) := by
  have lengths : a.limbs.length = b.limbs.length := a.length_limbs.trans b.length_limbs.symm
  rw [isEqual, isEqual_foldl, Bool.true_and]
  refine congrArg BoolTarget.ofBool (decide_eq_decide.mpr ?_)
  constructor
  · intro same
    have limbs : a.limbs = b.limbs := by
      refine ext_getElem lengths fun i first second => ?_
      refine same (a.limbs[i], b.limbs[i]) ?_
      rw [mem_iff_getElem]
      exact ⟨i, by simp [first, second], by simp⟩
    rw [value, limbs]
    rfl
  · intro same
    have digits : a.limbs.reverse.map Fin.val = b.limbs.reverse.map Fin.val := by
      refine Nat.ofDigits_inj_of_len_eq (by decide) ?_ left.map_val_lt right.map_val_lt same
      simp [lengths]
    have limbs : a.limbs = b.limbs := by
      refine reverse_injective (map_injective_iff.mpr ?_ digits)
      exact fun _ _ equal => Fin.ext equal
    intro pair member
    rw [← limbs, mem_iff_getElem] at member
    obtain ⟨i, inside, rfl⟩ := member
    simp

theorem isLt_eq {gadgets : U32Gadgets} (u32 : gadgets.Documented) (left : a.RangeChecked)
    (right : b.RangeChecked) : a.isLt gadgets b = pure (.ofBool (decide (a.value < b.value))) := by
  rw [isLt, isLe_eq u32 left right, pure_bind, isEqual_eq left right, BoolTarget.not_ofBool,
    BoolTarget.and_ofBool]
  congr 2
  rw [Bool.eq_iff_iff]
  simp
  omega

/-! ## Constants -/

theorem length_constant (a : U256) :
    (a.limbs.map fun limb => ofNat limb.toNat).length = u256Len := by
  rw [length_map, a.length_limbs]

/-- `U32LimbTargetTrait::constant`. -/
def constant (a : U256) : U256Target :=
  ⟨a.limbs.map fun limb => Target.ofNat limb.toNat, length_constant a⟩

theorem constant_spec (a : U256) : (constant a).RangeChecked ∧ (constant a).value = a.value := by
  have digits : (constant a).limbs =
      ((a.limbs.reverse.map BitVec.toNat).map ofNat).reverse := by
    rw [map_map, ← map_reverse, reverse_reverse]
    rfl
  refine (limbs_eq_iff ?_ (U256.map_toNat_lt _)).mp digits
  rw [length_map, length_reverse, a.length_limbs]

/-- Every integer of 256 bits has limbs in range. -/
theorem exists_value {n : Nat} (fits : n < 2 ^ 256) :
    ∃ r : U256Target, r.RangeChecked ∧ r.value = n := by
  cases converted : U256.ofBigUint n with
  | error e => exact absurd (U256.ofBigUint_error_iff.mp ⟨e, converted⟩) (not_le_of_gt fits)
  | ok a =>
    obtain ⟨checked, same⟩ := constant_spec a
    exact ⟨constant a, checked, same.trans (U256.ofBigUint_ok_iff.mp converted)⟩

end

end U256Target

/-- Native and circuit arithmetic on limbs is that of the integers they stand for.  Text that is
    read is written back as it was where it is the text of a number without extra signs. -/
theorem u256_arithmetic_exact {gadgets : U32Gadgets} {text : U256.DecimalText}
    (u32 : gadgets.Documented) (decimal : text.Documented) :
    (∀ a b r : U256, a.add b = .ok r ↔ r.value = a.value + b.value) ∧
    (∀ a b : U256, a.add b = .error .additionOverflow ↔ 2 ^ 256 ≤ a.value + b.value) ∧
    (∀ a b r : U256, a.sub b = .ok r ↔ a.value = r.value + b.value) ∧
    (∀ a b : U256, a.sub b = .error .subUnderflow ↔ a.value < b.value) ∧
    (∀ a b : U256, a.cmp b = compare a.value b.value) ∧
    (∀ a : U256, a.toBigUint = a.value ∧ U256.ofBigUint a.toBigUint = .ok a) ∧
    (∀ n a, U256.ofBigUint n = .ok a → a.toBigUint = n) ∧
    (∀ n, (∃ e, U256.ofBigUint n = .error e) ↔ 2 ^ 256 ≤ n) ∧
    (∀ a : U256, U256.deserialize text (a.serialize text) = .ok a) ∧
    (∀ s a, U256.deserialize text s = .ok a →
      (a.serialize text = s ↔ Decimal.Canonical s.toList)) ∧
    ∀ a b : U256Target, a.RangeChecked → b.RangeChecked →
      ((∃ r, a.add gadgets b r) ↔ a.value + b.value < 2 ^ 256) ∧
      (∀ r, a.add gadgets b r → r.RangeChecked ∧ r.value = a.value + b.value) ∧
      ((∃ r, a.sub gadgets b r) ↔ b.value ≤ a.value) ∧
      (∀ r, a.sub gadgets b r → r.RangeChecked ∧ r.value = a.value - b.value) ∧
      (∀ wire, a.isLe gadgets b wire ↔ wire = .ofBool (decide (a.value ≤ b.value))) ∧
      ∀ wire, a.isLt gadgets b wire ↔ wire = .ofBool (decide (a.value < b.value)) := by
  refine ⟨fun _ _ _ => U256.add_ok_iff, fun _ _ => U256.add_error_iff,
    fun _ _ _ => U256.sub_ok_iff, fun _ _ => U256.sub_error_iff, U256.cmp_eq, ?_, ?_,
    fun _ => U256.ofBigUint_error_iff, U256.deserialize_serialize decimal,
    fun _ _ => U256.serialize_eq_iff decimal, ?_⟩
  · intro a
    exact ⟨a.toBigUint_eq, U256.ofBigUint_ok_iff.mpr a.toBigUint_eq.symm⟩
  · intro n a converted
    rw [a.toBigUint_eq, U256.ofBigUint_ok_iff.mp converted]
  · intro a b left right
    have sum (r : U256Target) := U256Target.add_iff u32 left right (r := r)
    have difference (r : U256Target) := U256Target.sub_iff u32 left right (r := r)
    refine ⟨⟨?_, ?_⟩, fun r => (sum r).mp, ⟨?_, ?_⟩, ?_, ?_, ?_⟩
    · rintro ⟨r, added⟩
      obtain ⟨checked, same⟩ := (sum r).mp added
      exact same ▸ checked.value_lt
    · intro fits
      obtain ⟨r, checked, same⟩ := U256Target.exists_value fits
      exact ⟨r, (sum r).mpr ⟨checked, same⟩⟩
    · rintro ⟨r, subtracted⟩
      obtain ⟨-, same⟩ := (difference r).mp subtracted
      exact same ▸ Nat.le_add_left _ _
    · intro fits
      obtain ⟨r, checked, same⟩ :=
        U256Target.exists_value (Nat.lt_of_le_of_lt (Nat.sub_le a.value b.value) left.value_lt)
      exact ⟨r, (difference r).mpr ⟨checked, by omega⟩⟩
    · intro r subtracted
      obtain ⟨checked, same⟩ := (difference r).mp subtracted
      exact ⟨checked, by omega⟩
    · intro wire
      rw [U256Target.isLe_eq u32 left right, pure_apply]
    · intro wire
      rw [U256Target.isLt_eq u32 left right, pure_apply]

/-- Gadgets whose wires are what is documented, on all inputs. -/
def sampleGadgets : U32Gadgets where
  addManyU32 addends := pure (ofNat ((addends.map Fin.val).sum % 2 ^ 32),
    ofNat ((addends.map Fin.val).sum / 2 ^ 32))
  subU32 x y borrow := pure (ofNat (subDigit (2 ^ 32) borrow.val x.val y.val),
    ofNat (subBorrow borrow.val x.val y.val))
  listLeCircuit as bs numBits := pure (.ofBool (decide
    (Nat.ofDigits (2 ^ numBits) (as.map Fin.val) ≤ Nat.ofDigits (2 ^ numBits) (bs.map Fin.val))))

theorem sampleGadgets_documented : sampleGadgets.Documented where
  addManyU32 a b c _ _ _ := by simp [sampleGadgets, add_assoc]
  subU32 _ _ _ _ _ _ := rfl
  listLeCircuit _ _ _ _ _ := rfl

/-- Text functions that also take a sign and underscores. -/
def sampleText : U256.DecimalText where
  toStrRadix n := String.ofList (Decimal.write n)
  fromStrRadix s := Decimal.read s.toList

theorem sampleText_documented : sampleText.Documented where
  written _ := rfl
  digits_read digits nonempty below := by
    have number := Decimal.read_map below nonempty
    rwa [← String.toList_ofList (l := digits.map Nat.digitChar)] at number

/-- The largest integer: a one added to it carries through all limbs. -/
def u256Max : U256 := ⟨List.replicate u256Len (BitVec.allOnes 32), List.length_replicate⟩

def u256One : U256 := ⟨[0, 0, 0, 0, 0, 0, 0, 1], rfl⟩

theorem u256Max_carries_out :
    u256Max.add u256One = .error .additionOverflow ∧
    ¬ ∃ r, (U256Target.constant u256Max).add sampleGadgets (.constant u256One) r := by
  have values : u256Max.value + u256One.value = 2 ^ 256 := by decide +kernel
  obtain ⟨-, overflow, -, -, -, -, -, -, -, -, circuit⟩ :=
    u256_arithmetic_exact sampleGadgets_documented sampleText_documented
  obtain ⟨left, left_value⟩ := U256Target.constant_spec u256Max
  obtain ⟨right, right_value⟩ := U256Target.constant_spec u256One
  refine ⟨(overflow _ _).mpr (Nat.le_of_eq values.symm), ?_⟩
  rw [(circuit _ _ left right).1, left_value, right_value, values]
  exact Nat.lt_irrefl _

/-- Leading zeros are read and not written back. -/
theorem leading_zeros_dropped : sampleText.Documented ∧
    ∃ (s : String) (a : U256),
      U256.deserialize sampleText s = .ok a ∧ a.serialize sampleText ≠ s := by
  have seven : U256.value ⟨[0, 0, 0, 0, 0, 0, 0, 7], rfl⟩ = 7 := by decide +kernel
  have found : U256.deserialize sampleText "007" = .ok ⟨[0, 0, 0, 0, 0, 0, 0, 7], rfl⟩ := by
    rw [U256.deserialize_ok_iff, seven]
    exact sampleText_documented.digits_read [0, 0, 7] (by decide) (by decide)
  refine ⟨sampleText_documented, "007", _, found, ?_⟩
  rw [Ne, U256.serialize_eq_iff sampleText_documented found]
  decide

end Intmax.EthereumTypes
