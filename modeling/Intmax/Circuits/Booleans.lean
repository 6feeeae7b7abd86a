import Intmax.Circuits.Splitting
import Intmax.Lib.Digits
import Mathlib.Data.ZMod.Defs

/-! # Booleans and bits in a circuit

The boolean wires of plonky2, the arithmetic that its gates do with them, and the split of an
element into bits.  `BoolTarget::new_unsafe` checks nothing, so a boolean wire is an element like
any other; that it is zero or one is what the results about it say.
-/

namespace Intmax

open Builder

structure BoolTarget where
  target : Target

namespace BoolTarget

/-- The wire of a truth value. -/
def ofBool (b : Bool) : BoolTarget := ⟨if b then 1 else 0⟩

def not (b : BoolTarget) : BoolTarget := ⟨1 - b.target⟩

def and (a b : BoolTarget) : BoolTarget := ⟨a.target * b.target⟩

def or (a b : BoolTarget) : BoolTarget := ⟨a.target + b.target - a.target * b.target⟩

/-- `select`: the first element where the wire is one. -/
def select (b : BoolTarget) (x y : Target) : Target :=
  b.target * x - (b.target * y - y)

/-- `is_equal`. -/
def isEqual (x y : Target) : BoolTarget := ofBool (decide (x = y))

@[simp] theorem target_ofBool (b : Bool) : (ofBool b).target = if b then 1 else 0 := rfl

@[simp] theorem not_ofBool (b : Bool) : (ofBool b).not = ofBool !b := by
  cases b with
  | false => simp [not, ofBool]
  | true => simp [not, ofBool]

@[simp] theorem and_ofBool (a b : Bool) : (ofBool a).and (ofBool b) = ofBool (a && b) := by
  cases a with
  | false => simp [and, ofBool]
  | true => simp [and, ofBool]

@[simp] theorem or_ofBool (a b : Bool) : (ofBool a).or (ofBool b) = ofBool (a || b) := by
  cases a with
  | false =>
    simp [or, ofBool]
  | true => simp [or, ofBool]

@[simp] theorem select_ofBool (b : Bool) (x y : Target) :
    (ofBool b).select x y = if b then x else y := by
  cases b with
  | false =>
    simp [select, ofBool]
  | true => simp [select, ofBool]

theorem one_ne_zero : (1 : Target) ≠ 0 := by
  intro same
  exact absurd (congrArg Fin.val same) (by decide)

theorem ofBool_injective {a b : Bool} (same : ofBool a = ofBool b) : a = b := by
  have wires : (if a then 1 else 0 : Target) = if b then 1 else 0 := congrArg BoolTarget.target same
  cases a with
  | false =>
    cases b with
    | false => rfl
    | true => exact absurd wires.symm one_ne_zero
  | true =>
    cases b with
    | false => exact absurd wires one_ne_zero
    | true => rfl

/-- `assert_one`. -/
def assertOne (b : BoolTarget) : Builder Unit := require (b.target = 1)

@[simp] theorem assertOne_ofBool {b : Bool} {u : Unit} : (ofBool b).assertOne u ↔ b = true := by
  cases b with
  | false => simpa [assertOne] using one_ne_zero.symm
  | true => simp [assertOne]

end BoolTarget

/-! ## Bits -/

/-- The element that bits add up to, lowest first. -/
def fromBits : List Bool → Target
  | [] => 0
  | bit :: rest => Target.ofNat 2 * fromBits rest + (BoolTarget.ofBool bit).target

/-- The number that bits add up to. -/
def bitValue (bits : List Bool) : Nat := Nat.ofDigits 2 (bits.map Bool.toNat)

/-- `split_le`: bits that add up to the element. -/
def splitLe (x : Target) (numBits : Nat) : Builder (List BoolTarget) := do
  let bits : List Bool ← free
  require (bits.length = numBits)
  require (x = fromBits bits)
  pure (bits.map .ofBool)

@[simp] theorem bitValue_cons (bit : Bool) (bits : List Bool) :
    bitValue (bit :: bits) = bit.toNat + 2 * bitValue bits := Nat.ofDigits_cons

theorem map_toNat_lt_two (bits : List Bool) : ∀ d ∈ bits.map Bool.toNat, d < 2 := by
  intro d member
  obtain ⟨bit, -, rfl⟩ := List.mem_map.mp member
  exact bit.toNat_lt

theorem bitValue_lt (bits : List Bool) : bitValue bits < 2 ^ bits.length := by
  have bound := Nat.ofDigits_lt_base_pow_length (by decide) (map_toNat_lt_two bits)
  rwa [List.length_map] at bound

theorem target_val (bit : Bool) : (BoolTarget.ofBool bit).target.val = bit.toNat := by
  cases bit with
  | false => rfl
  | true => rfl

/-- While the bits cannot reach the modulus, the element is their number. -/
theorem fromBits_val {bits : List Bool} (room : 2 ^ bits.length ≤ goldilocksOrder) :
    (fromBits bits).val = bitValue bits := by
  induction bits with
  | nil => rfl
  | cons bit rest ih =>
    rw [List.length_cons, pow_succ] at room
    have below := bitValue_lt rest
    have bound := bit.toNat_lt
    have value := ih (by omega)
    rw [fromBits, Target.val_mul_const_add (by decide) (by rw [value, target_val]; omega), value,
      target_val, bitValue_cons]
    omega

theorem bitValue_injective {bits bits' : List Bool} (lengths : bits.length = bits'.length)
    (same : bitValue bits = bitValue bits') : bits = bits' := by
  have digits : bits.map Bool.toNat = bits'.map Bool.toNat := Nat.ofDigits_inj_of_len_eq (by decide)
    (by simp [lengths]) (map_toNat_lt_two bits) (map_toNat_lt_two bits') same
  refine List.map_injective_iff.mpr (fun a b equal => ?_) digits
  cases a with
  | false => cases b with
    | false => rfl
    | true => cases equal
  | true => cases b with
    | false => cases equal
    | true => rfl

/-- The bits of a number. -/
def bitsOf : Nat → Nat → List Bool
  | 0, _ => []
  | numBits + 1, n => decide (n % 2 = 1) :: bitsOf numBits (n / 2)

@[simp] theorem bitsOf_length (numBits n : Nat) : (bitsOf numBits n).length = numBits := by
  induction numBits generalizing n with
  | zero => rfl
  | succ numBits ih => simp [bitsOf, ih]

/-- A number has as many bits as are asked for. -/
theorem bitValue_bitsOf_mod (numBits n : Nat) : bitValue (bitsOf numBits n) = n % 2 ^ numBits := by
  induction numBits generalizing n with
  | zero => exact (Nat.mod_one n).symm
  | succ numBits ih =>
    rw [bitsOf, bitValue_cons, ih, pow_succ', Nat.mod_mul]
    rcases Nat.mod_two_eq_zero_or_one n with even | odd
    · simp [even]
    · simp [odd]

theorem bitValue_bitsOf {numBits n : Nat} (fits : n < 2 ^ numBits) :
    bitValue (bitsOf numBits n) = n := by
  rw [bitValue_bitsOf_mod, Nat.mod_eq_of_lt fits]

theorem splitLe_iff {x : Target} {numBits : Nat} {wires : List BoolTarget}
    (room : 2 ^ numBits ≤ goldilocksOrder) : splitLe x numBits wires ↔
      x.val < 2 ^ numBits ∧ wires = (bitsOf numBits x.val).map .ofBool := by
  simp only [splitLe, bind_apply, free_apply, require_apply, pure_apply, true_and, exists_const]
  constructor
  · rintro ⟨bits, rfl, rfl, rfl⟩
    have value := fromBits_val room
    have fits : (fromBits bits).val < 2 ^ bits.length := value ▸ bitValue_lt bits
    refine ⟨fits, congrArg _ (bitValue_injective (bitsOf_length _ _).symm ?_)⟩
    rw [bitValue_bitsOf fits, value]
  · rintro ⟨fits, rfl⟩
    refine ⟨bitsOf numBits x.val, bitsOf_length _ _, Fin.ext ?_, rfl⟩
    rw [fromBits_val (by rwa [bitsOf_length]), bitValue_bitsOf fits]

/-- An element in range has one split. -/
theorem splitLe_eq {x : Target} {numBits : Nat} (room : 2 ^ numBits ≤ goldilocksOrder)
    (fits : x.val < 2 ^ numBits) : splitLe x numBits =
      pure ((bitsOf numBits x.val).map .ofBool) := by
  refine ext fun wires => ?_
  rw [splitLe_iff room, pure_apply]
  exact and_iff_right fits

end Intmax
