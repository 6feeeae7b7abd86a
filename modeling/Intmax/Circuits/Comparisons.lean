import Intmax.Circuits.Booleans
import Intmax.Circuits.HashOuts

/-! # Comparisons in a circuit

The comparisons of block numbers (`common/u63.rs`, `balance/common/receive_window.rs`) go through
the bits of both operands from the lowest on; that of member positions
(`channel/withdrawal_claim_circuit.rs`) reads the borrow off one shifted difference.  A split into
63 bits has one reading in the field, so none of them can wrap.
-/

namespace Intmax

open Builder Digits BoolTarget List Target

/-- The loop of the comparisons: a differing higher bit overrides what the lower bits gave. -/
def greaterLoop : BoolTarget → List (BoolTarget × BoolTarget) → BoolTarget
  | greater, [] => greater
  | greater, (a, b) :: rest =>
    let equal := isEqual a.target b.target
    greaterLoop ⟨equal.select greater.target a.target⟩ rest

structure U63Target where
  value : Target

/-- `U63_BITS`. -/
def u63Bits : Nat := 63

namespace U63Target

def compare (lhs rhs : Target) (strict : Bool) : Builder BoolTarget := do
  let a ← splitLe lhs u63Bits
  let b ← splitLe rhs u63Bits
  pure (greaterLoop (.ofBool !strict) (a.zip b))

def enforceGe (self lower : U63Target) : Builder Unit := do
  let ge ← compare self.value lower.value false
  ge.assertOne

def enforceGt (self lower : U63Target) : Builder Unit := do
  let gt ← compare self.value lower.value true
  gt.assertOne

/-- The operands are masked before they are split. -/
def conditionalCompare (self lower : U63Target) (condition : BoolTarget) (strict : Bool) :
    Builder Unit := do
  let lhs := condition.select self.value 0
  let rhs := condition.select lower.value 0
  let comparison ← compare lhs rhs strict
  let accepted := condition.not.or comparison
  accepted.assertOne

def conditionalGe (self lower : U63Target) (condition : BoolTarget) : Builder Unit :=
  conditionalCompare self lower condition false

def conditionalGt (self lower : U63Target) (condition : BoolTarget) : Builder Unit :=
  conditionalCompare self lower condition true

end U63Target

/-- `has_unprocessed_send`. -/
def hasUnprocessedSend (last previous : U63Target) : Builder BoolTarget := do
  let a ← splitLe last.value 63
  let b ← splitLe previous.value 63
  pure (greaterLoop (.ofBool false) (a.zip b))

/-- `less_than_u32`: bit 32 of `b - a + 2 ^ 32` is set unless the difference borrowed. -/
def lessThanU32 (a b : Target) : Builder BoolTarget := do
  let diff := b - a
  let shifted := diff + Target.ofNat (2 ^ 32)
  let bits ← splitLe shifted 33
  let noBorrow := bits.getD 32 (.ofBool false)
  let low := (bits.take 32).map target
  let isZero := isEqual low.sum 0
  pure (noBorrow.and isZero.not)

/-! ## The bitwise loop -/

theorem ofBool_eq_iff (a b : Bool) :
    decide ((ofBool a).target = (ofBool b).target) = decide (a = b) := by
  rw [decide_eq_decide]
  constructor
  · intro same
    exact ofBool_injective (congrArg mk same)
  · rintro rfl
    rfl

/-- The loop compares the second numbers with the first ones. -/
theorem greaterLoop_eq (greater : Bool) (pairs : List (Bool × Bool)) :
    greaterLoop (.ofBool greater) (pairs.map (Prod.map .ofBool .ofBool)) =
      .ofBool (lessUp greater (pairs.map fun pair => (pair.2.toNat, pair.1.toNat))) := by
  induction pairs generalizing greater with
  | nil => rfl
  | cons pair rest ih =>
    obtain ⟨a, b⟩ := pair
    have wire : (⟨(isEqual (ofBool a).target (ofBool b).target).select
          (ofBool greater).target (ofBool a).target⟩ : BoolTarget) =
        .ofBool (if b.toNat = a.toNat then greater else decide (b.toNat < a.toNat)) := by
      rw [isEqual, ofBool_eq_iff, select_ofBool]
      cases a with
      | false => cases b with
        | false => rfl
        | true => rfl
      | true => cases b with
        | false => rfl
        | true => rfl
    rw [map_cons, Prod.map, greaterLoop, map_cons, lessUp, wire, ih]

variable {numBits : Nat}

/-- Two splits of as many bits, compared. -/
theorem greaterLoop_bitsOf (greater : Bool) {m n : Nat} (left : m < 2 ^ numBits)
    (right : n < 2 ^ numBits) :
    greaterLoop (.ofBool greater)
      (((bitsOf numBits m).map ofBool).zip ((bitsOf numBits n).map .ofBool)) =
      .ofBool (decide (n < m ∨ n = m ∧ greater = true)) := by
  have lengths : (bitsOf numBits n).length = (bitsOf numBits m).length := by simp
  have swapped : ((bitsOf numBits m).zip (bitsOf numBits n)).map
      (fun pair => (pair.2.toNat, pair.1.toNat)) =
      ((bitsOf numBits n).zip (bitsOf numBits m)).map fun pair => (pair.1.toNat, pair.2.toNat) := by
    rw [← zip_swap, map_map]
    rfl
  have below : Below 2 (((bitsOf numBits n).zip (bitsOf numBits m)).map fun pair => (pair.1.toNat,
      pair.2.toNat)) := below_zip (fun bit _ => bit.toNat_lt) fun bit _ => bit.toNat_lt
  have values := lessUp_iff greater below
  have first : Nat.ofDigits 2 ((bitsOf numBits n).map Bool.toNat) = n := bitValue_bitsOf right
  have second : Nat.ofDigits 2 ((bitsOf numBits m).map Bool.toNat) = m := bitValue_bitsOf left
  rw [first_zip lengths, second_zip lengths, first, second] at values
  rw [zip_map, greaterLoop_eq, swapped]
  refine congrArg ofBool ?_
  rw [Bool.eq_iff_iff, values, decide_eq_true_eq]

/-! ## Block numbers -/

namespace U63Target

theorem room : 2 ^ 63 ≤ goldilocksOrder := by decide

theorem compare_iff {lhs rhs : Target} {strict : Bool} {wire : BoolTarget} :
    compare lhs rhs strict wire ↔ lhs.val < 2 ^ 63 ∧ rhs.val < 2 ^ 63 ∧
      wire = .ofBool (decide (rhs.val < lhs.val ∨ rhs.val = lhs.val ∧ (!strict) = true)) := by
  simp only [compare, u63Bits, bind_apply, pure_apply, splitLe_iff room]
  constructor
  · rintro ⟨_, ⟨left, rfl⟩, _, ⟨right, rfl⟩, rfl⟩
    exact ⟨left, right, greaterLoop_bitsOf _ left right⟩
  · rintro ⟨left, right, rfl⟩
    exact ⟨_, ⟨left, rfl⟩, _, ⟨right, rfl⟩, (greaterLoop_bitsOf _ left right).symm⟩

variable {self lower : U63Target} {u : Unit}

/-- The comparison of both enforcements, asserted. -/
theorem assert_compare_iff {strict : Bool} :
    (∃ wire, compare self.value lower.value strict wire ∧ wire.assertOne u) ↔
      self.value.val < 2 ^ 63 ∧ lower.value.val < 2 ^ 63 ∧
        (lower.value.val < self.value.val ∨
          lower.value.val = self.value.val ∧ (!strict) = true) := by
  simp only [compare_iff]
  constructor
  · rintro ⟨_, ⟨left, right, rfl⟩, accepted⟩
    rw [assertOne_ofBool, decide_eq_true_eq] at accepted
    exact ⟨left, right, accepted⟩
  · rintro ⟨left, right, order⟩
    refine ⟨_, ⟨left, right, rfl⟩, ?_⟩
    rwa [assertOne_ofBool, decide_eq_true_eq]

theorem enforceGe_iff : enforceGe self lower u ↔
    self.value.val < 2 ^ 63 ∧ lower.value.val < 2 ^ 63 ∧ lower.value.val ≤ self.value.val :=
  assert_compare_iff.trans (by simp [Nat.le_iff_lt_or_eq])

theorem enforceGt_iff : enforceGt self lower u ↔
    self.value.val < 2 ^ 63 ∧ lower.value.val < 2 ^ 63 ∧ lower.value.val < self.value.val :=
  assert_compare_iff.trans (by simp)

/-- An enabled comparison is the comparison, and a disabled one splits two zeros and accepts. -/
theorem conditionalCompare_iff {condition strict : Bool} :
    conditionalCompare self lower (.ofBool condition) strict u ↔ (condition = true →
      ∃ wire, compare self.value lower.value strict wire ∧ wire.assertOne u) := by
  cases condition with
  | false =>
    simp [conditionalCompare]
    refine ⟨_, compare_iff.mpr ⟨by decide, by decide, rfl⟩, ?_⟩
    rw [or_ofBool, assertOne_ofBool]
    rfl
  | true =>
    simp [conditionalCompare]
    refine exists_congr fun wire => and_congr_right fun compared => ?_
    obtain ⟨-, -, rfl⟩ := compare_iff.mp compared
    rw [or_ofBool]
    rfl

theorem conditionalGe_iff {condition : Bool} :
    conditionalGe self lower (.ofBool condition) u ↔
      (condition = true → enforceGe self lower u) :=
  conditionalCompare_iff

theorem conditionalGt_iff {condition : Bool} :
    conditionalGt self lower (.ofBool condition) u ↔
      (condition = true → enforceGt self lower u) :=
  conditionalCompare_iff

end U63Target

theorem hasUnprocessedSend_eq {last previous : U63Target} (left : last.value.val < 2 ^ 63)
    (right : previous.value.val < 2 ^ 63) : hasUnprocessedSend last previous =
      pure (.ofBool (decide (previous.value.val < last.value.val))) := by
  rw [hasUnprocessedSend, splitLe_eq U63Target.room left, pure_bind,
    splitLe_eq U63Target.room right, pure_bind, greaterLoop_bitsOf false left right]
  simp

/-! ## Positions -/

theorem bitsOf_take {k : Nat} (few : k ≤ numBits) (n : Nat) :
    (bitsOf numBits n).take k = bitsOf k n := by
  induction k generalizing numBits n with
  | zero => rfl
  | succ k ih =>
    cases numBits with
    | zero => omega
    | succ numBits => rw [bitsOf, take_succ_cons, ih (by omega), bitsOf]

theorem bitsOf_getElem? {k : Nat} (inside : k < numBits) (n : Nat) :
    (bitsOf numBits n)[k]? = some (decide (n / 2 ^ k % 2 = 1)) := by
  induction k generalizing numBits n with
  | zero =>
    cases numBits with
    | zero => omega
    | succ numBits => simp [bitsOf]
  | succ k ih =>
    cases numBits with
    | zero => omega
    | succ numBits =>
      rw [bitsOf, getElem?_cons_succ, ih (by omega), Nat.div_div_eq_div_mul, ← pow_succ']

/-- Fewer bits than the modulus are counted by their sum. -/
theorem sum_bits_val {bits : List Bool} (few : bits.length < goldilocksOrder) :
    ((bits.map ofBool).map target).sum.val = (bits.map Bool.toNat).sum ∧
      (bits.map Bool.toNat).sum ≤ bits.length := by
  induction bits with
  | nil => exact ⟨rfl, le_refl _⟩
  | cons bit rest ih =>
    obtain ⟨sum, bound⟩ := ih (Nat.lt_of_succ_lt few)
    have digit := bit.toNat_le
    simp only [map_cons, sum_cons, length_cons] at few ⊢
    rw [Gadgets.val_add_of_lt (by rw [target_val, sum]; omega), target_val, sum]
    omega

theorem sum_toNat_eq_zero_iff (bits : List Bool) :
    (bits.map Bool.toNat).sum = 0 ↔ bitValue bits = 0 := by
  induction bits with
  | nil => exact Iff.rfl
  | cons bit rest ih =>
    rw [bitValue_cons, map_cons, sum_cons]
    omega

theorem sum_bits_eq_zero_iff {bits : List Bool} (few : bits.length < goldilocksOrder) :
    ((bits.map ofBool).map target).sum = 0 ↔ bitValue bits = 0 := by
  rw [Fin.ext_iff, (sum_bits_val few).1, ← sum_toNat_eq_zero_iff]
  rfl

theorem lessThanU32_eq {a b : Target} (left : a.val < 2 ^ 32) (right : b.val < 2 ^ 32) :
    lessThanU32 a b = pure (.ofBool (decide (a.val < b.val))) := by
  have order : goldilocksOrder = 2 ^ 64 - 2 ^ 32 + 1 := rfl
  have shifted : (b - a + ofNat (2 ^ 32)).val = b.val + 2 ^ 32 - a.val := by
    have whole : b - a + ofNat (2 ^ 32) = ofNat (b.val + 2 ^ 32 - a.val) := by
      rw [sub_add_eq_add_sub, sub_eq_iff_eq_add]
      refine Fin.ext ?_
      have target : (ofNat (b.val + 2 ^ 32 - a.val)).val = b.val + 2 ^ 32 - a.val :=
        ofNat_val (by omega)
      have power : (ofNat (2 ^ 32)).val = 2 ^ 32 := ofNat_val (by decide)
      rw [Gadgets.val_add_of_lt (by rw [power]; omega), power,
        Gadgets.val_add_of_lt (by rw [target]; omega), target]
      omega
    rw [whole, ofNat_val (by omega)]
  have split := splitLe_eq (x := b - a + ofNat (2 ^ 32)) (by decide : 2 ^ 33 ≤ goldilocksOrder)
    (by rw [shifted]; omega)
  have low : bitValue (bitsOf 32 (b.val + 2 ^ 32 - a.val)) = 0 ↔
      (b.val + 2 ^ 32 - a.val) % 2 ^ 32 = 0 := by
    rw [bitValue_bitsOf_mod]
  have few : (bitsOf 32 (b.val + 2 ^ 32 - a.val)).length < goldilocksOrder := by
    rw [bitsOf_length]
    decide
  rw [lessThanU32, split, pure_bind, shifted]
  simp only [getD_eq_getElem?_getD, getElem?_map, ← map_take,
    bitsOf_getElem? (by decide : 32 < 33), bitsOf_take (by decide : 32 ≤ 33), Option.map_some,
    Option.getD_some, isEqual, sum_bits_eq_zero_iff few, low, not_ofBool, and_ofBool]
  refine congrArg pure (congrArg ofBool ?_)
  rw [Bool.eq_iff_iff]
  simp
  omega

/-- The comparisons accept exactly the operands in range that are in relation, and have the true
    comparison as their only output; an element has one pair of words, so digests and their limbs
    correspond as they do natively. -/
theorem comparison_gadgets_exact :
    (∀ a b : U63Target, a.enforceGe b () ↔
      a.value.val < 2 ^ 63 ∧ b.value.val < 2 ^ 63 ∧ b.value.val ≤ a.value.val) ∧
    (∀ a b : U63Target, a.enforceGt b () ↔
      a.value.val < 2 ^ 63 ∧ b.value.val < 2 ^ 63 ∧ b.value.val < a.value.val) ∧
    (∀ (a b : U63Target) (condition : Bool), a.conditionalGe b (.ofBool condition) () ↔
      (condition = true →
        a.value.val < 2 ^ 63 ∧ b.value.val < 2 ^ 63 ∧ b.value.val ≤ a.value.val)) ∧
    (∀ (a b : U63Target) (condition : Bool), a.conditionalGt b (.ofBool condition) () ↔
      (condition = true →
        a.value.val < 2 ^ 63 ∧ b.value.val < 2 ^ 63 ∧ b.value.val < a.value.val)) ∧
    (∀ last previous : U63Target, last.value.val < 2 ^ 63 → previous.value.val < 2 ^ 63 →
      ∀ wire, hasUnprocessedSend last previous wire ↔
        wire = .ofBool (decide (previous.value.val < last.value.val))) ∧
    (∀ a b : Target, a.val < 2 ^ 32 → b.val < 2 ^ 32 →
      ∀ wire, lessThanU32 a b wire ↔ wire = .ofBool (decide (a.val < b.val))) ∧
    (∀ x : Target, ∃! words, safeSplitLoAndHi x words) ∧
    (∀ (elements : Fin 4 → Target) (limbs : Bytes32Target),
      Bytes32Target.fromHashOut elements limbs ↔
        limbs = .constant (nativeElements elements).toBytes32) ∧
    ∀ (b : Bytes32Target) (out : Fin 4 → Target), b.toHashOut out ↔
      ∃ limbs hashOut, b = .constant limbs ∧ limbs.tryIntoHashOut = .ok hashOut ∧
        ∀ i, (out i).val = (hashOut i).toNat := by
  refine ⟨fun _ _ => U63Target.enforceGe_iff, fun _ _ => U63Target.enforceGt_iff, ?_,
    ?_, ?_, ?_, ?_, ?_, fun _ _ => Bytes32Target.toHashOut_iff⟩
  · intro a b condition
    rw [U63Target.conditionalGe_iff, U63Target.enforceGe_iff]
  · intro a b condition
    rw [U63Target.conditionalGt_iff, U63Target.enforceGt_iff]
  · intro last previous left right wire
    rw [hasUnprocessedSend_eq left right, pure_apply]
  · intro a b left right wire
    rw [lessThanU32_eq left right, pure_apply]
  · intro x
    rw [safeSplitLoAndHi_eq]
    exact ⟨loAndHi x, rfl, fun words same => same⟩
  · intro elements limbs
    rw [Bytes32Target.fromHashOut_native, pure_apply]

/-- Operands whose difference wraps around to 63 bits are told apart. -/
theorem far_operands_refused :
    ¬ (⟨Target.ofNat 5⟩ : U63Target).enforceGe ⟨Target.ofNat (2 ^ 63 - 1)⟩ () ∧
    Gadgets.RangeCheck (Target.ofNat 5 - Target.ofNat (2 ^ 63 - 1)) 63 := by
  refine ⟨?_, by decide +kernel⟩
  rw [comparison_gadgets_exact.1]
  rintro ⟨-, -, order⟩
  revert order
  decide +kernel

end Intmax
