import Intmax.Lib.Digits

/-! # 256-bit integers

`ethereum_types/u256.rs`: an integer is eight 32-bit limbs, most significant first.  The operators
go through both operands from the last limb on, in machine words of 64 bits.  Their loops are the
schoolbook ones in base `2 ^ 32`.
-/

namespace Intmax.EthereumTypes

open Digits List Nat

/-- `u32`. -/
abbrev U32 := BitVec 32

/-- `U256_LEN`. -/
def u256Len : Nat := 8

/-- The limbs of an integer in big endian format. -/
structure U256 where
  limbs : List U32
  length_limbs : limbs.length = u256Len
deriving DecidableEq

/-- An assertion of the operators, by its message. -/
inductive Abort where
  | additionOverflow
  | subUnderflow
deriving DecidableEq

/-- What the conversions into `U256` report. -/
inductive EthereumTypeError where
  | valueTooLarge (digits : Nat)
  | integerParseError
deriving DecidableEq

/-- Two lists of limbs as the pairs of digits that the loops go through. -/
def digitPairs (pairs : List (U32 × U32)) : List (Nat × Nat) :=
  pairs.map fun pair => (pair.1.toNat, pair.2.toNat)

namespace U256

/-- The integer that the limbs stand for. -/
def value (a : U256) : Nat := Nat.ofDigits (2 ^ 32) (a.limbs.reverse.map BitVec.toNat)

/-! ## The operators -/

/-- The loop of `add`, from the last limb on. -/
def addLoop : Nat → List (U32 × U32) → List U32 × Nat
  | carry, [] => ([], carry)
  | carry, (a, b) :: rest =>
    let c := (carry + a.toNat + b.toNat) % 2 ^ 64
    let above := addLoop (c / 2 ^ 32) rest
    (BitVec.ofNat 32 c :: above.1, above.2)

/-- The loop of `sub`, on signed words: the borrow is `0` or `-1`. -/
def subLoop : Int → List (U32 × U32) → List U32 × Int
  | borrow, [] => ([], borrow)
  | borrow, (a, b) :: rest =>
    let c := ((a.toNat : Int) - b.toNat + borrow).bmod (2 ^ 64)
    let above := subLoop ((c / 2 ^ 32).bmod (2 ^ 32)) rest
    (BitVec.ofInt 32 c :: above.1, above.2)

theorem addLoop_length (carry : Nat) (pairs : List (U32 × U32)) :
    (addLoop carry pairs).1.length = pairs.length := by
  induction pairs generalizing carry with
  | nil => rfl
  | cons pair rest ih => simp [addLoop, ih]

theorem subLoop_length (borrow : Int) (pairs : List (U32 × U32)) :
    (subLoop borrow pairs).1.length = pairs.length := by
  induction pairs generalizing borrow with
  | nil => rfl
  | cons pair rest ih => simp [subLoop, ih]

/-- The limbs of both operands, the last ones first. -/
def limbPairs (a b : U256) : List (U32 × U32) := a.limbs.reverse.zip b.limbs.reverse

@[simp] theorem limbPairs_length (a b : U256) : (limbPairs a b).length = u256Len := by
  simp [limbPairs, a.length_limbs, b.length_limbs]

theorem length_reverse_addLoop (a b : U256) :
    (addLoop 0 (limbPairs a b)).1.reverse.length = u256Len := by
  rw [length_reverse, addLoop_length, limbPairs_length]

theorem length_reverse_subLoop (a b : U256) :
    (subLoop 0 (limbPairs a b)).1.reverse.length = u256Len := by
  rw [length_reverse, subLoop_length, limbPairs_length]

def add (a b : U256) : Except Abort U256 :=
  if (addLoop 0 (limbPairs a b)).2 = 0 then
    .ok ⟨(addLoop 0 (limbPairs a b)).1.reverse, length_reverse_addLoop a b⟩
  else .error .additionOverflow

def sub (a b : U256) : Except Abort U256 :=
  if (subLoop 0 (limbPairs a b)).2 = 0 then
    .ok ⟨(subLoop 0 (limbPairs a b)).1.reverse, length_reverse_subLoop a b⟩
  else .error .subUnderflow

/-- `Iterator::cmp`. -/
def cmpLimbs : List U32 → List U32 → Ordering
  | [], [] => .eq
  | [], _ :: _ => .lt
  | _ :: _, [] => .gt
  | a :: as, b :: bs => (compare a.toNat b.toNat).then (cmpLimbs as bs)

def cmp (a b : U256) : Ordering := cmpLimbs a.limbs b.limbs

/-! ## What the limbs stand for -/

theorem map_toNat_lt (limbs : List U32) : ∀ d ∈ limbs.map BitVec.toNat, d < 2 ^ 32 := by
  intro d member
  obtain ⟨limb, -, rfl⟩ := mem_map.mp member
  exact limb.isLt

theorem ofDigits_limbs_lt (limbs : List U32) :
    ofDigits (2 ^ 32) (limbs.reverse.map BitVec.toNat) < (2 ^ 32) ^ limbs.length := by
  have bound := ofDigits_lt_base_pow_length (by decide) (map_toNat_lt limbs.reverse)
  rwa [length_map, length_reverse] at bound

theorem value_lt (a : U256) : a.value < 2 ^ 256 := by
  have bound := ofDigits_limbs_lt a.limbs
  rwa [a.length_limbs, u256Len, ← pow_mul] at bound

theorem value_injective {a b : U256} (same : a.value = b.value) : a = b := by
  have digits : a.limbs.reverse.map BitVec.toNat = b.limbs.reverse.map BitVec.toNat := by
    refine ofDigits_inj_of_len_eq (by decide) ?_ (map_toNat_lt _) (map_toNat_lt _) same
    simp [a.length_limbs, b.length_limbs]
  have limbs : a.limbs.reverse = b.limbs.reverse :=
    map_injective_iff.mpr (fun _ _ equal => BitVec.eq_of_toNat_eq equal) digits
  obtain ⟨as, _⟩ := a
  obtain ⟨bs, _⟩ := b
  cases reverse_injective limbs
  rfl

theorem reverse_lengths (a b : U256) : a.limbs.reverse.length = b.limbs.reverse.length := by
  simp [a.length_limbs, b.length_limbs]

theorem first_limbPairs (a b : U256) : first (2 ^ 32) (digitPairs (limbPairs a b)) = a.value :=
  first_zip (reverse_lengths a b)

theorem second_limbPairs (a b : U256) : second (2 ^ 32) (digitPairs (limbPairs a b)) = b.value :=
  second_zip (reverse_lengths a b)

theorem below_limbPairs (a b : U256) : Below (2 ^ 32) (digitPairs (limbPairs a b)) :=
  below_zip (fun limb _ => limb.isLt) fun limb _ => limb.isLt

theorem base_pow_limbPairs (a b : U256) :
    (2 ^ 32) ^ (digitPairs (limbPairs a b)).length = 2 ^ 256 := by
  rw [digitPairs, length_map, limbPairs_length, u256Len, ← pow_mul]

/-! ## Addition -/

/-- The loop is the schoolbook addition: its words never wrap. -/
theorem addLoop_eq {carry : Nat} (small : carry ≤ 1) (pairs : List (U32 × U32)) :
    (addLoop carry pairs).1.map BitVec.toNat = (addUp (2 ^ 32) carry (digitPairs pairs)).1 ∧
    (addLoop carry pairs).2 = (addUp (2 ^ 32) carry (digitPairs pairs)).2 := by
  induction pairs generalizing carry with
  | nil => exact ⟨rfl, rfl⟩
  | cons pair rest ih =>
    obtain ⟨a, b⟩ := pair
    have digit : a.toNat < 2 ^ 32 ∧ b.toNat < 2 ^ 32 := ⟨a.isLt, b.isLt⟩
    have word : (carry + a.toNat + b.toNat) % 2 ^ 64 = carry + a.toNat + b.toNat := by omega
    obtain ⟨digits, last⟩ := ih (carry_le digit small)
    simp only [addLoop, digitPairs, map_cons, addUp, word, BitVec.toNat_ofNat] at digits last ⊢
    exact ⟨by rw [digits], last⟩

theorem value_addLoop (a b : U256) (length : (addLoop 0 (limbPairs a b)).1.reverse.length =
    u256Len) :
    value ⟨(addLoop 0 (limbPairs a b)).1.reverse, length⟩ +
      2 ^ 256 * (addLoop 0 (limbPairs a b)).2 = a.value + b.value := by
  obtain ⟨digits, last⟩ := addLoop_eq (zero_le 1) (limbPairs a b)
  have exact_sum := addUp_value (2 ^ 32) 0 (digitPairs (limbPairs a b))
  rw [first_limbPairs, second_limbPairs, base_pow_limbPairs, ← digits, ← last, zero_add]
    at exact_sum
  rw [value, reverse_reverse]
  exact exact_sum

theorem add_ok_iff {a b r : U256} : a.add b = .ok r ↔ r.value = a.value + b.value := by
  have sum := value_addLoop a b (length_reverse_addLoop a b)
  unfold add
  constructor
  · intro added
    split at added
    case isTrue none =>
      cases added
      rw [none, mul_zero, add_zero] at sum
      exact sum
    case isFalse => cases added
  · intro exact_sum
    -- a carry would put the sum past every value
    have bound := r.value_lt
    have none : (addLoop 0 (limbPairs a b)).2 = 0 := by
      by_contra some
      have : 2 ^ 256 * 1 ≤ 2 ^ 256 * (addLoop 0 (limbPairs a b)).2 :=
        mul_le_mul_left _ (pos_of_ne_zero some)
      omega
    rw [if_pos none]
    rw [none, mul_zero, add_zero, ← exact_sum] at sum
    exact congrArg Except.ok (value_injective sum)

theorem add_error_iff {a b : U256} :
    a.add b = .error .additionOverflow ↔ 2 ^ 256 ≤ a.value + b.value := by
  have sum := value_addLoop a b (length_reverse_addLoop a b)
  have bound := value_lt ⟨(addLoop 0 (limbPairs a b)).1.reverse, length_reverse_addLoop a b⟩
  unfold add
  split
  case isTrue none =>
    rw [none, mul_zero, add_zero] at sum
    simp [reduceCtorEq]
    omega
  case isFalse some =>
    have : 2 ^ 256 * 1 ≤ 2 ^ 256 * (addLoop 0 (limbPairs a b)).2 :=
      mul_le_mul_left _ (pos_of_ne_zero some)
    simp
    omega

/-! ## Subtraction -/

/-- One limb of a difference: the signed word is exact, and its two halves are digit and borrow. -/
theorem sub_step {a b borrow : Nat} (digit : a < 2 ^ 32 ∧ b < 2 ^ 32) (small : borrow ≤ 1) :
    ((a : Int) - b + -(borrow : Int)).bmod (2 ^ 64) = (a : Int) - b - borrow ∧
    (((a : Int) - b - borrow) / 2 ^ 32).bmod (2 ^ 32) = -(subBorrow borrow a b : Int) ∧
    (((a : Int) - b - borrow) % 2 ^ 32).toNat = subDigit (2 ^ 32) borrow a b := by
  refine ⟨?_, ?_, ?_⟩
  · rw [Int.bmod_def]
    split <;> omega
  · rw [Int.bmod_def, subBorrow]
    split <;> split <;> omega
  · rw [subDigit]
    split <;> omega

theorem subLoop_eq {borrow : Nat} (small : borrow ≤ 1) (pairs : List (U32 × U32)) :
    (subLoop (-(borrow : Int)) pairs).1.map BitVec.toNat =
      (subUp (2 ^ 32) borrow (digitPairs pairs)).1 ∧
    (subLoop (-(borrow : Int)) pairs).2 = -((subUp (2 ^ 32) borrow (digitPairs pairs)).2 :
      Int) := by
  induction pairs generalizing borrow with
  | nil => exact ⟨rfl, rfl⟩
  | cons pair rest ih =>
    obtain ⟨a, b⟩ := pair
    obtain ⟨word, high, low⟩ := sub_step ⟨a.isLt, b.isLt⟩ small
    obtain ⟨digits, last⟩ := ih (subBorrow_le borrow a.toNat b.toNat)
    simp only [subLoop, digitPairs, map_cons, subUp, word, high, BitVec.toNat_ofInt]
      at digits last ⊢
    refine ⟨?_, last⟩
    rw [digits]
    exact congrArg (· :: _) low

theorem value_subLoop (a b : U256) (length : (subLoop 0 (limbPairs a b)).1.reverse.length =
    u256Len) :
    (a.value : Int) = value ⟨(subLoop 0 (limbPairs a b)).1.reverse, length⟩ + b.value +
      2 ^ 256 * (subLoop 0 (limbPairs a b)).2 ∧
    (-1 : Int) ≤ (subLoop 0 (limbPairs a b)).2 ∧ (subLoop 0 (limbPairs a b)).2 ≤ 0 := by
  obtain ⟨digits, last⟩ := subLoop_eq (zero_le 1) (limbPairs a b)
  have exact_difference := subUp_value (below_limbPairs a b) (zero_le 1)
  have bit := subUp_borrow_le (2 ^ 32) (digitPairs (limbPairs a b)) (zero_le 1)
  rw [first_limbPairs, second_limbPairs, base_pow_limbPairs, ← digits] at exact_difference
  simp only [cast_zero, neg_zero] at digits last exact_difference
  have result : value ⟨(subLoop 0 (limbPairs a b)).1.reverse, length⟩ =
      ofDigits (2 ^ 32) ((subLoop 0 (limbPairs a b)).1.map BitVec.toNat) := by
    rw [value, reverse_reverse]
  rw [result, last]
  omega

theorem sub_ok_iff {a b r : U256} : a.sub b = .ok r ↔ a.value = r.value + b.value := by
  obtain ⟨difference, low, high⟩ := value_subLoop a b (length_reverse_subLoop a b)
  unfold sub
  constructor
  · intro subtracted
    split at subtracted
    case isTrue none =>
      cases subtracted
      rw [none] at difference
      omega
    case isFalse => cases subtracted
  · intro exact_difference
    have bound := value_lt ⟨(subLoop 0 (limbPairs a b)).1.reverse, length_reverse_subLoop a b⟩
    have none : (subLoop 0 (limbPairs a b)).2 = 0 := by omega
    rw [if_pos none]
    refine congrArg Except.ok (value_injective ?_)
    rw [none] at difference
    omega

theorem sub_error_iff {a b : U256} :
    a.sub b = .error .subUnderflow ↔ a.value < b.value := by
  obtain ⟨difference, low, high⟩ := value_subLoop a b (length_reverse_subLoop a b)
  have bound := value_lt ⟨(subLoop 0 (limbPairs a b)).1.reverse, length_reverse_subLoop a b⟩
  unfold sub
  split
  case isTrue none =>
    rw [none] at difference
    simp [reduceCtorEq]
    omega
  case isFalse some =>
    simp
    omega

/-! ## Order -/

/-- The first limb weighs more than all that follow it. -/
theorem ofDigits_reverse_cons (limb : U32) (limbs : List U32) :
    ofDigits (2 ^ 32) ((limb :: limbs).reverse.map BitVec.toNat) =
      ofDigits (2 ^ 32) (limbs.reverse.map BitVec.toNat) +
        (2 ^ 32) ^ limbs.length * limb.toNat := by
  rw [reverse_cons, map_append, ofDigits_append]
  simp

theorem cmpLimbs_eq {as bs : List U32} (lengths : as.length = bs.length) :
    cmpLimbs as bs = compare (ofDigits (2 ^ 32) (as.reverse.map BitVec.toNat))
      (ofDigits (2 ^ 32) (bs.reverse.map BitVec.toNat)) := by
  induction as generalizing bs with
  | nil =>
    cases bs with
    | nil => rfl
    | cons => cases lengths
  | cons a as ih =>
    cases bs with
    | nil => cases lengths
    | cons b bs =>
      have lengths' : as.length = bs.length := succ.inj lengths
      have below := ofDigits_limbs_lt as
      have below' := ofDigits_limbs_lt bs
      rw [← lengths'] at below'
      obtain ⟨less, -⟩ := digit_lt_iff a.toNat b.toNat ⟨below, below'⟩
      obtain ⟨more, -⟩ := digit_lt_iff b.toNat a.toNat ⟨below', below⟩
      rw [cmpLimbs, ih lengths', ofDigits_reverse_cons, ofDigits_reverse_cons, ← lengths']
      rcases lt_trichotomy a.toNat b.toNat with first | same | first
      · rw [Nat.compare_eq_lt.mpr first, Ordering.lt_then]
        exact (Nat.compare_eq_lt.mpr (less.mpr (Or.inl first))).symm
      · rw [Nat.compare_eq_eq.mpr same, Ordering.eq_then, same]
        simp [compare_eq_ite_lt]
      · rw [Nat.compare_eq_gt.mpr first, Ordering.gt_then]
        exact (Nat.compare_eq_gt.mpr (more.mpr (Or.inl first))).symm

theorem cmp_eq (a b : U256) : a.cmp b = compare a.value b.value :=
  cmpLimbs_eq (a.length_limbs.trans b.length_limbs.symm)

end U256

end Intmax.EthereumTypes
