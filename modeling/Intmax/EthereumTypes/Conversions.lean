import Intmax.EthereumTypes.U256
import Intmax.Lib.Checked
import Intmax.Lib.Decimal

/-! # 256-bit integers as big integers and as text

The conversions between the limbs and a big integer, and the decimal text that is written to and
read from files.  A big integer is a natural number.  The text functions of `num_bigint` are
parameters, with what they are documented to do as a hypothesis.
-/

namespace Intmax.EthereumTypes.U256

open Checked List

/-! ## Big integers -/

/-- The loop of `From<U256> for BigUint`: every limb is added at its place. -/
def toBigUint (a : U256) : Nat :=
  a.limbs.reverse.zipIdx.foldl (fun sum digit => sum + digit.1.toNat <<< (32 * digit.2)) 0

/-- `digits.resize(U256_LEN, 0)`, where there are not more. -/
def resize (digits : List Nat) : List Nat := digits ++ List.replicate (u256Len - digits.length) 0

/-- The digits from the highest on, as limbs. -/
def limbsOf (digits : List Nat) : List U32 := (resize digits).reverse.map (BitVec.ofNat 32)

theorem limbsOf_length {digits : List Nat} (few : digits.length ≤ u256Len) :
    (limbsOf digits).length = u256Len := by
  simp [limbsOf, resize]
  omega

/-- `TryFrom<BigUint> for U256`; `to_u32_digits` are the digits in base `2 ^ 32`, lowest first. -/
def ofBigUint (n : Nat) : Except EthereumTypeError U256 :=
  if few : (Nat.digits (2 ^ 32) n).length ≤ u256Len then
    .ok ⟨limbsOf (Nat.digits (2 ^ 32) n), limbsOf_length few⟩
  else .error (.valueTooLarge (Nat.digits (2 ^ 32) n).length)

theorem foldl_places (limbs : List U32) (sum k : Nat) :
    (limbs.zipIdx k).foldl (fun sum digit => sum + digit.1.toNat <<< (32 * digit.2)) sum =
      sum + 2 ^ (32 * k) * Nat.ofDigits (2 ^ 32) (limbs.map BitVec.toNat) := by
  induction limbs generalizing sum k with
  | nil => simp
  | cons limb rest ih =>
    rw [zipIdx_cons, foldl_cons, ih, map_cons, Nat.ofDigits_cons,
      Nat.shiftLeft_eq, Nat.mul_succ, pow_add]
    ring

theorem toBigUint_eq (a : U256) : a.toBigUint = a.value := by
  rw [toBigUint, foldl_places, mul_zero, pow_zero, one_mul, zero_add, value]

theorem value_limbsOf {n : Nat} (few : (Nat.digits (2 ^ 32) n).length ≤ u256Len) :
    value ⟨limbsOf (Nat.digits (2 ^ 32) n), limbsOf_length few⟩ = n := by
  have digits : ∀ d ∈ resize (Nat.digits (2 ^ 32) n), d < 2 ^ 32 := by
    intro d member
    rcases mem_append.mp member with digit | padding
    · exact Nat.digits_lt_base (by decide) digit
    · rw [eq_of_mem_replicate padding]
      decide
  have back : (resize (Nat.digits (2 ^ 32) n)).map (BitVec.toNat ∘ BitVec.ofNat 32) =
      resize (Nat.digits (2 ^ 32) n) := by
    conv_rhs => rw [← map_id (resize _)]
    refine map_congr_left fun d member => ?_
    exact Nat.mod_eq_of_lt (digits d member)
  simp only [value, limbsOf, ← map_reverse, reverse_reverse, map_map, back]
  rw [resize, Nat.ofDigits_append_replicate_zero, Nat.ofDigits_digits]

theorem digits_length_le_iff (n : Nat) :
    (Nat.digits (2 ^ 32) n).length ≤ u256Len ↔ n < 2 ^ 256 := by
  rw [Nat.digits_length_le_iff (by decide), u256Len, ← pow_mul]

theorem ofBigUint_ok_iff {n : Nat} {a : U256} : ofBigUint n = .ok a ↔ a.value = n := by
  unfold ofBigUint
  constructor
  · intro converted
    split at converted
    case isTrue few =>
      cases converted
      exact value_limbsOf few
    case isFalse => cases converted
  · rintro rfl
    have few := (digits_length_le_iff a.value).mpr a.value_lt
    rw [dif_pos few]
    exact congrArg Except.ok (value_injective (value_limbsOf few))

theorem ofBigUint_error_iff {n : Nat} : (∃ e, ofBigUint n = .error e) ↔ 2 ^ 256 ≤ n := by
  have fits := digits_length_le_iff n
  unfold ofBigUint
  split
  case isTrue few =>
    refine iff_of_false ?_ (by omega)
    rintro ⟨_, failed⟩
    cases failed
  case isFalse many =>
    exact iff_of_true ⟨_, rfl⟩ (by omega)

/-! ## Decimal text -/

/-- `BigUint::to_str_radix(10)` and `BigUint::from_str_radix(_, 10)`. -/
structure DecimalText where
  toStrRadix : Nat → String
  fromStrRadix : String → Except Decimal.ParseError Nat

/-- What `num_bigint` documents of them.  Text that is not made of digits only is left open. -/
structure DecimalText.Documented (text : DecimalText) : Prop where
  /-- A number is written in its decimal digits, highest first and with no zeros in front. -/
  written : ∀ n, text.toStrRadix n = String.ofList (Decimal.write n)
  /-- Digits are read as their number, zeros in front of it included. -/
  digits_read : ∀ digits : List Nat, digits ≠ [] → (∀ d ∈ digits, d < 10) →
    text.fromStrRadix (String.ofList (digits.map Nat.digitChar)) =
      .ok (Nat.ofDigits 10 digits.reverse)

/-- `Display` and `Serialize`. -/
def serialize (text : DecimalText) (a : U256) : String := text.toStrRadix a.toBigUint

/-- `Deserialize`, and `FromStr` on text without a `0x` in front. -/
def deserialize (text : DecimalText) (s : String) : Except EthereumTypeError U256 := do
  let b ← (text.fromStrRadix s).mapError fun _ => .integerParseError
  ofBigUint b

section
variable {text : DecimalText}

theorem deserialize_ok_iff {s : String} {a : U256} :
    deserialize text s = .ok a ↔ text.fromStrRadix s = .ok a.value := by
  simp only [deserialize, bind_ok, mapError_ok, ofBigUint_ok_iff]
  constructor
  · rintro ⟨n, found, rfl⟩
    exact found
  · intro found
    exact ⟨_, found, rfl⟩

variable (decimal : text.Documented)
include decimal

theorem deserialize_serialize (a : U256) : deserialize text (a.serialize text) = .ok a := by
  obtain ⟨digits, nonempty, below, same, value⟩ := Decimal.exists_digits_write a.value
  rw [deserialize_ok_iff, serialize, toBigUint_eq, decimal.written, ← same,
    decimal.digits_read digits nonempty below, value]

/-- Reading and writing again gives the text back where it was written without extra signs. -/
theorem serialize_eq_iff {s : String} {a : U256} (found : deserialize text s = .ok a) :
    a.serialize text = s ↔ Decimal.Canonical s.toList := by
  rw [deserialize_ok_iff] at found
  rw [serialize, toBigUint_eq, decimal.written]
  constructor
  · rintro rfl
    rw [String.toList_ofList]
    exact Decimal.canonical_write _
  · intro canonical
    obtain ⟨digits, nonempty, below, same, written⟩ :=
      Decimal.exists_digits_of_canonical canonical
    have number := decimal.digits_read digits nonempty below
    rw [same, String.ofList_toList, found] at number
    rw [Except.ok.inj number, written, String.ofList_toList]

end

end Intmax.EthereumTypes.U256
