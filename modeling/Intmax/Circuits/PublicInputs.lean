import Intmax.Contracts.Evm
import Intmax.Lib.Words

/-! # Words of public inputs

Statements expose their fields as a flat vector of 64-bit limbs, one 32-bit word each.  The types of
`ethereum_types` are their big-endian bit vectors, and machine words are naturals.
-/

namespace Intmax.PublicInputs

open Checked Words List

/-! ## Words -/

inductive EthereumTypeError
  | outOfU32Range
  | invalidLengthSimple (actual : Nat)
  deriving DecidableEq, Repr

def EthereumTypeError.message : EthereumTypeError → String
  | outOfU32Range => "Out of u32 range"
  | invalidLengthSimple actual => "Invalid length: " ++ toString actual

/-- `U32LimbTrait::to_u64_vec`: the limbs, most significant first. -/
def toU64Vec (n : Nat) (x : BitVec (32 * n)) : List Nat := split n x.toNat

/-- `U32LimbTrait::from_u64_slice`: every limb is checked, then their number. -/
def fromU64Slice (n : Nat) (input : List Nat) : Except EthereumTypeError (BitVec (32 * n)) := do
  revertIf (∃ x ∈ input, 2 ^ 32 ≤ x) .outOfU32Range
  revertIf (input.length ≠ n) (.invalidLengthSimple input.length)
  pure (BitVec.ofNat _ (join input))

theorem fromU64Slice_toU64Vec (n : Nat) (x : BitVec (32 * n)) :
    fromU64Slice n (toU64Vec n x) = .ok x := by
  have small : ¬ ∃ w ∈ toU64Vec n x, 2 ^ 32 ≤ w := by
    rintro ⟨w, member, large⟩
    have := lt_of_mem_split member
    omega
  have length : ¬ (toU64Vec n x).length ≠ n := not_not.mpr (length_split ..)
  simp only [fromU64Slice, bind_ok, revertIf_ok, pure_ok]
  refine ⟨(), small, (), length, ?_⟩
  rw [toU64Vec, join_split x.isLt, BitVec.ofNat_toNat, BitVec.setWidth_eq]

theorem fromU64Slice_ok_iff {n : Nat} {input : List Nat} {x : BitVec (32 * n)} :
    fromU64Slice n input = .ok x ↔ input = toU64Vec n x := by
  constructor
  · intro decoded
    simp [fromU64Slice] at decoded
    obtain ⟨small, rfl, rfl⟩ := decoded
    rw [toU64Vec, BitVec.toNat_ofNat, Nat.mod_eq_of_lt (join_lt small),
      split_join small]
  · intro same
    rw [same, fromU64Slice_toU64Vec]

/-- The high and the low half of a 64-bit value. -/
def splitU64 (value : BitVec 64) : List Nat := [value.toNat >>> 32, value.toNat % 2 ^ 32]

theorem splitU64_eq (value : BitVec 64) : splitU64 value = toU64Vec 2 value := by
  simp only [splitU64, toU64Vec, split, nil_append, cons_append, Nat.shiftRight_eq_div_pow]
  rw [Nat.mod_eq_of_lt (show value.toNat / 2 ^ 32 < 2 ^ 32 by omega)]

/-! ### Packed fields as words -/

theorem packUint32_eq_bytes (x : BitVec 32) : packUint32 x = bytes [x.toNat] := by
  rw [bytes_cons, bytes_nil, append_nil]
  rfl

theorem packBytes32_eq_bytes (x : Bytes32) :
    packBytes32 x = bytes (toU64Vec 8 x) :=
  (bytes_split 8 x.toNat).symm

theorem packUint64_eq_bytes (x : BitVec 64) :
    packUint64 x = bytes (splitU64 x) := by
  rw [splitU64_eq]
  exact (bytes_split 2 x.toNat).symm

theorem flatMap_eq_bytes {α : Type} {pack : α → Bytes} {words : α → List Nat}
    (each : ∀ a, pack a = bytes (words a)) (xs : List α) :
    xs.flatMap pack = bytes (xs.flatMap words) := by
  induction xs with
  | nil => rfl
  | cons x xs ih => rw [flatMap_cons, flatMap_cons, bytes_append, ih, each]

theorem packAddress_eq_bytes (x : Address) : packAddress x = bytes (toU64Vec 5 x) :=
  (bytes_split 5 x.toNat).symm

/-! ## Channel ids -/

inductive ChannelIdError
  | invalidChannelId (message : String)
  | invalidValue (message : String)
  deriving DecidableEq, Repr

def ChannelIdError.message : ChannelIdError → String
  | invalidChannelId message => "Invalid channel ID: " ++ message
  | invalidValue message => "Invalid raw value: " ++ message

/-- `ChannelId::new`. -/
def channelIdNew (value : Nat) : Except ChannelIdError ChannelId := do
  revertIf (2 ^ 32 ≤ value)
    (.invalidValue ("channel id " ++ toString value ++ " does not fit in 4 bytes"))
  revertIf (value = 0) (.invalidChannelId "channel_id=0 is reserved for dummy")
  pure (BitVec.ofNat 32 value)

/-! ## Digests over words -/

/-- `hash_words`: Keccak over the big-endian bytes of the words. -/
def hashWords [Keccak] (words : List Nat) : Bytes32 := keccak256 (bytes words)

end Intmax.PublicInputs
