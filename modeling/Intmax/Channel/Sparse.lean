import Mathlib.Data.List.DropRight
import Intmax.Channel.Signed

/-! # The sparse encoding of a state

A stored state keeps only the entries of its matrices that are not zero: one map for each slot, and
no maps after the last slot that has an entry.
-/

namespace Intmax.Channel

open Checked Validity List

/-- A `BTreeMap<u8, _>`, by what it holds at each key. -/
abbrev TokenMap (α : Type) := BitVec 8 → Option α

namespace TokenMap

variable {α : Type}

def isEmpty (map : TokenMap α) : Bool := decide (∀ key, (map key).isNone = true)

/-- A key that is no token position. -/
def OutOfRange (map : TokenMap α) : Prop :=
  ∃ key, maxChannelTokens ≤ key.toNat ∧ (map key).isSome = true

instance decidableOutOfRange (map : TokenMap α) : Decidable map.OutOfRange :=
  inferInstanceAs (Decidable (∃ key, maxChannelTokens ≤ key.toNat ∧ (map key).isSome = true))

/-- The entries of a row that are not zero. -/
def ofRow [DecidableEq α] (zero : α) (row : TokenRow α) : TokenMap α := fun key =>
  if inside : key.toNat < maxChannelTokens then
    if row ⟨key.toNat, inside⟩ = zero then none else some (row ⟨key.toNat, inside⟩)
  else none

/-- The row of a map, zero where the map has nothing. -/
def toRow (zero : α) (map : TokenMap α) : TokenRow α := fun t =>
  (map (BitVec.ofNat 8 t.val)).getD zero

end TokenMap

/-- `serialize` of `token_matrix_serde`: empty maps at the end are popped. -/
def serializeMatrix {α : Type} [DecidableEq α] (zero : α) (rows : List (TokenRow α)) :
    List (TokenMap α) :=
  (rows.map (TokenMap.ofRow zero)).rdropWhile TokenMap.isEmpty

/-- `deserialize` of `token_matrix_serde`, for the field of a state that it reads. -/
def deserializeMatrix {α : Type} (field : String) (zero : α) (sparse : List (TokenMap α)) :
    Except String (List (TokenRow α)) := do
  revertIf (maxChannelMembers < sparse.length)
    s!"{field} has {sparse.length} slot rows (> MAX_CHANNEL_MEMBERS = {maxChannelMembers})"
  sparse.zipIdx.forM fun (map, slot) => revertIf map.OutOfRange
    s!"{field}[{slot}] has a token position >= MAX_CHANNEL_TOKENS = {maxChannelTokens}"
  let rows := sparse.map (TokenMap.toRow zero)
  pure (rows ++ List.replicate (maxChannelMembers - rows.length) fun _ => zero)

def serializeCiphertexts : List (TokenRow RegevCiphertext) → List (TokenMap RegevCiphertext) :=
  serializeMatrix .padding

def deserializeCiphertexts :
    List (TokenMap RegevCiphertext) → Except String (List (TokenRow RegevCiphertext)) :=
  deserializeMatrix "encBalances" .padding

def serializePendingAdds : List (TokenRow (BitVec 32)) → List (TokenMap (BitVec 32)) :=
  serializeMatrix 0

def deserializePendingAdds :
    List (TokenMap (BitVec 32)) → Except String (List (TokenRow (BitVec 32))) :=
  deserializeMatrix "pendingAdds" 0

/-! ## Round trip -/

section
variable {α : Type} {zero : α} {field : String}

theorem TokenMap.toRow_of_isEmpty {map : TokenMap α} (empty : map.isEmpty = true) :
    map.toRow zero = fun _ => zero := by
  funext t
  have none := of_decide_eq_true empty (BitVec.ofNat 8 t.val)
  rw [TokenMap.toRow, Option.isNone_iff_eq_none.mp none, Option.getD_none]

variable [DecidableEq α]

theorem TokenMap.toRow_ofRow (row : TokenRow α) : (TokenMap.ofRow zero row).toRow zero = row := by
  funext t
  have small : t.val < 2 ^ 8 := lt_trans t.isLt (by decide)
  have key : (BitVec.ofNat 8 t.val).toNat = t.val := by
    rw [BitVec.toNat_ofNat, Nat.mod_eq_of_lt small]
  simp [TokenMap.toRow, TokenMap.ofRow, key, t.isLt]
  split
  case isTrue here => rw [Option.getD_none, here]
  case isFalse elsewhere => rw [Option.getD_some]

theorem TokenMap.ofRow_inRange (row : TokenRow α) : ¬(TokenMap.ofRow zero row).OutOfRange := by
  rintro ⟨key, outside, found⟩
  simp [TokenMap.ofRow, not_lt.mpr outside] at found

omit [DecidableEq α] in
/-- What is popped from the end comes back as padding. -/
theorem map_rdropWhile_replicate {β : Type} {dropped : β → Bool} (value : β → α)
    {padding : α} (padded : ∀ b, dropped b = true → value b = padding) (l : List β) :
    (l.rdropWhile dropped).map value ++
      replicate (l.length - (l.rdropWhile dropped).length) padding = l.map value := by
  induction l using reverseRecOn with
  | nil => rfl
  | append_singleton l b ih =>
    by_cases last : dropped b = true
    · have short : (l.rdropWhile dropped).length ≤ l.length :=
        (List.rdropWhile_prefix _ _).length_le
      rw [rdropWhile_concat_pos _ _ _ last, length_append, length_singleton, Nat.succ_sub short,
        replicate_succ', ← append_assoc, ih, map_append, map_singleton, padded b last]
    · rw [rdropWhile_concat_neg _ _ _ last, Nat.sub_self, replicate_zero, append_nil]

theorem deserializeMatrix_serializeMatrix {rows : List (TokenRow α)}
    (full : rows.length = maxChannelMembers) :
    deserializeMatrix field zero (serializeMatrix zero rows) = .ok rows := by
  have short := (List.rdropWhile_prefix TokenMap.isEmpty (rows.map (TokenMap.ofRow zero))).length_le
  have restored := map_rdropWhile_replicate (TokenMap.toRow zero)
    (fun _ => TokenMap.toRow_of_isEmpty) (rows.map (TokenMap.ofRow zero))
  rw [length_map, full] at short restored
  rw [map_map, show TokenMap.toRow zero ∘ TokenMap.ofRow zero = id from
    funext TokenMap.toRow_ofRow, map_id] at restored
  simp only [deserializeMatrix, bind_ok, revertIf_ok, forM_ok, exists_unit, pure_ok, not_lt]
  refine ⟨short, ?_, ?_⟩
  · rintro ⟨map, slot⟩ member
    have kept : map ∈ rows.map (TokenMap.ofRow zero) :=
      (List.rdropWhile_prefix _ _).subset (fst_mem_of_mem_zipIdx member)
    obtain ⟨row, -, rfl⟩ := mem_map.mp kept
    exact TokenMap.ofRow_inRange row
  · rw [length_map]
    exact restored

omit [DecidableEq α] in
theorem deserializeMatrix_length {sparse : List (TokenMap α)} {rows : List (TokenRow α)}
    (accepted : deserializeMatrix field zero sparse = .ok rows) :
    rows.length = maxChannelMembers := by
  simp [deserializeMatrix] at accepted
  obtain ⟨few, -, rfl⟩ := accepted
  rw [length_append, length_map, length_replicate, Nat.add_sub_cancel' few]

end

end Intmax.Channel
