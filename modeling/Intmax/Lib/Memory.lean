import Intmax.Lib.Words

/-! # Byte memory of the EVM

A word store writes 32 bytes, so a packed string is built by stores that overlap: each one puts
its value into the leading bytes of its word and the next one writes over the rest.
-/

namespace Memory

open BigEndian List

/-- `mstore`: the 32 bytes of a word. -/
def mstore (m : Nat → UInt8) (offset word : Nat) : Nat → UInt8 := fun k =>
  if offset ≤ k ∧ k < offset + 32 then (encode 32 word).getD (k - offset) 0 else m k

/-- `shl`, in 256-bit words. -/
def shl (shift value : Nat) : Nat := (value * 2 ^ shift) % 2 ^ 256

/-- The bytes that `keccak256(offset, length)` reads. -/
def read (m : Nat → UInt8) (offset length : Nat) : List UInt8 :=
  (List.range length).map fun i => m (offset + i)

/-- The memory holds `bytes`, `n` of them, from `offset` on. -/
structure Holds (m : Nat → UInt8) (offset n : Nat) (bytes : List UInt8) : Prop where
  length : bytes.length = n
  read : read m offset n = bytes

variable {m : Nat → UInt8} {offset n : Nat} {bytes : List UInt8}

theorem holds_nil : Holds m offset 0 [] := ⟨rfl, rfl⟩

theorem read_add (m : Nat → UInt8) (offset a b : Nat) :
    read m offset (a + b) = read m offset a ++ read m (offset + a) b := by
  simp [read, range_add, add_assoc]

/-- The leading bytes of a value shifted up to the top of a word. -/
theorem encode_shl {k : Nat} (narrow : k ≤ 32) (v : Nat) :
    (encode 32 (shl (8 * (32 - k)) v)).take k = encode k v := by
  have whole : 32 = k + (32 - k) := by omega
  have top : shl (8 * (32 - k)) v = (v * 256 ^ (32 - k)) % 256 ^ 32 := by
    rw [shl, pow_mul]
    rfl
  rw [top, Words.encode_mod, whole, Words.encode_add, Nat.add_sub_cancel_left,
    Nat.mul_div_cancel _ (Nat.pow_pos (by decide))]
  exact take_left' (length_encode k v)

theorem read_mstore {k : Nat} (narrow : k ≤ 32) (word : Nat) :
    read (mstore m offset word) offset k = (encode 32 word).take k := by
  apply ext_getElem
  · simp [read, narrow]
  · intro i below below'
    have inside : i < k := by simpa [read] using below
    simp [read, mstore, show i < 32 by omega]

/-- A store at the end of a string appends the leading `k` bytes of its word. -/
theorem Holds.store (holds : Holds m offset n bytes) {k : Nat} (narrow : k ≤ 32) (v : Nat) :
    Holds (mstore m (offset + n) (shl (8 * (32 - k)) v)) offset (n + k)
      (bytes ++ encode k v) := by
  have kept : Memory.read (mstore m (offset + n) (shl (8 * (32 - k)) v)) offset n = bytes := by
    refine Eq.trans ?_ holds.read
    apply map_congr_left
    intro i member
    have below := mem_range.mp member
    exact if_neg (by omega)
  constructor
  · rw [length_append, length_encode, holds.length]
  · rw [read_add, kept, read_mstore narrow, encode_shl narrow]

/-- A whole word. -/
theorem Holds.store_word (holds : Holds m offset n bytes) {v : Nat} (fits : v < 2 ^ 256) :
    Holds (mstore m (offset + n) v) offset (n + 32) (bytes ++ encode 32 v) := by
  have stored := holds.store (le_refl 32) v
  rwa [shl, Nat.sub_self, mul_zero, pow_zero, mul_one, Nat.mod_eq_of_lt fits] at stored

/-- A loop that stores at its cursor the leading `k` bytes of each value and advances by `k`. -/
theorem Holds.store_all (holds : Holds m offset n bytes) {k : Nat} (narrow : k ≤ 32)
    (vs : List Nat) :
    ∃ m', vs.foldl (fun s v => (mstore s.1 s.2 (shl (8 * (32 - k)) v), s.2 + k)) (m, offset + n) =
        (m', offset + (n + vs.length * k)) ∧
      Holds m' offset (n + vs.length * k) (bytes ++ vs.flatMap (encode k)) := by
  induction vs generalizing m n bytes with
  | nil => exact ⟨m, by simp, by simpa using holds⟩
  | cons v vs ih =>
    obtain ⟨m', folded, held⟩ := ih (holds.store narrow v)
    refine ⟨m', ?_, ?_⟩
    · rw [foldl_cons, add_assoc, folded, length_cons]
      congr 2
      ring
    · rw [append_assoc] at held
      rw [length_cons, Nat.succ_mul, add_comm (vs.length * k), ← add_assoc]
      exact held

end Memory
