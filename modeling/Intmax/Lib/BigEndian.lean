import Mathlib.Data.List.GetD
import Mathlib.Data.List.Induction
import Mathlib.Tactic.Ring

/-! # Fixed-width big-endian bytes

`encode n v` is the `n`-byte big-endian image of `v`, its high bytes dropped when
`v` does not fit.  Below `256 ^ n` the encoding is injective, and two encodings of
the same width can be compared field by field inside a longer packed string.
`decode` reads a string back, and `window` cuts a zero-padded string out of a longer one.
-/

namespace BigEndian

open List

/-- The `n` low bytes of `v`, most significant first. -/
def encode : Nat → Nat → List UInt8
  | 0, _ => []
  | n + 1, v => encode n (v / 256) ++ [UInt8.ofNat (v % 256)]

@[simp] theorem length_encode (n v : Nat) : (encode n v).length = n := by
  induction n generalizing v with
  | zero => rfl
  | succ n ih => simp [encode, ih]

variable {n v off : Nat} {xs ys : List UInt8}

theorem encode_inj {w : Nat} (hv : v < 256 ^ n) (hw : w < 256 ^ n)
    (same : encode n v = encode n w) : v = w := by
  induction n generalizing v w with
  | zero => simp at hv hw; omega
  | succ n ih =>
    obtain ⟨high, low⟩ := append_inj' same rfl
    have highEq : v / 256 = w / 256 := by
      apply ih _ _ high
      · rw [pow_succ] at hv; omega
      · rw [pow_succ] at hw; omega
    have lowEq : v % 256 = w % 256 := by
      have bytes := congrArg UInt8.toNat (cons.inj low).1
      simpa [UInt8.toNat_ofNat] using bytes
    omega

/-- The bytes of a bit vector of `n` bytes. -/
def ofBitVec (n : Nat) (x : BitVec (8 * n)) : List UInt8 := encode n x.toNat

@[simp] theorem length_ofBitVec (x : BitVec (8 * n)) : (ofBitVec n x).length = n :=
  length_encode _ _

theorem ofBitVec_inj {x y : BitVec (8 * n)} (same : ofBitVec n x = ofBitVec n y) : x = y := by
  have bound (z : BitVec (8 * n)) : z.toNat < 256 ^ n := by
    have := z.isLt
    rwa [pow_mul] at this
  exact BitVec.eq_of_toNat_eq (encode_inj (bound x) (bound y) same)

/-- Packed fields are read back one at a time when their widths agree. -/
theorem append_inj_of_width {x y : BitVec (8 * n)} {rest rest' : List UInt8}
    (same : ofBitVec n x ++ rest = ofBitVec n y ++ rest') : x = y ∧ rest = rest' := by
  obtain ⟨field, tail⟩ := append_inj same (by simp)
  exact ⟨ofBitVec_inj field, tail⟩

/-! ## Reading bytes -/

/-- The value of a byte string, most significant byte first. -/
def decode (bytes : List UInt8) : Nat := bytes.foldl (fun v b => v * 256 + b.toNat) 0

@[simp] theorem decode_nil : decode [] = 0 := rfl

theorem decode_snoc (bytes : List UInt8) (b : UInt8) :
    decode (bytes ++ [b]) = decode bytes * 256 + b.toNat := by
  simp [decode]

theorem decode_append (xs ys : List UInt8) :
    decode (xs ++ ys) = decode xs * 256 ^ ys.length + decode ys := by
  induction ys using reverseRecOn with
  | nil => simp
  | append_singleton ys b ih =>
    rw [← append_assoc, decode_snoc, ih, decode_snoc, length_append, length_singleton, pow_succ]
    ring

theorem decode_lt (bytes : List UInt8) : decode bytes < 256 ^ bytes.length := by
  induction bytes using reverseRecOn with
  | nil => simp
  | append_singleton bytes b ih =>
    have low := b.toNat_lt
    rw [decode_snoc, length_append, length_singleton, pow_succ]
    omega

theorem decode_zeros (n : Nat) : decode (replicate n 0) = 0 := by
  induction n with
  | zero => rfl
  | succ n ih => rw [replicate_succ', decode_snoc, ih]; rfl

theorem decode_cons_zero (bytes : List UInt8) : decode (0 :: bytes) = decode bytes := rfl

theorem decode_encode (fits : v < 256 ^ n) : decode (encode n v) = v := by
  induction n generalizing v with
  | zero => simp at fits; simp [encode, fits]
  | succ n ih =>
    have low : (UInt8.ofNat (v % 256)).toNat = v % 256 := by simp
    rw [encode, decode_snoc, ih (by rw [pow_succ] at fits; omega), low]
    omega

/-- Strings of one length are determined by their values. -/
theorem decode_inj (length : xs.length = ys.length) (same : decode xs = decode ys) : xs = ys := by
  induction xs using reverseRecOn generalizing ys with
  | nil => exact (length_eq_zero_iff.mp length.symm).symm
  | append_singleton xs b ih =>
    rcases eq_nil_or_concat ys with rfl | ⟨init, c, rfl⟩
    · simp at length
    · rw [concat_eq_append] at length same ⊢
      have low := b.toNat_lt
      have low' := c.toNat_lt
      rw [decode_snoc, decode_snoc] at same
      have last : b = c := UInt8.toNat_inj.mp (by omega)
      rw [ih (by simpa using length) (by omega), last]

/-- The `n` bytes from `off` on, zero past the end. -/
def window (bytes : List UInt8) (off n : Nat) : List UInt8 :=
  (List.range n).map fun k => bytes.getD (off + k) 0

@[simp] theorem length_window (bytes : List UInt8) (off n : Nat) :
    (window bytes off n).length = n := by
  simp [window]

theorem window_add (bytes : List UInt8) (off m n : Nat) :
    window bytes off (m + n) = window bytes off m ++ window bytes (off + m) n := by
  simp [window, range_add, add_assoc]

@[simp] theorem window_self (bytes : List UInt8) : window bytes 0 bytes.length = bytes := by
  apply ext_getElem
  · simp
  · intro k inside inside'
    simp [window, inside']

theorem window_congr {off' : Nat} (same : ∀ k < n, xs.getD (off + k) 0 = ys.getD (off' + k) 0) :
    window xs off n = window ys off' n := by
  apply map_congr_left
  intro k member
  exact same k (mem_range.mp member)

/-- Past the end there is nothing to read. -/
theorem window_of_le {bytes : List UInt8} (past : bytes.length ≤ off) (n : Nat) :
    window bytes off n = replicate n 0 := by
  apply eq_replicate_iff.mpr
  refine ⟨length_window .., ?_⟩
  intro b member
  obtain ⟨k, -, rfl⟩ := mem_map.mp member
  exact getD_eq_default _ _ (by omega)

/-- Cutting a value at a byte boundary keeps its leading bytes. -/
theorem decode_append_div (xs ys : List UInt8) :
    decode (xs ++ ys) / 256 ^ ys.length = decode xs := by
  have low := decode_lt ys
  rw [decode_append, mul_comm, Nat.mul_add_div (by omega), Nat.div_eq_of_lt low, add_zero]

end BigEndian
