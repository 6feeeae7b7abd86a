import Intmax.Lib.BigEndian

/-! # Numbers as 32-bit words

`split n v` is the `n`-word big-endian image of `v`, its high words dropped when `v` does not
fit, and `join` reads words back.  The bytes of the words are the bytes of the number, so a
stream of words and a packed byte string can be compared field by field.
-/

namespace Words

open BigEndian List

/-- The `n` low 32-bit words of `v`, most significant first. -/
def split : Nat → Nat → List Nat
  | 0, _ => []
  | n + 1, v => split n (v / 2 ^ 32) ++ [v % 2 ^ 32]

/-- The value of a list of words, most significant word first. -/
def join (words : List Nat) : Nat := words.foldl (fun v w => v * 2 ^ 32 + w) 0

/-- Each word as four big-endian bytes. -/
def bytes (words : List Nat) : List UInt8 := words.flatMap (encode 4)

@[simp] theorem length_split (n v : Nat) : (split n v).length = n := by
  induction n generalizing v with
  | zero => rfl
  | succ n ih => simp [split, ih]

theorem lt_of_mem_split {n v w : Nat} (member : w ∈ split n v) : w < 2 ^ 32 := by
  induction n generalizing v with
  | zero => cases member
  | succ n ih =>
    rw [split, mem_append, mem_singleton] at member
    rcases member with high | rfl
    · exact ih high
    · exact Nat.mod_lt _ (by decide)

theorem join_snoc (words : List Nat) (w : Nat) : join (words ++ [w]) = join words * 2 ^ 32 + w := by
  simp [join]

theorem join_split {n v : Nat} (fits : v < 2 ^ (32 * n)) : join (split n v) = v := by
  induction n generalizing v with
  | zero => rw [mul_zero, pow_zero, Nat.lt_one_iff] at fits; rw [fits]; rfl
  | succ n ih =>
    rw [Nat.mul_succ, pow_add] at fits
    rw [split, join_snoc, ih (Nat.div_lt_of_lt_mul (by rwa [mul_comm]))]
    omega

theorem join_lt {words : List Nat} (small : ∀ w ∈ words, w < 2 ^ 32) :
    join words < 2 ^ (32 * words.length) := by
  induction words using reverseRecOn with
  | nil => exact one_pos
  | append_singleton words w ih =>
    have last := small w (mem_append_right _ (mem_singleton_self w))
    have front := ih fun w member => small w (mem_append_left _ member)
    rw [join_snoc, length_append, length_singleton, Nat.mul_succ, pow_add]
    omega

/-- Words are the words of their value. -/
theorem split_join {words : List Nat} (small : ∀ w ∈ words, w < 2 ^ 32) :
    split words.length (join words) = words := by
  induction words using reverseRecOn with
  | nil => rfl
  | append_singleton words w ih =>
    have last := small w (mem_append_right _ (mem_singleton_self w))
    have front := ih fun w member => small w (mem_append_left _ member)
    rw [join_snoc, length_append, length_singleton, split,
      show (join words * 2 ^ 32 + w) / 2 ^ 32 = join words by omega,
      show (join words * 2 ^ 32 + w) % 2 ^ 32 = w by omega, front]

theorem split_inj {n v w : Nat} (hv : v < 2 ^ (32 * n)) (hw : w < 2 ^ (32 * n))
    (same : split n v = split n w) : v = w := by
  rw [← join_split hv, same, join_split hw]

/-- Word `i` of `n` is the value shifted down by the words after it. -/
theorem split_eq_map (n v : Nat) :
    split n v = (range n).map fun i => (v >>> (32 * (n - 1 - i))) % 2 ^ 32 := by
  induction n generalizing v with
  | zero => rfl
  | succ n ih =>
    rw [split, ih, range_succ, map_append, map_singleton]
    congr 1
    · apply map_congr_left
      intro i member
      have below := mem_range.mp member
      rw [show n + 1 - 1 - i = n - 1 - i + 1 by omega, Nat.mul_succ, add_comm,
        Nat.shiftRight_add, Nat.shiftRight_eq_div_pow v 32]
    · simp

/-! ## Bytes of words -/

@[simp] theorem bytes_nil : bytes [] = [] := rfl

@[simp] theorem bytes_cons (w : Nat) (words : List Nat) :
    bytes (w :: words) = encode 4 w ++ bytes words := rfl

@[simp] theorem bytes_append (xs ys : List Nat) : bytes (xs ++ ys) = bytes xs ++ bytes ys :=
  flatMap_append

theorem encode_add (m n v : Nat) :
    encode (m + n) v = encode m (v / 256 ^ n) ++ encode n v := by
  induction n generalizing v with
  | zero => simp [encode]
  | succ n ih =>
    rw [← add_assoc, encode, ih, encode, Nat.div_div_eq_div_mul, pow_succ, mul_comm, append_assoc]

/-- The low bytes of a value do not see what lies above them. -/
theorem encode_mod (n v : Nat) : encode n (v % 256 ^ n) = encode n v := by
  induction n generalizing v with
  | zero => rfl
  | succ n ih =>
    rw [encode, encode, pow_succ, Nat.mod_mul_left_div_self, ih,
      Nat.mod_mod_of_dvd _ (Dvd.intro_left _ rfl)]

@[simp] theorem bytes_split (n v : Nat) : bytes (split n v) = encode (4 * n) v := by
  induction n generalizing v with
  | zero => rfl
  | succ n ih =>
    rw [split, bytes_append, ih, bytes_cons, bytes_nil, append_nil, Nat.mul_succ, encode_add]
    exact congrArg (_ ++ ·) (encode_mod 4 v)

/-- Items packed at one width are read back item by item. -/
theorem flatMap_inj {α : Type} {pack : α → List UInt8} {width : Nat}
    (fixed : ∀ a, (pack a).length = width) (inj : ∀ a b, pack a = pack b → a = b)
    {xs ys : List α}
    (length : xs.length = ys.length) (same : xs.flatMap pack = ys.flatMap pack) : xs = ys := by
  induction xs generalizing ys with
  | nil =>
    cases ys with
    | nil => rfl
    | cons y ys => cases length
  | cons x xs ih =>
    cases ys with
    | nil => cases length
    | cons y ys =>
      rw [flatMap_cons, flatMap_cons] at same
      obtain ⟨first, later⟩ := append_inj same ((fixed x).trans (fixed y).symm)
      rw [inj x y first, ih (Nat.succ.inj length) later]

end Words
