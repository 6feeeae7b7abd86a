import Intmax.Lib.BigEndian

/-! # Sequences with heads and tails

The layout of a sequence in the ABI of contracts.  An entry of a fixed size stands in the head.  The
others stand in the tail, one after the other, and the head has their offsets from the start of
the sequence.  A reader of entries follows the offsets and tells which places it has read.
-/

namespace HeadTail

open List Option

variable {α : Type}

/-- The bytes of an entry, and whether they stand in the tail. -/
structure Piece where
  dynamic : Bool
  body : List UInt8

def word (n : Nat) : List UInt8 := BigEndian.encode 32 n

@[simp] theorem length_word (n : Nat) : (word n).length = 32 := BigEndian.length_encode 32 n

def headSize : List Piece → Nat
  | [] => 0
  | piece :: rest => (if piece.dynamic then 32 else piece.body.length) + headSize rest

/-- The head, when the next tail has the given offset. -/
def heads : Nat → List Piece → List UInt8
  | _, [] => []
  | offset, piece :: rest =>
    if piece.dynamic then word offset ++ heads (offset + piece.body.length) rest
    else piece.body ++ heads offset rest

def tails : List Piece → List UInt8
  | [] => []
  | piece :: rest => if piece.dynamic then piece.body ++ tails rest else tails rest

def layout (pieces : List Piece) : List UInt8 := heads (headSize pieces) pieces ++ tails pieces

@[simp] theorem length_heads (offset : Nat) (pieces : List Piece) :
    (heads offset pieces).length = headSize pieces := by
  induction pieces generalizing offset with
  | nil => rfl
  | cons piece rest ih =>
    unfold heads headSize
    split
    case isTrue => rw [length_append, length_word, ih]
    case isFalse => rw [length_append, ih]

/-- The offsets of the tails fit into their words. -/
def Addressed : Nat → List Piece → Prop
  | _, [] => True
  | offset, piece :: rest =>
    if piece.dynamic then offset < 256 ^ 32 ∧ Addressed (offset + piece.body.length) rest
    else Addressed offset rest

/-! ## Reading -/

/-- How an entry is read from its first byte on: its value, and the places that were read. -/
structure Reader (α : Type) where
  dynamic : Bool
  size : Nat
  run : List UInt8 → Option (α × List Nat)

def readWord (data : List UInt8) : Option Nat :=
  if 32 ≤ data.length then some (BigEndian.decode (data.take 32)) else none

@[simp] theorem readWord_word {n : Nat} (fits : n < 256 ^ 32) (rest : List UInt8) :
    readWord (word n ++ rest) = some n := by
  have long : 32 ≤ (word n ++ rest).length := by simp
  rw [readWord, if_pos long, take_append_of_le_length (by simp),
    take_of_length_le (by simp), word, BigEndian.decode_encode fits]

/-- The entries whose heads begin at `place` of the sequence. -/
def read (frame : List UInt8) : Nat → List (Reader α) → Option (List α × List Nat)
  | _, [] => some ([], [])
  | place, reader :: rest =>
    (if reader.dynamic then readWord (frame.drop place) else some place).bind fun start =>
    (reader.run (frame.drop start)).bind fun first =>
    (read frame (place + if reader.dynamic then 32 else reader.size) rest).map fun later =>
    (first.1 :: later.1, (if reader.dynamic then List.range' place 32 else []) ++
      first.2.map (start + ·) ++ later.2)

/-- The reader finds the value at the front of any bytes that begin with the body, and reads every
    byte of the body once. -/
def Reads (run : List UInt8 → Option (α × List Nat)) (body : List UInt8) (value : α) : Prop :=
  ∀ rest, ∃ used, run (body ++ rest) = some (value, used) ∧ used.Perm (List.range body.length)

/-- A piece that the reader reads as the value. -/
structure Fits (piece : Piece) (reader : Reader α) (value : α) : Prop where
  dynamic : reader.dynamic = piece.dynamic
  size : piece.dynamic = false → reader.size = piece.body.length
  reads : Reads reader.run piece.body value

theorem range_shift {used : List Nat} {n : Nat} (all : used.Perm (range n)) (start : Nat) :
    (used.map (start + ·)).Perm (range' start n) := by
  rw [range'_eq_map_range]
  exact all.map _

theorem drop_past {frame front rest : List UInt8} {place : Nat}
    (there : frame.drop place = front ++ rest) : frame.drop (place + front.length) = rest := by
  rw [← drop_drop, there, drop_left]

/-- The head of what the readers read. -/
def slots : List (Reader α) → Nat
  | [] => 0
  | reader :: rest => (if reader.dynamic then 32 else reader.size) + slots rest

theorem slots_replicate (n : Nat) (reader : Reader α) :
    slots (replicate n reader) = n * if reader.dynamic then 32 else reader.size := by
  induction n with
  | zero => simp [slots]
  | succ n ih => rw [replicate_succ, slots, ih, Nat.succ_mul, add_comm]

variable {ι : Type} {entries : List ι} {piece : ι → Piece} {reader : ι → Reader α}
  {value : ι → α}

theorem headSize_eq_slots (fits : ∀ entry ∈ entries,
    Fits (piece entry) (reader entry) (value entry)) :
    headSize (entries.map piece) = slots (entries.map reader) := by
  induction entries with
  | nil => rfl
  | cons entry later ih =>
    obtain ⟨here, there⟩ := forall_mem_cons.mp fits
    simp [headSize, slots, ih there, here.dynamic]
    cases fixed : (piece entry).dynamic with
    | false => simp [here.size fixed]
    | true => rfl

theorem tails_of_static (static : ∀ entry ∈ entries, (piece entry).dynamic = false) :
    tails (entries.map piece) = [] := by
  induction entries with
  | nil => rfl
  | cons entry rest ih =>
    obtain ⟨here, there⟩ := forall_mem_cons.mp static
    rw [map_cons, tails, here, ih there]
    rfl

/-- What is laid out is read back, the heads from `place` and the tails from `offset` on. -/
theorem read_heads {frame : List UInt8}
    (fits : ∀ entry ∈ entries, Fits (piece entry) (reader entry) (value entry))
    (place : Nat) {offset : Nat} {more rest : List UInt8}
    (head : frame.drop place = heads offset (entries.map piece) ++ more)
    (tail : frame.drop offset = tails (entries.map piece) ++ rest)
    (addressed : Addressed offset (entries.map piece)) :
    ∃ used, read frame place (entries.map reader) = some (entries.map value, used) ∧
      used.Perm (range' place (headSize (entries.map piece)) ++
        range' offset (tails (entries.map piece)).length) := by
  induction entries generalizing place offset with
  | nil => exact ⟨[], rfl, .nil⟩
  | cons entry later ih =>
    obtain ⟨here, there⟩ := forall_mem_cons.mp fits
    simp only [map_cons, heads, tails, headSize, Addressed] at head tail addressed ⊢
    cases fixed : (piece entry).dynamic with
    | false =>
      simp [fixed, ↓reduceIte] at head tail addressed ⊢
      obtain ⟨first, found, all⟩ := here.reads (heads offset (later.map piece) ++ more)
      obtain ⟨used, run, places⟩ := ih there _ (drop_past head) tail addressed
      simp only [read, here.dynamic, fixed, here.size fixed, Bool.false_eq_true, ↓reduceIte,
        bind_some, head, found, run, map_some, nil_append]
      refine ⟨_, rfl, ((range_shift all place).append places).trans ?_⟩
      rw [← append_assoc, range'_append_1]
    | true =>
      simp [fixed, ↓reduceIte] at head tail addressed ⊢
      obtain ⟨small, later_addressed⟩ := addressed
      obtain ⟨first, found, all⟩ := here.reads (tails (later.map piece) ++ rest)
      have next := drop_past head
      rw [length_word] at next
      obtain ⟨used, run, places⟩ := ih there _ next (drop_past tail) later_addressed
      simp only [read, here.dynamic, fixed, ↓reduceIte, head, readWord_word small, bind_some,
        tail, found, run, map_some]
      refine ⟨_, rfl, (((Perm.refl _).append (range_shift all offset)).append places).trans ?_⟩
      -- the offset word joins the head, the body joins the tail
      rw [← range'_append_1, ← range'_append_1, append_assoc, append_assoc]
      exact (perm_append_comm_assoc _ _ _).append_left _

/-- A sequence is read back, every byte once. -/
theorem reads_layout (fits : ∀ entry ∈ entries, Fits (piece entry) (reader entry) (value entry))
    (addressed : Addressed (headSize (entries.map piece)) (entries.map piece)) :
    Reads (read · 0 (entries.map reader)) (layout (entries.map piece)) (entries.map value) := by
  intro rest
  have tail : (layout (entries.map piece) ++ rest).drop (headSize (entries.map piece)) =
      tails (entries.map piece) ++ rest := by
    rw [layout, append_assoc]
    exact drop_left' (length_heads _ _)
  obtain ⟨used, run, places⟩ := read_heads fits 0 (append_assoc _ _ _) tail addressed
  refine ⟨used, run, places.trans ?_⟩
  rw [layout, length_append, length_heads, range_eq_range', ← range'_append_1, zero_add]

end HeadTail
