import Mathlib.Algebra.Group.Nat.Defs
import Mathlib.Data.List.Basic

/-! # Keccak-256

The hash of the EVM: the sponge over Keccak-f[1600] with a rate of 136 bytes and
the original `0x01` padding.  A state is one natural below `2 ^ 1600`, its lane
`x + 5 * y` at bit `64 * (x + 5 * y)`, so that a step acts on all lanes at once and
a digest evaluates.
-/

namespace Keccak256

def roundConstants : List Nat :=
  [0x0000000000000001, 0x0000000000008082, 0x800000000000808a, 0x8000000080008000,
   0x000000000000808b, 0x0000000080000001, 0x8000000080008081, 0x8000000000008009,
   0x000000000000008a, 0x0000000000000088, 0x0000000080008009, 0x000000008000000a,
   0x000000008000808b, 0x800000000000008b, 0x8000000000008089, 0x8000000000008003,
   0x8000000000008002, 0x8000000000000080, 0x000000000000800a, 0x800000008000000a,
   0x8000000080008081, 0x8000000000008080, 0x0000000080000001, 0x8000000080008008]

/-- For each lane of the rotated and permuted state, its source lane and rotation. -/
def rhoPi : List (Nat × Nat) :=
  [(0, 0), (6, 44), (12, 43), (18, 21), (24, 14),
   (3, 28), (9, 20), (10, 3), (16, 45), (22, 61),
   (1, 1), (7, 6), (13, 25), (19, 8), (20, 18),
   (4, 27), (5, 36), (11, 10), (17, 15), (23, 56),
   (2, 62), (8, 55), (14, 39), (15, 41), (21, 2)]

def laneMask : Nat := 2 ^ 64 - 1
def rowMask : Nat := 2 ^ 320 - 1
def stateMask : Nat := 2 ^ 1600 - 1

/-- One copy of `v` in each of the five lanes of a row. -/
def everyLane (v : Nat) : Nat := v * (1 + 2 ^ 64 + 2 ^ 128 + 2 ^ 192 + 2 ^ 256)

/-- One copy of `v` in each of the five rows of a state. -/
def everyRow (v : Nat) : Nat := v * (1 + 2 ^ 320 + 2 ^ 640 + 2 ^ 960 + 2 ^ 1280)

def rotl (v n : Nat) : Nat := ((v <<< n) &&& laneMask) ||| (v >>> (64 - n))

/-- The five columns' parities, as a row. -/
def parity (a : Nat) : Nat :=
  (a ^^^ (a >>> 320) ^^^ (a >>> 640) ^^^ (a >>> 960) ^^^ (a >>> 1280)) &&& rowMask

/-- Lane `x` of the result is lane `x - 1` xor lane `x + 1` rotated by one bit. -/
def thetaRow (c : Nat) : Nat :=
  let before := ((c <<< 64) &&& rowMask) ||| (c >>> 256)
  let after := (c >>> 64) ||| ((c &&& laneMask) <<< 256)
  let rotated := ((after &&& everyLane (2 ^ 63 - 1)) <<< 1) ||| ((after >>> 63) &&& everyLane 1)
  before ^^^ rotated

def theta (a : Nat) : Nat := a ^^^ everyRow (thetaRow (parity a))

/-- The lanes listed by `moves`, first lane lowest. -/
def permuteLanes (a : Nat) : List (Nat × Nat) → Nat
  | [] => 0
  | (source, n) :: moves =>
    rotl ((a >>> (64 * source)) &&& laneMask) n ||| (permuteLanes a moves <<< 64)

/-- Each lane is xored with the next lane of its row negated and the one after. -/
def chi (b : Nat) : Nat :=
  let next := ((b >>> 64) &&& everyRow (2 ^ 256 - 1)) |||
    ((b &&& everyRow laneMask) <<< 256)
  let second := ((b >>> 128) &&& everyRow (2 ^ 192 - 1)) |||
    ((b &&& everyRow (2 ^ 128 - 1)) <<< 192)
  b ^^^ ((stateMask ^^^ next) &&& second)

/-- Evaluate the state before going on. -/
def force (k : Nat → Nat) : Nat → Nat
  | 0 => k 0
  | n + 1 => k (n + 1)

def keccakF : List Nat → Nat → Nat
  | [], a => a
  | rc :: constants, a =>
    force (fun a => force (fun b => force (keccakF constants) (chi b ^^^ rc))
      (permuteLanes a rhoPi)) (theta a)

/-! ## The sponge -/

def rate : Nat := 136

def littleEndian (bytes : List UInt8) : Nat :=
  bytes.foldr (fun b v => b.toNat + 256 * v) 0

/-- `0x01`, zeros and a last bit `0x80`, up to the next full block. -/
def pad (message : List UInt8) : List UInt8 :=
  let missing := rate - message.length % rate
  message ++ if missing = 1 then [0x81] else 0x01 :: (List.replicate (missing - 2) 0 ++ [0x80])

def absorb : Nat → List UInt8 → Nat → Nat
  | 0, _, a => a
  | n + 1, bytes, a =>
    absorb n (bytes.drop rate)
      (keccakF roundConstants (a ^^^ littleEndian (bytes.take rate)))

/-- The digest read as a big-endian word. -/
def squeeze (a : Nat) : BitVec 256 :=
  BitVec.ofNat 256 ((List.range 32).foldl (fun v i => v * 256 + (a >>> (8 * i)) % 256) 0)

def digest (message : List UInt8) : BitVec 256 :=
  squeeze (absorb (message.length / rate + 1) (pad message) 0)

/-- The digest of the empty string. -/
example : digest [] = 0xc5d2460186f7233c927e7db2dcc703c0e500b653ca82273b7bfad8045d85a470 := by
  decide +kernel

end Keccak256
