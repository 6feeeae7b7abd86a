import Intmax.Validity.PublicState

/-! # Ciphertexts of channel balances

Balances of a channel are Regev ciphertexts.  The verifiers of a channel add ciphertexts, compare
them and check proofs about what they hide; the proofs themselves and the decryption are those of
an outside library.
-/

namespace Intmax.Channel

open Checked Hashing Validity

structure RegevCiphertext where
  c1 : List (BitVec 32)
  c2 : List (BitVec 32)
deriving DecidableEq

structure RegevSk where
  s : List (BitVec 8)
deriving DecidableEq

inductive RegevError where
  | invalidPk (reason : String)
  | invalidSk (reason : String)
  | invalidCiphertext (reason : String)
  | decryptOverflow

instance : ToString RegevError where
  toString
    | .invalidPk reason => "invalid Regev public key: " ++ reason
    | .invalidSk reason => "invalid Regev secret key: " ++ reason
    | .invalidCiphertext reason => "invalid Regev ciphertext: " ++ reason
    | .decryptOverflow => "decrypted value does not fit in u64 (digit/noise budget exceeded?)"

def regevCtDomain : Nat := 0x494d5243

/-- What is small around zero modulo `q`. -/
def degenerateSmallBound : Nat := 2 ^ 20

namespace RegevCiphertext

/-- `RegevCiphertext::padding`, the canonical zero ciphertext. -/
def padding : RegevCiphertext :=
  { c1 := List.replicate regevN 0, c2 := List.replicate regevN 0 }

def validate (ct : RegevCiphertext) : Except RegevError Unit := do
  revertIf (ct.c1.length ≠ regevN ∨ ct.c2.length ≠ regevN)
    (.invalidCiphertext (s!"expected {regevN} coefficients per polynomial, got c1: " ++
      s!"{ct.c1.length}, c2: {ct.c2.length}"))
  match (ct.c1 ++ ct.c2).find? fun c => decide (regevQ ≤ c.toNat) with
  | some c => .error (.invalidCiphertext s!"non-canonical coefficient {c.toNat} (>= q = {regevQ})")
  | none => .ok ()

def rejectKeyIndependent (ct : RegevCiphertext) : Except RegevError Unit := do
  ct.validate
  let small (c : BitVec 32) : Bool :=
    decide (c.toNat ≤ degenerateSmallBound ∨ regevQ - c.toNat ≤ degenerateSmallBound)
  revertIf (ct.c1.all small = true) (.invalidCiphertext
    ("key-independent ciphertext: every centered coefficient of c1 lies within " ++
      s!"±{degenerateSmallBound} (encryption randomness r = 0 or degenerate)"))

/-- The digest of an invalid ciphertext is a panic. -/
def digest (D : Type) {B : Type} [Hashing D B] (ct : RegevCiphertext) : Option B :=
  match ct.validate with
  | .ok () => some (keccak (D := D) ([.elem regevCtDomain, .elem ct.c1.length] ++
      ct.c1.map u32Item ++ ct.c2.map u32Item))
  | .error _ => none

end RegevCiphertext

/-- Coefficients are added modulo `q`. -/
def addPolynomials (x y : List (BitVec 32)) : List (BitVec 32) :=
  List.zipWith (fun a b => BitVec.ofNat 32 ((a.toNat + b.toNat) % regevQ)) x y

def addCiphertexts (a b : RegevCiphertext) : Except RegevError RegevCiphertext := do
  a.validate
  b.validate
  pure { c1 := addPolynomials a.c1 b.c1, c2 := addPolynomials a.c2 b.c2 }

/-- The amount behind the digits that the library decrypts. -/
def amountOfDigits (digits : List Nat) : Except RegevError (BitVec 64) := do
  revertIf ((digits.drop 64).any (· ≠ 0) = true) .decryptOverflow
  let value := ((digits.take 64).zipIdx.map fun (d, i) => d * 2 ^ i).sum
  revertIf (2 ^ 64 ≤ value) .decryptOverflow
  pure (BitVec.ofNat 64 value)

def decryptAmount (decrypt : RegevSk → RegevCiphertext → List Nat) (sk : RegevSk)
    (ct : RegevCiphertext) : Except RegevError (BitVec 64) := do
  revertIf (sk.s.length ≠ regevN)
    (.invalidSk s!"expected {regevN} coefficients, got {sk.s.length}")
  ct.validate
  amountOfDigits (decrypt sk ct)

/-- `RegevPk::validate` with its messages; `RegevPk.validate` only says whether it passes. -/
def validateRegevPk (pk : RegevPk) : Except RegevError Unit := do
  revertIf (pk.a.length ≠ regevN ∨ pk.b.length ≠ regevN) (.invalidPk
    s!"expected {regevN} coefficients per polynomial, got a: {pk.a.length}, b: {pk.b.length}")
  match (pk.a ++ pk.b).find? fun c => decide (regevQ ≤ c.toNat) with
  | some c => .error (.invalidPk s!"non-canonical coefficient {c.toNat} (>= q = {regevQ})")
  | none => .ok ()

def regevPkDomain : Nat := 0x494d524b

def regevPkRootDomain : Nat := 0x494d5252

/-- `RegevPk::digest`, a panic for an invalid key. -/
def regevPkDigest (D : Type) {B : Type} [Hashing D B] (pk : RegevPk) : Option B :=
  if pk.validate then
    some (keccak (D := D) ([.elem regevPkDomain, .elem regevN] ++ pk.a.map u32Item ++
      pk.b.map u32Item))
  else none

def regevPkRoot (D : Type) {B : Type} [Hashing D B] (pks : List RegevPk) : Option B := do
  let digests ← pks.mapM (regevPkDigest D)
  some (keccak (D := D) ([.elem regevPkRootDomain, .elem pks.length] ++ digests.map .bytes))

/-! ## Proofs -/

inductive ProofBackend where
  | plonky2
  | plonky3
deriving DecidableEq

inductive TransitionProofRole where
  | channelStateUpdate
  | intmaxTransport
  | channelCloseSettlement
  | specialCloseSettlement
deriving DecidableEq

structure ChannelProofEnvelope where
  role : TransitionProofRole
  backend : ProofBackend
  proof : List (BitVec 8)
deriving DecidableEq

inductive RegevProofPurpose where
  | withdrawClaim
  | balanceRefresh
  | channelTxDecrypted
  | channelUpdateDecrypted
deriving DecidableEq

inductive RegevStatement where
  | channelTx (senderPk recipientPk : RegevPk) (before encAmount after : RegevCiphertext)
  | channelUpdate (senderPk recipientPk : RegevPk)
      (before after senderDelta receiverDelta : RegevCiphertext) (amount : BitVec 64)
      (tokenIndex : BitVec 32)
  | withdrawClaim (userPk : RegevPk) (userAmountCt : RegevCiphertext) (amount : BitVec 64)
  | balanceRefresh (pk : RegevPk) (oldCt newCt : RegevCiphertext)
deriving DecidableEq

end Intmax.Channel
