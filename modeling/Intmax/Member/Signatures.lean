import Intmax.Channel.Accepted

/-! # Signatures and exit kits of a member

What a member's commands share: the errors they stop with, the receipt of a verified exit kit, and
the check that all registered keys have signed a state.
-/

namespace Intmax.Member

open Checked Hashing Trees Channel Validity

inductive StateSigningPurpose where
  | genesis
  | delegateJoin
  | inChannelSend
  | inChannelBatch
  | balanceRefresh
  | interChannelDebit
  | interChannelFundImport
  | interChannelBundleApply
  | burnDebit
  | tokenRegister
  /-- Retired; only old ledgers carry it. -/
  | l1DepositFundImport
  | l1DepositImport
  | closeFunding
deriving DecidableEq

def signerExitKitReceiptSchemaVersion : BitVec 32 := 1

structure SignerExitKitReceipt (B : Type) where
  schemaVersion : BitVec 32
  archiveSha256 : BitVec 256
  balanceVerifierDataSha256 : BitVec 256
  chainId : BitVec 64
  rollup : Address
  sourceSignedHeadDigest : B
  channelId : ChannelId
  settledTxChain : B
  tokenFundsDigest : B
deriving DecidableEq

/-- Where a member's commands stop.  `message` carries the texts that name only constants. -/
inductive MemberError where
  | message (text : String)
  | signature (slot : Nat) (text : String)

abbrev Guard := Except MemberError Unit

/-! ## Exit kits -/

section
variable {D B : Type} [Hashing D B] [DecidableEq B]

def tokenFundsDigestDomain : Nat := 0x494d5446

/-- `token_funds_digest`. -/
def tokenFundsDigest (D : Type) {B : Type} [Hashing D B] (registry : TokenRow (BitVec 32))
    (tokenCount : BitVec 8) (amounts : TokenRow U256) : B :=
  keccak (D := D) ([.elem tokenFundsDigestDomain] ++
    (List.finRange maxChannelTokens).map (fun t => u32Item (registry t)) ++
    [.elem tokenCount.toNat] ++
    (List.finRange maxChannelTokens).flatMap fun t => u256Items (amounts t))

/-- The statement that an exit kit proves. -/
def exitKitStatementKey (D : Type) {B : Type} [Hashing D B] (state : ChannelState B) :
    ChannelId × B × B :=
  (state.channelId, state.balanceState.settledTxChain,
    tokenFundsDigest D state.balanceState.tokenRegistry state.balanceState.tokenCount
      state.channelFund.amounts)

def SignerExitKitReceipt.key (receipt : SignerExitKitReceipt B) : ChannelId × B × B :=
  (receipt.channelId, receipt.settledTxChain, receipt.tokenFundsDigest)

def validateExitKitReceiptForHead (D : Type) {B : Type} [Hashing D B] [DecidableEq B]
    (receipt : SignerExitKitReceipt B) (head : ChannelState B) : Guard := do
  revertIf (receipt.schemaVersion ≠ signerExitKitReceiptSchemaVersion)
    (.message "signer exit-kit receipt schema is not supported")
  revertIf (receipt.archiveSha256 = 0 ∨ receipt.balanceVerifierDataSha256 = 0 ∨
      receipt.chainId = 0 ∨ receipt.rollup = 0 ∨ receipt.sourceSignedHeadDigest = zeroBytes D)
    (.message "signer exit-kit receipt contains a zero security binding")
  revertIf (receipt.key ≠ exitKitStatementKey D head)
    (.message "signer exit-kit receipt does not compose with the durable head")

/-! ## Signatures -/

/-- `member_pk_gs[slot]`; outside of the array the program panics. -/
def pkAt (record : ChannelRecord B) (slot : Nat) : Option B :=
  if inside : slot < maxChannelMembers then some (record.memberPkGs ⟨slot, inside⟩) else none

structure MemberKeys (B : Type) where
  pkG : B
  regevSk : RegevSk

/-- Keys, signatures and ciphertexts, as the libraries outside compute them. -/
structure Crypto (B : Type) where
  keysFor : BitVec 64 → MemberKeys B
  verifyStateSig : B → B → List (BitVec 8) → Except String Unit
  decrypt : RegevSk → RegevCiphertext → List Nat

/-- The check of one registered key's signature on a digest. -/
def verifySignatureAt (crypto : Crypto B) (record : ChannelRecord B) (slot : Nat) (digest : B)
    (signature : MemberSignature B) : Guard := do
  let expectedPkG ← getOrRevert (pkAt record slot) (.message "panic")
  revertIf (signature.pkG ≠ expectedPkG) (.signature slot "signature pubkey hash mismatch")
  (crypto.verifyStateSig expectedPkG digest signature.signature).mapError (.signature slot)

/-- The digest of a state that carries it. -/
def checkedDigest (D : Type) {B : Type} [Hashing D B] [DecidableEq B] (state : ChannelState B) :
    Except MemberError B := do
  let digest ← getOrRevert (state.signingDigest D) (.message "panic")
  revertIf (state.digest ≠ digest)
    (.message "state.digest does not match recomputed signing_digest()")
  pure digest

def verifyAllSignatures (D : Type) {B : Type} [Hashing D B] [DecidableEq B] (crypto : Crypto B)
    (record : ChannelRecord B) (state : ChannelState B) : Guard := do
  let digest ← checkedDigest D state
  (List.range record.memberCount.toNat).forM fun slot => do
    let signature ← getOrRevert
      (state.memberSignatures.find? fun signature => signature.memberSlot.toNat = slot)
      (.signature slot "missing signature")
    verifySignatureAt crypto record slot digest signature

end

end Intmax.Member
