import Intmax.Lib.Framing
import Intmax.Circuits.Flattening
import Intmax.Channel.Signed

/-! # What members sign

Seven kinds of values have a signing digest.  Proofs, memos and lists of any length are hashed
behind their lengths, so the words of a preimage determine the value; and every kind has a tag of
its own in front, so no digest belongs to two kinds.
-/

namespace Intmax.Channel

open List hiding flatten flatten_append flatten_nil flatten_cons
open Checked Hashing Validity Framing Flattening RegevCiphertext

/-! ## Signed values -/

def signedSmallBlockDomain : Nat := 0x494d5353

def withdrawalClaimDomain : Nat := 0x494d4357

def specialCloseDomain : Nat := 0x494d5343

def cancelCloseDomain : Nat := 0x494d434e

def postCloseClaimDomain : Nat := 0x494d4350

/-- One entry of the signatures in a block. -/
def MemberSignature.items {D B : Type} (signature : MemberSignature B) : List (Item D B) :=
  [.elem signature.memberSlot.toNat, .bytes signature.pkG] ++ bytesItems signature.signature

def SignedSmallBlock.signingDigest (D : Type) {B : Type} [Hashing D B]
    (block : SignedSmallBlock B) : B :=
  keccak (D := D) ([.elem signedSmallBlockDomain, .bytes (block.message.signingDigest D)] ++
    u64Items block.mediumBlockNumber ++ [.elem (block.signatures.length % 2 ^ 32)] ++
    block.signatures.flatMap MemberSignature.items ++ bytesItems block.aggregatedSignatureProof ++
    bytesItems block.confirmationProof)

structure WithdrawalClaim (B : Type) where
  closeIntentDigest : B
  memberPkG : B
  tokenSlot : BitVec 8
  l1Recipient : Address
  userAmountCt : RegevCiphertext
  withdrawalNullifier : B
  claimProof : List (BitVec 8)

def WithdrawalClaim.signingDigest (D : Type) {B : Type} [Hashing D B] (claim : WithdrawalClaim B) :
    Option B := do
  let amount ← claim.userAmountCt.digest D
  some (keccak (D := D) ([.elem withdrawalClaimDomain, .bytes claim.closeIntentDigest,
      .bytes claim.memberPkG, .elem claim.tokenSlot.toNat] ++ addressItems claim.l1Recipient ++
    [.bytes amount, .bytes claim.withdrawalNullifier] ++ bytesItems claim.claimProof))

structure SpecialClose (B : Type) where
  channelId : ChannelId
  offendingBpMemberSlot : BitVec 8
  offendingBpPkG : B
  fullySignedSmallBlockRoot : B
  smallBlockNumber : BitVec 64
  signedMediumBlockNumber : BitVec 64
  latestFinalizedMediumBlockNumber : BitVec 64
  nonInclusionProof : List (BitVec 8)
  aggregatedSignatureProof : List (BitVec 8)

def SpecialClose.signingDigest (D : Type) {B : Type} [Hashing D B] (close : SpecialClose B) : B :=
  keccak (D := D) ([.elem specialCloseDomain, u32Item close.channelId,
      .elem close.offendingBpMemberSlot.toNat, .bytes close.offendingBpPkG,
      .bytes close.fullySignedSmallBlockRoot] ++ u64Items close.smallBlockNumber ++
    u64Items close.signedMediumBlockNumber ++ u64Items close.latestFinalizedMediumBlockNumber ++
    bytesItems close.nonInclusionProof ++ bytesItems close.aggregatedSignatureProof)

structure CancelClose (B : Type) where
  closeIntentDigest : B
  revivedSmallBlockRoot : B
  revivedInterChannelTxDigest : B
  revivedTxHash : B
  revivedSeal : B
  cancelProof : List (BitVec 8)

def CancelClose.signingDigest (D : Type) {B : Type} [Hashing D B] (cancel : CancelClose B) : B :=
  keccak (D := D) ([.elem cancelCloseDomain, .bytes cancel.closeIntentDigest,
      .bytes cancel.revivedSmallBlockRoot, .bytes cancel.revivedInterChannelTxDigest,
      .bytes cancel.revivedTxHash, .bytes cancel.revivedSeal] ++ bytesItems cancel.cancelProof)

structure PostCloseIncomingClaim (B : Type) where
  closeIntentDigest : B
  incomingTxHash : B
  receiverPkG : B
  l1Recipient : Address
  receiverAmount : RegevCiphertext
  sharedNativeNullifier : B
  recipientMemo : List (BitVec 8)
  claimProof : List (BitVec 8)

def PostCloseIncomingClaim.signingDigest (D : Type) {B : Type} [Hashing D B]
    (claim : PostCloseIncomingClaim B) : Option B := do
  let amount ← claim.receiverAmount.digest D
  some (keccak (D := D) ([.elem postCloseClaimDomain, .bytes claim.closeIntentDigest,
      .bytes claim.incomingTxHash, .bytes claim.receiverPkG] ++ addressItems claim.l1Recipient ++
    [.bytes amount, .bytes claim.sharedNativeNullifier] ++ bytesItems claim.recipientMemo ++
    bytesItems claim.claimProof))

/-- A value that a signature is collected over. -/
inductive ChannelMessage (D B : Type) where
  | interChannelTx (tx : InterChannelTx D B)
  | signedSmallBlock (block : SignedSmallBlock B)
  | withdrawalClaim (claim : WithdrawalClaim B)
  | specialClose (close : SpecialClose B)
  | cancelClose (cancel : CancelClose B)
  | postCloseIncomingClaim (claim : PostCloseIncomingClaim B)
  | channelState (state : ChannelState B)

namespace ChannelMessage

variable {D B : Type}

/-- No digest for a value with a ciphertext that is not canonical. -/
def signingDigest [Hashing D B] : ChannelMessage D B → Option B
  | .interChannelTx tx => tx.signingDigest
  | .signedSmallBlock block => some (block.signingDigest D)
  | .withdrawalClaim claim => claim.signingDigest D
  | .specialClose close => some (close.signingDigest D)
  | .cancelClose cancel => some (cancel.signingDigest D)
  | .postCloseIncomingClaim claim => claim.signingDigest D
  | .channelState state => state.signingDigest D

/-- The tag in front of the preimage. -/
def domain : ChannelMessage D B → Nat
  | .interChannelTx _ => interChannelTxDomainV5
  | .signedSmallBlock _ => signedSmallBlockDomain
  | .withdrawalClaim _ => withdrawalClaimDomain
  | .specialClose _ => specialCloseDomain
  | .cancelClose _ => cancelCloseDomain
  | .postCloseIncomingClaim _ => postCloseClaimDomain
  | .channelState _ => channelStateDomain

def SameKind : ChannelMessage D B → ChannelMessage D B → Prop
  | .interChannelTx _, .interChannelTx _ => True
  | .signedSmallBlock _, .signedSmallBlock _ => True
  | .withdrawalClaim _, .withdrawalClaim _ => True
  | .specialClose _, .specialClose _ => True
  | .cancelClose _, .cancelClose _ => True
  | .postCloseIncomingClaim _, .postCloseIncomingClaim _ => True
  | .channelState _, .channelState _ => True
  | _, _ => False

/-- The seven tags are different. -/
theorem sameKind_of_domain {m m' : ChannelMessage D B} (same : m.domain = m'.domain) :
    m.SameKind m' := by
  cases m <;> cases m' <;> first
    | trivial
    | simp [domain, interChannelTxDomainV5, signedSmallBlockDomain, withdrawalClaimDomain,
        specialCloseDomain, cancelCloseDomain, postCloseClaimDomain, channelStateDomain] at same

/-- The byte strings of a value, other than those that its digest leaves out. -/
def byteStrings : ChannelMessage D B → List (List (BitVec 8))
  | .interChannelTx tx => [tx.recipientMemo, tx.channelUpdateZkp.proof, tx.transportProof]
  | .signedSmallBlock block =>
    [block.aggregatedSignatureProof, block.confirmationProof] ++ block.signatures.map (·.signature)
  | .withdrawalClaim claim => [claim.claimProof]
  | .specialClose close => [close.nonInclusionProof, close.aggregatedSignatureProof]
  | .cancelClose cancel => [cancel.cancelProof]
  | .postCloseIncomingClaim claim => [claim.recipientMemo, claim.claimProof]
  | .channelState _ => []

/-- Two values of one kind that agree on all that is signed.  A transfer is signed without its
    inclusion proof and without what its block holds beside the message, a state without its own
    digest and signatures, and with the hash of its balances for the balances. -/
def Agrees [Hashing D B] : ChannelMessage D B → ChannelMessage D B → Prop
  | .interChannelTx tx, .interChannelTx tx' =>
    tx'.signedSmallBlock.message = tx.signedSmallBlock.message ∧
      tx' = { tx with
        txInclusionProof := tx'.txInclusionProof, signedSmallBlock := tx'.signedSmallBlock }
  | .signedSmallBlock block, .signedSmallBlock block' => block' = block
  | .withdrawalClaim claim, .withdrawalClaim claim' => claim' = claim
  | .specialClose close, .specialClose close' => close' = close
  | .cancelClose cancel, .cancelClose cancel' => cancel' = cancel
  | .postCloseIncomingClaim claim, .postCloseIncomingClaim claim' => claim' = claim
  | .channelState s, .channelState s' =>
    s'.balanceState.h1 D = s.balanceState.h1 D ∧
      s'.balanceState.stateVersion = s.balanceState.stateVersion ∧
      s' = { s with
        balanceState := s'.balanceState, digest := s'.digest
        memberSignatures := s'.memberSignatures }
  | _, _ => False

end ChannelMessage

/-! ## Byte strings -/

theorem bytesToU32Words_length : ∀ bytes : List (BitVec 8),
    (bytesToU32Words bytes).length = (bytes.length + 3) / 4
  | [] => rfl
  | [_] => by simp [bytesToU32Words]
  | [_, _] => by simp [bytesToU32Words]
  | [_, _, _] => by simp [bytesToU32Words]
  | _ :: _ :: _ :: _ :: rest => by
    simp [bytesToU32Words, bytesToU32Words_length rest]
    omega

/-- The padding of the last word is known from the length. -/
theorem bytesToU32Words_injective : ∀ {bytes bytes' : List (BitVec 8)},
    bytes.length = bytes'.length → bytesToU32Words bytes = bytesToU32Words bytes' →
      bytes = bytes'
  | [], [], _, _ => rfl
  | [a], [a'], _, same => by
    simp [bytesToU32Words] at same
    rw [BitVec.eq_of_toNat_eq (x := a) (y := a') (by omega)]
  | [a, b], [a', b'], _, same => by
    simp [bytesToU32Words] at same
    rw [BitVec.eq_of_toNat_eq (x := a) (y := a') (by omega),
      BitVec.eq_of_toNat_eq (x := b) (y := b') (by omega)]
  | [a, b, c], [a', b', c'], _, same => by
    simp [bytesToU32Words] at same
    rw [BitVec.eq_of_toNat_eq (x := a) (y := a') (by omega),
      BitVec.eq_of_toNat_eq (x := b) (y := b') (by omega),
      BitVec.eq_of_toNat_eq (x := c) (y := c') (by omega)]
  | a :: b :: c :: d :: rest, a' :: b' :: c' :: d' :: rest', length, same => by
    simp [bytesToU32Words] at same
    simp at length
    obtain ⟨word, words⟩ := same
    rw [BitVec.eq_of_toNat_eq (x := a) (y := a') (by omega),
      BitVec.eq_of_toNat_eq (x := b) (y := b') (by omega),
      BitVec.eq_of_toNat_eq (x := c) (y := c') (by omega),
      BitVec.eq_of_toNat_eq (x := d) (y := d') (by omega),
      bytesToU32Words_injective length words]

section
variable {D B W : Type} [Hashing D B] {f : Flattening B W}

/-- A length that is not cut off. -/
def Short (bytes : List (BitVec 8)) : Prop := bytes.length < 2 ^ 32

theorem bytesItems_flatten (bytes : List (BitVec 8)) : f.flatten (bytesItems (D := D) bytes) =
    f.word (bytes.length % 2 ^ 32) :: (bytesToU32Words bytes).map f.word := by
  simp [bytesItems, ofItem]

theorem bytesItems_length {bytes : List (BitVec 8)} (short : Short bytes) :
    (f.flatten (bytesItems (D := D) bytes)).length ≤ 2 ^ 30 + 1 := by
  have bound : bytes.length < 2 ^ 32 := short
  rw [bytesItems_flatten, length_cons, length_map, bytesToU32Words_length]
  omega

theorem bytesItems_framed : Framed Short fun bytes => f.flatten (bytesItems (D := D) bytes) := by
  have lengths {bytes bytes' : List (BitVec 8)} (short : Short bytes) (short' : Short bytes')
      (same : f.word (bytes.length % 2 ^ 32) = f.word (bytes'.length % 2 ^ 32)) :
      bytes.length = bytes'.length := by
    rw [← Nat.mod_eq_of_lt (show bytes.length < 2 ^ 32 from short), f.word_injective same,
      Nat.mod_eq_of_lt (show bytes'.length < 2 ^ 32 from short')]
  simp only [bytesItems_flatten]
  refine Framed.sized (fun bytes bytes' short short' same => ?_)
    fun bytes bytes' short short' same words => ?_
  · simp [bytesToU32Words_length, lengths short short' same]
  · exact bytesToU32Words_injective (lengths short short' same)
      (map_injective_iff.mpr f.word_injective words)

/-- The last byte string of a preimage. -/
theorem bytesItems_last {bytes bytes' : List (BitVec 8)} (short : Short bytes)
    (short' : Short bytes')
    (same : f.flatten (bytesItems (D := D) bytes) =
      f.flatten (bytesItems (D := D) bytes')) : bytes = bytes' := by
  have words : f.flatten (bytesItems (D := D) bytes) ++ [] =
      f.flatten (bytesItems (D := D) bytes') ++ [] := by rw [same]
  exact (bytesItems_framed short short' words).1

/-! ## Lists -/

theorem MemberSignature.items_framed :
    Framed (fun signature : MemberSignature B => Short signature.signature)
      fun signature => f.flatten (signature.items (D := D)) := by
  intro signature signature' rest rest' short short' same
  simp only [MemberSignature.items, flatten_append, append_assoc] at same
  obtain ⟨front, same⟩ := flatten_append_inj same (by repeat constructor)
  obtain ⟨blob, rests⟩ := bytesItems_framed (D := D) short short' same
  simp at front
  refine ⟨?_, rests⟩
  cases signature
  cases signature'
  simp
  exact ⟨BitVec.eq_of_toNat_eq front.1, front.2, blob⟩

theorem MemberSignature.items_length (signature : MemberSignature B) :
    10 ≤ (f.flatten (signature.items (D := D))).length := by
  simp only [MemberSignature.items, flatten_append, flatten_cons, flatten_nil, ofItem,
    bytesItems_flatten, length_append, length_cons, length_ofFn, length_nil]
  omega

/-- The words of one delta in a transfer. -/
def IsDelta (items : List (Item D B)) : Prop :=
  ∃ receiver key amount, items = [.bytes receiver, .bytes key, .bytes amount]

theorem isDelta_framed : Framed IsDelta (f.flatten (D := D)) := by
  rintro _ _ rest rest' ⟨receiver, key, amount, rfl⟩ ⟨receiver', key', amount', rfl⟩ same
  exact flatten_append_inj same (by repeat constructor)

variable {items : List (Item D B)}

theorem isDelta_length (delta : IsDelta items) : 24 ≤ (f.flatten items).length := by
  obtain ⟨receiver, key, amount, rfl⟩ := delta
  simp [ofItem]

theorem deltaItems_isDelta {delta : ReceiverBalanceDelta B}
    (found : InterChannelTx.deltaItems delta = some items) : IsDelta items := by
  simp [InterChannelTx.deltaItems, Option.bind_eq_some_iff] at found
  obtain ⟨amount, -, rfl⟩ := found
  exact ⟨_, _, _, rfl⟩

theorem deltaItems_injective (injective : KeccakInjective D) {delta delta' : ReceiverBalanceDelta B}
    (found : InterChannelTx.deltaItems delta = some items)
    (found' : InterChannelTx.deltaItems delta' = some items) : delta = delta' := by
  simp [InterChannelTx.deltaItems, Option.bind_eq_some_iff] at found found'
  obtain ⟨amount, hashed, rfl⟩ := found
  obtain ⟨amount', hashed', same⟩ := found'
  simp at same
  obtain ⟨receiver, key, rfl⟩ := same
  cases delta
  cases delta'
  simp
  exact ⟨receiver.symm, key.symm, digest_injective injective hashed hashed'⟩

theorem TransitionProofRole.code_injective : Function.Injective TransitionProofRole.code := by
  intro role role' same
  cases role <;> cases role' <;> first | rfl | cases same

theorem ProofBackend.code_injective : Function.Injective ProofBackend.code := by
  intro backend backend' same
  cases backend <;> cases backend' <;> first | rfl | cases same

theorem ChannelProofEnvelope.toDigestWords_framed :
    Framed (fun envelope : ChannelProofEnvelope => Short envelope.proof)
      fun envelope => f.flatten (envelope.toDigestWords (D := D)) := by
  intro envelope envelope' rest rest' short short' same
  simp only [ChannelProofEnvelope.toDigestWords, flatten_append, append_assoc] at same
  obtain ⟨front, same⟩ := flatten_append_inj same (by repeat constructor)
  obtain ⟨proof, rests⟩ := bytesItems_framed (D := D) short short' same
  simp at front
  refine ⟨?_, rests⟩
  cases envelope
  cases envelope'
  simp
  exact ⟨TransitionProofRole.code_injective front.1, ProofBackend.code_injective front.2, proof⟩

/-! ## Reading the kinds back -/

theorem SmallBlockRootMessage.signingDigest_injective (injective : KeccakInjective D)
    {message message' : SmallBlockRootMessage B}
    (same : message.signingDigest D = message'.signingDigest D) : message = message' := by
  have preimage := injective _ _ ((((Alike.append
    (.cons rfl (.cons rfl (.cons rfl (.cons rfl .nil)))) (u64Items_alike _ _)).append
      (.cons rfl (.cons rfl (.cons rfl .nil)))).append
      (u64Items_alike _ _)).append (u64Items_alike _ _)) same
  obtain ⟨front, nonce⟩ := append_inj' preimage rfl
  obtain ⟨front, hint⟩ := append_inj' front rfl
  obtain ⟨front, roots⟩ := append_inj' front rfl
  obtain ⟨front, number⟩ := append_inj' front rfl
  simp at front roots
  obtain ⟨channel, slot, producer⟩ := front
  obtain ⟨previous, txs, states⟩ := roots
  cases message
  cases message'
  simp
  exact ⟨u32Item_injective channel, BitVec.eq_of_toNat_eq slot, producer,
    u64Items_injective number, previous, txs, states, u64Items_injective hint,
    u64Items_injective nonce⟩

section
variable (injective : f.KeccakInjective D)
include injective

theorem CancelClose.signingDigest_injective {cancel cancel' : CancelClose B}
    (short : Short cancel.cancelProof) (short' : Short cancel'.cancelProof)
    (same : cancel.signingDigest D = cancel'.signingDigest D) : cancel = cancel' := by
  have words := injective _ _ same
  simp only [flatten_append] at words
  obtain ⟨front, words⟩ := flatten_append_inj words (by repeat constructor)
  have proof := bytesItems_last short short' words
  simp at front
  obtain ⟨intent, root, tx, hash, sealed⟩ := front
  cases cancel
  cases cancel'
  simp
  exact ⟨intent, root, tx, hash, sealed, proof⟩

theorem SpecialClose.signingDigest_injective {close close' : SpecialClose B}
    (short : Short close.nonInclusionProof ∧ Short close.aggregatedSignatureProof)
    (short' : Short close'.nonInclusionProof ∧ Short close'.aggregatedSignatureProof)
    (same : close.signingDigest D = close'.signingDigest D) : close = close' := by
  have words := injective _ _ same
  simp only [flatten_append, append_assoc] at words
  obtain ⟨front, words⟩ := flatten_append_inj words (by repeat constructor)
  obtain ⟨number, words⟩ := flatten_append_inj words (u64Items_alike _ _)
  obtain ⟨signed, words⟩ := flatten_append_inj words (u64Items_alike _ _)
  obtain ⟨finalized, words⟩ := flatten_append_inj words (u64Items_alike _ _)
  obtain ⟨inclusion, words⟩ := bytesItems_framed short.1 short'.1 words
  have aggregated := bytesItems_last short.2 short'.2 words
  simp at front
  obtain ⟨channel, slot, producer, root⟩ := front
  cases close
  cases close'
  simp
  exact ⟨u32Item_injective channel, BitVec.eq_of_toNat_eq slot, producer, root, u64Items_injective
    number, u64Items_injective signed, u64Items_injective finalized, inclusion, aggregated⟩

variable {digest : B}

theorem WithdrawalClaim.signingDigest_injective {claim claim' : WithdrawalClaim B}
    (short : Short claim.claimProof) (short' : Short claim'.claimProof)
    (found : claim.signingDigest D = some digest) (found' : claim'.signingDigest D = some digest) :
    claim = claim' := by
  simp only [WithdrawalClaim.signingDigest, Option.bind_eq_bind, Option.bind_eq_some_iff,
    Option.some.injEq] at found found'
  obtain ⟨amount, hashed, rfl⟩ := found
  obtain ⟨amount', hashed', same⟩ := found'
  have words := injective _ _ same.symm
  simp only [flatten_append, append_assoc] at words
  obtain ⟨front, words⟩ := flatten_append_inj words (by repeat constructor)
  obtain ⟨recipient, words⟩ := flatten_append_inj words (addressItems_alike _ _)
  obtain ⟨middle, words⟩ := flatten_append_inj words (by repeat constructor)
  have proof := bytesItems_last short short' words
  simp at front middle
  obtain ⟨intent, key, slot⟩ := front
  obtain ⟨rfl, nullifier⟩ := middle
  cases claim
  cases claim'
  simp
  exact ⟨intent, key, BitVec.eq_of_toNat_eq slot, addressItems_injective recipient,
    digest_injective injective.alike hashed hashed', nullifier, proof⟩

theorem PostCloseIncomingClaim.signingDigest_injective {claim claim' : PostCloseIncomingClaim B}
    (short : Short claim.recipientMemo ∧ Short claim.claimProof)
    (short' : Short claim'.recipientMemo ∧ Short claim'.claimProof)
    (found : claim.signingDigest D = some digest) (found' : claim'.signingDigest D = some digest) :
    claim = claim' := by
  simp only [PostCloseIncomingClaim.signingDigest, Option.bind_eq_bind, Option.bind_eq_some_iff,
    Option.some.injEq] at found found'
  obtain ⟨amount, hashed, rfl⟩ := found
  obtain ⟨amount', hashed', same⟩ := found'
  have words := injective _ _ same.symm
  simp only [flatten_append, append_assoc] at words
  obtain ⟨front, words⟩ := flatten_append_inj words (by repeat constructor)
  obtain ⟨recipient, words⟩ := flatten_append_inj words (addressItems_alike _ _)
  obtain ⟨middle, words⟩ := flatten_append_inj words (by repeat constructor)
  obtain ⟨memo, words⟩ := bytesItems_framed short.1 short'.1 words
  have proof := bytesItems_last short.2 short'.2 words
  simp at front middle
  obtain ⟨intent, tx, key⟩ := front
  obtain ⟨rfl, nullifier⟩ := middle
  cases claim
  cases claim'
  simp
  exact ⟨intent, tx, key, addressItems_injective recipient,
    digest_injective injective.alike hashed hashed', nullifier, memo, proof⟩

theorem SignedSmallBlock.signingDigest_injective {block block' : SignedSmallBlock B}
    (short : Short block.aggregatedSignatureProof ∧ Short block.confirmationProof ∧
      ∀ signature ∈ block.signatures, Short signature.signature)
    (short' : Short block'.aggregatedSignatureProof ∧ Short block'.confirmationProof ∧
      ∀ signature ∈ block'.signatures, Short signature.signature)
    (same : block.signingDigest D = block'.signingDigest D) : block = block' := by
  have words := injective _ _ same
  simp only [flatten_append, append_assoc] at words
  obtain ⟨front, words⟩ := flatten_append_inj words (by repeat constructor)
  obtain ⟨number, words⟩ := flatten_append_inj words (u64Items_alike _ _)
  obtain ⟨count, words⟩ := flatten_append_inj words (by repeat constructor)
  simp at front count
  -- The two proofs behind the signatures are too short for another 2^32 entries.
  have tail {block : SignedSmallBlock B} (short : Short block.aggregatedSignatureProof ∧
      Short block.confirmationProof ∧ ∀ signature ∈ block.signatures,
      Short signature.signature) :
      (f.flatten (bytesItems (D := D) block.aggregatedSignatureProof) ++
        f.flatten (bytesItems (D := D) block.confirmationProof)).length < 10 * 2 ^ 32 := by
    have first := bytesItems_length (f := f) (D := D) short.1
    have second := bytesItems_length (f := f) (D := D) short.2.1
    rw [length_append]
    omega
  have split (signatures : List (MemberSignature B)) : f.flatten (signatures.flatMap
      (MemberSignature.items (D := D))) = signatures.flatMap fun signature => f.flatten
      (signature.items (D := D)) := flatMap_assoc
  rw [split, split] at words
  obtain ⟨signatures, words⟩ := MemberSignature.items_framed.counted
    (fun signature _ => signature.items_length) short.2.2 short'.2.2 (tail short)
    (tail short') count words
  obtain ⟨aggregated, words⟩ := bytesItems_framed short.1 short'.1 words
  have confirmation := bytesItems_last short.2.1 short'.2.1 words
  cases block
  cases block'
  simp
  exact ⟨SmallBlockRootMessage.signingDigest_injective injective.alike front,
    signatures, aggregated, u64Items_injective number, confirmation⟩

/-- The traversal of the deltas, as the list of their items. -/
theorem deltas_inj {deltas deltas' : List (ReceiverBalanceDelta B)}
    {items items' : List (List (Item D B))} {rest rest' : List W}
    (found : deltas.mapM InterChannelTx.deltaItems = some items)
    (found' : deltas'.mapM InterChannelTx.deltaItems = some items')
    (room : rest.length < 24 * 2 ^ 32) (room' : rest'.length < 24 * 2 ^ 32)
    (count : deltas.length % 2 ^ 32 = deltas'.length % 2 ^ 32)
    (same : f.flatten items.flatten ++ rest = f.flatten items'.flatten ++ rest') :
    deltas = deltas' ∧ rest = rest' := by
  have each {deltas : List (ReceiverBalanceDelta B)} {items : List (List (Item D B))}
      (found : deltas.mapM InterChannelTx.deltaItems = some items) :
      ∀ entry ∈ items, IsDelta entry := by
    intro entry member
    obtain ⟨delta, -, hashed⟩ := mapM_option_mem found member
    exact deltaItems_isDelta hashed
  have split (items : List (List (Item D B))) :
      f.flatten items.flatten = items.flatMap f.flatten := by
    rw [flatMap_def, flatten, flatMap_def, map_flatten, flatten_flatten, map_map]
    rfl
  rw [split, split] at same
  rw [← mapM_option_length found, ← mapM_option_length found'] at count
  obtain ⟨rfl, rests⟩ := isDelta_framed.counted (fun _ => isDelta_length)
    (each found) (each found') room room' count same
  exact ⟨mapM_option_injective (deltaItems_injective injective.alike) found found', rests⟩

theorem InterChannelTx.signingDigest_injective {tx tx' : InterChannelTx D B}
    (short : Short tx.recipientMemo ∧ Short tx.channelUpdateZkp.proof ∧ Short tx.transportProof)
    (short' : Short tx'.recipientMemo ∧ Short tx'.channelUpdateZkp.proof ∧
      Short tx'.transportProof)
    (found : tx.signingDigest = some digest) (found' : tx'.signingDigest = some digest) :
    tx'.signedSmallBlock.message = tx.signedSmallBlock.message ∧
      tx' = { tx with
        txInclusionProof := tx'.txInclusionProof, signedSmallBlock := tx'.signedSmallBlock } := by
  simp only [InterChannelTx.signingDigest, Option.bind_eq_bind, Option.bind_eq_some_iff,
    Option.some.injEq] at found found'
  obtain ⟨delta, hashed, items, all, rfl⟩ := found
  obtain ⟨delta', hashed', items', all', same⟩ := found'
  have words := injective _ _ same
  simp only [flatten_append, append_assoc] at words
  obtain ⟨front, words⟩ := flatten_append_inj words (by repeat constructor)
  obtain ⟨memo, words⟩ := bytesItems_framed short'.1 short.1 words
  obtain ⟨count, behind⟩ := flatten_append_inj words (by repeat constructor)
  simp at front count
  obtain ⟨message, rfl, source, destination, token, nonce, salt, key, sealed, hash,
      commitment⟩ :=
    front
  -- The two proofs behind the deltas are too short for another 2^32 entries.
  have tail {tx : InterChannelTx D B} (short : Short tx.recipientMemo ∧
      Short tx.channelUpdateZkp.proof ∧ Short tx.transportProof) :
      (f.flatten (tx.channelUpdateZkp.toDigestWords (D := D)) ++
        f.flatten (bytesItems (D := D) tx.transportProof)).length < 24 * 2 ^ 32 := by
    have first := bytesItems_length (f := f) (D := D) short.2.1
    have second := bytesItems_length (f := f) (D := D) short.2.2
    simp only [ChannelProofEnvelope.toDigestWords, flatten_append, length_append]
    have codes : (f.flatten [Item.elem (D := D) tx.channelUpdateZkp.role.code,
        .elem tx.channelUpdateZkp.backend.code]).length = 2 := by
      simp [ofItem]
    omega
  obtain ⟨deltas, words⟩ := deltas_inj injective all' all (tail short')
    (tail short) count behind
  obtain ⟨envelope, words⟩ := ChannelProofEnvelope.toDigestWords_framed short'.2.1
    short.2.1 words
  have transport := bytesItems_last short'.2.2 short.2.2 words
  refine ⟨SmallBlockRootMessage.signingDigest_injective injective.alike message, ?_⟩
  have ciphertext := digest_injective injective.alike hashed' hashed
  cases tx
  cases tx'
  simp
  exact ⟨ciphertext, u32Item_injective source, u32Item_injective destination,
    u32Item_injective token, u32Item_injective nonce, ofDigest_injective salt, key, sealed, hash,
    commitment, memo, deltas, envelope, transport⟩

end

/-! ## Across the kinds -/

/-- The tag is the first item of every preimage. -/
theorem ChannelMessage.signingDigest_domain {m : ChannelMessage D B} {digest : B}
    (found : m.signingDigest = some digest) :
    ∃ rest, keccak (D := D) (.elem m.domain :: rest) = digest := by
  cases m with
  | interChannelTx tx =>
    simp [ChannelMessage.signingDigest, InterChannelTx.signingDigest, Option.bind_eq_some_iff]
      at found
    obtain ⟨_, _, _, _, hashed⟩ := found
    exact ⟨_, hashed⟩
  | signedSmallBlock block => exact ⟨_, Option.some.inj found⟩
  | withdrawalClaim claim =>
    simp [ChannelMessage.signingDigest, WithdrawalClaim.signingDigest, Option.bind_eq_some_iff]
      at found
    obtain ⟨_, _, hashed⟩ := found
    exact ⟨_, hashed⟩
  | specialClose close => exact ⟨_, Option.some.inj found⟩
  | cancelClose cancel => exact ⟨_, Option.some.inj found⟩
  | postCloseIncomingClaim claim =>
    simp [ChannelMessage.signingDigest, PostCloseIncomingClaim.signingDigest,
      Option.bind_eq_some_iff] at found
    obtain ⟨_, _, hashed⟩ := found
    exact ⟨_, hashed⟩
  | channelState state =>
    simp [ChannelMessage.signingDigest, ChannelState.signingDigest, Option.bind_eq_some_iff]
      at found
    obtain ⟨_, _, hashed⟩ := found
    exact ⟨_, hashed⟩

theorem ChannelMessage.domain_eq (injective : f.KeccakInjective D) {m m' : ChannelMessage D B}
    {digest : B} (found : m.signingDigest = some digest) (found' : m'.signingDigest = some digest) :
    m.domain = m'.domain := by
  obtain ⟨rest, hashed⟩ := ChannelMessage.signingDigest_domain found
  obtain ⟨rest', hashed'⟩ := ChannelMessage.signingDigest_domain found'
  have words := injective _ _ (hashed.trans hashed'.symm)
  exact f.word_injective (cons.inj words).1

theorem channel_signatures_bind (injective : f.KeccakInjective D) {m m' : ChannelMessage D B}
    {digest : B} (short : ∀ bytes ∈ m.byteStrings, bytes.length < 2 ^ 32)
    (short' : ∀ bytes ∈ m'.byteStrings, bytes.length < 2 ^ 32)
    (found : m.signingDigest = some digest) (found' : m'.signingDigest = some digest) :
    m.Agrees m' := by
  have kind := ChannelMessage.sameKind_of_domain (ChannelMessage.domain_eq injective found found')
  cases m <;> cases m' <;> try exact kind.elim
  all_goals simp [ChannelMessage.byteStrings] at short short'
  case interChannelTx.interChannelTx =>
    exact InterChannelTx.signingDigest_injective injective short short' found found'
  case signedSmallBlock.signedSmallBlock =>
    cases found
    exact SignedSmallBlock.signingDigest_injective injective short' short (Option.some.inj found')
  case withdrawalClaim.withdrawalClaim =>
    exact WithdrawalClaim.signingDigest_injective injective short' short found' found
  case specialClose.specialClose =>
    cases found
    exact SpecialClose.signingDigest_injective injective short' short (Option.some.inj found')
  case cancelClose.cancelClose =>
    cases found
    exact CancelClose.signingDigest_injective injective short' short (Option.some.inj found')
  case postCloseIncomingClaim.postCloseIncomingClaim =>
    exact PostCloseIncomingClaim.signingDigest_injective injective short' short found' found
  case channelState.channelState =>
    obtain ⟨⟨h1, hashed, hashed'⟩, version, fields⟩ :=
      ChannelState.signingDigest_fields injective.alike found found'
    exact ⟨hashed'.trans hashed.symm, version, fields⟩

section
variable (D)

/-- A transfer of nothing, with an inclusion proof that is not signed. -/
def emptyTransfer (siblings : List B) : InterChannelTx D B where
  txInclusionProof := { siblings, leafIndex := 0 }
  signedSmallBlock :=
    { message :=
        { channelId := 1, bpMemberSlot := 0, bpPkG := zeroBytes D, smallBlockNumber := 0
          prevSmallBlockRoot := zeroBytes D, txTreeRoot := zeroBytes D
          stateCommitmentRoot := zeroBytes D, mediumEpochHint := 0, closeFreezeNonce := 0 }
      signatures := [], aggregatedSignatureProof := [], mediumBlockNumber := 0
      confirmationProof := [] }
  senderDeltaCt := .padding
  sourceChannelId := 1
  destinationChannelId := 2
  tokenIndex := 0
  baseNonce := 0
  destinationBaseTransferSalt := zeroDigest
  sourcePkG := zeroBytes D
  «seal» := zeroBytes D
  txHash := zeroBytes D
  intmaxTransferCommitment := zeroBytes D
  recipientMemo := [7]
  receiverDeltas := []
  channelUpdateZkp := { role := .channelStateUpdate, backend := .plonky3, proof := [1, 2, 3, 4, 5] }
  transportProof := []

end

/-- Two transfers that differ in their inclusion proofs have one digest. -/
theorem channel_signatures_bind_transfer :
    (emptyTransfer Free.Digest [.word 1]).txInclusionProof ≠
        (emptyTransfer Free.Digest []).txInclusionProof ∧
      (ChannelMessage.interChannelTx (emptyTransfer Free.Digest [])).Agrees
        (.interChannelTx (emptyTransfer Free.Digest [Free.Bytes.word 1])) := by
  obtain ⟨digest, hashed⟩ := Option.isSome_iff_exists.mp
    (digest_isSome (D := Free.Digest) padding_validate)
  have found (siblings : List Free.Bytes) : ∃ digest,
      (emptyTransfer Free.Digest siblings).signingDigest = some digest ∧
        (emptyTransfer Free.Digest []).signingDigest = some digest := by
    simp [InterChannelTx.signingDigest, emptyTransfer, hashed]
  obtain ⟨signed, first, second⟩ := found [.word 1]
  have short (siblings : List Free.Bytes) :
      ∀ bytes ∈ (ChannelMessage.interChannelTx
        (emptyTransfer Free.Digest siblings)).byteStrings, bytes.length < 2 ^ 32 := by
    simp [ChannelMessage.byteStrings, emptyTransfer]
  exact ⟨by simp [emptyTransfer],
    channel_signatures_bind Free.flattening_keccakInjective (short _) (short _) second first⟩

end

end Intmax.Channel
