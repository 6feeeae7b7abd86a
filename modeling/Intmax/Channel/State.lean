import Mathlib.Data.Fintype.Pi
import Intmax.Contracts.Evm
import Intmax.Channel.Regev

/-! # States of a channel

A balance state has a row of ciphertexts and a row of addition counters for each member slot, one
position for each token.  `validate` is what every state has to pass before anybody signs it.
-/

namespace Intmax.Channel

open Checked Hashing Trees Validity

def maxChannelMembers : Nat := 1024

def maxHomoAddsBeforeRefresh : Nat := 64

def burnChannelId : ChannelId := 0xFFFFFFFF

/-- One value for each token position. -/
abbrev TokenRow (α : Type) := Fin maxChannelTokens → α

/-- One value for each member slot. -/
abbrev Slots (α : Type) := Fin maxChannelMembers → α

inductive ChannelError where
  | invalidChannelRecord (reason : String)
  | invalidSignatureSet (reason : String)
  | invalidBalanceState (reason : String)
  | invalidInterChannelTx (reason : String)
  | panic

instance : ToString ChannelError where
  toString
    | .invalidChannelRecord reason => "invalid channel record: " ++ reason
    | .invalidSignatureSet reason => "invalid signature set: " ++ reason
    | .invalidBalanceState reason => "invalid balance state: " ++ reason
    | .invalidInterChannelTx reason => "invalid inter-channel tx: " ++ reason
    | .panic => "panic"

structure BalanceState (B : Type) where
  channelId : ChannelId
  memberCount : BitVec 8
  delegateCount : BitVec 16
  encBalances : List (TokenRow RegevCiphertext)
  regevPkDigests : Slots B
  recipients : Slots Address
  settledTxChain : B
  settledTxAccumulatorRoot : B
  stateVersion : BitVec 64
  pendingAdds : List (TokenRow (BitVec 32))
  tokenRegistry : TokenRow (BitVec 32)
  tokenCount : BitVec 8
deriving DecidableEq

namespace BalanceState

variable {D B : Type} [Hashing D B]

/-! ## Hashing -/

def balanceSlotLeafDomainV2 : Nat := 0x494d5332

def balanceStateDomainV2 : Nat := 0x494d4232

/-- `balance_slot_leaf_hash` of a slot.  The source keeps the hashes of zero ciphertexts and of
    padding slots in a cache; they are the same values. -/
def slotLeafHash (D : Type) {B : Type} [Hashing D B] (state : BalanceState B)
    (slot : Fin maxChannelMembers) : Option D := do
  let row ← state.encBalances[slot.val]?
  let adds ← state.pendingAdds[slot.val]?
  let digests ← (List.finRange maxChannelTokens).mapM fun t => (row t).digest D
  some (hashInputs ([.elem balanceSlotLeafDomainV2, .bytes (state.regevPkDigests slot)] ++
    digests.map .bytes ++ (List.finRange maxChannelTokens).map (fun t => u32Item (adds t)) ++
    addressItems (state.recipients slot)))

/-- One level of a tree from the level below. -/
def pairUp : List D → List D
  | a :: b :: rest => twoToOne a b :: pairUp rest
  | _ => []

/-- The rows of a state that has all its slots. -/
structure FullSize (state : BalanceState B) : Prop where
  rows : state.encBalances.length = maxChannelMembers
  counters : state.pendingAdds.length = maxChannelMembers

instance (state : BalanceState B) : Decidable state.FullSize :=
  decidable_of_iff (state.encBalances.length = maxChannelMembers ∧
    state.pendingAdds.length = maxChannelMembers)
    ⟨fun sizes => ⟨sizes.1, sizes.2⟩, fun full => ⟨full.rows, full.counters⟩⟩

/-- `slot_leaf_hashes`: the number of rows is asserted, and a ciphertext without a digest panics. -/
def slotLeafHashes (D : Type) {B : Type} [Hashing D B] (state : BalanceState B) :
    Option (List D) :=
  if state.FullSize then (List.finRange maxChannelMembers).mapM (state.slotLeafHash D) else none

theorem slotLeafHashes_eq_some {state : BalanceState B} {leaves : List D} :
    state.slotLeafHashes D = some leaves ↔ state.FullSize ∧
      (List.finRange maxChannelMembers).mapM (state.slotLeafHash D) = some leaves := by
  rw [slotLeafHashes]
  split <;> simp [*]

def slotTreeRoot (D : Type) {B : Type} [Hashing D B] (state : BalanceState B) : Option D := do
  let leaves ← state.slotLeafHashes D
  (pairUp^[10] leaves).head?

def h1 (D : Type) {B : Type} [Hashing D B] (state : BalanceState B) : Option B := do
  let root ← state.slotTreeRoot D
  some (ofDigest (hashInputs (
    [.elem balanceStateDomainV2, u32Item state.channelId, .elem state.memberCount.toNat,
      .elem state.delegateCount.toNat, .elem state.tokenCount.toNat] ++
    (List.finRange maxChannelTokens).map (fun t => u32Item (state.tokenRegistry t)) ++
    [.digest root, .bytes state.settledTxChain, .bytes state.settledTxAccumulatorRoot] ++
    u64Items state.stateVersion) : D))

/-! ## Validation -/

/-- The slots in use: members first, delegates after them. -/
def active (state : BalanceState B) : Nat := state.memberCount.toNat + state.delegateCount.toNat

/-- A ciphertext is canonical, and zero in padding slots and at inactive tokens. -/
def validateCiphertext (state : BalanceState B) (index : Nat) (t : Fin maxChannelTokens)
    (ct : RegevCiphertext) : Except ChannelError Unit := do
  ct.validate.mapError fun err =>
    .invalidBalanceState s!"enc_balances[{index}][{t.val}] is not canonical: {err}"
  revertIf (state.active ≤ index ∧ ct ≠ .padding) (.invalidBalanceState
    (s!"enc_balances[{index}][{t.val}] is a padding slot (>= member_count+delegate_count " ++
      s!"{state.active}) and must be the canonical zero ciphertext"))
  revertIf (state.tokenCount.toNat ≤ t.val ∧ ct ≠ .padding) (.invalidBalanceState
    (s!"enc_balances[{index}][{t.val}] is an inactive token position (>= token_count " ++
      s!"{state.tokenCount.toNat}) and must be the canonical zero ciphertext (TM-8)"))

/-- A counter is in the budget, and zero in padding slots and at inactive tokens. -/
def validateAdds (state : BalanceState B) (index : Nat) (t : Fin maxChannelTokens)
    (adds : BitVec 32) : Except ChannelError Unit := do
  revertIf (maxHomoAddsBeforeRefresh < adds.toNat) (.invalidBalanceState
    (s!"pending_adds[{index}][{t.val}] = {adds.toNat} exceeds MAX_HOMO_ADDS_BEFORE_REFRESH = " ++
      s!"{maxHomoAddsBeforeRefresh}"))
  revertIf (state.active ≤ index ∧ adds ≠ 0) (.invalidBalanceState
    (s!"pending_adds[{index}][{t.val}] is a padding slot (>= member_count+delegate_count " ++
      s!"{state.active}) and must be 0"))
  revertIf (state.tokenCount.toNat ≤ t.val ∧ adds ≠ 0) (.invalidBalanceState
    (s!"pending_adds[{index}][{t.val}] is an inactive token position (>= token_count " ++
      s!"{state.tokenCount.toNat}) and must be 0 (TM-8/TM-13)"))

def validateRegistry (state : BalanceState B) : Except ChannelError Unit := do
  let tokenCount := state.tokenCount.toNat
  (List.finRange maxChannelTokens).forM fun i =>
    (List.finRange maxChannelTokens).forM fun j =>
      revertIf (i < j ∧ j.val < tokenCount ∧ state.tokenRegistry i = state.tokenRegistry j)
        (.invalidBalanceState
          (s!"token_registry[{i.val}] == token_registry[{j.val}] == " ++
            s!"{(state.tokenRegistry i).toNat} (active registry must be injective on base " ++
            "token_index, TM-1)"))
  (List.finRange maxChannelTokens).forM fun t =>
    revertIf (tokenCount ≤ t.val ∧ state.tokenRegistry t ≠ 0) (.invalidBalanceState
      (s!"token_registry[{t.val}] is an inactive position (>= token_count {tokenCount}) and " ++
        "must be zero-padded"))

def validate (D : Type) {B : Type} [Hashing D B] [DecidableEq B] (state : BalanceState B) :
    Except ChannelError Unit := do
  revertIf (state.encBalances.length ≠ maxChannelMembers ∨
      state.pendingAdds.length ≠ maxChannelMembers) (.invalidBalanceState
    (s!"enc_balances/pending_adds must have exactly MAX_CHANNEL_MEMBERS = {maxChannelMembers} " ++
      s!"slot rows (got {state.encBalances.length} / {state.pendingAdds.length})"))
  let tokenCount := state.tokenCount.toNat
  revertIf (tokenCount < 1 ∨ maxChannelTokens < tokenCount) (.invalidBalanceState
    s!"token_count {tokenCount} out of range (must be 1..={maxChannelTokens})")
  state.validateRegistry
  let count := state.memberCount.toNat
  revertIf (count < 2 ∨ maxSigCluster < count) (.invalidBalanceState
    s!"member_count {count} out of range (must be 2..={maxSigCluster} cosigners)")
  revertIf (maxChannelMembers < state.active) (.invalidBalanceState
    (s!"member_count {count} + delegate_count {state.delegateCount.toNat} exceeds " ++
      s!"MAX_CHANNEL_MEMBERS = {maxChannelMembers}"))
  state.encBalances.zipIdx.forM fun (row, index) =>
    (List.finRange maxChannelTokens).forM fun t => state.validateCiphertext index t (row t)
  (List.finRange maxChannelMembers).forM fun index =>
    revertIf (state.active ≤ index.val ∧ state.regevPkDigests index ≠ zeroBytes D)
      (.invalidBalanceState
        (s!"regev_pk_digests[{index.val}] is a padding slot (>= member_count+delegate_count " ++
          s!"{state.active}) and must be Bytes32::default()"))
  (List.finRange maxChannelMembers).forM fun index => do
    revertIf (index.val < state.active ∧ state.recipients index = 0) (.invalidBalanceState
      (s!"recipients[{index.val}] is an ACTIVE slot (< member_count+delegate_count " ++
        s!"{state.active}) and must be a NONZERO L1 exit address (B-1b)"))
    revertIf (state.active ≤ index.val ∧ state.recipients index ≠ 0) (.invalidBalanceState
      (s!"recipients[{index.val}] is a padding slot (>= member_count+delegate_count " ++
        s!"{state.active}) and must be Address::default()"))
  state.pendingAdds.zipIdx.forM fun (row, index) =>
    (List.finRange maxChannelTokens).forM fun t => state.validateAdds index t (row t)

/-! ## Registering a token -/

/-- Additions of counters wrap around. -/
def applyTokenRegister (state : BalanceState B) (tokenIndex : BitVec 32) :
    Except ChannelError (BalanceState B) :=
  let count := state.tokenCount.toNat
  if room : count < maxChannelTokens then do
    revertIf (∃ t : Fin maxChannelTokens, t.val < count ∧ state.tokenRegistry t = tokenIndex)
      (.invalidBalanceState
        (s!"TokenRegister: base token_index {tokenIndex.toNat} already registered (active " ++
          "registry must stay injective, TM-1)"))
    pure
      { state with
        tokenRegistry := Function.update state.tokenRegistry ⟨count, room⟩ tokenIndex
        tokenCount := state.tokenCount + 1
        stateVersion := state.stateVersion + 1 }
  else
    .error (.invalidBalanceState
      (s!"TokenRegister: registry full (token_count {count} == MAX_CHANNEL_TOKENS = " ++
        s!"{maxChannelTokens})"))

def verifyTokenRegisterTransition [DecidableEq B] (prev next : BalanceState B)
    (tokenIndex : BitVec 32) : Except ChannelError Unit := do
  let expected ← prev.applyTokenRegister tokenIndex
  revertIf (next ≠ expected) (.invalidBalanceState
    ("TokenRegister: next state is not prev + append(token_index) (registry must be append-only " ++
      "at token_count with balances untouched, TM-1)"))

end BalanceState

/-! ## Records and states -/

structure ChannelRecord (B : Type) where
  channelId : ChannelId
  memberCount : BitVec 8
  delegateCount : BitVec 16
  memberPkGs : Slots B
  bpMemberSlot : BitVec 8
  regevPkRoot : B
deriving DecidableEq

def ChannelRecord.validate (D : Type) {B : Type} [Hashing D B] [DecidableEq B]
    (record : ChannelRecord B) : Except ChannelError Unit := do
  revertIf (record.regevPkRoot = zeroBytes D) (.invalidChannelRecord
    "regev_pk_root must be set (zero root would unanchor the member Regev keys)")
  revertIf (record.channelId = burnChannelId) (.invalidChannelRecord
    "channel_id equals reserved BURN_CHANNEL_ID (partial-withdrawal burn destination)")
  let count := record.memberCount.toNat
  revertIf (count < 2 ∨ maxSigCluster < count) (.invalidChannelRecord
    s!"member_count {count} out of range (must be 2..={maxSigCluster})")
  revertIf (count ≤ record.bpMemberSlot.toNat) (.invalidChannelRecord
    s!"bp_member_slot {record.bpMemberSlot.toNat} out of range (must be < member_count {count})")
  let active := count + record.delegateCount.toNat
  revertIf (maxChannelMembers < active) (.invalidChannelRecord
    (s!"member_count {count} + delegate_count {record.delegateCount.toNat} exceeds " ++
      s!"MAX_CHANNEL_MEMBERS = {maxChannelMembers}"))
  (List.finRange maxChannelMembers).forM fun i => do
    revertIf (i.val < active ∧ record.memberPkGs i = zeroBytes D) (.invalidChannelRecord
      s!"member_pk_gs[{i.val}] (active) must be nonzero")
    revertIf (i.val < active ∧
        ∃ j : Fin maxChannelMembers, i < j ∧ j.val < active ∧
        record.memberPkGs i = record.memberPkGs j)
      (.invalidChannelRecord "active member_pk_gs must be pairwise distinct")
    revertIf (active ≤ i.val ∧ record.memberPkGs i ≠ zeroBytes D) (.invalidChannelRecord
      (s!"member_pk_gs[{i.val}] is a padding slot (>= member_count+delegate_count {active}) and " ++
        "must be Bytes32::default()"))

structure ChannelFund (B : Type) where
  channelId : ChannelId
  amounts : TokenRow U256
  intmaxStateRoot : B
deriving DecidableEq

structure MemberSignature (B : Type) where
  memberSlot : BitVec 8
  pkG : B
  signature : List (BitVec 8)
deriving DecidableEq

structure ChannelState (B : Type) where
  channelId : ChannelId
  epoch : BitVec 64
  smallBlockNumber : BitVec 64
  closeFreezeNonce : BitVec 64
  channelFund : ChannelFund B
  balanceState : BalanceState B
  h2Tag : B
  sharedNativeNullifierRoot : B
  unallocatedConfirmedIncoming : U256
  prevDigest : B
  digest : B
  memberSignatures : List (MemberSignature B)
deriving DecidableEq

namespace ChannelState

variable {D B : Type} [Hashing D B]

def signingDigest (D : Type) {B : Type} [Hashing D B] (state : ChannelState B) : Option B := do
  let h1 ← state.balanceState.h1 D
  some (keccak (D := D) (
    [.elem channelStateDomain, u32Item state.channelId] ++ u64Items state.epoch ++
    u64Items state.smallBlockNumber ++ u64Items state.closeFreezeNonce ++
    [u32Item state.channelFund.channelId] ++
    ((List.finRange maxChannelTokens).flatMap fun t => u256Items (state.channelFund.amounts t)) ++
    [.bytes state.channelFund.intmaxStateRoot, .bytes h1, .bytes state.sharedNativeNullifierRoot] ++
    u256Items state.unallocatedConfirmedIncoming ++ [.bytes state.prevDigest, .bytes state.h2Tag] ++
    u64Items state.balanceState.stateVersion))

def withComputedDigest (D : Type) {B : Type} [Hashing D B] (state : ChannelState B) :
    Option (ChannelState B) := do
  let digest ← state.signingDigest D
  some { state with digest }

/-- `token_register_next_state`. -/
def tokenRegisterNextState (D : Type) {B : Type} [Hashing D B] (prev : ChannelState B)
    (tokenIndex : BitVec 32) : Except ChannelError (ChannelState B) := do
  let balanceState ← prev.balanceState.applyTokenRegister tokenIndex
  getOrRevert (withComputedDigest D
    { prev with
      epoch := prev.epoch + 1
      balanceState
      h2Tag := zeroBytes D
      prevDigest := prev.digest
      memberSignatures := [] }) .panic

end ChannelState

/-! ## Signatures -/

def falconCosignBlobBytes : Nat := 1690

section
variable {D B : Type} [Hashing D B] [DecidableEq B]

def validateMemberSignatureSlots (D : Type) {B : Type} [Hashing D B] [DecidableEq B]
    (record : ChannelRecord B) (signatures : List (MemberSignature B)) :
    Except ChannelError Unit := do
  record.validate D
  let count := record.memberCount.toNat
  revertIf (signatures.length ≠ count) (.invalidSignatureSet
    s!"expected {count} member signatures (member_count), got {signatures.length}")
  signatures.zipIdx.forM fun (actual, slot) => do
    revertIf (actual.memberSlot.toNat ≠ slot) (.invalidSignatureSet
      s!"signature {slot} has member_slot {actual.memberSlot.toNat}, expected {slot}")
    revertIf (∀ i : Fin maxChannelMembers, i.val = slot → actual.pkG ≠ record.memberPkGs i)
      (.invalidSignatureSet
        s!"signature pubkey hash at slot {slot} does not match the channel member")
    revertIf (actual.signature = []) (.invalidSignatureSet "signature bytes must not be empty")

def validateAllMemberSignatures (D : Type) {B : Type} [Hashing D B] [DecidableEq B]
    (record : ChannelRecord B) (signatures : List (MemberSignature B)) :
    Except ChannelError Unit := do
  validateMemberSignatureSlots D record signatures
  signatures.zipIdx.forM fun (actual, slot) =>
    revertIf (actual.signature.length ≠ falconCosignBlobBytes) (.invalidSignatureSet
      (s!"signature at slot {slot} is {actual.signature.length} bytes, expected the fixed " ++
        s!"Falcon cosign encoding ({falconCosignBlobBytes} bytes)"))

end

end Intmax.Channel
