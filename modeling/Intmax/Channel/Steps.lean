import Intmax.Channel.Accepted
import Intmax.Lib.Path

/-! # One step of a channel

`Accepts` is one step of a chain of states: some transition verifier accepts it.  What a step can
do is said once: the metadata it links (`Linked`), the positions it changes (`PositionChange`) and
the value it moves (`ValueChange`).
-/

namespace Intmax.Channel

open Checked Hashing Trees Validity BalanceState

/-- The seven kinds of transition with their witnesses. -/
inductive ChannelTransition (D B : Type) where
  | inChannelTransfer (w : InChannelTransferUpdateWitness B)
  | interChannelSend (w : InterChannelSendUpdateWitness D B)
  | interChannelFundImport (w : InterChannelFundImportUpdateWitness D B)
  | l1DepositImport (w : L1DepositImportUpdateWitness B)
  | receiverBundleApply (w : ReceiverBundleApplyUpdateWitness D B)
  | balanceRefresh (w : BalanceRefreshUpdateWitness B)
  | tokenRegister (w : TokenRegisterUpdateWitness B)

variable {D B : Type} [Hashing D B] [DecidableEq B]

namespace ChannelTransition

/-- The record of the channel whose state changes. -/
def record : ChannelTransition D B → ChannelRecord B
  | .inChannelTransfer w => w.channelRecord
  | .interChannelSend w => w.channelRecord
  | .interChannelFundImport w => w.receiverChannelRecord
  | .l1DepositImport w => w.channelRecord
  | .receiverBundleApply w => w.receiverChannelRecord
  | .balanceRefresh w => w.channelRecord
  | .tokenRegister w => w.channelRecord

def prevState : ChannelTransition D B → ChannelState B
  | .inChannelTransfer w => w.prevState
  | .interChannelSend w => w.prevState
  | .interChannelFundImport w => w.prevState
  | .l1DepositImport w => w.prevState
  | .receiverBundleApply w => w.prevState
  | .balanceRefresh w => w.prevState
  | .tokenRegister w => w.prevState

def nextState : ChannelTransition D B → ChannelState B
  | .inChannelTransfer w => w.nextState
  | .interChannelSend w => w.nextState
  | .interChannelFundImport w => w.nextState
  | .l1DepositImport w => w.nextState
  | .receiverBundleApply w => w.nextState
  | .balanceRefresh w => w.nextState
  | .tokenRegister w => w.nextState

def verify [OfLimbs B] (backends : Backends B) : ChannelTransition D B →
    Except ChannelStateUpdateError (ChannelStateUpdatePublicInputs B)
  | .inChannelTransfer w => w.verify D backends
  | .interChannelSend w => w.verify backends
  | .interChannelFundImport w => w.verify backends
  | .l1DepositImport w => w.verify D
  | .receiverBundleApply w => w.verify backends
  | .balanceRefresh w => w.verify D backends
  | .tokenRegister w => w.verify D

/-- The token position that a transition is about. -/
def tokenSlot : ChannelTransition D B → Option (Fin maxChannelTokens)
  | .inChannelTransfer w =>
    (activeTokenSlot w.prevState.balanceState "" w.channelTx.tokenSlot.toNat).toOption
  | .interChannelSend w =>
    (resolveTokenSlot w.prevState.balanceState w.interChannelTx.tokenIndex).toOption
  | .interChannelFundImport w =>
    (resolveTokenSlot w.prevState.balanceState w.interChannelTx.tokenIndex).toOption
  | .l1DepositImport w => (resolveTokenSlot w.prevState.balanceState w.tokenIndex).toOption
  | .receiverBundleApply w =>
    (resolveTokenSlot w.prevState.balanceState w.interChannelTx.tokenIndex).toOption
  | .balanceRefresh w =>
    (activeTokenSlot w.prevState.balanceState "refresh " w.tokenSlot).toOption
  | .tokenRegister _ => none

/-- The slot of a homomorphic addition and the ciphertext that is added. -/
def addition : ChannelTransition D B → Option (Nat × RegevCiphertext)
  | .inChannelTransfer w => some (w.recipientIndex, w.channelTx.encAmount)
  | .receiverBundleApply w =>
    w.interChannelTx.receiverDeltas.head?.map fun delta => (w.recipientIndex, delta.amount)
  | _ => none

/-- The slot whose position is encrypted anew. -/
def freshSlot : ChannelTransition D B → Option Nat
  | .inChannelTransfer w => some w.senderIndex
  | .interChannelSend w =>
    (memberSlotIndex w.channelRecord w.interChannelTx.sourcePkG).toOption.map Fin.val
  | .balanceRefresh w => some w.memberIndex
  | _ => none

/-- The transition adds to the position homomorphically. -/
def Adds (t : ChannelTransition D B) (p : Position) : Prop :=
  t.addition.map Prod.fst = some p.1 ∧ t.tokenSlot = some p.2

/-- The transition encrypts the position anew. -/
def Refreshes (t : ChannelTransition D B) (p : Position) : Prop :=
  t.freshSlot = some p.1 ∧ t.tokenSlot = some p.2

instance (t : ChannelTransition D B) (p : Position) : Decidable (t.Adds p) :=
  inferInstanceAs (Decidable (_ ∧ _))

instance (t : ChannelTransition D B) (p : Position) : Decidable (t.Refreshes p) :=
  inferInstanceAs (Decidable (_ ∧ _))

/-- What a transition takes into the channel without giving it to a member yet: the amount of
    an import or a deposit, less the amount of a bundle that is applied. -/
def unallocated : ChannelTransition D B → Int
  | .interChannelFundImport w => w.amount.toNat
  | .l1DepositImport w => w.amount.toNat
  | .receiverBundleApply w => -w.amount.toNat
  | _ => 0

/-- The same at one token position. -/
def unallocatedAt (t : ChannelTransition D B) (token : Fin maxChannelTokens) : Int :=
  if t.tokenSlot = some token then t.unallocated else 0

end ChannelTransition

/-- One step of a chain of states. -/
def Accepts [OfLimbs B] (backends : Backends B) (s : ChannelState B) (t : ChannelTransition D B)
    (s' : ChannelState B) : Prop :=
  t.prevState = s ∧ t.nextState = s' ∧ ∃ inputs, t.verify backends = .ok inputs

/-! ## What a step links -/

structure Linked (D : Type) {B : Type} [Hashing D B] (record : ChannelRecord B)
    (prev next : ChannelState B) : Prop where
  channelId : next.channelId = prev.channelId
  epoch : next.epoch = prev.epoch + 1
  stateVersion : next.balanceState.stateVersion = prev.balanceState.stateVersion + 1
  closeFreezeNonce : next.closeFreezeNonce = prev.closeFreezeNonce
  memberCount : prev.balanceState.memberCount = record.memberCount ∧
    next.balanceState.memberCount = record.memberCount
  delegateCount : prev.balanceState.delegateCount = record.delegateCount ∧
    next.balanceState.delegateCount = record.delegateCount
  balanceChannelId : prev.balanceState.channelId = prev.channelId ∧
    next.balanceState.channelId = next.channelId ∧ prev.channelId = record.channelId
  recipients : next.balanceState.recipients = prev.balanceState.recipients
  regevPkDigests : next.balanceState.regevPkDigests = prev.balanceState.regevPkDigests
  before : prev.balanceState.Canonical D
  after : next.balanceState.Canonical D

/-- The registry stays, or one token is appended at the token count. -/
def RegistryStep (prev next : BalanceState B) : Prop :=
  (next.tokenRegistry = prev.tokenRegistry ∧ next.tokenCount = prev.tokenCount) ∨
    ∃ (room : prev.tokenCount.toNat < maxChannelTokens) (tokenIndex : BitVec 32),
      (∀ t : Fin maxChannelTokens, t.val < prev.tokenCount.toNat →
        prev.tokenRegistry t ≠ tokenIndex) ∧
      next.tokenRegistry =
        Function.update prev.tokenRegistry ⟨prev.tokenCount.toNat, room⟩ tokenIndex ∧
      next.tokenCount = prev.tokenCount + 1

variable {prev next : ChannelState B} {record : ChannelRecord B}

theorem verifyBalanceStateShared_ok (linkage : verifyStateLinkage D prev next = .ok ())
    (shared : verifyBalanceStateShared D record prev next = .ok ()) :
      Linked D record prev next := by
  obtain ⟨channelId, epoch⟩ := verifyStateLinkage_ok linkage
  simp only [verifyBalanceStateShared, verifyOrdinaryStateMetadata, verifyParticipants, bind_ok,
    mapError_ok, revertIf_ok, exists_unit, validate_ok_iff, not_or, not_not] at shared
  obtain ⟨⟨⟨members, delegates⟩, ⟨members', delegates'⟩, nonce⟩, before,
    after, ids, version, recipients, digests⟩ := shared
  exact
    { channelId, epoch, stateVersion := version, closeFreezeNonce := nonce
      memberCount := ⟨members, members'⟩, delegateCount := ⟨delegates, delegates'⟩
      balanceChannelId := ids, recipients := recipients.symm, regevPkDigests := digests.symm
      before, after }

theorem verifyBalanceStateCommon_ok (linkage : verifyStateLinkage D prev next = .ok ())
    (common : verifyBalanceStateCommon D record prev next = .ok ()) :
    Linked D record prev next ∧ RegistryStep prev.balanceState next.balanceState := by
  simp [verifyBalanceStateCommon] at common
  obtain ⟨shared, registry, count⟩ := common
  exact ⟨verifyBalanceStateShared_ok linkage shared, .inl ⟨registry.symm, count.symm⟩⟩

variable {before after : BalanceState B} {t : ChannelTransition D B} {token : Fin maxChannelTokens}

/-- The balance state after a registration. -/
def BalanceState.registered (state : BalanceState B)
    (room : state.tokenCount.toNat < maxChannelTokens) (tokenIndex : BitVec 32) :
    BalanceState B :=
  { state with
    tokenRegistry := Function.update state.tokenRegistry
      ⟨state.tokenCount.toNat, room⟩ tokenIndex
    tokenCount := state.tokenCount + 1
    stateVersion := state.stateVersion + 1 }

omit [Hashing D B] [DecidableEq B] in
theorem BalanceState.applyTokenRegister_ok {tokenIndex : BitVec 32} :
    before.applyTokenRegister tokenIndex = .ok after ↔
      ∃ room, (∀ t : Fin maxChannelTokens, t.val < before.tokenCount.toNat →
        before.tokenRegistry t ≠ tokenIndex) ∧ after = before.registered room tokenIndex := by
  unfold applyTokenRegister
  by_cases room : before.tokenCount.toNat < maxChannelTokens
  · simp only [room, dif_pos, bind_ok, revertIf_ok, exists_unit, pure_ok, not_exists, not_and,
      exists_true_left, eq_comm (b := after)]
    rfl
  · simp [room]

omit [Hashing D B] in
theorem verifyTokenRegisterTransition_ok {tokenIndex : BitVec 32}
    (accepted : before.verifyTokenRegisterTransition after tokenIndex = .ok ()) :
    RegistryStep before after ∧ ∀ p, after.ct p = before.ct p ∧
      after.adds p = before.adds p := by
  simp only [verifyTokenRegisterTransition, bind_ok, revertIf_ok, not_not] at accepted
  obtain ⟨expected, applied, rfl⟩ := accepted
  obtain ⟨room, unregistered, rfl⟩ := BalanceState.applyTokenRegister_ok.mp applied
  exact ⟨.inr ⟨room, tokenIndex, unregistered, rfl, rfl⟩, fun p => ⟨rfl, rfl⟩⟩

/-! ## What a step changes -/

/-- The positions of a step: one may be added to, one may be encrypted anew, and all others keep
    their ciphertext and their counter. -/
structure PositionChange (t : ChannelTransition D B) (prev next : BalanceState B) : Prop where
  adds : ∀ p, t.Adds p →
    (prev.adds p).toNat < maxHomoAddsBeforeRefresh ∧ next.adds p = prev.adds p + 1
  refreshes : ∀ p, t.Refreshes p → next.adds p = 0
  frame : ∀ p, ¬ t.Adds p → ¬ t.Refreshes p → next.ct p = prev.ct p ∧
    next.adds p = prev.adds p

/-- The value a step moves, by the token, the addition and the fresh slot it names and by the
    amount that becomes unallocated. -/
inductive ValueChange (backends : Backends B) (prev next : ChannelState B) :
    Option (Fin maxChannelTokens) → Option (Nat × RegevCiphertext) →
      Option Nat → Int → Prop
  | transfer {token : Fin maxChannelTokens} {sender recipient : Nat} {delta : RegevCiphertext}
      {senderPk recipientPk : RegevPk} {envelope : ChannelProofEnvelope}
      (inside : sender < maxChannelMembers ∧ recipient < maxChannelMembers)
      (apart : sender ≠ recipient)
      (fund : next.channelFund = prev.channelFund)
      (incoming : next.unallocatedConfirmedIncoming = prev.unallocatedConfirmedIncoming)
      (added : addCiphertexts (prev.balanceState.ct (recipient, token)) delta =
        .ok (next.balanceState.ct (recipient, token)))
      (proved : backends.regev envelope .channelTxDecrypted (.channelTx senderPk recipientPk
        (prev.balanceState.ct (sender, token)) delta (next.balanceState.ct (sender, token))) =
          .ok ()) :
      ValueChange backends prev next (some token) (some (recipient, delta)) (some sender) 0
  | send {token : Fin maxChannelTokens} {sender : Nat} {senderDelta receiverDelta : RegevCiphertext}
      {amount : BitVec 64} {tokenIndex : BitVec 32} {senderPk recipientPk : RegevPk}
      {envelope : ChannelProofEnvelope}
      (inside : sender < maxChannelMembers)
      (fund : (prev.channelFund.amounts token).val =
        (next.channelFund.amounts token).val + amount.toNat)
      (others : ∀ t, t ≠ token → next.channelFund.amounts t = prev.channelFund.amounts t)
      (incoming : next.unallocatedConfirmedIncoming = prev.unallocatedConfirmedIncoming)
      (proved : backends.regev envelope .channelUpdateDecrypted (.channelUpdate senderPk recipientPk
        (prev.balanceState.ct (sender, token)) (next.balanceState.ct (sender, token)) senderDelta
          receiverDelta amount tokenIndex) = .ok ()) :
      ValueChange backends prev next (some token) none (some sender) 0
  | receive {token : Fin maxChannelTokens} {amount : BitVec 64}
      (fund : (next.channelFund.amounts token).val =
        (prev.channelFund.amounts token).val + amount.toNat)
      (others : ∀ t, t ≠ token → next.channelFund.amounts t = prev.channelFund.amounts t)
      (incoming : next.unallocatedConfirmedIncoming.val =
        prev.unallocatedConfirmedIncoming.val + amount.toNat) :
      ValueChange backends prev next (some token) none none amount.toNat
  | apply {token : Fin maxChannelTokens} {recipient : Nat}
      {before after senderDelta delta : RegevCiphertext} {amount : BitVec 64}
      {tokenIndex : BitVec 32} {senderPk recipientPk : RegevPk} {envelope : ChannelProofEnvelope}
      (inside : recipient < maxChannelMembers)
      (fund : next.channelFund = prev.channelFund)
      (incoming : prev.unallocatedConfirmedIncoming.val =
        next.unallocatedConfirmedIncoming.val + amount.toNat)
      (added : addCiphertexts (prev.balanceState.ct (recipient, token)) delta =
        .ok (next.balanceState.ct (recipient, token)))
      (proved : backends.regev envelope .channelUpdateDecrypted (.channelUpdate senderPk recipientPk
        before after senderDelta delta amount tokenIndex) = .ok ()) :
      ValueChange backends prev next (some token) (some (recipient, delta)) none (-amount.toNat)
  | refresh {token : Fin maxChannelTokens} {member : Nat} {pk : RegevPk}
      {envelope : ChannelProofEnvelope}
      (inside : member < maxChannelMembers)
      (fund : next.channelFund = prev.channelFund)
      (incoming : next.unallocatedConfirmedIncoming = prev.unallocatedConfirmedIncoming)
      (proved : backends.regev envelope .balanceRefresh (.balanceRefresh pk
        (prev.balanceState.ct (member, token)) (next.balanceState.ct (member, token))) = .ok ()) :
      ValueChange backends prev next (some token) none (some member) 0
  | register
      (fund : next.channelFund = prev.channelFund)
      (incoming : next.unallocatedConfirmedIncoming = prev.unallocatedConfirmedIncoming) :
      ValueChange backends prev next none none none 0

/-- Everything an accepted transition does. -/
structure Step (backends : Backends B) (prev : ChannelState B) (t : ChannelTransition D B)
    (next : ChannelState B) : Prop where
  linked : Linked D t.record prev next
  registry : RegistryStep prev.balanceState next.balanceState
  positions : PositionChange t prev.balanceState next.balanceState
  value : ValueChange backends prev next t.tokenSlot t.addition t.freshSlot t.unallocated

omit [DecidableEq B] in
/-- Beyond the last slot there is nothing to change. -/
theorem Linked.outside (linked : Linked D record prev next) {p : Position}
    (outside : ¬ p.1 < maxChannelMembers) :
    next.balanceState.ct p = prev.balanceState.ct p ∧
      next.balanceState.adds p = prev.balanceState.adds p := by
  have none_of_length {α : Type} {rows : List α} (length : rows.length = maxChannelMembers) :
      rows[p.1]? = none := List.getElem?_eq_none (by omega)
  simp [ct, adds, none_of_length linked.before.rows, none_of_length linked.after.rows,
    none_of_length linked.before.counterRows, none_of_length linked.after.counterRows]

/-! ## The seven kinds of step -/

variable {backends : Backends B} {inputs : ChannelStateUpdatePublicInputs B}

omit [Hashing D B] in
/-- A change at one token: enough to say which slots are added to and encrypted anew there. -/
theorem PositionChange.of_token (about : t.tokenSlot = some token)
    (frame : ∀ i u, (u = token → t.addition.map Prod.fst ≠ some i ∧
      t.freshSlot ≠ some i) → after.ct (i, u) = before.ct (i, u) ∧
      after.adds (i, u) = before.adds (i, u))
    (refreshes : ∀ i, t.freshSlot = some i → after.adds (i, token) = 0 := by rintro i ⟨⟩)
    (adds : ∀ i, t.addition.map Prod.fst = some i →
      (before.adds (i, token)).toNat < maxHomoAddsBeforeRefresh ∧
        after.adds (i, token) = before.adds (i, token) + 1 := by rintro i ⟨⟩) :
    PositionChange t before after where
  adds := by
    rintro ⟨i, u⟩ ⟨slot, at_⟩
    cases about.symm.trans at_
    exact adds i slot
  refreshes := by
    rintro ⟨i, u⟩ ⟨slot, at_⟩
    cases about.symm.trans at_
    exact refreshes i slot
  frame := by
    rintro ⟨i, u⟩ notAdded notFresh
    refine frame i u fun same => ?_
    subst same
    exact ⟨fun slot => notAdded ⟨slot, about⟩, fun slot => notFresh ⟨slot, about⟩⟩

theorem InChannelTransferUpdateWitness.step {w : InChannelTransferUpdateWitness B}
    (accepted : w.verify D backends = .ok inputs) :
    Step backends w.prevState (.inChannelTransfer w : ChannelTransition D B) w.nextState := by
  simp only [verify, verifyParties, bind_ok, exists_unit, revertIf_ok, getOrRevert_ok] at accepted
  obtain ⟨⟨-, linkage, common, -, -, -, -, fund, incoming, -, -, _, senderAt, _,
    recipientAt, apart, -⟩, _, -, token, active, added, recipientRow, senderRow, slots,
    increment, reset,
    senderAdds, slotsAdds, senderPk, -, recipientPk, -, before, foundBefore, after, foundAfter,
    proved, -⟩ := accepted
  obtain ⟨linked, registry⟩ := verifyBalanceStateCommon_ok linkage common
  obtain ⟨room, incremented, recipientAdds⟩ := requirePendingAddIncrement_ok increment
  have about : (ChannelTransition.inChannelTransfer w : ChannelTransition D B).tokenSlot =
      some token := by
    simp only [ChannelTransition.tokenSlot, active, Except.toOption]
  refine ⟨linked, registry, .of_token about ?_ ?_ ?_, ?_⟩
  · intro i u other
    by_cases inside : i < maxChannelMembers
    case neg => exact linked.outside inside
    -- A slot is one of the two parties, whose rows change at the token only, or it is frozen.
    by_cases recipient : i = w.recipientIndex
    · have elsewhere : u ≠ token := fun same => (other same).1 (recipient ▸ rfl)
      subst recipient
      exact ⟨ensureRowUnchangedExcept_ok recipientRow u elsewhere, recipientAdds u elsewhere⟩
    by_cases sender : i = w.senderIndex
    · have elsewhere : u ≠ token := fun same => (other same).2 (sender ▸ rfl)
      subst sender
      exact ⟨ensureRowUnchangedExcept_ok senderRow u elsewhere,
        requirePendingAddsUnchangedExcept_ok senderAdds u elsewhere⟩
    have unnamed : i ∉ [w.senderIndex, w.recipientIndex] := by simp [sender, recipient]
    exact ⟨ensureSlotsUnchanged_ok slots inside unnamed u,
      requireSlotsAddsUnchanged_ok slotsAdds inside unnamed u⟩
  · rintro i ⟨⟩
    exact requirePendingAddsReset_ok reset
  · rintro i ⟨⟩
    exact ⟨room, incremented⟩
  · rw [← ct_of_row foundBefore, ← ct_of_row foundAfter] at proved
    rw [about]
    exact .transfer ⟨memberIndexPubkeyHash_ok senderAt,
      memberIndexPubkeyHash_ok recipientAt⟩ apart
      (ensureSameChannelFund_ok fund) (ensureSameU256_ok incoming)
      (requireHomomorphicAdd_ok added) proved

omit [DecidableEq B] in
/-- All slots are frozen but one, whose row changes at one token only. -/
theorem Linked.frame_except {slot : Nat} (linked : Linked D record prev next)
    (frozen : ensureSlotsFrozen prev next [slot] = .ok ())
    (row : ∀ u, u ≠ token → next.balanceState.ct (slot, u) = prev.balanceState.ct (slot, u))
    (counters : ∀ u, u ≠ token →
      next.balanceState.adds (slot, u) = prev.balanceState.adds (slot, u)) {i : Nat}
    {u : Fin maxChannelTokens} (other : u = token → i ≠ slot) :
    next.balanceState.ct (i, u) = prev.balanceState.ct (i, u) ∧
      next.balanceState.adds (i, u) = prev.balanceState.adds (i, u) := by
  by_cases inside : i < maxChannelMembers
  case neg => exact linked.outside inside
  by_cases named : i = slot
  · have elsewhere : u ≠ token := fun same => other same named
    subst named
    exact ⟨row u elsewhere, counters u elsewhere⟩
  · exact ensureSlotsFrozen_ok frozen inside (by simpa using named) u

omit [DecidableEq B] in
theorem Linked.frame_all (linked : Linked D record prev next)
    (frozen : ensureSlotsFrozen prev next [] = .ok ()) (p : Position) :
    next.balanceState.ct p = prev.balanceState.ct p ∧
      next.balanceState.adds p = prev.balanceState.adds p := by
  by_cases inside : p.1 < maxChannelMembers
  case neg => exact linked.outside inside
  exact ensureSlotsFrozen_ok frozen inside List.not_mem_nil p.2

theorem InterChannelSendUpdateWitness.step [OfLimbs B] {w : InterChannelSendUpdateWitness D B}
    (accepted : w.verify backends = .ok inputs) :
    Step backends w.prevState (.interChannelSend w) w.nextState := by
  simp only [verify, verifySmallBlock, verifySettledTx, bind_ok, exists_unit, pure_ok] at accepted
  obtain ⟨delta, ⟨-, linkage, common, -⟩, -, _, ⟨_, -, -, token, resolved, -, rfl⟩,
    fund, others, -, incoming, -, sender, senderAt, frozen, senderRow, reset, senderAdds, before,
    foundBefore, after, foundAfter, proved, -⟩ := accepted
  obtain ⟨linked, registry⟩ := verifyBalanceStateCommon_ok linkage common
  have about : (ChannelTransition.interChannelSend w).tokenSlot = some token := by
    simp only [ChannelTransition.tokenSlot, resolved, Except.toOption]
  have fresh : (ChannelTransition.interChannelSend w).freshSlot = some sender.val := by
    simp [ChannelTransition.freshSlot, senderAt, Except.toOption]
  refine ⟨linked, registry, .of_token about ?_ ?_, ?_⟩
  · intro i u other
    refine linked.frame_except frozen (ensureRowUnchangedExcept_ok senderRow)
      (requirePendingAddsUnchangedExcept_ok senderAdds) fun same named => ?_
    exact (other same).2 (fresh.trans (congrArg some named.symm))
  · intro i named
    cases fresh.symm.trans named
    exact requirePendingAddsReset_ok reset
  · rw [← ct_of_row foundBefore, ← ct_of_row foundAfter] at proved
    rw [about, fresh]
    exact .send sender.isLt (requireIncrease_ok fund) (ensureFundsUnchangedExcept_ok others)
      (ensureSameU256_ok incoming) proved

theorem InterChannelFundImportUpdateWitness.step [OfLimbs B]
    {w : InterChannelFundImportUpdateWitness D B} (accepted : w.verify backends = .ok inputs) :
    Step backends w.prevState (.interChannelFundImport w) w.nextState := by
  simp only [verify, verifySmallBlock, verifySettledTx, verifyFund, verifyReceiver, bind_ok,
    exists_unit, pure_ok] at accepted
  obtain ⟨⟨linkage, common, -⟩, _, ⟨_, -, -, token, resolved, -, rfl⟩,
    ⟨fund, others, -⟩, _, ⟨incoming, frozen, -⟩, -⟩ := accepted
  obtain ⟨linked, registry⟩ := verifyBalanceStateCommon_ok linkage common
  have about : (ChannelTransition.interChannelFundImport w).tokenSlot = some token := by
    simp only [ChannelTransition.tokenSlot, resolved, Except.toOption]
  refine ⟨linked, registry, .of_token about fun i u _ => linked.frame_all frozen (i, u), ?_⟩
  rw [about]
  exact .receive (requireIncrease_ok fund) (ensureFundsUnchangedExcept_ok others)
    (requireIncrease_ok incoming)

theorem L1DepositImportUpdateWitness.step {w : L1DepositImportUpdateWitness B}
    (accepted : w.verify D = .ok inputs) :
    Step backends w.prevState (.l1DepositImport w : ChannelTransition D B) w.nextState := by
  simp only [verify, verifyToken, verifyFund, verifyIncoming, bind_ok, exists_unit] at accepted
  obtain ⟨token, ⟨linkage, common, -, -, -, resolved⟩, ⟨fund, others⟩,
      ⟨incoming, frozen, -⟩, -⟩ :=
    accepted
  obtain ⟨linked, registry⟩ := verifyBalanceStateCommon_ok linkage common
  have about : (ChannelTransition.l1DepositImport w : ChannelTransition D B).tokenSlot =
      some token := by
    simp only [ChannelTransition.tokenSlot, resolved, Except.toOption]
  refine ⟨linked, registry, .of_token about fun i u _ => linked.frame_all frozen (i, u), ?_⟩
  rw [about]
  exact .receive (requireIncrease_ok fund) (ensureFundsUnchangedExcept_ok others)
    (requireIncrease_ok incoming)

omit [Hashing D B] [DecidableEq B] in
theorem singleReceiverDelta_ok {tx : InterChannelTx D B} {delta : ReceiverBalanceDelta B}
    (accepted : singleReceiverDelta tx = .ok delta) : tx.receiverDeltas = [delta] := by
  unfold singleReceiverDelta at accepted
  split at accepted
  case h_1 only => rw [only, Except.ok.inj accepted]
  case h_2 => cases accepted

theorem ReceiverBundleApplyUpdateWitness.step [OfLimbs B]
    {w : ReceiverBundleApplyUpdateWitness D B} (accepted : w.verify backends = .ok inputs) :
    Step backends w.prevState (.receiverBundleApply w) w.nextState := by
  simp only [verify, verifyStates, verifyRecipient, bind_ok, exists_unit, pure_ok] at accepted
  obtain ⟨⟨-, linkage, common, -, -, -, fund⟩, _,
    ⟨incoming, -, delta, single, _, recipientAt, -, recipientPk, -, _, -, -, -, -, -, token,
    resolved, rfl⟩, -, added, recipientRow, frozen, increment, proved, -⟩ := accepted
  obtain ⟨linked, registry⟩ := verifyBalanceStateCommon_ok linkage common
  obtain ⟨room, incremented, recipientAdds⟩ := requirePendingAddIncrement_ok increment
  have about : (ChannelTransition.receiverBundleApply w).tokenSlot = some token := by
    simp only [ChannelTransition.tokenSlot, resolved, Except.toOption]
  have addition : (ChannelTransition.receiverBundleApply w).addition =
      some (w.recipientIndex, delta.amount) := by
    simp [ChannelTransition.addition, singleReceiverDelta_ok single]
  refine ⟨linked, registry, .of_token about ?_ (by rintro i ⟨⟩) ?_, ?_⟩
  · intro i u other
    refine linked.frame_except frozen (ensureRowUnchangedExcept_ok recipientRow) recipientAdds
      fun same named => ?_
    exact (other same).1 (by rw [addition, named]; rfl)
  · intro i named
    rw [addition] at named
    cases named
    exact ⟨room, incremented⟩
  · rw [about, addition]
    exact .apply (memberIndexPubkeyHash_ok recipientAt) (ensureSameChannelFund_ok fund)
      (requireIncrease_ok incoming) (requireHomomorphicAdd_ok added) proved

theorem BalanceRefreshUpdateWitness.step {w : BalanceRefreshUpdateWitness B}
    (accepted : w.verify D backends = .ok inputs) :
    Step backends w.prevState (.balanceRefresh w : ChannelTransition D B) w.nextState := by
  simp [verify] at accepted
  obtain ⟨-, linkage, common, -, -, -, -, -, fund, incoming, -, _, memberAt, frozen,
    token, active, reset, memberAdds, memberRow, old, foundOld, new, foundNew, pk, -, proved,
    -⟩ := accepted
  obtain ⟨linked, registry⟩ := verifyBalanceStateCommon_ok linkage common
  have about : (ChannelTransition.balanceRefresh w : ChannelTransition D B).tokenSlot =
      some token := by
    simp only [ChannelTransition.tokenSlot, active, Except.toOption]
  refine ⟨linked, registry, .of_token about ?_ ?_, ?_⟩
  · intro i u other
    refine linked.frame_except frozen (ensureRowUnchangedExcept_ok memberRow)
      (requirePendingAddsUnchangedExcept_ok memberAdds) fun same named => ?_
    exact (other same).2 (congrArg some named.symm)
  · rintro i ⟨⟩
    exact requirePendingAddsReset_ok reset
  · rw [← ct_of_row foundOld, ← ct_of_row foundNew] at proved
    rw [about]
    exact .refresh (memberIndexPubkeyHash_ok memberAt) (ensureSameChannelFund_ok fund)
      (ensureSameU256_ok incoming) proved

theorem TokenRegisterUpdateWitness.step {w : TokenRegisterUpdateWitness B}
    (accepted : w.verify D = .ok inputs) :
    Step backends w.prevState (.tokenRegister w : ChannelTransition D B) w.nextState := by
  simp [verify] at accepted
  obtain ⟨linkage, shared, registered, -, -, -, fund, incoming, -⟩ := accepted
  obtain ⟨registry, frozen⟩ := verifyTokenRegisterTransition_ok registered
  refine ⟨verifyBalanceStateShared_ok linkage shared, registry, ?_, ?_⟩
  · exact
      { adds := by rintro p ⟨⟨⟩, _⟩
        refreshes := by rintro p ⟨⟨⟩, _⟩
        frame := fun p _ _ => frozen p }
  · exact .register (ensureSameChannelFund_ok fund) (ensureSameU256_ok incoming)

/-- An accepted transition is a step. -/
theorem Accepts.step [OfLimbs B] {s s' : ChannelState B} (accepts : Accepts backends s t s') :
    Step backends s t s' := by
  obtain ⟨rfl, rfl, inputs, accepted⟩ := accepts
  cases t with
  | inChannelTransfer w => exact w.step accepted
  | interChannelSend w => exact w.step accepted
  | interChannelFundImport w => exact w.step accepted
  | l1DepositImport w => exact w.step accepted
  | receiverBundleApply w => exact w.step accepted
  | balanceRefresh w => exact w.step accepted
  | tokenRegister w => exact w.step accepted

end Intmax.Channel
