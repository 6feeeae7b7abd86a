import Intmax.Channel.Signed
import Intmax.Member.Signatures

/-! # Delegate joins at the block producer

The producer keeps the record of a channel and its last signed head.  A join of delegates changes
the record; the producer follows it when a caller hands over the new record together with the
committed head.  The head is signed, the record is not.
-/

namespace Intmax.Producer

open Checked Hashing Channel Trees Validity Member List ChannelState
open Free (Digest)

inductive ChannelStatus where
  | active
  | closePending
  | closed
deriving DecidableEq

/-- The number that is hashed for a status. -/
def ChannelStatus.word : ChannelStatus → Nat
  | .active => 0
  | .closePending => 1
  | .closed => 2

/-- A record with the fields that only its own digest reads. -/
structure RegisteredRecord (B : Type) extends ChannelRecord B where
  memberPubkeysRoot : B
  setVersion : BitVec 64
  specialClosePenalty : U256
  closeFreezeNonce : BitVec 64
  status : ChannelStatus
deriving DecidableEq

def channelRecordDomain : Nat := 0x494d4352

def RegisteredRecord.signingDigest (D : Type) {B : Type} [Hashing D B]
    (record : RegisteredRecord B) :
    B :=
  keccak (D := D) ([.elem channelRecordDomain, u32Item record.channelId,
      .elem record.bpMemberSlot.toNat] ++
    u64Items record.closeFreezeNonce ++ u64Items record.setVersion ++
    [.elem record.status.word, .elem record.memberCount.toNat, .elem record.delegateCount.toNat] ++
    (List.finRange maxChannelMembers).map (fun slot => .bytes (record.memberPkGs slot)) ++
    [.bytes record.memberPubkeysRoot] ++ u256Items record.specialClosePenalty ++
    [.bytes record.regevPkRoot])

/-- The case `WalletAuthorization` of the producer's errors. -/
inductive WalletAuthorizationError where
  | walletAuthorization (reason : String)
  /-- A reason with the wallet's own error after it. -/
  | unauthorized (reason : String) (error : MemberError)

/-- The part of the producer that syncs and joins work on. -/
structure ChannelDesk (B : Type) where
  channelRecords : ChannelId → Option (RegisteredRecord B)
  channelHeads : ChannelId → Option (ChannelState B)
  terminalCloseFunding : ChannelId → Bool

/-- The slots in use. -/
def RegisteredRecord.boundary {B : Type} (record : RegisteredRecord B) : Nat :=
  record.memberCount.toNat + record.delegateCount.toNat

section
variable (D : Type) {B : Type} [Hashing D B] [DecidableEq B]

/-- One round of the loop over the slots. -/
def verifySlotAppended (old new : RegisteredRecord B) (slot : Fin maxChannelMembers) :
    Except String Unit :=
  let was := old.memberPkGs slot
  let is := new.memberPkGs slot
  if slot.val < old.boundary then
    revertIf (is ≠ was) s!"delegate join: existing slot {slot.val} changed"
  else if slot.val < new.boundary then do
    revertIf (was ≠ zeroBytes D ∨ is = zeroBytes D)
      s!"delegate join: slot {slot.val} is not a new nonzero identity"
    revertIf (∃ other : Fin maxChannelMembers, other.val < new.boundary ∧ other ≠ slot ∧
        new.memberPkGs other = is)
      s!"delegate join: slot {slot.val} duplicates another identity"
  else
    revertIf (is ≠ zeroBytes D ∨ was ≠ zeroBytes D)
      s!"delegate join: slot {slot.val} beyond the participants is not empty"

def verifyDelegatesAppended (old new : RegisteredRecord B) : Except String Unit := do
  revertIf (new.channelId ≠ old.channelId) "delegate join: channel id changed"
  revertIf (new.memberCount ≠ old.memberCount ∨ new.setVersion ≠ old.setVersion)
    "delegate join: the co-signer set changed (not a delegate join)"
  revertIf (new.status ≠ old.status ∨ new.bpMemberSlot ≠ old.bpMemberSlot)
    "delegate join: record status or BP slot changed"
  revertIf (new.delegateCount.toNat ≤ old.delegateCount.toNat)
    "delegate join: delegate_count did not grow"
  revertIf (maxChannelMembers < new.boundary)
    "delegate join: more participants than the channel holds"
  (List.finRange maxChannelMembers).forM (verifySlotAppended D old new)

def adoptDelegateJoin (crypto : Crypto B) (desk : ChannelDesk B) (newRecord : RegisteredRecord B)
    (signedState : ChannelState B) : Except WalletAuthorizationError (ChannelDesk B) := do
  let channel := newRecord.channelId
  let old ← getOrRevert (desk.channelRecords channel)
    (.walletAuthorization s!"channel {channel.toNat} is not registered in this producer")
  if old.signingDigest D = newRecord.signingDigest D then
    pure desk
  else do
    (verifyDelegatesAppended D old newRecord).mapError .walletAuthorization
    let head ← getOrRevert (desk.channelHeads channel)
      (.walletAuthorization s!"channel {channel.toNat} has no committed head")
    revertIf (signedState.channelId ≠ channel ∨ signedState.digest ≠ head.digest)
      (.walletAuthorization
        "a delegate join is adopted only with the channel's committed head")
    revertIf (signedState.balanceState.memberCount ≠ newRecord.memberCount ∨
        signedState.balanceState.delegateCount ≠ newRecord.delegateCount)
      (.walletAuthorization
        "the committed head does not carry the joined record's participant counts")
    (verifyAllSignatures D crypto newRecord.toChannelRecord signedState).mapError
      (.unauthorized "committed head is not N-of-N signed under the joined record: ")
    pure { desk with
      channelRecords := Function.update desk.channelRecords channel (some newRecord) }

/-- `checked_add` of a counter. -/
def checkedSucc (x : BitVec 64) (reason : String) :
    Except WalletAuthorizationError (BitVec 64) :=
  if x.toNat + 1 < 2 ^ 64 then .ok (x + 1) else .error (.walletAuthorization reason)

/-- One round of the loop over the states: the next committed head. -/
def syncState (crypto : Crypto B) (channel : ChannelId) (record : RegisteredRecord B)
    (previous : ChannelState B) (entry : ChannelState B × Nat) :
    Except WalletAuthorizationError (ChannelState B) := do
  let state := entry.1
  let offset := entry.2
  revertIf (state.channelId ≠ channel ∨ state.channelFund.channelId ≠ channel ∨
      state.balanceState.channelId ≠ channel)
    (.walletAuthorization s!"off-chain state {offset} belongs to a different channel")
  (verifyAllSignatures D crypto record.toChannelRecord state).mapError
    (.unauthorized s!"off-chain state {offset} is not N-of-N authorized: ")
  revertIf (state.h2Tag ≠ zeroBytes D) (.walletAuthorization
    s!"off-chain state {offset} has non-zero h2_tag and must be posted as a block")
  revertIf (state.prevDigest ≠ previous.digest)
    (.walletAuthorization s!"off-chain state {offset} does not extend the committed head")
  let expectedEpoch ← checkedSucc previous.epoch "channel epoch overflow"
  let expectedVersion ← checkedSucc previous.balanceState.stateVersion
    "balance-state version overflow"
  let maxSmallBlock ← checkedSucc previous.smallBlockNumber "small-block number overflow"
  revertIf (state.epoch ≠ expectedEpoch ∨
      state.balanceState.stateVersion ≠ expectedVersion ∨
      state.smallBlockNumber.toNat < previous.smallBlockNumber.toNat ∨
      maxSmallBlock.toNat < state.smallBlockNumber.toNat ∨
      state.closeFreezeNonce ≠ previous.closeFreezeNonce)
    (.walletAuthorization
      s!"off-chain state {offset} has stale/skipped counters or a different close era")
  pure state

def syncOffchainHeads (crypto : Crypto B) (desk : ChannelDesk B)
    (signedStates : List (ChannelState B)) :
    Except WalletAuthorizationError (ChannelDesk B) := do
  let first ← getOrRevert signedStates.head? (.walletAuthorization
    "off-chain head synchronization requires at least one signed state")
  let channel := first.channelId
  revertIf (desk.terminalCloseFunding channel = true)
    (.walletAuthorization "channel is terminal after close funding")
  let record ← getOrRevert (desk.channelRecords channel)
    (.walletAuthorization s!"channel {channel.toNat} is not registered in this producer")
  let previous ← getOrRevert (desk.channelHeads channel)
    (.walletAuthorization s!"channel {channel.toNat} has no registered replay-fence head")
  let head ← signedStates.zipIdx.foldlM (syncState D crypto channel record) previous
  pure { desk with channelHeads := Function.update desk.channelHeads channel (some head) }

/-- The check of a debit payload's record in `produce_inter_channel_descriptor_block_with`. -/
def requireRegisteredRecord (desk : ChannelDesk B) (source : ChannelId)
    (payloadRecord : RegisteredRecord B) : Except WalletAuthorizationError Unit := do
  let registered ← getOrRevert (desk.channelRecords source) (.walletAuthorization
    s!"source channel {source.toNat} is not registered in this producer")
  revertIf (payloadRecord.signingDigest D ≠ registered.signingDigest D) (.walletAuthorization
    "debit payload record differs from the producer's registered channel record")

end

/-! ## What is compared -/

section
variable {D B : Type} [Hashing D B] [DecidableEq B]

/-- What `verify_delegates_appended` accepts. -/
structure RegisteredRecord.Appended (D : Type) {B : Type} [Hashing D B]
    (old new : RegisteredRecord B) :
    Prop where
  channelId : new.channelId = old.channelId
  memberCount : new.memberCount = old.memberCount
  setVersion : new.setVersion = old.setVersion
  status : new.status = old.status
  bpMemberSlot : new.bpMemberSlot = old.bpMemberSlot
  grows : old.delegateCount.toNat < new.delegateCount.toNat
  fits : new.boundary ≤ maxChannelMembers
  kept : ∀ slot : Fin maxChannelMembers, slot.val < old.boundary →
    new.memberPkGs slot = old.memberPkGs slot
  fresh : ∀ slot : Fin maxChannelMembers, old.boundary ≤ slot.val →
    slot.val < new.boundary → old.memberPkGs slot = zeroBytes D ∧
      new.memberPkGs slot ≠ zeroBytes D ∧ ∀ other : Fin maxChannelMembers,
        other.val < new.boundary → other ≠ slot → new.memberPkGs other ≠ new.memberPkGs slot
  empty : ∀ slot : Fin maxChannelMembers, old.boundary ≤ slot.val →
    new.boundary ≤ slot.val → new.memberPkGs slot = zeroBytes D ∧
    old.memberPkGs slot = zeroBytes D

/-- A join that leaves the rest of the record alone. -/
structure RegisteredRecord.Joined (D : Type) {B : Type} [Hashing D B]
    (old new : RegisteredRecord B) :
    Prop extends old.Appended D new where
  specialClosePenalty : new.specialClosePenalty = old.specialClosePenalty
  closeFreezeNonce : new.closeFreezeNonce = old.closeFreezeNonce

variable {a b c : RegisteredRecord B}

theorem verifySlotAppended_ok_iff {slot : Fin maxChannelMembers} :
    verifySlotAppended D a b slot = .ok () ↔
      (slot.val < a.boundary → b.memberPkGs slot = a.memberPkGs slot) ∧
      (a.boundary ≤ slot.val → slot.val < b.boundary → a.memberPkGs slot = zeroBytes D ∧
        b.memberPkGs slot ≠ zeroBytes D ∧ ∀ other : Fin maxChannelMembers,
          other.val < b.boundary → other ≠ slot →
          b.memberPkGs other ≠ b.memberPkGs slot) ∧
      (a.boundary ≤ slot.val → b.boundary ≤ slot.val →
        b.memberPkGs slot = zeroBytes D ∧ a.memberPkGs slot = zeroBytes D) := by
  simp [verifySlotAppended, and_assoc]
  by_cases existing : slot.val < a.boundary
  · simp [existing, not_le.mpr existing]
  · by_cases inside : slot.val < b.boundary
    · simp [existing, inside, le_of_not_gt existing, not_le.mpr inside]
    · simp [existing, inside, le_of_not_gt existing, le_of_not_gt inside]

theorem verifyDelegatesAppended_ok_iff :
    verifyDelegatesAppended D a b = .ok () ↔ a.Appended D b := by
  simp only [verifyDelegatesAppended, bind_ok, revertIf_ok, exists_unit, forM_ok,
    verifySlotAppended_ok_iff, mem_finRange, forall_const, not_not, not_or, not_lt, not_le, ne_eq]
  constructor
  · rintro ⟨channelId, ⟨memberCount, setVersion⟩, ⟨status, bpMemberSlot⟩, grows,
      fits, slots⟩
    exact
      { channelId, memberCount, setVersion, status, bpMemberSlot, grows, fits
        kept := fun slot => (slots slot).1
        fresh := fun slot => (slots slot).2.1
        empty := fun slot => (slots slot).2.2 }
  · intro appended
    exact ⟨appended.channelId, ⟨appended.memberCount, appended.setVersion⟩,
      ⟨appended.status, appended.bpMemberSlot⟩, appended.grows, appended.fits, fun slot =>
        ⟨appended.kept slot, appended.fresh slot, appended.empty slot⟩⟩

namespace RegisteredRecord

omit [DecidableEq B]

theorem Appended.boundary_le (appended : a.Appended D b) : a.boundary ≤ b.boundary := by
  have grows := appended.grows
  rw [boundary, boundary, appended.memberCount]
  omega

theorem Appended.trans (first : a.Appended D b) (second : b.Appended D c) : a.Appended D c := by
  have low := first.boundary_le
  have high := second.boundary_le
  refine
    { channelId := second.channelId.trans first.channelId
      memberCount := second.memberCount.trans first.memberCount
      setVersion := second.setVersion.trans first.setVersion
      status := second.status.trans first.status
      bpMemberSlot := second.bpMemberSlot.trans first.bpMemberSlot
      grows := first.grows.trans second.grows
      fits := second.fits
      kept := fun slot inside => (second.kept slot (by omega)).trans (first.kept slot inside)
      fresh := fun slot above below => ?_
      empty := fun slot above beyond => ⟨(second.empty slot (by omega) beyond).1,
        (first.empty slot above (by omega)).2⟩ }
  by_cases early : slot.val < b.boundary
  · -- the slot was taken by the first join
    obtain ⟨was, is, distinct⟩ := first.fresh slot above early
    rw [second.kept slot early]
    refine ⟨was, is, fun other inside apart => ?_⟩
    by_cases also : other.val < b.boundary
    · rw [second.kept other also]
      exact distinct other also apart
    · have later := (second.fresh other (by omega) inside).2.2 slot (by omega) apart.symm
      rw [second.kept slot early] at later
      exact later.symm
  · obtain ⟨was, is, distinct⟩ := second.fresh slot (by omega) below
    exact ⟨(first.empty slot above (by omega)).2, is, distinct⟩

theorem Joined.trans (first : a.Joined D b) (second : b.Joined D c) : a.Joined D c where
  toAppended := first.toAppended.trans second.toAppended
  specialClosePenalty := second.specialClosePenalty.trans first.specialClosePenalty
  closeFreezeNonce := second.closeFreezeNonce.trans first.closeFreezeNonce

/-- The same record, or the record after joins. -/
def Follows (D : Type) {B : Type} [Hashing D B] (old new : RegisteredRecord B) : Prop :=
  old = new ∨ old.Joined D new

theorem Follows.trans (first : a.Follows D b) (second : b.Follows D c) : a.Follows D c := by
  cases first with
  | inl same => rwa [same]
  | inr joined =>
    cases second with
    | inl same => exact .inr (same ▸ joined)
    | inr later => exact .inr (joined.trans later)

/-- Joins leave the co-signers alone. -/
theorem Follows.cosigners (follows : a.Follows D b) : b.memberCount = a.memberCount ∧
    ∀ slot : Fin maxChannelMembers, slot.val < a.memberCount.toNat →
      b.memberPkGs slot = a.memberPkGs slot := by
  cases follows with
  | inl same => exact same ▸ ⟨rfl, fun _ _ => rfl⟩
  | inr joined =>
    exact ⟨joined.memberCount, fun slot inside => joined.kept slot (by rw [boundary]; omega)⟩

end RegisteredRecord

variable {state : ChannelState B} {record : RegisteredRecord B}

/-- The signatures of a state are checked against the co-signers of a record only. -/
theorem verifyAllSignatures_of_cosigners {crypto : Crypto B} {record record' : ChannelRecord B}
    (count : record'.memberCount = record.memberCount)
    (keys : ∀ slot : Fin maxChannelMembers, slot.val < record.memberCount.toNat →
      record'.memberPkGs slot = record.memberPkGs slot)
    (signed : verifyAllSignatures D crypto record state = .ok ()) :
    verifyAllSignatures D crypto record' state = .ok () := by
  simp only [verifyAllSignatures, bind_ok, forM_ok, getOrRevert_ok, mem_range] at signed ⊢
  obtain ⟨digest, checked, each⟩ := signed
  refine ⟨digest, checked, fun slot inside => ?_⟩
  rw [count] at inside
  obtain ⟨signature, found, verified⟩ := each slot inside
  refine ⟨signature, found, ?_⟩
  have same : pkAt record' slot = pkAt record slot := by
    unfold pkAt
    split
    case isTrue room => rw [keys ⟨slot, room⟩ inside]
    case isFalse => rfl
  simpa only [verifySignatureAt, same] using verified

/-! ## The members and the desk -/

/-- The members of a channel hold one record for each head.  They sign a next state only if it
leaves their record alone or appends delegates to it, and carries the counts of the record they
hold from then on. -/
structure Honest (D : Type) {B : Type} [Hashing D B] [DecidableEq B] (crypto : Crypto B)
    (channel : ChannelId) (held : B → RegisteredRecord B) : Prop where
  own : ∀ digest, (held digest).channelId = channel
  signs : ∀ digest (state : ChannelState B), state.channelId = channel →
    state.prevDigest = digest → verifyAllSignatures D crypto (held digest).toChannelRecord state =
      .ok () → (held digest).Follows D (held state.digest) ∧
        state.balanceState.memberCount = (held state.digest).memberCount ∧
        state.balanceState.delegateCount = (held state.digest).delegateCount

variable {crypto : Crypto B} {channel : ChannelId} {held : B → RegisteredRecord B}
  {desk desk' : ChannelDesk B}

/-- A head that the members signed, at a desk that is not ahead of them. -/
structure Committed (D : Type) {B : Type} [Hashing D B] [DecidableEq B] (crypto : Crypto B)
    (channel : ChannelId) (held : B → RegisteredRecord B) (record : RegisteredRecord B)
    (head : ChannelState B) : Prop where
  channelId : head.channelId = channel
  follows : record.Follows D (held head.digest)
  memberCount : head.balanceState.memberCount = (held head.digest).memberCount
  delegateCount : head.balanceState.delegateCount = (held head.digest).delegateCount
  signed : verifyAllSignatures D crypto record.toChannelRecord head = .ok ()

/-- What the desk has for the channel. -/
def ChannelDesk.Serves (D : Type) {B : Type} [Hashing D B] [DecidableEq B] (crypto : Crypto B)
    (channel : ChannelId) (held : B → RegisteredRecord B) (desk : ChannelDesk B) : Prop :=
  ∃ record head, desk.channelRecords channel = some record ∧
    desk.channelHeads channel = some head ∧ Committed D crypto channel held record head

theorem Committed.signed_under_held {head : ChannelState B}
    (committed : Committed D crypto channel held record head) :
    verifyAllSignatures D crypto (held head.digest).toChannelRecord head = .ok () :=
  verifyAllSignatures_of_cosigners committed.follows.cosigners.1 committed.follows.cosigners.2
    committed.signed

/-- One signed state is followed. -/
theorem syncState_committed (honest : Honest D crypto channel held) {previous next : ChannelState B}
    {entry : ChannelState B × Nat} (committed : Committed D crypto channel held record previous)
    (synced : syncState D crypto channel record previous entry = .ok next) :
    Committed D crypto channel held record next := by
  simp [syncState] at synced
  obtain ⟨⟨channelId, -⟩, signed, -, linked, -, -, -, -, -, -, -, rfl⟩ := synced
  have cosigners := committed.follows.cosigners
  obtain ⟨follows, memberCount, delegateCount⟩ := honest.signs _ entry.1 channelId linked
    (verifyAllSignatures_of_cosigners cosigners.1 cosigners.2 signed)
  exact ⟨channelId, committed.follows.trans follows, memberCount, delegateCount, signed⟩

theorem syncOffchainHeads_serves (honest : Honest D crypto channel held)
    {states : List (ChannelState B)} (serves : desk.Serves D crypto channel held)
    (synced : syncOffchainHeads D crypto desk states = .ok desk') :
    desk'.Serves D crypto channel held := by
  simp [syncOffchainHeads] at synced
  obtain ⟨first, -, -, record, found, previous, before, head, chain, rfl⟩ := synced
  by_cases same : first.channelId = channel
  · rw [same] at found before chain
    obtain ⟨record', previous', found', before', committed⟩ := serves
    cases found.symm.trans found'
    cases before.symm.trans before'
    refine ⟨record, head, found, by simp [same], ?_⟩
    exact foldlM_ok_invariant committed
      (fun _ committed _ _ _ synced => syncState_committed honest committed synced) chain
  · obtain ⟨record', previous', found', before', committed⟩ := serves
    exact ⟨record', previous', found', by simpa [Function.update_of_ne (Ne.symm same)]
      using before', committed⟩

/-- The two outcomes of a join. -/
theorem adoptDelegateJoin_ok_iff :
    adoptDelegateJoin D crypto desk record state = .ok desk' ↔
      ∃ old, desk.channelRecords record.channelId = some old ∧
        ((old.signingDigest D = record.signingDigest D ∧ desk = desk') ∨
          (old.signingDigest D ≠ record.signingDigest D ∧ old.Appended D record ∧
            (∃ head, desk.channelHeads record.channelId = some head ∧
              state.channelId = record.channelId ∧ state.digest = head.digest) ∧
            state.balanceState.memberCount = record.memberCount ∧
            state.balanceState.delegateCount = record.delegateCount ∧
            verifyAllSignatures D crypto record.toChannelRecord state = .ok () ∧
            { desk with channelRecords :=
                Function.update desk.channelRecords record.channelId (some record) } = desk')) := by
  simp [adoptDelegateJoin, verifyDelegatesAppended_ok_iff]
  grind

/-- A call that any caller can make. -/
inductive DeskCall (B : Type) where
  | sync (signedStates : List (ChannelState B))
  | join (newRecord : RegisteredRecord B) (signedState : ChannelState B)

def DeskCall.run (D : Type) {B : Type} [Hashing D B] [DecidableEq B] (crypto : Crypto B)
    (desk : ChannelDesk B) : DeskCall B → Except WalletAuthorizationError (ChannelDesk B)
  | .sync signedStates => syncOffchainHeads D crypto desk signedStates
  | .join newRecord signedState => adoptDelegateJoin D crypto desk newRecord signedState

/-- A refused call leaves the desk as it was. -/
def DeskCall.Step (D : Type) {B : Type} [Hashing D B] [DecidableEq B] (crypto : Crypto B)
    (desk : ChannelDesk B) (call : DeskCall B) (desk' : ChannelDesk B) : Prop :=
  call.run D crypto desk = .ok desk' ∨ ((∃ error, call.run D crypto desk = .error error) ∧
    desk' = desk)

/-- A join for the channel hands over the record that the members hold for the committed head. -/
def DeskCall.Supplies {B : Type} (channel : ChannelId) (held : B → RegisteredRecord B)
    (desk : ChannelDesk B) : DeskCall B → Prop
  | .sync _ => True
  | .join newRecord _ => newRecord.channelId = channel → ∀ head,
      desk.channelHeads channel = some head → newRecord = held head.digest

theorem adoptDelegateJoin_serves (serves : desk.Serves D crypto channel held)
    (supplies : (DeskCall.join record state).Supplies channel held desk)
    (adopted : adoptDelegateJoin D crypto desk record state = .ok desk') :
    desk'.Serves D crypto channel held := by
  obtain ⟨old, -, outcome⟩ := adoptDelegateJoin_ok_iff.mp adopted
  cases outcome with
  | inl unchanged => exact unchanged.2 ▸ serves
  | inr changed =>
    obtain ⟨-, -, -, -, -, -, rfl⟩ := changed
    obtain ⟨registered, head, found, before, committed⟩ := serves
    by_cases same : record.channelId = channel
    · -- the desk has caught up with the members
      cases supplies same head before
      exact ⟨held head.digest, head, by simp [same], before,
        { committed with follows := .inl rfl, signed := committed.signed_under_held }⟩
    · exact ⟨registered, head, by simpa [Function.update_of_ne (Ne.symm same)]
        using found, before, committed⟩

theorem DeskCall.Step.serves (honest : Honest D crypto channel held) {call : DeskCall B}
    (serves : desk.Serves D crypto channel held) (supplies : call.Supplies channel held desk)
    (step : call.Step D crypto desk desk') : desk'.Serves D crypto channel held := by
  cases step with
  | inr refused => exact refused.2 ▸ serves
  | inl ran =>
    cases call with
    | sync states => exact syncOffchainHeads_serves honest serves ran
    | join record state => exact adoptDelegateJoin_serves serves supplies ran

/-- The record that the members hold for the head can be adopted. -/
theorem Committed.adoptable (honest : Honest D crypto channel held) {head : ChannelState B}
    (found : desk.channelRecords channel = some record)
    (before : desk.channelHeads channel = some head)
    (committed : Committed D crypto channel held record head) :
    ∃ after, adoptDelegateJoin D crypto desk (held head.digest) head = .ok after ∧
      requireRegisteredRecord D after channel (held head.digest) = .ok () := by
  have own := honest.own head.digest
  simp [requireRegisteredRecord, adoptDelegateJoin_ok_iff, own]
  by_cases same : record.signingDigest D = (held head.digest).signingDigest D
  · exact ⟨desk, ⟨record, found, .inl ⟨same, rfl⟩⟩, record, found, same.symm⟩
  · cases committed.follows with
    | inl equal => exact absurd (congrArg _ equal) same
    | inr joined =>
      refine ⟨_, ⟨record, found, .inr ⟨same, joined.toAppended,
        ⟨head, before, committed.channelId, rfl⟩, committed.memberCount,
        committed.delegateCount,
        committed.signed_under_held, rfl⟩⟩, held head.digest, ?_, rfl⟩
      simp

/-- As long as joins for the channel hand over the record that its members hold for the committed
head, two joins for one head adopt one record, an adopted record differs from the registered one in
the appended delegates and the key roots only, and the members' record can always be adopted, after
which a debit with it is not refused. -/
theorem delegate_joins_follow_members (honest : Honest D crypto channel held)
    (start : desk.Serves D crypto channel held) {calls : List (DeskCall B)}
    (run : Transition.Path (fun desk call desk' => call.Step D crypto desk desk' ∧
      call.Supplies channel held desk) desk calls desk') :
    ∃ record head, desk'.channelRecords channel = some record ∧
      desk'.channelHeads channel = some head ∧
      (∃ after, adoptDelegateJoin D crypto desk' (held head.digest) head = .ok after ∧
        requireRegisteredRecord D after channel (held head.digest) = .ok ()) ∧
      ∀ first second : RegisteredRecord B, ∀ state state' after after',
        first.channelId = channel → second.channelId = channel →
        (DeskCall.join first state).Supplies channel held desk' →
        (DeskCall.join second state').Supplies channel held desk' →
        adoptDelegateJoin D crypto desk' first state = .ok after →
        adoptDelegateJoin D crypto desk' second state' = .ok after' →
        after.channelRecords channel ≠ some record →
        after'.channelRecords channel ≠ some record →
        first.signingDigest D = second.signingDigest D ∧ record.Joined D first := by
  have serves : desk'.Serves D crypto channel held := run.invariant
    (fun _ _ _ serves step => step.1.serves honest serves step.2) start
  obtain ⟨record, head, found, before, committed⟩ := serves
  refine ⟨record, head, found, before, committed.adoptable honest found before, ?_⟩
  intro first second state state' after after' own own' supplies supplies' adopted _ changed _
  have isHeld := supplies own head before
  refine ⟨by rw [isHeld, supplies' own' head before], ?_⟩
  cases committed.follows with
  | inr joined => exact isHeld ▸ joined
  | inl equal =>
    -- the desk has this record already, so nothing would have changed
    obtain ⟨old, old_found, outcome⟩ := adoptDelegateJoin_ok_iff.mp adopted
    rw [own, found] at old_found
    cases old_found
    cases outcome with
    | inl unchanged => exact absurd found (unchanged.2 ▸ changed)
    | inr moved => exact absurd (by rw [isHeld, ← equal]) moved.1

/-! ## The record is not signed -/

theorem ChannelStatus.word_injective {x y : ChannelStatus} (same : x.word = y.word) : x = y := by
  cases x <;> cases y <;> simp_all [ChannelStatus.word]

omit [DecidableEq B] in
/-- The digest pins the whole record. -/
theorem RegisteredRecord.signingDigest_injective (injective : KeccakInjective D)
    (same : a.signingDigest D = b.signingDigest D) : a = b := by
  have keysAlike : Alike (D := D) ((finRange maxChannelMembers).map fun slot =>
    .bytes (a.memberPkGs slot))
      ((finRange maxChannelMembers).map fun slot => .bytes (b.memberPkGs slot)) :=
    Alike.map (fun _ => rfl) _
  have preimage := injective _ _ ((((((((Alike.append (.cons rfl (.cons rfl (.cons rfl .nil)))
    (u64Items_alike _ _)).append (u64Items_alike _ _)).append
      (.cons rfl (.cons rfl (.cons rfl .nil)))).append keysAlike).append (.cons rfl .nil)).append
        (u256Items_alike _ _)).append (.cons rfl .nil))) same
  obtain ⟨front, regevRoot⟩ := append_inj' preimage rfl
  obtain ⟨front, penalty⟩ := append_inj' front (by simp [u256Items, u32Limbs])
  obtain ⟨front, pubkeysRoot⟩ := append_inj' front rfl
  obtain ⟨front, keys⟩ := append_inj' front (by simp)
  obtain ⟨front, counts⟩ := append_inj' front rfl
  obtain ⟨front, version⟩ := append_inj' front rfl
  obtain ⟨names, nonce⟩ := append_inj' front rfl
  simp
    at regevRoot pubkeysRoot counts names
  have keys : a.memberPkGs = b.memberPkGs := funext fun slot =>
    Item.bytes.inj (map_inj_left.mp keys slot (mem_finRange slot))
  obtain ⟨⟨channelA, membersA, delegatesA, keysA, bpA, regevA⟩, rootA, versionA, penaltyA,
    nonceA, statusA⟩ := a
  obtain ⟨⟨channelB, membersB, delegatesB, keysB, bpB, regevB⟩, rootB, versionB, penaltyB,
    nonceB, statusB⟩ := b
  simp
  exact ⟨⟨u32Item_injective names.1, BitVec.eq_of_toNat_eq counts.2.1,
    BitVec.eq_of_toNat_eq counts.2.2, keys, BitVec.eq_of_toNat_eq names.2, regevRoot⟩,
    pubkeysRoot, u64Items_injective version,
    u256Items_injective penalty, u64Items_injective nonce, ChannelStatus.word_injective counts.1⟩

end

/-- The record of two members, before and after one delegate. -/
def pairRegistered (delegates : BitVec 16) (delegate : Free.Bytes) (penalty : U256) :
    RegisteredRecord Free.Bytes where
  toChannelRecord :=
    { pairRecord Digest 1 (.word 1) (.word 2) (.word 9) with
      delegateCount := delegates
      memberPkGs := fun slot => if slot.val = 2 then delegate else
        (pairRecord Digest 1 (.word 1) (.word 2) (.word 9)).memberPkGs slot }
  memberPubkeysRoot := .word 9
  setVersion := 0
  specialClosePenalty := penalty
  closeFreezeNonce := 0
  status := .active

/-- The head of the two members with one delegate. -/
def joinedHead (digest : Free.Bytes) : ChannelState Free.Bytes :=
  { pairState Digest
      { pairBalance Digest 1 0 .padding .padding 0 0 with delegateCount := 1 } 0 digest with
    memberSignatures := pairSignatures (.word 1) (.word 2) }

/-- Keys that have signed one digest only. -/
def signedOnly (digest : Free.Bytes) : Crypto Free.Bytes where
  keysFor _ := { pkG := .word 1, regevSk := { s := [] } }
  verifyStateSig _ signed _ := if signed = digest then .ok () else .error "not signed"
  decrypt _ _ := []

/-- The desk of two members whose head already has the delegate. -/
def joiningDesk (digest : Free.Bytes) : ChannelDesk Free.Bytes where
  channelRecords channel := if channel = 1 then some (pairRegistered 0 (zeroBytes Digest) 0)
    else none
  channelHeads channel := if channel = 1 then some (joinedHead digest) else none
  terminalCloseFunding _ := false

theorem exists_joinedHead : ∃ digest, (joinedHead digest).signingDigest Digest = some digest := by
  have canonical : (pairBalance Digest 1 0 .padding .padding 0 0).Canonical Digest :=
    pairBalance_canonical (B := Free.Bytes) RegevCiphertext.padding_validate
      RegevCiphertext.padding_validate (by decide) (by decide)
  have hashable := canonical.hashable
  have rows : (joinedHead (.word 0)).balanceState.Hashable :=
    { rows := hashable.rows, counters := hashable.counters
      ciphertexts := hashable.ciphertexts }
  obtain ⟨digest, found⟩ := signingDigest_isSome (D := Digest) rows
  exact ⟨digest, found⟩

variable {digest delegate : Free.Bytes} {penalty : U256}

theorem joinedHead_signed (hashed : (joinedHead digest).signingDigest Digest = some digest)
    (delegates : BitVec 16) (delegate : Free.Bytes) (penalty : U256) :
    verifyAllSignatures Digest (signedOnly digest)
      (pairRegistered delegates delegate penalty).toChannelRecord (joinedHead digest) = .ok () := by
  simp only [verifyAllSignatures, checkedDigest, verifySignatureAt, bind_ok, getOrRevert_ok,
    revertIf_ok, exists_unit, pure_ok, forM_ok, not_not, mapError_ok]
  refine ⟨digest, ⟨digest, hashed, rfl, rfl⟩, ?_⟩
  show ∀ slot ∈ [0, 1], _
  exact forall_mem_cons.mpr ⟨⟨_, rfl, _, rfl, rfl, by simp [signedOnly]⟩,
    forall_mem_singleton.mpr ⟨_, rfl, _, rfl, rfl, by simp [signedOnly]⟩⟩

theorem pairRegistered_memberPkGs {delegates : BitVec 16} (slot : Fin maxChannelMembers) :
    (pairRegistered delegates delegate penalty).memberPkGs slot =
      if slot.val = 2 then delegate else if slot.val = 0 then .word 1
      else if slot.val = 1 then .word 2 else zeroBytes Digest := rfl

/-- Any new identity can be appended, and any penalty with it. -/
theorem pairRegistered_appended {penalty' : U256}
    (fresh : delegate ∉ [zeroBytes Digest, .word 1, .word 2]) :
    (pairRegistered 0 (zeroBytes Digest) penalty).Appended Digest
      (pairRegistered 1 delegate penalty') := by
  have apart : delegate ≠ zeroBytes Digest ∧ delegate ≠ .word 1 ∧ delegate ≠ .word 2 := by
    simpa using fresh
  have old : (pairRegistered 0 (zeroBytes Digest) penalty).boundary = 2 := rfl
  have new : (pairRegistered 1 delegate penalty').boundary = 3 := rfl
  refine
    { channelId := rfl, memberCount := rfl, setVersion := rfl, status := rfl, bpMemberSlot := rfl
      grows := Nat.zero_lt_one
      fits := by rw [new]; decide
      kept := fun slot inside => ?_
      fresh := fun slot above below => ?_
      empty := fun slot above beyond => ?_ }
  · rw [old] at inside
    simp only [pairRegistered_memberPkGs, if_neg (show slot.val ≠ 2 by omega)]
  · rw [old] at above
    rw [new] at below
    have here : slot.val = 2 := by omega
    simp only [new, pairRegistered_memberPkGs, here, if_true]
    refine ⟨trivial, apart.1, fun other inside different => ?_⟩
    have elsewhere : other.val ≠ 2 := fun same => different (Fin.ext (same.trans here.symm))
    rw [if_neg elsewhere]
    split
    · exact apart.2.1.symm
    · split
      · exact apart.2.2.symm
      · omega
  · rw [new] at beyond
    simp [pairRegistered_memberPkGs, if_neg (show slot.val ≠ 2 by omega),
      if_neg (show slot.val ≠ 0 by omega), if_neg (show slot.val ≠ 1 by omega)]

theorem pairRegistered_digest_ne {delegates delegates' : BitVec 16} {delegate' : Free.Bytes}
    {penalty' : U256} (apart : delegate ≠ delegate') :
    (pairRegistered delegates delegate penalty).signingDigest Digest ≠
      (pairRegistered delegates' delegate' penalty').signingDigest Digest := by
  intro same
  have keys := congrArg (fun record => record.memberPkGs ⟨2, by decide⟩)
    (RegisteredRecord.signingDigest_injective Free.keccakInjective same)
  exact apart keys

/-- Every new identity is adopted for the head that the members signed once. -/
theorem joiningDesk_adopts (penalty : U256)
    (hashed : (joinedHead digest).signingDigest Digest = some digest)
    (fresh : delegate ∉ [zeroBytes Digest, .word 1, .word 2]) :
    adoptDelegateJoin Digest (signedOnly digest) (joiningDesk digest)
        (pairRegistered 1 delegate penalty) (joinedHead digest) =
      .ok { joiningDesk digest with
        channelRecords := Function.update (joiningDesk digest).channelRecords 1
          (some (pairRegistered 1 delegate penalty)) } := by
  have apart : delegate ≠ zeroBytes Digest := fun same => fresh (by simp [same])
  exact adoptDelegateJoin_ok_iff.mpr ⟨pairRegistered 0 (zeroBytes Digest) 0, rfl, .inr
    ⟨pairRegistered_digest_ne apart.symm, pairRegistered_appended fresh,
      ⟨joinedHead digest, rfl, rfl, rfl⟩, rfl, rfl,
      joinedHead_signed hashed 1 delegate penalty, rfl⟩⟩

/-- For one committed head, a stranger can adopt an identity and a penalty of their own choice; the
record that the members hold is refused from then on, and so is their debit. -/
theorem stranger_joins_first : ∃ (digest : Free.Bytes) (after after' : ChannelDesk Free.Bytes)
    (members stranger : RegisteredRecord Free.Bytes),
    members.specialClosePenalty = 0 ∧ stranger.specialClosePenalty = 1 ∧
      members.signingDigest Digest ≠ stranger.signingDigest Digest ∧
      (joiningDesk digest).channelRecords 1 = some (pairRegistered 0 (zeroBytes Digest) 0) ∧
      adoptDelegateJoin Digest (signedOnly digest) (joiningDesk digest) members
        (joinedHead digest) = .ok after ∧
      adoptDelegateJoin Digest (signedOnly digest) (joiningDesk digest) stranger
        (joinedHead digest) = .ok after' ∧
      adoptDelegateJoin Digest (signedOnly digest) after' members (joinedHead digest) =
        .error (.walletAuthorization "delegate join: delegate_count did not grow") ∧
      requireRegisteredRecord Digest after' 1 members = .error (.walletAuthorization
        "debit payload record differs from the producer's registered channel record") := by
  obtain ⟨digest, hashed⟩ := exists_joinedHead
  have differ : (pairRegistered 1 (.word 5) 0).signingDigest Digest ≠
      (pairRegistered 1 (.word 6) 1).signingDigest Digest := pairRegistered_digest_ne (by decide)
  refine ⟨digest, _, _, pairRegistered 1 (.word 5) 0, pairRegistered 1 (.word 6) 1,
    rfl, rfl, differ, rfl, joiningDesk_adopts 0 hashed (by decide),
    joiningDesk_adopts 1 hashed (by decide), ?_, ?_⟩
  · have registered : Function.update (joiningDesk digest).channelRecords 1
        (some (pairRegistered 1 (.word 6) 1)) (pairRegistered 1 (.word 5) 0).channelId =
        some (pairRegistered 1 (.word 6) 1) := rfl
    have stuck : verifyDelegatesAppended Digest (pairRegistered 1 (.word 6) 1)
        (pairRegistered 1 (.word 5) 0) = .error "delegate join: delegate_count did not grow" := rfl
    simp only [adoptDelegateJoin, registered, getOrRevert, bind, Except.bind,
      if_neg differ.symm, stuck, Except.mapError]
  · simp only [requireRegisteredRecord, Function.update_self, getOrRevert, bind,
      Except.bind, revertIf, if_pos differ]

/-- States with the digest of the head follow the head's own predecessor, and have its counts. -/
theorem joinedHead_honest (hashed : (joinedHead digest).signingDigest Digest = some digest) :
    Honest Digest (signedOnly digest) 1 (fun _ => pairRegistered 1 (.word 5) 0) where
  own _ := rfl
  signs _ state _ _ signed := by
    simp only [verifyAllSignatures, checkedDigest, verifySignatureAt, bind_ok, getOrRevert_ok,
      revertIf_ok, exists_unit, pure_ok, forM_ok, not_not, mapError_ok] at signed
    obtain ⟨own, ⟨own', found, -, rfl⟩, each⟩ := signed
    obtain ⟨_, -, _, -, -, verified⟩ := each 0 (mem_range.mpr (show 0 < 2 by decide))
    have same : own' = digest := by
      by_contra differ
      simp [signedOnly, differ] at verified
    subst same
    have balance := congrArg balanceState
      (signingDigest_injective Free.collisionFree Free.keccakInjective hashed found)
    exact ⟨.inl rfl, congrArg BalanceState.memberCount balance,
      congrArg BalanceState.delegateCount balance⟩

/-- A run in which the members' own record is adopted for the head. -/
theorem members_join_first : ∃ digest after,
    adoptDelegateJoin Digest (signedOnly digest) (joiningDesk digest)
      (pairRegistered 1 (.word 5) 0) (joinedHead digest) = .ok after ∧
    ∃ record head, after.channelRecords 1 = some record ∧ after.channelHeads 1 = some head ∧
      ∃ again, adoptDelegateJoin Digest (signedOnly digest) after
        (pairRegistered 1 (.word 5) 0) head = .ok again ∧
          requireRegisteredRecord Digest again 1 (pairRegistered 1 (.word 5) 0) = .ok () := by
  obtain ⟨digest, hashed⟩ := exists_joinedHead
  have adopted := joiningDesk_adopts 0 hashed
    (show Free.Bytes.word 5 ∉ [zeroBytes Digest, .word 1, .word 2] by decide)
  refine ⟨digest, _, adopted, ?_⟩
  have start : (joiningDesk digest).Serves Digest (signedOnly digest) 1
      (fun _ => pairRegistered 1 (.word 5) 0) :=
    ⟨pairRegistered 0 (zeroBytes Digest) 0, joinedHead digest, rfl, rfl,
      { channelId := rfl, memberCount := rfl, delegateCount := rfl
        follows := .inr { toAppended := pairRegistered_appended (by decide)
                          specialClosePenalty := rfl, closeFreezeNonce := rfl }
        signed := joinedHead_signed hashed 0 _ 0 }⟩
  have ran := adopted
  rw [← DeskCall.run.eq_2] at ran
  obtain ⟨record, head, found, before, adoptable, -⟩ := delegate_joins_follow_members
    (joinedHead_honest hashed) start (.single ⟨.inl ran, fun _ _ _ => rfl⟩)
  exact ⟨record, head, found, before, adoptable⟩

end Intmax.Producer
