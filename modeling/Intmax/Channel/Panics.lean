import Intmax.Channel.Registering

/-! # When the transition verifiers abort

The verifiers hash what they are given.  Hashing a ciphertext that is not canonical aborts the
program, and so do a sum of funds past 256 bits and an index outside of a vector.  Each part of a
verifier that may abort is shown to return exactly if its first step does; a verifier returns
exactly if no part of it that is reached aborts.
-/

namespace Intmax.Channel

open Checked Hashing Trees Validity RegevCiphertext List BalanceState ChannelState

variable {D B : Type}

/-- The program does not abort. -/
abbrev Returns {α : Type} (x : Except ChannelStateUpdateError α) : Prop := Avoids .panic x

variable {α β : Type} {state : BalanceState B} {tokenIndex : BitVec 32} {keys : Slots RegevPk}

theorem Returns.bind {x : Except ChannelStateUpdateError α}
    {k : α → Except ChannelStateUpdateError β} (first : Returns x)
    (rest : ∀ a, x = .ok a → Returns (k a)) : Returns (x >>= k) :=
  avoids_bind_iff.mpr ⟨first, rest⟩

theorem Returns.seq {x : Except ChannelStateUpdateError α} {y : Except ChannelStateUpdateError β}
    (first : Returns x) (rest : Returns y) : Returns (x >>= fun _ => y) :=
  first.bind fun _ _ => rest

variable {record : ChannelRecord B} {prev next : ChannelState B} {index : Nat}
  {tokenSlot : Fin maxChannelTokens} {named : List Nat} {reason name label : String}

/-! ## Checks that read rows, members and tokens -/

@[simp] theorem memberIndexPubkeyHash_returns : Returns (memberIndexPubkeyHash record index) := by
  unfold memberIndexPubkeyHash
  split <;> simp

@[simp] theorem singleReceiverDelta_returns {tx : InterChannelTx D B} :
    Returns (singleReceiverDelta tx) := by
  unfold singleReceiverDelta
  split <;> simp

@[simp] theorem slotAt_returns_iff {slots : Slots α} :
    Returns (slotAt slots index) ↔ index < maxChannelMembers := by
  unfold slotAt
  split <;> simp [*]

@[simp] theorem requireSmallBlockUnchanged_returns :
    Returns (requireSmallBlockUnchanged prev next) := by
  simp [requireSmallBlockUnchanged]

@[simp] theorem ensureFundsUnchangedExcept_returns :
    Returns (ensureFundsUnchangedExcept prev next tokenSlot) := by
  simp [ensureFundsUnchangedExcept]

@[simp] theorem activeTokenSlot_returns {slot : Nat} :
    Returns (activeTokenSlot state label slot) := by
  unfold activeTokenSlot
  split <;> simp

@[simp] theorem resolveTokenSlot_returns : Returns (resolveTokenSlot state tokenIndex) := by
  simp [resolveTokenSlot]

@[simp] theorem recipientDecryptionCheck_returns {backends : Backends B} {sk : Option RegevSk}
    {amount : Option (BitVec 64)} {delta balance : RegevCiphertext} :
    Returns (recipientDecryptionCheck backends sk amount name delta balance) := by
  unfold recipientDecryptionCheck
  cases sk <;> simp

section
variable (before : prev.balanceState.Hashable) (after : next.balanceState.Hashable)
include before after

/-- The checks of one slot. -/
theorem slot_returns (inside : index < maxChannelMembers) :
    (Returns (rowAt prev.balanceState.encBalances index) ∧
      Returns (rowAt next.balanceState.encBalances index)) ∧
    Returns (ensureSlotUnchanged prev next index) ∧
    Returns (requirePendingAddsUnchanged prev next index) ∧
    ∀ t, Returns (ensureRowUnchangedExcept prev next index t) ∧
      Returns (requirePendingAddsUnchangedExcept prev next index t) ∧
      Returns (requirePendingAddIncrement prev next index t) ∧
      (∀ reason, Returns (requirePendingAddsReset next index t reason)) ∧
      ∀ name delta, Returns (requireHomomorphicAdd prev next index t name delta) := by
  obtain ⟨row, found⟩ := before.row_at inside
  obtain ⟨row', found'⟩ := after.row_at inside
  obtain ⟨adds, counted⟩ := before.adds_at inside
  obtain ⟨adds', counted'⟩ := after.adds_at inside
  simp [rowAt, found, found', counted, counted', ensureSlotUnchanged, requirePendingAddsUnchanged,
    ensureRowUnchangedExcept, requirePendingAddsUnchangedExcept, requirePendingAddIncrement,
    requirePendingAddsReset, requireHomomorphicAdd]

/-- The checks of all slots but the named ones. -/
theorem slots_return (named : List Nat) :
    Returns (ensureSlotsUnchanged prev next named) ∧
      Returns (requireSlotsAddsUnchanged prev next named) ∧
      Returns (ensureSlotsFrozen prev next named) := by
  refine ⟨avoids_forM fun slot inside => ?_, avoids_forM fun slot inside => ?_,
    avoids_forM fun slot inside => ?_⟩
  all_goals
    have checks := slot_returns before after (mem_range.mp inside)
    split <;> simp [checks]

end

theorem BalanceState.applyTokenRegister_avoids :
    Avoids .panic (state.applyTokenRegister tokenIndex) := by
  unfold applyTokenRegister
  dsimp only
  split <;> simp

/-- A registration leaves the rows as they are. -/
theorem BalanceState.Hashable.applyTokenRegister {next : BalanceState B} (hashable : state.Hashable)
    (applied : state.applyTokenRegister tokenIndex = .ok next) : next.Hashable := by
  obtain ⟨room, -, rfl⟩ := applyTokenRegister_ok.mp applied
  exact ⟨⟨hashable.rows, hashable.counters⟩, hashable.ciphertexts⟩

/-- Only a panic is reported as a panic. -/
theorem report_returns_iff {x : Except ChannelError α}
    (heading : String → ChannelStateUpdateError) (loud : ∀ text, heading text ≠ .panic) :
    Returns (x.mapError (·.report heading)) ↔ Avoids .panic x := by
  refine avoids_mapError_iff.trans ⟨fun reported failed => reported _ failed rfl, ?_⟩
  intro avoids err failed
  cases err with
  | panic => exact absurd failed avoids
  | _ => exact loud _

/-! ## What comes from outside -/

/-- The verifiers from outside do not abort themselves. -/
structure Backends.Quiet (backends : Backends B) : Prop where
  regev : ∀ envelope purpose statement, Returns (backends.regev envelope purpose statement)
  transport : ∀ envelope inputs, Returns (backends.transport envelope inputs)

section
variable {backends : Backends B} (quiet : backends.Quiet)
include quiet

variable {envelope : ChannelProofEnvelope}

theorem Backends.Quiet.transfer {statement : RegevStatement} :
    Returns (verifyDecryptedTransferProof backends envelope statement) := by
  cases statement with
  | channelTx => exact quiet.regev _ _ _
  | channelUpdate => exact quiet.regev _ _ _
  | withdrawClaim => simp [verifyDecryptedTransferProof]
  | balanceRefresh => simp [verifyDecryptedTransferProof]

theorem Backends.Quiet.proof {role : TransitionProofRole} {backend : ProofBackend}
    {inputs : ChannelStateUpdatePublicInputs B} :
    Returns (verifyProof backends envelope role backend inputs) := by
  simp [verifyProof, quiet.transport]

end

/-- Proofs are accepted and nothing decrypts. -/
def Backends.accepting : Backends B where
  regev := fun _ _ _ => .ok ()
  transport := fun _ _ => .ok ()
  decrypt := fun _ _ => []

theorem Backends.accepting_quiet : (Backends.accepting (B := B)).Quiet where
  regev _ _ _ := avoids_ok
  transport _ _ := avoids_ok

/-! ## Digests -/

section
variable [Hashing D B]

theorem RegevCiphertext.digest_eq_none_iff {ct : RegevCiphertext} :
    (ct.digest D : Option B) = none ↔ ct.validate ≠ .ok () := by
  constructor
  · intro missing valid
    have hashed := digest_isSome (D := D) (B := B) valid
    simp [missing] at hashed
  · intro invalid
    cases found : (ct.digest D : Option B) with
    | none => rfl
    | some digest => exact absurd (validate_of_digest found) invalid

theorem ChannelState.signingDigest_eq_none_iff {state : ChannelState B} :
    state.signingDigest D = none ↔ ¬ state.balanceState.Hashable := by
  constructor
  · intro missing hashable
    obtain ⟨digest, found⟩ := signingDigest_isSome (D := D) hashable
    cases missing.symm.trans found
  · intro unhashable
    cases found : state.signingDigest D with
    | none => rfl
    | some digest =>
      simp [signingDigest, Option.bind_eq_some_iff] at found
      obtain ⟨h1, hashed, -⟩ := found
      exact absurd (hashable_of_h1 hashed) unhashable

namespace InterChannelTx

variable {tx : InterChannelTx D B}

/-- What hashing a transfer asserts. -/
structure Hashable (tx : InterChannelTx D B) : Prop where
  sender : tx.senderDeltaCt.validate = .ok ()
  receivers : ∀ delta ∈ tx.receiverDeltas, delta.amount.validate = .ok ()

theorem deltaItems_eq_none_iff {delta : ReceiverBalanceDelta B} :
    deltaItems (D := D) delta = none ↔ delta.amount.validate ≠ .ok () := by
  rw [← digest_eq_none_iff (D := D) (B := B)]
  cases found : (delta.amount.digest D : Option B) <;> simp [deltaItems, found]

theorem signingDigest_eq_none_iff : tx.signingDigest = none ↔ ¬ tx.Hashable := by
  constructor
  · rintro missing ⟨sender, receivers⟩
    obtain ⟨digest, hashed⟩ := Option.isSome_iff_exists.mp
      (digest_isSome (D := D) (B := B) sender)
    have each : ∀ delta ∈ tx.receiverDeltas, (deltaItems (D := D) delta).isSome = true := by
      intro delta member
      rw [Option.isSome_iff_ne_none, Ne, deltaItems_eq_none_iff, not_not]
      exact receivers delta member
    obtain ⟨items, all, -⟩ := mapM_option_some each
    simp [signingDigest, hashed, all] at missing
  · intro unhashable
    cases found : tx.signingDigest with
    | none => rfl
    | some digest =>
      simp [signingDigest, Option.bind_eq_some_iff] at found
      obtain ⟨sender, hashed, items, all, -⟩ := found
      refine absurd ⟨validate_of_digest hashed, fun delta member => ?_⟩ unhashable
      obtain ⟨_, here, -⟩ := mapM_option_inj all all delta member
      by_contra invalid
      cases here.symm.trans (deltaItems_eq_none_iff.mpr invalid)

/-- What hashing the leaf of a transfer asserts.  Without a receiver it is an error. -/
def LeafHashable (tx : InterChannelTx D B) : Prop :=
  ∀ delta, tx.receiverDeltas.head? = some delta →
    tx.senderDeltaCt.validate = .ok () ∧ delta.amount.validate = .ok ()

theorem txLeafHash_avoids_iff : Avoids .panic tx.txLeafHash ↔ tx.LeafHashable := by
  simp [txLeafHash, digest_eq_none_iff, reduceCtorEq, LeafHashable]
  refine forall₂_congr fun delta first => and_congr_right fun valid => ?_
  obtain ⟨digest, hashed⟩ := Option.isSome_iff_exists.mp (digest_isSome (D := D) (B := B) valid)
  simp [hashed]

omit [Hashing D B] in
theorem leafHashable_iff {delta : ReceiverBalanceDelta B} (single : tx.receiverDeltas = [delta]) :
    tx.LeafHashable ↔ tx.Hashable := by
  simp [LeafHashable, single]
  exact ⟨fun both => ⟨both.1, by simpa [single] using both.2⟩,
    fun hashable => ⟨hashable.sender, hashable.receivers delta (by simp [single])⟩⟩

end InterChannelTx

theorem tokenRegisterNextState_avoids {prev : ChannelState B} (tokenIndex : BitVec 32)
    (hashable : prev.balanceState.Hashable) :
    Avoids .panic (prev.tokenRegisterNextState D tokenIndex) := by
  simp [tokenRegisterNextState]
  refine ⟨applyTokenRegister_avoids, fun balance applied => ?_⟩
  obtain ⟨h1, hashed⟩ := (hashable.applyTokenRegister applied).h1_isSome (D := D)
  simp [withComputedDigest, signingDigest, hashed]

/-- A coefficient at the modulus, in a vector of the right length. -/
def RegevCiphertext.unreduced : RegevCiphertext where
  c1 := List.replicate regevN (BitVec.ofNat 32 regevQ)
  c2 := List.replicate regevN 0

theorem RegevCiphertext.unreduced_validate : unreduced.validate ≠ .ok () := by
  have member : BitVec.ofNat 32 regevQ ∈ unreduced.c1 ++ unreduced.c2 :=
    mem_append_left _ (mem_replicate.mpr ⟨by decide, rfl⟩)
  intro checked
  simp only [validate, bind_ok, revertIf_ok, exists_unit] at checked
  obtain ⟨-, searched⟩ := checked
  cases found : (unreduced.c1 ++ unreduced.c2).find? (fun c => decide (regevQ ≤ c.toNat)) with
  | some c =>
    rw [found] at searched
    cases searched
  | none => exact absurd (find?_eq_none.mp found _ member) (by decide)

end

/-! ## Checks that compare -/

section
variable [DecidableEq B]

@[simp] theorem requireAccumulatorUnchanged_returns {before after : B} :
    Returns (requireAccumulatorUnchanged before after) := by
  simp [requireAccumulatorUnchanged]

@[simp] theorem ensureSameRoot_returns {before after : B} :
    Returns (ensureSameRoot name before after) := by
  simp [ensureSameRoot]

@[simp] theorem ensureDifferentRoot_returns {before after : B} :
    Returns (ensureDifferentRoot name before after) := by
  simp [ensureDifferentRoot]

variable {key : B}

@[simp] theorem memberSlotIndex_returns : Returns (memberSlotIndex record key) := by
  simp [memberSlotIndex]

@[simp] theorem activeMemberIndex_returns : Returns (activeMemberIndex record key) := by
  simp [activeMemberIndex]

end

variable [Hashing D B] [DecidableEq B]

@[simp] theorem verifyBalanceStateShared_returns :
    Returns (verifyBalanceStateShared D record prev next) := by
  simp [verifyBalanceStateShared, verifyOrdinaryStateMetadata, verifyParticipants]

@[simp] theorem verifyBalanceStateCommon_returns :
    Returns (verifyBalanceStateCommon D record prev next) := by
  simp [verifyBalanceStateCommon]

@[simp] theorem verifyNextStateSignatures_returns :
    Returns (verifyNextStateSignatures D record next) := by
  simp [verifyNextStateSignatures]

@[simp] theorem requireH2Zero_returns : Returns (requireH2Zero D next) := by
  simp [requireH2Zero]

@[simp] theorem requireChainUnchanged_returns : Returns (requireChainUnchanged prev next) := by
  simp [requireChainUnchanged]

@[simp] theorem requireChainPush_returns {leaf : B} :
    Returns (requireChainPush D prev next leaf) := by
  simp [requireChainPush]

@[simp] theorem requireIncomingApplication_returns {before after txHash : B}
    {position : BitVec 64} {proof : MerkleProof D} :
    Returns (requireIncomingApplication before after txHash position proof) := by
  simp [requireIncomingApplication]

@[simp] theorem ensureSameU256_returns {before after : U256} :
    Returns (ensureSameU256 name before after) := by
  simp [ensureSameU256]

@[simp] theorem ensureSameChannelFund_returns : Returns (ensureSameChannelFund prev next) := by
  simp [ensureSameChannelFund]

@[simp] theorem ensureFundIdentityUnchanged_returns :
    Returns (ensureFundIdentityUnchanged prev next) := by
  simp [ensureFundIdentityUnchanged]

@[simp] theorem requireKeyDependent_returns {ct : RegevCiphertext} :
    Returns (requireKeyDependent label ct) := by
  simp [requireKeyDependent]

@[simp] theorem validateSignedSmallBlock_returns {tx : InterChannelTx D B} {source : ChannelId}
    {nonce : BitVec 64} : Returns (validateSignedSmallBlock record source nonce tx) := by
  simp [validateSignedSmallBlock]

/-- What hashing both states of a link asserts.  A link that is broken before is an error, and so is
    a wrong digest of the previous state before the next one is hashed. -/
def LinkHashable (D : Type) {B : Type} [Hashing D B] (prev next : ChannelState B) : Prop :=
  prev.channelId = next.channelId → next.epoch = prev.epoch + 1 →
    next.prevDigest = prev.digest → prev.balanceState.Hashable ∧
      (prev.signingDigest D = some prev.digest → next.balanceState.Hashable)

@[simp] theorem verifyStateLinkage_returns_iff :
    Returns (verifyStateLinkage D prev next) ↔ LinkHashable D prev next := by
  simp [verifyStateLinkage, signingDigest_eq_none_iff, reduceCtorEq]
  refine imp_congr_right fun _ => imp_congr_right fun _ => imp_congr_right fun _ => ?_
  refine and_congr_right fun _ => ⟨fun next found => next _ found rfl, ?_⟩
  exact fun next digest found same => next (same ▸ found)

theorem verifyStateLinkage_hashable (accepted : verifyStateLinkage D prev next = .ok ()) :
    prev.balanceState.Hashable ∧ next.balanceState.Hashable := by
  simp only [verifyStateLinkage, bind_ok, revertIf_ok, exists_unit, getOrRevert_ok] at accepted
  obtain ⟨-, -, -, _, hashed, -, _, hashed', -⟩ := accepted
  have some_hashable {state : ChannelState B} {digest : B}
      (found : state.signingDigest D = some digest) : state.balanceState.Hashable := by
    by_contra unhashable
    cases found.symm.trans (signingDigest_eq_none_iff.mpr unhashable)
  exact ⟨some_hashable hashed, some_hashable hashed'⟩

theorem requireTokenBearingTxHash_returns_iff [OfLimbs B] {tx : InterChannelTx D B} :
    Returns (requireTokenBearingTxHash tx) ↔ tx.LeafHashable := by
  have computed : Avoids .panic tx.computeTxHash ↔ tx.LeafHashable := by
    simp [InterChannelTx.computeTxHash, InterChannelTx.txLeafHash_avoids_iff]
  simp only [requireTokenBearingTxHash, avoids_bind_iff,
    report_returns_iff .invalidSettledTxChain (by simp), computed]
  simp

/-! ## Keys -/

theorem validateRegevPk_ok {pk : RegevPk} (valid : validateRegevPk pk = .ok ()) :
    pk.validate = true := by
  simp only [validateRegevPk, bind_ok, revertIf_ok, exists_unit, not_or, not_not] at valid
  obtain ⟨⟨sizeA, sizeB⟩, canonical⟩ := valid
  cases found : (pk.a ++ pk.b).find? fun c => decide (regevQ ≤ c.toNat) with
  | some c =>
    rw [found] at canonical
    cases canonical
  | none =>
    rw [find?_eq_none] at found
    simp only [RegevPk.validate, sizeA, sizeB, beq_self_eq_true, Bool.and_self, Bool.true_and,
      all_eq_true, decide_eq_true_eq]
    intro c member
    simpa using found c member

/-- Every key is checked before any of them is hashed. -/
@[simp] theorem verifyRegevPkRoot_returns : Returns (verifyRegevPkRoot D record keys) := by
  simp only [verifyRegevPkRoot, avoids_bind_iff, forM_ok, mapError_ok]
  refine ⟨avoids_forM fun _ _ => by simp, fun _ valid => ⟨?_, by simp⟩⟩
  have hashed : ∀ key ∈ (finRange maxChannelMembers).map keys,
      (regevPkDigest D key : Option B).isSome = true := by
    intro key member
    obtain ⟨slot, listed, rfl⟩ := mem_map.mp member
    simp [regevPkDigest, validateRegevPk_ok (valid slot listed)]
  obtain ⟨digests, all, -⟩ := mapM_option_some hashed
  simp [regevPkRoot, all]

theorem verifyRegevPkRoot_keys (accepted : verifyRegevPkRoot D record keys = .ok ())
    (slot : Fin maxChannelMembers) : (keys slot).validate = true := by
  simp only [verifyRegevPkRoot, bind_ok, forM_ok, mapError_ok, exists_unit] at accepted
  exact validateRegevPk_ok (accepted.1 slot (mem_finRange slot))

omit [DecidableEq B] in
theorem poseidonDigest_eq_none_iff {pk : RegevPk} :
    (pk.poseidonDigest : Option D) = none ↔ pk.validate ≠ true := by
  simp [RegevPk.poseidonDigest]

/-! ## Sums -/

@[simp] theorem requireIncrease_returns_iff {small big : U256} {amount : BitVec 64} :
    Returns (requireIncrease small big amount reason) ↔ small.val + amount.toNat < 2 ^ 256 := by
  have sum : u256Add small (u64ToU256 amount) = none ↔ ¬ small.val + amount.toNat < 2 ^ 256 := by
    constructor
    · intro missing fits
      cases missing.symm.trans
        (u256Add_eq_some.mpr (rfl : (⟨small.val + amount.toNat, fits⟩ : U256).val = _))
    · intro overflow
      cases found : u256Add small (u64ToU256 amount) with
      | none => rfl
      | some sum => exact absurd (u256Add_eq_some.mp found ▸ sum.isLt) overflow
  simp [requireIncrease, sum]

/-! ## The verifiers -/

section
variable {backends : Backends B} {α : Type} {rest : Unit → Except ChannelStateUpdateError α}

/-- Once the states are linked, both were hashed. -/
theorem linkage_returns_iff
    (returns : verifyStateLinkage D prev next = .ok () → Returns (rest ())) :
    Returns (verifyStateLinkage D prev next >>= rest) ↔ LinkHashable D prev next :=
  ⟨fun all => verifyStateLinkage_returns_iff.mp (avoids_bind_iff.mp all).1,
    fun states => .bind (verifyStateLinkage_returns_iff.mpr states) fun _ => returns⟩

theorem keys_returns_iff (returns : verifyStateLinkage D prev next = .ok () → Returns (rest ())) :
    Returns (verifyRegevPkRoot D record keys >>= fun _ =>
      verifyStateLinkage D prev next >>= rest) ↔
        (verifyRegevPkRoot D record keys = .ok () → LinkHashable D prev next) :=
  avoids_bind_iff.trans ⟨fun all passed => (linkage_returns_iff returns).mp (all.2 () passed),
    fun states => ⟨verifyRegevPkRoot_returns,
      fun _ passed => (linkage_returns_iff returns).mpr (states passed)⟩⟩

namespace InChannelTransferUpdateWitness

variable {w : InChannelTransferUpdateWitness B}

/-- Nothing that is hashed when it is reached aborts. -/
structure Safe (D : Type) {B : Type} [Hashing D B] [DecidableEq B]
    (w : InChannelTransferUpdateWitness B) : Prop where
  states : verifyRegevPkRoot D w.channelRecord w.regevPks = .ok () →
    LinkHashable D w.prevState w.nextState
  encAmount : w.verifyParties D = .ok () → w.channelTx.encAmount.validate = .ok ()

theorem verifyParties_returns_iff : Returns (w.verifyParties D) ↔
    (verifyRegevPkRoot D w.channelRecord w.regevPks = .ok () →
      LinkHashable D w.prevState w.nextState) := by
  simp [verifyParties, forall_unit]

theorem verifyParties_ok (passed : w.verifyParties D = .ok ()) :
    (w.prevState.balanceState.Hashable ∧ w.nextState.balanceState.Hashable) ∧
      w.senderIndex < maxChannelMembers ∧ w.recipientIndex < maxChannelMembers := by
  simp only [verifyParties, bind_ok, exists_unit] at passed
  obtain ⟨-, linkage, -, -, -, -, -, -, -, -, -, _, sender, _, recipient, -⟩ := passed
  exact ⟨verifyStateLinkage_hashable linkage, memberIndexPubkeyHash_ok sender,
    memberIndexPubkeyHash_ok recipient⟩

omit [DecidableEq B] in
theorem txDigest_returns_iff {tx : ChannelTx B} {channelId : ChannelId} {prevDigest : B} :
    Returns (getOrRevert (tx.signingDigest D channelId prevDigest) .panic) ↔
      tx.encAmount.validate = .ok () := by
  refine avoids_getOrRevert_iff.trans ?_
  rw [← not_iff_not, ← Ne, ← digest_eq_none_iff (D := D) (B := B)]
  cases found : (tx.encAmount.digest D : Option B) <;> simp [ChannelTx.signingDigest, found]

theorem returns_iff (quiet : backends.Quiet) : Returns (w.verify D backends) ↔ w.Safe D := by
  constructor
  · intro returns
    obtain ⟨parties, rest⟩ := avoids_bind_iff.mp returns
    refine ⟨(verifyParties_returns_iff (D := D)).mp parties, fun passed => ?_⟩
    exact (txDigest_returns_iff (D := D)).mp (avoids_bind_iff.mp (rest () passed)).1
  · intro safe
    -- a later part is reached only after the earlier ones passed, and may use what they checked
    refine .bind (verifyParties_returns_iff.mpr safe.states) fun _ passed => ?_
    obtain ⟨⟨before, after⟩, sender, recipient⟩ := verifyParties_ok passed
    refine .bind (txDigest_returns_iff.mpr (safe.encAmount passed)) fun _ _ => ?_
    simp [sender, recipient, slot_returns before after sender, slot_returns before after recipient,
      slots_return before after, quiet.transfer]

end InChannelTransferUpdateWitness

namespace InterChannelSendUpdateWitness

variable {w : InterChannelSendUpdateWitness D B} {delta : ReceiverBalanceDelta B}

/-- Nothing that is hashed or added when it is reached aborts. -/
structure Safe [OfLimbs B] (w : InterChannelSendUpdateWitness D B) : Prop where
  states : verifyRegevPkRoot D w.channelRecord w.regevPks = .ok () →
    LinkHashable D w.prevState w.nextState
  recipientKey : ∀ delta, w.verifySmallBlock = .ok delta →
    w.destinationRecipientPk.validate = true
  ciphertexts : ∀ delta, w.verifySmallBlock = .ok delta → w.verifyReceiver delta = .ok () →
    w.interChannelTx.Hashable
  fits : ∀ delta t, w.verifySmallBlock = .ok delta → w.verifyReceiver delta = .ok () →
    w.verifySettledTx delta = .ok t →
      (w.nextState.channelFund.amounts t).val + w.amount.toNat < 2 ^ 256

theorem verifySmallBlock_returns_iff : Returns w.verifySmallBlock ↔
    (verifyRegevPkRoot D w.channelRecord w.regevPks = .ok () →
      LinkHashable D w.prevState w.nextState) := by
  refine keys_returns_iff fun linkage => ?_
  obtain ⟨h1, hashed⟩ := (verifyStateLinkage_hashable linkage).2.h1_isSome (D := D)
  simp [hashed]

theorem verifySmallBlock_ok (passed : w.verifySmallBlock = .ok delta) :
    (w.prevState.balanceState.Hashable ∧ w.nextState.balanceState.Hashable) ∧
      w.interChannelTx.receiverDeltas = [delta] := by
  simp only [verifySmallBlock, bind_ok, exists_unit] at passed
  obtain ⟨-, linkage, -, -, -, -, -, -, _, -, -, single⟩ := passed
  exact ⟨verifyStateLinkage_hashable linkage, singleReceiverDelta_ok single⟩

theorem verifyReceiver_returns_iff :
    Returns (w.verifyReceiver delta) ↔ w.destinationRecipientPk.validate = true := by
  simp [verifyReceiver, poseidonDigest_eq_none_iff]

theorem verifySettledTx_returns_iff [OfLimbs B] :
    Returns (w.verifySettledTx delta) ↔ w.interChannelTx.LeafHashable := by
  simp [verifySettledTx, report_returns_iff .invalidSettledTxChain (by simp),
    InterChannelTx.txLeafHash_avoids_iff, requireTokenBearingTxHash_returns_iff]
  simp +contextual

theorem returns_iff [OfLimbs B] (quiet : backends.Quiet) :
    Returns (w.verify backends) ↔ w.Safe := by
  constructor
  · intro returns
    obtain ⟨block, rest⟩ := avoids_bind_iff.mp returns
    refine ⟨verifySmallBlock_returns_iff.mp block, fun delta passed => ?_,
      fun delta passed received => ?_, fun delta t passed received settled => ?_⟩
    · exact verifyReceiver_returns_iff.mp (avoids_bind_iff.mp (rest delta passed)).1
    · have settling := (avoids_bind_iff.mp ((avoids_bind_iff.mp (rest delta passed)).2
        () received)).1
      exact (InterChannelTx.leafHashable_iff (verifySmallBlock_ok passed).2).mp
        (verifySettledTx_returns_iff.mp settling)
    · have rest := (avoids_bind_iff.mp (rest delta passed)).2 () received
      have rest := (avoids_bind_iff.mp rest).2 t settled
      exact requireIncrease_returns_iff.mp (avoids_bind_iff.mp rest).1
  · intro safe
    refine .bind (verifySmallBlock_returns_iff.mpr safe.states) fun delta passed => ?_
    obtain ⟨⟨before, after⟩, single⟩ := verifySmallBlock_ok passed
    refine .bind (verifyReceiver_returns_iff.mpr (safe.recipientKey delta passed))
      fun _ received => ?_
    have hashable := safe.ciphertexts delta passed received
    refine .bind (verifySettledTx_returns_iff.mpr
      ((InterChannelTx.leafHashable_iff single).mpr hashable)) fun t settled => ?_
    refine .seq (requireIncrease_returns_iff.mpr (safe.fits delta t passed received settled)) ?_
    have checks (sender : Fin maxChannelMembers) := slot_returns before after sender.isLt
    simp [checks, slots_return before after, quiet.transfer, quiet.proof,
      InterChannelTx.signingDigest_eq_none_iff, hashable]

end InterChannelSendUpdateWitness

namespace InterChannelFundImportUpdateWitness

variable {w : InterChannelFundImportUpdateWitness D B} {t : Fin maxChannelTokens}

/-- Nothing that is hashed or added when it is reached aborts. -/
structure Safe [OfLimbs B] (w : InterChannelFundImportUpdateWitness D B) : Prop where
  states : LinkHashable D w.prevState w.nextState
  leaf : w.verifySmallBlock = .ok () → w.interChannelTx.LeafHashable
  fits : ∀ t, w.verifySmallBlock = .ok () → w.verifySettledTx = .ok t →
    (w.prevState.channelFund.amounts t).val + w.amount.toNat < 2 ^ 256
  incoming : ∀ t, w.verifySmallBlock = .ok () → w.verifySettledTx = .ok t →
    w.verifyFund t = .ok () →
      w.prevState.unallocatedConfirmedIncoming.val + w.amount.toNat < 2 ^ 256
  ciphertexts : ∀ t delta, w.verifySmallBlock = .ok () → w.verifySettledTx = .ok t →
    w.verifyFund t = .ok () → w.verifyReceiver = .ok delta → w.interChannelTx.Hashable

theorem verifySmallBlock_returns_iff :
    Returns w.verifySmallBlock ↔ LinkHashable D w.prevState w.nextState := by
  simp [verifySmallBlock]

theorem verifySmallBlock_ok (passed : w.verifySmallBlock = .ok ()) :
    w.prevState.balanceState.Hashable ∧ w.nextState.balanceState.Hashable := by
  simp [verifySmallBlock] at passed
  exact verifyStateLinkage_hashable passed.1

theorem verifySettledTx_returns_iff [OfLimbs B] :
    Returns w.verifySettledTx ↔ w.interChannelTx.LeafHashable := by
  simp [verifySettledTx, report_returns_iff .invalidSettledTxChain (by simp),
    InterChannelTx.txLeafHash_avoids_iff, requireTokenBearingTxHash_returns_iff]
  simp +contextual

omit [Hashing D B] in
theorem verifyFund_returns_iff : Returns (w.verifyFund t) ↔
    (w.prevState.channelFund.amounts t).val + w.amount.toNat < 2 ^ 256 := by
  simp [verifyFund]

omit [Hashing D B] in
theorem verifyReceiver_returns_iff (before : w.prevState.balanceState.Hashable)
    (after : w.nextState.balanceState.Hashable) : Returns w.verifyReceiver ↔
      w.prevState.unallocatedConfirmedIncoming.val + w.amount.toNat < 2 ^ 256 := by
  simp [verifyReceiver, slots_return before after]

theorem returns_iff [OfLimbs B] (quiet : backends.Quiet) :
    Returns (w.verify backends) ↔ w.Safe := by
  constructor
  · intro returns
    obtain ⟨block, rest⟩ := avoids_bind_iff.mp returns
    have settling (passed : w.verifySmallBlock = .ok ()) := avoids_bind_iff.mp (rest () passed)
    have funding (t) (passed : w.verifySmallBlock = .ok ()) (settled : w.verifySettledTx = .ok t) :=
      avoids_bind_iff.mp ((settling passed).2 t settled)
    have receiving (t) (passed : w.verifySmallBlock = .ok ()) (settled : w.verifySettledTx = .ok t)
        (funded : w.verifyFund t = .ok ()) :=
      avoids_bind_iff.mp ((funding t passed settled).2 () funded)
    refine ⟨verifySmallBlock_returns_iff.mp block, fun passed => ?_, fun t passed settled => ?_,
      fun t passed settled funded => ?_, fun t delta passed settled funded received => ?_⟩
    · exact verifySettledTx_returns_iff.mp (settling passed).1
    · exact verifyFund_returns_iff.mp (funding t passed settled).1
    · obtain ⟨before, after⟩ := verifySmallBlock_ok passed
      exact (verifyReceiver_returns_iff before after).mp (receiving t passed settled funded).1
    · have hashing := (receiving t passed settled funded).2 delta received
      simpa [InterChannelTx.signingDigest_eq_none_iff] using (avoids_bind_iff.mp hashing).1
  · intro safe
    refine .bind (verifySmallBlock_returns_iff.mpr safe.states) fun _ passed => ?_
    obtain ⟨before, after⟩ := verifySmallBlock_ok passed
    refine .bind (verifySettledTx_returns_iff.mpr (safe.leaf passed)) fun t settled => ?_
    refine .bind (verifyFund_returns_iff.mpr (safe.fits t passed settled)) fun _ funded => ?_
    refine .bind ((verifyReceiver_returns_iff before after).mpr
      (safe.incoming t passed settled funded)) fun delta received => ?_
    have hashable := safe.ciphertexts t delta passed settled funded received
    simp [InterChannelTx.signingDigest_eq_none_iff, hashable, quiet.proof]

end InterChannelFundImportUpdateWitness

namespace L1DepositImportUpdateWitness

variable {w : L1DepositImportUpdateWitness B} {t : Fin maxChannelTokens}

/-- Nothing that is hashed, added or indexed when it is reached aborts. -/
structure Safe (D : Type) {B : Type} [Hashing D B] [DecidableEq B]
    (w : L1DepositImportUpdateWitness B) : Prop where
  states : LinkHashable D w.prevState w.nextState
  fits : ∀ t, w.verifyToken D = .ok t →
    (w.prevState.channelFund.amounts t).val + w.amount.toNat < 2 ^ 256
  incoming : ∀ t, w.verifyToken D = .ok t → w.verifyFund t = .ok () →
    w.prevState.unallocatedConfirmedIncoming.val + w.amount.toNat < 2 ^ 256
  depositor : ∀ t, w.verifyToken D = .ok t → w.verifyFund t = .ok () →
    w.verifyIncoming = .ok () → w.depositorSlot < maxChannelMembers

theorem verifyToken_returns_iff :
    Returns (w.verifyToken D) ↔ LinkHashable D w.prevState w.nextState := by
  simp [verifyToken]

theorem verifyToken_ok (passed : w.verifyToken D = .ok t) :
    w.prevState.balanceState.Hashable ∧ w.nextState.balanceState.Hashable := by
  simp [verifyToken] at passed
  exact verifyStateLinkage_hashable passed.1

theorem verifyIncoming_returns_iff (before : w.prevState.balanceState.Hashable)
    (after : w.nextState.balanceState.Hashable) : Returns w.verifyIncoming ↔
      w.prevState.unallocatedConfirmedIncoming.val + w.amount.toNat < 2 ^ 256 := by
  simp [verifyIncoming, slots_return before after]

theorem returns_iff : Returns (w.verify D) ↔ w.Safe D := by
  constructor
  · intro returns
    obtain ⟨token, rest⟩ := avoids_bind_iff.mp returns
    have funding (t) (passed : w.verifyToken D = .ok t) := avoids_bind_iff.mp (rest t passed)
    have adding (t) (passed : w.verifyToken D = .ok t) (funded : w.verifyFund t = .ok ()) :=
      avoids_bind_iff.mp ((funding t passed).2 () funded)
    refine ⟨verifyToken_returns_iff.mp token, fun t passed => ?_, fun t passed funded => ?_,
      fun t passed funded added => ?_⟩
    · simpa [verifyFund] using (funding t passed).1
    · obtain ⟨before, after⟩ := verifyToken_ok passed
      exact (verifyIncoming_returns_iff before after).mp (adding t passed funded).1
    · exact slotAt_returns_iff.mp (avoids_bind_iff.mp ((adding t passed funded).2 () added)).1
  · intro safe
    refine .bind (verifyToken_returns_iff.mpr safe.states) fun t passed => ?_
    obtain ⟨before, after⟩ := verifyToken_ok passed
    refine .bind (by simpa [verifyFund] using safe.fits t passed) fun _ funded => ?_
    refine .bind ((verifyIncoming_returns_iff before after).mpr
      (safe.incoming t passed funded)) fun _ added => ?_
    simp [safe.depositor t passed funded added]

end L1DepositImportUpdateWitness

namespace ReceiverBundleApplyUpdateWitness

variable {w : ReceiverBundleApplyUpdateWitness D B}

/-- Nothing that is hashed or added when it is reached aborts. -/
structure Safe (w : ReceiverBundleApplyUpdateWitness D B) : Prop where
  states : verifyRegevPkRoot D w.receiverChannelRecord w.regevPks = .ok () →
    LinkHashable D w.prevState w.nextState
  incoming : w.verifyStates = .ok () →
    w.nextState.unallocatedConfirmedIncoming.val + w.amount.toNat < 2 ^ 256
  ciphertexts : ∀ found, w.verifyStates = .ok () → w.verifyRecipient = .ok found →
    w.interChannelTx.Hashable

theorem verifyStates_returns_iff : Returns w.verifyStates ↔
    (verifyRegevPkRoot D w.receiverChannelRecord w.regevPks = .ok () →
      LinkHashable D w.prevState w.nextState) := by
  simp [verifyStates, forall_unit]

theorem verifyStates_ok (passed : w.verifyStates = .ok ()) :
    (w.prevState.balanceState.Hashable ∧ w.nextState.balanceState.Hashable) ∧
      ∀ slot, (w.regevPks slot).validate = true := by
  simp [verifyStates] at passed
  exact ⟨verifyStateLinkage_hashable passed.2.1, verifyRegevPkRoot_keys passed.1⟩

/-- The key at the slot was among those that were checked. -/
theorem verifyRecipient_returns_iff (keys : ∀ slot, (w.regevPks slot).validate = true) :
    Returns w.verifyRecipient ↔
      w.nextState.unallocatedConfirmedIncoming.val + w.amount.toNat < 2 ^ 256 := by
  constructor
  · intro returns
    exact requireIncrease_returns_iff.mp (avoids_bind_iff.mp returns).1
  · intro fits
    refine .seq (requireIncrease_returns_iff.mpr fits) ?_
    refine .seq ensureSameRoot_returns ?_
    refine .bind singleReceiverDelta_returns fun _ _ => ?_
    refine .bind memberIndexPubkeyHash_returns fun _ member => ?_
    have inside := memberIndexPubkeyHash_ok member
    simp [slotAt, inside, poseidonDigest_eq_none_iff, keys]

theorem verifyRecipient_ok {found : ReceiverBalanceDelta B × RegevPk × Fin maxChannelTokens}
    (passed : w.verifyRecipient = .ok found) :
    w.interChannelTx.receiverDeltas = [found.1] ∧ w.recipientIndex < maxChannelMembers := by
  simp only [verifyRecipient, bind_ok, exists_unit, pure_ok] at passed
  obtain ⟨-, -, delta, single, _, member, -, _, -, _, -, -, -, -, -, _, -, rfl⟩ := passed
  exact ⟨singleReceiverDelta_ok single, memberIndexPubkeyHash_ok member⟩

theorem returns_iff [OfLimbs B] (quiet : backends.Quiet) :
    Returns (w.verify backends) ↔ w.Safe := by
  constructor
  · intro returns
    obtain ⟨states, rest⟩ := avoids_bind_iff.mp returns
    refine ⟨verifyStates_returns_iff.mp states, fun passed => ?_, fun found passed named => ?_⟩
    · exact (verifyRecipient_returns_iff (verifyStates_ok passed).2).mp
        (avoids_bind_iff.mp (rest () passed)).1
    · have hashing := (avoids_bind_iff.mp (rest () passed)).2 found named
      exact (InterChannelTx.leafHashable_iff (verifyRecipient_ok named).1).mp
        (requireTokenBearingTxHash_returns_iff.mp (avoids_bind_iff.mp hashing).1)
  · intro safe
    refine .bind (verifyStates_returns_iff.mpr safe.states) fun _ passed => ?_
    obtain ⟨⟨before, after⟩, keys⟩ := verifyStates_ok passed
    refine .bind ((verifyRecipient_returns_iff keys).mpr (safe.incoming passed))
      fun found named => ?_
    obtain ⟨single, recipient⟩ := verifyRecipient_ok named
    have hashable := safe.ciphertexts found passed named
    refine .seq (requireTokenBearingTxHash_returns_iff.mpr
      ((InterChannelTx.leafHashable_iff single).mpr hashable)) ?_
    simp [slot_returns before after recipient, slots_return before after, quiet.transfer,
      InterChannelTx.signingDigest_eq_none_iff, hashable]

end ReceiverBundleApplyUpdateWitness

/-- A refresh hashes two states, and two ciphertexts of theirs. -/
theorem BalanceRefreshUpdateWitness.returns_iff {w : BalanceRefreshUpdateWitness B}
    (quiet : backends.Quiet) : Returns (w.verify D backends) ↔
      (verifyRegevPkRoot D w.channelRecord w.regevPks = .ok () →
        LinkHashable D w.prevState w.nextState) := by
  refine keys_returns_iff fun linkage => ?_
  obtain ⟨before, after⟩ := verifyStateLinkage_hashable linkage
  by_cases inside : w.memberIndex < maxChannelMembers
  · -- both ciphertexts are canonical, as those of the states are
    obtain ⟨row, found⟩ := before.row_at inside
    obtain ⟨row', found'⟩ := after.row_at inside
    choose old hashed using fun t => Option.isSome_iff_exists.mp
      (digest_isSome (D := D) (B := B) (before.ciphertexts ⟨_, inside⟩ row found t))
    choose new hashed' using fun t => Option.isSome_iff_exists.mp
      (digest_isSome (D := D) (B := B) (after.ciphertexts ⟨_, inside⟩ row' found' t))
    simp [slot_returns before after inside, slots_return before after, inside, quiet.regev, rowAt,
      found, found', balanceRefreshDigest, hashed, hashed']
  · have outside (key) : memberIndexPubkeyHash w.channelRecord w.memberIndex ≠ .ok key :=
      fun member => inside (memberIndexPubkeyHash_ok member)
    simp [outside]

theorem TokenRegisterUpdateWitness.returns_iff {w : TokenRegisterUpdateWitness B} :
    Returns (w.verify D) ↔ LinkHashable D w.prevState w.nextState := by
  refine linkage_returns_iff fun linkage => ?_
  have next := tokenRegisterNextState_avoids (D := D) w.tokenIndex
    (verifyStateLinkage_hashable linkage).1
  simp [report_returns_iff .invalidStateLinkage, next]

end

/-! ## Every transition -/

/-- Whatever a transition hashes, adds or indexes when it is reached is in order. -/
def ChannelTransition.Safe [OfLimbs B] : ChannelTransition D B → Prop
  | .inChannelTransfer w => w.Safe D
  | .interChannelSend w => w.Safe
  | .interChannelFundImport w => w.Safe
  | .l1DepositImport w => w.Safe D
  | .receiverBundleApply w => w.Safe
  | .balanceRefresh w => verifyRegevPkRoot D w.channelRecord w.regevPks = .ok () →
      LinkHashable D w.prevState w.nextState
  | .tokenRegister w => LinkHashable D w.prevState w.nextState

/-- A verifier returns exactly if nothing that it reaches aborts. -/
theorem transition_verifiers_return [OfLimbs B] {backends : Backends B} (quiet : backends.Quiet)
    (t : ChannelTransition D B) : t.verify backends ≠ .error .panic ↔ t.Safe := by
  cases t with
  | inChannelTransfer w => exact InChannelTransferUpdateWitness.returns_iff quiet
  | interChannelSend w => exact InterChannelSendUpdateWitness.returns_iff quiet
  | interChannelFundImport w => exact InterChannelFundImportUpdateWitness.returns_iff quiet
  | l1DepositImport w => exact L1DepositImportUpdateWitness.returns_iff
  | receiverBundleApply w => exact ReceiverBundleApplyUpdateWitness.returns_iff quiet
  | balanceRefresh w => exact BalanceRefreshUpdateWitness.returns_iff quiet
  | tokenRegister w => exact TokenRegisterUpdateWitness.returns_iff

section
variable (D)

/-- A deposit of one coin for the second member of a channel of two, at the last epoch, with `ct`
    as the first member's balance before and after it. -/
def pairDeposit (ct : RegevCiphertext) : L1DepositImportUpdateWitness B where
  channelRecord := pairRecord D 1 (zeroBytes D) (zeroBytes D) (zeroBytes D)
  prevState := pairState D (pairBalance D 1 0 ct .padding 0 0) (BitVec.allOnes 64) (zeroBytes D)
  nextState := pairState D (pairBalance D 1 0 ct .padding 0 0) 0 (zeroBytes D)
  amount := 1
  depositNullifier := zeroBytes D
  tokenIndex := 0
  depositorSlot := 1

end

/-- A deposit with nothing out of order returns, and so does one whose broken link is found before
    a balance that cannot be hashed. -/
theorem transition_verifiers_return_deposit :
    (.l1DepositImport (pairDeposit Free.Digest .padding) :
      ChannelTransition Free.Digest Free.Bytes).verify .accepting ≠ .error .panic ∧
    (.l1DepositImport { pairDeposit Free.Digest .unreduced with
        nextState := { (pairDeposit Free.Digest .unreduced).nextState with channelId := 7 } } :
      ChannelTransition Free.Digest Free.Bytes).verify .accepting ≠ .error .panic := by
  constructor
  · have hashable : (pairBalance Free.Digest (B := Free.Bytes) 1 0 .padding .padding 0
        0).Hashable :=
      BalanceState.Canonical.hashable (pairBalance_canonical padding_validate
        padding_validate (Nat.zero_le _) (Nat.zero_le _))
    have small : 0 + 1 < 2 ^ 256 := by decide
    exact (transition_verifiers_return Backends.accepting_quiet _).mpr
      ⟨fun _ _ _ => ⟨hashable, fun _ => hashable⟩, fun _ _ => small, fun _ _ _ => small,
        fun _ _ _ _ => (by decide : 1 < maxChannelMembers)⟩
  · have apart : (1 : ChannelId) ≠ 7 := by decide
    refine (transition_verifiers_return Backends.accepting_quiet _).mpr
      ⟨fun same => absurd same apart, ?_, ?_, ?_⟩
    all_goals
      intro _ passed
      simp only [L1DepositImportUpdateWitness.verifyToken, verifyStateLinkage, bind_ok, revertIf_ok,
        exists_unit, not_not] at passed
      exact absurd passed.1.1 apart

/-- The digest of the previous state is computed before the state is validated. -/
theorem unreduced_state_panics :
    (.l1DepositImport (pairDeposit Free.Digest .unreduced) :
      ChannelTransition Free.Digest Free.Bytes).verify .accepting = .error .panic := by
  by_contra returns
  have safe := (L1DepositImportUpdateWitness.returns_iff (D := Free.Digest)).mp returns
  have hashable := (safe.states rfl rfl rfl).1
  exact unreduced_validate (hashable.ciphertexts ⟨0, by decide⟩ _ rfl ⟨0, by decide⟩)

end Intmax.Channel
