import Intmax.Member.Signatures
import Intmax.Wallet.Basic

/-! # Successors that an exit kit still backs

A browser signs a successor only when the exit kit of its head is one for the successor too.  The
gate compares fields of the two states; the kit proves the key of a state.
-/

namespace Intmax.Wallet

open Checked Hashing Channel Validity Member Transition
open Free (Digest)

variable {D B : Type} [Hashing D B] [DecidableEq B]

def verifyExitKitPreservingSuccessor (D : Type) {B : Type} [Hashing D B] [DecidableEq B]
    (prev next : ChannelState B) : WResult Unit := do
  revertIf (next.prevDigest ≠ prev.digest) (.message
    "SIGNER-INDEPENDENT EXIT: successor does not extend the durable signed head")
  revertIf (next.channelId ≠ prev.channelId) (.message
    "SIGNER-INDEPENDENT EXIT: successor changes the channel identity")
  revertIf (next.h2Tag ≠ zeroBytes D) (.message
    ("SIGNER-INDEPENDENT EXIT: refusing to co-sign an H2!=0 (base-moving) successor without a " ++
      "durable pre-sign exit kit"))
  let expectedEpoch ← nextCounter prev.epoch "channel epoch overflow"
  let expectedVersion ← nextCounter prev.balanceState.stateVersion
    "balance-state version overflow"
  revertIf (next.epoch ≠ expectedEpoch ∨ next.balanceState.stateVersion ≠ expectedVersion)
    (.message "SIGNER-INDEPENDENT EXIT: successor skips, forks, or rolls back the signed head")
  revertIf (next.closeFreezeNonce ≠ prev.closeFreezeNonce) (.message
    "SIGNER-INDEPENDENT EXIT: successor changes the close era")
  -- The token count is not among the fields that are compared.
  revertIf (next.smallBlockNumber ≠ prev.smallBlockNumber ∨
      next.channelFund ≠ prev.channelFund ∨
      next.sharedNativeNullifierRoot ≠ prev.sharedNativeNullifierRoot ∨
      next.unallocatedConfirmedIncoming ≠ prev.unallocatedConfirmedIncoming ∨
      next.balanceState.settledTxChain ≠ prev.balanceState.settledTxChain ∨
      next.balanceState.settledTxAccumulatorRoot ≠ prev.balanceState.settledTxAccumulatorRoot ∨
      next.balanceState.tokenRegistry ≠ prev.balanceState.tokenRegistry ∨
      next.balanceState.memberCount ≠ prev.balanceState.memberCount ∨
      next.balanceState.delegateCount ≠ prev.balanceState.delegateCount) (.message
    ("SIGNER-INDEPENDENT EXIT: refusing to co-sign an asset/composition-moving successor; its " ++
      "exact (channel_id, settled_tx_chain, token_funds_digest) exit kit is not durable before " ++
      "signature release"))

/-- What the gate compares. -/
structure Preserves (prev next : ChannelState B) : Prop where
  linked : next.prevDigest = prev.digest
  channelId : next.channelId = prev.channelId
  closeFreezeNonce : next.closeFreezeNonce = prev.closeFreezeNonce
  fund : next.channelFund = prev.channelFund
  chain : next.balanceState.settledTxChain = prev.balanceState.settledTxChain
  registry : next.balanceState.tokenRegistry = prev.balanceState.tokenRegistry

theorem verifyExitKitPreservingSuccessor_ok {prev next : ChannelState B}
    (accepted : verifyExitKitPreservingSuccessor D prev next = .ok ()) : Preserves prev next := by
  simp only [verifyExitKitPreservingSuccessor, bind_ok, exists_unit, revertIf_ok,
    nextCounter_ok_iff, not_or, not_not] at accepted
  obtain ⟨linked, channelId, -, _, -, _, -, -, closeFreezeNonce, -, fund, -, -,
    chain, -, registry, -⟩ := accepted
  exact { linked, channelId, closeFreezeNonce, fund, chain, registry }

/-! ## The token count -/

theorem maxChannelTokens_pos : 0 < maxChannelTokens := by decide

/-- The position of the genesis token. -/
def genesisToken : Fin maxChannelTokens := ⟨0, maxChannelTokens_pos⟩

omit [DecidableEq B] in
/-- A registry that begins with base token 0 has no other position for it, in use or not: it shows
    how many tokens are in use. -/
theorem tokenCount_eq_of_registry {prev next : BalanceState B} (before : prev.Canonical D)
    (after : next.Canonical D) (registry : next.tokenRegistry = prev.tokenRegistry)
    (genesis : prev.tokenRegistry genesisToken = 0) : next.tokenCount = prev.tokenCount := by
  -- A position that only one of the two states uses holds the zero of an unused position.
  have apart {one two : BalanceState B} (used : one.Canonical D) (unused : two.Canonical D)
      (same : one.tokenRegistry = two.tokenRegistry) (zero : one.tokenRegistry genesisToken = 0) :
      one.tokenCount.toNat ≤ two.tokenCount.toNat := by
    by_contra more
    have few := used.tokens.2
    let last : Fin maxChannelTokens := ⟨two.tokenCount.toNat, by omega⟩
    have positive : genesisToken < last := by
      have some_ := unused.tokens.1
      exact Fin.lt_def.mpr some_
    refine used.distinct genesisToken last positive (not_le.mp more) ?_
    rw [zero, same, unused.unused last le_rfl]
  refine BitVec.eq_of_toNat_eq (le_antisymm ?_ ?_)
  · exact apart after before registry (registry ▸ genesis)
  · exact apart before after registry.symm genesis

/-! ## Chains -/

/-- The number of tokens stays, or the genesis token is base token 0. -/
def KeepsTokens (prev next : ChannelState B) : Prop :=
  next.balanceState.tokenCount = prev.balanceState.tokenCount ∨
    prev.balanceState.tokenRegistry genesisToken = 0

/-- A browser signs the successor. -/
structure Signs (D : Type) {B : Type} [Hashing D B] [DecidableEq B] (prev : ChannelState B)
    (_ : Unit) (next : ChannelState B) : Prop where
  before : prev.balanceState.validate D = .ok ()
  after : next.balanceState.validate D = .ok ()
  accepted : verifyExitKitPreservingSuccessor D prev next = .ok ()
  keeps : KeepsTokens prev next

theorem Signs.key_eq {prev next : ChannelState B} (signs : Signs D prev () next) :
    exitKitStatementKey D next = exitKitStatementKey D prev ∧
      next.closeFreezeNonce = prev.closeFreezeNonce := by
  have same := verifyExitKitPreservingSuccessor_ok signs.accepted
  have count : next.balanceState.tokenCount = prev.balanceState.tokenCount := by
    cases signs.keeps with
    | inl kept => exact kept
    | inr genesis =>
      exact tokenCount_eq_of_registry (BalanceState.validate_ok_iff.mp signs.before)
        (BalanceState.validate_ok_iff.mp signs.after) same.registry genesis
  refine ⟨?_, same.closeFreezeNonce⟩
  simp only [exitKitStatementKey, same.channelId, same.chain, same.registry, same.fund, count]

/-- An exit kit stays one along every chain of browser-signed successors, each of which keeps the
    number of tokens or has base token 0 as its genesis token: the key and the close era are those
    of the first state, and a receipt for the first state is one for the last. -/
theorem exit_kit_preserved {start head : ChannelState B} {labels : List Unit}
    (run : Path (Signs D) start labels head) :
    exitKitStatementKey D head = exitKitStatementKey D start ∧
      head.closeFreezeNonce = start.closeFreezeNonce ∧
      ∀ receipt, validateExitKitReceiptForHead D receipt start = .ok () →
        validateExitKitReceiptForHead D receipt head = .ok () := by
  have same : exitKitStatementKey D head = exitKitStatementKey D start ∧
      head.closeFreezeNonce = start.closeFreezeNonce := by
    refine run.invariant (I := fun state => exitKitStatementKey D state =
      exitKitStatementKey D start ∧ state.closeFreezeNonce = start.closeFreezeNonce)
        (fun _ _ _ kept signs => ?_) ⟨rfl, rfl⟩
    exact ⟨signs.key_eq.1.trans kept.1, signs.key_eq.2.trans kept.2⟩
  refine ⟨same.1, same.2, fun receipt valid => ?_⟩
  rwa [validateExitKitReceiptForHead, same.1, ← validateExitKitReceiptForHead]

/-- With base token 0 as the genesis token every registration writes another word into the
    registry, so the gate refuses it. -/
theorem registration_refused {prev next : ChannelState B} {tokenIndex : BitVec 32}
    (before : prev.balanceState.Canonical D)
    (genesis : prev.balanceState.tokenRegistry genesisToken = 0)
    (registers : prev.tokenRegisterNextState D tokenIndex = .ok next) :
    verifyExitKitPreservingSuccessor D prev next ≠ .ok () := by
  intro accepted
  have same := (verifyExitKitPreservingSuccessor_ok accepted).registry
  simp [ChannelState.tokenRegisterNextState, ChannelState.withComputedDigest,
    Option.bind_eq_some_iff] at registers
  obtain ⟨balance, applied, digest, -, rfl⟩ := registers
  obtain ⟨room, unregistered, rfl⟩ := BalanceState.applyTokenRegister_ok.mp applied
  have written : tokenIndex = 0 := by
    rw [← before.unused ⟨_, room⟩ le_rfl, ← same]
    simp [BalanceState.registered]
  exact unregistered genesisToken before.tokens.1 (genesis.trans written.symm)

/-! ## A transfer-free successor -/

/-- Two successors of a state with base token 0 as its genesis token, which cannot register
    another one. -/
theorem exit_kit_preserved_chain : ∃ start head : ChannelState Free.Bytes,
    Path (Signs Digest) start [(), ()] head ∧ head.epoch = 2 ∧
      exitKitStatementKey Digest head = exitKitStatementKey Digest start ∧
      ∀ tokenIndex next, head.tokenRegisterNextState Digest tokenIndex = .ok next →
        verifyExitKitPreservingSuccessor Digest head next ≠ .ok () := by
  let balance (version : BitVec 64) : BalanceState Free.Bytes :=
    pairBalance Digest 1 version .padding .padding 0 0
  have canonical (version : BitVec 64) : (balance version).Canonical Digest :=
    pairBalance_canonical RegevCiphertext.padding_validate RegevCiphertext.padding_validate
      (Nat.zero_le _) (Nat.zero_le _)
  let state (n : BitVec 64) := pairState Digest (balance n) n (zeroBytes Digest)
  have signs (n : BitVec 64) (below : n.toNat + 1 ≠ 2 ^ 64) :
      Signs Digest (state n) () (state (n + 1)) := by
    refine ⟨BalanceState.validate_ok_iff.mpr (canonical n),
      BalanceState.validate_ok_iff.mpr (canonical (n + 1)), ?_, .inr rfl⟩
    simp only [verifyExitKitPreservingSuccessor, bind_ok, exists_unit, revertIf_ok,
      nextCounter_ok_iff, not_or, not_not]
    exact ⟨rfl, rfl, rfl, n + 1, ⟨below, rfl⟩, n + 1, ⟨below, rfl⟩, ⟨rfl, rfl⟩, rfl,
      rfl, rfl, rfl, rfl, rfl, rfl, rfl, rfl, rfl⟩
  have run := (Path.single (signs 0 (by decide))).snoc (signs 1 (by decide))
  exact ⟨state 0, state 2, run, rfl, (exit_kit_preserved run).1,
    fun _ _ => registration_refused (canonical 2) rfl⟩

/-! ## Registering base token 0 -/

section
variable (D)

/-- Two members whose genesis token is not base token 0. -/
def foreignGenesis : BalanceState B :=
  { pairBalance D 1 0 .padding .padding 0 0 with tokenRegistry := firstToken 5 0 }

omit [DecidableEq B] in
theorem foreignGenesis_canonical : (foreignGenesis D : BalanceState B).Canonical D := by
  have canonical : (pairBalance D 1 0 .padding .padding 0 0 : BalanceState B).Canonical D :=
    pairBalance_canonical RegevCiphertext.padding_validate RegevCiphertext.padding_validate
      (Nat.zero_le _) (Nat.zero_le _)
  exact
    { rows := canonical.rows, counterRows := canonical.counterRows, tokens := canonical.tokens
      members := canonical.members, fits := canonical.fits, ciphertexts := canonical.ciphertexts
      keys := canonical.keys, exits := canonical.exits, counters := canonical.counters
      distinct := fun i j order used => by
        have one : j.val < 1 := used
        omega
      unused := fun t unused => by
        have some_ : 1 ≤ t.val := unused
        exact if_neg (by omega) }

end

/-- Registering base token 0 after another genesis token writes the zero that was there before: the
    gate accepts the registration as a successor, and its key is another one. -/
theorem exit_kit_lost_at_token_zero : ∃ prev next : ChannelState Free.Bytes,
    prev.balanceState.validate Digest = .ok () ∧
      next.balanceState.validate Digest = .ok () ∧
      ChannelState.tokenRegisterNextState Digest prev 0 = .ok next ∧
      verifyExitKitPreservingSuccessor Digest prev next = .ok () ∧
      exitKitStatementKey Digest next ≠ exitKitStatementKey Digest prev := by
  let balance : BalanceState Free.Bytes := foreignGenesis Digest
  have canonical : balance.Canonical Digest := foreignGenesis_canonical Digest
  have room : balance.tokenCount.toNat < maxChannelTokens := by decide
  have unregistered : ∀ t : Fin maxChannelTokens, t.val < balance.tokenCount.toNat →
      balance.tokenRegistry t ≠ 0 := by
    intro t used
    have first : t.val = 0 := Nat.lt_one_iff.mp used
    change (if t.val = 0 then (5 : BitVec 32) else 0) ≠ 0
    rw [if_pos first]
    decide
  have registry : Function.update balance.tokenRegistry ⟨balance.tokenCount.toNat, room⟩ 0 =
      balance.tokenRegistry := Function.update_eq_self_iff.mpr rfl
  have after := canonical.registered room unregistered
  let prev := pairState Digest balance 0 (zeroBytes Digest)
  let unsigned : ChannelState Free.Bytes :=
    { prev with
      epoch := prev.epoch + 1
      balanceState := balance.registered room 0
      h2Tag := zeroBytes Digest
      prevDigest := prev.digest
      memberSignatures := [] }
  obtain ⟨digest, hashed⟩ := ChannelState.signingDigest_isSome (D := Digest)
    (show unsigned.balanceState.Hashable from after.hashable)
  refine ⟨prev, { unsigned with digest }, BalanceState.validate_ok_iff.mpr canonical,
    BalanceState.validate_ok_iff.mpr after, ?_, ?_, ?_⟩
  · simp [ChannelState.tokenRegisterNextState]
    refine ⟨_, BalanceState.applyTokenRegister_ok.mpr ⟨room, unregistered, rfl⟩, ?_⟩
    change unsigned.withComputedDigest Digest = _
    simp [ChannelState.withComputedDigest, hashed]
  · simp only [verifyExitKitPreservingSuccessor, bind_ok, exists_unit, revertIf_ok,
      nextCounter_ok_iff, not_or, not_not]
    exact ⟨rfl, rfl, rfl, 1, ⟨by decide, rfl⟩, 1, ⟨by decide, rfl⟩, ⟨rfl, rfl⟩, rfl,
      rfl, rfl, rfl, rfl, rfl, rfl, registry, rfl, rfl⟩
  · -- The digests commit the number of tokens, one and two.
    intro same
    have digests : tokenFundsDigest Digest (balance.registered room 0).tokenRegistry 2
        prev.channelFund.amounts = tokenFundsDigest Digest balance.tokenRegistry 1
          prev.channelFund.amounts := congrArg (fun key => key.2.2) same
    rw [show (balance.registered room 0).tokenRegistry = balance.tokenRegistry from registry]
      at digests
    have items := Free.Items.ofList_injective (Free.Bytes.keccak.inj digests)
    have counts := List.append_cancel_left (List.append_cancel_right items)
    simp at counts

end Intmax.Wallet
