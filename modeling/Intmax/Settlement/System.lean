import Intmax.Settlement.Payouts

/-! # Runs of `ChannelSettlementManager`

A step is one completed call with the rest of the world arbitrary: the satellite,
the rollup, the verifiers and the tokens answer as they like.  A timed step also
carries the clock, which block timestamps never turn back.
-/

namespace Intmax.Settlement

open Checked Transition

inductive Call
  | requestClose (expectedCurrentCloseFreezeNonce expectedHighestCancelledRevivedStateVersion : Nat)
  | requestCloseAsParticipant (slot : BitVec 16) (pkG : Bytes32) (siblings : Nat → Bytes32)
      (expectedCurrentCloseFreezeNonce expectedHighestCancelledRevivedStateVersion : Nat)
  | submitCloseIntent (intent : CloseIntent) (compactProof : Bytes)
  | cancelClose (request : CancelCloseRequest) (compactProof : Bytes)
  | finalizeCloseGuarded (expectedCloseIntentDigest : Bytes32)
      (expectedCloseRequestGeneration : Nat)
  | submitWithdrawalClaim (claim : WithdrawalClaim) (compactProof : Bytes)
  | submitPostCloseClaim (claim : PostCloseClaim) (compactProof : Bytes)
  | creditLateIncoming (tokenIndex : TokenIndex) (amount : Nat) (recipient : Address)
      (claimKey : Bytes32)
  | pullChannelTokenFunds (tokenIndex : TokenIndex)
  | claimWithdrawalCredit (withdrawalNullifier : Bytes32)
  | resume

variable [Keccak] {ε : Type}

/-- A call that leaves the satellite alone. -/
def quiet (x : ε) (ran : Except Revert Manager) : Except Revert (Manager × ε) := do
  let s ← ran
  pure (s, x)

/-- The code of an entry point. -/
def dispatch (cfg : Config) (sat : Satellite ε) (env : Env) (world : External) (call : Call)
    (s : Manager) (x : ε) : Except Revert (Manager × ε) :=
  match call with
  | .requestClose nonce highest => requestClose cfg sat env nonce highest s x
  | .requestCloseAsParticipant slot pkG siblings nonce highest =>
    requestCloseAsParticipant cfg sat env slot pkG siblings nonce highest s x
  | .submitCloseIntent intent compactProof =>
    quiet x (submitCloseIntent cfg sat env world intent compactProof s x)
  | .cancelClose request compactProof => cancelClose cfg sat env world request compactProof s x
  | .finalizeCloseGuarded digest generation =>
    quiet x (finalizeCloseGuarded cfg env world digest generation s)
  | .submitWithdrawalClaim claim compactProof =>
    quiet x (submitWithdrawalClaim cfg env world claim compactProof s)
  | .submitPostCloseClaim claim compactProof =>
    quiet x (submitPostCloseClaim cfg env world claim compactProof s)
  | .creditLateIncoming tokenIndex amount recipient claimKey =>
    quiet x (creditLateIncoming cfg env tokenIndex amount recipient claimKey s)
  | .pullChannelTokenFunds tokenIndex =>
    quiet x (pullChannelTokenFunds cfg sat env world tokenIndex s x)
  | .claimWithdrawalCredit withdrawalNullifier =>
    quiet x (claimWithdrawalCredit cfg env world withdrawalNullifier s)
  | .resume => quiet x (resume cfg world s)

/-- Run one call; no entry point takes ETH. -/
def exec (cfg : Config) (sat : Satellite ε) (env : Env) (world : External) (call : Call)
    (s : Manager) (x : ε) : Except Revert (Manager × ε) := do
  Rollup.nonPayable env
  dispatch cfg sat env world call s x

structure Event where
  env : Env
  call : Call

/-- One completed call of the manager in an arbitrary world. -/
def Step (cfg : Config) (s : Manager) (e : Event) (t : Manager) : Prop :=
  ∃ (ε : Type) (sat : Satellite ε) (world : External) (x x' : ε),
    exec cfg sat e.env world e.call s x = .ok (t, x')

/-- The storage after the constructor. -/
def initial : Manager := {}

abbrev Run (cfg : Config) (events : List Event) (s : Manager) : Prop :=
  Path (Step cfg) initial events s

abbrev Reachable (cfg : Config) (s : Manager) : Prop :=
  Transition.Reachable (Step cfg) initial s

/-- A step at the time of its block. -/
def TimedStep (cfg : Config) (x : Manager × Nat) (e : Event) (y : Manager × Nat) : Prop :=
  Step cfg x.1 e y.1 ∧ x.2 ≤ e.env.timestamp ∧ y.2 = e.env.timestamp

variable {cfg : Config} {sat : Satellite ε} {s : Manager × Nat} {x : ε}

theorem untimed {x y : Manager × Nat} {events : List Event}
    (run : Path (TimedStep cfg) x events y) : Path (Step cfg) x.1 events y.1 :=
  run.map fun _ _ _ step => step.1

/-! ## Runs that evaluate -/

/-- Run a list of calls, each with what it learns from outside, and collect the events. -/
def execAll (cfg : Config) (sat : Satellite ε) :
    List (Env × External × Call) → Manager × Nat → ε →
      Except Revert (List Event × (Manager × Nat) × ε)
  | [], s, x => .ok ([], s, x)
  | (env, world, call) :: rest, (s, now), x => do
    revertIf (env.timestamp < now) .callReverted
    let (s, x) ← exec cfg sat env world call s x
    let (events, s, x) ← execAll cfg sat rest (s, env.timestamp) x
    pure (⟨env, call⟩ :: events, s, x)

theorem execAll_path {calls : List (Env × External × Call)} {s' : Manager × Nat} {x' : ε}
    {events : List Event} (h : execAll cfg sat calls s x = .ok (events, s', x')) :
    Path (TimedStep cfg) s events s' := by
  induction calls generalizing s x events with
  | nil =>
    cases h
    exact .nil
  | cons call calls ih =>
    obtain ⟨env, world, call⟩ := call
    obtain ⟨_, ordered, h⟩ := bind_ok.mp h
    obtain ⟨⟨s₁, x₁⟩, first, h⟩ := bind_ok.mp h
    obtain ⟨⟨rest, s₂, x₂⟩, later, same⟩ := bind_ok.mp h
    cases same
    have step : TimedStep cfg s ⟨env, call⟩ (s₁, env.timestamp) :=
      ⟨⟨ε, sat, world, x, x₁, first⟩, le_of_not_gt (revertIf_ok.mp ordered), rfl⟩
    exact .cons step (ih later)

/-- The calls complete one after another and what they leave passes `check`. -/
def runsFrom (cfg : Config) (sat : Satellite ε) (calls : List (Env × External × Call))
    (s : Manager × Nat) (x : ε) (check : List Event → Manager × Nat → ε → Bool) : Bool :=
  match execAll cfg sat calls s x with
  | .ok (events, s, x) => check events s x
  | .error _ => false

theorem runsFrom_path {calls : List (Env × External × Call)}
    {check : List Event → Manager × Nat → ε → Bool}
    (h : runsFrom cfg sat calls s x check = true) :
    ∃ events s' x', Path (TimedStep cfg) s events s' ∧ check events s' x' = true := by
  unfold runsFrom at h
  split at h
  · rename_i events s' x' ran
    exact ⟨events, s', x', execAll_path ran, h⟩
  · cases h

/-- One call completes and what it leaves passes `check`. -/
def stepsTo (cfg : Config) (sat : Satellite ε) (call : Env × External × Call)
    (s : Manager × Nat) (x : ε) (check : Manager × Nat → ε → Bool) : Bool :=
  decide (s.2 ≤ call.1.timestamp) &&
    match exec cfg sat call.1 call.2.1 call.2.2 s.1 x with
    | .ok (s, x) => check (s, call.1.timestamp) x
    | .error _ => false

theorem stepsTo_step {call : Env × External × Call} {check : Manager × Nat → ε → Bool}
    (h : stepsTo cfg sat call s x check = true) :
    ∃ s' x', TimedStep cfg s ⟨call.1, call.2.2⟩ s' ∧ check s' x' = true := by
  rw [stepsTo, Bool.and_eq_true, decide_eq_true_eq] at h
  obtain ⟨ordered, h⟩ := h
  split at h
  · rename_i s' x' ran
    exact ⟨(s', _), x', ⟨⟨ε, sat, call.2.1, x, x', ran⟩, ordered, rfl⟩, h⟩
  · cases h

/-! A small deployment to run calls on. -/

/-- The manager of channel 7, with one-day challenges. -/
def sampleConfig : Config :=
  { self := 0x3000, channelId := 7, challengePeriod := 86400, registry := 0x1000
    closeFundingMaterializer := 0x2000
    memberBindings := [{ pkG := 0x11, recipient := 0x41 }, { pkG := 0x12, recipient := 0x42 }]
    activeDelegateCount := 0, activeParticipantCount := 2, participantRoot := 0
    channelId_ne_zero := by decide, challengePeriod_pos := by decide
    challengePeriod_lt := by decide }

/-- The state of version `version`, with 100 wei for the members. -/
def sampleIntent (version : Nat) : CloseIntent :=
  { closeNonce := 1, closeFreezeNonce := 1, finalStateVersion := version, tokenCount := 1
    channelFundAmounts := fun slot => if slot = 0 then 100 else 0 }

/-- A satellite that agrees to everything and has materialized the first state. -/
def sampleSatellite : Satellite Unit :=
  { freezeFromManager := fun _ _ _ _ x => .ok x
    unfreezeFromManager := fun _ _ _ x => .ok x
    requireSignedHeadBacking := fun _ _ _ _ _ _ => .ok ()
    materializedChannelExit := fun _ _ => computeCloseIntentDigest sampleConfig (sampleIntent 1) }

/-- Every proof verifies, and the manager holds `balance` wei. -/
def sampleExternal (balance : Nat) : External :=
  { isFinalizedStateRoot := fun _ => true, tokenAddressOf := fun _ => 0
    closeMemberSetCommitment := fun _ _ => 0
    closePublicInputs := fun _ => some (List.replicate 103 0)
    bindCloseIntentPublicInputs := fun _ _ => some true, tokenFundsDigest := fun _ _ _ => some 0x77
    verifyCancelClose := fun _ _ _ _ _ => some true, verifyWithdrawalClaim :=
      fun _ _ _ _ => some true
    verifyPostCloseClaim := fun _ _ _ _ _ _ => some true, balance := balance
    tokenBalanceOf := fun _ _ => some 0, callSucceeds := true }

def sampleEnv (sender : Address) (timestamp : Nat) : Env :=
  { sender, value := 0, number := 1, timestamp, chainId := 1 }

def sampleRequest : Env × External × Call :=
  (sampleEnv 0x41 1000, sampleExternal 0, .requestClose 0 0)

def sampleSubmit (timestamp version : Nat) : Env × External × Call :=
  (sampleEnv 0x41 timestamp, sampleExternal 0, .submitCloseIntent (sampleIntent version) [])

end Intmax.Settlement
