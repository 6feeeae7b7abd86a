import Intmax.Lib.Path
import Intmax.Rollup.Payouts

/-! # Runs of `IntmaxRollup`

`Call` names the state-changing entry points with their arguments and `exec`
runs them.  `Step` is one completed call with the rest of the world
arbitrary: the satellite, the proof verifiers, the token contracts and the gas are
whatever they like.  A run is a `Path` of such steps; reverted calls leave no
state behind and do not occur in it.
-/

namespace Intmax.Rollup

open Checked Transition

inductive Call
  | registerToken (tokenIndex : TokenIndex) (token : Address)
  | registerSettlementManager (manager : Address)
  | creditChannelExit (manager : Address) (tokenIndex : TokenIndex) (amount : Nat)
  | setBlockProducer (producer : Address) (allowed : Bool)
  | setBlockProducerAdmin (admin : Address)
  | setKzgVerifier (v : Address)
  | postBlockAndSubmit (args : PostArgs)
  | postBlockAndSubmitGuarded (args : PostArgs) (expectedBlockNumber : Nat)
      (expectedBlockHashChain : Bytes32)
  | deposit (args : DepositArgs)
  | registerChannel (args : RegisterChannelArgs)
  | finalize (args : ProofArgs)
  | fraudProof (args : ProofArgs)
  | withdraw (amount : Nat)
  | depositBond
  | withdrawBond (amount : Nat)
  | releaseBond (producer : Address) (submissionId : Nat)
  | withdrawNative (args : WithdrawArgs)
  | withdrawERC20 (args : WithdrawArgs)
  | withdrawToken (tokenIndex : TokenIndex) (amount : Nat)
  | resume

variable {σ : Type}

/-- ETH sent along with a call is in the contract's balance before its code runs. -/
def receive (value : Nat) (s : Rollup) : Rollup :=
  { s with vault := { s.vault with balance := s.vault.balance + value } }

/-- A call that reports nothing and leaves the satellite alone. -/
def quiet (j : σ) (x : Except Revert Rollup) : Except Revert (Outcome × Rollup × σ) := do
  let s ← x
  pure (.done, s, j)

/-- A call that reports nothing and may have moved the satellite. -/
def quietWith (x : Except Revert (Rollup × σ)) : Except Revert (Outcome × Rollup × σ) := do
  let (s, j) ← x
  pure (.done, s, j)

variable {j j' : σ} {s' : Rollup} {cfg : Config} {sat : Satellite σ}
  {calls : List (Env × External × Call)}

theorem quiet_ok {x : Except Revert Rollup} {out : Outcome} (h : quiet j x = .ok (out, s', j')) :
    x = .ok s' ∧ out = .done ∧ j' = j := by
  obtain ⟨s, ran, same⟩ := bind_ok.mp h
  cases same
  exact ⟨ran, rfl, rfl⟩

theorem quietWith_ok {x : Except Revert (Rollup × σ)} {out : Outcome}
    (h : quietWith x = .ok (out, s', j')) : x = .ok (s', j') ∧ out = .done := by
  obtain ⟨⟨s, j⟩, ran, same⟩ := bind_ok.mp h
  cases same
  exact ⟨ran, rfl⟩

variable [Keccak]

/-- The code of an entry point, run on a state that already holds the value sent. -/
def dispatch (cfg : Config) (sat : Satellite σ) (env : Env) (world : External) (call : Call)
    (s : Rollup) (j : σ) : Except Revert (Outcome × Rollup × σ) :=
  match call with
  | .registerToken tokenIndex token => quiet j (registerToken cfg env world tokenIndex token s)
  | .registerSettlementManager manager =>
    quietWith (registerSettlementManager cfg sat env world manager s j)
  | .creditChannelExit manager tokenIndex amount =>
    quiet j (creditChannelExit cfg env manager tokenIndex amount s)
  | .setBlockProducer producer allowed => quiet j (setBlockProducer cfg env producer allowed s)
  | .setBlockProducerAdmin admin => quiet j (setBlockProducerAdmin cfg env admin s)
  | .setKzgVerifier v => quiet j (setKzgVerifier cfg env world v s)
  | .postBlockAndSubmit args => quietWith (postBlockAndSubmit cfg sat env world args s j)
  | .postBlockAndSubmitGuarded args expectedBlockNumber expectedBlockHashChain =>
    quietWith (postBlockAndSubmitGuarded cfg sat env world args expectedBlockNumber
      expectedBlockHashChain s j)
  | .deposit args => quiet j (deposit cfg env world args s)
  | .registerChannel args => quiet j (registerChannel cfg env args s)
  | .finalize args => do
    let (out, s) ← finalize env world args s
    pure (out, s, j)
  | .fraudProof args => fraudProof cfg sat env world args s j
  | .withdraw amount => quiet j (withdraw cfg env amount s)
  | .depositBond => quiet j (depositBond cfg env s)
  | .withdrawBond amount => quiet j (withdrawBond cfg env amount s)
  | .releaseBond producer submissionId => quiet j (releaseBond env producer submissionId s)
  | .withdrawNative args => quiet j (withdrawNative env world args s)
  | .withdrawERC20 args => quiet j (withdrawERC20 env world args s)
  | .withdrawToken tokenIndex amount => quiet j (withdrawToken cfg env world tokenIndex amount s)
  | .resume => do
    nonPayable env
    quiet j (resume cfg world s)

/-- Run one call. -/
def exec (cfg : Config) (sat : Satellite σ) (env : Env) (world : External) (call : Call)
    (s : Rollup) (j : σ) : Except Revert (Outcome × Rollup × σ) :=
  dispatch cfg sat env world call (receive env.value s) j

/-! ## Runs -/

/-- The storage after the constructor. -/
def initial (cfg : Config) : Rollup :=
  { chain :=
      { latestFinalizedStateRoot := cfg.genesisStateRoot
        isFinalizedStateRoot := fun root => cfg.genesisStateRoot != 0 &&
          root == cfg.genesisStateRoot }
    intake := Intake.recordPendingChainsCheckpoint {} }

/-- What is known of a completed call: who made it, which, and what it reported. -/
structure Event where
  env : Env
  call : Call
  outcome : Outcome

/-- One completed call of the rollup in an arbitrary world. -/
def Step (cfg : Config) (s : Rollup) (e : Event) (t : Rollup) : Prop :=
  ∃ (σ : Type) (sat : Satellite σ) (world : External) (j j' : σ),
    exec cfg sat e.env world e.call s j = .ok (e.outcome, t, j')

/-- The runs of a rollup from its constructor on. -/
abbrev Run (cfg : Config) (events : List Event) (s : Rollup) : Prop :=
  Path (Step cfg) (initial cfg) events s

abbrev Reachable (cfg : Config) (s : Rollup) : Prop :=
  Transition.Reachable (Step cfg) (initial cfg) s

/-! ## Runs that evaluate -/

/-- Run a list of calls, each with what it learns from outside, and collect the events. -/
def execAll (cfg : Config) (sat : Satellite σ) :
    List (Env × External × Call) → Rollup → σ → Except Revert (List Event × Rollup × σ)
  | [], s, j => .ok ([], s, j)
  | (env, world, call) :: rest, s, j => do
    let (outcome, s, j) ← exec cfg sat env world call s j
    let (events, s, j) ← execAll cfg sat rest s j
    pure (⟨env, call, outcome⟩ :: events, s, j)

/-- The evaluated calls are a run of any step relation that has each of them as a step. -/
theorem execAll_moves {step : Rollup → Event → Rollup → Prop}
    (moves : ∀ c ∈ calls, ∀ {s s' : Rollup} {j j' : σ} {outcome : Outcome},
      exec cfg sat c.1 c.2.1 c.2.2 s j = .ok (outcome, s', j') →
      step s ⟨c.1, c.2.2, outcome⟩ s')
    {s : Rollup} {events : List Event} (h : execAll cfg sat calls s j = .ok (events, s', j')) :
    Path step s events s' := by
  induction calls generalizing s j events with
  | nil =>
    cases h
    exact .nil
  | cons call calls ih =>
    obtain ⟨env, world, call⟩ := call
    obtain ⟨⟨outcome, s₁, j₁⟩, first, h⟩ := bind_ok.mp h
    obtain ⟨⟨rest, s₂, j₂⟩, later, same⟩ := bind_ok.mp h
    cases same
    exact .cons (moves _ List.mem_cons_self first)
      (ih (fun c member => moves c (List.mem_cons_of_mem _ member)) later)

theorem execAll_path {s : Rollup} {events : List Event}
    (h : execAll cfg sat calls s j = .ok (events, s', j')) : Path (Step cfg) s events s' :=
  execAll_moves (fun c _ _ _ j j' _ ran => ⟨σ, sat, c.2.1, j, j', ran⟩) h

/-- The calls complete one after another, from deployment on, in a state that passes `check`. -/
def runsTo (cfg : Config) (sat : Satellite σ) (j : σ) (calls : List (Env × External × Call))
    (check : List Event → Rollup → Bool) : Bool :=
  match execAll cfg sat calls (initial cfg) j with
  | .ok (events, s, _) => check events s
  | .error _ => false

theorem runsTo_run {check : List Event → Rollup → Bool}
    (h : runsTo cfg sat j calls check = true) :
    ∃ events s, Run cfg events s ∧ check events s = true := by
  unfold runsTo at h
  split at h
  · rename_i events s j' ran
    exact ⟨events, s, execAll_path ran, h⟩
  · cases h

/-! A small deployment to run calls on. -/

def sampleConfig : Config :=
  { self := 0x1000, deployer := 1, fraudTreasury := 2, deploymentChainId := 31337
    genesisStateRoot := 0x9e, baseStake := 5, postStake := 2
    baseStake_pos := by decide, postStake_pos := by decide }

/-- The world answers every call, commits to every blob and attests every proof. -/
def sampleExternal : External :=
  { codeLength := fun _ => 1
    closeFundingMaterializer := fun _ => none
    postCommitment := fun _ _ submissionId => some (BitVec.ofNat 256 (submissionId + 1))
    isProofDataAttested := fun _ _ _ _ => true
    validityPublicInputs := fun _ => none
    withdrawalPublicInputs := fun _ => none
    fraudVerdictCompact := fun _ _ _ => some mleInvalid
    fullVerifyCompletes := true
    gasleft := fun _ => 30000000
    tokenBalanceOf := fun _ _ => some 0
    callSucceeds := true }

/-- A satellite that accepts whatever it is told. -/
def sampleSatellite : Satellite Unit :=
  { recordPost := fun _ _ _ j => .ok j
    rollbackPost := fun _ _ j => .ok j
    bindManager := fun _ _ _ j => .ok j }

def sampleEnv (sender : Address) (value number : Nat) : Env :=
  { sender, value, number, timestamp := 12 * number, chainId := 31337 }

def sampleBlock : SubBlock :=
  { channelId := 7, timestamp := 12, txTreeRoot := 0x77, keyIds := [1, 2] }

/-- The blob verifier is set and address 3 may post. -/
def sampleSetup : List (Env × External × Call) :=
  [(sampleEnv 1 0 1, sampleExternal, .setKzgVerifier 0x99),
   (sampleEnv 1 0 1, sampleExternal, .setBlockProducer 3 true)]

/-- A one-block batch on the genesis checkpoint. -/
def samplePost (value number : Nat) : Env × External × Call :=
  (sampleEnv 3 value number, sampleExternal, .postBlockAndSubmit
    { subBlocks := [sampleBlock], stateRoot := 0x51,
      expectedPendingChains := pendingChainsPin 0 0 })

end Intmax.Rollup
