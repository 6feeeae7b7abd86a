import Intmax.Rollup.Bonds

/-! # Calls into `IntmaxRollup`: guards, roles and escrow credits

What a call learns from code outside the model (proof verifiers, the blob
satellite, token contracts, gas left) is its `External` record; results about the
rollup hold whatever the record answers.

`withdraw`, `withdrawBond`, a token deposit and `withdrawToken` hand control to
foreign code in the middle.  They are split there: the entry point runs up to the
call and leaves a frame in `status`, and `resume` runs the rest.
-/

namespace Intmax.Rollup

open Checked

/-- Answers of the contracts and of the machine outside the model, for one call. -/
structure External where
  codeLength : Address → Nat
  closeFundingMaterializer : Address → Option Address
  postCommitment : Bytes32 → Nat → Nat → Option Bytes32
  isProofDataAttested : Nat → Bytes32 → Bytes32 → Nat → Bool
  validityPublicInputs : Bytes → Option (List Nat)
  withdrawalPublicInputs : Bytes → Option (List Nat)
  fraudVerdictCompact : Bytes → Bytes32 → Nat → Option Nat
  fullVerifyCompletes : Bool
  gasleft : Nat → Nat
  tokenBalanceOf : Address → Address → Option Nat
  callSucceeds : Bool

/-- What a completed call reports: nothing, a boolean, or for `finalize` the error
    it rejected with (none when the verification could not be evaluated). -/
inductive Outcome
  | done
  | returned (value : Bool)
  | rejected (reason : Option Revert)
  deriving DecidableEq, Repr

variable [Keccak] {σ : Type}

/-! ## Modifiers -/

def requireReleaseRuntime (cfg : Config) (env : Env) : Except Revert Unit :=
  revertIf (env.chainId ≠ cfg.deploymentChainId) .releaseRuntimeUnavailable

def nonReentrant (s : Rollup) : Except Revert Unit :=
  revertIf (s.roles.status.isSome = true) .reentrantCall

def nonPayable (env : Env) : Except Revert Unit :=
  revertIf (env.value ≠ 0) .nonPayable

def requireDeployer (cfg : Config) (env : Env) : Except Revert Unit :=
  revertIf (env.sender ≠ cfg.deployer) .onlyDeployer

/-! ## Roles and registries -/

def registerToken (cfg : Config) (env : Env) (world : External) (tokenIndex : TokenIndex)
    (token : Address) (s : Rollup) : Except Revert Rollup := do
  nonPayable env
  requireDeployer cfg env
  revertIf (tokenIndex = 0) .tokenIndexZeroReservedForEth
  revertIf (token = 0) .tokenAddressZeroReserved
  revertIf (s.roles.tokenAddressOf tokenIndex ≠ 0) .tokenIndexAlreadyRegistered
  revertIf (world.codeLength token = 0) .tokenNotAContract
  let count ← add 32 Revert.panic s.roles.registeredTokenCount 1
  let tokenAddressOf := Function.update s.roles.tokenAddressOf tokenIndex token
  pure { s with roles := { s.roles with tokenAddressOf, registeredTokenCount := count } }

def setBlockProducer (cfg : Config) (env : Env) (producer : Address) (allowed : Bool)
    (s : Rollup) : Except Revert Rollup := do
  nonPayable env
  revertIf (env.sender ≠ cfg.deployer ∧ env.sender ≠ s.roles.blockProducerAdmin)
    .notBlockProducerManager
  let isBlockProducer := Function.update s.roles.isBlockProducer producer allowed
  pure { s with roles := { s.roles with isBlockProducer } }

def setBlockProducerAdmin (cfg : Config) (env : Env) (admin : Address) (s : Rollup) :
    Except Revert Rollup := do
  nonPayable env
  requireDeployer cfg env
  pure { s with roles := { s.roles with blockProducerAdmin := admin } }

def setKzgVerifier (cfg : Config) (env : Env) (world : External) (v : Address) (s : Rollup) :
    Except Revert Rollup := do
  nonPayable env
  requireDeployer cfg env
  revertIf (s.roles.kzgVerifier ≠ 0) .kzgVerifierAlreadySet
  revertIf (world.codeLength v = 0) .kzgVerifierNotAContract
  pure { s with roles := { s.roles with kzgVerifier := v } }

/-- The set-once satellite after `materializer` is offered, while the escrow is empty. -/
def installMaterializer (materializer : Address) (s : Rollup) : Except Revert Rollup :=
  if s.roles.channelExitMaterializer = 0 then do
    revertIf (s.vault.totalEscrowed ≠ 0 ∨ s.roles.registeredTokenCount ≠ 0)
      .invalidChannelExitManager
    pure { s with roles := { s.roles with channelExitMaterializer := materializer } }
  else do
    revertIf (s.roles.channelExitMaterializer ≠ materializer) .invalidChannelExitManager
    pure s

def registerSettlementManager (cfg : Config) (sat : Satellite σ) (env : Env) (world : External)
    (manager : Address) (s : Rollup) (j : σ) : Except Revert (Rollup × σ) := do
  nonPayable env
  requireDeployer cfg env
  let registered := Function.update s.roles.isRegisteredSettlementManager manager true
  let s := { s with roles := { s.roles with isRegisteredSettlementManager := registered } }
  let materializer := (world.closeFundingMaterializer manager).getD 0
  if materializer = 0 then
    pure (s, j)
  else
    revertIf (world.codeLength materializer = 0) .invalidChannelExitManager
    let s ← installMaterializer materializer s
    let j ← sat.bindManager materializer s manager j
    pure (s, j)

/-! ## Escrow credits -/

def creditNativeEscrow (recipient : Address) (amount : Nat) (v : Vault) : Except Revert Vault := do
  let escrowed ← sub Revert.panic v.totalEscrowed amount
  creditPending recipient amount { v with totalEscrowed := escrowed }

/-- Write one recipient's pull-payment credit in one token. -/
def Vault.setTokenCredit (tokenIndex : TokenIndex) (recipient : Address) (credit : Nat)
    (v : Vault) : Vault :=
  { v with
    pendingTokenWithdrawals := Function.update v.pendingTokenWithdrawals tokenIndex
      (Function.update (v.pendingTokenWithdrawals tokenIndex) recipient credit) }

def creditTokenEscrow (tokenIndex : TokenIndex) (recipient : Address) (amount : Nat) (v : Vault) :
    Except Revert Vault := do
  let escrowed ← sub Revert.panic (v.escrowedByToken tokenIndex) amount
  let pending ← add 256 Revert.panic (v.pendingTokenWithdrawals tokenIndex recipient) amount
  let debited := { v with escrowedByToken := Function.update v.escrowedByToken tokenIndex escrowed }
  pure (debited.setTokenCredit tokenIndex recipient pending)

def creditChannelExit (cfg : Config) (env : Env) (manager : Address) (tokenIndex : TokenIndex)
    (amount : Nat) (s : Rollup) : Except Revert Rollup := do
  nonPayable env
  requireReleaseRuntime cfg env
  revertIf (env.sender ≠ s.roles.channelExitMaterializer) .invalidChannelExitManager
  let vault ←
    if tokenIndex = 0 then creditNativeEscrow manager amount s.vault
    else creditTokenEscrow tokenIndex manager amount s.vault
  pure { s with vault }

end Intmax.Rollup
