import Intmax.Rollup.Finalization

/-! # Payouts

Pull payments of ETH, bonds and tokens, and the withdrawal proofs that credit
them.  A payout call is cut at the transfer: `resume` is its end.
-/

namespace Intmax.Rollup

open Checked

variable [Keccak]

/-- Suspend the running call in `frame`. -/
def enter (frame : Frame) (s : Rollup) : Rollup :=
  { s with roles := { s.roles with status := some frame } }

/-- End the suspended call. -/
def leave (s : Rollup) : Rollup :=
  { s with roles := { s.roles with status := none } }

/-- Send ETH out of the contract; the transfer fails when it does not hold the amount. -/
def sendValue (amount : Nat) (v : Vault) : Except Revert Vault := do
  revertIf (v.balance < amount) .withdrawTransferFailed
  pure { v with balance := v.balance - amount }

/-! ## ETH -/

def withdraw (cfg : Config) (env : Env) (amount : Nat) (s : Rollup) : Except Revert Rollup := do
  nonPayable env
  requireReleaseRuntime cfg env
  nonReentrant s
  let pending := s.vault.pendingWithdrawals env.sender
  revertIf (amount = 0 ∨ pending < amount) .nothingToWithdraw
  let pendingWithdrawals :=
    Function.update s.vault.pendingWithdrawals env.sender (pending - amount)
  let vault ← sendValue amount { s.vault with pendingWithdrawals }
  pure (enter .payout { s with vault })

def depositBond (cfg : Config) (env : Env) (s : Rollup) : Except Revert Rollup := do
  requireReleaseRuntime cfg env
  nonReentrant s
  let bond := s.vault.bonds env.sender
  let balance ← add 256 Revert.panic bond.balance env.value
  revertIf (env.value = 0 ∨ uint96Max < balance) .invalidStakeAmount
  let bonds := Function.update s.vault.bonds env.sender { bond with balance }
  pure { s with vault := { s.vault with bonds } }

def withdrawBond (cfg : Config) (env : Env) (amount : Nat) (s : Rollup) : Except Revert Rollup := do
  nonPayable env
  requireReleaseRuntime cfg env
  nonReentrant s
  let bond := s.vault.bonds env.sender
  let unfinalized ← sub Revert.panic bond.posted bond.released
  let locked ← lockedStake cfg unfinalized
  revertIf (amount = 0 ∨ bond.balance < amount ∨ bond.balance - amount < locked)
    .nothingToWithdraw
  let bonds :=
    Function.update s.vault.bonds env.sender { bond with balance := bond.balance - amount }
  let vault ← sendValue amount { s.vault with bonds }
  pure (enter .payout { s with vault })

/-! ## Withdrawal proofs -/

def verifyWithdrawalSet (world : External) (ws : List Withdrawal) (withdrawalProver : Address)
    (compactProof : Bytes) (s : Chain) : Except Revert Unit := do
  revertIf (ws = []) .withdrawalEmptySet
  let pi ← getOrRevert (world.withdrawalPublicInputs compactProof) .withdrawalProofInvalid
  revertIf (pi.length ≠ 17) .withdrawalPublicInputsMismatch
  let extCommitment := maskedLimbsToBytes32 pi 8
  revertIf (s.isFinalizedStateRoot extCommitment = false) .withdrawalExtCommitmentMismatch
  let wdBlockNumber := limb pi 16 % 2 ^ 64
  let withdrawalHash := ws.foldl foldWithdrawalLeaf 0
  let pisHash := withdrawalPisHash withdrawalHash withdrawalProver extCommitment wdBlockNumber
  revertIf (limbsMatchBytes32 pi 0 pisHash = false) .withdrawalPublicInputsMismatch

def consumeWithdrawalGuard (w : Withdrawal) (v : Vault) : Except Revert Vault := do
  revertIf (v.withdrawalNullifierUsed w.nullifier = true) .withdrawalNullifierUsed
  pure { v with
    withdrawalNullifierUsed := Function.update v.withdrawalNullifierUsed w.nullifier true }

def payNativeLeaf (v : Vault) (w : Withdrawal) : Except Revert Vault := do
  revertIf (w.tokenIndex ≠ 0) .withdrawalNotEthToken
  let v ← consumeWithdrawalGuard w v
  creditNativeEscrow w.recipient w.amount.toNat v

def payTokenLeaf (tokenAddressOf : TokenIndex → Address) (v : Vault) (w : Withdrawal) :
    Except Revert Vault := do
  revertIf (w.tokenIndex = 0) .withdrawalNotErc20Token
  revertIf (tokenAddressOf w.tokenIndex = 0) .tokenIndexNotRegistered
  let v ← consumeWithdrawalGuard w v
  creditTokenEscrow w.tokenIndex w.recipient w.amount.toNat v

/-- The leaf loop shared by the two entry points. -/
def payLeaves (pay : Vault → Withdrawal → Except Revert Vault) :
    List Withdrawal → Vault → Except Revert Vault
  | [], v => .ok v
  | w :: ws, v => do
    let v ← pay v w
    payLeaves pay ws v

structure WithdrawArgs where
  ws : List Withdrawal
  withdrawalProver : Address
  compactProof : Bytes

def withdrawNative (env : Env) (world : External) (args : WithdrawArgs) (s : Rollup) :
    Except Revert Rollup := do
  nonPayable env
  nonReentrant s
  verifyWithdrawalSet world args.ws args.withdrawalProver args.compactProof s.chain
  let vault ← payLeaves payNativeLeaf args.ws s.vault
  pure { s with vault }

def withdrawERC20 (env : Env) (world : External) (args : WithdrawArgs) (s : Rollup) :
    Except Revert Rollup := do
  nonPayable env
  nonReentrant s
  verifyWithdrawalSet world args.ws args.withdrawalProver args.compactProof s.chain
  let vault ← payLeaves (payTokenLeaf s.roles.tokenAddressOf) args.ws s.vault
  pure { s with vault }

/-! ## Tokens -/

def withdrawToken (cfg : Config) (env : Env) (world : External) (tokenIndex : TokenIndex)
    (amount : Nat) (s : Rollup) : Except Revert Rollup := do
  nonPayable env
  requireReleaseRuntime cfg env
  nonReentrant s
  let token := s.roles.tokenAddressOf tokenIndex
  revertIf (token = 0) .tokenIndexNotRegistered
  let pending := s.vault.pendingTokenWithdrawals tokenIndex env.sender
  revertIf (amount = 0 ∨ pending < amount) .nothingToWithdrawForToken
  let vault := s.vault.setTokenCredit tokenIndex env.sender (pending - amount)
  let balanceBefore ← getOrRevert (world.tokenBalanceOf token env.sender) .callReverted
  pure (enter (.tokenPayout token env.sender amount balanceBefore) { s with vault })

def finishTokenPayout (world : External) (token recipient : Address) (amount balanceBefore : Nat)
    (s : Rollup) : Except Revert Rollup := do
  let balanceAfter ← getOrRevert (world.tokenBalanceOf token recipient) .callReverted
  let received ← sub Revert.panic balanceAfter balanceBefore
  revertIf (received ≠ amount) .tokenWithdrawalAmountMismatch
  pure (leave s)

/-! ## Returning from foreign code -/

/-- The rest of the suspended call, once the foreign code returned. -/
def resume (cfg : Config) (world : External) (s : Rollup) : Except Revert Rollup := do
  revertIf (world.callSucceeds = false) .callReverted
  match s.roles.status with
  | none => .error .callReverted
  | some .payout => pure (leave s)
  | some (.tokenDeposit token record balBefore) =>
    finishTokenDeposit cfg world token record balBefore s
  | some (.tokenPayout token recipient amount balanceBefore) =>
    finishTokenPayout world token recipient amount balanceBefore s

end Intmax.Rollup
