import Intmax.Settlement.Close

/-! # Claims, pulls and payouts of `ChannelSettlementManager`

Three entry points accrue payouts under one set of nullifiers and one cap for each
token; a pull brings the channel's funds from the rollup and a claim pays one
accrued payout.  A pull and a claim hand control to other contracts in the
middle: the entry point leaves a frame, and `resume` runs the rest.
-/

namespace Intmax.Settlement

open Checked

variable [Keccak] {ε : Type}

/-! ## Accruing -/

/-- Both parts of the cap of a token. -/
def Accounts.cap (a : Accounts) (tokenIndex : TokenIndex) : Nat :=
  a.finalizedChannelFundAmount tokenIndex + a.lateIncomingFundAmount tokenIndex

/-- Write one recipient's credit in one token. -/
def Accounts.setCredit (tokenIndex : TokenIndex) (recipient : Address) (credit : Nat)
    (a : Accounts) : Accounts :=
  { a with
    withdrawalCredits := Function.update a.withdrawalCredits tokenIndex
      (Function.update (a.withdrawalCredits tokenIndex) recipient credit) }

def accrueWithdrawal (tokenIndex : TokenIndex) (amount : Nat) (recipient : Address)
    (nullifier : Bytes32) (a : Accounts) : Except Revert Accounts := do
  revertIf (a.usedWithdrawalNullifiers nullifier = true) .nullifierAlreadyUsed
  let total ← add 256 Revert.panic (a.totalWithdrawn tokenIndex) amount
  let cap ← add 256 Revert.panic (a.finalizedChannelFundAmount tokenIndex)
    (a.lateIncomingFundAmount tokenIndex)
  revertIf (cap < total) .withdrawalCapExceeded
  let credit ← add 256 Revert.panic (a.withdrawalCredits tokenIndex recipient) amount
  let accrued :=
    { a with
      totalWithdrawn := Function.update a.totalWithdrawn tokenIndex total
      usedWithdrawalNullifiers := Function.update a.usedWithdrawalNullifiers nullifier true
      withdrawalPayouts :=
        Function.update a.withdrawalPayouts nullifier { recipient, tokenIndex, amount } }
  pure (accrued.setCredit tokenIndex recipient credit)

def submitWithdrawalClaim (cfg : Config) (env : Env) (world : External) (claim : WithdrawalClaim)
    (compactProof : Bytes) (s : Manager) : Except Revert Manager := do
  requireReleaseRuntime cfg env
  revertIf (s.lifecycle.channelStatus ≠ .closed) .closeNotActive
  revertIf (claim.closeIntentDigest ≠ s.finalized.closeIntentDigest) .closeIntentDigestMismatch
  revertIf (s.finalized.tokenCount ≤ claim.tokenSlot) .tokenSlotOutOfRange
  let registered ← getOrRevert ((view cfg s).finalizedTokenRegistry claim.tokenSlot) .panic
  revertIf (registered ≠ claim.tokenIndex) .tokenRegistryMismatch
  revertIf (s.accounts.usedWithdrawalNullifiers claim.withdrawalNullifier = true)
    .nullifierAlreadyUsed
  let verified ← getOrRevert (world.verifyWithdrawalClaim cfg.channelId s.finalized.balanceStateH1
    claim compactProof) .callReverted
  revertIf (verified = false) .invalidWithdrawalClaimProof
  let accounts ← accrueWithdrawal claim.tokenIndex claim.amount.toNat claim.recipient
    claim.withdrawalNullifier s.accounts
  pure { s with accounts }

/-- "IMCK", the domain of post-close nullifiers. -/
def postCloseNullifierDomain : BitVec 32 := 0x494d434b

def deriveSharedNativeNullifier (closeIntentDigest incomingTxHash receiverPkG : Bytes32) :
    Bytes32 :=
  keccak256 (packUint32 postCloseNullifierDomain ++ packBytes32 closeIntentDigest ++
    packBytes32 incomingTxHash ++ packBytes32 receiverPkG)

def submitPostCloseClaim (cfg : Config) (env : Env) (world : External) (claim : PostCloseClaim)
    (compactProof : Bytes) (s : Manager) : Except Revert Manager := do
  requireReleaseRuntime cfg env
  revertIf (s.lifecycle.channelStatus ≠ .closed) .closeNotActive
  revertIf (claim.closeIntentDigest ≠ s.finalized.closeIntentDigest) .closeIntentDigestMismatch
  let registered ← Exit.tokenRegistered (view cfg s) claim.tokenIndex
    (List.range s.finalized.tokenCount)
  revertIf (registered = false) .tokenRegistryMismatch
  let nullifier := deriveSharedNativeNullifier claim.closeIntentDigest claim.incomingTxHash
    claim.receiverPkG
  revertIf (s.accounts.usedSharedNativeNullifiers nullifier = true ∨
    s.accounts.usedWithdrawalNullifiers nullifier = true) .nullifierAlreadyUsed
  let verified ← getOrRevert (world.verifyPostCloseClaim cfg.channelId nullifier
    s.finalized.balanceStateH1 s.finalized.settledTxAccumulatorRoot claim compactProof)
    .callReverted
  revertIf (verified = false) .invalidPostCloseClaimProof
  let used := Function.update s.accounts.usedSharedNativeNullifiers nullifier true
  let accounts ← accrueWithdrawal claim.tokenIndex claim.amount.toNat claim.recipient nullifier
    { s.accounts with usedSharedNativeNullifiers := used }
  pure { s with accounts }

def creditLateIncoming (cfg : Config) (env : Env) (tokenIndex : TokenIndex) (amount : Nat)
    (recipient : Address) (claimKey : Bytes32) (s : Manager) : Except Revert Manager := do
  requireReleaseRuntime cfg env
  revertIf (env.sender ≠ cfg.closeFundingMaterializer) .invalidPostCloseClaimProof
  revertIf (s.lifecycle.channelStatus ≠ .closed) .closeNotActive
  let late ← add 256 Revert.panic (s.accounts.lateIncomingFundAmount tokenIndex) amount
  let lateIncomingFundAmount := Function.update s.accounts.lateIncomingFundAmount tokenIndex late
  let accounts ← accrueWithdrawal tokenIndex amount recipient claimKey
    { s.accounts with lateIncomingFundAmount }
  pure { s with accounts }

/-! ## Pulling the channel's funds -/

/-- The token contract behind a base token; the native lane has none. -/
def resolveToken (world : External) (tokenIndex : TokenIndex) : Except Revert Address :=
  if tokenIndex = 0 then .ok 0
  else do
    let token := world.tokenAddressOf tokenIndex
    revertIf (token = 0) .tokenIndexNotRegisteredOnRollup
    pure token

/-- What the manager holds of an asset. -/
def heldBalance (cfg : Config) (world : External) (tokenIndex : TokenIndex) (token : Address) :
    Except Revert Nat :=
  if tokenIndex = 0 then .ok world.balance
  else getOrRevert (world.tokenBalanceOf token cfg.self) .callReverted

/-- The pull up to its call of the rollup; the frame says what must arrive. -/
def pullChannelTokenFunds (cfg : Config) (sat : Satellite ε) (env : Env) (world : External)
    (tokenIndex : TokenIndex) (s : Manager) (x : ε) : Except Revert Manager := do
  requireReleaseRuntime cfg env
  nonReentrant s
  revertIf (s.lifecycle.channelStatus ≠ .closed) .closeNotActive
  let token ← resolveToken world tokenIndex
  let received := s.accounts.receivedChannelFunds tokenIndex
  let cap ← add 256 Revert.panic (s.accounts.finalizedChannelFundAmount tokenIndex)
    (s.accounts.lateIncomingFundAmount tokenIndex)
  revertIf (cap ≤ received) (.channelFundsAlreadyReceived tokenIndex)
  revertIf (sat.materializedChannelExit cfg.channelId x ≠ s.finalized.closeIntentDigest)
    (.closeFundingProofNotMaterialized tokenIndex)
  let balBefore ← heldBalance cfg world tokenIndex token
  pure { s with status := some (.pull tokenIndex token cap (cap - received) balBefore) }

/-- The end of a pull, after the rollup's `withdraw` or `withdrawToken` returned. -/
def finishPull (cfg : Config) (world : External) (tokenIndex : TokenIndex) (token : Address)
    (cap expected balBefore : Nat) (s : Manager) : Except Revert Manager := do
  let balAfter ← heldBalance cfg world tokenIndex token
  let pulled ← sub Revert.panic balAfter balBefore
  revertIf (pulled ≠ expected) (.channelFundingMismatch tokenIndex expected pulled)
  let receivedChannelFunds := Function.update s.accounts.receivedChannelFunds tokenIndex cap
  pure { s with accounts := { s.accounts with receivedChannelFunds }, status := none }

/-! ## Paying out -/

/-- The accounts after one payout is taken from them. -/
def Accounts.pay (a : Accounts) (withdrawalNullifier : Bytes32) (payout : WithdrawalPayout) :
    Accounts :=
  let t := payout.tokenIndex
  let credit := a.withdrawalCredits t payout.recipient - payout.amount
  Accounts.setCredit t payout.recipient credit
    { a with
      withdrawalPayouts := Function.update a.withdrawalPayouts withdrawalNullifier {}
      totalCreditedOut :=
        Function.update a.totalCreditedOut t (a.totalCreditedOut t + payout.amount) }

def claimWithdrawalCredit (cfg : Config) (env : Env) (world : External)
    (withdrawalNullifier : Bytes32) (s : Manager) : Except Revert Manager := do
  requireReleaseRuntime cfg env
  nonReentrant s
  let a := s.accounts
  let payout := a.withdrawalPayouts withdrawalNullifier
  let t := payout.tokenIndex
  revertIf (payout.amount = 0) .noWithdrawalCredit
  revertIf (env.sender ≠ payout.recipient) .withdrawalPayoutRecipientMismatch
  revertIf (a.withdrawalCredits t payout.recipient < payout.amount) .insufficientWithdrawalCredit
  let creditedOut ← add 256 Revert.panic (a.totalCreditedOut t) payout.amount
  revertIf (a.receivedChannelFunds t < creditedOut) .withdrawalCapExceeded
  let token ← resolveToken world t
  let paid := a.pay withdrawalNullifier payout
  if t = 0 then
    pure { s with accounts := paid, status := some .nativePayout }
  else do
    let balanceBefore ← getOrRevert (world.tokenBalanceOf token payout.recipient) .callReverted
    let frame := Frame.tokenPayout token payout.recipient payout.amount balanceBefore
    pure { s with accounts := paid, status := some frame }

/-- The end of a token payout, after the token's `transfer` returned. -/
def finishTokenPayout (world : External) (token recipient : Address) (amount balanceBefore : Nat)
    (s : Manager) : Except Revert Manager := do
  let balanceAfter ← getOrRevert (world.tokenBalanceOf token recipient) .callReverted
  let received ← sub Revert.panic balanceAfter balanceBefore
  revertIf (received ≠ amount) .tokenPayoutAmountMismatch
  pure { s with status := none }

/-- The rest of the suspended call, once the other contract returned. -/
def resume (cfg : Config) (world : External) (s : Manager) : Except Revert Manager := do
  revertIf (world.callSucceeds = false) .callReverted
  match s.status with
  | none => .error .callReverted
  | some (.pull tokenIndex token cap expected balBefore) =>
    finishPull cfg world tokenIndex token cap expected balBefore s
  | some .nativePayout => pure { s with status := none }
  | some (.tokenPayout token recipient amount balanceBefore) =>
    finishTokenPayout world token recipient amount balanceBefore s

end Intmax.Settlement
