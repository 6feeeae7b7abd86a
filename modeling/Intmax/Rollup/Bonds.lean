import Intmax.Rollup.Chain

/-! # Posting bonds and truncation

A producer's prepaid bond, what a post charges to it, what a finalization
releases from it, and the truncation loop that removes submissions from the
newest down, uncounts each removed post and, for a proven fraud, forfeits stake.

The casts of balances to 96 bits follow a bound check and lose nothing; the cast
of the post count to 48 bits in `chargeBond` follows no check.
-/

namespace Intmax.Rollup

open Checked

def uint96Max : Nat := 2 ^ 96 - 1
def fraudRewardPercent : Nat := 90

/-! ## Bond of one producer -/

/-- Count the post on the sender's bond, topped up by the value sent. -/
def chargeBond (cfg : Config) (env : Env) (v : Vault) : Except Revert (Nat × Vault) := do
  let bond := v.bonds env.sender
  let balance ← add 256 Revert.panic bond.balance env.value
  let posted ← add 256 Revert.panic bond.posted 1
  revertIf (uint96Max < balance) .insufficientBond
  let unfinalized ← sub Revert.panic posted bond.released
  let perPost ← mul 256 Revert.panic unfinalized cfg.postStake
  let required ← add 256 Revert.panic cfg.baseStake perPost
  revertIf (balance < required) .insufficientBond
  let postIndex := posted % 2 ^ 48
  let charged : Bond := { balance, posted := postIndex, released := bond.released }
  pure (postIndex, { v with bonds := Function.update v.bonds env.sender charged })

/-- ETH that the producer's unfinalized posts lock. -/
def lockedStake (cfg : Config) (unfinalized : Nat) : Except Revert Nat :=
  if unfinalized = 0 then .ok 0
  else do
    let perPost ← mul 256 Revert.panic unfinalized cfg.postStake
    add 256 Revert.panic cfg.baseStake perPost

def raiseReleased (producer : Address) (postIndex : Nat) (v : Vault) : Vault :=
  if (v.bonds producer).released < postIndex then
    let released := { v.bonds producer with released := postIndex }
    { v with bonds := Function.update v.bonds producer released }
  else v

/-- What a forfeiture takes: the stake, capped at the bond left. -/
def forfeitTaken (bond : Bond) (amount : Nat) : Nat :=
  if amount < bond.balance then amount else bond.balance

def forfeitBond (bond : Bond) (amount : Nat) : Bond :=
  { bond with balance := bond.balance - forfeitTaken bond amount }

def creditPending (recipient : Address) (amount : Nat) (v : Vault) : Except Revert Vault := do
  let pending ← add 256 Revert.panic (v.pendingWithdrawals recipient) amount
  pure { v with pendingWithdrawals := Function.update v.pendingWithdrawals recipient pending }

/-! ## Truncation -/

variable [Keccak] {σ : Type}

/-- The running values of the truncation loop. -/
structure Truncation (σ : Type) where
  chain : Chain
  bonds : Address → Bond
  satellite : σ
  offenderForfeited : Nat
  othersForfeited : Nat

/-- Book a forfeiture to the offender's or to the others' account. -/
def Truncation.book (t : Truncation σ) (isOffender : Bool) (taken : Nat) :
    Except Revert (Truncation σ) :=
  if isOffender then do
    let total ← add 256 Revert.panic t.offenderForfeited taken
    pure { t with offenderForfeited := total }
  else do
    let total ← add 256 Revert.panic t.othersForfeited taken
    pure { t with othersForfeited := total }

/-- Uncount one post and, in a proven fraud, take its stake. -/
def Truncation.chargeRemoval (cfg : Config) (offender : Address) (forfeit : Bool)
    (submitter : Address) (t : Truncation σ) : Except Revert (Truncation σ) := do
  let posted ← sub Revert.panic (t.bonds submitter).posted 1
  let bond := { t.bonds submitter with posted }
  if forfeit then
    let t := { t with bonds := Function.update t.bonds submitter (forfeitBond bond cfg.postStake) }
    t.book (submitter == offender) (forfeitTaken bond cfg.postStake)
  else
    pure { t with bonds := Function.update t.bonds submitter bond }

def deleteSubmission (submissionId : Nat) (s : Chain) : Chain :=
  { s with
    submissions := Function.update s.submissions submissionId {}
    batchMetadata := Function.update s.batchMetadata submissionId {} }

def truncateOne (cfg : Config) (sat : Satellite σ) (exitMaterializer offender : Address)
    (forfeit : Bool) (currentId : Nat) (t : Truncation σ) : Except Revert (Truncation σ) := do
  let sub := t.chain.submissions currentId
  revertIf (sub.finalized = true) .alreadyFinalized
  let t ← t.chargeRemoval cfg offender forfeit sub.submitter
  let (chain, satellite) ← rollbackBatch sat exitMaterializer currentId t.chain t.satellite
  pure { t with chain := deleteSubmission currentId chain, satellite }

/-- The loop removes the `n` submissions from `targetId` on, newest first. -/
def truncateLoop (cfg : Config) (sat : Satellite σ) (exitMaterializer offender : Address)
    (forfeit : Bool) (targetId : Nat) : Nat → Truncation σ → Except Revert (Truncation σ)
  | 0, t => .ok t
  | n + 1, t => do
    let t ← truncateOne cfg sat exitMaterializer offender forfeit (targetId + n) t
    truncateLoop cfg sat exitMaterializer offender forfeit targetId n t

/-- Split what a proven fraud forfeited between the reporter and the treasury. -/
def settleForfeits (cfg : Config) (reporter : Address) (offenderForfeited othersForfeited : Nat)
    (v : Vault) : Except Revert Vault :=
  if offenderForfeited = 0 ∧ othersForfeited = 0 then .ok v
  else do
    let scaled ← mul 256 Revert.panic offenderForfeited fraudRewardPercent
    let reward := scaled / 100
    let kept ← sub Revert.panic offenderForfeited reward
    let treasuryShare ← add 256 Revert.panic kept othersForfeited
    let v ← creditPending reporter reward v
    creditPending cfg.fraudTreasury treasuryShare v

def truncateSubmissions (cfg : Config) (sat : Satellite σ) (targetId : Nat) (reporter : Address)
    (forfeit : Bool) (s : Rollup) (j : σ) : Except Revert (Rollup × σ) := do
  let offender := (s.chain.submissions targetId).submitter
  let t ← truncateLoop cfg sat s.roles.channelExitMaterializer offender forfeit targetId
    (s.chain.nextSubmissionId - targetId)
    { chain := s.chain, bonds := s.vault.bonds, satellite := j,
      offenderForfeited := 0, othersForfeited := 0 }
  let chain := { t.chain with nextSubmissionId := targetId }
  if forfeit then
    let bond := t.bonds offender
    let bonds := Function.update t.bonds offender (forfeitBond bond cfg.baseStake)
    let offenderForfeited ←
      add 256 Revert.panic t.offenderForfeited (forfeitTaken bond cfg.baseStake)
    let vault ← settleForfeits cfg reporter offenderForfeited t.othersForfeited
      { s.vault with bonds }
    pure ({ s with chain, vault }, t.satellite)
  else
    pure ({ s with chain, vault := { s.vault with bonds := t.bonds } }, t.satellite)

end Intmax.Rollup
