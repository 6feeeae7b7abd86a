import Mathlib.Data.BitVec
import Mathlib.Data.FinEnum
import Intmax.Lib.Treasury
import Intmax.Rollup.Effects

/-! # Credits and tokens

What an account may pull of each token, and the ERC-20 side of the vault as a
treasury: with token contracts that move exactly what they are asked to, every
completed call is a sequence of the treasury's bookings, in which only the caller
is ever paid.
-/

namespace Intmax.Rollup

open Checked Function

/-! ## Credits -/

/-- What `account` may pull of a token; token 0 is the native lane. -/
def Vault.credit (v : Vault) (tokenIndex : TokenIndex) (account : Address) : Nat :=
  if tokenIndex = 0 then v.pendingWithdrawals account
  else v.pendingTokenWithdrawals tokenIndex account

/-- Nobody but `sender` loses native credit. -/
def NativeGrows (sender : Address) (v v' : Vault) : Prop :=
  ∀ a, a ≠ sender → v.pendingWithdrawals a ≤ v'.pendingWithdrawals a

theorem NativeGrows.of_eq {sender : Address} {v v' : Vault}
    (same : v'.pendingWithdrawals = v.pendingWithdrawals) : NativeGrows sender v v' :=
  fun a _ => by rw [same]

theorem le_update_add (f : Address → Nat) (b : Address) (amount : Nat) (a : Address) :
    f a ≤ update f b (f b + amount) a := by
  by_cases same : a = b
  · subst same
    simp
  · simp [same]

/-! ## The treasury of a rollup -/

/-- The ERC-20 side of a rollup that holds `held` of each token contract. -/
def treasury (s : Rollup) (held : Address → Nat) : Treasury TokenIndex Address Address where
  accounts t := ⟨s.roles.tokenAddressOf t, s.vault.escrowedByToken t,
    s.vault.pendingTokenWithdrawals t⟩
  held := held

/-- What the rollup holds once a call has moved its tokens: a finished deposit brings its
    amount, a withdrawal takes its amount away and needs that much. -/
def moveTokens (call : Call) (s : Rollup) (held : Address → Nat) : Option (Address → Nat) :=
  match call, s.roles.status with
  | .withdrawToken tokenIndex amount, _ =>
    let token := s.roles.tokenAddressOf tokenIndex
    if amount ≤ held token then some (Function.update held token (held token - amount)) else none
  | .resume, some (.tokenDeposit token record _) =>
    some (Function.update held token (held token + record.amount.toNat))
  | _, _ => some held

/-- The token of a deposit under way is registered. -/
def DepositRegistered (s : Rollup) : Prop :=
  ∀ token record balBefore, s.roles.status = some (.tokenDeposit token record balBefore) →
    token ≠ 0 ∧ s.roles.tokenAddressOf record.tokenIndex = token

/-- What a completed call does to the ledgers of credit. -/
structure LedgerStep (sender : Address) (s s' : Rollup) (held held' : Address → Nat) : Prop where
  moves : Treasury.Moves sender (treasury s held) (treasury s' held')
  native : NativeGrows sender s.vault s'.vault
  registered : DepositRegistered s → DepositRegistered s'

section
variable {sender : Address} {s s' : Rollup} {held held' : Address → Nat}

variable {t : Treasury TokenIndex Address Address} {reporter token : Address} {ws : List Withdrawal}

theorem treasury_eq (accounts : ∀ i, (treasury s held).accounts i = t.accounts i)
    (same : held = t.held) : treasury s held = t := by
  obtain ⟨_, _⟩ := t
  subst same
  exact congrArg (Treasury.mk · held) (funext accounts)

/-- A booking of the treasury that leaves what the rollup's state says. -/
theorem move_to (move : Treasury.Move sender (treasury s held) t)
    (accounts : ∀ i, (treasury s' held').accounts i = t.accounts i) (same : held' = t.held) :
    Treasury.Move sender (treasury s held) (treasury s' held') := by
  rw [treasury_eq accounts same]
  exact move

/-- A call that moves no token, registers none and starts no deposit. -/
theorem LedgerStep.quiet (tokens : s'.vault.tokens = s.vault.tokens)
    (addresses : s'.roles.tokenAddressOf = s.roles.tokenAddressOf)
    (frames : ∀ token record balBefore,
      s'.roles.status = some (.tokenDeposit token record balBefore) →
      s.roles.status = some (.tokenDeposit token record balBefore))
    (native : NativeGrows sender s.vault s'.vault) : LedgerStep sender s s' held held := by
  have escrow : s'.vault.escrowedByToken = s.vault.escrowedByToken := congrArg Prod.fst tokens
  have pending : s'.vault.pendingTokenWithdrawals = s.vault.pendingTokenWithdrawals :=
    congrArg Prod.snd tokens
  refine ⟨?_, native, ?_⟩
  · have same : treasury s' held = treasury s held :=
      treasury_eq (fun i => by simp only [treasury, escrow, pending, addresses]) rfl
    rw [same]
  · intro registered token record balBefore suspended
    rw [addresses]
    exact registered token record balBefore (frames token record balBefore suspended)

variable {tokenIndex : TokenIndex} {recipient : Address} {amount : Nat} {v v' : Vault}
  {cfg : Config}

theorem creditTokenEscrow_move (h : creditTokenEscrow tokenIndex recipient amount s.vault = .ok v) :
    Treasury.Move sender (treasury s held) (treasury { s with vault := v } held) := by
  obtain ⟨enough, rfl⟩ := creditTokenEscrow_ok h
  refine move_to (.credit tokenIndex recipient amount enough) ?_ rfl
  intro i
  by_cases same : i = tokenIndex
  · subst same
    simp [treasury, Vault.setTokenCredit]
  · simp [treasury, Vault.setTokenCredit, same]

/-- A credit out of the token escrow. -/
theorem LedgerStep.credit (h : creditTokenEscrow tokenIndex recipient amount s.vault = .ok v) :
    LedgerStep sender s { s with vault := v } held held := by
  refine ⟨.single (creditTokenEscrow_move h), ?_, id⟩
  obtain ⟨-, rfl⟩ := creditTokenEscrow_ok h
  exact .of_eq rfl

/-- Only the ETH side of a vault moved, and nobody lost credit. -/
structure NativeCredit (v v' : Vault) : Prop where
  tokens : v'.tokens = v.tokens
  grows : ∀ a, v.pendingWithdrawals a ≤ v'.pendingWithdrawals a

theorem NativeCredit.refl (v : Vault) : NativeCredit v v := ⟨rfl, fun _ => le_refl _⟩

/-- A call that changes neither the roles nor the tokens. -/
theorem LedgerStep.vaultOnly (credit : NativeCredit s.vault s'.vault)
    (roles : s'.roles = s.roles := by rfl) : LedgerStep sender s s' held held :=
  .quiet credit.tokens (by rw [roles]) (fun _ _ _ suspended => by rwa [roles] at suspended)
    (fun a _ => credit.grows a)

theorem NativeCredit.trans {v₁ v₂ : Vault} (first : NativeCredit v v₁)
    (second : NativeCredit v₁ v₂) : NativeCredit v v₂ :=
  ⟨second.tokens.trans first.tokens, fun a => (first.grows a).trans (second.grows a)⟩

theorem creditNativeEscrow_ledger (h : creditNativeEscrow recipient amount v = .ok v') :
    NativeCredit v v' := by
  obtain ⟨-, rfl⟩ := creditNativeEscrow_ok h
  exact ⟨rfl, fun a => le_update_add _ _ _ a⟩

theorem NativeCredit.credited (v : Vault) (recipient : Address) (amount : Nat) :
    NativeCredit v (v.credited recipient amount) :=
  ⟨rfl, fun a => le_update_add _ _ _ a⟩

theorem settleForfeits_ledger {offender others : Nat}
    (h : settleForfeits cfg reporter offender others v = .ok v') : NativeCredit v v' := by
  obtain ⟨share, -, rfl⟩ := settleForfeits_ok h
  exact (NativeCredit.credited v _ _).trans (.credited _ _ _)

theorem truncateSubmissions_ledger {σ : Type} {sat : Satellite σ} {target : Nat} {forfeit : Bool}
    {j j' : σ} (h : truncateSubmissions cfg sat target reporter forfeit s j = .ok (s', j')) :
    s'.roles = s.roles ∧ NativeCredit s.vault s'.vault := by
  simp only [truncateSubmissions, bind_ok] at h
  obtain ⟨t, -, rest⟩ := h
  cases forfeit with
  | false =>
    cases rest
    exact ⟨rfl, rfl, fun a => le_refl _⟩
  | true =>
    simp only [ite_true, bind_ok, pure_ok] at rest
    obtain ⟨_, -, v, settled, same⟩ := rest
    cases same
    -- before the forfeits are settled only the bonds were rewritten
    have credit := settleForfeits_ledger settled
    exact ⟨rfl, credit.tokens, credit.grows⟩

theorem consumeWithdrawalGuard_ledger {w : Withdrawal} (h : consumeWithdrawalGuard w v = .ok v') :
    v'.tokens = v.tokens ∧ v'.pendingWithdrawals = v.pendingWithdrawals := by
  simp [consumeWithdrawalGuard] at h
  obtain ⟨-, rfl⟩ := h
  exact ⟨rfl, rfl⟩

theorem payNativeLeaves_ledger (h : payLeaves payNativeLeaf ws v = .ok v') : NativeCredit v v' := by
  induction ws generalizing v with
  | nil =>
    cases h
    exact .refl _
  | cons w ws ih =>
    obtain ⟨v₁, paid, rest⟩ := bind_ok.mp h
    simp [payNativeLeaf] at paid
    obtain ⟨-, v₀, consumed, credited⟩ := paid
    obtain ⟨tokens₀, native₀⟩ := consumeWithdrawalGuard_ledger consumed
    have marked : NativeCredit v v₀ := ⟨tokens₀, fun a => by rw [native₀]⟩
    exact (marked.trans (creditNativeEscrow_ledger credited)).trans (ih rest)

theorem LedgerStep.trans {s₁ s₂ : Rollup} {held₁ held₂ : Address → Nat}
    (first : LedgerStep sender s s₁ held held₁)
    (second : LedgerStep sender s₁ s₂ held₁ held₂) :
    LedgerStep sender s s₂ held held₂ :=
  ⟨first.moves.trans second.moves, fun a other =>
    (first.native a other).trans (second.native a other),
      fun registered => second.registered (first.registered registered)⟩

theorem payTokenLeaves_ledger
    (h : payLeaves (payTokenLeaf s.roles.tokenAddressOf) ws s.vault = .ok v) :
    LedgerStep sender s { s with vault := v } held held := by
  induction ws generalizing s with
  | nil =>
    cases h
    exact .vaultOnly (.refl _)
  | cons w ws ih =>
    obtain ⟨v₁, paid, rest⟩ := bind_ok.mp h
    simp [payTokenLeaf] at paid
    obtain ⟨-, -, v₀, consumed, credited⟩ := paid
    obtain ⟨tokens₀, native₀⟩ := consumeWithdrawalGuard_ledger consumed
    have marked : LedgerStep sender s { s with vault := v₀ } held held :=
      .vaultOnly ⟨tokens₀, fun a => by rw [native₀]⟩
    have credit : LedgerStep sender { s with vault := v₀ } { s with vault := v₁ } held held :=
      .credit (s := { s with vault := v₀ }) credited
    exact (marked.trans credit).trans (ih (s := { s with vault := v₁ }) rest)

/-! ## Whole calls -/

theorem registerToken_ledger {roles : Roles} (unset : s.roles.tokenAddressOf tokenIndex = 0)
    (addresses : roles.tokenAddressOf = update s.roles.tokenAddressOf tokenIndex token)
    (status : roles.status = s.roles.status) : LedgerStep sender s { s with roles } held held := by
  refine ⟨.single (move_to (.register tokenIndex token unset) ?_ rfl), .of_eq rfl, ?_⟩
  · intro i
    by_cases same : i = tokenIndex
    · subst same
      simp [treasury, addresses]
    · simp [treasury, addresses, same]
  · intro registered token' record balBefore suspended
    obtain ⟨set, named⟩ := registered token' record balBefore (status ▸ suspended)
    -- a registered index is never registered again
    have other : record.tokenIndex ≠ tokenIndex := by
      intro same
      rw [same, unset] at named
      exact set named.symm
    simp only [addresses, update_of_ne other]
    exact ⟨set, named⟩

theorem withdrawToken_ledger {frame : Frame} (set : s.roles.tokenAddressOf tokenIndex ≠ 0)
    (enough : amount ≤ s.vault.pendingTokenWithdrawals tokenIndex sender)
    (payout : ∀ token record balBefore, frame ≠ .tokenDeposit token record balBefore)
    (moved : moveTokens (.withdrawToken tokenIndex amount) s held = some held') :
    LedgerStep sender s
      (enter frame { s with
        vault := s.vault.setTokenCredit tokenIndex sender
          (s.vault.pendingTokenWithdrawals tokenIndex sender - amount) }) held held' := by
  simp only [moveTokens] at moved
  split at moved
  · rename_i covered
    cases moved
    refine ⟨.single (move_to (.payout tokenIndex amount set enough covered) ?_ rfl),
      .of_eq rfl, ?_⟩
    · intro i
      by_cases same : i = tokenIndex
      · subst same
        simp [treasury, enter, Vault.setTokenCredit]
      · simp [treasury, enter, Vault.setTokenCredit, same]
    · intro _ token record balBefore suspended
      exact absurd (Option.some.inj suspended) (payout token record balBefore)
  · cases moved

theorem finishTokenDeposit_ledger {record : DepositRecord} {intake : Intake} (set : token ≠ 0)
    (named : s.roles.tokenAddressOf record.tokenIndex = token) :
    LedgerStep sender s
      (leave { s with
        intake
        vault := { s.vault with
          escrowedByToken := update s.vault.escrowedByToken record.tokenIndex
            (s.vault.escrowedByToken record.tokenIndex + record.amount.toNat) } })
      held (update held token (held token + record.amount.toNat)) := by
  subst named
  refine ⟨.single (move_to (.deposit record.tokenIndex record.amount.toNat set) ?_ rfl),
    .of_eq rfl, fun _ _ _ _ suspended => nomatch suspended⟩
  intro i
  by_cases same : i = record.tokenIndex
  · subst same
    simp [treasury, leave]
  · simp [treasury, leave, same]

variable [Keccak] {σ : Type}

/-- Every completed call is a sequence of bookings that pay nobody but the caller. -/
theorem dispatch_ledger {sat : Satellite σ} {env : Env} {world : External} {call : Call}
    {out : Outcome} {j j' : σ} (h : dispatch cfg sat env world call s j = .ok (out, s', j'))
    (moved : moveTokens call s held = some held') (registered : DepositRegistered s) :
    LedgerStep env.sender s s' held held' := by
  cases call with
  | registerToken tokenIndex token =>
    cases moved
    obtain ⟨-, unset, rfl⟩ := registerToken_ok (quiet_ok h).1
    exact registerToken_ledger unset rfl rfl
  | creditChannelExit manager tokenIndex amount =>
    cases moved
    obtain ⟨-, vault, rfl, ⟨-, credited⟩ | ⟨-, credited⟩⟩ :=
      creditChannelExit_ok (quiet_ok h).1
    · exact .vaultOnly (creditNativeEscrow_ledger credited)
    · exact .credit credited
  | deposit args =>
    cases moved
    obtain ⟨-, -, intake, -, rfl⟩ | ⟨-, -, set, balBefore, -, rfl⟩ :=
      deposit_ok (quiet_ok h).1
    · exact .vaultOnly ⟨rfl, fun a => le_refl _⟩
    · refine ⟨.refl, .of_eq rfl, ?_⟩
      intro _ token record balBefore suspended
      cases suspended
      exact ⟨set, rfl⟩
  | fraudProof args =>
    cases moved
    obtain ⟨-, ⟨-, rfl, -⟩ | ⟨-, -, -, forfeit, truncated⟩⟩ := fraudProof_ok h
    · exact .vaultOnly (.refl _)
    · obtain ⟨roles, credit⟩ := truncateSubmissions_ledger truncated
      exact .vaultOnly credit roles
  | withdraw amount =>
    cases moved
    obtain ⟨-, -, -, rfl⟩ := withdraw_ok (quiet_ok h).1
    refine .quiet rfl rfl (fun _ _ _ suspended => nomatch suspended) ?_
    intro a other
    exact le_of_eq (update_of_ne other ..).symm
  | withdrawNative args =>
    cases moved
    obtain ⟨-, -, vault, paid, rfl⟩ := withdrawNative_ok (quiet_ok h).1
    exact .vaultOnly (payNativeLeaves_ledger paid)
  | withdrawERC20 args =>
    cases moved
    obtain ⟨-, -, vault, paid, rfl⟩ := withdrawERC20_ok (quiet_ok h).1
    exact payTokenLeaves_ledger paid
  | withdrawToken tokenIndex amount =>
    obtain ⟨-, set, enough, balanceBefore, rfl⟩ := withdrawToken_ok (quiet_ok h).1
    exact withdrawToken_ledger set enough (fun _ _ _ same => nomatch same) moved
  | resume =>
    obtain ⟨_, -, h⟩ := bind_ok.mp h
    rcases resume_ok (quiet_ok h).1 with ⟨suspended, rfl⟩ | ⟨token, record,
      balBefore, suspended, finished⟩ | ⟨token, recipient, amount, balanceBefore,
      suspended, finished⟩
    · simp only [moveTokens, suspended] at moved
      cases moved
      exact .quiet rfl rfl (fun _ _ _ open_ => nomatch open_) (.of_eq rfl)
    · simp only [moveTokens, suspended] at moved
      cases moved
      obtain ⟨set, named⟩ := registered token record balBefore suspended
      obtain ⟨intake, -, rfl⟩ := finishTokenDeposit_ok finished
      exact finishTokenDeposit_ledger set named
    · simp only [moveTokens, suspended] at moved
      cases moved
      cases finishTokenPayout_ok finished
      exact .quiet rfl rfl (fun _ _ _ open_ => nomatch open_) (.of_eq rfl)
  | _ =>
    -- every other call leaves what the rollup holds
    cases moved
    have same := (dispatch_keeps h).ledgers rfl
    exact .quiet same.tokens same.addresses same.frames (.of_eq same.native)

end

end Intmax.Rollup
