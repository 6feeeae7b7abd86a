import Mathlib.Data.FinEnum
import Intmax.Lib.Ledger
import Intmax.Settlement.Specs

/-! # The accounts of a manager

Every payout that was accrued is either outstanding or paid, and both the credit
of a recipient and the total withdrawn of a token are sums over the outstanding
ones.  The cap of a token bounds what was accrued, what was received bounds what
was paid, and a nullifier goes through its life once.
-/

namespace Intmax.Settlement

open Checked Transition WithdrawalPayout Function List Accounts

/-! ## Outstanding payouts -/

/-- What a payout is worth in a token. -/
def WithdrawalPayout.inToken (tokenIndex : TokenIndex) (payout : WithdrawalPayout) : Nat :=
  if payout.tokenIndex = tokenIndex then payout.amount else 0

/-- What a payout is worth to a recipient in a token. -/
def WithdrawalPayout.owedTo (tokenIndex : TokenIndex) (recipient : Address)
    (payout : WithdrawalPayout) : Nat :=
  if payout.recipient = recipient then payout.inToken tokenIndex else 0

/-- The sum of the outstanding payouts of a token. -/
def Accounts.outstanding (a : Accounts) (tokenIndex : TokenIndex) : Nat :=
  Ledger.total (inToken tokenIndex) a.withdrawalPayouts

/-- The sum of the outstanding payouts of a token to one recipient. -/
def Accounts.owed (a : Accounts) (tokenIndex : TokenIndex) (recipient : Address) : Nat :=
  Ledger.total (owedTo tokenIndex recipient) a.withdrawalPayouts

@[simp] theorem WithdrawalPayout.inToken_empty (t : TokenIndex) :
    inToken t {} = 0 := by
  simp [inToken]

@[simp] theorem WithdrawalPayout.owedTo_empty (t : TokenIndex) (r : Address) :
    owedTo t r {} = 0 := by
  rw [owedTo, inToken_empty, ite_self]

@[simp] theorem WithdrawalPayout.inToken_self (p : WithdrawalPayout) :
    p.inToken p.tokenIndex = p.amount := by
  simp [inToken]

theorem WithdrawalPayout.inToken_of_ne {p : WithdrawalPayout} {t : TokenIndex}
    (other : t ≠ p.tokenIndex) : p.inToken t = 0 :=
  if_neg other.symm

/-! ## The books of one token -/

structure Balanced (a : Accounts) (t : TokenIndex) : Prop where
  paid_le : a.totalCreditedOut t ≤ a.receivedChannelFunds t
  received_le : a.receivedChannelFunds t ≤ a.cap t
  withdrawn_le : a.totalWithdrawn t ≤ a.cap t
  withdrawn_lt : a.totalWithdrawn t < 2 ^ 256
  withdrawn_eq : a.totalWithdrawn t = a.totalCreditedOut t + a.outstanding t
  credits_eq : ∀ recipient, a.withdrawalCredits t recipient = a.owed t recipient

/-- Writing one entry of a two-level table. -/
theorem Accounts.setCredit_credits (t : TokenIndex) (r : Address) (credit : Nat) (a : Accounts)
    (t' : TokenIndex) (r' : Address) :
    (a.setCredit t r credit).withdrawalCredits t' r' =
      if t' = t ∧ r' = r then credit else a.withdrawalCredits t' r' := by
  by_cases token : t' = t
  · subst token
    by_cases recipient : r' = r
    · subst recipient
      simp [setCredit]
    · simp [setCredit, recipient]
  · simp [setCredit, token]

theorem WithdrawalPayout.owedTo_eq (p : WithdrawalPayout) (t : TokenIndex) (r : Address) :
    p.owedTo t r = if t = p.tokenIndex ∧ r = p.recipient then p.amount else 0 := by
  simp only [owedTo, inToken]
  grind

theorem Accounts.accrue_credits (a : Accounts) (nullifier : Bytes32) (p : WithdrawalPayout)
    (t : TokenIndex) (r : Address) :
    (a.accrue nullifier p).withdrawalCredits t r = a.withdrawalCredits t r + p.owedTo t r := by
  rw [accrue, setCredit_credits, p.owedTo_eq]
  by_cases hit : t = p.tokenIndex ∧ r = p.recipient
  · rw [if_pos hit, if_pos hit, hit.1, hit.2]
  · simp [if_neg hit]

theorem Accounts.pay_credits (a : Accounts) (nullifier : Bytes32) (p : WithdrawalPayout)
    (t : TokenIndex) (r : Address) :
    (a.pay nullifier p).withdrawalCredits t r = a.withdrawalCredits t r - p.owedTo t r := by
  rw [pay, setCredit_credits, p.owedTo_eq]
  by_cases hit : t = p.tokenIndex ∧ r = p.recipient
  · rw [if_pos hit, if_pos hit, hit.1, hit.2]
  · simp [if_neg hit]

theorem update_add_inToken (f : TokenIndex → Nat) (p : WithdrawalPayout) (t : TokenIndex) :
    update f p.tokenIndex (f p.tokenIndex + p.amount) t = f t + p.inToken t := by
  by_cases token : t = p.tokenIndex
  · subst token
    simp
  · simp [token, p.inToken_of_ne token]

section
variable {a a' : Accounts} {nullifier : Bytes32} {payout : WithdrawalPayout} {late : Nat}
  {t : TokenIndex}

theorem Accounts.cap_extend (a : Accounts) (payout : WithdrawalPayout) (late : Nat)
    (shared : Bytes32 → Bool) (t : TokenIndex) :
    a.cap t ≤ (a.extend payout.tokenIndex late shared).cap t := by
  by_cases token : t = payout.tokenIndex
  · subst token
    simp only [cap, extend, update_self]
    omega
  · simp [cap, extend, token]

/-- An accrual puts the payout in its token's sum and in its recipient's credit. -/
theorem Accrues.balanced (accrues : Accrues nullifier payout late a a')
    (unpaid : a.withdrawalPayouts nullifier = {}) (books : Balanced a t) : Balanced a' t := by
  obtain ⟨-, fits, bounded, shared, rfl⟩ := accrues
  have cap_le := a.cap_extend payout late shared t
  have withdrawn : (accrue (a.extend payout.tokenIndex late shared) nullifier payout).totalWithdrawn
      t = a.totalWithdrawn t + payout.inToken t := update_add_inToken a.totalWithdrawn payout t
  have sum := Ledger.total_update_add (inToken t) a.withdrawalPayouts nullifier payout
  rw [unpaid, inToken_empty, add_zero] at sum
  refine ⟨books.paid_le, books.received_le.trans cap_le, ?_, ?_, ?_, ?_⟩
  -- the cap check was made for the token of the payout; the others only gain cap
  · rw [withdrawn]
    by_cases token : t = payout.tokenIndex
    · subst token
      rw [inToken_self]
      simpa [Accounts.cap, Accounts.extend, Accounts.accrue, Accounts.setCredit, add_assoc]
        using bounded
    · rw [payout.inToken_of_ne token]
      exact books.withdrawn_le.trans cap_le
  · rw [withdrawn]
    by_cases token : t = payout.tokenIndex
    · subst token
      rwa [inToken_self]
    · rw [payout.inToken_of_ne token]
      exact books.withdrawn_lt
  · rw [withdrawn, books.withdrawn_eq, add_assoc]
    exact congrArg (a.totalCreditedOut t + ·) sum.symm
  · intro recipient
    have share := Ledger.total_update_add (owedTo t recipient) a.withdrawalPayouts nullifier payout
    rw [unpaid, owedTo_empty, add_zero] at share
    rw [accrue_credits]
    exact (congrArg (· + payout.owedTo t recipient) (books.credits_eq recipient)).trans share.symm

/-- A payment takes the payout out of both and moves it to what was paid. -/
theorem Balanced.pay (books : ∀ t, Balanced a t) (found : a.withdrawalPayouts nullifier = payout)
    (funded : a.totalCreditedOut payout.tokenIndex + payout.amount ≤
      a.receivedChannelFunds payout.tokenIndex) : Balanced (a.pay nullifier payout) t := by
  have paid : (a.pay nullifier payout).totalCreditedOut t =
      a.totalCreditedOut t + payout.inToken t :=
    update_add_inToken a.totalCreditedOut payout t
  have sum := Ledger.total_update_add (inToken t) a.withdrawalPayouts nullifier {}
  rw [found, inToken_empty, add_zero] at sum
  have remaining : (a.pay nullifier payout).outstanding t + payout.inToken t =
    a.outstanding t := sum
  refine ⟨?_, (books t).received_le, (books t).withdrawn_le, (books t).withdrawn_lt, ?_, ?_⟩
  · rw [paid]
    by_cases token : t = payout.tokenIndex
    · subst token
      rwa [inToken_self]
    · rw [payout.inToken_of_ne token]
      exact (books t).paid_le
  · have before := (books t).withdrawn_eq
    rw [paid]
    show a.totalWithdrawn t = _
    omega
  · intro recipient
    have share := Ledger.total_update_add (owedTo t recipient) a.withdrawalPayouts nullifier {}
    rw [found, owedTo_empty, add_zero] at share
    have remaining : (a.pay nullifier payout).owed t recipient + payout.owedTo t recipient =
      a.owed t recipient := share
    rw [pay_credits, (books t).credits_eq recipient]
    omega

end

/-! ## The books of a manager -/

theorem addFunds_le {intent : CloseIntent} {slots : List TokenSlot}
    {funds funds' : TokenIndex → Nat} (h : addFunds intent slots funds = .ok funds')
    (t : TokenIndex) : funds t ≤ funds' t := by
  induction slots generalizing funds with
  | nil =>
    cases h
    exact le_refl _
  | cons slot slots ih =>
    simp only [addFunds, bind_ok, add_ok_iff] at h
    obtain ⟨_, ⟨-, rfl⟩, rest⟩ := h
    refine le_trans ?_ (ih rest)
    by_cases token : t = intent.tokenRegistry slot
    · subst token
      simp
    · simp [token]

structure Books (s : Manager) : Prop where
  balanced : ∀ t, Balanced s.accounts t
  unused : ∀ nullifier, s.accounts.usedWithdrawalNullifiers nullifier = false →
    s.accounts.withdrawalPayouts nullifier = {}
  pull : ∀ t token cap expected balBefore, s.status =
    some (.pull t token cap expected balBefore) → s.accounts.receivedChannelFunds t ≤ cap ∧
      cap ≤ s.accounts.cap t

theorem Books.initial : Books initial where
  balanced t :=
    { paid_le := le_refl 0
      received_le := le_refl 0
      withdrawn_le := le_refl 0
      withdrawn_lt := by simp [Settlement.initial]
      withdrawn_eq := by
        have nothing : Settlement.initial.accounts.outstanding t = 0 :=
          Ledger.total_const_zero _ (inToken_empty t)
        rw [nothing]
        rfl
      credits_eq := fun r =>
        (Ledger.total_const_zero _ (owedTo_empty t r)).symm }
  unused _ _ := rfl
  pull _ _ _ _ _ suspended := nomatch suspended

/-- More cap unbalances nothing. -/
theorem Balanced.finalize {a : Accounts} {t : TokenIndex} {funds : TokenIndex → Nat}
    (more : a.finalizedChannelFundAmount t ≤ funds t) (books : Balanced a t) :
    Balanced { a with finalizedChannelFundAmount := funds } t := by
  have cap_le : a.cap t ≤ cap { a with finalizedChannelFundAmount := funds } t :=
    Nat.add_le_add_right more _
  exact ⟨books.paid_le, books.received_le.trans cap_le, books.withdrawn_le.trans cap_le,
    books.withdrawn_lt, books.withdrawn_eq, books.credits_eq⟩

/-! ## Claims that cannot fail -/

section
variable {cfg : Config} {env : Env} {world : External} {s : Manager} {n : Bytes32}

/-- A recipient's credit covers each payout it is the sum of. -/
theorem Books.covered (books : Books s) :
    (s.accounts.withdrawalPayouts n).amount ≤
      s.accounts.withdrawalCredits (s.accounts.withdrawalPayouts n).tokenIndex
        (s.accounts.withdrawalPayouts n).recipient := by
  let payout := s.accounts.withdrawalPayouts n
  rw [(books.balanced payout.tokenIndex).credits_eq payout.recipient]
  have part := Ledger.le_total (owedTo payout.tokenIndex payout.recipient)
    s.accounts.withdrawalPayouts n
  rwa [owedTo_eq, if_pos ⟨rfl, rfl⟩] at part

/-- What was paid and one outstanding payout are part of what was withdrawn. -/
theorem Books.part_of_withdrawn (books : Books s) :
    s.accounts.totalCreditedOut (s.accounts.withdrawalPayouts n).tokenIndex +
        (s.accounts.withdrawalPayouts n).amount ≤
      s.accounts.totalWithdrawn (s.accounts.withdrawalPayouts n).tokenIndex := by
  let payout := s.accounts.withdrawalPayouts n
  rw [(books.balanced payout.tokenIndex).withdrawn_eq]
  have part := Ledger.le_total (inToken payout.tokenIndex) s.accounts.withdrawalPayouts n
  rw [inToken_self] at part
  exact Nat.add_le_add_left part _

/-- Which of a claim's checks depend on the accounts alone. -/
theorem claimWithdrawalCredit_error {error : Revert}
    (h : claimWithdrawalCredit cfg env world n s = .error error) :
    let payout := s.accounts.withdrawalPayouts n
    let creditedOut := s.accounts.totalCreditedOut payout.tokenIndex + payout.amount
    (error = .insufficientWithdrawalCredit →
      s.accounts.withdrawalCredits payout.tokenIndex payout.recipient < payout.amount) ∧
    (error = .panic → 2 ^ 256 ≤ creditedOut) ∧
    (error = .withdrawalCapExceeded →
      s.accounts.receivedChannelFunds payout.tokenIndex < creditedOut) := by
  simp only [claimWithdrawalCredit, requireReleaseRuntime, nonReentrant, resolveToken,
    bind_error, revertIf_error, ite_error_iff, getOrRevert, add, pure, Except.pure] at h
  grind

end

section
variable [Keccak] {cfg : Config}

variable {s' : Manager} {e : Event} {events : List Event}

theorem Books.step {s : Manager} (step : Step cfg s e s') (books : Books s) : Books s' := by
  obtain ⟨ε, sat, x, x', effect⟩ := step.effect
  obtain ⟨env, call⟩ := e
  -- requests, intents and cancels leave the accounts and the latch alone
  cases effect with
  | request _ _ _ requests =>
    rw [requests.manager_eq]
    exact ⟨books.balanced, books.unused, books.pull⟩
  | submit submits =>
    rw [submits.manager_eq]
    exact ⟨books.balanced, books.unused, books.pull⟩
  | cancel cancels =>
    rw [cancels.manager_eq]
    exact ⟨books.balanced, books.unused, books.pull⟩
  | finalize _ finalizes =>
    rw [finalizes.manager_eq]
    have more := addFunds_le finalizes.added
    refine ⟨fun t => (books.balanced t).finalize (more t), books.unused, ?_⟩
    intro t token cap expected balBefore suspended
    obtain ⟨received, capped⟩ := books.pull t token cap expected balBefore suspended
    exact ⟨received, capped.trans (Nat.add_le_add_right (more t) _)⟩
  | @accrue _ nullifier payout late a _ _ _ _ _ _ _ accrues =>
    have empty := books.unused nullifier accrues.fresh
    refine ⟨fun t => accrues.balanced empty (books.balanced t), ?_, ?_⟩
    · intro other unused
      obtain ⟨-, -, -, shared, rfl⟩ := accrues
      simp only [Accounts.accrue, Accounts.setCredit, Accounts.extend] at unused ⊢
      by_cases same : other = nullifier
      · subst same
        simp at unused
      · rw [update_of_ne same] at unused ⊢
        exact books.unused other unused
    · intro t token cap expected balBefore suspended
      obtain ⟨received, capped⟩ := books.pull t token cap expected balBefore suspended
      obtain ⟨-, -, -, shared, rfl⟩ := accrues
      exact ⟨received, capped.trans (s.accounts.cap_extend _ _ shared _)⟩
  | pull pulls =>
    rw [pulls.manager_eq]
    refine ⟨books.balanced, books.unused, ?_⟩
    intro t token cap expected balBefore suspended
    cases suspended
    exact ⟨le_of_lt pulls.missing, le_refl _⟩
  | @pay nullifier _ _ _ pays =>
    obtain ⟨frame, payout, manager_eq⟩ := pays.manager_eq
    rw [manager_eq]
    refine ⟨fun t => Balanced.pay books.balanced rfl pays.funded, ?_, ?_⟩
    · intro other unused
      have before := books.unused other unused
      simp only [pay, setCredit]
      by_cases same : other = nullifier
      · subst same
        rw [update_self]
      · rwa [update_of_ne same]
    · intro t token cap expected balBefore suspended
      cases Option.some.inj suspended
      cases payout
  | @pulled t token cap _ _ _ _ suspended =>
    obtain ⟨received, capped⟩ := books.pull _ _ _ _ _ suspended
    refine ⟨?_, books.unused, by simp [Settlement.pulled]⟩
    intro t'
    have before := books.balanced t'
    by_cases token : t' = t
    · subst token
      have booked : (Settlement.pulled t' cap s).accounts.receivedChannelFunds t' = cap :=
        update_self ..
      exact ⟨by rw [booked]; exact before.paid_le.trans received, by rw [booked]; exact capped,
        before.withdrawn_le, before.withdrawn_lt, before.withdrawn_eq, before.credits_eq⟩
    · have booked : (Settlement.pulled t cap s).accounts.receivedChannelFunds t' =
          s.accounts.receivedChannelFunds t' := update_of_ne token ..
      exact ⟨by rw [booked]; exact before.paid_le, by rw [booked]; exact before.received_le,
        before.withdrawn_le, before.withdrawn_lt, before.withdrawn_eq, before.credits_eq⟩
  | paid _ _ => exact ⟨books.balanced, books.unused, by simp⟩

theorem Reachable.books {s : Manager} (reachable : Reachable cfg s) : Books s :=
  Transition.Reachable.invariant (fun _ _ _ books step => books.step step) reachable Books.initial

/-! ## The life of a nullifier -/

/-- The nullifiers a run accrued payouts under. -/
def accruals (events : List Event) : List Bytes32 := events.filterMap (·.call.accrued)

omit [Keccak] in
/-- The nullifiers whose payouts a run paid. -/
def payments (events : List Event) : List Bytes32 := events.filterMap (·.call.paid)

/-- A used nullifier was accrued, and a paid one is used and holds nothing. -/
structure Nullified (events : List Event) (s : Manager) : Prop where
  used_iff : ∀ n, s.accounts.usedWithdrawalNullifiers n = true ↔ n ∈ accruals events
  accrued_once : (accruals events).Nodup
  paid_empty : ∀ n ∈ payments events, n ∈ accruals events ∧
    s.accounts.withdrawalPayouts n = {}
  paid_once : (payments events).Nodup

theorem accruals_snoc (events : List Event) (e : Event) :
    accruals (events ++ [e]) = accruals events ++ e.call.accrued.toList := by
  cases accrued : e.call.accrued <;> simp [accruals, accrued]

omit [Keccak] in
theorem payments_snoc (events : List Event) (e : Event) :
    payments (events ++ [e]) = payments events ++ e.call.paid.toList := by
  cases paid : e.call.paid <;> simp [payments, paid]

/-- A step that neither accrues nor pays leaves both histories alone. -/
theorem Nullified.idle {s : Manager} (history : Nullified events s)
    (unaccrued : e.call.accrued = none) (unpaid : e.call.paid = none)
    (used : s'.accounts.usedWithdrawalNullifiers = s.accounts.usedWithdrawalNullifiers)
    (payouts : s'.accounts.withdrawalPayouts = s.accounts.withdrawalPayouts) :
    Nullified (events ++ [e]) s' := by
  have accruals_eq : accruals (events ++ [e]) = accruals events := by
    simp [accruals_snoc, unaccrued]
  have payments_eq : payments (events ++ [e]) = payments events := by
    simp [payments_snoc, unpaid]
  refine ⟨?_, ?_, ?_, ?_⟩
  · rw [accruals_eq, used]
    exact history.used_iff
  · rw [accruals_eq]
    exact history.accrued_once
  · rw [accruals_eq, payments_eq, payouts]
    exact history.paid_empty
  · rw [payments_eq]
    exact history.paid_once

theorem Nullified.accrue {s : Manager} {a : Accounts} {nullifier : Bytes32}
    {payout : WithdrawalPayout} {late : Nat} (history : Nullified events s)
    (named : e.call.accrued = some nullifier) (unpaid : e.call.paid = none)
    (accrues : Accrues nullifier payout late s.accounts a) :
    Nullified (events ++ [e]) { s with accounts := a } := by
  have accruals_eq : accruals (events ++ [e]) = accruals events ++ [nullifier] := by
    simp [accruals_snoc, named]
  have payments_eq : payments (events ++ [e]) = payments events := by
    simp [payments_snoc, unpaid]
  -- the nullifier was unused, so it is new to the history
  have new : nullifier ∉ accruals events := by
    intro old
    rw [← history.used_iff, accrues.fresh] at old
    cases old
  obtain ⟨-, -, -, shared, rfl⟩ := accrues
  refine ⟨?_, ?_, ?_, ?_⟩
  · intro n
    rw [accruals_eq, mem_append, mem_singleton, ← history.used_iff]
    show update s.accounts.usedWithdrawalNullifiers nullifier true n = true ↔ _
    by_cases same : n = nullifier
    · simp [same]
    · simp [same]
  · rw [accruals_eq, nodup_append_comm]
    exact nodup_cons.mpr ⟨new, history.accrued_once⟩
  · intro n paid
    rw [payments_eq] at paid
    obtain ⟨accrued, empty⟩ := history.paid_empty n paid
    refine ⟨by rw [accruals_eq]; exact mem_append_left _ accrued, ?_⟩
    have other : n ≠ nullifier := fun same => new (same ▸ accrued)
    show update s.accounts.withdrawalPayouts nullifier payout n = {}
    rwa [update_of_ne other]
  · rw [payments_eq]
    exact history.paid_once

theorem Nullified.pay {s : Manager} {nullifier : Bytes32} (history : Nullified events s)
    (books : Books s) (unaccrued : e.call.accrued = none) (named : e.call.paid = some nullifier)
    (pays : Pays nullifier (s.accounts.withdrawalPayouts nullifier) s s') :
    Nullified (events ++ [e]) s' := by
  have accruals_eq : accruals (events ++ [e]) = accruals events := by
    simp [accruals_snoc, unaccrued]
  have payments_eq : payments (events ++ [e]) = payments events ++ [nullifier] := by
    simp [payments_snoc, named]
  have filled : s.accounts.withdrawalPayouts nullifier ≠ {} := by
    intro empty
    have positive := pays.positive
    rw [empty] at positive
    exact absurd positive (lt_irrefl 0)
  have accrued : nullifier ∈ accruals events := by
    rw [← history.used_iff]
    by_contra unused
    exact filled (books.unused nullifier (Bool.eq_false_iff.mpr unused))
  obtain ⟨frame, -, rfl⟩ := pays.manager_eq
  refine ⟨?_, ?_, ?_, ?_⟩
  · rw [accruals_eq]
    exact history.used_iff
  · rw [accruals_eq]
    exact history.accrued_once
  · intro n paid
    rw [payments_eq, mem_append, mem_singleton] at paid
    rw [accruals_eq]
    show n ∈ accruals events ∧ update s.accounts.withdrawalPayouts nullifier {} n = {}
    by_cases same : n = nullifier
    · subst same
      exact ⟨accrued, update_self ..⟩
    · rw [update_of_ne same]
      exact history.paid_empty n (paid.resolve_right same)
  · rw [payments_eq, nodup_append_comm]
    exact nodup_cons.mpr ⟨fun old => filled (history.paid_empty nullifier old).2,
      history.paid_once⟩

theorem Run.nullified {s : Manager} (run : Run cfg events s) : Nullified events s := by
  refine Path.history (I := Nullified) ⟨by simp [initial, accruals], .nil, ?_, .nil⟩ ?_ run
  · intro n paid
    cases paid
  · intro events s e s' before history step
    have books : Books s := Reachable.books ⟨events, before⟩
    obtain ⟨ε, sat, x, x', effect⟩ := step.effect
    obtain ⟨env, call⟩ := e
    cases effect with
    | request _ unaccrued unpaid requests =>
      rw [requests.manager_eq]
      exact history.idle unaccrued unpaid rfl rfl
    | submit submits =>
      rw [submits.manager_eq]
      exact history.idle rfl rfl rfl rfl
    | cancel cancels =>
      rw [cancels.manager_eq]
      exact history.idle rfl rfl rfl rfl
    | finalize _ finalizes =>
      rw [finalizes.manager_eq]
      exact history.idle rfl rfl rfl rfl
    | accrue named _ unpaid _ _ accrues => exact history.accrue named unpaid accrues
    | pull pulls =>
      rw [pulls.manager_eq]
      exact history.idle rfl rfl rfl rfl
    | pay pays => exact history.pay books rfl rfl pays
    | pulled _ => exact history.idle rfl rfl rfl rfl
    | paid _ _ => exact history.idle rfl rfl rfl rfl

/-! ## The accounting theorem -/

/-- Once everything withdrawn of a token is received, only an accrual can change that. -/
theorem Step.withdrawn_le {s : Manager} {t : TokenIndex} (step : Step cfg s e s') (books : Books s)
    (unaccrued : e.call.accrued = none)
    (funded : s.accounts.totalWithdrawn t ≤ s.accounts.receivedChannelFunds t) :
    s'.accounts.totalWithdrawn t ≤ s'.accounts.receivedChannelFunds t := by
  obtain ⟨ε, sat, x, x', effect⟩ := step.effect
  obtain ⟨env, call⟩ := e
  cases effect with
  | request _ _ _ requests => rwa [requests.manager_eq]
  | submit submits => rwa [submits.manager_eq]
  | cancel cancels => rwa [cancels.manager_eq]
  | finalize _ finalizes => rwa [finalizes.manager_eq]
  | accrue named _ _ _ _ _ => exact absurd (named.symm.trans unaccrued) (by simp)
  | pull pulls => rwa [pulls.manager_eq]
  | pay pays =>
    obtain ⟨frame, -, manager_eq⟩ := pays.manager_eq
    rwa [manager_eq]
  | @pulled t' _ cap _ _ _ _ suspended =>
    -- a pull only raises what was received
    obtain ⟨received, -⟩ := books.pull _ _ _ _ _ suspended
    show _ ≤ update s.accounts.receivedChannelFunds t' cap t
    by_cases token : t = t'
    · subst token
      rw [update_self]
      exact funded.trans received
    · rwa [update_of_ne token]
  | paid _ _ => exact funded

theorem withdrawn_le_of_path {s : Manager} {later : List Event} {t : TokenIndex} (books : Books s)
    (run : Path (Step cfg) s later s') (unaccrued : ∀ e ∈ later, e.call.accrued = none)
    (funded : s.accounts.totalWithdrawn t ≤ s.accounts.receivedChannelFunds t) :
    Books s' ∧ s'.accounts.totalWithdrawn t ≤ s'.accounts.receivedChannelFunds t := by
  induction run with
  | nil => exact ⟨books, funded⟩
  | snoc _ last ih =>
    obtain ⟨books, funded⟩ := ih fun e member => unaccrued e (mem_append_left _ member)
    exact ⟨books.step last, last.withdrawn_le books (unaccrued _ (by simp)) funded⟩

theorem settlement_accounting {events : List Event} {s : Manager} (run : Run cfg events s) :
    (∀ t,
      s.accounts.totalCreditedOut t ≤ s.accounts.receivedChannelFunds t ∧
      s.accounts.receivedChannelFunds t ≤
        s.accounts.finalizedChannelFundAmount t + s.accounts.lateIncomingFundAmount t ∧
      s.accounts.totalWithdrawn t ≤
        s.accounts.finalizedChannelFundAmount t + s.accounts.lateIncomingFundAmount t ∧
      s.accounts.totalWithdrawn t = s.accounts.totalCreditedOut t + s.accounts.outstanding t ∧
      ∀ recipient, s.accounts.withdrawalCredits t recipient = s.accounts.owed t recipient) ∧
    (∀ env world nullifier, claimWithdrawalCredit cfg env world nullifier s ≠
      .error .insufficientWithdrawalCredit) ∧
    (accruals events).Nodup ∧ (payments events).Nodup ∧ payments events ⊆ accruals events ∧
    ∀ t, s.accounts.receivedChannelFunds t =
        s.accounts.finalizedChannelFundAmount t + s.accounts.lateIncomingFundAmount t →
      ∀ later s', Path (Step cfg) s later s' → (∀ e ∈ later, e.call.accrued = none) →
      ∀ env world nullifier, (s'.accounts.withdrawalPayouts nullifier).tokenIndex = t →
        claimWithdrawalCredit cfg env world nullifier s' ≠ .error .withdrawalCapExceeded ∧
        claimWithdrawalCredit cfg env world nullifier s' ≠ .error .panic := by
  have books : Books s := Reachable.books ⟨events, run⟩
  have history := Run.nullified run
  refine ⟨?_, ?_, history.accrued_once, history.paid_once,
    fun n paid => (history.paid_empty n paid).1, ?_⟩
  · intro t
    have token := books.balanced t
    exact ⟨token.paid_le, token.received_le, token.withdrawn_le, token.withdrawn_eq,
      token.credits_eq⟩
  · intro env world n failed
    have short := (claimWithdrawalCredit_error failed).1 rfl
    exact absurd short (Nat.not_lt.mpr books.covered)
  · intro t full later s' path unaccrued env world n token
    subst token
    have funded := (books.balanced _).withdrawn_le.trans_eq full.symm
    obtain ⟨books', funded'⟩ := withdrawn_le_of_path books path unaccrued funded
    have part := books'.part_of_withdrawn (n := n)
    constructor
    · intro failed
      have short := (claimWithdrawalCredit_error failed).2.2 rfl
      exact absurd short (Nat.not_lt.mpr (part.trans funded'))
    · intro failed
      have overflow := (claimWithdrawalCredit_error failed).2.1 rfl
      have fits := (books'.balanced (s'.accounts.withdrawalPayouts n).tokenIndex).withdrawn_lt
      exact absurd (overflow.trans part) (Nat.not_le.mpr fits)

end

section
attribute [local instance] evmKeccak

/-- A close of 100 wei, a claim of 60, a late receipt of 7, a pull of both and one payment. -/
def sampleSettlement : List (Env × External × Call) :=
  let digest := computeCloseIntentDigest sampleConfig (sampleIntent 1)
  [sampleRequest, sampleSubmit 2000 1,
   (sampleEnv 0x41 90000, sampleExternal 0, .finalizeCloseGuarded digest 1),
   (sampleEnv 0x41 90001, sampleExternal 0, .submitWithdrawalClaim
      { closeIntentDigest := digest, memberPkG := 0x11, recipient := 0x41, userAmountDigest := 0
        amount := 60, tokenSlot := 0, tokenIndex := 0, withdrawalNullifier := 5 } []),
   (sampleEnv 0x2000 90002, sampleExternal 0, .creditLateIncoming 0 7 0x42 9),
   (sampleEnv 0x41 90003, sampleExternal 0, .pullChannelTokenFunds 0),
   (sampleEnv 0x41 90003, sampleExternal 107, .resume),
   (sampleEnv 0x41 90004, sampleExternal 107, .claimWithdrawalCredit 5),
   (sampleEnv 0x41 90004, sampleExternal 47, .resume)]

theorem settlement_accounting_sample : ∃ events s, Run sampleConfig events s ∧
    accruals events = [5, 9] ∧ payments events = [5] ∧
    s.accounts.receivedChannelFunds 0 = 107 ∧ s.accounts.totalCreditedOut 0 = 60 ∧
    s.accounts.outstanding 0 = 7 ∧
    claimWithdrawalCredit sampleConfig (sampleEnv 0x42 90005) (sampleExternal 47) 9 s ≠
      .error .withdrawalCapExceeded := by
  have ran : runsFrom sampleConfig sampleSatellite sampleSettlement (initial, 0) ()
      (fun events s _ =>
        accruals events == [5, 9] && payments events == [5] &&
        s.1.accounts.receivedChannelFunds 0 == 107 && s.1.accounts.totalCreditedOut 0 == 60 &&
        s.1.accounts.totalWithdrawn 0 == 67 && s.1.accounts.finalizedChannelFundAmount 0 == 100 &&
        s.1.accounts.lateIncomingFundAmount 0 == 7 &&
        (s.1.accounts.withdrawalPayouts 9).tokenIndex == 0) = true := by decide +kernel
  obtain ⟨events, s, _, run, facts⟩ := runsFrom_path ran
  simp only [Bool.and_eq_true, beq_iff_eq] at facts
  obtain ⟨⟨⟨⟨⟨⟨⟨accrued, paid⟩, received⟩, creditedOut⟩, withdrawn⟩, fund⟩,
    late⟩, token⟩ := facts
  obtain ⟨books, -, -, -, -, claims⟩ := settlement_accounting (untimed run)
  obtain ⟨-, -, -, sum, -⟩ := books 0
  rw [withdrawn, creditedOut] at sum
  have full : s.1.accounts.receivedChannelFunds 0 =
      s.1.accounts.finalizedChannelFundAmount 0 + s.1.accounts.lateIncomingFundAmount 0 := by
    rw [received, fund, late]
  have passes := claims 0 full [] s.1 .nil (fun _ member => nomatch member)
    (sampleEnv 0x42 90005) (sampleExternal 47) 9 token
  exact ⟨events, s.1, untimed run, accrued, paid, received, creditedOut, by omega, passes.1⟩

end

end Intmax.Settlement
