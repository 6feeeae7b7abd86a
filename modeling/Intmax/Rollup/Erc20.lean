import Intmax.Rollup.Withdrawals

/-! # Conservation of tokens

Token contracts are taken to move exactly what they are asked to, so what the rollup
holds of each follows from its own calls (`moveTokens`); transfers it did not ask for
are left out.  Escrow is booked per token index and balances live per token contract.
Several indices may share a contract, and still each contract's balance is the sum of
what its indices owe.
-/

namespace Intmax.Rollup

open Checked Transition

/-! ## What an index owes -/

/-- The escrow of a token index and all pull payments taken from it. -/
def Vault.owedIn (v : Vault) (tokenIndex : TokenIndex) : Nat :=
  v.escrowedByToken tokenIndex + ∑ a, v.pendingTokenWithdrawals tokenIndex a

/-- What the indices registered to the contract `token` owe together. -/
def owedTo (s : Rollup) (token : Address) : Nat :=
  ∑ t with s.roles.tokenAddressOf t = token, s.vault.owedIn t

theorem treasury_owed (s : Rollup) (held : Address → Nat) (token : Address) :
    Ledger.total (Treasury.Account.owedIn token) (treasury s held).accounts = owedTo s token := by
  unfold owedTo
  rw [Finset.sum_filter]
  rfl

/-- What a caller needs for a payout of a token to start. -/
structure Payable (cfg : Config) (env : Env) (world : External) (tokenIndex : TokenIndex)
    (amount : Nat) (s : Rollup) : Prop where
  value : env.value = 0
  chainId : env.chainId = cfg.deploymentChainId
  idle : s.roles.status = none
  registered : s.roles.tokenAddressOf tokenIndex ≠ 0
  positive : 0 < amount
  credited : amount ≤ s.vault.pendingTokenWithdrawals tokenIndex env.sender
  answers : (world.tokenBalanceOf (s.roles.tokenAddressOf tokenIndex) env.sender).isSome = true

/-- The state in which a payout waits for the token contract. -/
def payingOut (env : Env) (tokenIndex : TokenIndex) (amount balanceBefore : Nat) (s : Rollup) :
    Rollup :=
  enter (.tokenPayout (s.roles.tokenAddressOf tokenIndex) env.sender amount balanceBefore)
    { s with
      vault := s.vault.setTokenCredit tokenIndex env.sender
        (s.vault.pendingTokenWithdrawals tokenIndex env.sender - amount) }

variable {cfg : Config} {env : Env} {world : External} {tokenIndex : TokenIndex}
  {amount balanceBefore : Nat} {s : Rollup}

theorem Payable.withdrawToken (payable : Payable cfg env world tokenIndex amount s)
    (answer : world.tokenBalanceOf (s.roles.tokenAddressOf tokenIndex) env.sender =
      some balanceBefore) :
    withdrawToken cfg env world tokenIndex amount s =
      .ok (payingOut env tokenIndex amount balanceBefore s) := by
  have positive := payable.positive
  have credited := payable.credited
  simp [Rollup.withdrawToken, nonPayable, requireReleaseRuntime, nonReentrant, payable.value,
    payable.chainId, payable.idle, answer, payingOut]
  exact ⟨payable.registered, by omega, credited⟩

variable [Keccak] in
/-- A token contract that delivered the exact amount completes the payout. -/
theorem resume_payingOut (returned : world.callSucceeds = true)
    (exact_ : world.tokenBalanceOf (s.roles.tokenAddressOf tokenIndex) env.sender =
      some (balanceBefore + amount)) :
    resume cfg world (payingOut env tokenIndex amount balanceBefore s) =
      .ok (leave (payingOut env tokenIndex amount balanceBefore s)) := by
  simp [resume, returned, payingOut, enter, finishTokenPayout, exact_]

/-! ## Runs -/

section
variable [Keccak]

/-- One completed call, together with what the rollup holds of each token contract. -/
def TokenStep (cfg : Config) (x : Rollup × (Address → Nat)) (e : Event)
    (y : Rollup × (Address → Nat)) : Prop :=
  Step cfg x.1 e y.1 ∧ moveTokens e.call x.1 x.2 = some y.2

/-- The runs of a rollup that holds no tokens when it is deployed. -/
abbrev TokenRun (cfg : Config) (events : List Event) (s : Rollup) (held : Address → Nat) : Prop :=
  Path (TokenStep cfg) (initial cfg, fun _ => 0) events (s, held)

/-- The books of the tokens are balanced, and a deposit under way is for a known token. -/
structure TokenBooks (x : Rollup × (Address → Nat)) : Prop where
  balanced : Treasury.Balanced (treasury x.1 x.2)
  registered : DepositRegistered x.1

theorem TokenBooks.initial (cfg : Config) : TokenBooks (initial cfg, fun _ => 0) := by
  have nothing (t : TokenIndex) :
      Treasury.Account.owed ((treasury (Rollup.initial cfg) fun _ => 0).accounts t) = 0 := by
    simp [Treasury.Account.owed, treasury, Rollup.initial, Ledger.total]
  constructor
  · constructor
    · intro k _
      refine (Finset.sum_eq_zero fun t _ => ?_).symm
      unfold Treasury.Account.owedIn
      split
      · exact nothing t
      · rfl
    · intro t _
      exact nothing t
  · intro token record balBefore suspended
    cases suspended

variable {cfg : Config} {events : List Event} {s : Rollup} {held : Address → Nat}

theorem TokenBooks.step {x y : Rollup × (Address → Nat)} {e : Event} (books : TokenBooks x)
    (step : TokenStep cfg x e y) : TokenBooks y := by
  obtain ⟨⟨σ, sat, world, j, j', ran⟩, moved⟩ := step
  -- the ETH that comes with the call is no token
  have ledger : LedgerStep e.env.sender (receive e.env.value x.1) y.1 x.2 y.2 :=
    dispatch_ledger ran moved books.registered
  exact ⟨ledger.moves.balanced books.balanced, ledger.registered books.registered⟩

theorem TokenRun.books (run : TokenRun cfg events s held) : TokenBooks (s, held) :=
  run.invariant (fun _ _ _ books step => books.step step) (TokenBooks.initial cfg)

/-- Of every token contract the rollup holds what the indices registered to it owe, an
    index without a contract owes nothing, and so every payout within the caller's credit
    is covered.  It completes, and takes nothing but that credit. -/
theorem erc20_conserved {cfg : Config} {events : List Event} {s : Rollup}
    {held : Address → Nat} (run : TokenRun cfg events s held) :
    (∀ token, token ≠ 0 → held token = owedTo s token) ∧
    (∀ t, s.roles.tokenAddressOf t = 0 → s.vault.owedIn t = 0) ∧
    ∀ env world t amount, Payable cfg env world t amount s →
      ∃ balanceBefore s', withdrawToken cfg env world t amount s = .ok s' ∧
        moveTokens (.withdrawToken t amount) s held =
          some (Function.update held (s.roles.tokenAddressOf t)
            (held (s.roles.tokenAddressOf t) - amount)) ∧
        amount ≤ held (s.roles.tokenAddressOf t) ∧
        (∀ world', world'.callSucceeds = true →
          world'.tokenBalanceOf (s.roles.tokenAddressOf t) env.sender =
            some (balanceBefore + amount) → resume cfg world' s' = .ok (leave s')) ∧
        s'.vault.escrowedByToken = s.vault.escrowedByToken ∧
        s'.vault.pendingTokenWithdrawals t env.sender + amount =
          s.vault.pendingTokenWithdrawals t env.sender ∧
        ∀ i a, i ≠ t ∨ a ≠ env.sender →
          s'.vault.pendingTokenWithdrawals i a = s.vault.pendingTokenWithdrawals i a := by
  have books := run.books
  refine ⟨?_, fun t unset => books.balanced.unset t unset, ?_⟩
  · intro token contract
    rw [← treasury_owed s held]
    exact books.balanced.held_eq token contract
  · intro env world t amount payable
    obtain ⟨balanceBefore, answer⟩ := Option.isSome_iff_exists.mp payable.answers
    have covered : amount ≤ held (s.roles.tokenAddressOf t) :=
      payable.credited.trans (books.balanced.pending_le_held env.sender payable.registered)
    refine ⟨balanceBefore, _, payable.withdrawToken answer, if_pos covered, covered,
      fun world' returned exact_ => resume_payingOut returned exact_, rfl, ?_, ?_⟩
    · have credited := payable.credited
      simp [payingOut, enter, Vault.setTokenCredit]
      omega
    · intro i a other
      simp only [payingOut, enter, Vault.setTokenCredit]
      by_cases same : i = t
      · subst same
        have apart : a ≠ env.sender := other.resolve_left (not_not.mpr rfl)
        rw [Function.update_self, Function.update_of_ne apart]
      · rw [Function.update_of_ne same]

/-- Run a list of calls and carry what the rollup holds along. -/
def execTokens {σ : Type} (cfg : Config) (sat : Satellite σ) : List (Env × External × Call) →
    Rollup → (Address → Nat) → σ → Except Revert
      (List Event × Rollup × (Address → Nat))
  | [], s, held, _ => .ok ([], s, held)
  | (env, world, call) :: rest, s, held, j => do
    let held ← getOrRevert (moveTokens call s held) .callReverted
    let (outcome, s, j) ← exec cfg sat env world call s j
    let (events, s, held) ← execTokens cfg sat rest s held j
    pure (⟨env, call, outcome⟩ :: events, s, held)

theorem execTokens_path {σ : Type} {sat : Satellite σ} {calls : List (Env × External × Call)}
    {s' : Rollup} {held' : Address → Nat} {j : σ}
    (h : execTokens cfg sat calls s held j = .ok (events, s', held')) :
    Path (TokenStep cfg) (s, held) events (s', held') := by
  induction calls generalizing s held j events with
  | nil =>
    cases h
    exact .nil
  | cons call calls ih =>
    obtain ⟨env, world, call⟩ := call
    obtain ⟨held₁, moved, h⟩ := bind_ok.mp h
    obtain ⟨⟨outcome, s₁, j₁⟩, first, h⟩ := bind_ok.mp h
    obtain ⟨⟨rest, s₂, held₂⟩, later, same⟩ := bind_ok.mp h
    cases same
    exact .cons ⟨⟨σ, sat, world, j, j₁, first⟩, getOrRevert_ok.mp moved⟩ (ih later)

/-- `a` has not lost credit in any token, and registered tokens keep their contracts. -/
def CreditKept (a : Address) (s s' : Rollup) : Prop :=
  ∀ i, s.vault.credit i a ≤ s'.vault.credit i a ∧
    (s.roles.tokenAddressOf i ≠ 0 → s'.roles.tokenAddressOf i = s.roles.tokenAddressOf i)

theorem TokenStep.creditKept {x y : Rollup × (Address → Nat)} {e : Event} {a : Address}
    (books : TokenBooks x) (step : TokenStep cfg x e y) (other : a ≠ e.env.sender) :
    CreditKept a x.1 y.1 := by
  intro i
  obtain ⟨⟨σ, sat, world, j, j', ran⟩, moved⟩ := step
  have ledger : LedgerStep e.env.sender (receive e.env.value x.1) y.1 x.2 y.2 :=
    dispatch_ledger ran moved books.registered
  obtain ⟨grows, stays⟩ := ledger.moves.kept (i := i) other
  refine ⟨?_, stays⟩
  unfold Vault.credit
  split
  · exact ledger.native a other
  · exact grows

end

section
attribute [local instance] evmKeccak

/-- A leaf of 30 of token 5, proved against the genesis root. -/
def sampleTokenStatement : WithdrawalStatement :=
  { leaves :=
      [{ recipient := 0x44, tokenIndex := 5, amount := 30, nullifier := 0x63, auxData := 0 }]
    withdrawalProver := 0x77, extCommitment := 0x9e, blockNumber := 0 }

/-- Every account holds `balance` of every token. -/
def tokenExternal (balance : Nat) : External :=
  { provingExternal sampleTokenStatement with tokenBalanceOf := fun _ _ => some balance }

/-- Two indices of one token contract, a deposit in each, and a withdrawal from the first. -/
def sampleTokenCalls : List (Env × External × Call) :=
  [(sampleEnv 1 0 1, tokenExternal 0, .registerToken 5 0x55),
   (sampleEnv 1 0 1, tokenExternal 0, .registerToken 6 0x55),
   (sampleEnv 4 0 2, tokenExternal 0, .deposit
      { recipient := 0xabc, tokenIndex := 5, amount := 100, auxData := 0 }),
   (sampleEnv 4 0 2, tokenExternal 100, .resume),
   (sampleEnv 4 0 2, tokenExternal 100, .deposit
      { recipient := 0xabc, tokenIndex := 6, amount := 50, auxData := 0 }),
   (sampleEnv 4 0 2, tokenExternal 150, .resume),
   (sampleEnv 5 0 3, tokenExternal 0, .withdrawERC20
      { ws := sampleTokenStatement.leaves, withdrawalProver := 0x77, compactProof := [] })]

theorem erc20_conserved_sample : ∃ events s held, TokenRun sampleConfig events s held ∧
    held 0x55 = 150 ∧ owedTo s 0x55 = 150 ∧ s.vault.escrowedByToken 6 = 50 ∧
    ∃ s', withdrawToken sampleConfig (sampleEnv 0x44 0 4) (tokenExternal 0) 5 30 s = .ok s' ∧
      s'.vault.pendingTokenWithdrawals 5 0x44 = 0 ∧
      s'.vault.escrowedByToken = s.vault.escrowedByToken := by
  have ran : (match execTokens sampleConfig sampleSatellite sampleTokenCalls
        (initial sampleConfig) (fun _ => 0) () with
      | .ok (_, s, held) => held 0x55 == 150 && s.vault.escrowedByToken 6 == 50 &&
          s.vault.pendingTokenWithdrawals 5 0x44 == 30 && s.roles.status == none &&
          s.roles.tokenAddressOf 5 == 0x55
      | .error _ => false) = true := by decide +kernel
  split at ran
  · rename_i events s held completed
    simp only [Bool.and_eq_true, beq_iff_eq] at ran
    obtain ⟨⟨⟨⟨holds, escrow⟩, pending⟩, idle⟩, address⟩ := ran
    have run : TokenRun sampleConfig events s held := execTokens_path completed
    obtain ⟨conserved, -, payouts⟩ := erc20_conserved run
    have payable : Payable sampleConfig (sampleEnv 0x44 0 4) (tokenExternal 0) 5 30 s :=
      { value := rfl, chainId := rfl, idle
        registered := by rw [address]; decide
        positive := by decide
        credited := by
          show 30 ≤ s.vault.pendingTokenWithdrawals 5 0x44
          omega
        answers := rfl }
    obtain ⟨_, s', paid, -, -, -, kept, credit, -⟩ := payouts _ _ _ _ payable
    refine ⟨events, s, held, run, holds, ?_, escrow, s', paid, ?_, kept⟩
    · rw [← conserved 0x55 (by decide), holds]
    · have left : s'.vault.pendingTokenWithdrawals 5 0x44 + 30 =
          s.vault.pendingTokenWithdrawals 5 0x44 := credit
      omega
  · cases ran

end

section
variable [Keccak] {cfg : Config} {events : List Event} {s : Rollup} {held : Address → Nat}

/-- Whatever other accounts call, an account keeps its credit. -/
theorem credit_kept_from_others {later : List Event} {y : Rollup × (Address → Nat)} {a : Address}
    (run : TokenRun cfg events s held) (path : Path (TokenStep cfg) (s, held) later y)
    (others : ∀ e ∈ later, a ≠ e.env.sender) : CreditKept a s y.1 := by
  induction path with
  | nil => exact fun i => ⟨le_rfl, fun _ => rfl⟩
  | snoc before last ih =>
    have books : TokenBooks _ := before.invariant
      (fun _ _ _ books step => books.step step) run.books
    intro i
    obtain ⟨grows, stays⟩ := ih (fun e old => others e (List.mem_append_left _ old)) i
    obtain ⟨grows', stays'⟩ := last.creditKept books (others _ (by simp)) i
    exact ⟨grows.trans grows', fun set => (stays' (stays set ▸ set)).trans (stays set)⟩

end

section
attribute [local instance] evmKeccak

/-- The owner registers another token while account 0x44 has credit. -/
theorem credit_kept_from_others_sample : ∃ events s held e y,
    TokenRun sampleConfig events s held ∧ s.vault.credit 5 0x44 = 30 ∧
      TokenStep sampleConfig (s, held) e y ∧ CreditKept 0x44 s y.1 := by
  have ran : (match execTokens sampleConfig sampleSatellite sampleTokenCalls
        (initial sampleConfig) (fun _ => 0) () with
      | .ok (_, s, _) => s.vault.credit 5 0x44 == 30 &&
          (exec sampleConfig sampleSatellite (sampleEnv 1 0 4) (tokenExternal 0)
            (.registerToken 7 0x55) s ()).toBool
      | .error _ => false) = true := by decide +kernel
  split at ran
  · rename_i events s held completed
    simp only [Bool.and_eq_true, beq_iff_eq] at ran
    have run : TokenRun sampleConfig events s held := execTokens_path completed
    cases next : exec sampleConfig sampleSatellite (sampleEnv 1 0 4) (tokenExternal 0)
        (.registerToken 7 0x55) s () with
    | error _ =>
      rw [next] at ran
      cases ran.2
    | ok found =>
      have step : TokenStep sampleConfig (s, held)
        ⟨sampleEnv 1 0 4, .registerToken 7 0x55, found.1⟩
          (found.2.1, held) := ⟨⟨Unit, sampleSatellite, _, (), _, next⟩, rfl⟩
      exact ⟨events, s, held, _, _, run, ran.1, step,
        credit_kept_from_others run (.single step) (by simp [sampleEnv])⟩
  · cases ran

end

end Intmax.Rollup
