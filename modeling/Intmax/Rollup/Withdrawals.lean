import Intmax.Rollup.Tokens
import Intmax.Rollup.Preimages
import Intmax.Rollup.Finality

/-! # Withdrawal proofs

The withdrawal circuit proves a chain of leaves against a state commitment, and the
rollup only sees the public inputs of the proof.  A caller resubmits the leaves, and
the rollup folds them again.  Without hash collisions the array it accepts is the one
that was proved, field by field and in order, and the nullifiers shared by the two
entry points make every leaf payable once.
-/

namespace Intmax.Rollup

open Checked Transition List BigEndian
open HashChain (links)

/-! ## Words as limbs -/

/-- The `i`-th of the eight big-endian 32-bit words of a `bytes32`. -/
def word (value : Bytes32) (i : Nat) : Nat := (value.toNat >>> (224 - i * 32)) % 2 ^ 32

/-- `Bytes32::to_u32_vec`. -/
def toWords (value : Bytes32) : List Nat := (List.range 8).map (word value)

theorem limb_toWords (value : Bytes32) (rest : List Nat) {i : Nat} (inside : i < 8) :
    limb (toWords value ++ rest) i = word value i := by
  have length : (toWords value).length = 8 := by simp [toWords]
  unfold limb
  rw [getD_append _ _ _ _ (by omega)]
  simp [toWords, inside]

theorem limb_append {front rest : List Nat} (length : front.length = 8) (i : Nat) :
    limb (front ++ rest) (8 + i) = limb rest i := by
  unfold limb
  rw [getD_append_right _ _ _ _ (by omega), length, Nat.add_sub_cancel_left]

variable {limbs : List Nat} {value : Bytes32} {ws : List Withdrawal}

/-- Eight words read back give the value they were taken from. -/
theorem maskedLimbsToBytes32_of_words {off : Nat}
    (words : ∀ i < 8, limb limbs (off + i) = word value i) :
    maskedLimbsToBytes32 limbs off = value := by
  have read (k : Nat) (upTo : k ≤ 8) :
      (range k).foldl (fun v i => (v <<< 32) ||| (limb limbs (off + i) % 2 ^ 32)) 0 =
        value.toNat >>> (256 - k * 32) := by
    induction k with
    | zero =>
      rw [range_zero, foldl_nil, Nat.shiftRight_eq_div_pow]
      exact (Nat.div_eq_of_lt value.isLt).symm
    | succ k ih =>
      rw [range_succ, foldl_append, ih (by omega), foldl_cons, foldl_nil,
        words k (by omega), word, Nat.mod_mod]
      -- the value shifted by one word less, cut into its high part and its last word
      have shift : 256 - k * 32 = (224 - k * 32) + 32 := by omega
      have shift' : 256 - (k + 1) * 32 = 224 - k * 32 := by omega
      rw [shift, shift', Nat.shiftRight_add]
      generalize value.toNat >>> (224 - k * 32) = y
      rw [Nat.shiftLeft_eq, Nat.shiftRight_eq_div_pow, mul_comm,
        ← Nat.two_pow_add_eq_or_of_lt (Nat.mod_lt y (by decide))]
      exact Nat.div_add_mod y (2 ^ 32)
  have whole := read 8 (le_refl 8)
  unfold maskedLimbsToBytes32
  rw [whole]
  simp

theorem limbsMatch_words (matches_ : limbsMatchBytes32 limbs 0 value = true) :
    ∀ i < 8, limb limbs (0 + i) = word value i := by
  intro i inside
  simp only [limbsMatchBytes32, all_eq_true, mem_range, beq_iff_eq] at matches_
  exact matches_ i inside

/-! ## What a withdrawal proof states -/

/-- The statement of the withdrawal circuit. -/
structure WithdrawalStatement where
  leaves : List Withdrawal
  withdrawalProver : Address
  extCommitment : Bytes32
  blockNumber : BitVec 63
  deriving DecidableEq

/-- The 152 bytes folded for one leaf. -/
def withdrawalPreimage (prev : Bytes32) (w : Withdrawal) : Bytes :=
  packBytes32 prev ++ packAddress w.recipient ++ packUint32 w.tokenIndex ++
    packBytes32 w.amount ++ packBytes32 w.nullifier ++ packBytes32 w.auxData

/-- The 92 bytes the public inputs are hashed from. -/
def pisPreimage (withdrawalHash : Bytes32) (prover : Address) (extCommitment : Bytes32)
    (blockNumber : BitVec 64) : Bytes :=
  packBytes32 withdrawalHash ++ packAddress prover ++ packBytes32 extCommitment ++
    packUint64 blockNumber

variable {w : Withdrawal} {v v' : Vault}

theorem withdrawalPreimage_inj {prev prev' : Bytes32} {w' : Withdrawal}
    (same : withdrawalPreimage prev w = withdrawalPreimage prev' w') : prev = prev' ∧ w = w' := by
  simp only [withdrawalPreimage, append_assoc] at same
  obtain ⟨prevEq, same⟩ := append_inj_of_width same
  obtain ⟨recipient, same⟩ := append_inj_of_width same
  obtain ⟨tokenIndex, same⟩ := append_inj_of_width same
  obtain ⟨amount, same⟩ := append_inj_of_width same
  obtain ⟨nullifier, same⟩ := append_inj_of_width same
  have auxData := ofBitVec_inj same
  refine ⟨prevEq, ?_⟩
  cases w
  cases w'
  simp only at recipient tokenIndex amount nullifier auxData
  subst recipient tokenIndex amount nullifier auxData
  rfl

theorem pisPreimage_inj {h h' : Bytes32} {prover prover' : Address} {ext ext' : Bytes32}
    {number number' : BitVec 64}
    (same : pisPreimage h prover ext number = pisPreimage h' prover' ext' number') :
    h = h' ∧ prover = prover' := by
  simp only [pisPreimage, append_assoc] at same
  obtain ⟨chain, same⟩ := append_inj_of_width same
  obtain ⟨prover, -⟩ := append_inj_of_width same
  exact ⟨chain, prover⟩

section
variable [Keccak]

/-- The chain over an array of leaves. -/
def withdrawalChain (ws : List Withdrawal) : Bytes32 := HashChain.head foldWithdrawalLeaf 0 ws

/-- `keccak256` without its top three bits. -/
def keccak253 (x : Bytes) : Bytes32 := keccak256 x &&& BitVec.ofNat 256 (2 ^ 253 - 1)

namespace WithdrawalStatement

def pisString (st : WithdrawalStatement) : Bytes :=
  pisPreimage (withdrawalChain st.leaves) st.withdrawalProver st.extCommitment
    (BitVec.ofNat 64 st.blockNumber.toNat)

/-- The seventeen public inputs: the cut digest, the commitment and the block number. -/
def publicInputs (st : WithdrawalStatement) : List Nat :=
  toWords (keccak253 st.pisString) ++ (toWords st.extCommitment ++ [st.blockNumber.toNat])

/-- What a caller claims who submits other leaves under another prover for a proof of `st`. -/
def claim (st : WithdrawalStatement) (args : WithdrawArgs) : WithdrawalStatement :=
  { st with leaves := args.ws, withdrawalProver := args.withdrawalProver }

/-- The strings hashed to fold the leaves. -/
def leafStrings (st : WithdrawalStatement) : Set Bytes :=
  { x | ∃ p ∈ links foldWithdrawalLeaf 0 st.leaves, x = withdrawalPreimage p.1 p.2 }

end WithdrawalStatement

/-- No two of the strings hashed for these statements collide, also not when the digest is
    cut, and no fold is back at the zero the chain starts from. -/
structure Separates (statements : Set WithdrawalStatement) : Prop where
  leaves : Set.InjOn keccak256 { x | ∃ st ∈ statements, x ∈ st.leafStrings }
  nonzero : ∀ st ∈ statements, ∀ x ∈ st.leafStrings, keccak256 x ≠ 0
  inputs : Set.InjOn keccak253 { x | ∃ st ∈ statements, x = st.pisString }

variable {statements : Set WithdrawalStatement} {c : Chain} {u : Unit}

theorem Separates.mono {statements' : Set WithdrawalStatement} (separates : Separates statements')
    (within : statements ⊆ statements') : Separates statements := by
  refine ⟨separates.leaves.mono ?_, fun st member => separates.nonzero st (within member),
    separates.inputs.mono ?_⟩
  · rintro x ⟨st, member, hashed⟩
    exact ⟨st, within member, hashed⟩
  · rintro x ⟨st, member, hashed⟩
    exact ⟨st, within member, hashed⟩

variable {st : WithdrawalStatement}

/-- Whether one statement has a collision can be decided by hashing every leaf once. -/
theorem Separates.of_leafHashes
    (distinct : (((links foldWithdrawalLeaf 0 st.leaves).map fun p =>
      foldWithdrawalLeaf p.1 p.2)).Nodup)
    (nonzero : 0 ∉ (links foldWithdrawalLeaf 0 st.leaves).map fun p =>
      foldWithdrawalLeaf p.1 p.2) : Separates {st} := by
  have injective : Set.InjOn keccak256 st.leafStrings := by
    intro x hashed y hashed' same
    obtain ⟨p, hp, string⟩ := hashed
    obtain ⟨q, hq, string'⟩ := hashed'
    rw [string, string'] at same ⊢
    have pairs : p = q := inj_on_of_nodup_map distinct hp hq same
    rw [pairs]
  constructor
  · refine injective.mono ?_
    intro x ⟨st', single, hashed⟩
    rwa [← Set.mem_singleton_iff.mp single]
  · intro st' single x ⟨p, hp, string⟩ zero
    rw [Set.mem_singleton_iff.mp single] at hp
    rw [string] at zero
    exact nonzero (mem_map.mpr ⟨p, hp, zero⟩)
  · intro x ⟨st', single, string⟩ y ⟨st'', single', string'⟩ _
    rw [string, string', Set.mem_singleton_iff.mp single, Set.mem_singleton_iff.mp single']

/-- The cut digest of a statement determines its leaves and its prover. -/
theorem Separates.leaves_eq (separates : Separates statements) {st' : WithdrawalStatement}
    (member : st ∈ statements) (member' : st' ∈ statements)
    (same : keccak253 st.pisString = keccak253 st'.pisString) :
    st.leaves = st'.leaves ∧ st.withdrawalProver = st'.withdrawalProver := by
  have strings := separates.inputs ⟨st, member, rfl⟩ ⟨st', member', rfl⟩ same
  obtain ⟨chains, provers⟩ := pisPreimage_inj strings
  refine ⟨?_, provers⟩
  let S : Set (Bytes32 × Withdrawal) :=
    { p | ∃ st ∈ statements, p ∈ links foldWithdrawalLeaf 0 st.leaves }
  have free : HashChain.CollisionFree foldWithdrawalLeaf 0 S := by
    constructor
    · rintro p ⟨t, hst, hp⟩ q ⟨t', hst', hq⟩ folded
      have preimages := separates.leaves ⟨t, hst, p, hp, rfl⟩ ⟨t', hst', q, hq, rfl⟩ folded
      obtain ⟨prev, leaf⟩ := withdrawalPreimage_inj preimages
      exact Prod.ext prev leaf
    · rintro p ⟨t, hst, hp⟩
      exact separates.nonzero t hst _ ⟨p, hp, rfl⟩
  exact HashChain.head_inj free (fun p hp => ⟨st, member, hp⟩)
    (fun p hp => ⟨st', member', hp⟩) chains

/-! ## The check of a leaf array -/

/-- The verifier answers with the public inputs of a proved statement, or not at all. -/
def SoundVerifier (proven : Set WithdrawalStatement)
    (verify : Bytes → Option (List Nat)) : Prop :=
  ∀ proof pi, verify proof = some pi → ∃ st ∈ proven, pi = st.publicInputs

/-- An accepted array opens the digest of the statement that was proved. -/
theorem verifyWithdrawalSet_ok {world : External} {args : WithdrawArgs}
    (returned : world.withdrawalPublicInputs args.compactProof = some st.publicInputs)
    (h : verifyWithdrawalSet world args.ws args.withdrawalProver args.compactProof c = .ok u) :
    args.ws ≠ [] ∧ c.isFinalizedStateRoot st.extCommitment = true ∧
      keccak253 (st.claim args).pisString = keccak253 st.pisString := by
  have ext : maskedLimbsToBytes32 st.publicInputs 8 = st.extCommitment := by
    apply maskedLimbsToBytes32_of_words
    intro i inside
    rw [WithdrawalStatement.publicInputs, limb_append (by simp [toWords]), limb_toWords _ _ inside]
  have number : limb st.publicInputs 16 % 2 ^ 64 = st.blockNumber.toNat := by
    have last : limb st.publicInputs 16 = st.blockNumber.toNat := by
      show limb _ (8 + (8 + 0)) = _
      rw [WithdrawalStatement.publicInputs, limb_append (by simp [toWords]),
        limb_append (by simp [toWords])]
      rfl
    rw [last]
    omega
  simp only [verifyWithdrawalSet, returned, bind_ok, revertIf_ok, exists_unit,
    getOrRevert_ok, Option.some.injEq, exists_eq_left', ext, number] at h
  obtain ⟨nonempty, -, finalized, matches_⟩ := h
  refine ⟨nonempty, by simpa using finalized, ?_⟩
  have claimed := maskedLimbsToBytes32_of_words (limbsMatch_words (by simpa using matches_))
  have proved : maskedLimbsToBytes32 st.publicInputs 0 = keccak253 st.pisString := by
    apply maskedLimbsToBytes32_of_words
    intro i inside
    rw [zero_add, WithdrawalStatement.publicInputs, limb_toWords _ _ inside]
  exact claimed.symm.trans proved

/-- Without collisions the accepted array is the proved one. -/
theorem verifyWithdrawalSet_leaves {world : External} {args : WithdrawArgs}
    (separates : Separates {st, st.claim args})
    (returned : world.withdrawalPublicInputs args.compactProof = some st.publicInputs)
    (h : verifyWithdrawalSet world args.ws args.withdrawalProver args.compactProof c = .ok u) :
    args.ws = st.leaves ∧ args.withdrawalProver = st.withdrawalProver := by
  obtain ⟨-, -, same⟩ := verifyWithdrawalSet_ok returned h
  exact separates.leaves_eq (.inr rfl) (.inl rfl) same

end

/-! ## Paying leaves -/

/-- What an array of leaves pays to `recipient` in one token. -/
def leafTotal (ws : List Withdrawal) (tokenIndex : TokenIndex) (recipient : Address) : Nat :=
  (ws.map fun w =>
    if w.tokenIndex = tokenIndex ∧ w.recipient = recipient then w.amount.toNat else 0).sum

/-- The leaves of `ws` are paid: each nullifier is fresh, and each leaf is credited. -/
structure PaysLeaves (ws : List Withdrawal) (v v' : Vault) : Prop where
  distinct : (ws.map (·.nullifier)).Nodup
  fresh : ∀ w ∈ ws, v.withdrawalNullifierUsed w.nullifier = false
  used : ∀ n, v'.withdrawalNullifierUsed n = true ↔
    v.withdrawalNullifierUsed n = true ∨ n ∈ ws.map (·.nullifier)
  credited : ∀ t a, v'.credit t a = v.credit t a + leafTotal ws t a

theorem PaysLeaves.nil (v : Vault) : PaysLeaves [] v v :=
  { distinct := .nil
    fresh := fun _ member => nomatch member
    used := fun n => by simp
    credited := fun t a => by simp [leafTotal] }

theorem PaysLeaves.cons {v₁ v₂ : Vault} (first : PaysLeaves [w] v v₁)
    (rest : PaysLeaves ws v₁ v₂) :
    PaysLeaves (w :: ws) v v₂ := by
  have marked : v₁.withdrawalNullifierUsed w.nullifier = true :=
    (first.used w.nullifier).mpr (.inr (by simp))
  have kept {n : Bytes32} (used : v.withdrawalNullifierUsed n = true) :
      v₁.withdrawalNullifierUsed n = true := (first.used n).mpr (.inl used)
  constructor
  · -- the first nullifier is used by the time the rest is paid
    rw [map_cons, nodup_cons]
    refine ⟨?_, rest.distinct⟩
    rintro later
    obtain ⟨w', member, same⟩ := mem_map.mp later
    have unused := rest.fresh w' member
    rw [same, marked] at unused
    cases unused
  · intro w' member
    rcases mem_cons.mp member with rfl | later
    · exact first.fresh w' (by simp)
    · have unused := rest.fresh w' later
      by_contra used
      rw [kept (by simpa using used)] at unused
      cases unused
  · intro n
    rw [rest.used, first.used]
    simp [or_assoc]
  · intro t a
    rw [rest.credited, first.credited]
    simp only [leafTotal, map_cons, sum_cons, map_nil, sum_nil]
    omega

theorem payNativeLeaf_pays (h : payNativeLeaf v w = .ok v') : PaysLeaves [w] v v' := by
  simp [payNativeLeaf, consumeWithdrawalGuard] at h
  obtain ⟨native, unused, credited⟩ := h
  obtain ⟨-, rfl⟩ := creditNativeEscrow_ok credited
  refine ⟨by simp, by simpa using unused, ?_, ?_⟩
  · intro n
    by_cases same : n = w.nullifier
    · simp [same]
    · simp [same]
  · intro t a
    simp only [Vault.credit, leafTotal, native, map_cons, map_nil, sum_cons, sum_nil]
    by_cases zero : t = 0
    · by_cases mine : a = w.recipient
      · subst zero mine
        simp
      · simp [mine, Ne.symm mine]
    · rw [if_neg zero, if_neg zero, if_neg (fun mine => zero mine.1.symm),
        add_zero, add_zero]

theorem payTokenLeaf_pays {tokenAddressOf : TokenIndex → Address}
    (h : payTokenLeaf tokenAddressOf v w = .ok v') : PaysLeaves [w] v v' := by
  simp [payTokenLeaf, consumeWithdrawalGuard] at h
  obtain ⟨token, -, unused, credited⟩ := h
  obtain ⟨-, rfl⟩ := creditTokenEscrow_ok credited
  refine ⟨by simp, by simpa using unused, ?_, ?_⟩
  · intro n
    by_cases same : n = w.nullifier
    · simp [same, Vault.setTokenCredit]
    · simp [same, Vault.setTokenCredit]
  · intro t a
    simp only [Vault.credit, leafTotal, Vault.setTokenCredit, map_cons, map_nil, sum_cons, sum_nil]
    by_cases mine : t = w.tokenIndex
    · subst mine
      by_cases same : a = w.recipient
      · subst same
        simp [token]
      · simp [token, same, Ne.symm same]
    · simp [mine, Ne.symm mine]

theorem payLeaves_pays {pay : Vault → Withdrawal → Except Revert Vault}
    (leaf : ∀ {w v v'}, pay v w = .ok v' → PaysLeaves [w] v v')
    (h : payLeaves pay ws v = .ok v') :
    PaysLeaves ws v v' := by
  induction ws generalizing v with
  | nil =>
    cases h
    exact .nil _
  | cons w ws ih =>
    obtain ⟨v₁, paid, rest⟩ := bind_ok.mp h
    exact (leaf paid).cons (ih rest)

/-! ## Whole calls -/

/-- The leaves a completed call has paid. -/
def Event.paidLeaves (e : Event) : List Withdrawal :=
  match e.call.withdrawals with
  | some args => args.ws
  | none => []

section
variable [Keccak] {σ : Type}

/-- What a completed call does to the nullifiers. -/
inductive WithdrawalEffect (world : External) (call : Call) (s s' : Rollup) : Prop
  | idle : call.withdrawals = none →
      s'.vault.withdrawalNullifierUsed = s.vault.withdrawalNullifierUsed →
      WithdrawalEffect world call s s'
  | pay (args : WithdrawArgs) : call.withdrawals = some args →
      verifyWithdrawalSet world args.ws args.withdrawalProver args.compactProof s.chain = .ok () →
      PaysLeaves args.ws s.vault s'.vault → WithdrawalEffect world call s s'

variable {env : Env} {world : External} {args : WithdrawArgs} {s s' t : Rollup} {cfg : Config}
  {call : Call} {e : Event} {proven : Set WithdrawalStatement} {events : List Event}

variable {sat : Satellite σ} {out : Outcome} {j j' : σ}

theorem dispatch_withdrawals (h : dispatch cfg sat env world call s j = .ok (out, s', j')) :
    WithdrawalEffect world call s s' := by
  cases call with
  | withdrawNative args =>
    obtain ⟨-, verified, vault, paid, rfl⟩ := withdrawNative_ok (quiet_ok h).1
    exact .pay args rfl verified (payLeaves_pays payNativeLeaf_pays paid)
  | withdrawERC20 args =>
    obtain ⟨-, verified, vault, paid, rfl⟩ := withdrawERC20_ok (quiet_ok h).1
    exact .pay args rfl verified (payLeaves_pays payTokenLeaf_pays paid)
  | _ => exact .idle rfl ((dispatch_keeps h).nullifiers rfl)

theorem exec_withdrawals (h : exec cfg sat env world call s j = .ok (out, s', j')) :
    WithdrawalEffect world call s s' := by
  -- the ETH that comes with the call is neither a nullifier nor a credit
  cases dispatch_withdrawals h with
  | idle none_ same => exact .idle none_ same
  | pay args submitted verified paid =>
    exact .pay args submitted verified ⟨paid.distinct, paid.fresh, paid.used, paid.credited⟩

/-! ## Runs -/

/-- A nullifier that is used stays used. -/
theorem Step.nullifierUsed (step : Step cfg s e t) {n : Bytes32}
    (used : s.vault.withdrawalNullifierUsed n = true) :
    t.vault.withdrawalNullifierUsed n = true := by
  obtain ⟨σ, sat, world, j, j', ran⟩ := step
  cases exec_withdrawals ran with
  | idle _ same => rw [same, used]
  | pay args _ _ paid => exact (paid.used n).mpr (.inl used)

/-- A completed payout call paid the leaves it was given. -/
theorem Step.paysLeaves (step : Step cfg s e t) (submitted : e.call.withdrawals = some args) :
    PaysLeaves args.ws s.vault t.vault := by
  obtain ⟨σ, sat, world, j, j', ran⟩ := step
  cases exec_withdrawals ran with
  | idle none_ => rw [submitted] at none_; cases none_
  | pay args' submitted' _ paid =>
    rw [submitted] at submitted'
    cases submitted'
    exact paid

/-- One completed call in a world whose withdrawal verifier only vouches for `proven`. -/
def VerifiedStep (cfg : Config) (proven : Set WithdrawalStatement) (s : Rollup) (e : Event)
    (t : Rollup) : Prop :=
  ∃ (σ : Type) (sat : Satellite σ) (world : External) (j j' : σ),
    SoundVerifier proven world.withdrawalPublicInputs ∧
      exec cfg sat e.env world e.call s j = .ok (e.outcome, t, j')

theorem VerifiedStep.step (step : VerifiedStep cfg proven s e t) : Step cfg s e t := by
  obtain ⟨σ, sat, world, j, j', -, ran⟩ := step
  exact ⟨σ, sat, world, j, j', ran⟩

abbrev VerifiedRun (cfg : Config) (proven : Set WithdrawalStatement) (events : List Event)
    (s : Rollup) : Prop :=
  Path (VerifiedStep cfg proven) (initial cfg) events s

/-- The leaves a run has paid, in order. -/
def paidLeaves (events : List Event) : List Withdrawal := events.flatMap Event.paidLeaves

/-- What was proved, and what the callers of a run may have claimed with it. -/
def claims (proven : Set WithdrawalStatement) (events : List Event) : Set WithdrawalStatement :=
  { st' | st' ∈ proven ∨ ∃ st ∈ proven, ∃ e ∈ events, ∃ args,
    e.call.withdrawals = some args ∧ st' = st.claim args }

omit [Keccak] in
theorem claims_append (proven : Set WithdrawalStatement) (events later : List Event) :
    claims proven events ⊆ claims proven (events ++ later) := by
  rintro st (proved | ⟨st₀, proved, e, member, claimed⟩)
  · exact .inl proved
  · exact .inr ⟨st₀, proved, e, mem_append_left _ member, claimed⟩

/-- The array of an accepted call was proved against a finalized state root. -/
def ProvenArray (proven : Set WithdrawalStatement) (s : Rollup) (args : WithdrawArgs) : Prop :=
  ∃ st ∈ proven, st.leaves = args.ws ∧ st.withdrawalProver = args.withdrawalProver ∧
    s.chain.isFinalizedStateRoot st.extCommitment = true

/-- What a run has paid: each array proved, each nullifier once and marked as used. -/
structure Settled (proven : Set WithdrawalStatement) (events : List Event) (s : Rollup) :
    Prop where
  proved : ∀ e ∈ events, ∀ args, e.call.withdrawals = some args → ProvenArray proven s args
  distinct : ((paidLeaves events).map (·.nullifier)).Nodup
  used : ∀ n, s.vault.withdrawalNullifierUsed n = true ↔
    n ∈ (paidLeaves events).map (·.nullifier)

theorem Settled.initial (proven : Set WithdrawalStatement) (cfg : Config) :
    Settled proven [] (initial cfg) :=
  { proved := fun _ member => nomatch member
    distinct := .nil
    used := fun n => by simp [paidLeaves, Rollup.initial] }

theorem VerifiedRun.reachable (run : VerifiedRun cfg proven events s) : Reachable cfg s :=
  ⟨events, run.map (f := id) fun _ _ _ step => step.step⟩

theorem VerifiedStep.effect (step : VerifiedStep cfg proven s e t) :
    ∃ world, SoundVerifier proven world.withdrawalPublicInputs ∧
      WithdrawalEffect world e.call s t := by
  obtain ⟨σ, sat, world, j, j', sound, ran⟩ := step
  exact ⟨world, sound, exec_withdrawals ran⟩

/-- An accepted array is a proved one, against a root that is finalized when it is paid. -/
theorem WithdrawalEffect.proved {claimed : Set WithdrawalStatement}
    (effect : WithdrawalEffect world call s t)
    (sound : SoundVerifier proven world.withdrawalPublicInputs)
    (submitted : call.withdrawals = some args) (separates : Separates claimed)
    (within : ∀ st ∈ proven, st ∈ claimed ∧ st.claim args ∈ claimed) :
    ProvenArray proven s args := by
  cases effect with
  | idle none_ => rw [submitted] at none_; cases none_
  | pay args' submitted' verified paid =>
    rw [submitted] at submitted'
    cases submitted'
    have answered := verified
    simp only [verifyWithdrawalSet, bind_ok, exists_unit, getOrRevert_ok] at answered
    obtain ⟨-, pi, returned, -⟩ := answered
    obtain ⟨st, proved, rfl⟩ := sound _ _ returned
    obtain ⟨-, finalized, -⟩ := verifyWithdrawalSet_ok returned verified
    have pair : Separates {st, st.claim args} := by
      refine separates.mono ?_
      rintro st' (rfl | rfl)
      · exact (within _ proved).1
      · exact (within _ proved).2
    obtain ⟨leaves, prover⟩ := verifyWithdrawalSet_leaves pair returned verified
    exact ⟨st, proved, leaves.symm, prover.symm, finalized⟩

theorem Settled.step (settled : Settled proven events s) (reachable : Reachable cfg s)
    (separates : Separates (claims proven (events ++ [e]))) (step : VerifiedStep cfg proven s e t) :
    Settled proven (events ++ [e]) t := by
  obtain ⟨world, sound, effect⟩ := step.effect
  have roots := (run_keepsFinalized reachable (Path.single step.step)).roots
  have proved : ∀ e' ∈ events ++ [e], ∀ args, e'.call.withdrawals = some args →
      ProvenArray proven t args := by
    intro e' member args submitted
    have atPayment : ProvenArray proven s args := by
      rcases mem_append.mp member with earlier | last
      · exact settled.proved e' earlier args submitted
      · cases mem_singleton.mp last
        refine effect.proved sound submitted separates ?_
        intro st proved
        exact ⟨.inl proved, .inr ⟨st, proved, e, member, args, submitted, rfl⟩⟩
    -- finalized roots stay finalized
    obtain ⟨st, proved, leaves, prover, finalized⟩ := atPayment
    exact ⟨st, proved, leaves, prover, roots _ finalized⟩
  have grown : paidLeaves (events ++ [e]) = paidLeaves events ++ e.paidLeaves := by
    simp [paidLeaves]
  cases effect with
  | idle none_ same =>
    have nothing : e.paidLeaves = [] := by simp [Event.paidLeaves, none_]
    rw [nothing, append_nil] at grown
    refine ⟨proved, ?_, ?_⟩
    · rw [grown]
      exact settled.distinct
    · intro n
      rw [grown, same]
      exact settled.used n
  | pay args submitted verified paid =>
    have leaves : e.paidLeaves = args.ws := by simp [Event.paidLeaves, submitted]
    rw [leaves] at grown
    refine ⟨proved, ?_, ?_⟩
    · rw [grown, map_append, nodup_append]
      refine ⟨settled.distinct, paid.distinct, ?_⟩
      -- a nullifier of this array that was paid before would have been rejected
      rintro n earlier n' now rfl
      obtain ⟨w, member, rfl⟩ := mem_map.mp now
      have fresh := paid.fresh w member
      rw [(settled.used _).mpr earlier] at fresh
      cases fresh
    · intro n
      rw [grown, map_append, mem_append, paid.used, settled.used]

theorem VerifiedRun.settled (run : VerifiedRun cfg proven events s) :
    Separates (claims proven events) → Settled proven events s := by
  refine Path.history (I := fun events s => Separates (claims proven events) →
    Settled proven events s) ?_ ?_ run
  · intro _
    exact .initial proven cfg
  · intro events s e t before ih step separates
    exact (ih (separates.mono (claims_append proven events [e]))).step
      (VerifiedRun.reachable before) separates step

/-- Leaves are paid once and only as proved.  No two paid leaves of a run share a nullifier;
    the array of every accepted call is, leaf for leaf, one that was proved against a state
    root finalized by then; each call credits exactly its leaves; and an array that
    differs from the proved one is rejected by both entry points. -/
theorem withdrawals_paid_once {cfg : Config} {proven : Set WithdrawalStatement}
    {events : List Event} {s : Rollup} (run : VerifiedRun cfg proven events s)
    (separates : Separates (claims proven events)) :
    ((paidLeaves events).map (·.nullifier)).Nodup ∧
    (∀ w ∈ paidLeaves events, ∃ st ∈ proven, w ∈ st.leaves ∧
      s.chain.isFinalizedStateRoot st.extCommitment = true) ∧
    (∀ e ∈ events, ∀ args, e.call.withdrawals = some args → ProvenArray proven s args) ∧
    (∀ e t args, VerifiedStep cfg proven s e t → e.call.withdrawals = some args →
      PaysLeaves args.ws s.vault t.vault) ∧
    ∀ env world args st, world.withdrawalPublicInputs args.compactProof = some st.publicInputs →
      Separates {st, st.claim args} →
      args.ws ≠ st.leaves → ∀ s', withdrawNative env world args s ≠ .ok s' ∧
        withdrawERC20 env world args s ≠ .ok s' := by
  have settled := run.settled separates
  refine ⟨settled.distinct, ?_, settled.proved, ?_, ?_⟩
  · intro w paid
    obtain ⟨e, member, leaf⟩ := List.mem_flatMap.mp paid
    unfold Event.paidLeaves at leaf
    split at leaf
    · rename_i args submitted
      obtain ⟨st, proved, leaves, -, finalized⟩ := settled.proved e member args submitted
      exact ⟨st, proved, by rwa [leaves], finalized⟩
    · cases leaf
  · intro e t args step submitted
    exact step.step.paysLeaves submitted
  · intro env world args st returned pair differs s'
    constructor
    · intro accepted
      exact differs (verifyWithdrawalSet_leaves pair returned (withdrawNative_ok accepted).2.1).1
    · intro accepted
      exact differs (verifyWithdrawalSet_leaves pair returned (withdrawERC20_ok accepted).2.1).1

end

section
attribute [local instance] evmKeccak

/-- Two leaves proved against the genesis root. -/
def sampleStatement : WithdrawalStatement :=
  { leaves :=
      [{ recipient := 0x44, tokenIndex := 0, amount := 3, nullifier := 0x61, auxData := 0 },
       { recipient := 0x45, tokenIndex := 0, amount := 4, nullifier := 0x62, auxData := 0 }]
    withdrawalProver := 0x77, extCommitment := 0x9e, blockNumber := 0 }

/-- The withdrawal verifier vouches for `st`. -/
def provingExternal (st : WithdrawalStatement) : External :=
  { sampleExternal with withdrawalPublicInputs := fun _ => some st.publicInputs }

/-- A deposit of ETH, and the two leaves paid from it. -/
def sampleWithdrawal : List (Env × External × Call) :=
  [(sampleEnv 4 10 2, provingExternal sampleStatement, .deposit
      { recipient := 0xabc, tokenIndex := 0, amount := 10, auxData := 0 }),
   (sampleEnv 5 0 3, provingExternal sampleStatement, .withdrawNative
      { ws := sampleStatement.leaves, withdrawalProver := 0x77, compactProof := [] })]

theorem withdrawals_paid_once_sample : ∃ events s,
    VerifiedRun sampleConfig {sampleStatement} events s ∧
      Separates (claims {sampleStatement} events) ∧
    paidLeaves events = sampleStatement.leaves ∧ s.vault.pendingWithdrawals 0x44 = 3 ∧
    s.vault.totalEscrowed = 3 ∧ ((paidLeaves events).map (·.nullifier)).Nodup := by
  have ran : (match execAll sampleConfig sampleSatellite sampleWithdrawal (initial sampleConfig) ()
      with
      | .ok (events, s, _) =>
        events.all (fun e => match e.call.withdrawals with
          | some args => decide (args.ws = sampleStatement.leaves ∧ args.withdrawalProver = 0x77)
          | none => true) &&
        decide (paidLeaves events = sampleStatement.leaves) &&
        s.vault.pendingWithdrawals 0x44 == 3 && s.vault.totalEscrowed == 3
      | .error _ => false) = true := by decide +kernel
  have distinct : ((links foldWithdrawalLeaf 0 sampleStatement.leaves).map fun p =>
      foldWithdrawalLeaf p.1 p.2).Nodup := by decide +kernel
  have nonzero : 0 ∉ (links foldWithdrawalLeaf 0 sampleStatement.leaves).map fun p =>
      foldWithdrawalLeaf p.1 p.2 := by decide +kernel
  split at ran
  · rename_i events s j completed
    simp at ran
    obtain ⟨⟨⟨submitted, paid⟩, credit⟩, escrow⟩ := ran
    have run : VerifiedRun sampleConfig {sampleStatement} events s := by
      refine execAll_moves (fun c member s s' j j' outcome ran => ?_) completed
      refine ⟨Unit, sampleSatellite, c.2.1, j, j', ?_, ran⟩
      have world : c.2.1 = provingExternal sampleStatement := by
        simp [sampleWithdrawal] at member
        rcases member with rfl | rfl
        · rfl
        · rfl
      intro proof pi returned
      rw [world] at returned
      cases returned
      exact ⟨sampleStatement, rfl, rfl⟩
    have separates : Separates (claims {sampleStatement} events) := by
      refine (Separates.of_leafHashes distinct nonzero).mono ?_
      rintro st (proved | ⟨st₀, rfl, e, member, args, given, rfl⟩)
      · exact proved
      · have same := submitted e member
        simp [given] at same
        simp [WithdrawalStatement.claim, same.1, same.2]
        rfl
    exact ⟨events, s, run, separates, paid, credit, escrow,
      (withdrawals_paid_once run separates).1⟩
  · cases ran

end

end Intmax.Rollup
