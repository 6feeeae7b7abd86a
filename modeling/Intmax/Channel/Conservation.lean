import Mathlib.Algebra.BigOperators.Group.Finset.Basic
import Mathlib.Tactic.Linarith
import Intmax.Channel.Registering

/-! # Value in a channel is conserved for each token

The hidden balances of a token are what its fund holds apart from what came in and is not applied
yet.  No transition changes the difference.
-/

namespace Intmax.Channel

open Checked Hashing Transition Validity List ChannelTransition

variable {D B : Type} {backends : Backends B} {value : RegevCiphertext → Int}
  {s s' : ChannelState B}

/-! ## Assumptions about the ciphertexts -/

/-- The verifier of the lattice proofs accepts only statements about hidden values that hold. -/
structure RegevSound (backends : Backends B) (value : RegevCiphertext → Int) : Prop where
  transfer : ∀ envelope senderPk recipientPk before encAmount after,
    backends.regev envelope .channelTxDecrypted
      (.channelTx senderPk recipientPk before encAmount after) = .ok () →
        value before = value after + value encAmount
  update : ∀ envelope senderPk recipientPk before after senderDelta receiverDelta amount
      tokenIndex,
    backends.regev envelope .channelUpdateDecrypted
      (.channelUpdate senderPk recipientPk before after senderDelta receiverDelta amount
        tokenIndex) = .ok () →
          value before = value after + amount.toNat ∧ value receiverDelta = amount.toNat
  refresh : ∀ envelope pk old new,
    backends.regev envelope .balanceRefresh (.balanceRefresh pk old new) = .ok () →
      value old = value new

/-- The addition that a transition makes adds the values. -/
def AddsValues (value : RegevCiphertext → Int) (t : ChannelTransition D B) : Prop :=
  ∀ slot delta token, t.addition = some (slot, delta) → t.tokenSlot = some token →
    ∀ sum, addCiphertexts (t.prevState.balanceState.ct (slot, token)) delta = .ok sum →
      value sum = value (t.prevState.balanceState.ct (slot, token)) + value delta

/-! ## The hidden balances of a token -/

/-- The sum over all slots of the values at one token. -/
def hiddenBalances (value : RegevCiphertext → Int) (s : ChannelState B)
    (token : Fin maxChannelTokens) : Int :=
  ∑ slot ∈ Finset.range maxChannelMembers, value (s.balanceState.ct (slot, token))

section
variable {token : Fin maxChannelTokens}

theorem hiddenBalances_sub : hiddenBalances value s' token - hiddenBalances value s token =
    ∑ slot ∈ Finset.range maxChannelMembers,
      (value (s'.balanceState.ct (slot, token)) - value (s.balanceState.ct (slot, token))) :=
  (Finset.sum_sub_distrib _ _).symm

/-- Only one slot changes at the token. -/
theorem hiddenBalances_change {slot : Nat} (inside : slot < maxChannelMembers)
    (frame : ∀ i, i ≠ slot → s'.balanceState.ct (i, token) = s.balanceState.ct (i, token)) :
    hiddenBalances value s' token - hiddenBalances value s token =
      value (s'.balanceState.ct (slot, token)) - value (s.balanceState.ct (slot, token)) := by
  rw [hiddenBalances_sub]
  refine Finset.sum_eq_single slot (fun i _ other => ?_) fun outside => ?_
  · rw [frame i other, sub_self]
  · exact absurd (Finset.mem_range.mpr inside) outside

/-- Two slots change at the token. -/
theorem hiddenBalances_change₂ {slot slot' : Nat} (inside : slot < maxChannelMembers)
    (inside' : slot' < maxChannelMembers) (apart : slot ≠ slot')
    (frame : ∀ i, i ≠ slot → i ≠ slot' →
      s'.balanceState.ct (i, token) = s.balanceState.ct (i, token)) :
    hiddenBalances value s' token - hiddenBalances value s token =
      (value (s'.balanceState.ct (slot, token)) - value (s.balanceState.ct (slot, token))) +
        (value (s'.balanceState.ct (slot', token)) - value (s.balanceState.ct (slot', token))) := by
  rw [hiddenBalances_sub]
  refine Finset.sum_eq_add slot slot' apart (fun i _ other => ?_) (fun outside => ?_)
    fun outside => ?_
  · rw [frame i other.1 other.2, sub_self]
  · exact absurd (Finset.mem_range.mpr inside) outside
  · exact absurd (Finset.mem_range.mpr inside') outside

theorem hiddenBalances_same
    (frame : ∀ i, s'.balanceState.ct (i, token) = s.balanceState.ct (i, token)) :
    hiddenBalances value s' token = hiddenBalances value s token :=
  Finset.sum_congr rfl fun i _ => congrArg value (frame i)

end

theorem ValueChange.incoming {token : Option (Fin maxChannelTokens)}
    {addition : Option (Nat × RegevCiphertext)} {fresh : Option Nat} {amount : Int}
    (changed : ValueChange backends s s' token addition fresh amount) :
    (s'.unallocatedConfirmedIncoming.val : Int) = s.unallocatedConfirmedIncoming.val + amount := by
  cases changed with
  | transfer _ _ _ incoming => rw [incoming, add_zero]
  | send _ _ _ incoming => rw [incoming, add_zero]
  | receive _ _ incoming => exact_mod_cast incoming
  | apply _ _ incoming =>
    rw [incoming]
    push_cast
    ring
  | refresh _ _ incoming => rw [incoming, add_zero]
  | register _ incoming => rw [incoming, add_zero]

variable [Hashing D B] [DecidableEq B]

/-! ## One step -/

/-- A step about another token leaves the token alone. -/
theorem Step.other_token {t : ChannelTransition D B} {token : Fin maxChannelTokens}
    (step : Step backends s t s') (other : t.tokenSlot ≠ some token) :
    (∀ slot, s'.balanceState.ct (slot, token) = s.balanceState.ct (slot, token)) ∧
      s'.channelFund.amounts token = s.channelFund.amounts token := by
  refine ⟨fun slot => ?_, ?_⟩
  · exact (step.positions.frame (slot, token) (fun added => other added.2)
      fun fresh => other fresh.2).1
  · have changed := step.value
    generalize t.tokenSlot = about at other changed
    generalize t.addition = addition at changed
    generalize t.freshSlot = fresh at changed
    generalize t.unallocated = amount at changed
    cases changed with
    | transfer _ _ fund => rw [fund]
    | send _ _ others => exact others token fun same => other (congrArg some same.symm)
    | receive _ others => exact others token fun same => other (congrArg some same.symm)
    | apply _ fund => rw [fund]
    | refresh _ fund => rw [fund]
    | register fund => rw [fund]

/-- The change of the hidden balances at the token of a step, together with what stays
    unallocated, is the change of the fund. -/
theorem Step.own_token {t : ChannelTransition D B} {token : Fin maxChannelTokens}
    (step : Step backends s t s') (sound : RegevSound backends value) (adds : AddsValues value t)
    (start : t.prevState = s) (about : t.tokenSlot = some token) :
    hiddenBalances value s' token - hiddenBalances value s token + t.unallocated =
      ((s'.channelFund.amounts token).val : Int) - (s.channelFund.amounts token).val := by
  have frame (i : Nat) (notAdded : t.addition.map Prod.fst ≠ some i)
      (notFresh : t.freshSlot ≠ some i) : s'.balanceState.ct (i, token) =
        s.balanceState.ct (i, token) := (step.positions.frame (i,
      token) (fun added => notAdded added.1) fun fresh => notFresh fresh.1).1
  have additive : ∀ slot delta, t.addition = some (slot, delta) →
      ∀ sum, addCiphertexts (s.balanceState.ct (slot, token)) delta = .ok sum →
        value sum = value (s.balanceState.ct (slot, token)) + value delta :=
    fun slot delta added => start ▸ adds slot delta token added about
  have changed := step.value
  rw [about] at changed
  generalize t.addition = addition at changed frame additive
  generalize t.freshSlot = fresh at changed frame
  generalize t.unallocated = amount at changed
  cases changed with
  | @transfer _ sender recipient delta _ _ _ inside apart fund incoming added proved =>
    have debit := sound.transfer _ _ _ _ _ _ proved
    have credit := additive recipient delta rfl _ added
    rw [hiddenBalances_change₂ inside.1 inside.2 apart, fund]
    · linarith
    · intro i notSender notRecipient
      exact frame i (fun same => notRecipient (Option.some.inj same).symm)
        fun same => notSender (Option.some.inj same).symm
  | @send _ sender _ _ amount _ _ _ _ inside fund others incoming proved =>
    have debit := (sound.update _ _ _ _ _ _ _ _ _ proved).1
    rw [hiddenBalances_change inside]
    · have exact_ : ((s.channelFund.amounts token).val : Int) =
          (s'.channelFund.amounts token).val + amount.toNat := by exact_mod_cast fund
      linarith
    · intro i notSender
      exact frame i (by simp) fun same => notSender (Option.some.inj same).symm
  | @receive _ amount fund others incoming =>
    have exact_ : ((s'.channelFund.amounts token).val : Int) =
        (s.channelFund.amounts token).val + amount.toNat := by exact_mod_cast fund
    rw [hiddenBalances_same fun i => frame i (by simp) (by simp)]
    linarith
  | @apply _ recipient _ _ _ delta amount _ _ _ _ inside fund incoming added proved =>
    have credit := additive recipient delta rfl _ added
    have exact_ := (sound.update _ _ _ _ _ _ _ _ _ proved).2
    rw [hiddenBalances_change inside, fund]
    · linarith
    · intro i notRecipient
      exact frame i (fun same => notRecipient (Option.some.inj same).symm) (by simp)
  | @refresh _ member _ _ inside fund incoming proved =>
    have same := sound.refresh _ _ _ _ proved
    rw [hiddenBalances_change inside, fund]
    · linarith
    · intro i notMember
      exact frame i (by simp) fun same => notMember (Option.some.inj same).symm

/-! ## Chains of states -/

/-- What the transitions of a chain leave unallocated at a token. -/
def unallocatedSum (ts : List (ChannelTransition D B)) (token : Fin maxChannelTokens) : Int :=
  (ts.map fun t => t.unallocatedAt token).sum

variable {ts : List (ChannelTransition D B)}

/-- The hidden balances of a token, with what is unallocated there, follow its fund. -/
theorem chain_conserves [OfLimbs B] (run : Path (Accepts backends) s ts s')
    (sound : RegevSound backends value) (adds : ∀ t ∈ ts, AddsValues value t)
    (token : Fin maxChannelTokens) :
    hiddenBalances value s' token + unallocatedSum ts token - (s'.channelFund.amounts token).val =
      hiddenBalances value s token - (s.channelFund.amounts token).val := by
  refine run.history (I := fun ls u => (∀ t ∈ ls, AddsValues value t) →
    hiddenBalances value u token + unallocatedSum ls token - (u.channelFund.amounts token).val =
      hiddenBalances value s token - (s.channelFund.amounts token).val)
    (fun _ => by simp [unallocatedSum]) (fun ls u t u' _ kept accepts adds => ?_) adds
  have before := kept fun t old => adds t (mem_append_left _ old)
  have step := accepts.step
  have grown : unallocatedSum (ls ++ [t]) token =
      unallocatedSum ls token + t.unallocatedAt token := by simp [unallocatedSum]
  rw [grown, unallocatedAt]
  by_cases about : t.tokenSlot = some token
  · have moved := step.own_token sound
      (adds t (mem_append_right _ (mem_singleton_self t))) accepts.1 about
    rw [if_pos about]
    linarith
  · obtain ⟨positions, fund⟩ := step.other_token about
    rw [if_neg about, hiddenBalances_same positions, fund]
    linarith

theorem chain_unallocated [OfLimbs B] (run : Path (Accepts backends) s ts s') :
    (s'.unallocatedConfirmedIncoming.val : Int) =
      s.unallocatedConfirmedIncoming.val + (ts.map unallocated).sum := by
  refine run.history (I := fun ls u => (u.unallocatedConfirmedIncoming.val : Int) =
    s.unallocatedConfirmedIncoming.val + (ls.map unallocated).sum)
    (by simp) (fun ls u t u' _ before accepts => ?_)
  rw [accepts.step.value.incoming, before]
  simp [add_assoc]

theorem chain_other_token [OfLimbs B] (run : Path (Accepts backends) s ts s')
    {token : Fin maxChannelTokens} (others : ∀ t ∈ ts, t.tokenSlot ≠ some token) :
    (∀ slot, s'.balanceState.ct (slot, token) = s.balanceState.ct (slot, token)) ∧
      s'.channelFund.amounts token = s.channelFund.amounts token := by
  refine run.history (I := fun ls u => (∀ t ∈ ls, t.tokenSlot ≠ some token) →
    (∀ slot, u.balanceState.ct (slot, token) = s.balanceState.ct (slot, token)) ∧
      u.channelFund.amounts token = s.channelFund.amounts token)
    (fun _ => ⟨fun _ => rfl, rfl⟩) (fun ls u t u' _ kept accepts others => ?_) others
  obtain ⟨positions, fund⟩ := kept fun t old => others t (mem_append_left _ old)
  obtain ⟨positions', fund'⟩ :=
    accepts.step.other_token (others t (mem_append_right _ (mem_singleton_self t)))
  exact ⟨fun slot => (positions' slot).trans (positions slot), fund'.trans fund⟩

/-- Value is conserved at every token of every chain of accepted transitions, and a transition
    moves no value at another token than its own. -/
theorem channel_value_conserved [OfLimbs B] {ts : List (ChannelTransition D B)}
    (run : Path (Accepts backends) s ts s') (sound : RegevSound backends value)
    (adds : ∀ t ∈ ts, AddsValues value t) :
    (∀ token, hiddenBalances value s' token + unallocatedSum ts token -
        (s'.channelFund.amounts token).val =
          hiddenBalances value s token - (s.channelFund.amounts token).val) ∧
      (s'.unallocatedConfirmedIncoming.val : Int) =
        s.unallocatedConfirmedIncoming.val + (ts.map ChannelTransition.unallocated).sum ∧
      ∀ token, (∀ t ∈ ts, t.tokenSlot ≠ some token) →
        (∀ slot, s'.balanceState.ct (slot, token) = s.balanceState.ct (slot, token)) ∧
          s'.channelFund.amounts token = s.channelFund.amounts token :=
  ⟨chain_conserves run sound adds, chain_unallocated run, fun _ => chain_other_token run⟩

/-! ## A transfer between two members -/

/-- A ciphertext that shows its value as the first coefficient. -/
def coin (n : BitVec 32) : RegevCiphertext :=
  { c1 := List.replicate regevN 0, c2 := n :: List.replicate (regevN - 1) 0 }

def coinValue (ct : RegevCiphertext) : Int := (ct.c2.headD 0).toNat

theorem coin_validate {n : BitVec 32} (small : n.toNat < regevQ) : (coin n).validate = .ok () := by
  have zero : ¬ regevQ ≤ (0 : BitVec 32).toNat := by decide
  have canonical : ((coin n).c1 ++ (coin n).c2).find? (fun c => decide (regevQ ≤ c.toNat)) =
      none := by
    rw [find?_eq_none]
    intro c member
    simp [coin] at member
    simp only [decide_eq_true_eq]
    obtain ⟨-, rfl⟩ | rfl | ⟨-, rfl⟩ := member
    · exact zero
    · omega
    · exact zero
  simp [RegevCiphertext.validate, canonical]
  simp only [coin, length_replicate, length_cons]
  exact ⟨trivial, rfl⟩

theorem addCiphertexts_coin {a b : BitVec 32} (small : a.toNat + b.toNat < regevQ) :
    addCiphertexts (coin a) (coin b) = .ok (coin (BitVec.ofNat 32 (a.toNat + b.toNat))) := by
  have zeros (n : Nat) : addPolynomials (replicate n 0) (replicate n 0) =
      replicate n 0 := by
    rw [addPolynomials, zipWith_replicate, min_self]
    rfl
  have sums : addPolynomials (coin a).c2 (coin b).c2 =
      BitVec.ofNat 32 (a.toNat + b.toNat) :: replicate (regevN - 1) 0 := by
    have tail := zeros (regevN - 1)
    simp only [addPolynomials] at tail
    simp [coin, addPolynomials, Nat.mod_eq_of_lt small]
  simp only [addCiphertexts, coin_validate (show a.toNat < regevQ by omega), coin_validate (show
    b.toNat < regevQ by omega), bind_ok, exists_unit, pure_ok, true_and, sums]
  simp only [coin, zeros]

/-- The backend that decides the relations of the statements for the shown values. -/
def Backends.shown : Backends B where
  regev := fun _ purpose statement =>
    match purpose, statement with
    | .channelTxDecrypted, .channelTx _ _ before encAmount after =>
      revertIf (coinValue before ≠ coinValue after + coinValue encAmount) .panic
    | .channelUpdateDecrypted, .channelUpdate _ _ before after _ receiverDelta amount _ =>
      revertIf (coinValue before ≠ coinValue after + amount.toNat ∨
        coinValue receiverDelta ≠ amount.toNat) .panic
    | .balanceRefresh, .balanceRefresh _ old new =>
        revertIf (coinValue old ≠ coinValue new) .panic
    | _, _ => .error .panic
  transport := fun _ _ => .error .panic
  decrypt := fun _ _ => []

omit [Hashing D B] [DecidableEq B] in
theorem Backends.shown_sound : RegevSound (Backends.shown : Backends B) coinValue where
  transfer := by
    intro _ _ _ before encAmount after accepted
    simpa [Backends.shown] using accepted
  update := by
    intro _ _ _ before after _ receiverDelta amount _ accepted
    simpa [Backends.shown] using accepted
  refresh := by
    intro _ _ old new accepted
    simpa [Backends.shown] using accepted

omit [DecidableEq B] in
theorem rowAt_firstToken {α : Type} {first second rest : α} {index : Nat}
    (inside : index < maxChannelMembers) (other : index ∉ [0, 1]) :
    rowAt (firstToken first rest :: firstToken second rest ::
      replicate 1022 (fun _ => rest)) index = .ok fun _ => rest := by
  simp at other
  obtain ⟨index, rfl⟩ : ∃ k, index = k + 2 := ⟨index - 2, by omega⟩
  have below : index < 1022 := by
    have bound : index + 2 < 1024 := inside
    omega
  simp only [rowAt, getOrRevert_ok, getElem?_cons_succ, getElem?_replicate, below, if_true]

/-- `RegevPk::padding`. -/
def paddingPk : RegevPk := { a := List.replicate regevN 0, b := List.replicate regevN 0 }

theorem paddingPk_valid : validateRegevPk paddingPk = .ok () ∧ paddingPk.validate = true := by
  have zeros : (paddingPk.a ++ paddingPk.b).find? (fun c => decide (regevQ ≤ c.toNat)) =
      none := by
    simp [paddingPk, regevQ]
  have lengths : paddingPk.a.length = regevN ∧ paddingPk.b.length = regevN := by simp [paddingPk]
  constructor
  · simp [validateRegevPk, zeros, lengths]
  · simp [RegevPk.validate, paddingPk, regevQ]

/-- A channel whose members all have the padding key has a key root. -/
theorem exists_keyRoot : ∃ items, ∀ record : ChannelRecord B,
    record.regevPkRoot = keccak (D := D) items →
      verifyRegevPkRoot D record (fun _ => paddingPk) = .ok () := by
  have digests : ∀ pk ∈ (finRange maxChannelMembers).map (fun _ => paddingPk),
      ((regevPkDigest D pk : Option B)).isSome = true := by
    intro pk member
    obtain ⟨_, -, rfl⟩ := mem_map.mp member
    simp [regevPkDigest, paddingPk_valid.2]
  obtain ⟨ys, hashed, -⟩ := mapM_option_some digests
  refine ⟨[.elem regevPkRootDomain, .elem ((finRange maxChannelMembers).map
    fun _ => paddingPk).length] ++ ys.map .bytes, fun record root => ?_⟩
  simp only [verifyRegevPkRoot, bind_ok, forM_ok, mapError_ok, getOrRevert_ok,
    revertIf_ok, exists_unit, not_not]
  refine ⟨fun _ _ => paddingPk_valid.1, _, ?_, root.symm⟩
  simp only [regevPkRoot, hashed, Option.bind_eq_bind, Option.bind_some]

/-- The first token position. -/
def tokenZero : Fin maxChannelTokens := ⟨0, by decide⟩

omit [DecidableEq B] in
/-- At the only token of two members the hidden balances are those of the two members. -/
theorem hiddenBalances_pair {channelId : ChannelId} {version epoch : BitVec 64} {a b : BitVec 32}
    {adds adds' : BitVec 32} {digest : B} :
    hiddenBalances coinValue
      (pairState D (pairBalance D channelId version (coin a) (coin b) adds adds') epoch digest)
        tokenZero = a.toNat + b.toNat := by
  rw [hiddenBalances, Finset.sum_eq_add 0 1 (by decide)]
  · rfl
  · intro i inside other
    let balance : BalanceState B := pairBalance D channelId version (coin a) (coin b) adds adds'
    have found : rowAt balance.encBalances i = .ok fun _ => .padding :=
      rowAt_firstToken (Finset.mem_range.mp inside) (by simpa using other)
    have padding : balance.ct (i, tokenZero) = .padding := ct_of_row found tokenZero
    exact congrArg coinValue padding
  · exact fun outside => absurd (Finset.mem_range.mpr (by decide)) outside
  · exact fun outside => absurd (Finset.mem_range.mpr (by decide)) outside

theorem firstToken_other {α : Type} {value rest : α} {t : Fin maxChannelTokens}
    (other : t ≠ tokenZero) : firstToken value rest t = rest :=
  if_neg fun first => other (Fin.ext first)

section
variable (D)

/-- Five coins of the first member. -/
def beforeTransfer (digest : B) : ChannelState B :=
  pairState D (pairBalance D 1 0 (coin 5) (coin 0) 0 0) 0 digest

/-- Two of them have gone to the second member. -/
def afterTransfer (digest digest' : B) : ChannelState B :=
  { pairState D (pairBalance D 1 1 (coin 3) (coin 2) 0 1) 1 digest' with prevDigest := digest }

/-- The transaction of that transfer. -/
def transferTx (key key' : B) : ChannelTx B where
  recipientPkG := key'
  tokenSlot := 0
  encAmount := coin 2
  nonce := zeroBytes D
  channelTxZkp := { role := .channelStateUpdate, backend := .plonky3, proof := [] }
  senderPkG := key
  senderHashSig := [0]

end

/-- The first member pays two of its five coins to the second one, whatever well-formed signatures
    the new state carries. -/
theorem transfer_accepted {key key' root : B}
    (keys : verifyRegevPkRoot D (pairRecord D 1 key key' root) (fun _ => paddingPk) = .ok ()) :
    ∃ digest digest', ∀ signatures,
        validateAllMemberSignatures D (pairRecord D 1 key key' root) signatures = .ok () →
        ∃ inputs, InChannelTransferUpdateWitness.verify D
          { channelRecord := pairRecord D 1 key key' root, regevPks := fun _ => paddingPk
            prevState := beforeTransfer D digest
            nextState := { afterTransfer D digest digest' with memberSignatures := signatures }
            channelTx := transferTx D key key', senderIndex := 0, recipientIndex := 1
            recipientSk := none, expectedAmount := none } .shown = .ok inputs := by
  let record := pairRecord D 1 key key' root
  let balance : BalanceState B := pairBalance D 1 0 (coin 5) (coin 0) 0 0
  let balance' : BalanceState B := pairBalance D 1 1 (coin 3) (coin 2) 0 1
  have canonical : balance.Canonical D := pairBalance_canonical (coin_validate (by decide))
    (coin_validate (by decide)) (by decide) (by decide)
  have canonical' : balance'.Canonical D := pairBalance_canonical (coin_validate (by decide))
    (coin_validate (by decide)) (by decide) (by decide)
  obtain ⟨digest, fits⟩ : ∃ digest, (beforeTransfer D digest).Fits D record :=
    exists_pairState_fits canonical
  obtain ⟨digest', hashed'⟩ := ChannelState.signingDigest_isSome (D := D)
    (show (afterTransfer D digest (zeroBytes D)).balanceState.Hashable from canonical'.hashable)
  obtain ⟨amount, encrypted⟩ := Option.isSome_iff_exists.mp
    (RegevCiphertext.digest_isSome (D := D) (coin_validate
      (show (2 : BitVec 32).toNat < _ by decide)))
  refine ⟨digest, digest', fun signatures signed => ?_⟩
  let s : ChannelState B := beforeTransfer D digest
  let s' : ChannelState B := { afterTransfer D digest digest' with memberSignatures := signatures }
  let w : InChannelTransferUpdateWitness B :=
    { channelRecord := record, regevPks := fun _ => paddingPk, prevState := s, nextState := s'
      channelTx := transferTx D key key', senderIndex := 0, recipientIndex := 1
      recipientSk := none, expectedAmount := none }
  have same {α : Type} {a b rest : α} (t : Fin maxChannelTokens)
      (_ : t ∈ finRange maxChannelTokens) (other : t ≠ tokenZero) :
      firstToken a rest t = firstToken b rest t := by
    rw [firstToken_other other, firstToken_other other]
  have frozen : ensureSlotsUnchanged s s' [0, 1] = .ok () ∧
      requireSlotsAddsUnchanged s s' [0, 1] = .ok () := by
    simp only [ensureSlotsUnchanged, requireSlotsAddsUnchanged, ensureSlotUnchanged,
      requirePendingAddsUnchanged, forM_ok, mem_range, ite_ok, bind_ok, revertIf_ok, not_not]
    constructor
    all_goals
      intro index inside
      by_cases named : index ∈ [0, 1]
      · exact .inl ⟨named, trivial⟩
      · exact .inr ⟨named, _, rowAt_firstToken inside named, _,
          rowAt_firstToken inside named, rfl⟩
  have txDigest : ∃ tx, w.channelTx.signingDigest D s.channelId s.digest = some tx := by
    have found : (w.channelTx.encAmount.digest D : Option B) = some amount := encrypted
    simp only [ChannelTx.signingDigest, found, Option.bind_eq_bind, Option.bind_some]
    exact ⟨_, rfl⟩
  obtain ⟨tx, signedTx⟩ := txDigest
  refine ⟨updateInputs .inChannelTransfer s s' 0 1 (hashMember D key)
    (hashMember D key') tx, ?_⟩
  change w.verify D .shown = _
  simp only [InChannelTransferUpdateWitness.verify, InChannelTransferUpdateWitness.verifyParties,
    verifyStateLinkage, verifyBalanceStateCommon, verifyBalanceStateShared,
    verifyOrdinaryStateMetadata, verifyParticipants, requireSmallBlockUnchanged, requireH2Zero,
    requireChainUnchanged, requireAccumulatorUnchanged, ensureSameChannelFund, ensureSameU256,
    ensureSameRoot, verifyNextStateSignatures, requireHomomorphicAdd, ensureRowUnchangedExcept,
    requirePendingAddIncrement, requirePendingAddsUnchangedExcept, requirePendingAddsReset, bind_ok,
    mapError_ok, revertIf_ok, forM_ok, exists_unit, getOrRevert_ok, pure_ok,
    BalanceState.validate_ok_iff, not_and, not_or, not_not]
  exact ⟨⟨keys, ⟨rfl, rfl, rfl, digest, fits.digest, rfl, digest', hashed', rfl⟩,
    ⟨⟨⟨⟨rfl, rfl⟩, ⟨rfl, rfl⟩, rfl⟩, canonical, canonical', ⟨rfl, rfl, rfl⟩,
      rfl, rfl, rfl⟩, rfl, rfl⟩, rfl, rfl, rfl, rfl, rfl, rfl, rfl, signed, key, rfl, key', rfl,
      Nat.zero_ne_one, rfl, rfl, cons_ne_nil _ _⟩, tx, signedTx, tokenZero, rfl,
    ⟨firstToken (coin 0) .padding, rfl, coin 2, addCiphertexts_coin (by decide),
      firstToken (coin 2) .padding, rfl, rfl⟩, ⟨_, rfl, _, rfl, same⟩,
      ⟨_, rfl, _, rfl, same⟩,
    frozen.1, ⟨firstToken 0 0, rfl, firstToken 1 0, rfl,
      show ¬ maxHomoAddsBeforeRefresh ≤ 0 by decide, rfl, _, rfl, _, rfl, same⟩,
    ⟨firstToken 0 0, rfl, rfl⟩, ⟨_, rfl, _, rfl, same⟩, frozen.2, paddingPk, rfl,
      paddingPk, rfl,
    firstToken (coin 5) .padding, rfl, firstToken (coin 3) .padding, rfl, rfl,
    firstToken (coin 2) .padding, rfl, rfl, rfl⟩

theorem exists_transfer [OfLimbs B] {key key' : B} (key_ne : key ≠ zeroBytes D)
    (key'_ne : key' ≠ zeroBytes D) (distinct : key ≠ key')
    (hashed : ∀ items, keccak (D := D) items ≠ zeroBytes D) :
    ∃ (s s' : ChannelState B) (t : ChannelTransition D B), Accepts .shown s t s' ∧
      AddsValues coinValue t ∧ hiddenBalances coinValue s tokenZero = 5 ∧
        s'.balanceState.ct (1, tokenZero) = coin 2 := by
  obtain ⟨items, keys⟩ := exists_keyRoot (D := D) (B := B)
  have signed : validateAllMemberSignatures D (pairRecord D 1 key key' (keccak (D := D) items))
      (pairSignatures key key') = .ok () := pairSignatures_valid (pairRecord_validate (by decide)
      key_ne key'_ne distinct (hashed items))
  obtain ⟨digest, digest', accepted⟩ := transfer_accepted (keys _ rfl)
  refine ⟨_, _, .inChannelTransfer _, ⟨rfl, rfl, accepted _ signed⟩, ?_,
    hiddenBalances_pair, rfl⟩
  -- The only addition is that of the two coins to an empty position.
  rintro slot delta about ⟨⟩ ⟨⟩ sum same
  cases (addCiphertexts_coin (show (0 : BitVec 32).toNat + (2 : BitVec 32).toNat < _ by
    decide)).symm.trans same
  rfl

/-- The transfer of two coins conserves the value of the only token. -/
theorem channel_value_conserved_transfer :
    ∃ (s s' : ChannelState Free.Bytes) (t : ChannelTransition Free.Digest Free.Bytes),
      Path (Accepts .shown) s [t] s' ∧ hiddenBalances coinValue s tokenZero = 5 ∧
        s'.balanceState.ct (1, tokenZero) = coin 2 ∧
          ∀ token, hiddenBalances coinValue s' token + unallocatedSum [t] token -
            (s'.channelFund.amounts token).val =
              hiddenBalances coinValue s token - (s.channelFund.amounts token).val := by
  obtain ⟨s, s', t, accepts, adds, five, two⟩ := exists_transfer (D := Free.Digest)
    (show Free.Bytes.word 1 ≠ _ by nofun) (show Free.Bytes.word 2 ≠ _ by nofun) (by decide)
    (fun items => show Free.Bytes.keccak _ ≠ Free.Bytes.ofDigest _ by nofun)
  have all : ∀ t' ∈ [t], AddsValues coinValue t' := by
    intro t' member
    rw [List.mem_singleton.mp member]
    exact adds
  exact ⟨s, s', t, .single accepts, five, two,
    (channel_value_conserved (.single accepts) Backends.shown_sound all).1⟩

end Intmax.Channel
