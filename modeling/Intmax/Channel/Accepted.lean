import Intmax.Channel.Transitions

/-! # What an accepted check says

One lemma for each check of the transition verifiers.  The ciphertexts and counters are read
through `ct` and `adds`, which give each position its value without a bound on the slot.
-/

namespace Intmax.Channel

open Checked Hashing Trees Validity List

/-- A member slot and a token position in its row. -/
abbrev Position := Nat × Fin maxChannelTokens

variable {D B : Type}

namespace BalanceState

def ct (state : BalanceState B) (p : Position) : RegevCiphertext :=
  (state.encBalances[p.1]?.getD fun _ => .padding) p.2

def adds (state : BalanceState B) (p : Position) : BitVec 32 :=
  (state.pendingAdds[p.1]?.getD fun _ => 0) p.2

end BalanceState

variable {prev next : ChannelState B} {record : ChannelRecord B} {index : Nat}
  {tokenSlot : Fin maxChannelTokens} {named : List Nat}

/-! ## Rows -/

theorem ct_of_row {state : BalanceState B} {row : TokenRow RegevCiphertext}
    (found : rowAt state.encBalances index = .ok row) (t : Fin maxChannelTokens) :
    state.ct (index, t) = row t := by
  simp [rowAt] at found
  simp [BalanceState.ct, found]

theorem adds_of_row {state : BalanceState B} {row : TokenRow (BitVec 32)}
    (found : rowAt state.pendingAdds index = .ok row) (t : Fin maxChannelTokens) :
    state.adds (index, t) = row t := by
  simp [rowAt] at found
  simp [BalanceState.adds, found]

theorem ensureSlotUnchanged_ok (accepted : ensureSlotUnchanged prev next index = .ok ())
    (t : Fin maxChannelTokens) :
    next.balanceState.ct (index, t) = prev.balanceState.ct (index, t) := by
  simp only [ensureSlotUnchanged, bind_ok, revertIf_ok, not_not] at accepted
  obtain ⟨before, found, after, found', same⟩ := accepted
  rw [ct_of_row found, ct_of_row found', same]

theorem ensureRowUnchangedExcept_ok
    (accepted : ensureRowUnchangedExcept prev next index tokenSlot = .ok ())
    (t : Fin maxChannelTokens) (other : t ≠ tokenSlot) :
    next.balanceState.ct (index, t) = prev.balanceState.ct (index, t) := by
  simp only [ensureRowUnchangedExcept, bind_ok, forM_ok, revertIf_ok, not_and, not_not] at accepted
  obtain ⟨before, found, after, found', same⟩ := accepted
  rw [ct_of_row found, ct_of_row found', same t (mem_finRange t) other]

theorem requirePendingAddsUnchanged_ok
    (accepted : requirePendingAddsUnchanged prev next index = .ok ()) (t : Fin maxChannelTokens) :
    next.balanceState.adds (index, t) = prev.balanceState.adds (index, t) := by
  simp only [requirePendingAddsUnchanged, bind_ok, revertIf_ok, not_not] at accepted
  obtain ⟨before, found, after, found', same⟩ := accepted
  rw [adds_of_row found, adds_of_row found', same]

theorem requirePendingAddsUnchangedExcept_ok
    (accepted : requirePendingAddsUnchangedExcept prev next index tokenSlot = .ok ())
    (t : Fin maxChannelTokens) (other : t ≠ tokenSlot) :
    next.balanceState.adds (index, t) = prev.balanceState.adds (index, t) := by
  simp only [requirePendingAddsUnchangedExcept, bind_ok, forM_ok, revertIf_ok, not_and,
    not_not] at accepted
  obtain ⟨before, found, after, found', same⟩ := accepted
  rw [adds_of_row found, adds_of_row found', same t (mem_finRange t) other]

theorem requirePendingAddIncrement_ok
    (accepted : requirePendingAddIncrement prev next index tokenSlot = .ok ()) :
    (prev.balanceState.adds (index, tokenSlot)).toNat < maxHomoAddsBeforeRefresh ∧
      next.balanceState.adds (index, tokenSlot) = prev.balanceState.adds (index, tokenSlot) + 1 ∧
      ∀ t, t ≠ tokenSlot →
        next.balanceState.adds (index, t) = prev.balanceState.adds (index, t) := by
  simp only [requirePendingAddIncrement, bind_ok, revertIf_ok, exists_unit, not_not,
    not_le] at accepted
  obtain ⟨before, found, after, found', room, increment, others⟩ := accepted
  refine ⟨?_, ?_, requirePendingAddsUnchangedExcept_ok others⟩
  · rwa [adds_of_row found]
  · rw [adds_of_row found, adds_of_row found', increment]

theorem requirePendingAddsReset_ok {reason : String}
    (accepted : requirePendingAddsReset next index tokenSlot reason = .ok ()) :
    next.balanceState.adds (index, tokenSlot) = 0 := by
  simp only [requirePendingAddsReset, bind_ok, revertIf_ok, not_not] at accepted
  obtain ⟨after, found, reset⟩ := accepted
  rw [adds_of_row found, reset]

theorem requireHomomorphicAdd_ok {name : String} {delta : RegevCiphertext}
    (accepted : requireHomomorphicAdd prev next index tokenSlot name delta = .ok ()) :
    addCiphertexts (prev.balanceState.ct (index, tokenSlot)) delta =
      .ok (next.balanceState.ct (index, tokenSlot)) := by
  simp only [requireHomomorphicAdd, bind_ok, mapError_ok, revertIf_ok, not_not] at accepted
  obtain ⟨before, found, sum, added, after, found', same⟩ := accepted
  rw [ct_of_row found, ct_of_row found', same, added]

/-! ## All slots -/

theorem ensureSlotsUnchanged_ok (accepted : ensureSlotsUnchanged prev next named = .ok ())
    (inside : index < maxChannelMembers) (other : index ∉ named) (t : Fin maxChannelTokens) :
    next.balanceState.ct (index, t) = prev.balanceState.ct (index, t) := by
  simp only [ensureSlotsUnchanged, forM_ok, mem_range] at accepted
  have checked := accepted index inside
  rw [if_neg other] at checked
  exact ensureSlotUnchanged_ok checked t

theorem requireSlotsAddsUnchanged_ok (accepted : requireSlotsAddsUnchanged prev next named = .ok ())
    (inside : index < maxChannelMembers) (other : index ∉ named) (t : Fin maxChannelTokens) :
    next.balanceState.adds (index, t) = prev.balanceState.adds (index, t) := by
  simp only [requireSlotsAddsUnchanged, forM_ok, mem_range] at accepted
  have checked := accepted index inside
  rw [if_neg other] at checked
  exact requirePendingAddsUnchanged_ok checked t

theorem ensureSlotsFrozen_ok (accepted : ensureSlotsFrozen prev next named = .ok ())
    (inside : index < maxChannelMembers) (other : index ∉ named) (t : Fin maxChannelTokens) :
    next.balanceState.ct (index, t) = prev.balanceState.ct (index, t) ∧
      next.balanceState.adds (index, t) = prev.balanceState.adds (index, t) := by
  simp only [ensureSlotsFrozen, forM_ok, mem_range] at accepted
  have checked := accepted index inside
  rw [if_neg other] at checked
  obtain ⟨_, cts, adds⟩ := bind_ok.mp checked
  exact ⟨ensureSlotUnchanged_ok cts t, requirePendingAddsUnchanged_ok adds t⟩

/-! ## Funds -/

theorem requireIncrease_ok {small big : U256} {amount : BitVec 64} {reason : String}
    (accepted : requireIncrease small big amount reason = .ok ()) :
    big.val = small.val + amount.toNat := by
  simp only [requireIncrease, bind_ok, getOrRevert_ok, revertIf_ok, not_not] at accepted
  obtain ⟨sum, added, same⟩ := accepted
  rw [same, u256Add_eq_some.mp added, u64ToU256_val]

theorem ensureFundsUnchangedExcept_ok
    (accepted : ensureFundsUnchangedExcept prev next tokenSlot = .ok ())
    (t : Fin maxChannelTokens) (other : t ≠ tokenSlot) :
    next.channelFund.amounts t = prev.channelFund.amounts t := by
  simp only [ensureFundsUnchangedExcept, forM_ok, revertIf_ok, not_and, not_not] at accepted
  exact (accepted t (mem_finRange t) other).symm

theorem ensureSameU256_ok {name : String} {before after : U256}
    (accepted : ensureSameU256 name before after = .ok ()) : after = before := by
  simp [ensureSameU256] at accepted
  exact accepted.symm

/-! ## Tokens and members -/

theorem memberIndexPubkeyHash_ok {key : B}
    (accepted : memberIndexPubkeyHash record index = .ok key) : index < maxChannelMembers := by
  unfold memberIndexPubkeyHash at accepted
  split at accepted
  case isTrue inside => exact inside
  case isFalse => cases accepted

/-! ## Balance states -/

/-- What `BalanceState::validate` accepts. -/
structure BalanceState.Canonical (D : Type) {B : Type} [Hashing D B] (state : BalanceState B) :
    Prop where
  rows : state.encBalances.length = maxChannelMembers
  counterRows : state.pendingAdds.length = maxChannelMembers
  tokens : 1 ≤ state.tokenCount.toNat ∧ state.tokenCount.toNat ≤ maxChannelTokens
  distinct : ∀ i j : Fin maxChannelTokens, i < j → j.val < state.tokenCount.toNat →
    state.tokenRegistry i ≠ state.tokenRegistry j
  unused : ∀ t : Fin maxChannelTokens, state.tokenCount.toNat ≤ t.val →
    state.tokenRegistry t = 0
  members : 2 ≤ state.memberCount.toNat ∧ state.memberCount.toNat ≤ maxSigCluster
  fits : state.active ≤ maxChannelMembers
  ciphertexts : ∀ (index : Nat) (row : TokenRow RegevCiphertext),
    state.encBalances[index]? = some row → ∀ t : Fin maxChannelTokens,
      (row t).validate = .ok () ∧ (state.active ≤ index → row t = .padding) ∧
        (state.tokenCount.toNat ≤ t.val → row t = .padding)
  keys : ∀ i : Fin maxChannelMembers, state.active ≤ i.val →
    state.regevPkDigests i = zeroBytes D
  exits : ∀ i : Fin maxChannelMembers, (i.val < state.active → state.recipients i ≠ 0) ∧
    (state.active ≤ i.val → state.recipients i = 0)
  counters : ∀ (index : Nat) (row : TokenRow (BitVec 32)),
    state.pendingAdds[index]? = some row → ∀ t : Fin maxChannelTokens,
      (row t).toNat ≤ maxHomoAddsBeforeRefresh ∧ (state.active ≤ index → row t = 0) ∧
        (state.tokenCount.toNat ≤ t.val → row t = 0)

namespace BalanceState

variable {state : BalanceState B}

theorem validateCiphertext_ok_iff {t : Fin maxChannelTokens} {ct : RegevCiphertext} :
    state.validateCiphertext index t ct = .ok () ↔ ct.validate = .ok () ∧
      (state.active ≤ index → ct = .padding) ∧
        (state.tokenCount.toNat ≤ t.val → ct = .padding) := by
  simp [validateCiphertext]

theorem validateAdds_ok_iff {t : Fin maxChannelTokens} {adds : BitVec 32} :
    state.validateAdds index t adds = .ok () ↔ adds.toNat ≤ maxHomoAddsBeforeRefresh ∧
      (state.active ≤ index → adds = 0) ∧
      (state.tokenCount.toNat ≤ t.val → adds = 0) := by
  simp [validateAdds]

theorem validateRegistry_ok_iff : state.validateRegistry = .ok () ↔
    (∀ i j : Fin maxChannelTokens, i < j → j.val < state.tokenCount.toNat →
      state.tokenRegistry i ≠ state.tokenRegistry j) ∧
    ∀ t : Fin maxChannelTokens, state.tokenCount.toNat ≤ t.val →
      state.tokenRegistry t = 0 := by
  simp only [validateRegistry, bind_ok, forM_ok, revertIf_ok, exists_unit, not_and,
    not_not, mem_finRange, forall_const, ne_eq]

variable [Hashing D B] [DecidableEq B]

theorem validate_ok_iff : state.validate D = .ok () ↔ state.Canonical D := by
  simp only [validate, bind_ok, forM_ok, revertIf_ok, exists_unit,
    validateRegistry_ok_iff, validateCiphertext_ok_iff, validateAdds_ok_iff, mem_finRange,
    forall_const, not_or, not_and, not_not, not_lt, ne_eq]
  -- The loops over the rows number them; a numbered row is a lookup.
  constructor
  · rintro ⟨⟨rows, counterRows⟩, tokens, ⟨distinct, unused⟩, members, fits,
      ciphertexts, keys, exits, counters⟩
    exact
      { rows, counterRows, tokens, distinct, unused, members, fits, keys, exits
        ciphertexts := fun index row found =>
          ciphertexts (row, index) (mem_zipIdx_iff_getElem?.mpr found)
        counters := fun index row found =>
          counters (row, index) (mem_zipIdx_iff_getElem?.mpr found) }
  · intro c
    exact ⟨⟨c.rows, c.counterRows⟩, c.tokens, ⟨c.distinct, c.unused⟩, c.members, c.fits,
      fun entry numbered => c.ciphertexts _ _ (mem_zipIdx_iff_getElem?.mp numbered), c.keys,
      c.exits, fun entry numbered => c.counters _ _ (mem_zipIdx_iff_getElem?.mp numbered)⟩

end BalanceState

/-! ## Comparisons -/

variable [Hashing D B] [DecidableEq B]

theorem ensureSameChannelFund_ok (accepted : ensureSameChannelFund prev next = .ok ()) :
    next.channelFund = prev.channelFund := by
  simp [ensureSameChannelFund] at accepted
  exact accepted.symm

theorem verifyStateLinkage_ok (accepted : verifyStateLinkage D prev next = .ok ()) :
    next.channelId = prev.channelId ∧ next.epoch = prev.epoch + 1 := by
  simp [verifyStateLinkage] at accepted
  exact ⟨accepted.1.symm, accepted.2.1⟩

end Intmax.Channel
