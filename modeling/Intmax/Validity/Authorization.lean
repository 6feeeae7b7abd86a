import Intmax.Validity.Progress
import Mathlib.Data.List.Nodup

/-! # Every send is signed by all registered members

The statement that a sending block folds into the signature chain names the whole registered
cluster, whatever leaves and count the prover has witnessed.
-/

namespace Intmax.Validity

open Checked Hashing Trees Transition Function List ChannelEvent

section
variable {D B : Type}

/-- The keys of the active members, in slot order. -/
def ChannelRegRecord.keys (record : ChannelRegRecord B) : List B :=
  (record.members.take record.memberCount.toNat).map MemberRegEntry.pkG

/-- An account's registration is one of the run. -/
theorem registration_of_event (events : List (ChannelEvent D B)) {c : Nat}
    {record : ChannelRegRecord B} (registered : (accountsAfter events c).registration =
      some record) :
    ∃ r, .register r ∈ events ∧ r.record = record := by
  induction events using reverseRecOn with
  | nil => simp [accountsAfter, Account.fresh] at registered
  | append_singleton events event ih =>
    have earlier (same : (accountsAfter events c).registration = some record) :
        ∃ r, .register r ∈ events ++ [event] ∧ r.record = record := by
      obtain ⟨r, member, same⟩ := ih same
      exact ⟨r, mem_append_left _ member, same⟩
    rw [accountsAfter_append] at registered
    cases event with
    | block w =>
      apply earlier
      simp only [apply] at registered
      split at registered
      case isTrue =>
        by_cases here : c = w.channel
        · subst here
          rwa [UpdateUserTree.sent, update_self] at registered
        · rwa [UpdateUserTree.sent, update_of_ne here] at registered
      case isFalse => exact registered
    | register w =>
      by_cases here : c = w.record.channelId.toNat
      · subst here
        rw [apply, update_self] at registered
        exact ⟨w, by simp, Option.some.inj registered⟩
      · rw [apply, update_of_ne here] at registered
        exact earlier registered

variable [Hashing D B]

theorem ChannelRegRecord.Valid.keys_length {record : ChannelRegRecord B} (valid : record.Valid D) :
    record.keys.length = record.memberCount.toNat := by
  rw [keys, length_map, length_take, record.members_length]
  exact min_eq_left valid.le_slots

theorem ChannelRegRecord.Valid.keys_getElem {record : ChannelRegRecord B} (valid : record.Valid D)
    {slot : Nat} (active : slot < record.memberCount.toNat) :
    record.keys[slot]? = some (record.member D slot).pkG := by
  have held : slot < record.members.length :=
    record.members_length ▸ lt_of_lt_of_le active valid.le_slots
  simp [keys, ChannelRegRecord.member, active, held]

theorem ChannelRegRecord.Valid.keys_nodup {record : ChannelRegRecord B} (valid : record.Valid D) :
    record.keys.Nodup := by
  rw [nodup_iff_getElem?_ne_getElem?]
  intro i j less inside
  rw [valid.keys_length] at inside
  rw [valid.keys_getElem (lt_trans less inside), valid.keys_getElem inside, Ne, Option.some.injEq]
  exact valid.distinct i j less inside

namespace UpdateUserTree

variable {w : UpdateUserTree D B} {leaf : ChannelLeaf D} {record : ChannelRegRecord B}

/-- The listed keys are the registered ones, padded with zeros. -/
theorem SignerSlots.keys_eq (free : CollisionFree D) (slots : w.SignerSlots leaf)
    (length : w.memberLeaves.length = maxSigCluster) (valid : record.Valid D)
    (root : leaf.memberPubkeysRoot = treeRoot D memberTreeHeight (registeredLeaves D record)) :
    w.memberLeaves.map (fun leaf => (ofDigest leaf.pkG : B)) =
      record.keys ++ replicate (maxSigCluster - record.keys.length) (zeroBytes D) := by
  have leaves := slots.leaves_eq free root
  have le_slots := valid.le_slots
  apply ext_getElem?
  intro slot
  rw [getElem?_map]
  by_cases inside : slot < maxSigCluster
  · have held : w.memberLeaves[slot]? = some (registeredLeaves D record slot) := by
      rw [← leaves slot inside]
      simp [listLeaves, length, inside]
    rw [held, Option.map_some]
    by_cases active : slot < record.memberCount.toNat
    · rw [getElem?_append_left (valid.keys_length ▸ active), valid.keys_getElem active,
        valid.ofDigest_pkG active]
    · have past : record.keys.length ≤ slot := valid.keys_length ▸ le_of_not_gt active
      have room : slot - record.keys.length < maxSigCluster - record.keys.length := by omega
      rw [getElem?_append_right past, getElem?_replicate, if_pos room, registeredLeaves,
        if_neg active]
      exact congrArg some ofDigest_zero
  · have outside : w.memberLeaves[slot]? = none := getElem?_eq_none (by omega)
    have outside' : (record.keys ++ replicate (maxSigCluster - record.keys.length)
        (zeroBytes D))[slot]? = none := by
      apply getElem?_eq_none
      rw [length_append, length_replicate, valid.keys_length]
      omega
    rw [outside, outside']
    rfl

theorem toPublicInputs_length [DecidableEq D] [DecidableEq B] {pis : UpdateUserPublicInputs D B}
    (accepted : w.toPublicInputs = .ok pis) : w.memberLeaves.length = maxSigCluster := by
  simp [toPublicInputs] at accepted
  obtain ⟨-, chain, -, length, -⟩ := accepted
  exact length

end UpdateUserTree

/-- Padding that is already there changes nothing. -/
theorem aggPkListDigest_padded {keys : List B} (fits : keys.length ≤ maxSigCluster) :
    (aggPkListDigest (keys ++ replicate (maxSigCluster - keys.length) (zeroBytes D)) : D) =
      aggPkListDigest keys := by
  have full : maxSigCluster -
      (keys ++ replicate (maxSigCluster - keys.length) (zeroBytes D)).length = 0 := by
    rw [length_append, length_replicate]
    omega
  simp only [aggPkListDigest, full, replicate_zero, append_nil]

/-- What a sending block folds names exactly the members that its channel has registered. -/
theorem sends_signed_by_all_members [DecidableEq D] [DecidableEq B] (free : CollisionFree D)
    {events : List (ChannelEvent D B)} {s s' : TreeState D}
    (run : Path ChannelEvent.Accepted (TreeState.start D) events s) {w : UpdateUserTree D B}
    (accepted : (ChannelEvent.block w).Accepted s s') (adds : s'.root ≠ s.root) :
    ∃ r, .register r ∈ events ∧ r.record.channelId = w.block.channelId ∧
      w.signerCount = r.record.memberCount ∧
      w.memberLeaves.map (fun leaf => (ofDigest leaf.pkG : B)) =
        r.record.keys ++ List.replicate (maxSigCluster - r.record.keys.length) (zeroBytes D) ∧
      r.record.keys.length = r.record.memberCount.toNat ∧ r.record.keys.Nodup ∧
      ∃ pis, w.toPublicInputs = .ok pis ∧ ∃ chain :
        D, toDigest w.prevBpSigChain = some chain ∧
          pis.newBpSigChain = ofDigest (listChainStep chain
          (aggListLeaf (w.channelStateFields.signingDigest D w.block.channelId w.block.txTreeRoot)
          r.record.memberCount.toNat (aggPkListDigest r.record.keys))) := by
  have refines := Refines.run free run
  obtain ⟨start, later, pis, step, rfl⟩ := accepted
  rcases w.toPublicInputs_ok free refines.ok later (start.trans refines.root) step with
    ⟨-, same, -⟩ | ⟨-, sends, ⟨chain, canonical, folded⟩, -⟩
  · exact absurd (same.trans start) adds
  · have length := UpdateUserTree.toPublicInputs_length step
    cases registration : (accountsAfter events w.channel).registration with
    | none =>
      refine absurd ?_ (sends.signers.registered free)
      simp [Account.leaf, Account.memberRoot, registration]
    | some record =>
      obtain ⟨valid, channel⟩ := (refines.ok w.channel).valid record registration
      obtain ⟨r, member, rfl⟩ := registration_of_event events registration
      have root : ((accountsAfter events w.channel).leaf D).memberPubkeysRoot =
          treeRoot D memberTreeHeight (registeredLeaves D r.record) := by
        simp only [Account.leaf, Account.memberRoot, registration]
      have count := sends.signers.count_eq free valid root
      have keys := sends.signers.keys_eq free length valid root
      have fits : r.record.keys.length ≤ maxSigCluster := valid.keys_length ▸ valid.le_slots
      refine ⟨r, member, BitVec.eq_of_toNat_eq channel, BitVec.eq_of_toNat_eq count, keys,
        valid.keys_length, valid.keys_nodup, pis, step, chain, canonical, ?_⟩
      rw [folded, UpdateUserTree.sigLeaf, keys, aggPkListDigest_padded fits, count]

end

/-- The first send of a registered channel. -/
theorem sends_signed_by_all_members_sample :
    ∃ (events : List (ChannelEvent Free.Digest Free.Bytes)) (s s' : TreeState Free.Digest)
      (w : UpdateUserTree Free.Digest Free.Bytes),
      Path ChannelEvent.Accepted (TreeState.start Free.Digest) events s ∧
      (ChannelEvent.block w).Accepted s s' ∧ s'.root ≠ s.root ∧
      ∃ r, .register r ∈ events ∧ r.record.channelId = w.block.channelId ∧
        w.signerCount = r.record.memberCount := by
  obtain ⟨events, s, run, last, registered, length, -⟩ := exists_sample_run 0 (Nat.zero_le _)
  have refines := Refines.run Free.collisionFree run
  have room : (accountsAfter events (1 : ChannelId).toNat).sends.length < 2 ^ sendTreeHeight := by
    rw [show (1 : ChannelId).toNat = 1 from rfl, length]
    decide
  obtain ⟨w, s', accepted, active, channel, number⟩ :=
    refines.exists_send (c := 1) free_node_ne_zero
    (by decide) registered sampleRegevPk_digest room 1 (last ▸ Nat.one_pos)
  have adds : s'.root ≠ s.root := by
    obtain ⟨start, later, pis, step, rfl⟩ := accepted
    exact refines.block_changes Free.collisionFree start later step active
  obtain ⟨r, member, same, count, -⟩ :=
    sends_signed_by_all_members Free.collisionFree run accepted adds
  exact ⟨events, s, s', w, run, accepted, adds, r, member, same, count⟩

end Intmax.Validity
