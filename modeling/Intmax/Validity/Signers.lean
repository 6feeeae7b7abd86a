import Intmax.Validity.Accounts

/-! # The witnessed signers are the registered members

Neither the count nor the keys of the signers are public.  They are fixed by the member root of
the channel's leaf: the root fixes all slots, and a slot holds a key exactly when it is below
the count.
-/

namespace Intmax.Validity

open Checked Hashing Trees IncrementalMerkleTree

section
variable {D B : Type} [Hashing D B]

theorem ofDigest_eq_zero {d : D} : (ofDigest d : B) = zeroBytes D ↔ d = zeroDigest := by
  rw [← ofDigest_zero (D := D)]
  exact ofDigest_injective.eq_iff

variable {record : ChannelRegRecord B} {slot : Nat}

/-- A registered slot holds a key. -/
theorem ChannelRegRecord.Valid.pkG_ne_zero (valid : record.Valid D)
    (active : slot < record.memberCount.toNat) :
    (registeredLeaves D record slot).pkG ≠ zeroDigest := by
  obtain ⟨nonzero, ⟨d, same⟩, -⟩ := valid.active slot active
  rw [registeredLeaves, if_pos active, MemberRegEntry.leaf, ← same, reduceToHashOut_ofDigest]
  intro zero
  exact nonzero (same ▸ ofDigest_eq_zero.mpr zero)

/-- The key of a registered slot is the one of the record. -/
theorem ChannelRegRecord.Valid.ofDigest_pkG (valid : record.Valid D)
    (active : slot < record.memberCount.toNat) :
    (ofDigest (registeredLeaves D record slot).pkG : B) = (record.member D slot).pkG := by
  obtain ⟨-, ⟨d, same⟩, -⟩ := valid.active slot active
  rw [registeredLeaves, if_pos active, MemberRegEntry.leaf, ← same, reduceToHashOut_ofDigest]

/-- Registered members give a root that is not the empty one. -/
theorem ChannelRegRecord.Valid.root_ne_empty (free : CollisionFree D) (valid : record.Valid D) :
    treeRoot D memberTreeHeight (registeredLeaves D record) ≠ emptyMemberRoot D := by
  intro same
  rw [emptyMemberRoot, new_getRoot] at same
  have first := treeRoot_injective free same 0 (by decide)
  have active : 0 < record.memberCount.toNat := lt_of_lt_of_le two_pos valid.two_le
  exact valid.pkG_ne_zero active (congrArg MemberLeaf.pkG first)

namespace UpdateUserTree

variable {w : UpdateUserTree D B} {i : Nat} {leaf : ChannelLeaf D}

/-- What the check of the signers reads: the root over all slots, and which slots are taken. -/
structure SignerSlots (w : UpdateUserTree D B) (leaf : ChannelLeaf D) : Prop where
  two_le : 2 ≤ w.signerCount.toNat
  le_slots : w.signerCount.toNat ≤ maxSigCluster
  root : treeRoot D memberTreeHeight (listLeaves D w.memberLeaves) = leaf.memberPubkeysRoot
  empty : ∀ slot, w.signerCount.toNat ≤ slot → slot < maxSigCluster →
    listLeaves D w.memberLeaves slot = Leafable.emptyLeaf D
  taken : ∀ slot < w.signerCount.toNat, (listLeaves D w.memberLeaves slot).pkG ≠ zeroDigest

theorem checkNOfNWitness_ok [DecidableEq D] [DecidableEq B]
    (length : w.memberLeaves.length = maxSigCluster)
    (accepted : w.checkNOfNWitness i leaf = .ok ()) : w.SignerSlots leaf := by
  simp only [checkNOfNWitness, bind_ok, revertIf_ok, exists_unit, forM_ok,
    getOrRevert_ok, not_or, not_lt, not_and, not_not, Prod.forall] at accepted
  obtain ⟨-, -, ⟨two_le, le_slots⟩, slots, -, tree, pushed, root, -⟩ := accepted
  have held (slot : Nat) (inside : slot < maxSigCluster) :
      (listLeaves D w.memberLeaves slot, slot) ∈ w.memberLeaves.zipIdx := by
    rw [← length] at inside
    rw [List.mk_mem_zipIdx_iff_getElem?]
    simp [listLeaves, List.getElem?_eq_getElem inside]
  refine ⟨two_le, le_slots, ?_, fun slot above inside => ?_, fun slot below => ?_⟩
  · rw [← pushAll_getRoot pushed, root]
  · exact (slots _ slot (held slot inside)).1 above
  · exact (slots _ slot (held slot (lt_of_lt_of_le below le_slots))).2 below

/-- A channel that nobody registered has no signers. -/
theorem SignerSlots.registered (free : CollisionFree D) (slots : w.SignerSlots leaf) :
    leaf.memberPubkeysRoot ≠ emptyMemberRoot D := by
  intro unregistered
  have same := slots.root.trans unregistered
  rw [emptyMemberRoot, new_getRoot] at same
  have first := treeRoot_injective free same 0 (by decide)
  exact slots.taken 0 (lt_of_lt_of_le two_pos slots.two_le) (congrArg MemberLeaf.pkG first)

variable {record : ChannelRegRecord B}

/-- The witnessed leaves are the registered ones. -/
theorem SignerSlots.leaves_eq (free : CollisionFree D) (slots : w.SignerSlots leaf)
    (root : leaf.memberPubkeysRoot = treeRoot D memberTreeHeight (registeredLeaves D record)) :
    ∀ slot < maxSigCluster, listLeaves D w.memberLeaves slot = registeredLeaves D record slot :=
  treeRoot_injective free (slots.root.trans root)

/-- The witnessed count is the registered one: the first slot past the smaller count would have
    to be empty and taken. -/
theorem SignerSlots.count_eq (free : CollisionFree D) (slots : w.SignerSlots leaf)
    (valid : record.Valid D)
    (root : leaf.memberPubkeysRoot = treeRoot D memberTreeHeight (registeredLeaves D record)) :
    w.signerCount.toNat = record.memberCount.toNat := by
  have leaves := slots.leaves_eq free root
  have hsigners := slots.le_slots
  have hmembers := valid.le_slots
  rcases lt_trichotomy w.signerCount.toNat record.memberCount.toNat with fewer | same | more
  · have inside : w.signerCount.toNat < maxSigCluster := by omega
    have empty := slots.empty _ (le_refl _) inside
    rw [leaves _ inside] at empty
    exact absurd (congrArg MemberLeaf.pkG empty) (valid.pkG_ne_zero fewer)
  · exact same
  · have inside : record.memberCount.toNat < maxSigCluster := by omega
    have taken := slots.taken _ more
    rw [leaves _ inside, registeredLeaves, if_neg (lt_irrefl _)] at taken
    exact absurd rfl taken

end UpdateUserTree

end

end Intmax.Validity
