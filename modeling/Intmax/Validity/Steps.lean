import Intmax.Validity.Signers

/-! # What an accepted block does to the accounts -/

namespace Intmax.Validity

open Checked Hashing Trees Function List Account

section
variable {D B : Type} [Hashing D B]

/-- What holds of the account of channel `c` after the blocks up to `last`. -/
structure Account.Ok (D : Type) {B : Type} [Hashing D B] (a : Account B) (c last : Nat) : Prop where
  contiguous : Contiguous D a.sends
  bounded : (lastBlock a.sends).val ≤ last
  room : a.sends.length ≤ 2 ^ sendTreeHeight
  valid : ∀ record, a.registration = some record → record.Valid D ∧ record.channelId.toNat = c
  silent : a.registration = none → a.sends = []

def AccountsOk (D : Type) {B : Type} [Hashing D B] (accounts : Nat → Account B)
    (last : Nat) : Prop :=
  ∀ c, (accounts c).Ok D c last

theorem AccountsOk.fresh : AccountsOk D (fun _ => (fresh : Account B)) 0 := fun _ =>
  { contiguous := .singleton _
    bounded := le_refl _
    room := Nat.zero_le _
    valid := fun _ registered => nomatch registered
    silent := fun _ => rfl }

theorem Account.Ok.mono {a : Account B} {c last last' : Nat} (ok : a.Ok D c last)
    (later : last ≤ last') : a.Ok D c last' :=
  { ok with bounded := le_trans ok.bounded later }

theorem AccountsOk.update {accounts : Nat → Account B} {c last : Nat} {a : Account B}
    (ok : AccountsOk D accounts last) (new : a.Ok D c last) :
    AccountsOk D (update accounts c a) last := by
  intro k
  by_cases here : k = c
  · rw [here, update_self]
    exact new
  · rw [update_of_ne here]
    exact ok k

/-- The account of a channel right after its registration. -/
def Account.registered (record : ChannelRegRecord B) : Account B :=
  { registration := some record, sends := [] }

theorem Account.registered_ok {record : ChannelRegRecord B} (valid : record.Valid D) (last : Nat) :
    (registered record).Ok D record.channelId.toNat last where
  contiguous := .singleton _
  bounded := Nat.zero_le _
  room := Nat.zero_le _
  valid := by
    rintro record' ⟨⟩
    exact ⟨valid, rfl⟩
  silent := nofun

theorem Account.registered_leaf (record : ChannelRegRecord B) :
    (registered record).leaf D =
      ChannelRegStepWitness.newLeaf (treeRoot D memberTreeHeight (registeredLeaves D record)) := by
  have sends : treeRoot D sendTreeHeight (listLeaves D ([] : List (SendLeaf B))) =
      emptySendRoot D :=
    (IncrementalMerkleTree.new_getRoot sendTreeHeight).symm
  simp only [leaf, registered, memberRoot, sends]
  rfl

theorem Account.Ok.append {a : Account B} {c last : Nat} {entry : SendLeaf B} (ok : a.Ok D c last)
    (registered : a.registration ≠ none) (room : a.sends.length < 2 ^ sendTreeHeight)
    (linked : entry.prev = lastBlock a.sends) (later : last < entry.cur.val) :
    (a.append entry).Ok D c entry.cur.val where
  contiguous := ok.contiguous.append linked (Fin.lt_def.mpr (lt_of_le_of_lt ok.bounded later))
  bounded := by rw [Account.append, lastBlock_append]
  room := by
    rw [Account.append, length_append]
    exact room
  valid := ok.valid
  silent := fun unregistered => absurd unregistered registered

namespace UpdateUserTree

variable {w : UpdateUserTree D B} {a : Account B} {accounts : Nat → Account B} {c last i : Nat}
  {p p' : Progress D B}

/-- The entry that the block adds to an account. -/
def entry (w : UpdateUserTree D B) (a : Account B) : SendLeaf B :=
  { prev := lastBlock a.sends, cur := w.blockNumber, txTreeRoot := w.block.txTreeRoot }

/-- What a block shows when it adds an entry to an account. -/
structure Sends [DecidableEq D] (w : UpdateUserTree D B) (a : Account B) : Prop where
  signers : w.SignerSlots (a.leaf D)
  room : a.sends.length < 2 ^ sendTreeHeight
  tx : ∃ (tx : TxV2 D) (proof : MerkleProof D),
    proof.verify tx (asU64 w.block.channelId) (reduceToHashOut w.block.txTreeRoot) = .ok () ∧
    tx.nonce = BitVec.ofNat 32 a.sends.length

/-- The channel that the block names. -/
def channel (w : UpdateUserTree D B) : Nat := w.block.channelId.toNat

/-- The accounts after the block has added its entry. -/
def sent (w : UpdateUserTree D B) (accounts : Nat → Account B) : Nat → Account B :=
  Function.update accounts w.channel ((accounts w.channel).append (w.entry (accounts w.channel)))

/-- The statement of the block is folded into the signature chain. -/
def Folds (w : UpdateUserTree D B) (before after : B) : Prop :=
  ∃ chain : D, toDigest before = some chain ∧ after = ofDigest (listChainStep chain w.sigLeaf)

/-- The position after the last entry is the only one that can be empty: when the tree is full
    the index has wrapped around to an entry. -/
theorem send_position (free : CollisionFree D) [DecidableEq D] (ok : a.Ok D c last)
    {proof : MerkleProof D}
    (opened : proof.verify (Leafable.emptyLeaf D : SendLeaf B) (asU64 (a.leaf D).index)
      (a.leaf D).sendTreeRoot = .ok ()) :
    a.sends.length < 2 ^ sendTreeHeight ∧ ∀ leaf : SendLeaf B,
      proof.getRoot leaf (asU64 (a.leaf D).index) =
        treeRoot D sendTreeHeight (listLeaves D (a.sends ++ [leaf])) := by
  obtain ⟨-, empty, climbs⟩ := MerkleProof.verify_leaf free opened
  rw [asU64_toNat] at empty climbs
  have index : (a.leaf D).index.toNat = a.sends.length % 2 ^ sendTreeHeight :=
    BitVec.toNat_ofNat _ _
  rw [listLeaves_eq_empty_iff ok.contiguous, index] at empty
  have small : a.sends.length < 2 ^ sendTreeHeight := by
    by_contra full
    have exact_full : a.sends.length = 2 ^ sendTreeHeight := le_antisymm ok.room (not_lt.mp full)
    rw [exact_full, Nat.mod_self] at empty
    exact absurd empty (by decide)
  refine ⟨small, fun leaf => ?_⟩
  rw [climbs, index, Nat.mod_eq_of_lt small, listLeaves_append]

/-- The leaf of an account with one entry more. -/
theorem append_leaf (w : UpdateUserTree D B) (a : Account B) :
    (a.append (w.entry a)).leaf D =
      w.newUserLeaf (a.leaf D) (treeRoot D sendTreeHeight
        (listLeaves D (a.sends ++ [w.entry a]))) := by
  have index : BitVec.ofNat 32 (a.sends ++ [w.entry a]).length =
      BitVec.ofNat 32 a.sends.length + 1 := by
    rw [length_append, length_singleton, BitVec.ofNat_add]
    rfl
  have prev : lastBlock (a.sends ++ [w.entry a]) = w.blockNumber := lastBlock_append _ _
  simp only [leaf, append, index, prev, newUserLeaf]
  rfl

variable [DecidableEq D] [DecidableEq B]

theorem send_ok (free : CollisionFree D) (ok : AccountsOk D accounts last)
    (length : w.memberLeaves.length = maxSigCluster) {userMerkleProof : MerkleProof D}
    (climbs : ∀ leaf : ChannelLeaf D, userMerkleProof.getRoot leaf (asU64 w.block.channelId) =
      treeRoot D channelTreeHeight (update (fun c => (accounts c).leaf D) w.channel leaf))
    (accepted : w.send i ((accounts w.channel).leaf D) userMerkleProof p = .ok p') :
    w.Sends (accounts w.channel) ∧ w.Folds p.bpSigChain p'.bpSigChain ∧
    p'.accountTreeRoot = accountsRoot D (w.sent accounts) := by
  simp only [send, bind_ok, revertIf_ok, exists_unit, getOrRevert_ok,
    mapError_ok, pure_ok, not_not] at accepted
  obtain ⟨signers, chain, canonical, tx, -, txProof, -, txIndex, -, own, inTree, nonce, -,
    sendProof, -, opened, rfl⟩ := accepted
  obtain ⟨room, appends⟩ := send_position free (ok _) opened
  refine ⟨⟨checkNOfNWitness_ok length signers, room, tx, txProof, own ▸ inTree, nonce⟩,
    ⟨chain, canonical, rfl⟩, ?_⟩
  rw [sent, ← accountsRoot_update, append_leaf, climbs, appends]
  rfl

omit [DecidableEq B] in
/-- An active slot opens the leaf of the block's channel. -/
theorem slot_opens (free : CollisionFree D) (root : p.accountTreeRoot = accountsRoot D accounts)
    {leaf : ChannelLeaf D} {proof : MerkleProof D}
    (opened : proof.verify leaf (asU64 w.block.channelId) p.accountTreeRoot = .ok ()) :
    leaf = (accounts w.channel).leaf D ∧
    ∀ leaf' : ChannelLeaf D, proof.getRoot leaf' (asU64 w.block.channelId) =
      treeRoot D channelTreeHeight
        (update (fun c => (accounts c).leaf D) w.channel leaf') := by
  rw [root, accountsRoot] at opened
  obtain ⟨-, same, climbs⟩ := MerkleProof.verify_leaf free opened
  rw [asU64_toNat] at same climbs
  exact ⟨same.symm, climbs⟩

/-- What one slot can do: nothing, or one send of the block's channel. -/
theorem updateSlot_ok (free : CollisionFree D) (ok : AccountsOk D accounts last)
    (length : w.memberLeaves.length = maxSigCluster)
    (root : p.accountTreeRoot = accountsRoot D accounts) {keyId : BitVec 32}
    (accepted : w.updateSlot i keyId p = .ok p') :
    (p' = p ∧ (keyId = 0 ∨
      lastBlock (accounts w.channel).sends = w.blockNumber)) ∨
    keyId ≠ 0 ∧ lastBlock (accounts w.channel).sends ≠ w.blockNumber ∧
    w.Sends (accounts w.channel) ∧ w.Folds p.bpSigChain p'.bpSigChain ∧
    p'.accountTreeRoot = accountsRoot D (w.sent accounts) := by
  unfold updateSlot at accepted
  by_cases padding : keyId = 0
  · rw [if_pos padding] at accepted
    cases accepted
    exact .inl ⟨rfl, .inl padding⟩
  · rw [if_neg padding] at accepted
    simp only [bind_ok, revertIf_ok, exists_unit, getOrRevert_ok, mapError_ok] at accepted
    obtain ⟨-, leaf, -, proof, -, opened, rest⟩ := accepted
    obtain ⟨rfl, climbs⟩ := slot_opens free root opened
    by_cases updated : lastBlock (accounts w.channel).sends = w.blockNumber
    · rw [leaf_prev, if_pos updated] at rest
      cases rest
      exact .inl ⟨rfl, .inr updated⟩
    · rw [leaf_prev, if_neg updated] at rest
      exact .inr ⟨padding, updated, send_ok free ok length climbs rest⟩

/-- Once the block has updated its channel, its other slots do nothing. -/
theorem updateSlots_updated (free : CollisionFree D)
    (root : p.accountTreeRoot = accountsRoot D accounts)
    (updated : lastBlock (accounts w.channel).sends = w.blockNumber)
    {slots : List (BitVec 32 × Nat)} (accepted : w.updateSlots slots p = .ok p') : p' = p := by
  induction slots with
  | nil =>
    cases accepted
    rfl
  | cons slot rest ih =>
    obtain ⟨keyId, i⟩ := slot
    simp only [updateSlots, bind_ok] at accepted
    obtain ⟨next, first, later⟩ := accepted
    have same : next = p := by
      unfold updateSlot at first
      by_cases padding : keyId = 0
      · rw [if_pos padding] at first
        cases first
        rfl
      · rw [if_neg padding] at first
        simp only [bind_ok, revertIf_ok, exists_unit, getOrRevert_ok, mapError_ok] at first
        obtain ⟨-, leaf, -, proof, -, opened, tail⟩ := first
        obtain ⟨rfl, -⟩ := slot_opens free root opened
        rw [leaf_prev, if_pos updated] at tail
        cases tail
        rfl
    subst same
    exact ih later

/-- What all slots of a block can do together. -/
theorem updateSlots_ok (free : CollisionFree D) (ok : AccountsOk D accounts last)
    (length : w.memberLeaves.length = maxSigCluster)
    (root : p.accountTreeRoot = accountsRoot D accounts)
    (fresh : lastBlock (accounts w.channel).sends ≠ w.blockNumber)
    {slots : List (BitVec 32 × Nat)} (accepted : w.updateSlots slots p = .ok p') :
    (p' = p ∧ ∀ slot ∈ slots, slot.1 = 0) ∨
    (∃ slot ∈ slots, slot.1 ≠ 0) ∧
    w.Sends (accounts w.channel) ∧ w.Folds p.bpSigChain p'.bpSigChain ∧
    p'.accountTreeRoot = accountsRoot D (w.sent accounts) := by
  induction slots with
  | nil =>
    cases accepted
    exact .inl ⟨rfl, by simp⟩
  | cons slot rest ih =>
    obtain ⟨keyId, i⟩ := slot
    simp [updateSlots] at accepted
    obtain ⟨next, first, later⟩ := accepted
    rcases updateSlot_ok free ok length root first
      with ⟨rfl, idle⟩ | ⟨active, -, sends, folds, root'⟩
    · have padding : keyId = 0 := idle.resolve_right fresh
      rcases ih later with ⟨same, zeros⟩ | ⟨⟨slot, member, nonzero⟩, sent⟩
      · exact .inl ⟨same, forall_mem_cons.mpr ⟨padding, zeros⟩⟩
      · exact .inr ⟨⟨slot, mem_cons_of_mem _ member, nonzero⟩, sent⟩
    · have updated : lastBlock (w.sent accounts w.channel).sends = w.blockNumber := by
        rw [sent, update_self]
        exact lastBlock_append _ _
      have same := updateSlots_updated free root' updated later
      subst same
      exact .inr ⟨⟨(keyId, i), mem_cons_self, active⟩, sends, folds, root'⟩

/-- Some slot of the block is active. -/
def active (w : UpdateUserTree D B) : Bool := w.block.keyIds.any (· ≠ 0)

/-- What an accepted block does to the accounts: nothing when all its slots are padding,
    otherwise one send of its channel. -/
theorem toPublicInputs_ok (free : CollisionFree D) (ok : AccountsOk D accounts last)
    (later : last < w.blockNumber.val) (root : w.prevAccountTreeRoot = accountsRoot D accounts)
    {pis : UpdateUserPublicInputs D B} (accepted : w.toPublicInputs = .ok pis) :
    (w.active = false ∧ pis.newAccountTreeRoot = w.prevAccountTreeRoot ∧
      pis.newBpSigChain = w.prevBpSigChain) ∨
    (w.active = true ∧ w.Sends (accounts w.channel) ∧
      w.Folds w.prevBpSigChain pis.newBpSigChain ∧
      pis.newAccountTreeRoot = accountsRoot D (w.sent accounts)) := by
  simp [toPublicInputs] at accepted
  obtain ⟨-, chain, -, length, -, p, ran, rfl⟩ := accepted
  have fresh : lastBlock (accounts w.channel).sends ≠ w.blockNumber := by
    intro same
    have bounded := (ok w.channel).bounded
    rw [same] at bounded
    omega
  rcases updateSlots_ok free ok length root fresh ran
    with ⟨rfl, zeros⟩ | ⟨⟨slot, member, nonzero⟩, sent⟩
  · refine .inl ⟨?_, rfl, rfl⟩
    simp [active]
    intro keyId member
    obtain ⟨k, inside, rfl⟩ := getElem_of_mem member
    exact zeros (_, k) (mk_mem_zipIdx_iff_getElem?.mpr (getElem?_eq_getElem inside))
  · refine .inr ⟨?_, sent⟩
    simp [active]
    exact ⟨slot.1, fst_mem_of_mem_zipIdx member, nonzero⟩

end UpdateUserTree

end

end Intmax.Validity
