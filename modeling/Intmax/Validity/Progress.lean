import Intmax.Trees.Roots
import Intmax.Validity.Runs

/-! # A registered channel can send

As long as its send tree has room, the members of a registered channel can add an entry with a
block of their own.
-/

namespace Intmax.Validity

open Checked Hashing Trees Transition List IncrementalMerkleTree Account UpdateUserTree ChannelEvent

section
variable {D B : Type} [Hashing D B]

/-- The transaction of an honest send and the tree with it alone. -/
def plainTx (D : Type) {B : Type} [Hashing D B] (nonce : BitVec 32) : TxV2 D :=
  { (Leafable.emptyLeaf D : TxV2 D) with nonce }

def plainTxTree (D : Type) {B : Type} [Hashing D B] (c : ChannelId) (nonce : BitVec 32) :
    Nat → TxV2 D :=
  Function.update (fun _ => Leafable.emptyLeaf D) c.toNat (plainTx D nonce)

/-- A channel state in which nothing is set. -/
def plainFields (D : Type) {B : Type} [Hashing D B] : ChannelStateMessageFields B :=
  { epoch := 0, smallBlockNumber := 0, closeFreezeNonce := 0, fundAmounts := fun _ => 0
    fundIntmaxStateRoot := zeroBytes D, balanceStateH1 := zeroBytes D
    sharedNativeNullifierRoot := zeroBytes D, unallocatedConfirmedIncoming := 0
    prevDigest := zeroBytes D, stateVersion := 0 }

/-- The block of an honest send: the registered members sign, slot 0 posts. -/
def honestBlock (root : D) (number : BlockNumber) (c : ChannelId) (record : ChannelRegRecord B)
    (pk : RegevPk) (leaf : ChannelLeaf D) (userProof sendProof txProof : MerkleProof D) :
    UpdateUserTree D B :=
  { prevBlockHashChain := zeroBytes D
    prevAccountTreeRoot := root
    blockNumber := number
    block :=
      { numUsers := 1, channelId := c, timestamp := 0, keyIds := [1]
        txTreeRoot := ofDigest (treeRoot D channelTreeHeight (plainTxTree D c leaf.index))
        depositHashChain := zeroBytes D, channelRegHashChain := zeroBytes D }
    prevAccountLeaves := [leaf]
    userMerkleProofs := [userProof]
    sendMerkleProofs := [sendProof]
    prevBpSigChain := zeroBytes D
    memberLeaves := (List.range maxSigCluster).map (registeredLeaves D record)
    newMemberLeaves := []
    signerCount := record.memberCount
    memberRegevPks := [pk]
    channelStateFields := plainFields D
    txV2Indices := [asU64 c]
    txV2s := [plainTx D leaf.index]
    txV2MerkleProofs := [txProof]
    channelActionIndices := [0]
    channelActions := [Leafable.emptyLeaf D]
    channelActionMerkleProofs := [⟨[]⟩] }

theorem toDigest_zero : (toDigest (zeroBytes D : B) : Option D) = some zeroDigest :=
  (toDigest_eq_some _ _).mpr ofDigest_zero

variable [DecidableEq D] [DecidableEq B]

variable {record : ChannelRegRecord B}

/-- The registered members pass the check of the signers. -/
theorem checkNOfNWitness_honest {w : UpdateUserTree D B} {leaf : ChannelLeaf D} {pk : RegevPk}
    (valid : record.Valid D) (nonzero : w.block.txTreeRoot ≠ zeroBytes D)
    (count : w.signerCount = record.memberCount)
    (leaves : w.memberLeaves = (range maxSigCluster).map (registeredLeaves D record))
    (root : leaf.memberPubkeysRoot = treeRoot D memberTreeHeight (registeredLeaves D record))
    (keys : w.memberRegevPks = [pk])
    (key : pk.poseidonDigest = some (registeredLeaves D record 0).regevPkDigest) :
    w.checkNOfNWitness 0 leaf = .ok () := by
  have two_le := valid.two_le
  have le_slots := valid.le_slots
  obtain ⟨tree, pushed⟩ : ∃ tree, (new (MemberLeaf D) memberTreeHeight :
      IncrementalMerkleTree D _).pushAll w.memberLeaves = some tree := by
    refine (new_faithful _).exists_pushAll ?_ ?_
    · exact (by decide : memberTreeHeight ≤ 63)
    · rw [leaves, length_map, length_range]
      exact (by decide : 0 + maxSigCluster ≤ 2 ^ memberTreeHeight)
  have treeRoot_eq : tree.getRoot = leaf.memberPubkeysRoot := by
    rw [pushAll_getRoot pushed, root, leaves]
    refine Merkle.root_congr fun slot below => ?_
    congr 1
    simp [listLeaves, show slot < maxSigCluster from below]
  have slots : ∀ member ∈ w.memberLeaves.zipIdx,
      member.1 = registeredLeaves D record member.2 := by
    rintro ⟨member, slot⟩ held
    rw [leaves, mk_mem_zipIdx_iff_getElem?] at held
    obtain ⟨k, found, rfl⟩ := Option.map_eq_some_iff.mp (getElem?_map ▸ held)
    rw [getElem?_eq_some_iff] at found
    obtain ⟨inside, rfl⟩ := found
    rw [getElem_range]
  simp only [checkNOfNWitness, bind_ok, revertIf_ok, exists_unit, forM_ok, getOrRevert_ok, count]
  refine ⟨nonzero, by decide, by omega, ?_, by omega, tree, pushed, by simp [treeRoot_eq], pk,
    by simp [keys], _, key, registeredLeaves D record 0, by simp [leaves, maxSigCluster], by simp⟩
  intro member held
  have here := slots member held
  constructor
  · rintro ⟨above, apart⟩
    apply apart
    rw [here, registeredLeaves, if_neg (not_lt.mpr above)]
  · rintro ⟨below, zero⟩
    rw [here] at zero
    exact valid.pkG_ne_zero below zero

omit [DecidableEq D] [DecidableEq B] in
theorem ofDigest_treeRoot_ne_zero {V : Type} [Leafable D V]
    (nodes : ∀ a b : D, twoToOne a b ≠ zeroDigest) (height : Nat) (leaves : Nat → V) :
    (ofDigest (treeRoot D (height + 1) leaves) : B) ≠ zeroBytes D := by
  rw [Ne, ofDigest_eq_zero]
  exact nodes _ _

/-- A registered channel with room in its send tree can add an entry. -/
theorem Refines.exists_send {accounts : Nat → Account B} {s : TreeState D}
    (refines : Refines accounts s) (nodes : ∀ a b : D, twoToOne a b ≠ zeroDigest)
    {c : ChannelId}
    (nonzero : c ≠ 0) (registered : (accounts c.toNat).registration = some record) {pk : RegevPk}
    (key : pk.poseidonDigest = some (registeredLeaves D record 0).regevPkDigest)
    (room : (accounts c.toNat).sends.length < 2 ^ sendTreeHeight) (number : BlockNumber)
    (later : s.last < number.val) :
    ∃ w s', (ChannelEvent.block w).Accepted s s' ∧ w.active = true ∧ w.channel = c.toNat ∧
      w.blockNumber = number := by
  have valid := ((refines.ok c.toNat).valid record registered).1
  set leaf := (accounts c.toNat).leaf D with leaf_eq
  have index : (asU64 leaf.index).toNat = (accounts c.toNat).sends.length := by
    rw [asU64_toNat]
    exact (BitVec.toNat_ofNat _ _).trans (Nat.mod_eq_of_lt room)
  have inside : (asU64 c).toNat < 2 ^ channelTreeHeight := by
    rw [asU64_toNat]
    exact c.isLt
  -- the three openings
  obtain ⟨userProof, opened, -⟩ := exists_proof (D := D) channelTreeHeight
    (fun c => (accounts c).leaf D) inside
  obtain ⟨sendProof, empty, -⟩ := exists_proof (D := D) sendTreeHeight
    (listLeaves D (accounts c.toNat).sends) (index ▸ room)
  obtain ⟨txProof, held, -⟩ := exists_proof (D := D) channelTreeHeight
    (plainTxTree D c leaf.index) inside
  rw [asU64_toNat] at opened
  rw [index, (listLeaves_eq_empty_iff (refines.ok c.toNat).contiguous _).mpr (le_refl _)] at empty
  rw [plainTxTree, asU64_toNat, Function.update_self, ← plainTxTree] at held
  have root : leaf.memberPubkeysRoot = treeRoot D memberTreeHeight (registeredLeaves D record) := by
    simp only [leaf_eq, Account.leaf, Account.memberRoot, registered]
  have fresh : leaf.prev ≠ number := by
    intro same
    have bounded := (refines.ok c.toNat).bounded
    rw [← Account.leaf_prev (D := D), ← leaf_eq, same] at bounded
    omega
  let w := honestBlock s.root number c record pk leaf userProof sendProof txProof
  have signed : w.checkNOfNWitness 0 leaf = .ok () :=
    checkNOfNWitness_honest valid (ofDigest_treeRoot_ne_zero nodes _ _) rfl rfl root rfl key
  obtain ⟨p', sent⟩ : ∃ p', w.send 0 leaf userProof
      { accountTreeRoot := s.root, bpSigChain := zeroBytes D } = .ok p' := by
    simp only [send, bind_ok, revertIf_ok, exists_unit,
      getOrRevert_ok, mapError_ok, pure_ok, not_not]
    refine ⟨_, signed, _, toDigest_zero, _, rfl, _, rfl, _, rfl, rfl, ?_, rfl, ?_, _,
      rfl, empty, rfl⟩
    · exact (reduceToHashOut_ofDigest (treeRoot D channelTreeHeight
        (plainTxTree D c leaf.index))).symm ▸ held
    · simp [checkTxClass, plainTx, Leafable.emptyLeaf]
  have slot : w.updateSlot 0 1 { accountTreeRoot := s.root, bpSigChain := zeroBytes D } =
      .ok p' := by
    rw [updateSlot, if_neg (by decide)]
    simp only [bind_ok, revertIf_ok, exists_unit, getOrRevert_ok, mapError_ok]
    refine ⟨nonzero, leaf, rfl, userProof, rfl, refines.root ▸ opened, ?_⟩
    rw [if_neg (show leaf.prev ≠ w.blockNumber from fresh)]
    exact sent
  obtain ⟨pis, accepted⟩ : ∃ pis, w.toPublicInputs = .ok pis := by
    simp only [toPublicInputs, bind_ok, revertIf_ok, exists_unit, getOrRevert_ok, pure_ok, not_not]
    refine ⟨_, by simp [w, honestBlock, lengthsMatch], _, rfl, ?_, rfl, p', ?_, rfl⟩
    · simp [w, honestBlock]
    · exact bind_ok.mpr ⟨p', slot, rfl⟩
  exact ⟨w, _, ⟨rfl, later, pis, accepted, rfl⟩, rfl, rfl, rfl⟩

omit [DecidableEq D] [DecidableEq B] in
/-- The members of a valid record fit into their tree. -/
theorem exists_memberPubkeysRootFor (valid : record.Valid D) :
    ∃ root, memberPubkeysRootFor D record = some root := by
  have slots : record.memberCount.toNat ≤ record.members.length :=
    record.members_length ▸ valid.le_slots
  obtain ⟨tree, pushed⟩ : ∃ tree, (new (MemberLeaf D) memberTreeHeight :
      IncrementalMerkleTree D _).pushAll
        ((record.members.take record.memberCount.toNat).map MemberRegEntry.leaf) = some tree := by
    refine (new_faithful _).exists_pushAll ?_ ?_
    · exact (by decide : memberTreeHeight ≤ 63)
    · rw [length_map, length_take, min_eq_left slots]
      exact (zero_add _).trans_le valid.le_slots
  have cosigners_only : record.delegateCount.toNat = 0 := by
    rw [valid.no_delegates]
    rfl
  refine ⟨tree.getRoot, ?_⟩
  simp only [memberPubkeysRootFor, cosigners_only, add_zero, slots, if_true, pushed,
    Option.bind_eq_bind, Option.bind_some]

/-- A valid record of a channel that nobody has registered can be registered. -/
theorem Refines.exists_registration {accounts : Nat → Account B} {s : TreeState D}
    (refines : Refines accounts s) (accepted : record.validate D = .ok ())
    (fresh : accounts record.channelId.toNat = .fresh) :
    ∃ w s', (ChannelEvent.register w).Accepted s s' ∧ w.record = record ∧
      s'.last = s.last := by
  have valid := ChannelRegRecord.validate_ok accepted
  have inside : (asU64 record.channelId).toNat < 2 ^ channelTreeHeight := by
    rw [asU64_toNat]
    exact record.channelId.isLt
  obtain ⟨proof, opened, -⟩ := exists_proof (D := D) channelTreeHeight
    (fun c => (accounts c).leaf D) inside
  rw [asU64_toNat, fresh, fresh_leaf] at opened
  obtain ⟨members, root⟩ := exists_memberPubkeysRootFor valid
  let w : ChannelRegStepWitness D B :=
    { initialValue := some (zeroBytes D, s.root, 0), prevChannelRegChainProof := none, record
      channelMerkleProof := proof, blockNumber := 0 }
  obtain ⟨pis, step⟩ : ∃ pis, w.toPublicInputs = .ok pis := by
    simp only [ChannelRegStepWitness.toPublicInputs, bind_ok, mapError_ok, exists_unit,
      getOrRevert_ok, pure_ok]
    exact ⟨_, accepted, _, rfl, refines.root ▸ opened, _, root, _, rfl, rfl⟩
  exact ⟨w, _, ⟨rfl, pis, step, rfl⟩, rfl, rfl⟩

end

/-! ## A channel of two members -/

/-- `RegevPk::padding`. -/
def sampleRegevPk : RegevPk := { a := List.replicate regevN 0, b := List.replicate regevN 0 }

def sampleRegevPkDigest : Free.Digest :=
  hashInputs ([.elem regevPkPoseidonDomain, .elem regevN] ++ sampleRegevPk.a.map u32Item ++
    sampleRegevPk.b.map u32Item)

theorem sampleRegevPk_digest : sampleRegevPk.poseidonDigest = some sampleRegevPkDigest := by
  have valid : sampleRegevPk.validate = true := by decide +kernel
  simp [RegevPk.poseidonDigest, valid]
  rfl

def sampleMember (k : Nat) : MemberRegEntry Free.Bytes :=
  { pkG := .ofDigest (hashInputs [.elem k]), pkB := .ofDigest (hashInputs [.elem k])
    regevPkDigest := .ofDigest sampleRegevPkDigest, recipient := BitVec.ofNat 160 k }

def sampleRecord : ChannelRegRecord Free.Bytes :=
  { channelId := 1, bpMemberSlot := 0, memberCount := 2, delegateCount := 0
    members := [sampleMember 1, sampleMember 2] ++ List.replicate 6 (.default Free.Digest)
    members_length := rfl }

theorem sampleRecord_validate : sampleRecord.validate Free.Digest = .ok () := by rfl

theorem free_node_ne_zero (a b : Free.Digest) : twoToOne a b ≠ (zeroDigest : Free.Digest) := by
  show Free.Digest.node a b ≠ .zero
  unfold Free.Digest.node
  split
  · cases a <;> simp [Free.Digest.double]
  · simp

/-- The channel can fill its send tree, one entry in each block. -/
theorem exists_sample_run (n : Nat) (room : n ≤ 2 ^ sendTreeHeight) :
    ∃ (events : List (ChannelEvent Free.Digest Free.Bytes)) (s : TreeState Free.Digest),
      Path Accepted (TreeState.start Free.Digest) events s ∧ s.last = n ∧
      (accountsAfter events 1).registration = some sampleRecord ∧
      (accountsAfter events 1).sends.length = n ∧ events.length = n + 1 := by
  induction n with
  | zero =>
    obtain ⟨w, s', accepted, record, last⟩ :=
      Refines.start.exists_registration sampleRecord_validate rfl
    refine ⟨[.register w], s', .single accepted, last, ?_, ?_, rfl⟩
    · simp [accountsAfter, ChannelEvent.apply, record, sampleRecord, registered]
    · simp [accountsAfter, ChannelEvent.apply, record, sampleRecord, registered]
  | succ n ih =>
    obtain ⟨events, s, run, last, registered, length, steps⟩ := ih (by omega)
    have refines := Refines.run Free.collisionFree run
    have small : n + 1 < 2 ^ 63 := lt_of_le_of_lt room (by decide)
    have space : (accountsAfter events (1 : ChannelId).toNat).sends.length <
        2 ^ sendTreeHeight := by
      rw [show (1 : ChannelId).toNat = 1 from rfl, length]
      omega
    have later : s.last < n + 1 := last ▸ lt_add_one n
    obtain ⟨w, s', accepted, active, channel, number⟩ := refines.exists_send (c := 1)
      free_node_ne_zero (by decide) registered sampleRegevPk_digest space ⟨n + 1, small⟩ later
    have same : w.channel = 1 := channel
    refine ⟨events ++ [.block w], s', run.snoc accepted, ?_, ?_, ?_, by simp [steps]⟩
    · obtain ⟨-, -, -, -, rfl⟩ := accepted
      rw [number]
    · simp [accountsAfter_append, ChannelEvent.apply, active, sent, same,
        append, registered]
    · simp [accountsAfter_append, ChannelEvent.apply, active, sent, same,
        append, length]

/-- A channel is never stuck: after every accepted run a registered channel with room in its send
    tree can add an entry in every later block. -/
theorem channel_never_stuck {D B : Type} [Hashing D B] [DecidableEq D] [DecidableEq B]
    (free : CollisionFree D) (nodes : ∀ a b : D, twoToOne a b ≠ zeroDigest)
    {events : List (ChannelEvent D B)} {s : TreeState D} (run : Path Accepted (.start D) events s)
    {c : ChannelId} {record : ChannelRegRecord B} {pk : RegevPk} {number : BlockNumber}
    (known : c ≠ 0)
    (registered : (accountsAfter events c.toNat).registration = some record)
    (key : pk.poseidonDigest = some (registeredLeaves D record 0).regevPkDigest)
    (room : (accountsAfter events c.toNat).sends.length < 2 ^ sendTreeHeight)
    (later : s.last < number.val) :
    ∃ w s' entry, Path Accepted (.start D) (events ++ [.block w]) s' ∧
      w.blockNumber = number ∧ accountsAfter (events ++ [.block w]) =
      Function.update (accountsAfter events) c.toNat
        ((accountsAfter events c.toNat).append entry) := by
  obtain ⟨w, s', step, active, channel, same⟩ :=
    (Refines.run free run).exists_send nodes known registered key room number later
  -- the active slot is the one of `c`, so no other account moves
  refine ⟨w, s', w.entry (accountsAfter events c.toNat), run.snoc step, same, ?_⟩
  rw [accountsAfter_append, apply, if_pos active, sent, channel]

theorem channel_never_stuck_sample :
    ∃ (events : List (ChannelEvent Free.Digest Free.Bytes)) (s : TreeState Free.Digest),
      Path Accepted (.start Free.Digest) events s ∧ (accountsAfter events 1).sends.length = 3 ∧
      ∃ w s', Path Accepted (.start Free.Digest) (events ++ [.block w]) s' ∧
      w.blockNumber = 9 := by
  obtain ⟨events, s, run, last, registered, length, -⟩ := exists_sample_run 3 (by decide)
  have room : (accountsAfter events (1 : ChannelId).toNat).sends.length < 2 ^ sendTreeHeight := by
    show (accountsAfter events 1).sends.length < _
    rw [length]
    decide
  obtain ⟨w, s', -, more, number, -⟩ := channel_never_stuck (c := 1) Free.collisionFree
    free_node_ne_zero run (by decide) registered sampleRegevPk_digest room
    (show s.last < (9 : BlockNumber).val by simp [last])
  exact ⟨events, s, run, length, w, s', more, number⟩

end Intmax.Validity
