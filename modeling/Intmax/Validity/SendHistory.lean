import Intmax.Validity.Progress

/-! # The send history of every channel -/

namespace Intmax.Validity

open Checked Hashing Trees Transition Free Function List ChannelEvent Account UpdateUserTree

section
variable {D B : Type} [Hashing D B] [DecidableEq D] [DecidableEq B] {accounts : Nat → Account B}
  {s s' : TreeState D} {events : List (ChannelEvent D B)}

/-! ## Where entries come from -/

/-- The tree behind a block's transaction root holds a transaction of the channel with this
    nonce: somebody has opened it, and every tree with this root has it at the channel's index. -/
def TxTreeHolds (D : Type) {B : Type} [Hashing D B] [DecidableEq D] (txTreeRoot : B) (c : ChannelId)
    (nonce : BitVec 32) : Prop :=
  (∃ (tx : TxV2 D) (proof : MerkleProof D),
    proof.verify tx (asU64 c) (reduceToHashOut txTreeRoot) = .ok () ∧ tx.nonce = nonce) ∧
  ∀ height (leaves : Nat → TxV2 D), reduceToHashOut txTreeRoot = treeRoot D height leaves →
    c.toNat < 2 ^ height ∧ (leaves c.toNat).nonce = nonce

variable {w : UpdateUserTree D B} {a : Account B} {more : List (ChannelEvent D B)} {c : ChannelId}
  {leaves leaves' : Nat → ChannelLeaf D}

omit [DecidableEq B] in
theorem UpdateUserTree.Sends.txTreeHolds (free : CollisionFree D) (sends : w.Sends a) :
    TxTreeHolds D w.block.txTreeRoot w.block.channelId (BitVec.ofNat 32 a.sends.length) := by
  obtain ⟨tx, proof, opened, nonce⟩ := sends.tx
  refine ⟨⟨tx, proof, opened, nonce⟩, fun height leaves behind => ?_⟩
  rw [behind] at opened
  obtain ⟨inside, same, -⟩ := MerkleProof.verify_leaf free opened
  rw [asU64_toNat] at inside same
  exact ⟨inside, same ▸ nonce⟩

/-- The block of the run that an entry is of. -/
def EntryOf (events : List (ChannelEvent D B)) (c : ChannelId) (i : Nat)
    (entry : SendLeaf B) : Prop :=
  ∃ w, .block w ∈ events ∧ w.block.channelId = c ∧ w.blockNumber = entry.cur ∧
    w.block.txTreeRoot = entry.txTreeRoot ∧
    TxTreeHolds D entry.txTreeRoot c (BitVec.ofNat 32 i)

omit [DecidableEq B] in
theorem EntryOf.mono {events : List (ChannelEvent D B)} {i : Nat} {entry : SendLeaf B}
    (known : EntryOf events c i entry) : EntryOf (events ++ more) c i entry := by
  obtain ⟨w, member, rest⟩ := known
  exact ⟨w, mem_append_left _ member, rest⟩

theorem entries_of_blocks (free : CollisionFree D)
    (run : Path Accepted (TreeState.start D) events s) :
    ∀ (c : ChannelId) (i : Nat) (entry : SendLeaf B),
      (accountsAfter events c.toNat).sends[i]? = some entry → EntryOf events c i entry := by
  refine run.history (I := fun events _ => ∀ (c : ChannelId) (i : Nat) (entry : SendLeaf B),
    (accountsAfter events c.toNat).sends[i]? = some entry → EntryOf events c i entry) ?_ ?_
  · intro c i entry held
    simp [accountsAfter, fresh] at held
  · intro events s event s' before known accepted c i entry held
    rw [accountsAfter_append] at held
    have refines := Refines.run free before
    cases event with
    | register w =>
      -- the registered account has no entries yet
      by_cases here : c.toNat = w.record.channelId.toNat
      · simp [apply, here, registered] at held
      · simp only [apply, update_of_ne here] at held
        exact (known c i entry held).mono
    | block w =>
      obtain ⟨start, later, pis, accepted, rfl⟩ := accepted
      rcases w.toPublicInputs_ok free refines.ok later (start.trans refines.root) accepted with
        ⟨idle, -⟩ | ⟨active, sends, -⟩
      · simp only [apply, idle, Bool.false_eq_true, if_false] at held
        exact (known c i entry held).mono
      · simp only [apply, active, if_true, sent] at held
        by_cases here : c.toNat = w.channel
        · obtain rfl : c = w.block.channelId := BitVec.eq_of_toNat_eq here
          rw [here, update_self, append, getElem?_append] at held
          split at held
          case isTrue old => exact (known _ i entry (here ▸ held)).mono
          case isFalse new =>
            -- the entry is the one that this block adds
            rw [getElem?_singleton] at held
            split at held
            case isTrue last =>
              cases held
              have position : i = (accountsAfter events w.channel).sends.length := by omega
              refine ⟨w, by simp, rfl, rfl, rfl, ?_⟩
              rw [position]
              exact sends.txTreeHolds free
            case isFalse => cases held
        · rw [update_of_ne here] at held
          exact (known c i entry held).mono

/-! ## The number of sends -/

/-- The sends that a channel has made in a run. -/
def sendsMade (events : List (ChannelEvent D B)) (c : ChannelId) : Nat :=
  events.countP fun
    | .block w => w.active && w.block.channelId == c
    | .register _ => false

theorem sends_length (free : CollisionFree D) (run : Path Accepted (TreeState.start D) events s)
    (c : ChannelId) : (accountsAfter events c.toNat).sends.length = sendsMade events c := by
  refine run.history (I := fun events _ =>
    (accountsAfter events c.toNat).sends.length = sendsMade events c) rfl ?_
  intro events s event s' before known accepted
  rw [accountsAfter_append, sendsMade, countP_append, ← sendsMade, ← known]
  cases event with
  | register w =>
    -- a registration needs an empty account, so the fresh one has as many sends: none
    obtain ⟨start, pis, accepted, rfl⟩ := accepted
    have fresh := ((Refines.run free before).register free start accepted).1
    by_cases here : c.toNat = w.record.channelId.toNat
    · simp [apply, here, fresh, registered, Account.fresh]
    · simp [apply, update_of_ne here]
  | block w =>
    by_cases active : w.active = true
    · by_cases here : c = w.block.channelId
      · subst here
        simp [apply, active, sent, UpdateUserTree.channel, append]
      · -- a block of another channel is neither counted nor entered here
        have apart : c.toNat ≠ w.channel := fun same => here (BitVec.eq_of_toNat_eq same)
        simp [apply, active, sent, update_of_ne apart, Ne.symm here]
    · simp [apply, active]

/-! ## The history behind a leaf -/

/-- The sends behind the leaf of a channel.  The index counts them modulo its width. -/
structure SendHistory (events : List (ChannelEvent D B)) (c : ChannelId) (leaf : ChannelLeaf D)
    (sends : List (SendLeaf B)) : Prop where
  capacity : sends.length ≤ 2 ^ sendTreeHeight
  made : sends.length = sendsMade events c
  index : leaf.index = BitVec.ofNat 32 sends.length
  prev : leaf.prev = lastBlock sends
  tree : ∃ entries : Nat → SendLeaf B, leaf.sendTreeRoot = treeRoot D sendTreeHeight entries
  holds : ∀ entries : Nat → SendLeaf B, leaf.sendTreeRoot =
    treeRoot D sendTreeHeight entries → ∀ i < 2 ^ sendTreeHeight,
      (i < sends.length → sends[i]? = some (entries i)) ∧
      (entries i ≠ Leafable.emptyLeaf D ↔ i < sends.length)
  contiguous : Contiguous D sends
  blocks : ∀ i entry, sends[i]? = some entry → EntryOf events c i entry

omit [DecidableEq B] in
theorem Account.Ok.sendHistory (free : CollisionFree D) {last : Nat} (ok : a.Ok D c.toNat last)
    (made : a.sends.length = sendsMade events c)
    (blocks : ∀ i entry, a.sends[i]? = some entry → EntryOf events c i entry) :
    SendHistory events c (a.leaf D) a.sends where
  capacity := ok.room
  made := made
  index := rfl
  prev := rfl
  tree := ⟨_, rfl⟩
  holds entries behind i inside := by
    have same : listLeaves D a.sends i = entries i := treeRoot_injective free behind i inside
    rw [← same]
    refine ⟨fun below => ?_, ?_⟩
    · simp [listLeaves, below]
    · rw [Ne, listLeaves_eq_empty_iff ok.contiguous, not_le]
  contiguous := ok.contiguous
  blocks := blocks

/-- The index is the number of sends, and the entries stand exactly below it. -/
structure IndexCounts (events : List (ChannelEvent D B)) (c : ChannelId) (leaf : ChannelLeaf D) :
    Prop where
  index : leaf.index.toNat = sendsMade events c
  positions : ∀ entries : Nat → SendLeaf B,
    leaf.sendTreeRoot = treeRoot D sendTreeHeight entries →
      ∀ i < 2 ^ sendTreeHeight, entries i ≠ Leafable.emptyLeaf D ↔ i < leaf.index.toNat

omit [DecidableEq B] in
theorem SendHistory.indexCounts {leaf : ChannelLeaf D} {sends : List (SendLeaf B)}
    (history : SendHistory events c leaf sends) (few : sendsMade events c < 2 ^ 32) :
    IndexCounts events c leaf := by
  have index : leaf.index.toNat = sendsMade events c := by
    rw [history.index, history.made, BitVec.toNat_ofNat, Nat.mod_eq_of_lt few]
  refine ⟨index, fun entries behind i inside => ?_⟩
  rw [index, ← history.made]
  exact (history.holds entries behind i inside).2

/-- What a block changes: at most one entry, of its own channel, and the signature chain when it
    adds one. -/
structure BlockEffect (w : UpdateUserTree D B) (pis : UpdateUserPublicInputs D B)
    (leaves leaves' : Nat → ChannelLeaf D) : Prop where
  others : ∀ c : ChannelId, c ≠ w.block.channelId → leaves' c.toNat = leaves c.toNat
  members : ∀ c : ChannelId,
    (leaves' c.toNat).memberPubkeysRoot = (leaves c.toNat).memberPubkeysRoot
  entry : (leaves' w.channel = leaves w.channel ∧ pis.newBpSigChain = w.prevBpSigChain) ∨
    ((∃ a : Account B, leaves w.channel = a.leaf D ∧
      leaves' w.channel = (a.append (w.entry a)).leaf D) ∧
      w.Folds w.prevBpSigChain pis.newBpSigChain)

theorem Refines.blockEffect (free : CollisionFree D) (refines : Refines accounts s)
    {pis : UpdateUserPublicInputs D B} (start : w.prevAccountTreeRoot = s.root)
    (later : s.last < w.blockNumber.val) (accepted : w.toPublicInputs = .ok pis)
    (behind : s.root = treeRoot D channelTreeHeight leaves)
    (behind' : pis.newAccountTreeRoot = treeRoot D channelTreeHeight leaves') :
    BlockEffect w pis leaves leaves' := by
  have before := refines.leaf_eq free behind
  have after (c : ChannelId) := (refines.block free start later accepted).leaf_eq free behind' c
  rcases w.toPublicInputs_ok free refines.ok later (start.trans refines.root) accepted with
    ⟨idle, -, chain⟩ | ⟨active, -, folds, -⟩
  · simp only [apply, idle, Bool.false_eq_true, if_false] at after
    have same (c : ChannelId) : leaves' c.toNat = leaves c.toNat := (after c).trans (before c).symm
    exact ⟨fun c _ => same c, fun c => by rw [same], .inl ⟨same w.block.channelId, chain⟩⟩
  · simp only [apply, active, if_true, sent] at after
    have others (c : ChannelId) (apart : c ≠ w.block.channelId) :
        leaves' c.toNat = leaves c.toNat := by
      rw [after, before, update_of_ne]
      exact fun same => apart (BitVec.eq_of_toNat_eq same)
    have own := after w.block.channelId
    rw [show w.block.channelId.toNat = w.channel from rfl, update_self] at own
    refine ⟨others, fun c => ?_, .inr ⟨⟨_, before w.block.channelId, own⟩, folds⟩⟩
    by_cases here : c = w.block.channelId
    · subst here
      rw [before, show w.block.channelId.toNat = w.channel from rfl, own]
      rfl
    · rw [others c here]

/-- What a registration changes: the untouched leaf of its channel. -/
structure RegistrationEffect (w : ChannelRegStepWitness D B)
    (leaves leaves' : Nat → ChannelLeaf D) :
    Prop where
  others : ∀ c : ChannelId, c ≠ w.record.channelId → leaves' c.toNat = leaves c.toNat
  untouched : leaves w.record.channelId.toNat = Leafable.emptyLeaf D
  members : (leaves' w.record.channelId.toNat).memberPubkeysRoot =
    treeRoot D memberTreeHeight (registeredLeaves D w.record)
  registered : (leaves' w.record.channelId.toNat).memberPubkeysRoot ≠ emptyMemberRoot D

theorem Refines.registrationEffect (free : CollisionFree D) (refines : Refines accounts s)
    {w : ChannelRegStepWitness D B} {pis : ChannelRegChainPublicInputs D B}
    (start : w.prevRoot = some s.root) (accepted : w.toPublicInputs = .ok pis)
    (behind : s.root = treeRoot D channelTreeHeight leaves)
    (behind' : pis.channelTreeRoot = treeRoot D channelTreeHeight leaves') :
    RegistrationEffect w leaves leaves' := by
  obtain ⟨fresh, refines'⟩ := refines.register free start accepted
  have before := refines.leaf_eq free behind
  have after (c : ChannelId) := refines'.leaf_eq free behind' c
  simp only [apply] at after
  have own := after w.record.channelId
  rw [update_self, registered_leaf] at own
  have valid := (w.toPublicInputs_ok free accepted
    (start.trans (congrArg some (refines.root.trans rfl)))).1
  refine ⟨fun c apart => ?_, ?_, ?_, ?_⟩
  · rw [after, before, update_of_ne]
    exact fun same => apart (BitVec.eq_of_toNat_eq same)
  · rw [before, fresh, fresh_leaf]
  · rw [own]
    rfl
  · rw [own]
    exact valid.root_ne_empty free

/-- A registration stays as it is, and there is no second one. -/
theorem Refines.registration_stays (free : CollisionFree D) (refines : Refines accounts s)
    (run : Path Accepted s more s') {c : Nat} {record : ChannelRegRecord B}
    (registered : (accounts c).registration = some record) :
    ∃ accounts', Refines accounts' s' ∧ (accounts' c).registration = some record ∧
      ∀ w, .register w ∈ more → w.record.channelId.toNat ≠ c := by
  induction run with
  | nil => exact ⟨accounts, refines, registered, by simp⟩
  | @snoc t u ls event _ accepted ih =>
    obtain ⟨accounts', refines', kept, none⟩ := ih
    -- a registration finds its account fresh, so it is of another channel
    have apart (w : ChannelRegStepWitness D B) (here : event = .register w) :
        w.record.channelId.toNat ≠ c := by
      subst here
      obtain ⟨start, pis, accepted, rfl⟩ := accepted
      have fresh := (refines'.register free start accepted).1
      rintro rfl
      rw [fresh] at kept
      cases kept
    refine ⟨event.apply accounts', refines'.step free accepted, ?_, ?_⟩
    · cases event with
      | block w =>
        simp only [apply]
        split
        case isTrue =>
          by_cases here : c = w.channel
          · subst here
            rw [sent, update_self]
            exact kept
          · rw [sent, update_of_ne here]
            exact kept
        case isFalse => exact kept
      | register w =>
        rw [apply, update_of_ne (apart w rfl).symm]
        exact kept
    · intro w member
      rcases mem_append.mp member with earlier | last
      · exact none w earlier
      · exact apart w (mem_singleton.mp last).symm

/-- After any run, behind the leaf of every channel there is its whole send history, counted by
    the index where no channel has made `2 ^ 32` sends; a block adds at most one entry, to its own
    channel, and a registered member root stays for ever. -/
theorem channel_send_history (free : CollisionFree D)
    (run : Path ChannelEvent.Accepted (TreeState.start D) events s) :
    (∃ leaves : Nat → ChannelLeaf D, s.root = treeRoot D channelTreeHeight leaves) ∧
    ∀ leaves : Nat → ChannelLeaf D, s.root = treeRoot D channelTreeHeight leaves →
      (∀ c : ChannelId, ∃ sends, SendHistory events c (leaves c.toNat) sends) ∧
      ((∀ c, sendsMade events c < 2 ^ 32) →
        ∀ c : ChannelId, IndexCounts events c (leaves c.toNat)) ∧
      (∀ w s', (ChannelEvent.block w).Accepted s s' → ∀ leaves' : Nat → ChannelLeaf D,
        s'.root = treeRoot D channelTreeHeight leaves' →
          ∃ pis, w.toPublicInputs = .ok pis ∧ BlockEffect w pis leaves leaves') ∧
      (∀ w s', (ChannelEvent.register w).Accepted s s' → ∀ leaves' : Nat → ChannelLeaf D,
        s'.root = treeRoot D channelTreeHeight leaves' → RegistrationEffect w leaves leaves') ∧
      ∀ more s', Path ChannelEvent.Accepted s more s' → ∀ leaves' : Nat → ChannelLeaf D,
        s'.root = treeRoot D channelTreeHeight leaves' → ∀ c : ChannelId,
          (leaves c.toNat).memberPubkeysRoot ≠ emptyMemberRoot D →
          (leaves' c.toNat).memberPubkeysRoot = (leaves c.toNat).memberPubkeysRoot ∧
          ∀ w, .register w ∈ more → w.record.channelId ≠ c := by
  have refines := Refines.run free run
  have histories (c : ChannelId) := (refines.ok c.toNat).sendHistory free (sends_length free run c)
    (entries_of_blocks free run c)
  refine ⟨⟨_, refines.root⟩, fun leaves behind =>
    ⟨fun c => ?_, fun few c => ?_, ?_, ?_, ?_⟩⟩
  · rw [refines.leaf_eq free behind]
    exact ⟨_, histories c⟩
  · rw [refines.leaf_eq free behind]
    exact (histories c).indexCounts (few c)
  · rintro w s' ⟨start, later, pis, accepted, rfl⟩ leaves' behind'
    exact ⟨pis, accepted, refines.blockEffect free start later accepted behind behind'⟩
  · rintro w s' ⟨start, pis, accepted, rfl⟩ leaves' behind'
    exact refines.registrationEffect free start accepted behind behind'
  · intro more s' later leaves' behind' c taken
    rw [refines.leaf_eq free behind] at taken ⊢
    cases registration : (accountsAfter events c.toNat).registration with
    | none => simp [Account.leaf, Account.memberRoot, registration] at taken
    | some record =>
      obtain ⟨accounts', refines', kept, none⟩ :=
        refines.registration_stays free later registration
      refine ⟨?_, fun w member same => none w member (congrArg BitVec.toNat same)⟩
      rw [refines'.leaf_eq free behind']
      simp only [Account.leaf, Account.memberRoot, registration, kept]

end

/-- A registered channel that has sent once. -/
theorem channel_send_history_sample :
    ∃ (events : List (ChannelEvent Digest Free.Bytes)) (s : TreeState Digest)
      (leaves : Nat → ChannelLeaf Digest) (sends : List (SendLeaf Free.Bytes)),
      Path ChannelEvent.Accepted (TreeState.start Digest) events s ∧
      s.root = treeRoot Digest channelTreeHeight leaves ∧
      SendHistory events 1 (leaves 1) sends ∧ IndexCounts events 1 (leaves 1) ∧
      (leaves 1).index = 1 := by
  obtain ⟨events, s, run, -, registered, length, steps⟩ := exists_sample_run 1 (by decide)
  have refines := Refines.run collisionFree run
  obtain ⟨histories, counts, -⟩ := (channel_send_history collisionFree run).2 _ refines.root
  obtain ⟨sends, history⟩ := histories 1
  refine ⟨events, s, _, sends, run, refines.root, history, counts (fun c => ?_) 1, ?_⟩
  · have few : sendsMade events c ≤ 2 := countP_le_length.trans steps.le
    omega
  · simp [Account.leaf, length]

/-- The 32-bit index wraps around: after `2 ^ 32` sends it is zero while position 0 holds an
    entry. -/
theorem send_index_wraps :
    ∃ (events : List (ChannelEvent Digest Free.Bytes)) (s : TreeState Digest)
      (leaves : Nat → ChannelLeaf Digest) (entries : Nat → SendLeaf Free.Bytes),
      Path ChannelEvent.Accepted (TreeState.start Digest) events s ∧
      s.root = treeRoot Digest channelTreeHeight leaves ∧
      (leaves 1).sendTreeRoot = treeRoot Digest sendTreeHeight entries ∧
      (leaves 1).index = 0 ∧ entries 0 ≠ Leafable.emptyLeaf Digest := by
  obtain ⟨events, s, run, -, registered, length, -⟩ :=
    exists_sample_run (2 ^ sendTreeHeight) (le_refl _)
  have refines := Refines.run collisionFree run
  refine ⟨events, s, _, _, run, refines.root, rfl, ?_, ?_⟩
  · rw [Account.leaf, length]
    rfl
  · rw [Ne, listLeaves_eq_empty_iff (refines.ok 1).contiguous, length]
    decide

end Intmax.Validity
