import Intmax.Rollup.Checkpoints
import Intmax.Rollup.Encodings
import Intmax.Validity.RegistrationCircuit
import Intmax.Validity.Progress

/-! # Registrations on chain and in the circuit

`registerChannel` folds a registration into the pending chain for good, and every later block
needs a proof of it.  The contract's checks on the identities are those of
`ChannelRegRecord::validate`, its preimage is that of `hash_with_prev_hash`, and its one-time
mapping keeps the channel's leaf untouched until the registration is proved.
-/

namespace Intmax.Rollup

open Checked Transition Validity Trees Hashing

/-! ## The record of a call -/

def MemberSlot.toEntry (slot : MemberSlot) : MemberRegEntry Bytes32 :=
  { pkG := slot.pkG, pkB := slot.pkB, regevPkDigest := slot.regevPkDigest
    recipient := slot.recipient }

def MemberSlot.ofEntry (entry : MemberRegEntry Bytes32) : MemberSlot :=
  { pkG := entry.pkG, pkB := entry.pkB, regevPkDigest := entry.regevPkDigest
    recipient := entry.recipient }

theorem length_paddedSlots (members : List MemberSlot) :
    (paddedSlots members).length = maxChannelMembers := by
  rw [paddedSlots, List.length_map, List.length_range]

/-- The record with the fields of the call, padded with zeros to the fixed width. -/
def RegisterChannelArgs.toRecord (args : RegisterChannelArgs) : ChannelRegRecord Bytes32 :=
  { channelId := args.channelId
    bpMemberSlot := args.bpMemberSlot.setWidth 32
    memberCount := BitVec.ofNat 32 args.memberPkGs.length
    delegateCount := args.delegateCount.setWidth 32
    members := (paddedSlots args.members).map MemberSlot.toEntry
    members_length := by
      rw [List.length_map, length_paddedSlots]
      rfl }

/-- The record of an accepted registration: no delegates. -/
def ChannelRegistration.toRecord (reg : ChannelRegistration) : ChannelRegRecord Bytes32 :=
  { channelId := reg.channelId
    bpMemberSlot := reg.bpMemberSlot.setWidth 32
    memberCount := BitVec.ofNat 32 reg.members.length
    delegateCount := 0
    members := (paddedSlots reg.members).map MemberSlot.toEntry
    members_length := by
      rw [List.length_map, length_paddedSlots]
      rfl }

end Intmax.Rollup

namespace Intmax.Validity.ChannelRegRecord

open Rollup

/-- The active members of a record. -/
def activeMembers (record : ChannelRegRecord Bytes32) : List (MemberRegEntry Bytes32) :=
  record.members.take record.memberCount.toNat

/-- The call that registers a record. -/
def toArgs (record : ChannelRegRecord Bytes32) : RegisterChannelArgs :=
  { channelId := record.channelId
    bpMemberSlot := record.bpMemberSlot.setWidth 8
    delegateCount := record.delegateCount.setWidth 8
    memberPkGs := record.activeMembers.map (·.pkG)
    pkBs := record.activeMembers.map (·.pkB)
    regevPkDigests := record.activeMembers.map (·.regevPkDigest)
    recipients := record.activeMembers.map (·.recipient) }

end Intmax.Validity.ChannelRegRecord

namespace Intmax.Rollup

open Checked Transition Validity Trees Hashing

/-! ## The contract's checks -/

theorem canonicalLimbs_iff {x : Bytes32} :
    canonicalLimbs x = true ↔ ∃ d : PoseidonHashOut, d.toBytes32 = x := by
  have words : canonicalLimbs x = true ↔ PoseidonHashOut.element x 0 < goldilocksOrder ∧
      PoseidonHashOut.element x 1 < goldilocksOrder ∧
      PoseidonHashOut.element x 2 < goldilocksOrder ∧
      PoseidonHashOut.element x 3 < goldilocksOrder := by
    simp only [canonicalLimbs, List.all_cons, List.all_nil, Bool.and_true, Bool.and_eq_true,
      decide_eq_true_eq, Nat.shiftRight_eq_div_pow]
    constructor
    · rintro ⟨h3, h2, h1, h0⟩
      exact ⟨h0, h1, h2, h3⟩
    · rintro ⟨h0, h1, h2, h3⟩
      exact ⟨h3, h2, h1, h0⟩
  rw [words]
  constructor
  · intro canonical
    exact ⟨_, (PoseidonHashOut.tryFrom_eq_some x _).mp (dif_pos canonical)⟩
  · rintro ⟨d, rfl⟩
    obtain ⟨h0, h1, h2, h3⟩ := PoseidonHashOut.elements_toBytes32 d
    rw [h0, h1, h2, h3]
    exact ⟨d.e0.isLt, d.e1.isLt, d.e2.isLt, d.e3.isLt⟩

/-- What `_requireValidIdentities` asks of a member. -/
structure MemberSlot.Valid (m : MemberSlot) : Prop where
  pkG : m.pkG ≠ 0
  regevPkDigest : m.regevPkDigest ≠ 0
  recipient : m.recipient ≠ 0
  pkG_canonical : ∃ d : PoseidonHashOut, d.toBytes32 = m.pkG
  pkB_canonical : ∃ d : PoseidonHashOut, d.toBytes32 = m.pkB
  regevPkDigest_canonical : ∃ d : PoseidonHashOut, d.toBytes32 = m.regevPkDigest

theorem validIdentities_iff {m : MemberSlot} : validIdentities m = true ↔ m.Valid := by
  simp [validIdentities, canonicalLimbs_iff]
  constructor
  · rintro ⟨⟨⟨⟨⟨pkG, regev⟩, recipient⟩, canonG⟩, canonB⟩, canonRegev⟩
    exact ⟨pkG, regev, recipient, canonG, canonB, canonRegev⟩
  · rintro ⟨pkG, regev, recipient, canonG, canonB, canonRegev⟩
    exact ⟨⟨⟨⟨⟨pkG, regev⟩, recipient⟩, canonG⟩, canonB⟩, canonRegev⟩

theorem checkMembers_ok_iff {members : List MemberSlot} :
    checkMembers members = .ok () ↔
      (∀ m ∈ members, m.Valid) ∧ members.Pairwise fun m n => m.pkG ≠ n.pkG := by
  induction members with
  | nil => simp [checkMembers]
  | cons m rest ih =>
    have apart : (rest.any fun n => n.pkG == m.pkG) = false ↔
        ∀ n ∈ rest, m.pkG ≠ n.pkG := by
      simp
      exact forall₂_congr fun n _ => not_congr eq_comm
    simp only [checkMembers, bind_ok, revertIf_ok, exists_unit, Bool.not_eq_false, Bool.not_eq_true,
      validIdentities_iff, apart, ih, List.mem_cons, forall_eq_or_imp, List.pairwise_cons]
    constructor
    · rintro ⟨valid, others, rest, pairs⟩
      exact ⟨⟨valid, rest⟩, others, pairs⟩
    · rintro ⟨⟨valid, rest⟩, others, pairs⟩
      exact ⟨valid, others, rest, pairs⟩

/-! ## An accepted call gives a valid record -/

/-- The words of one slot of the preimage. -/
def MemberSlot.words (slot : MemberSlot) : List Nat :=
  PublicInputs.toU64Vec 8 slot.pkG ++ (PublicInputs.toU64Vec 8 slot.pkB ++
    (PublicInputs.toU64Vec 8 slot.regevPkDigest ++ PublicInputs.toU64Vec 5 slot.recipient))

theorem packMemberSlot_eq_bytes (slot : MemberSlot) :
    packMemberSlot slot = Words.bytes slot.words := by
  simp [packMemberSlot, MemberSlot.words, PublicInputs.packBytes32_eq_bytes,
    PublicInputs.packAddress_eq_bytes]

/-- The hash of a registration on both sides. -/
theorem ChannelRegistration.toRecord_hashWithPrevHash [Keccak] [Poseidon]
    (reg : ChannelRegistration) (prevHash : Bytes32) :
    reg.toRecord.hashWithPrevHash PoseidonHashOut prevHash = channelRegHash prevHash reg := by
  have slots : (reg.toRecord.members.flatMap fun m =>
      ([.bytes m.pkG, .bytes m.pkB, .bytes m.regevPkDigest] ++ addressItems m.recipient :
        List (Item PoseidonHashOut Bytes32))).flatMap Item.words =
      (paddedSlots reg.members).flatMap MemberSlot.words := by
    rw [toRecord, List.flatMap_map, List.flatMap_assoc]
    apply List.flatMap_congr
    intro slot _
    simp [MemberSlot.toEntry, MemberSlot.words, words_addressItems]
  simp only [ChannelRegRecord.hashWithPrevHash, Hashing.keccak, List.flatMap_append,
    List.flatMap_cons, List.flatMap_nil, Item.words_bytes, words_u32Item, slots, channelRegHash,
    channelRegPreimage, PublicInputs.packBytes32_eq_bytes, PublicInputs.packUint32_eq_bytes,
    PublicInputs.flatMap_eq_bytes packMemberSlot_eq_bytes, ← Words.bytes_append,
    PublicInputs.hashWords]
  simp [toRecord]

namespace RegisterChannelArgs

variable {args : RegisterChannelArgs}

theorem length_members (args : RegisterChannelArgs) :
    args.members.length = args.memberPkGs.length := by
  rw [members, List.length_map, List.length_range]

section
variable [Keccak] [Poseidon]

/-- A slot of the record is that of the call, or zero. -/
theorem toRecord_member {i : Nat} (slot : i < maxSigCluster) :
    args.toRecord.member PoseidonHashOut i = (args.members.getD i paddingSlot).toEntry := by
  have width : i < maxChannelMembers := slot
  simp [ChannelRegRecord.member, toRecord, paddedSlots, width]

theorem toRecord_valid (two_le : minChannelMembers ≤ args.memberPkGs.length)
    (le_slots : args.memberPkGs.length ≤ maxChannelMembers) (noDelegates : args.delegateCount = 0)
    (bp : args.bpMemberSlot.toNat < args.memberPkGs.length)
    (checked : checkMembers args.members = .ok ()) :
    args.toRecord.validate PoseidonHashOut = .ok () := by
  obtain ⟨valid, apart⟩ := checkMembers_ok_iff.mp checked
  have count : args.toRecord.memberCount.toNat = args.memberPkGs.length := by
    refine (BitVec.toNat_ofNat _ _).trans (Nat.mod_eq_of_lt ?_)
    exact lt_of_le_of_lt le_slots (by decide)
  have slot : args.toRecord.bpMemberSlot.toNat = args.bpMemberSlot.toNat := by
    rw [toRecord, BitVec.toNat_setWidth, Nat.mod_eq_of_lt]
    exact lt_trans args.bpMemberSlot.isLt (by decide)
  have active {i : Nat} (below : i < args.memberPkGs.length) :
      args.toRecord.member PoseidonHashOut i =
        (args.members.get ⟨i, args.length_members ▸ below⟩).toEntry := by
    have held : i < args.members.length := args.length_members ▸ below
    rw [toRecord_member (lt_of_lt_of_le below le_slots)]
    simp [held]
  refine ChannelRegRecord.validate_ok_iff.mpr ⟨
    { two_le := count ▸ two_le
      le_slots := count ▸ le_slots
      no_delegates := by
        simp only [toRecord, noDelegates]
        rfl
      active := fun i below => ?_
      distinct := fun i j less below => ?_
      padding := fun i above inside => ?_ }, by rwa [count, slot]⟩
  · rw [count] at below
    have held := valid _ (args.members.get_mem ⟨i, args.length_members ▸ below⟩)
    rw [active below]
    exact ⟨held.pkG, held.pkG_canonical, held.pkB_canonical, held.regevPkDigest_canonical⟩
  · rw [count] at below
    rw [active below, active (lt_trans less below)]
    exact List.pairwise_iff_get.mp apart _ _ less
  · rw [count, ← args.length_members] at above
    rw [toRecord_member inside, List.getD_eq_default _ _ above]
    rfl

theorem toRecord_hashWithPrevHash (prevHash : Bytes32) (noDelegates : args.delegateCount = 0) :
    args.toRecord.hashWithPrevHash PoseidonHashOut prevHash =
      channelRegHash prevHash args.registration := by
  rw [← ChannelRegistration.toRecord_hashWithPrevHash]
  simp only [toRecord, ChannelRegistration.toRecord, registration, length_members, noDelegates]
  rfl

end

end RegisterChannelArgs

/-! ## One registration per channel -/

def channelIds (regs : List ChannelRegistration) : List ChannelId := regs.map (·.channelId)

section
variable [Keccak] {cfg : Config} {events : List Event} {s s' : Rollup}

/-- What a registration leaves in the one-time mapping. -/
def ChannelRegistration.commitment (reg : ChannelRegistration) : Bytes32 :=
  closeMemberSetCommitment (reg.members.map (·.pkG))

/-- The intake against the registrations so far: an id is used once, and the mapping knows it. -/
structure OneTime (regs : List ChannelRegistration) (i : Intake) : Prop where
  count : i.channelRegCount = regs.length
  distinct : (channelIds regs).Nodup
  unused : ∀ c, i.channelMemberSetCommitment c = 0 ↔ c ∉ channelIds regs

theorem OneTime.move {regs added : List ChannelRegistration} {i i' : Intake}
    (oneTime : OneTime regs i) (move : IntakeMove added i i')
    (fresh : ∀ reg ∈ added, i.channelMemberSetCommitment reg.channelId = 0)
    (nonzero : ∀ reg ∈ added, reg.commitment ≠ 0) : OneTime (regs ++ added) i' := by
  cases move with
  | stay =>
    rw [List.append_nil]
    exact oneTime
  | deposit recorded =>
    obtain ⟨-, rfl⟩ := Intake.recordDeposit_ok recorded
    rw [List.append_nil]
    exact ⟨oneTime.count, oneTime.distinct, oneTime.unused⟩
  | @registration reg i i' _ recorded =>
    obtain ⟨-, rfl⟩ := Intake.recordRegistration_ok recorded
    have new : reg.channelId ∉ channelIds regs :=
      (oneTime.unused _).mp (fresh reg (List.mem_singleton_self reg))
    have ids : channelIds (regs ++ [reg]) = channelIds regs ++ [reg.channelId] := by
      simp [channelIds]
    refine ⟨?_, ?_, fun c => ?_⟩
    · simp [Intake.recordPendingChainsCheckpoint, oneTime.count]
    · rw [ids, List.nodup_append]
      refine ⟨oneTime.distinct, List.nodup_singleton _, ?_⟩
      intro c old c' same
      rw [List.mem_singleton.mp same]
      rintro rfl
      exact new old
    · rw [ids, List.mem_append, List.mem_singleton, not_or]
      by_cases same : c = reg.channelId
      · subst same
        simp [Intake.recordPendingChainsCheckpoint]
        exact nonzero reg (List.mem_singleton_self reg)
      · simp [Intake.recordPendingChainsCheckpoint, same]
        exact oneTime.unused c

theorem Step.unregistered {e : Event} (step : Step cfg s e s') :
    ∀ reg ∈ e.registered, s.intake.channelMemberSetCommitment reg.channelId = 0 := by
  obtain ⟨env, call, outcome⟩ := e
  obtain ⟨σ, sat, world, j, j', ran⟩ := step
  intro reg member
  cases call with
  | registerChannel args =>
    obtain ⟨-, -, fresh, -⟩ := registerChannel_ok (quiet_ok ran).1
    rw [List.mem_singleton.mp member]
    exact fresh
  | _ => cases member

theorem Run.oneTime (run : Run cfg events s)
    (nonzero : ∀ reg ∈ registrations events, reg.commitment ≠ 0) :
    OneTime (registrations events) s.intake := by
  have kept : (∀ reg ∈ registrations events, reg.commitment ≠ 0) →
      OneTime (registrations events) s.intake := by
    refine run.history (I := fun events s => (∀ reg ∈ registrations events,
      reg.commitment ≠ 0) → OneTime (registrations events) s.intake) ?_ ?_
    · intro _
      exact ⟨rfl, List.nodup_nil, fun c => by simp [initial, channelIds, registrations,
        Intake.recordPendingChainsCheckpoint]⟩
    · intro events s e s' _ before step nonzero
      have split : registrations (events ++ [e]) = registrations events ++ e.registered := by
        simp [registrations]
      rw [split] at nonzero ⊢
      exact (before fun reg member => nonzero reg (List.mem_append_left _ member)).move step.intake
        step.unregistered fun reg member => nonzero reg (List.mem_append_right _ member)
  exact kept nonzero

omit [Keccak] in
/-- There are no more registrations than ids. -/
theorem OneTime.count_le {regs : List ChannelRegistration} {i : Intake} (oneTime : OneTime regs i) :
    regs.length ≤ 2 ^ 32 := by
  have distinct : ((channelIds regs).map BitVec.toNat).Nodup :=
    oneTime.distinct.map fun _ _ => BitVec.eq_of_toNat_eq
  have inside : (channelIds regs).map BitVec.toNat ⊆ List.range (2 ^ 32) := by
    intro n member
    obtain ⟨c, -, rfl⟩ := List.mem_map.mp member
    exact List.mem_range.mpr c.isLt
  have length := (distinct.subperm inside).length_le
  rwa [List.length_range, List.length_map, channelIds, List.length_map] at length

end

/-! ## A valid record gives an accepted call -/

section
variable {record : ChannelRegRecord Bytes32}

theorem toArgs_members (record : ChannelRegRecord Bytes32) :
    record.toArgs.members = record.activeMembers.map MemberSlot.ofEntry := by
  apply List.ext_getElem
  · simp [RegisterChannelArgs.members, ChannelRegRecord.toArgs]
  · intro i inside _
    have held : i < record.activeMembers.length := by
      simpa [RegisterChannelArgs.members, ChannelRegRecord.toArgs] using inside
    simp [RegisterChannelArgs.members, ChannelRegRecord.toArgs, MemberSlot.ofEntry, held]

variable [Keccak] [Poseidon]

theorem length_activeMembers (valid : record.Valid PoseidonHashOut) :
    record.activeMembers.length = record.memberCount.toNat := by
  rw [ChannelRegRecord.activeMembers, List.length_take, record.members_length,
    min_eq_left valid.le_slots]

theorem activeMembers_getElem (valid : record.Valid PoseidonHashOut) {i : Nat}
    (inside : i < record.activeMembers.length) :
    record.activeMembers[i] = record.member PoseidonHashOut i := by
  have held : i < record.members.length := by
    rw [length_activeMembers valid] at inside
    exact record.members_length ▸ lt_of_lt_of_le inside valid.le_slots
  simp [ChannelRegRecord.activeMembers, ChannelRegRecord.member, held]

/-- The members of a valid record pass the contract's checks once their recipients and Regev
    digests are not zero. -/
theorem toArgs_checkMembers (valid : record.Valid PoseidonHashOut)
    (payable : ∀ i < record.memberCount.toNat,
      (record.member PoseidonHashOut i).recipient ≠ 0 ∧
      (record.member PoseidonHashOut i).regevPkDigest ≠ 0) :
    checkMembers record.toArgs.members = .ok () := by
  rw [checkMembers_ok_iff, toArgs_members]
  constructor
  · intro m member
    obtain ⟨entry, held, rfl⟩ := List.mem_map.mp member
    obtain ⟨i, inside, rfl⟩ := List.getElem_of_mem held
    rw [activeMembers_getElem valid inside]
    rw [length_activeMembers valid] at inside
    obtain ⟨nonzero, pkG, pkB, regev⟩ := valid.active i inside
    exact ⟨nonzero, (payable i inside).2, (payable i inside).1, pkG, pkB, regev⟩
  · rw [List.pairwise_map, List.pairwise_iff_getElem]
    intro i j insideI insideJ less
    rw [activeMembers_getElem valid insideI, activeMembers_getElem valid insideJ]
    rw [length_activeMembers valid] at insideJ
    exact valid.distinct i j less insideJ

theorem toArgs_toRecord (valid : record.Valid PoseidonHashOut)
    (bp : record.bpMemberSlot.toNat < record.memberCount.toNat) :
    record.toArgs.toRecord = record := by
  have slots : record.memberCount.toNat ≤ 8 := valid.le_slots
  have length := length_activeMembers valid
  have members : (paddedSlots record.toArgs.members).map MemberSlot.toEntry = record.members := by
    rw [toArgs_members, paddedSlots, List.map_map, record.members_eq (D := PoseidonHashOut)]
    apply List.map_congr_left
    intro i member
    have slot : i < maxChannelMembers := List.mem_range.mp member
    by_cases active : i < record.activeMembers.length
    · simp [List.getElem?_eq_getElem active, activeMembers_getElem valid active]
      rfl
    · rw [valid.padding i (by omega) slot, Function.comp_apply, List.getD_eq_default]
      · rfl
      · rw [List.length_map]
        exact not_lt.mp active
  have slot : (record.bpMemberSlot.setWidth 8).setWidth 32 = record.bpMemberSlot := by
    apply BitVec.eq_of_toNat_eq
    simp
    omega
  have count : BitVec.ofNat 32 record.toArgs.memberPkGs.length = record.memberCount := by
    rw [ChannelRegRecord.toArgs, List.length_map, length, BitVec.ofNat_toNat, BitVec.setWidth_eq]
  have delegates : (record.delegateCount.setWidth 8).setWidth 32 = record.delegateCount := by
    rw [valid.no_delegates]
    rfl
  rw [RegisterChannelArgs.toRecord]
  cases record
  simp
  exact ⟨rfl, slot, count, delegates, members⟩

end

/-! ## No accepted registration halts the rollup -/

/-- In every channel tree that registrations of these ids and any blocks lead to, the leaf of the
    channel is the default one.  The trees are those of an arbitrary hashing without collisions,
    and the provers choose every opening. -/
def LeafStillDefault (ids : List ChannelId) (c : ChannelId) : Prop :=
  ∀ (D B : Type) [DecidableEq D] [DecidableEq B] [Hashing D B], Hashing.CollisionFree D →
    ∀ (events : List (ChannelEvent D B)) (t : TreeState D) (leaves : Nat → ChannelLeaf D),
      Path ChannelEvent.Accepted (TreeState.start D) events t →
      (∀ w, ChannelEvent.register w ∈ events → w.record.channelId ∈ ids) →
      t.root = treeRoot D channelTreeHeight leaves → leaves c.toNat = Leafable.emptyLeaf D

theorem leafStillDefault {ids : List ChannelId} {c : ChannelId} (unused : c ∉ ids) :
    LeafStillDefault ids c := by
  intro D B _ _ _ free events t leaves run registered behind
  have fresh : accountsAfter events c.toNat = .fresh := by
    refine accountsAfter_unregistered free run fun w member same => unused ?_
    rw [← BitVec.eq_of_toNat_eq same]
    exact registered w member
  rw [(Refines.run free run).leaf_eq free behind c, fresh, fresh_leaf]

section
variable [Keccak] [Poseidon] {cfg : Config} {events : List Event} {s s' : Rollup}

/-- The registration step can be proved on the pending chain, as registration number `count`, on
    every tree in which the leaf of the channel is the default one. -/
def StepProvable (record : ChannelRegRecord Bytes32) (pending pending' : Bytes32) (count : Nat) :
    Prop :=
  ∀ leaves : Nat → ChannelLeaf PoseidonHashOut,
    leaves record.channelId.toNat = Leafable.emptyLeaf PoseidonHashOut →
    ∃ proof : MerkleProof PoseidonHashOut,
      ∀ (verifies : ChannelRegChainPublicInputs PoseidonHashOut Bytes32 → Prop)
        (dummyProof prev : ChannelRegChainPublicInputs PoseidonHashOut Bytes32)
        (w : ChannelRegStepWitness PoseidonHashOut Bytes32),
      w.record = record → w.channelMerkleProof = proof → w.prevPis = .ok prev →
      prev.channelRegHashChain = pending →
      prev.channelTreeRoot = treeRoot PoseidonHashOut channelTreeHeight leaves →
      prev.channelRegCount.val = count →
      (∀ earlier, w.prevChannelRegChainProof = some earlier → verifies earlier) →
      ∃ pis, w.toPublicInputs = .ok pis ∧ (w.setWitness dummyProof).Constraints verifies ∧
        (w.setWitness dummyProof).Exposes pis ∧ pis.channelRegHashChain = pending'

/-- A valid record can be proved while there is room for the count. -/
theorem stepProvable {record : ChannelRegRecord Bytes32} {pending : Bytes32} {count : Nat}
    (validated : record.validate PoseidonHashOut = .ok ()) (room : count + 1 < 2 ^ 63) :
    StepProvable record pending (record.hashWithPrevHash PoseidonHashOut pending) count := by
  intro leaves untouched
  have inside : (asU64 record.channelId).toNat < 2 ^ channelTreeHeight := by
    rw [asU64_toNat]
    exact record.channelId.isLt
  obtain ⟨proof, opened, -, length⟩ := exists_proof
    (D := PoseidonHashOut) channelTreeHeight leaves inside
  rw [asU64_toNat, untouched] at opened
  refine ⟨proof, ?_⟩
  intro verifies dummyProof prev w same sameProof started chain root counted verified
  obtain ⟨members, found⟩ := exists_memberPubkeysRootFor
    (ChannelRegRecord.validate_ok validated)
  have accepted : ∃ pis, w.toPublicInputs = .ok pis ∧
      pis.channelRegHashChain = record.hashWithPrevHash PoseidonHashOut pending := by
    simp only [ChannelRegStepWitness.toPublicInputs, bind_ok, mapError_ok, exists_unit,
      getOrRevert_ok, pure_ok, same, sameProof]
    have next : U63.add prev.channelRegCount 1 = some ⟨count + 1, room⟩ := by
      rw [U63.add_eq_some, counted]
    exact ⟨_, ⟨validated, prev, started, root ▸ opened, members, found, _, next, rfl⟩,
      congrArg (record.hashWithPrevHash PoseidonHashOut) chain⟩
  obtain ⟨pis, stepped, chained⟩ := accepted
  refine ⟨pis, stepped, ?_, w.toPublicInputs_exposed dummyProof stepped, chained⟩
  exact w.toPublicInputs_satisfies dummyProof stepped (sameProof ▸ length) verified

/-- Whatever `registerChannel` accepts in a reachable state is a valid record whose step can be
    proved on the pending chain, and its leaf is still the default one; and the deployer can
    register every valid record with an unused id.  No earlier member set hashes to zero. -/
theorem accepted_registrations_provable (run : Run cfg events s)
    (nonzero : ∀ reg ∈ registrations events, reg.commitment ≠ 0) :
    (∀ env args outcome s', Step cfg s ⟨env, .registerChannel args, outcome⟩ s' →
      args.toRecord.validate PoseidonHashOut = .ok () ∧
      args.toRecord.hashWithPrevHash PoseidonHashOut s.intake.pendingChannelRegHashChain =
        s'.intake.pendingChannelRegHashChain ∧
      StepProvable args.toRecord s.intake.pendingChannelRegHashChain
        s'.intake.pendingChannelRegHashChain (registrations events).length ∧
      LeafStillDefault (channelIds (registrations events)) args.channelId) ∧
    ∀ record : ChannelRegRecord Bytes32, record.validate PoseidonHashOut = .ok () →
      (∀ i < record.memberCount.toNat, (record.member PoseidonHashOut i).recipient ≠ 0 ∧
        (record.member PoseidonHashOut i).regevPkDigest ≠ 0) →
      record.channelId ∉ channelIds (registrations events) → record.channelId ≠ 0 →
      record.channelId ≠ burnChannelId →
      record.toArgs.toRecord = record ∧
      ∀ env : Env, env.sender = cfg.deployer → env.value = 0 →
        ∀ (σ : Type) (sat : Satellite σ) (world : External) (j : σ), ∃ s',
          exec cfg sat env world (.registerChannel record.toArgs) s j = .ok (.done, s', j) := by
  have oneTime := Run.oneTime run nonzero
  have few := oneTime.count_le
  constructor
  · rintro env args outcome s' ⟨σ, sat, world, j, j', ran⟩
    obtain ⟨-, -, -, -, noDelegates, unregistered, lengths, bp, checked, intake,
        recorded, rfl⟩ :=
      registerChannel_ok_iff.mp (quiet_ok ran).1
    obtain ⟨two_le, le_slots, -⟩ := lengthsInvalid_eq_false_iff.mp lengths
    obtain ⟨-, rfl⟩ := Intake.recordRegistration_ok recorded
    have validated := RegisterChannelArgs.toRecord_valid two_le le_slots noDelegates bp checked
    have hashed := RegisterChannelArgs.toRecord_hashWithPrevHash
      s.intake.pendingChannelRegHashChain noDelegates
    refine ⟨validated, hashed, ?_, leafStillDefault ((oneTime.unused _).mp unregistered)⟩
    have provable : StepProvable args.toRecord s.intake.pendingChannelRegHashChain _
        (registrations events).length := stepProvable validated (by omega)
    rw [hashed] at provable
    exact provable
  · intro record validated payable unused nonzero notBurn
    obtain ⟨valid, bp⟩ := ChannelRegRecord.validate_ok_iff.mp validated
    refine ⟨toArgs_toRecord valid bp, fun env sender value σ sat world j => ?_⟩
    have length : record.toArgs.memberPkGs.length = record.memberCount.toNat := by
      rw [ChannelRegRecord.toArgs, List.length_map, length_activeMembers valid]
    have small := lt_of_lt_of_le bp valid.le_slots
    have slot : record.toArgs.bpMemberSlot.toNat = record.bpMemberSlot.toNat := by
      rw [ChannelRegRecord.toArgs, BitVec.toNat_setWidth, Nat.mod_eq_of_lt]
      exact lt_trans small (by decide)
    obtain ⟨count, counted⟩ : ∃ count, add 64 Revert.panic s.intake.channelRegCount 1 =
        .ok count := by
      refine ⟨s.intake.channelRegCount + 1, add_ok_iff.mpr ⟨?_, rfl⟩⟩
      rw [oneTime.count]
      omega
    obtain ⟨intake, recorded⟩ : ∃ intake,
        s.intake.recordRegistration record.toArgs.registration = .ok intake :=
      ⟨_, bind_ok.mpr ⟨count, counted, rfl⟩⟩
    have called : registerChannel cfg env record.toArgs (receive env.value s) =
        .ok { receive env.value s with intake } := by
      refine registerChannel_ok_iff.mpr ⟨value, sender, nonzero, notBurn, ?_, ?_, ?_, ?_,
        toArgs_checkMembers valid payable, intake, recorded, rfl⟩
      · simp only [ChannelRegRecord.toArgs, valid.no_delegates]
        rfl
      · exact (oneTime.unused _).mpr unused
      · refine lengthsInvalid_eq_false_iff.mpr ⟨?_, ?_, ?_⟩
        · exact length ▸ valid.two_le
        · exact length ▸ valid.le_slots
        · simp [ChannelRegRecord.toArgs]
      · rw [slot, length]
        exact bp
    exact ⟨_, bind_ok.mpr ⟨_, called, rfl⟩⟩

end

section

/-- A Poseidon for the sample: it hashes everything to zero. -/
@[reducible] def samplePoseidon : Poseidon :=
  ⟨fun _ => PoseidonHashOut.reduce 0, fun _ _ => PoseidonHashOut.reduce 0⟩

attribute [local instance] evmKeccak samplePoseidon

/-- A second channel, of two members. -/
def secondChannel : RegisterChannelArgs :=
  { channelId := 8, bpMemberSlot := 1, delegateCount := 0, memberPkGs := [0x51, 0x52]
    pkBs := [0x61, 0], regevPkDigests := [0x71, 0x72], recipients := [0x81, 0x82] }

/-- After the registration of channel 7 the deployer can register channel 8, and the step of that
    registration can be proved as the second one. -/
theorem accepted_registrations_provable_second : ∃ events s s', Run sampleConfig events s ∧
    channelIds (registrations events) = [7] ∧
    Step sampleConfig s ⟨sampleEnv 1 0 4, .registerChannel secondChannel, .done⟩ s' ∧
    StepProvable secondChannel.toRecord s.intake.pendingChannelRegHashChain
      s'.intake.pendingChannelRegHashChain 1 ∧ LeafStillDefault [7] 8 := by
  have ran : runsTo sampleConfig sampleSatellite () samplePinnedCalls (fun events _ =>
      (registrations events).all (fun reg => reg.commitment != 0) &&
        channelIds (registrations events) == [7]) = true := by decide +kernel
  obtain ⟨events, s, run, facts⟩ := runsTo_run ran
  simp at facts
  obtain ⟨nonzero, ids⟩ := facts
  have one : (registrations events).length = 1 := by
    simpa [channelIds] using congrArg List.length ids
  obtain ⟨forward, backward⟩ := accepted_registrations_provable run nonzero
  have validated : secondChannel.toRecord.validate PoseidonHashOut = .ok () := by rfl
  obtain ⟨-, accepts⟩ := backward secondChannel.toRecord validated (by decide)
    (by rw [ids]; decide) (by decide) (by decide)
  obtain ⟨s', called⟩ := accepts (sampleEnv 1 0 4) rfl rfl Unit sampleSatellite
    sampleExternal ()
  have step : Step sampleConfig s ⟨sampleEnv 1 0 4, .registerChannel secondChannel, .done⟩ s' :=
    ⟨Unit, sampleSatellite, sampleExternal, (), (), called⟩
  obtain ⟨-, -, provable, untouched⟩ := forward _ _ _ _ step
  rw [one] at provable
  rw [ids] at untouched
  exact ⟨events, s, s', run, ids, step, provable, untouched⟩

end

end Intmax.Rollup
