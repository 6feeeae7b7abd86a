import Mathlib.Data.List.Nodup
import Intmax.Lib.HashChain
import Intmax.Rollup.Hashing

/-! # What the rollup's preimages determine

Packed fields have fixed widths, so each preimage determines the values packed
into it; for a registration this needs the cap on its members, since the slot
stream is padded.  A hash function without collisions on the strings a history of
deposits and registrations hashes therefore makes the two cumulative chains and
the pins of their pairs determine how far each chain had got.
-/

namespace Intmax.Rollup

open BigEndian List
open HashChain (links mem_of_links take_inj links_append)

/-! ## Packed fields -/

theorem pinPreimage_inj {d d' r r' : Bytes32} (same : pinPreimage d r = pinPreimage d' r') :
    d = d' ∧ r = r' := by
  obtain ⟨deposits, regs⟩ := append_inj_of_width same
  exact ⟨deposits, ofBitVec_inj regs⟩

theorem depositPreimage_inj {prev prev' : Bytes32} {record record' : DepositRecord}
    (same : depositPreimage prev record = depositPreimage prev' record') :
    prev = prev' ∧ record = record' := by
  obtain ⟨prevEq, same⟩ := append_inj_of_width same
  obtain ⟨depositor, same⟩ := append_inj_of_width same
  obtain ⟨recipient, same⟩ := append_inj_of_width same
  obtain ⟨tokenIndex, same⟩ := append_inj_of_width same
  obtain ⟨amount, same⟩ := append_inj_of_width same
  have auxData := ofBitVec_inj same
  refine ⟨prevEq, ?_⟩
  cases record
  cases record'
  simp only at depositor recipient tokenIndex amount auxData
  subst depositor recipient tokenIndex amount auxData
  rfl

theorem packMemberSlot_inj {slot slot' : MemberSlot}
    (same : packMemberSlot slot = packMemberSlot slot') : slot = slot' := by
  obtain ⟨pkG, same⟩ := append_inj_of_width same
  obtain ⟨pkB, same⟩ := append_inj_of_width same
  obtain ⟨regevPkDigest, same⟩ := append_inj_of_width same
  have recipient := ofBitVec_inj same
  cases slot
  cases slot'
  simp only at pkG pkB regevPkDigest recipient
  subst pkG pkB regevPkDigest recipient
  rfl

theorem packMemberSlot_length (slot : MemberSlot) : (packMemberSlot slot).length = 116 := by
  simp [packMemberSlot, packBytes32, packAddress]

/-- A stream of slots of one width is read back slot by slot. -/
theorem slotStream_inj {slots slots' : List MemberSlot} (length : slots.length = slots'.length)
    (same : slots.flatMap packMemberSlot = slots'.flatMap packMemberSlot) : slots = slots' := by
  induction slots generalizing slots' with
  | nil =>
    cases slots' with
    | nil => rfl
    | cons slot' rest' => cases length
  | cons slot rest ih =>
    cases slots' with
    | nil => cases length
    | cons slot' rest' =>
      simp at same
      obtain ⟨first, later⟩ := append_inj same
        ((packMemberSlot_length slot).trans (packMemberSlot_length slot').symm)
      rw [packMemberSlot_inj first, ih (Nat.succ.inj length) later]

/-- Up to the cap, padding loses nothing but the number of members. -/
theorem paddedSlots_inj {members members' : List MemberSlot}
    (short : members.length ≤ maxChannelMembers) (length : members.length = members'.length)
    (same : paddedSlots members = paddedSlots members') : members = members' := by
  apply ext_getElem length
  intro i below below'
  have slot := congrArg (fun slots => slots.getD i paddingSlot) same
  have inside : i < maxChannelMembers := by omega
  simpa [paddedSlots, inside, below, below'] using slot

theorem channelRegPreimage_inj {prev prev' : Bytes32} {reg reg' : ChannelRegistration}
    (short : reg.members.length ≤ maxChannelMembers)
    (short' : reg'.members.length ≤ maxChannelMembers)
    (same : channelRegPreimage prev reg = channelRegPreimage prev' reg') :
    prev = prev' ∧ reg = reg' := by
  obtain ⟨prevEq, same⟩ := append_inj_of_width same
  obtain ⟨channelId, same⟩ := append_inj_of_width same
  obtain ⟨slot, same⟩ := append_inj_of_width same
  obtain ⟨count, same⟩ := append_inj_of_width same
  obtain ⟨-, same⟩ := append_inj_of_width same
  have bpMemberSlot : reg.bpMemberSlot = reg'.bpMemberSlot := by
    have value := congrArg BitVec.toNat slot
    simp at value
    apply BitVec.eq_of_toNat_eq
    omega
  have length : reg.members.length = reg'.members.length := by
    have value := congrArg BitVec.toNat count
    simp [maxChannelMembers] at value short short'
    omega
  have members := paddedSlots_inj short length (slotStream_inj (by simp [paddedSlots]) same)
  refine ⟨prevEq, ?_⟩
  cases reg
  cases reg'
  simp only at channelId bpMemberSlot members
  subst channelId bpMemberSlot members
  rfl

/-! ## Packed counts -/

theorem packCounts_eq {deposits regs : Nat} (bound : deposits < 2 ^ 64) :
    packCounts deposits regs = 2 ^ 65 * regs + (2 * deposits + 1) := by
  have low : 1 ||| (deposits <<< 1) = 2 * deposits + 1 := by
    rw [Nat.or_comm, Nat.shiftLeft_eq, mul_comm, Nat.pow_one]
    exact (Nat.two_pow_add_eq_or_of_lt (i := 1) (by omega) deposits).symm
  unfold packCounts
  rw [low, Nat.or_comm, Nat.shiftLeft_eq, mul_comm]
  exact (Nat.two_pow_add_eq_or_of_lt (by omega) regs).symm

theorem packCounts_ne_zero {deposits regs : Nat} (bound : deposits < 2 ^ 64) :
    packCounts deposits regs ≠ 0 := by
  rw [packCounts_eq bound]
  omega

theorem packedDepositCount_packCounts {deposits regs : Nat} (bound : deposits < 2 ^ 64) :
    packedDepositCount (packCounts deposits regs) = deposits := by
  rw [packCounts_eq bound, packedDepositCount, Nat.shiftRight_eq_div_pow]
  omega

theorem packedRegCount_packCounts {deposits regs : Nat} (bound : deposits < 2 ^ 64)
    (bound' : regs < 2 ^ 64) : packedRegCount (packCounts deposits regs) = regs := by
  rw [packCounts_eq bound, packedRegCount, Nat.shiftRight_eq_div_pow]
  omega

/-! ## Chains without collisions -/

variable [Keccak]

/-- The cumulative chain over a list of deposits. -/
def depositChain (deposits : List DepositRecord) : Bytes32 :=
  HashChain.head computeDepositHash 0 deposits

/-- The cumulative chain over a list of registrations. -/
def regChain (regs : List ChannelRegistration) : Bytes32 := HashChain.head channelRegHash 0 regs

/-- The pin of the pair of chains over the first deposits and the first registrations. -/
def pinAt (deposits : List DepositRecord) (regs : List ChannelRegistration) (p : Nat × Nat) :
    Bytes32 :=
  pendingChainsPin (depositChain (deposits.take p.1)) (regChain (regs.take p.2))

/-- The strings hashed to build the two chains and the pins of their prefixes. -/
def hashedStrings (deposits : List DepositRecord) (regs : List ChannelRegistration) : Set Bytes :=
  { x | (∃ p ∈ links computeDepositHash 0 deposits, x = depositPreimage p.1 p.2) ∨
    (∃ p ∈ links channelRegHash 0 regs, x = channelRegPreimage p.1 p.2) ∨
    ∃ i j, x = pinPreimage (depositChain (deposits.take i)) (regChain (regs.take j)) }

/-- The hash function has no collision on the strings hashed, and none of them is a
    preimage of zero, the value both chains start from. -/
structure CollisionFree (deposits : List DepositRecord) (regs : List ChannelRegistration) :
    Prop where
  injOn : Set.InjOn keccak256 (hashedStrings deposits regs)
  nonzero : ∀ x ∈ hashedStrings deposits regs, keccak256 x ≠ 0

namespace CollisionFree

variable {deposits : List DepositRecord} {regs : List ChannelRegistration}

theorem deposit_links (free : CollisionFree deposits regs) :
    HashChain.CollisionFree computeDepositHash 0
      { p | p ∈ links computeDepositHash 0 deposits } := by
  constructor
  · intro p hp q hq same
    have strings := free.injOn (.inl ⟨p, hp, rfl⟩) (.inl ⟨q, hq, rfl⟩) same
    obtain ⟨prev, record⟩ := depositPreimage_inj strings
    exact Prod.ext prev record
  · intro p hp
    exact free.nonzero _ (.inl ⟨p, hp, rfl⟩)

theorem reg_links (free : CollisionFree deposits regs)
    (short : ∀ reg ∈ regs, reg.members.length ≤ maxChannelMembers) :
    HashChain.CollisionFree channelRegHash 0
      { p | p ∈ links channelRegHash 0 regs } := by
  constructor
  · intro p hp q hq same
    have strings := free.injOn (.inr (.inl ⟨p, hp, rfl⟩)) (.inr (.inl ⟨q, hq, rfl⟩)) same
    obtain ⟨prev, reg⟩ := channelRegPreimage_inj (short _ (mem_of_links _ hp))
      (short _ (mem_of_links _ hq)) strings
    exact Prod.ext prev reg
  · intro p hp
    exact free.nonzero _ (.inr (.inl ⟨p, hp, rfl⟩))

theorem pinPreimage_mem (i j : Nat) :
    pinPreimage (depositChain (deposits.take i)) (regChain (regs.take j)) ∈
      hashedStrings deposits regs :=
  .inr (.inr ⟨i, j, rfl⟩)

/-- A pin determines how many deposits and registrations its pair had taken in. -/
theorem pin_inj (free : CollisionFree deposits regs)
    (short : ∀ reg ∈ regs, reg.members.length ≤ maxChannelMembers)
    {p q : Nat × Nat} (hp : p.1 ≤ deposits.length ∧ p.2 ≤ regs.length)
    (hq : q.1 ≤ deposits.length ∧ q.2 ≤ regs.length)
    (same : pinAt deposits regs p = pinAt deposits regs q) : p = q := by
  have strings := free.injOn (pinPreimage_mem p.1 p.2) (pinPreimage_mem q.1 q.2) same
  obtain ⟨chain, chain'⟩ := pinPreimage_inj strings
  have first := take_inj free.deposit_links (fun _ h => h) hp.1 hq.1 chain
  have second := take_inj (free.reg_links short) (fun _ h => h) hp.2 hq.2 chain'
  exact Prod.ext first second

/-- A history without collisions had none before it grew. -/
theorem before {deposits' : List DepositRecord} {regs' : List ChannelRegistration}
    (free : CollisionFree (deposits ++ deposits') (regs ++ regs')) :
    CollisionFree deposits regs := by
  have within : hashedStrings deposits regs ⊆
      hashedStrings (deposits ++ deposits') (regs ++ regs') := by
    intro x hashed
    simp only [hashedStrings, Set.mem_ofPred_eq] at hashed ⊢
    rcases hashed with ⟨p, member, string⟩ | ⟨p, member, string⟩ | ⟨i, j, string⟩
    · refine .inl ⟨p, ?_, string⟩
      rw [links_append]
      exact mem_append_left _ member
    · refine .inr (.inl ⟨p, ?_, string⟩)
      rw [links_append]
      exact mem_append_left _ member
    · refine .inr (.inr ⟨min i deposits.length, min j regs.length, ?_⟩)
      rw [string, take_append_of_le_length (Nat.min_le_right _ _), take_append_of_le_length
        (Nat.min_le_right _ _), take_eq_take_min, take_eq_take_min (l := regs)]
  exact ⟨free.injOn.mono within, fun x member => free.nonzero x (within member)⟩

/-- The strings of `hashedStrings`, listed. -/
def hashedList (deposits : List DepositRecord) (regs : List ChannelRegistration) : List Bytes :=
  (links computeDepositHash 0 deposits).map (fun p => depositPreimage p.1 p.2) ++
  (links channelRegHash 0 regs).map (fun p => channelRegPreimage p.1 p.2) ++
  (List.range (deposits.length + 1)).flatMap fun i => (List.range (regs.length + 1)).map fun j =>
    pinPreimage (depositChain (deposits.take i)) (regChain (regs.take j))

theorem hashedStrings_listed {x : Bytes} (hashed : x ∈ hashedStrings deposits regs) :
    x ∈ hashedList deposits regs := by
  simp only [hashedStrings, Set.mem_ofPred_eq] at hashed
  simp only [hashedList, mem_append, mem_map, mem_flatMap, mem_range]
  rcases hashed with ⟨p, member, string⟩ | ⟨p, member, string⟩ | ⟨i, j, string⟩
  · exact .inl (.inl ⟨p, member, string.symm⟩)
  · exact .inl (.inr ⟨p, member, string.symm⟩)
  · -- longer prefixes are the whole list
    refine .inr ⟨min i deposits.length, by omega, min j regs.length, by omega, ?_⟩
    rw [string, take_eq_take_min (i := i), take_eq_take_min (l := regs) (i := j)]

/-- Whether there is a collision can be decided by hashing every string once. -/
theorem of_hashedList (distinct : ((hashedList deposits regs).map keccak256).Nodup)
    (nonzero : 0 ∉ (hashedList deposits regs).map keccak256) : CollisionFree deposits regs := by
  constructor
  · intro x hashed y hashed' same
    exact inj_on_of_nodup_map distinct (hashedStrings_listed hashed)
      (hashedStrings_listed hashed') same
  · intro x hashed zero
    apply nonzero
    rw [← zero]
    exact mem_map_of_mem (hashedStrings_listed hashed)

end CollisionFree

end Intmax.Rollup
