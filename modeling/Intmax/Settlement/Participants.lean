import Mathlib.Data.List.Nodup
import Intmax.Lib.Merkle
import Intmax.Settlement.Close

/-! # The participant tree

A delegate may request a close by proving its slot, key and recipient against one root that was
fixed at deployment.  The member computes that root off chain, the contract computes it itself when
there are no delegates, and both fold the 1024 nodes of the tree in place.
-/

namespace Intmax.Settlement

open Checked Merkle BigEndian Function List Option

variable [Keccak]

def maxParticipantCount : Nat := 1024

/-! ## On chain -/

/-- `_memberOnlyParticipantRoot`; a write past the array panics. -/
def memberOnlyParticipantRoot (bindings : List MemberBinding) : Except Revert Bytes32 := do
  revertIf (maxParticipantCount < bindings.length) .panic
  let nodes : Nat → Bytes32 := bindings.zipIdx.foldl (fun nodes e =>
    Function.update nodes e.2 (participantLeaf (BitVec.ofNat 16 e.2) e.1.pkG e.1.recipient))
    fun _ => 0
  pure (foldInPlace participantNode maxParticipantCount nodes 0)

/-! ## Off chain -/

/-- A digit in either case. -/
def hexValue (c : Char) : Option Nat :=
  if 'A' ≤ c ∧ c ≤ 'F' then some (c.toNat - 'A'.toNat + 10)
  else if 'a' ≤ c ∧ c ≤ 'f' then some (c.toNat - 'a'.toNat + 10)
  else if '0' ≤ c ∧ c ≤ '9' then some (c.toNat - '0'.toNat)
  else none

/-- Two digits for each byte. -/
def decodeHex : List Char → Option Bytes
  | [] => some []
  | [_] => none
  | high :: low :: rest => do
    let high ← hexValue high
    let low ← hexValue low
    let rest ← decodeHex rest
    some (UInt8.ofNat (16 * high + low) :: rest)

/-- `from_hex`: the digits with or without `0x`, at most `n` bytes, padded on the left. -/
def fromHex (n : Nat) (text : String) : Option (BitVec (8 * n)) := do
  let digits := match text.toList with
    | '0' :: 'x' :: digits => digits
    | digits => digits
  let bytes ← decodeHex digits
  if bytes.length ≤ n then some (BitVec.ofNat (8 * n) (decode bytes)) else none

/-- Why the root is not computed: an assertion fails or the command dies. -/
inductive ParticipantError
  | lengthsDiffer
  | tooMany
  | pkG (slot : Nat)
  | recipient (slot : Nat)
  | zeroEntry (slot : Nat)
  deriving DecidableEq

def maxChannelMembers : Nat := 1024

/-- The bytes of `IMPR`. -/
def leafDomain : Bytes := [0x49, 0x4d, 0x50, 0x52]

/-- The bytes of `IMPN`. -/
def nodeDomain : Bytes := [0x49, 0x4d, 0x50, 0x4e]

def settlementLeaf (slot : Nat) (pkG : Bytes32) (recipient : Address) : Bytes32 :=
  keccak256 (leafDomain ++ ofBitVec 2 (BitVec.ofNat 16 slot) ++ ofBitVec 32 pkG ++
    ofBitVec 20 recipient)

def settlementNode (left right : Bytes32) : Bytes32 :=
  keccak256 (nodeDomain ++ ofBitVec 32 left ++ ofBitVec 32 right)

/-- One round of the loop over the participants. -/
def setParticipant (nodes : Nat → Bytes32) (entry : (String × String) × Nat) :
    Except ParticipantError (Nat → Bytes32) := do
  let slot := entry.2
  let pkG ← getOrRevert (fromHex 32 entry.1.1) (.pkG slot)
  let recipient ← getOrRevert (fromHex 20 entry.1.2) (.recipient slot)
  revertIf (pkG = 0 ∨ recipient = 0) (.zeroEntry slot)
  pure (Function.update nodes slot (settlementLeaf slot pkG recipient))

def settlementParticipantRoot (pkGs recipients : List String) :
    Except ParticipantError Bytes32 := do
  revertIf (pkGs.length ≠ recipients.length) .lengthsDiffer
  revertIf (maxChannelMembers < pkGs.length) .tooMany
  let nodes ← (pkGs.zip recipients).zipIdx.foldlM setParticipant fun _ => 0
  pure (foldInPlace settlementNode maxChannelMembers nodes 0)

def deployedParticipantsArePrefix (deployedRoot : Bytes32) (deployedCount : BitVec 16)
    (pkGs recipients : List String) : Except ParticipantError Bool :=
  let deployed := deployedCount.toNat
  if recipients.length = pkGs.length ∧ deployed ≤ pkGs.length then do
    let root ← settlementParticipantRoot (pkGs.take deployed) (recipients.take deployed)
    pure (decide (root = deployedRoot))
  else pure false

/-! ## The tree of a list -/

/-- A participant: its key and its recipient. -/
abbrev Participant := Bytes32 × Address

/-- The leaves of the tree; an unused slot holds zero. -/
def participantLeaves (participants : List Participant) (i : Nat) : Bytes32 :=
  match participants[i]? with
  | some (pkG, recipient) => participantLeaf (BitVec.ofNat 16 i) pkG recipient
  | none => 0

/-- The root of the full tree of 1024 leaves. -/
def participantRoot (participants : List Participant) : Bytes32 :=
  root participantNode participantTreeDepth (participantLeaves participants)

/-- The texts spell the participants, none of whose entries is zero. -/
structure Spells (pkGs recipients : List String) (participants : List Participant) : Prop where
  pkGs : pkGs.map (fromHex 32) = participants.map fun p => some p.1
  recipients : recipients.map (fromHex 20) = participants.map fun p => some p.2
  nonzero : ∀ p ∈ participants, p.1 ≠ 0 ∧ p.2 ≠ 0

variable {pkGs recipients : List String} {participants : List Participant}

omit [Keccak] in
theorem Spells.take (spells : Spells pkGs recipients participants) (n : Nat) :
    Spells (pkGs.take n) (recipients.take n) (participants.take n) where
  pkGs := by rw [map_take, spells.pkGs, map_take]
  recipients := by rw [map_take, spells.recipients, map_take]
  nonzero p member := spells.nonzero p (mem_of_mem_take member)

omit [Keccak] in
theorem Spells.lengths (spells : Spells pkGs recipients participants) :
    pkGs.length = participants.length ∧ recipients.length = participants.length := by
  have keys := congrArg length spells.pkGs
  have accounts := congrArg length spells.recipients
  simp at keys accounts
  exact ⟨keys, accounts⟩

omit [Keccak] in
/-- A pair of texts spells the participant at its place. -/
theorem Spells.entry (spells : Spells pkGs recipients participants) (i : Nat) :
    (pkGs.zip recipients)[i]?.map (Prod.map (fromHex 32) (fromHex 20)) =
      participants[i]?.map fun p => (some p.1, some p.2) := by
  have all : (pkGs.zip recipients).map (Prod.map (fromHex 32) (fromHex 20)) =
      participants.map fun p => (some p.1, some p.2) := by
    rw [← zip_map, spells.pkGs, spells.recipients, zip_map']
  rw [← getElem?_map, all, getElem?_map]

omit [Keccak] in
/-- Writing a list into an array. -/
theorem foldl_fill {α V : Type} (leaf : Nat → α → V) (entries : List α)
    (nodes : Nat → V) (i : Nat) :
    entries.zipIdx.foldl (fun nodes e => update nodes e.2 (leaf e.2 e.1)) nodes i =
      match entries[i]? with
      | some a => leaf i a
      | none => nodes i := by
  induction entries using reverseRecOn with
  | nil => rfl
  | append_singleton entries a ih =>
    rw [zipIdx_append, foldl_append, zipIdx_singleton, foldl_cons,
      foldl_nil, update_apply, ih, zero_add]
    split
    case isTrue here => rw [here, getElem?_concat_length]
    case isFalse elsewhere =>
      by_cases inside : i < entries.length
      · rw [getElem?_append_left inside]
      · rw [getElem?_eq_none (by omega), getElem?_eq_none (by simp; omega)]

theorem settlementLeaf_eq (slot : Nat) (pkG : Bytes32) (recipient : Address) :
    settlementLeaf slot pkG recipient = participantLeaf (BitVec.ofNat 16 slot) pkG recipient := rfl

theorem settlementNode_eq : settlementNode = participantNode := rfl

/-- The member computes the root of the full tree. -/
theorem settlementParticipantRoot_eq (spells : Spells pkGs recipients participants)
    (few : participants.length ≤ maxChannelMembers) :
    settlementParticipantRoot pkGs recipients = .ok (participantRoot participants) := by
  obtain ⟨keys, accounts⟩ := spells.lengths
  let write (nodes : Nat → Bytes32) (e : (String × String) × Nat) : Nat →
    Bytes32 := update nodes
    e.2 (settlementLeaf e.2 ((fromHex 32 e.1.1).getD 0) ((fromHex 20 e.1.2).getD 0))
  have rounds : ∀ nodes, ∀ e ∈ (pkGs.zip recipients).zipIdx,
      setParticipant nodes e = .ok (write nodes e) := by
    intro nodes e member
    have placed := mem_zipIdx_iff_getElem?.mp member
    have spelled := spells.entry e.2
    rw [placed, map_some] at spelled
    obtain ⟨p, found, parsed⟩ := map_eq_some_iff.mp spelled.symm
    obtain ⟨key, account⟩ := Prod.mk.inj parsed
    obtain ⟨keySet, accountSet⟩ := spells.nonzero p (mem_of_getElem? found)
    simp only [setParticipant, ← key, ← account, bind_ok, getOrRevert_ok, revertIf_ok,
      exists_unit, pure_ok, write, some.injEq, getD_some]
    exact ⟨p.1, rfl, p.2, rfl, fun zero => zero.elim keySet accountSet, rfl⟩
  have filled (i : Nat) : (pkGs.zip recipients).zipIdx.foldl write (fun _ => 0) i =
      participantLeaves participants i := by
    refine (foldl_fill (fun slot (texts : String × String) =>
      settlementLeaf slot ((fromHex 32 texts.1).getD 0) ((fromHex 20 texts.2).getD 0)) _ _ i).trans
        ?_
    have spelled := spells.entry i
    unfold participantLeaves
    cases here : (pkGs.zip recipients)[i]? with
    | none =>
      rw [here, map_none] at spelled
      rw [map_eq_none_iff.mp spelled.symm]
    | some texts =>
      rw [here, map_some] at spelled
      obtain ⟨p, found, parsed⟩ := map_eq_some_iff.mp spelled.symm
      obtain ⟨key, account⟩ := Prod.mk.inj parsed
      simp only [found, ← key, ← account, getD_some, settlementLeaf_eq]
  simp only [settlementParticipantRoot, bind_ok, revertIf_ok, exists_unit, pure_ok]
  refine ⟨by omega, by omega, _, foldlM_of_ok write rounds _, ?_⟩
  rw [settlementNode_eq, funext filled]
  exact foldInPlace_eq_root participantNode 10 _

/-- So does the contract, when there are only members. -/
theorem memberOnlyParticipantRoot_eq {bindings : List MemberBinding}
    (few : bindings.length ≤ maxParticipantCount) :
    memberOnlyParticipantRoot bindings =
      .ok (participantRoot (bindings.map fun b => (b.pkG, b.recipient))) := by
  have filled (i : Nat) : bindings.zipIdx.foldl (fun (nodes : Nat → Bytes32) e =>
      update nodes e.2 (participantLeaf (BitVec.ofNat 16 e.2) e.1.pkG e.1.recipient))
      (fun _ => 0) i = participantLeaves (bindings.map fun b => (b.pkG, b.recipient)) i := by
    rw [foldl_fill fun slot (b : MemberBinding) =>
      participantLeaf (BitVec.ofNat 16 slot) b.pkG b.recipient]
    unfold participantLeaves
    rw [getElem?_map]
    cases bindings[i]? with
    | none => rfl
    | some b => rfl
  simp only [memberOnlyParticipantRoot, bind_ok, revertIf_ok, exists_unit, pure_ok]
  refine ⟨by omega, ?_⟩
  rw [funext filled]
  exact foldInPlace_eq_root participantNode 10 _

/-! ## The strings that are hashed -/

def leafString (slot : BitVec 16) (pkG : Bytes32) (recipient : Address) : Bytes :=
  packUint32 participantLeafDomain ++ ofBitVec 2 slot ++ packBytes32 pkG ++
    packAddress recipient

def nodeString (p : Bytes32 × Bytes32) : Bytes :=
  packUint32 participantNodeDomain ++ packBytes32 p.1 ++ packBytes32 p.2

omit [Keccak] in
theorem leafString_inj {slot slot' : BitVec 16} {pkG pkG' : Bytes32}
    {recipient recipient' : Address}
    (same : leafString slot pkG recipient = leafString slot' pkG' recipient') :
    pkG = pkG' ∧ recipient = recipient' := by
  simp only [leafString, append_assoc, packUint32, packBytes32, packAddress] at same
  obtain ⟨-, same⟩ := append_inj_of_width same
  obtain ⟨-, same⟩ := append_inj_of_width same
  obtain ⟨key, same⟩ := append_inj_of_width same
  exact ⟨key, ofBitVec_inj same⟩

omit [Keccak] in
theorem nodeString_injective : Injective nodeString := by
  rintro ⟨a, b⟩ ⟨c, d⟩ same
  simp only [nodeString, append_assoc, packUint32, packBytes32] at same
  obtain ⟨-, same⟩ := append_inj_of_width same
  obtain ⟨left, same⟩ := append_inj_of_width same
  rw [left, ofBitVec_inj same]

/-- The strings that are hashed for the tree of a list. -/
def treeStrings (participants : List Participant) : Set Bytes :=
  { x | ∃ i pkG recipient, participants[i]? = some (pkG, recipient) ∧
      x = leafString (BitVec.ofNat 16 i) pkG recipient } ∪
    nodeString '' pairs participantNode participantTreeDepth (participantLeaves participants)

/-- The strings that are hashed to check a proof. -/
def proofStrings (slot : BitVec 16) (pkG : Bytes32) (recipient : Address)
    (siblings : Nat → Bytes32) : Set Bytes :=
  insert (leafString slot pkG recipient) (nodeString ''
    climbPairs participantNode ((List.range participantTreeDepth).map siblings) slot.toNat
      (participantLeaf slot pkG recipient))

section
variable {strings : Set Bytes}

/-- A hash without collisions on the strings has none on the pairs behind them. -/
theorem participantNode_injectiveOn (free : Set.InjOn keccak256 strings) :
    InjectiveOn participantNode (Set.preimage nodeString strings) := by
  intro p hashed q hashed' same
  exact nodeString_injective (free hashed hashed' same)

variable {participants : List Participant} {pkG : Bytes32} {recipient : Address}

theorem pairs_subset (within : treeStrings participants ⊆ strings) :
    pairs participantNode participantTreeDepth (participantLeaves participants) ⊆
      Set.preimage nodeString strings := by
  intro p hashed
  exact within (.inr ⟨p, hashed, rfl⟩)

/-- Under one root and in one slot there is one participant. -/
theorem participantLeaf_inj (free : Set.InjOn keccak256 strings) {slot : BitVec 16} {pkG' : Bytes32}
    {recipient' : Address} (hashed : leafString slot pkG recipient ∈ strings)
    (hashed' : leafString slot pkG' recipient' ∈ strings)
    (same : participantLeaf slot pkG recipient = participantLeaf slot pkG' recipient') :
    (pkG, recipient) = (pkG', recipient') := by
  obtain ⟨rfl, rfl⟩ := leafString_inj (free hashed hashed' same)
  rfl

theorem leafString_mem (within : treeStrings participants ⊆ strings) {i : Nat}
    (found : participants[i]? = some (pkG, recipient)) :
    leafString (BitVec.ofNat 16 i) pkG recipient ∈ strings :=
  within (.inl ⟨i, pkG, recipient, found, rfl⟩)

/-- Lists of one length with the same root are the same. -/
theorem participantRoot_inj (free : Set.InjOn keccak256 strings) {live : List Participant}
    (within : treeStrings participants ⊆ strings) (within' : treeStrings live ⊆ strings)
    (lengths : participants.length = live.length)
    (few : participants.length ≤ maxParticipantCount)
    (same : participantRoot participants = participantRoot live) : participants = live := by
  have leaves := root_injectiveOn (participantNode_injectiveOn free) (pairs_subset within)
    (pairs_subset within') same
  refine ext_getElem lengths fun i inside inside' => ?_
  have found := getElem?_eq_getElem inside
  have found' := getElem?_eq_getElem inside'
  have leaf := leaves i (show i < 2 ^ 10 from lt_of_lt_of_le inside few)
  simp only [participantLeaves, found, found'] at leaf
  exact participantLeaf_inj free (leafString_mem within found) (leafString_mem within' found') leaf

/-! ## Proofs of participation -/

theorem foldl_participantParent (siblings : Nat → Bytes32) (levels : List Nat) (x : Bytes32)
    (i : Nat) : (levels.foldl (participantParent siblings) (x, i)).1 =
      climb participantNode (levels.map siblings) i x := by
  induction levels generalizing x i with
  | nil => rfl
  | cons level levels ih =>
    rw [foldl_cons, map_cons, climb, participantParent, ih]
    congr 1
    by_cases left : i % 2 = 0
    · rw [if_pos left, if_neg (by omega)]
    · rw [if_neg left, if_pos (by omega)]

theorem isParticipant_iff {cfg : Config} {slot : BitVec 16} {siblings : Nat → Bytes32} :
    isParticipant cfg slot pkG recipient siblings = true ↔
      slot.toNat < cfg.activeParticipantCount ∧ pkG ≠ 0 ∧ recipient ≠ 0 ∧
      climb participantNode ((range participantTreeDepth).map siblings) slot.toNat
        (participantLeaf slot pkG recipient) = cfg.participantRoot := by
  unfold isParticipant
  split
  case isTrue refused =>
    simp only [Bool.false_eq_true, false_iff]
    rintro ⟨inside, key, account, -⟩
    exact refused.elim (by omega) fun zero => zero.elim key account
  case isFalse allowed =>
    simp at allowed
    rw [beq_iff_eq, foldl_participantParent]
    exact ⟨fun reached => ⟨allowed.1, allowed.2.1, allowed.2.2, reached⟩, fun h => h.2.2.2⟩

/-- The contract accepts a proof for a slot exactly when the slot holds the pair. -/
theorem exists_proof_iff (free : Set.InjOn keccak256 strings)
    (within : treeStrings participants ⊆ strings)
    (few : participants.length ≤ maxParticipantCount)
    (nonzero : ∀ p ∈ participants, p.1 ≠ 0 ∧ p.2 ≠ 0) {cfg : Config}
    (deployed : cfg.participantRoot = participantRoot participants)
    (count : cfg.activeParticipantCount = participants.length) (slot : BitVec 16) (pkG : Bytes32)
    (recipient : Address) :
    (∃ siblings, proofStrings slot pkG recipient siblings ⊆ strings ∧
      isParticipant cfg slot pkG recipient siblings = true) ↔
    participants[slot.toNat]? = some (pkG, recipient) := by
  have position (inside : slot.toNat < participants.length) : slot.toNat % 2 ^ participantTreeDepth
      = slot.toNat := Nat.mod_eq_of_lt (lt_of_lt_of_le inside few)
  have slotOf : BitVec.ofNat 16 slot.toNat = slot := by simp
  constructor
  · rintro ⟨siblings, hashed, accepted⟩
    obtain ⟨inside, -, -, reached⟩ := isParticipant_iff.mp accepted
    rw [count] at inside
    rw [deployed] at reached
    rw [proofStrings, Set.insert_subset_iff, Set.image_subset_iff] at hashed
    have leaf := (climb_eq_root_on (participantNode_injectiveOn free) (pairs_subset within) hashed.2
      (by simp) reached).1
    have found := getElem?_eq_getElem inside
    rw [position inside] at leaf
    simp only [participantLeaves, found, slotOf] at leaf
    have mine := leafString_mem within found
    rw [slotOf] at mine
    rw [found]
    exact congrArg some (participantLeaf_inj free mine hashed.1 leaf)
  · intro found
    have inside : slot.toNat < participants.length := (List.getElem?_eq_some_iff.mp found).1
    obtain ⟨key, account⟩ := nonzero _ (mem_of_getElem? found)
    obtain ⟨siblings, length, climbs, hashed⟩ := exists_climb_within participantNode
      participantTreeDepth slot.toNat (participantLeaves participants)
    have own : participantLeaves participants slot.toNat = participantLeaf slot pkG recipient := by
      simp only [participantLeaves, found, slotOf]
    have listed : (range participantTreeDepth).map (fun level => siblings.getD level 0) =
        siblings := by
      refine ext_getElem (by simp [length]) fun i inside inside' => ?_
      simp [inside']
    rw [position inside, own] at hashed
    refine ⟨fun level => siblings.getD level 0, ?_,
      isParticipant_iff.mpr ⟨?_, key, account, ?_⟩⟩
    · rw [proofStrings, listed, Set.insert_subset_iff]
      refine ⟨slotOf ▸ leafString_mem within found, ?_⟩
      exact (Set.image_mono hashed).trans (Set.subset_union_right.trans within)
    · rw [count]
      exact inside
    · rw [listed, climbs, deployed, position inside, ← own, update_eq_self, participantRoot]

end

/-! ## Both sides -/

/-- The member and the contract compute the same root; against it, the contract accepts a proof for
    a slot exactly when the slot holds the pair; and the list behind a deployed root is recognized
    as the beginning of a live list exactly when it is one. -/
theorem participant_tree_agrees {pkGs recipients : List String} {participants : List Participant}
    (spells : Spells pkGs recipients participants)
    (few : participants.length ≤ maxParticipantCount) :
    settlementParticipantRoot pkGs recipients = .ok (participantRoot participants) ∧
    (∀ bindings : List MemberBinding, bindings.map (fun b => (b.pkG, b.recipient)) =
      participants → memberOnlyParticipantRoot bindings = .ok (participantRoot participants)) ∧
    ∀ strings, Set.InjOn keccak256 strings → treeStrings participants ⊆ strings →
      (∀ cfg : Config, cfg.participantRoot = participantRoot participants →
        cfg.activeParticipantCount = participants.length → ∀ slot pkG recipient,
        (∃ siblings, proofStrings slot pkG recipient siblings ⊆ strings ∧
          isParticipant cfg slot pkG recipient siblings = true) ↔
        participants[slot.toNat]? = some (pkG, recipient)) ∧
      ∀ livePkGs liveRecipients live, Spells livePkGs liveRecipients live →
        treeStrings (live.take participants.length) ⊆ strings →
        ∃ answer, deployedParticipantsArePrefix (participantRoot participants)
          (BitVec.ofNat 16 participants.length) livePkGs liveRecipients = .ok answer ∧
          (answer = true ↔ participants <+: live) := by
  refine ⟨settlementParticipantRoot_eq spells few, ?_, ?_⟩
  · rintro bindings rfl
    exact memberOnlyParticipantRoot_eq (by simpa using few)
  · intro strings free within
    refine ⟨fun cfg deployed count slot pkG recipient =>
      exists_proof_iff free within few spells.nonzero deployed count slot pkG recipient, ?_⟩
    intro livePkGs liveRecipients live spells' within'
    obtain ⟨keys, accounts⟩ := spells'.lengths
    have small : participants.length < 2 ^ 16 := lt_of_le_of_lt few (by decide)
    have count : (BitVec.ofNat 16 participants.length).toNat = participants.length := by
      rw [BitVec.toNat_ofNat, Nat.mod_eq_of_lt small]
    unfold deployedParticipantsArePrefix
    rw [count, keys, accounts]
    by_cases long : participants.length ≤ live.length
    · have taken : (live.take participants.length).length = participants.length := by
        rw [List.length_take, Nat.min_eq_left long]
      rw [if_pos ⟨rfl, long⟩, settlementParticipantRoot_eq (spells'.take _)
        (taken.symm ▸ few)]
      refine ⟨_, rfl, ?_⟩
      rw [decide_eq_true_eq, List.prefix_iff_eq_take]
      constructor
      · intro same
        exact participantRoot_inj free within within' taken.symm few same.symm
      · intro same
        rw [← same]
    · rw [if_neg fun both => long both.2]
      refine ⟨false, rfl, ?_⟩
      simp
      exact fun part => long part.length_le

end Intmax.Settlement

/-! A deployment with one participant, under the hash function of the contracts. -/

namespace Intmax.Settlement

open Checked Merkle

attribute [local instance] evmKeccak

/-- The roots of empty trees of the heights 0 to 10. -/
def sampleZeros : List Bytes32 := [
  0x0,
  0xbe1f77631c031cb214026b6a520f077974b476a2fb0c62e206778b02ad50ee81,
  0xd3fe53fa8ef6b05abfc07edc8b9b3dc3fff10a984959e41d1cc0b7af298016fe,
  0x2b2a2e5f301d616b1b07703264c4aa6c514c83ced104da209f0bc68cde74fc4f,
  0x2f8e6f9eb5d7a76955f3581c85accb3e5fe39a5c184f5f8d091cef4b1f38d3fe,
  0x1c54eb6913b3ae947939c3616afcd5917dfc2760023e2af9f19c5be429c6d06b,
  0x38b1a9836a33bf3859bde7a7e316098c79c776339c158b15e45ca863c6734787,
  0xa69480429f9408480b23fb91e58788222a7211d2ce27421eaf78dbbde08180a5,
  0x54806d54e58f1fdb4cf6eb13f19b6c14596346e756063c5fd0a511e4fe8db191,
  0xa116d10f26ea1cb4ec5b5c3a9ab648bcdace7699f99ec65234d29738cd16a4c5,
  0x322d4cbec35f6dec2b7a33a21bff9f968809d626c7b84fe2f39b6069c033f032]

/-- The roots of the trees whose first slot holds the key 1 and the recipient 2. -/
def samplePath : List Bytes32 := [
  0xfe31f98cc789bc22d0c08003400d0daa97a0dff56f159e80a33c997a78d17fd9,
  0x277b5c2f4e705334491983327fe668e504b947a0bedc68fc1062b4a8556bf941,
  0x89347084e336d8b3d8c0f27b9e1df48c68c2bd0d12a7550c3b90b0e04d2b9ffa,
  0xd3f4c43b26a9a2cecb3ab0a0ac6c3a3f18895a9d8bca2e464ef37da8129ae21e,
  0x36ea1dac1b77e511164c3c8c086906365845b8e097f2adef5ae68ed27b428819,
  0xeb0e6d966b9b0fb4682f36898f911c340221346cd80e04bce6e2d1b8861f3c4a,
  0x65445123b998a34923a16898255633b9cffb496d18b41aa854f1573b939ab1d1,
  0x5d689b8248358b1a09abe00189f947d8730d7bda16be12f705792ac5ac8ad3bc,
  0xae299fe5cae08aa3de9410ffc56ac84874669d289399652cb06475208c4a7b7a,
  0x4094fec4adea05fbb411c3bee8d48bbb4183bf3ebb19e22a7848e6a3b6ca60e5,
  0xdc41a736c4dbcb435f3dd880be0234d47d272ea9bfac8f1b44c7495a11704935]

def sampleParticipants : List Participant := [(1, 2)]

theorem sampleZeros_succ : ∀ k < 10,
    participantNode (sampleZeros.getD k 0) (sampleZeros.getD k 0) = sampleZeros.getD (k + 1) 0 := by
  decide +kernel

theorem samplePath_succ : ∀ k < 10,
    participantNode (samplePath.getD k 0) (sampleZeros.getD k 0) = samplePath.getD (k + 1) 0 := by
  decide +kernel

theorem samplePath_zero : keccak256 (leafString 0 1 2) = samplePath.getD 0 0 := by decide +kernel

theorem root_sampleZeros {k : Nat} (low : k ≤ 10) :
    root participantNode k (fun _ => 0) = sampleZeros.getD k 0 := by
  induction k with
  | zero => rfl
  | succ k ih => rw [root, ih (by omega), sampleZeros_succ k (by omega)]

theorem root_samplePath {k : Nat} (low : k ≤ 10) :
    root participantNode k (participantLeaves sampleParticipants) = samplePath.getD k 0 := by
  induction k with
  | zero => exact samplePath_zero
  | succ k ih =>
    rw [root, ih (by omega), upper_padded (d := 0) (fun _ => rfl), root_sampleZeros (by omega),
      samplePath_succ k (by omega)]

/-- Every string that is hashed for the tree. -/
def sampleTreeStrings : List Bytes :=
  leafString 0 1 2 ::
    ((List.range 10).map (fun k => nodeString (samplePath.getD k 0, sampleZeros.getD k 0)) ++
      (List.range 10).map fun k => nodeString (sampleZeros.getD k 0, sampleZeros.getD k 0))

theorem sampleTreeStrings_injOn : Set.InjOn keccak256 { x | x ∈ sampleTreeStrings } := by
  have path : (List.range 10).map (keccak256 ∘ fun k =>
      nodeString (samplePath.getD k 0, sampleZeros.getD k 0)) =
      (List.range 10).map fun k => samplePath.getD (k + 1) 0 :=
    List.map_congr_left fun k member => samplePath_succ k (List.mem_range.mp member)
  have zeros : (List.range 10).map (keccak256 ∘ fun k =>
      nodeString (sampleZeros.getD k 0, sampleZeros.getD k 0)) =
      (List.range 10).map fun k => sampleZeros.getD (k + 1) 0 :=
    List.map_congr_left fun k member => sampleZeros_succ k (List.mem_range.mp member)
  have distinct : (sampleTreeStrings.map keccak256).Nodup := by
    rw [sampleTreeStrings, List.map_cons, List.map_append, List.map_map, List.map_map, path, zeros,
      samplePath_zero]
    decide +kernel
  intro x member y member' same
  exact List.inj_on_of_nodup_map distinct member member' same

theorem sampleTreeStrings_tree : treeStrings sampleParticipants ⊆
    { x | x ∈ sampleTreeStrings } := by
  rintro x (⟨i, pkG, recipient, found, rfl⟩ | ⟨p, hashed, rfl⟩)
  · cases i with
    | zero =>
      obtain ⟨rfl, rfl⟩ := Prod.mk.inj (Option.some.inj found)
      exact List.mem_cons_self
    | succ i => cases found
  · obtain ⟨k, below, either⟩ := pairs_padded (d := 0) (fun _ => rfl) hashed
    have inside : k ∈ List.range 10 := List.mem_range.mpr below
    have low : k ≤ 10 := le_of_lt below
    rw [root_samplePath low, root_sampleZeros low] at either
    refine List.mem_cons_of_mem _ (List.mem_append.mpr ?_)
    cases either with
    | inl path => exact .inl (List.mem_map.mpr ⟨k, inside, congrArg nodeString path.symm⟩)
    | inr zeros => exact .inr (List.mem_map.mpr ⟨k, inside, congrArg nodeString zeros.symm⟩)

theorem sampleParticipants_spelled : Spells ["0x01"] ["02"] sampleParticipants where
  pkGs := by decide +kernel
  recipients := by decide +kernel
  nonzero := by simp [sampleParticipants]

/-- The deployment of a channel with that one participant. -/
def participantConfig : Config where
  self := 9
  channelId := 1
  challengePeriod := 1
  registry := 8
  closeFundingMaterializer := 7
  memberBindings := []
  activeDelegateCount := 1
  activeParticipantCount := 1
  participantRoot := participantRoot sampleParticipants
  channelId_ne_zero := by decide
  challengePeriod_pos := by decide
  challengePeriod_lt := by decide

theorem participant_tree_agrees_sample :
    settlementParticipantRoot ["0x01"] ["02"] = .ok (participantRoot sampleParticipants) ∧
    (∃ siblings, isParticipant participantConfig 0 1 2 siblings = true) ∧
    ∃ answer, deployedParticipantsArePrefix (participantRoot sampleParticipants) 1
      ["0x01", "0x03"] ["02", "04"] = .ok answer ∧
      (answer = true ↔ sampleParticipants <+: [(1, 2), (3, 4)]) := by
  obtain ⟨computed, -, rest⟩ := participant_tree_agrees sampleParticipants_spelled (by decide)
  obtain ⟨proofs, starts⟩ := rest _ sampleTreeStrings_injOn sampleTreeStrings_tree
  obtain ⟨siblings, -, accepted⟩ := (proofs participantConfig rfl rfl 0 1 2).mpr rfl
  exact ⟨computed, ⟨siblings, accepted⟩, starts _ _ [(1, 2), (3, 4)]
    ⟨by decide +kernel, by decide +kernel, by simp⟩ sampleTreeStrings_tree⟩

end Intmax.Settlement
