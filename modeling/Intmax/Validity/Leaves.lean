import Intmax.Trees.Leaves

/-! # Accounts of the channels

The channel tree holds one leaf for each channel: how many sends it has made, the block of the
last one, the root of its send tree and the root of its registered members.
-/

namespace Intmax.Validity

open Hashing Trees BitVec

/-! ## Numbers -/

/-- `U63`: block numbers, deposit indices and counts. -/
abbrev U63 := Fin (2 ^ 63)

instance U63.neZero : NeZero (2 ^ 63 : Nat) := ⟨by decide⟩

abbrev BlockNumber := U63

def U63.add (a : U63) (x : Nat) : Option U63 :=
  if h : a.val + x < 2 ^ 63 then some ⟨a.val + x, h⟩ else none

theorem U63.add_eq_some {a b : U63} {x : Nat} : U63.add a x = some b ↔ b.val = a.val + x := by
  unfold U63.add
  split
  case isTrue inside => simp [Fin.ext_iff, eq_comm]
  case isFalse outside =>
    simp [reduceCtorEq]
    intro same
    exact outside (same ▸ b.isLt)

abbrev ChannelId := BitVec 32

/-- `as_u64`. -/
def asU64 (c : BitVec 32) : BitVec 64 := c.setWidth 64

@[simp] theorem asU64_toNat (c : BitVec 32) : (asU64 c).toNat = c.toNat := by
  have := c.isLt
  simp [asU64]
  omega

section
variable {D B : Type}

/-- A number that is smaller than the order of the field is hashed as itself. -/
theorem field_injective {m n : Nat} (hm : m < goldilocksOrder) (hn : n < goldilocksOrder)
    (same : (Item.field m : Item D B) = .field n) : m = n := by
  simpa [Item.field, Nat.mod_eq_of_lt hm, Nat.mod_eq_of_lt hn] using same

def u63Item (n : U63) : Item D B := .field n.val

theorem u63Item_injective : Function.Injective (u63Item : U63 → Item D B) := by
  intro m n same
  refine Fin.ext (field_injective ?_ ?_ same)
  · exact lt_trans m.isLt (by decide)
  · exact lt_trans n.isLt (by decide)

def u32Item (n : BitVec 32) : Item D B := .field n.toNat

theorem u32Item_injective : Function.Injective (u32Item : BitVec 32 → Item D B) := by
  intro m n same
  refine eq_of_toNat_eq (field_injective ?_ ?_ same)
  · exact lt_trans m.isLt (by decide)
  · exact lt_trans n.isLt (by decide)

/-- `U64::to_u64_vec` and `split_u64`: the high and the low limb. -/
def u64Items (n : BitVec 64) : List (Item D B) :=
  [u32Item (n.extractLsb' 32 32), u32Item (n.extractLsb' 0 32)]

theorem u64Items_injective : Function.Injective (u64Items : BitVec 64 → List (Item D B)) := by
  intro m n same
  simp [u64Items] at same
  have high := congrArg BitVec.toNat (u32Item_injective same.1)
  have low := congrArg BitVec.toNat (u32Item_injective same.2)
  simp [Nat.shiftRight_eq_div_pow] at high low
  exact eq_of_toNat_eq (by omega)

end

/-! ## Leaves -/

section
variable {D B : Type} [Hashing D B]

structure SendLeaf (B : Type) where
  prev : BlockNumber
  cur : BlockNumber
  txTreeRoot : B
deriving DecidableEq

instance : FixedLeaf D (SendLeaf B) where
  emptyLeaf := { prev := 0, cur := 0, txTreeRoot := zeroBytes D }
  preimage leaf := [u63Item leaf.prev, u63Item leaf.cur, .bytes leaf.txTreeRoot]
  layout v w := by simp [u63Item, Item.field, Item.sameKind]
  injective := by
    rintro ⟨prev, cur, root⟩ ⟨prev', cur', root'⟩ same
    simp at same
    rw [u63Item_injective same.1, u63Item_injective same.2.1, same.2.2]
  width v := by simp [u63Item, Item.field, Item.width]

structure MemberLeaf (D : Type) where
  pkG : D
  pkB : D
  regevPkDigest : D
deriving DecidableEq

def memberLeafDomain : Nat := 0x4d424c46

instance : FixedLeaf D (MemberLeaf D) where
  emptyLeaf := { pkG := zeroDigest, pkB := zeroDigest, regevPkDigest := zeroDigest }
  preimage leaf :=
    [.elem memberLeafDomain, .digest leaf.pkG, .digest leaf.pkB, .digest leaf.regevPkDigest]
  layout v w := by simp [Item.sameKind]
  injective := by
    rintro ⟨pkG, pkB, regev⟩ ⟨pkG', pkB', regev'⟩ same
    simpa using same
  width v := by simp [Item.width]

/-- `MAX_SIG_CLUSTER` slots. -/
def memberTreeHeight : Nat := 3

def maxSigCluster : Nat := 8

/-- The root of `MemberTree::init`. -/
def emptyMemberRoot (D : Type) {B : Type} [Hashing D B] : D :=
  (IncrementalMerkleTree.new (MemberLeaf D) memberTreeHeight).getRoot

def sendTreeHeight : Nat := 32

/-- The root of `SendTree::init`. -/
def emptySendRoot (D : Type) {B : Type} [Hashing D B] : D :=
  (IncrementalMerkleTree.new (SendLeaf B) sendTreeHeight : IncrementalMerkleTree D _).getRoot

structure ChannelLeaf (D : Type) where
  /-- The next index of the send tree. -/
  index : BitVec 32
  prev : BlockNumber
  sendTreeRoot : D
  memberPubkeysRoot : D
deriving DecidableEq

def channelLeafDomain : Nat := 0x43484c46

instance : FixedLeaf D (ChannelLeaf D) where
  emptyLeaf :=
    { index := 0, prev := 0, sendTreeRoot := emptySendRoot D,
      memberPubkeysRoot := emptyMemberRoot D }
  preimage leaf :=
    [.elem channelLeafDomain, u32Item leaf.index, u63Item leaf.prev, .digest leaf.sendTreeRoot,
      .digest leaf.memberPubkeysRoot]
  layout v w := by simp [u32Item, u63Item, Item.field, Item.sameKind]
  injective := by
    rintro ⟨index, prev, sends, members⟩ ⟨index', prev', sends', members'⟩ same
    simp at same
    rw [u32Item_injective same.1, u63Item_injective same.2.1, same.2.2.1, same.2.2.2]
  width v := by simp [u32Item, u63Item, Item.field, Item.width]

def channelTreeHeight : Nat := 32

/-- The root of `ChannelTree::init`. -/
def emptyChannelRoot (D : Type) {B : Type} [Hashing D B] : D :=
  (SparseMerkleTree.new (ChannelLeaf D) channelTreeHeight).getRoot

/-! ## Transactions -/

inductive TxClass where
  | userTransfer
  | channelAction
deriving DecidableEq

def TxClass.asU32 : TxClass → Nat
  | .userTransfer => 0
  | .channelAction => 1

structure TxV2 (D : Type) where
  txClass : TxClass
  transferTreeRoot : D
  nonce : BitVec 32
  channelActionRoot : D
deriving DecidableEq

instance : FixedLeaf D (TxV2 D) where
  emptyLeaf :=
    { txClass := .userTransfer, transferTreeRoot := zeroDigest, nonce := 0
      channelActionRoot := zeroDigest }
  preimage tx :=
    [.elem tx.txClass.asU32, .digest tx.transferTreeRoot, u32Item tx.nonce,
      .digest tx.channelActionRoot]
  layout v w := by simp [u32Item, Item.field, Item.sameKind]
  injective := by
    rintro ⟨kind, transfers, nonce, action⟩ ⟨kind', transfers', nonce', action'⟩ same
    simp at same
    obtain ⟨kinds, rfl, nonces, rfl⟩ := same
    rw [u32Item_injective nonces]
    cases kind <;> cases kind' <;> first | rfl | cases kinds
  width v := by simp [u32Item, Item.field, Item.width]

inductive ChannelActionKind where
  | interChannelSend
  | channelClose
  | memberSetUpdate
deriving DecidableEq

def ChannelActionKind.asU32 : ChannelActionKind → Nat
  | .interChannelSend => 0
  | .channelClose => 1
  | .memberSetUpdate => 2

structure ChannelAction (D B : Type) where
  kind : ChannelActionKind
  sourceChannelId : ChannelId
  destinationChannelId : ChannelId
  txHash : B
  «seal» : B
  payloadHash : D
deriving DecidableEq

instance : Leafable D (ChannelAction D B) where
  emptyLeaf :=
    { kind := .interChannelSend, sourceChannelId := 0, destinationChannelId := 0
      txHash := zeroBytes D, «seal» := zeroBytes D, payloadHash := zeroDigest }
  hash action := hashInputs [.elem action.kind.asU32, u32Item action.sourceChannelId,
    u32Item action.destinationChannelId, .bytes action.txHash, .bytes action.«seal»,
    .digest action.payloadHash]

/-! ## Regev keys of members -/

structure RegevPk where
  a : List (BitVec 32)
  b : List (BitVec 32)
deriving DecidableEq

def regevN : Nat := 2048

def regevQ : Nat := 2013265921

def RegevPk.validate (pk : RegevPk) : Bool :=
  pk.a.length == regevN && pk.b.length == regevN && (pk.a ++ pk.b).all fun c => c.toNat < regevQ

def regevPkPoseidonDomain : Nat := 0x494d5250

/-- An invalid key panics. -/
def RegevPk.poseidonDigest (pk : RegevPk) : Option D :=
  if pk.validate then
    some (hashInputs ([.elem regevPkPoseidonDomain, .elem regevN] ++ pk.a.map u32Item ++
      pk.b.map u32Item))
  else none

end

end Intmax.Validity
