import Intmax.Balance.State

/-! # Transfers of the base layer

A transaction holds the root of a tree of transfers.  The recipient of a transfer is a 32-byte word
whose first byte tells an account from an L1 address.  What settles of a transfer is known by its
nullifier, a hash of the transfer with its sender and the sender's nonce.
-/

namespace Intmax.Balance

open Checked Hashing Trees Validity List Item

variable {D B : Type} [Hashing D B]

/-! ## Transfers -/

structure Transfer (B : Type) where
  recipient : B
  tokenIndex : BitVec 32
  amount : U256
  auxData : B
deriving DecidableEq

def Transfer.items (transfer : Transfer B) : List (Item D B) :=
  [.bytes transfer.recipient, u32Item transfer.tokenIndex] ++ u256Items transfer.amount ++
    [.bytes transfer.auxData]

omit [Hashing D B] in
theorem Transfer.items_injective :
    Function.Injective (Transfer.items : Transfer B → List (Item D B)) := by
  rintro ⟨recipient, token, amount, aux⟩ ⟨recipient', token', amount', aux'⟩ same
  obtain ⟨body, last⟩ := append_inj' same rfl
  obtain ⟨front, amounts⟩ := append_inj' body rfl
  simp at front last
  have amountEq : amount = amount' := u256Items_injective amounts
  rw [front.1, u32Item_injective front.2, amountEq, last]

omit [Hashing D B] in
theorem Transfer.items_alike (a b : Transfer B) :
    Forall₂ (fun a b => sameKind a b = true) (a.items : List (Item D B)) b.items := by
  simp [Transfer.items, u256Items, u32Limbs, u32Item, field, sameKind, range, range.loop]

instance transferLeaf : FixedLeaf D (Transfer B) where
  emptyLeaf := { recipient := zeroBytes D, tokenIndex := 0, amount := 0, auxData := zeroBytes D }
  preimage := Transfer.items
  layout := Transfer.items_alike
  injective := Transfer.items_injective
  width v := by
    simp [Transfer.items, u256Items, u32Limbs, u32Item, Item.field, Item.width, List.range,
      List.range.loop]

structure SettledTransfer (B : Type) where
  inner : Transfer B
  source : ChannelId
  transferIndex : BitVec 32
  nonce : BitVec 32

def SettledTransfer.items (settled : SettledTransfer B) : List (Item D B) :=
  settled.inner.items ++
    [u32Item settled.source, u32Item settled.transferIndex, u32Item settled.nonce]

def SettledTransfer.nullifier (D : Type) {B : Type} [Hashing D B]
    (settled : SettledTransfer B) : B :=
  ofDigest (hashInputs settled.items : D)

/-- A nullifier determines the transfer, its sender, its index and the nonce. -/
theorem SettledTransfer.nullifier_injective (free : CollisionFree D) {a b : SettledTransfer B}
    (same : a.nullifier D = b.nullifier D) : a = b := by
  have alike : Forall₂ (fun a b => sameKind a b = true) (a.items : List (Item D B))
      b.items := by
    refine rel_append (Transfer.items_alike _ _) ?_
    simp [u32Item, field, sameKind]
  obtain ⟨inner, rest⟩ := append_inj' (free.inputs _ _ alike (ofDigest_injective same)) rfl
  have transfer := Transfer.items_injective inner
  simp [u32Item_injective.eq_iff] at rest
  cases a
  cases b
  simp
  exact ⟨transfer, rest⟩

structure Tx (D : Type) where
  transferTreeRoot : D
  nonce : BitVec 32
deriving DecidableEq

instance txLeaf : FixedLeaf D (Tx D) where
  emptyLeaf := { transferTreeRoot := zeroDigest, nonce := 0 }
  preimage tx := [.digest tx.transferTreeRoot, u32Item tx.nonce]
  layout v w := by simp [u32Item, Item.field, Item.sameKind]
  injective := by
    rintro ⟨root, nonce⟩ ⟨root', nonce'⟩ same
    simp at same
    rw [same.1, u32Item_injective same.2]
  width v := by simp [u32Item, Item.field, Item.width]

def transferTreeHeight : Nat := 6

def sentTxTreeHeight : Nat := 32

/-- An index in a tree of at most 64 levels. -/
def index64 (n : BitVec 32) : BitVec 64 := n.setWidth 64

theorem index64_toNat (n : BitVec 32) : (index64 n).toNat = n.toNat :=
  BitVec.toNat_setWidth_of_le (by decide)

/-! ## Recipients -/

/-- The bytes of a 32-byte word. -/
class RecipientBytes (D B : Type) [Hashing D B] where
  toWord : B → BitVec 256
  ofWord : BitVec 256 → B
  toWord_ofWord : ∀ word, toWord (ofWord word) = word
  toWord_zero : toWord (zeroBytes D) = 0

def addressTag : BitVec 8 := 2

def userIdTag : BitVec 8 := 1

def userIdDomain : Nat := 0x55494400

section
variable [RecipientBytes D B]

/-- `calculate_recipient_from_user_id`: the first byte of the hash becomes the tag. -/
def calculateRecipientFromUserId (D : Type) {B : Type} [Hashing D B] [RecipientBytes D B]
    (channelId : ChannelId) (salt : D) : B :=
  let hash : B := ofDigest (hashInputs [.elem userIdDomain, u32Item channelId, .digest salt] : D)
  RecipientBytes.ofWord D (userIdTag ++ (RecipientBytes.toWord D hash).setWidth 248 : BitVec 256)

/-- Eleven zero bytes stand between the tag and the address. -/
def calculateRecipientFromAddress (D : Type) {B : Type} [Hashing D B] [RecipientBytes D B]
    (address : Address) : B :=
  RecipientBytes.ofWord D (addressTag ++ (0 : BitVec 88) ++ address : BitVec 256)

/-- `RecipientError::InvalidRecipient`, by its text. -/
def extractAddressFromRecipient (D : Type) {B : Type} [Hashing D B] [RecipientBytes D B]
    [DecidableEq B] (recipient : B) : Except String Address := do
  let word := RecipientBytes.toWord D recipient
  let tag := word.extractLsb' 248 8
  revertIf (tag ≠ addressTag)
    s!"Invalid recipient: Invalid recipient tag: expected {addressTag.toNat}, got {tag.toNat}"
  let address : Address := word.setWidth 160
  revertIf (recipient ≠ calculateRecipientFromAddress D address)
    "Invalid recipient: non-canonical ADDRESS_TAG recipient: bytes 1..11 must be zero"
  pure address

/-- The first byte of such a recipient. -/
theorem extractLsb'_address (address : Address) :
    (addressTag ++ (0 : BitVec 88) ++ address : BitVec 256).extractLsb' 248 8 = addressTag := by
  rw [BitVec.extractLsb'_append_eq_of_le (by decide)]
  exact BitVec.extractLsb'_append_eq_left

/-- The addresses are extracted from the recipients that are made from them, and no others. -/
theorem extractAddressFromRecipient_ok_iff [DecidableEq B] {recipient : B} {address : Address} :
    extractAddressFromRecipient D recipient = .ok address ↔
      recipient = calculateRecipientFromAddress D address := by
  simp [extractAddressFromRecipient]
  constructor
  · rintro ⟨-, same, rfl⟩
    exact same
  · rintro rfl
    have word : RecipientBytes.toWord D (calculateRecipientFromAddress D address : B) =
        (addressTag ++ (0 : BitVec 88) ++ address : BitVec 256) := RecipientBytes.toWord_ofWord _
    have low : (addressTag ++ (0 : BitVec 88) ++ address : BitVec 256).setWidth 160 = address :=
      BitVec.setWidth_append_eq_right
    rw [word, low, extractLsb'_address]
    exact ⟨rfl, rfl, rfl⟩

end

/-- Words that were written down as numbers. -/
instance freeRecipientBytes : RecipientBytes Free.Digest Free.Bytes where
  toWord
    | .word n => BitVec.ofNat 256 n
    | _ => 0
  ofWord word := .word word.toNat
  toWord_ofWord word := by simp
  toWord_zero := rfl

/-! ## Witnesses -/

section
variable [DecidableEq D]

structure TransferWitness (D B : Type) where
  transferTreeRoot : D
  transfer : Transfer B
  transferIndex : BitVec 32
  transferMerkleProof : MerkleProof D

def TransferWitness.verify (w : TransferWitness D B) : Except (MerkleProofError D) Unit :=
  w.transferMerkleProof.verify w.transfer (index64 w.transferIndex) w.transferTreeRoot

structure AccountState (D B : Type) where
  channelId : ChannelId
  accountTreeRoot : D
  sendLeaf : SendLeaf B
  sendLeafIndex : BitVec 32
  sendMerkleProof : MerkleProof D
  channelLeaf : ChannelLeaf D
  userMerkleProof : MerkleProof D

inductive AccountStateError (D : Type) where
  | invalidSendMerkleProof (reason : MerkleProofError D)
  | invalidUserMerkleProof (reason : MerkleProofError D)

def AccountState.verify (state : AccountState D B) : Except (AccountStateError D) Unit := do
  (state.sendMerkleProof.verify state.sendLeaf (index64 state.sendLeafIndex)
    state.channelLeaf.sendTreeRoot).mapError .invalidSendMerkleProof
  (state.userMerkleProof.verify state.channelLeaf (index64 state.channelId)
    state.accountTreeRoot).mapError .invalidUserMerkleProof

end

end Intmax.Balance
