import Intmax.Validity.UpdateUser

/-! # Public states and deposits

A public state commits to the channel tree, the deposit tree and, through the public-state tree,
to all public states before it.  A step of the deposit chain puts one deposit into the next free
position of the deposit tree and folds it into the deposit hash chain.
-/

namespace Intmax.Validity

open Checked Hashing Trees List

/-- `as_u64`. -/
def U63.asU64 (n : U63) : BitVec 64 := BitVec.ofNat 64 n.val

@[simp] theorem U63.asU64_toNat (n : U63) : n.asU64.toNat = n.val :=
  (BitVec.toNat_ofNat _ _).trans (Nat.mod_eq_of_lt (lt_trans n.isLt (by decide)))

/-! ## Deposits -/

structure Deposit (B : Type) where
  depositIndex : U63
  blockNumber : BlockNumber
  depositor : Address
  recipient : B
  tokenIndex : BitVec 32
  amount : U256
  auxData : B
deriving DecidableEq

section
variable {D B : Type}

theorem addressItems_injective : Function.Injective (addressItems : Address →
    List (Item D B)) := by
  intro a b same
  simp only [addressItems, range, range.loop, map_cons, map_nil,
    cons.injEq, Item.elem.injEq, and_true] at same
  exact BitVec.eq_of_toNat_eq (by omega)

theorem u256Items_injective : Function.Injective (u256Items : U256 → List (Item D B)) := by
  intro a b same
  have elems : Function.Injective (Item.elem : Nat → Item D B) := fun _ _ h => Item.elem.inj h
  exact Fin.ext (u32Limbs_injective a.isLt b.isLt (map_injective_iff.mpr elems same))

variable [Hashing D B]

/-- What both hashes of a deposit read. -/
def Deposit.items (deposit : Deposit B) : List (Item D B) :=
  addressItems deposit.depositor ++ [.bytes deposit.recipient, u32Item deposit.tokenIndex] ++
    u256Items deposit.amount ++ [.bytes deposit.auxData]

omit [Hashing D B] in
theorem Deposit.items_injective {a b : Deposit B}
    (same : (a.items : List (Item D B)) = b.items) : a.depositor = b.depositor ∧
      a.recipient = b.recipient ∧ a.tokenIndex = b.tokenIndex ∧ a.amount = b.amount ∧
      a.auxData = b.auxData := by
  obtain ⟨front, aux⟩ := append_inj' same rfl
  obtain ⟨front, amount⟩ := append_inj' front rfl
  obtain ⟨depositor, middle⟩ := append_inj' front rfl
  simp at aux middle
  exact ⟨addressItems_injective depositor, middle.1, u32Item_injective middle.2,
    u256Items_injective amount, aux⟩

instance : FixedLeaf D (Deposit B) where
  emptyLeaf :=
    { depositIndex := 0, blockNumber := 0, depositor := 0, recipient := zeroBytes D, tokenIndex := 0
      amount := 0, auxData := zeroBytes D }
  preimage deposit := [u63Item deposit.depositIndex, u63Item deposit.blockNumber] ++ deposit.items
  layout v w := by
    simp [Deposit.items, addressItems, u256Items, u32Limbs, u63Item, u32Item, Item.field,
      Item.sameKind, List.range, List.range.loop]
  injective := by
    intro v w same
    obtain ⟨front, back⟩ := List.append_inj same rfl
    simp at front
    obtain ⟨depositor, recipient, token, amount, aux⟩ := Deposit.items_injective back
    cases v
    cases w
    simp_all only [u63Item_injective.eq_iff]
  width v := by
    simp [Deposit.items, addressItems, u256Items, u32Limbs, u63Item, u32Item, Item.field,
      Item.width, List.range, List.range.loop]

/-- The index and the block are not part of the hash that the contract keeps. -/
def Deposit.hashWithPrevHash (D : Type) {B : Type} [Hashing D B] (deposit : Deposit B)
    (prevHash : B) :
    B :=
  keccak (D := D) ([.bytes prevHash] ++ deposit.items)

def depositTreeHeight : Nat := 63

/-- The root of `DepositTree::init`. -/
def emptyDepositRoot (D : Type) {B : Type} [Hashing D B] : D :=
  (IncrementalMerkleTree.new (Deposit B) depositTreeHeight : IncrementalMerkleTree D _).getRoot

structure DepositChainPublicInputs (D B : Type) where
  initialDepositHashChain : B
  initialDepositTreeRoot : D
  initialDepositCount : U63
  depositHashChain : B
  depositTreeRoot : D
  depositCount : U63
  blockNumber : BlockNumber
deriving DecidableEq

structure DepositStepWitness (D B : Type) where
  initialValue : Option (B × D × U63)
  prevDepositChainProof : Option (DepositChainPublicInputs D B)
  deposit : Deposit B
  depositMerkleProof : MerkleProof D

inductive UpdateDepositTreeError (D : Type) where
  | notOneInput
  | blockNumberMismatch (prev current : BlockNumber)
  | depositIndexMismatch (depositIndex depositCount : U63)
  | emptyDeposit (error : MerkleProofError D)
  | countOverflow

namespace DepositStepWitness

/-- The public inputs that the step extends. -/
def prevPis (w : DepositStepWitness D B) :
    Except (UpdateDepositTreeError D) (DepositChainPublicInputs D B) :=
  match w.initialValue, w.prevDepositChainProof with
  | some (chain, root, count), none =>
    .ok
      { initialDepositHashChain := chain, initialDepositTreeRoot := root
        initialDepositCount := count
        depositHashChain := chain, depositTreeRoot := root, depositCount := count
        blockNumber := w.deposit.blockNumber }
  | none, some prev => do
    revertIf (prev.blockNumber ≠ w.deposit.blockNumber)
      (.blockNumberMismatch prev.blockNumber w.deposit.blockNumber)
    pure prev
  | _, _ => .error .notOneInput

def toPublicInputs [DecidableEq D] (w : DepositStepWitness D B) :
    Except (UpdateDepositTreeError D) (DepositChainPublicInputs D B) := do
  let prev ← w.prevPis
  revertIf (w.deposit.depositIndex ≠ prev.depositCount)
    (.depositIndexMismatch w.deposit.depositIndex prev.depositCount)
  (w.depositMerkleProof.verify (Leafable.emptyLeaf D : Deposit B) prev.depositCount.asU64
    prev.depositTreeRoot).mapError .emptyDeposit
  let depositTreeRoot := w.depositMerkleProof.getRoot w.deposit prev.depositCount.asU64
  let depositCount ← getOrRevert (U63.add prev.depositCount 1) .countOverflow
  pure
    { prev with
      depositHashChain := w.deposit.hashWithPrevHash D prev.depositHashChain
      depositTreeRoot, depositCount, blockNumber := w.deposit.blockNumber }

end DepositStepWitness

/-! ## Public states -/

structure PublicState (D : Type) where
  blockNumber : BlockNumber
  timestamp : BitVec 64
  accountTreeRoot : D
  depositTreeRoot : D
  prevPublicStateRoot : D
deriving DecidableEq

instance : FixedLeaf D (PublicState D) where
  emptyLeaf :=
    { blockNumber := 0, timestamp := 0, accountTreeRoot := zeroDigest, depositTreeRoot := zeroDigest
      prevPublicStateRoot := zeroDigest }
  preimage state := [u63Item state.blockNumber] ++ u64Items state.timestamp ++
    [.digest state.accountTreeRoot, .digest state.depositTreeRoot,
    .digest state.prevPublicStateRoot]
  layout v w := by simp [u64Items, u63Item, u32Item, Item.field, Item.sameKind]
  injective := by
    intro v w same
    obtain ⟨front, roots⟩ := List.append_inj' same rfl
    obtain ⟨number, timestamp⟩ := List.append_inj front rfl
    have timestamp := u64Items_injective timestamp
    simp at number roots
    have number := u63Item_injective number
    cases v
    cases w
    simp_all
  width v := by simp [u64Items, u63Item, u32Item, Item.field, Item.width]

def publicStateTreeHeight : Nat := 63

/-- The root of `PublicStateTree::init`. -/
def emptyPublicStateRoot (D : Type) {B : Type} [Hashing D B] : D :=
  (IncrementalMerkleTree.new (PublicState D) publicStateTreeHeight).getRoot

/-- `PublicState::default`. -/
def PublicState.genesis (D : Type) {B : Type} [Hashing D B] : PublicState D :=
  { blockNumber := 0, timestamp := 0, accountTreeRoot := emptyChannelRoot D
    depositTreeRoot := emptyDepositRoot D, prevPublicStateRoot := emptyPublicStateRoot D }

structure ExtendedPublicState (D B : Type) where
  inner : PublicState D
  blockHashChain : B
  depositHashChain : B
  depositCount : U63
  channelRegHashChain : B
  bpSigChain : B
deriving DecidableEq

/-- `ExtendedPublicState::default`. -/
def ExtendedPublicState.genesis (D : Type) {B : Type} [Hashing D B] : ExtendedPublicState D B :=
  { inner := .genesis D, blockHashChain := zeroBytes D, depositHashChain := zeroBytes D
    depositCount := 0, channelRegHashChain := zeroBytes D, bpSigChain := zeroBytes D }

/-! ## Old states under a new one -/

structure UpdatePublicState (D : Type) where
  new : PublicState D
  old : PublicState D
  merkleProof : MerkleProof D

/-- `UpdatePublicStateError::InvalidMerkleProof`, by what its text reports. -/
inductive UpdatePublicStateError (D : Type) where
  | invalidMerkleProof (calculated expected : D)

def UpdatePublicState.verify [DecidableEq D] (u : UpdatePublicState D) :
    Except (UpdatePublicStateError D) Unit :=
  if u.new = u.old then .ok ()
  else
    let calculated := u.merkleProof.getRoot u.old u.old.blockNumber.asU64
    revertIf (calculated ≠ u.new.prevPublicStateRoot)
      (.invalidMerkleProof calculated u.new.prevPublicStateRoot)

end

end Intmax.Validity
