import Intmax.Validity.UpdateUser
import Mathlib.Data.List.Chain

/-! # What the channel tree stands for

An account is a channel's registration and the list of its sends.  The channel tree is the tree
of the accounts' leaves: an accepted registration registers a fresh account, and an accepted
block appends one entry to the sends of its channel or leaves all accounts alone.
-/

namespace Intmax.Validity

open Checked Hashing Trees Function List Leafable

structure Account (B : Type) where
  registration : Option (ChannelRegRecord B)
  sends : List (SendLeaf B)

/-- The account of a channel that nobody has registered. -/
def Account.fresh {B : Type} : Account B := { registration := none, sends := [] }

section
variable {D B : Type} [Hashing D B]

/-- The block of the last send. -/
def lastBlock (sends : List (SendLeaf B)) : BlockNumber := (sends.getLast?.map SendLeaf.cur).getD 0

namespace Account

def memberRoot (D : Type) {B : Type} [Hashing D B] (a : Account B) : D :=
  match a.registration with
  | none => emptyMemberRoot D
  | some record => treeRoot D memberTreeHeight (registeredLeaves D record)

def leaf (D : Type) {B : Type} [Hashing D B] (a : Account B) : ChannelLeaf D :=
  { index := BitVec.ofNat 32 a.sends.length
    prev := lastBlock a.sends
    sendTreeRoot := treeRoot D sendTreeHeight (listLeaves D a.sends)
    memberPubkeysRoot := a.memberRoot D }

theorem leaf_prev (a : Account B) : (a.leaf D).prev = lastBlock a.sends := rfl

def append (a : Account B) (entry : SendLeaf B) : Account B :=
  { a with sends := a.sends ++ [entry] }

end Account

/-- The root of the channel tree of these accounts. -/
def accountsRoot (D : Type) {B : Type} [Hashing D B] (accounts : Nat → Account B) : D :=
  treeRoot D channelTreeHeight fun c => (accounts c).leaf D

theorem fresh_leaf : (Account.fresh : Account B).leaf D = emptyLeaf D := by
  have sends : treeRoot D sendTreeHeight (listLeaves D ([] : List (SendLeaf B))) =
      emptySendRoot D :=
    (IncrementalMerkleTree.new_getRoot sendTreeHeight).symm
  simp only [Account.leaf, Account.fresh, Account.memberRoot, sends]
  rfl

theorem emptyChannelRoot_eq : emptyChannelRoot D = accountsRoot D fun _ =>
    (Account.fresh : Account B) := by
  simp only [accountsRoot, fresh_leaf]
  exact SparseMerkleTree.new_getRoot channelTreeHeight

/-- The tree of the accounts when one of them changes. -/
theorem accountsRoot_update (accounts : Nat → Account B) (c : Nat) (a : Account B) :
    treeRoot D channelTreeHeight (update (fun c => (accounts c).leaf D) c (a.leaf D)) =
      accountsRoot D (update accounts c a) := by
  unfold accountsRoot
  congr 1
  funext k
  by_cases here : k = c
  · rw [here, update_self, update_self]
  · rw [update_of_ne here, update_of_ne here]

/-! ## Sends in order -/

/-- Each entry starts where the one before it ended, the first one at block 0. -/
def Contiguous (D : Type) {B : Type} [Hashing D B] (sends : List (SendLeaf B)) : Prop :=
  (Leafable.emptyLeaf D :: sends).IsChain fun a b => b.prev = a.cur ∧ a.cur < b.cur

theorem lastBlock_eq (sends : List (SendLeaf B)) :
    lastBlock sends = ((emptyLeaf D :: sends).getLast (cons_ne_nil _ _)).cur := by
  rcases eq_nil_or_concat' sends with rfl | ⟨front, entry, rfl⟩
  · rfl
  · simp [lastBlock]

variable {sends : List (SendLeaf B)} {entry : SendLeaf B}

theorem Contiguous.append (contiguous : Contiguous D sends) (linked : entry.prev = lastBlock sends)
    (later : lastBlock sends < entry.cur) : Contiguous D (sends ++ [entry]) := by
  unfold Contiguous
  rw [← cons_append, isChain_append]
  refine ⟨contiguous, .singleton _, ?_⟩
  intro a last b first
  obtain rfl : entry = b := by simpa using first
  rw [getLast?_eq_some_getLast (cons_ne_nil _ _), Option.mem_some_iff] at last
  rw [lastBlock_eq (D := D), last] at linked later
  exact ⟨linked, later⟩

theorem Contiguous.sorted (contiguous : Contiguous D sends) :
    (emptyLeaf D :: sends).Pairwise fun a b => a.cur < b.cur := by
  have increasing : (emptyLeaf D :: sends).IsChain fun a b : SendLeaf B => a.cur < b.cur :=
    contiguous.imp fun _ _ link => link.2
  exact increasing.pairwise

/-- Every entry is of a block after the first. -/
theorem Contiguous.cur_pos (contiguous : Contiguous D sends) (member : entry ∈ sends) :
    0 < entry.cur :=
  rel_of_pairwise_cons contiguous.sorted member

theorem Contiguous.ne_empty (contiguous : Contiguous D sends) (member : entry ∈ sends) :
    entry ≠ emptyLeaf D := by
  rintro rfl
  exact absurd (contiguous.cur_pos member) (lt_irrefl _)

/-- The positions of the send tree that hold an entry. -/
theorem listLeaves_eq_empty_iff (contiguous : Contiguous D sends) (i : Nat) :
    listLeaves D sends i = emptyLeaf D ↔ sends.length ≤ i := by
  by_cases inside : i < sends.length
  · have held : listLeaves D sends i = sends[i] := by simp [listLeaves, inside]
    rw [held]
    exact iff_of_false (contiguous.ne_empty (getElem_mem _)) (by omega)
  · have past : listLeaves D sends i = emptyLeaf D := by
      simp [listLeaves, getElem?_eq_none (le_of_not_gt inside)]
    exact iff_of_true past (le_of_not_gt inside)

theorem lastBlock_append (sends : List (SendLeaf B)) (entry : SendLeaf B) :
    lastBlock (sends ++ [entry]) = entry.cur := by
  simp [lastBlock]

end

end Intmax.Validity
