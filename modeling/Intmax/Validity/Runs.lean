import Intmax.Lib.Path
import Intmax.Validity.Steps

/-! # Runs on the channel tree

Accepted registrations and blocks, one after the other, from the empty tree on.  The tree after
a run is the tree of the accounts that the run stands for, whatever openings the provers have
supplied.
-/

namespace Intmax.Validity

open Checked Hashing Trees Transition Account

/-- The channel tree and the number of the last block. -/
structure TreeState (D : Type) where
  root : D
  last : Nat

inductive ChannelEvent (D B : Type) where
  | block (w : UpdateUserTree D B)
  | register (w : ChannelRegStepWitness D B)

section
variable {D B : Type} [Hashing D B]

def TreeState.start (D : Type) {B : Type} [Hashing D B] : TreeState D :=
  { root := emptyChannelRoot D, last := 0 }

namespace ChannelEvent

/-- The event is accepted on the tree of `s` and leads to `s'`.  Blocks are numbered upwards. -/
def Accepted [DecidableEq D] [DecidableEq B] (s : TreeState D) (event : ChannelEvent D B)
    (s' : TreeState D) : Prop :=
  match event with
  | .block w => w.prevAccountTreeRoot = s.root ∧ s.last < w.blockNumber.val ∧
    ∃ pis, w.toPublicInputs = .ok pis ∧
      s' = { root := pis.newAccountTreeRoot, last := w.blockNumber.val }
  | .register w => w.prevRoot = some s.root ∧
    ∃ pis, w.toPublicInputs = .ok pis ∧ s' = { s with root := pis.channelTreeRoot }

/-- What an event means for the accounts. -/
def apply (accounts : Nat → Account B) (event : ChannelEvent D B) : Nat → Account B :=
  match event with
  | .block w => if w.active then w.sent accounts else accounts
  | .register w => Function.update accounts w.record.channelId.toNat (.registered w.record)

end ChannelEvent

/-- The accounts after a sequence of events. -/
def accountsAfter (events : List (ChannelEvent D B)) : Nat → Account B :=
  events.foldl ChannelEvent.apply fun _ => .fresh

omit [Hashing D B] in
theorem accountsAfter_append (events : List (ChannelEvent D B)) (event : ChannelEvent D B) :
    accountsAfter (events ++ [event]) = event.apply (accountsAfter events) := by
  simp [accountsAfter]

/-- The state of the tree is that of these accounts. -/
structure Refines (accounts : Nat → Account B) (s : TreeState D) : Prop where
  root : s.root = accountsRoot D accounts
  ok : AccountsOk D accounts s.last

theorem Refines.start : Refines (fun _ => (fresh : Account B)) (TreeState.start D) :=
  ⟨emptyChannelRoot_eq, .fresh⟩

variable [DecidableEq D] [DecidableEq B] {accounts : Nat → Account B} {s s' : TreeState D}
  {events : List (ChannelEvent D B)} {event : ChannelEvent D B}

variable {w : UpdateUserTree D B} {pis : UpdateUserPublicInputs D B}

/-- A block with an active slot sends for a registered channel. -/
theorem Refines.block_registered (free : CollisionFree D) (refines : Refines accounts s)
    (start : w.prevAccountTreeRoot = s.root) (later : s.last < w.blockNumber.val)
    (accepted : w.toPublicInputs = .ok pis) (active : w.active = true) :
    (accounts w.channel).registration ≠ none := by
  intro unregistered
  rcases w.toPublicInputs_ok free refines.ok later (start.trans refines.root) accepted with
    ⟨idle, -⟩ | ⟨-, sends, -⟩
  · rw [active] at idle
    cases idle
  · apply sends.signers.registered free
    simp [leaf, memberRoot, unregistered]

/-- A block's step, on the accounts. -/
theorem Refines.block (free : CollisionFree D) (refines : Refines accounts s)
    (start : w.prevAccountTreeRoot = s.root) (later : s.last < w.blockNumber.val)
    (accepted : w.toPublicInputs = .ok pis) :
    Refines ((ChannelEvent.block w).apply accounts)
      { root := pis.newAccountTreeRoot, last := w.blockNumber.val } := by
  have root := start.trans refines.root
  rcases w.toPublicInputs_ok free refines.ok later root accepted with
    ⟨idle, same, -⟩ | ⟨active, sends, -, new⟩
  · simp [ChannelEvent.apply, idle]
    refine ⟨same.trans root, fun c => (refines.ok c).mono (le_of_lt later)⟩
  · simp [ChannelEvent.apply, active]
    have registered := refines.block_registered free start later accepted active
    have appended : ((accounts w.channel).append (w.entry (accounts w.channel))).Ok D w.channel
        w.blockNumber.val := (refines.ok w.channel).append registered sends.room rfl later
    have others : AccountsOk D accounts w.blockNumber.val :=
      fun c => (refines.ok c).mono (le_of_lt later)
    exact ⟨new, others.update appended⟩

/-- A block with an active slot changes the tree: its channel's last block is a new one. -/
theorem Refines.block_changes (free : CollisionFree D) (refines : Refines accounts s)
    (start : w.prevAccountTreeRoot = s.root) (later : s.last < w.blockNumber.val)
    (accepted : w.toPublicInputs = .ok pis) (active : w.active = true) :
    pis.newAccountTreeRoot ≠ s.root := by
  intro same
  have root := start.trans refines.root
  rcases w.toPublicInputs_ok free refines.ok later root accepted with
    ⟨idle, -⟩ | ⟨-, -, -, new⟩
  · rw [active] at idle
    cases idle
  · rw [same, refines.root] at new
    have leaf := treeRoot_injective free new w.channel w.block.channelId.isLt
    have prev := congrArg ChannelLeaf.prev leaf
    rw [UpdateUserTree.sent, Function.update_self, leaf_prev, leaf_prev,
      append, lastBlock_append] at prev
    have bounded := (refines.ok w.channel).bounded
    rw [prev] at bounded
    exact absurd later (not_lt.mpr bounded)

/-- A registration's step, on the accounts: it finds the account fresh. -/
theorem Refines.register (free : CollisionFree D) (refines : Refines accounts s)
    {w : ChannelRegStepWitness D B} {pis : ChannelRegChainPublicInputs D B}
    (start : w.prevRoot = some s.root) (accepted : w.toPublicInputs = .ok pis) :
    accounts w.record.channelId.toNat = .fresh ∧
    Refines ((ChannelEvent.register w).apply accounts) { s with root := pis.channelTreeRoot } := by
  rw [refines.root, accountsRoot] at start
  obtain ⟨valid, untouched, new⟩ := w.toPublicInputs_ok free accepted start
  have unregistered : (accounts w.record.channelId.toNat).registration = none := by
    cases registered : (accounts w.record.channelId.toNat).registration with
    | none => rfl
    | some record =>
      have known := ((refines.ok _).valid record registered).1
      have root := congrArg ChannelLeaf.memberPubkeysRoot untouched
      simp only [leaf, memberRoot, registered] at root
      exact absurd root (known.root_ne_empty free)
  have silent := (refines.ok w.record.channelId.toNat).silent unregistered
  refine ⟨?_, ?_, refines.ok.update (registered_ok valid _)⟩
  · cases account : accounts w.record.channelId.toNat
    simp only [account] at unregistered silent
    rw [unregistered, silent]
    rfl
  · rw [new, ← registered_leaf, accountsRoot_update]
    rfl

theorem Refines.step (free : CollisionFree D) (refines : Refines accounts s)
    (accepted : event.Accepted s s') : Refines (event.apply accounts) s' := by
  cases event with
  | block w =>
    obtain ⟨start, later, pis, accepted, rfl⟩ := accepted
    exact refines.block free start later accepted
  | register w =>
    obtain ⟨start, pis, accepted, rfl⟩ := accepted
    exact (refines.register free start accepted).2

theorem Refines.run (free : CollisionFree D)
    (run : Path ChannelEvent.Accepted (TreeState.start D) events s) :
    Refines (accountsAfter events) s := by
  have initial : Refines (accountsAfter ([] : List (ChannelEvent D B))) (TreeState.start D) :=
    Refines.start
  refine run.history (I := fun events s => Refines (accountsAfter events) s) initial ?_
  intro events s event s' _ refines accepted
  rw [accountsAfter_append]
  exact refines.step free accepted

/-- An account that no event has registered is fresh. -/
theorem accountsAfter_unregistered (free : CollisionFree D)
    (run : Path ChannelEvent.Accepted (TreeState.start D) events s) {c : Nat}
    (never : ∀ w, ChannelEvent.register w ∈ events → w.record.channelId.toNat ≠ c) :
    accountsAfter events c = .fresh := by
  have kept : (∀ w, ChannelEvent.register w ∈ events → w.record.channelId.toNat ≠ c) →
      accountsAfter events c = .fresh := by
    refine run.history (I := fun events _ =>
      (∀ w, ChannelEvent.register w ∈ events → w.record.channelId.toNat ≠ c) →
        accountsAfter events c = .fresh) (fun _ => rfl) ?_
    intro events s event s' before fresh accepted never
    have still := fresh fun w member => never w (List.mem_append_left _ member)
    rw [accountsAfter_append]
    cases event with
    | block w =>
      obtain ⟨start, later, pis, accepted, rfl⟩ := accepted
      by_cases active : w.active = true
      · -- the channel of the block is registered, so it is another one
        have registered := (Refines.run free before).block_registered free start later
          accepted active
        have other : c ≠ w.channel := by
          rintro rfl
          rw [still] at registered
          exact registered rfl
        simp [ChannelEvent.apply, active, UpdateUserTree.sent, Function.update_of_ne other, still]
      · simp [ChannelEvent.apply, active, still]
    | register w =>
      have other : c ≠ w.record.channelId.toNat := (never w (by simp)).symm
      simp only [ChannelEvent.apply, Function.update_of_ne other, still]
  exact kept never

omit [DecidableEq D] [DecidableEq B] in
/-- The leaves behind the root are those of the accounts. -/
theorem Refines.leaf_eq (free : CollisionFree D) (refines : Refines accounts s)
    {leaves : Nat → ChannelLeaf D} (behind : s.root = treeRoot D channelTreeHeight leaves)
    (c : ChannelId) : leaves c.toNat = (accounts c.toNat).leaf D :=
  treeRoot_injective free (behind.symm.trans refines.root) _ c.isLt

end

end Intmax.Validity
