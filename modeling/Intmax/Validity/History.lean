import Intmax.Validity.Progress
import Intmax.Validity.SubChains

/-! # The history behind a public state

Along every chain of accepted block steps from genesis the public-state tree holds the chain's own
earlier states, the deposit tree holds the deposits of the deposit chain, and the channel tree is
that of a run of blocks and registrations.
-/

namespace Intmax.Validity

open Checked Hashing Trees Transition Free Verifiers List UpdateUserTree ExtendedPublicState

section
variable {D B : Type} [Hashing D B] [DecidableEq D] [DecidableEq B]

/-- An accepted block step from `s` to `s'`; the label keeps the state it extends and its
    witness. -/
def Extends (v : Verifiers D B) (s : ExtendedPublicState D B)
    (step : ExtendedPublicState D B × BlockStepWitness D B)
    (s' : ExtendedPublicState D B) : Prop :=
  step.1 = s ∧ ∃ prev pis, step.2.prevInputs v = .ok prev ∧ prev.extPublicState = s ∧
    step.2.toPublicInputs v = .ok pis ∧ pis.extPublicState = s'

/-- The deposit chain, tree and count change only as the attached deposit proof says. -/
def DepositChange (v : Verifiers D B) (w : BlockStepWitness D B) (s s' : ExtendedPublicState D B) :
    Prop :=
  (s'.depositHashChain = s.depositHashChain ∧
    s'.inner.depositTreeRoot = s.inner.depositTreeRoot ∧ s'.depositCount = s.depositCount) ∨
  ∃ pis, w.depositHashChainProof = some pis ∧ v.depositChain pis = true ∧
    pis.initialDepositHashChain = s.depositHashChain ∧
    pis.initialDepositTreeRoot = s.inner.depositTreeRoot ∧
    pis.initialDepositCount = s.depositCount ∧ pis.blockNumber = s'.inner.blockNumber ∧
    pis.depositHashChain = s'.depositHashChain ∧
    pis.depositTreeRoot = s'.inner.depositTreeRoot ∧ pis.depositCount = s'.depositCount

/-- The registration chain and the channel tree change only as the attached registration proof
    says; without one the channel tree is that of the update proof. -/
def ChannelChange (v : Verifiers D B) (w : BlockStepWitness D B) (s s' : ExtendedPublicState D B) :
    Prop :=
  (w.channelRegHashChainProof = none ∧ s'.channelRegHashChain = s.channelRegHashChain ∧
    s'.inner.accountTreeRoot = w.updateUserProof.newAccountTreeRoot) ∨
  ∃ pis, w.channelRegHashChainProof = some pis ∧ v.channelRegChain pis = true ∧
    pis.initialChannelRegHashChain = s.channelRegHashChain ∧
    pis.initialChannelTreeRoot = s.inner.accountTreeRoot ∧
    pis.blockNumber = s'.inner.blockNumber ∧
    pis.channelRegHashChain = s'.channelRegHashChain ∧
    pis.channelTreeRoot = s'.inner.accountTreeRoot ∧
    w.updateUserProof.newAccountTreeRoot = s.inner.accountTreeRoot

/-- Everything that an accepted block step says about the two states. -/
structure BlockChange (v : Verifiers D B) (w : BlockStepWitness D B)
    (s s' : ExtendedPublicState D B) : Prop where
  number : s'.inner.blockNumber.val = s.inner.blockNumber.val + 1
  verified : ∃ verify, v.updateAccount w.numUsers = some verify ∧
    verify w.updateUserProof = true
  update_number : w.updateUserProof.blockNumber = s'.inner.blockNumber
  update_root : w.updateUserProof.prevAccountTreeRoot = s.inner.accountTreeRoot
  deposits : DepositChange v w s s'
  channels : ChannelChange v w s s'
  opened : w.publicStateMerkleProof.verify (Leafable.emptyLeaf D : PublicState D)
    s.inner.blockNumber.asU64 s.inner.prevPublicStateRoot = .ok ()
  root : s'.inner.prevPublicStateRoot =
    w.publicStateMerkleProof.getRoot s.inner s.inner.blockNumber.asU64

variable {v : Verifiers D B} {w : BlockStepWitness D B} {s s' : ExtendedPublicState D B}

variable {number : BlockNumber} {chain : B} {root : D} {i n : Nat} {u : UpdateUserTree D B}
  {st : ExtendedPublicState D B}

omit [Hashing D B] in
theorem BlockStepWitness.depositPart_ok {count : U63}
    (accepted : w.depositPart v s number = .ok (chain, root, count)) :
    (chain = s.depositHashChain ∧ root = s.inner.depositTreeRoot ∧ count = s.depositCount) ∨
    ∃ pis, w.depositHashChainProof = some pis ∧ v.depositChain pis = true ∧
      pis.initialDepositHashChain = s.depositHashChain ∧
      pis.initialDepositTreeRoot = s.inner.depositTreeRoot ∧
      pis.initialDepositCount = s.depositCount ∧ pis.blockNumber = number ∧
      pis.depositHashChain = chain ∧ pis.depositTreeRoot = root ∧ pis.depositCount = count := by
  simp only [depositPart, ite_ok, bind_ok, getOrRevert_ok, revertIf_ok,
    exists_unit, pure_ok, Prod.mk.injEq, not_not, Bool.not_eq_false] at accepted
  rcases accepted with ⟨-, pis, given, verified, first, second, third, -, fourth, result⟩ |
    ⟨-, chain, root, count⟩
  · exact .inr ⟨pis, given, verified, first, second, third, fourth, result⟩
  · exact .inl ⟨chain.symm, root.symm, count.symm⟩

omit [Hashing D B] in
theorem BlockStepWitness.channelRegPart_ok
    (accepted : w.channelRegPart v s number = .ok (chain, root)) :
    (w.channelRegHashChainProof = none ∧ chain = s.channelRegHashChain ∧
      root = w.updateUserProof.newAccountTreeRoot) ∨
    ∃ pis, w.channelRegHashChainProof = some pis ∧ v.channelRegChain pis = true ∧
      pis.initialChannelRegHashChain = s.channelRegHashChain ∧
      pis.initialChannelTreeRoot = s.inner.accountTreeRoot ∧ pis.blockNumber = number ∧
      pis.channelRegHashChain = chain ∧ pis.channelTreeRoot = root ∧
      w.updateUserProof.newAccountTreeRoot = w.updateUserProof.prevAccountTreeRoot := by
  unfold channelRegPart at accepted
  cases given : w.channelRegHashChainProof with
  | none =>
    simp [given] at accepted
    exact .inl ⟨rfl, accepted.1.symm, accepted.2.symm⟩
  | some pis =>
    simp [given] at accepted
    obtain ⟨verified, first, second, number, unchanged, chain, root⟩ := accepted
    exact .inr ⟨pis, rfl, verified, first, second, number, chain, root, unchanged⟩

/-- The inversion of a block step. -/
theorem Extends.change (extended : Extends v s (s, w) s') : BlockChange v w s s' := by
  obtain ⟨-, prev, pis, started, rfl, accepted, rfl⟩ := extended
  simp only [BlockStepWitness.toPublicInputs, bind_ok, getOrRevert_ok, revertIf_ok,
    mapError_ok, exists_unit, pure_ok, not_not, Bool.not_eq_false] at accepted
  obtain ⟨prev', started', verify, known, verified, number, next, sameNumber, sameRoot, -, -,
    ⟨chain, root, count⟩, deposits, ⟨regChain, accountRoot⟩, channels, -, -,
    opened, rfl⟩ :=
    accepted
  cases started.symm.trans started'
  refine
    { number := U63.add_eq_some.mp next
      verified := ⟨verify, known, verified⟩
      update_number := sameNumber
      update_root := sameRoot
      deposits := BlockStepWitness.depositPart_ok deposits
      channels := ?_
      opened
      root := rfl }
  rcases BlockStepWitness.channelRegPart_ok channels with none | ⟨pis, given, verified, first,
    second, number, chain, root, unchanged⟩
  · exact .inl none
  · exact .inr ⟨pis, given, verified, first, second, number, chain, root,
      unchanged.trans sameRoot⟩

/-! ## The invariant of a chain -/

/-- The states of a chain, from genesis to the last one. -/
def statesOf (steps : List (ExtendedPublicState D B × BlockStepWitness D B))
    (s : ExtendedPublicState D B) : List (ExtendedPublicState D B) :=
  steps.map Prod.fst ++ [s]

/-- The block that a deposit names is the one whose step took its index. -/
def IncludedAt (states : List (ExtendedPublicState D B)) (i : Nat) (deposit : Deposit B) : Prop :=
  ∃ b before after, deposit.blockNumber.val = b + 1 ∧ states[b]? = some before ∧
    states[b + 1]? = some after ∧ before.depositCount.val ≤ i ∧ i < after.depositCount.val

/-- A block with a registration proof sends nothing. -/
def Exclusive (w : BlockStepWitness D B) : Prop :=
  w.channelRegHashChainProof.isSome = true → ∀ u : UpdateUserTree D B,
    u.toPublicInputs = .ok w.updateUserProof → u.active = false

structure HistoryOk (steps : List (ExtendedPublicState D B × BlockStepWitness D B))
    (s : ExtendedPublicState D B) : Prop where
  number : s.inner.blockNumber.val = steps.length
  states : s.inner.prevPublicStateRoot =
    treeRoot D publicStateTreeHeight (listLeaves D (steps.map fun step => step.1.inner))
  deposits : ∃ deposits : List (Deposit B),
    DepositsBehind deposits s.depositHashChain s.inner.depositTreeRoot s.depositCount ∧
    ∀ i deposit, deposits[i]? = some deposit → IncludedAt (statesOf steps s) i deposit
  channels : ∃ events : List (ChannelEvent D B), Path ChannelEvent.Accepted (TreeState.start D)
    events ⟨s.inner.accountTreeRoot, s.inner.blockNumber.val⟩

variable {steps : List (ExtendedPublicState D B × BlockStepWitness D B)}

omit [Hashing D B] [DecidableEq D] [DecidableEq B] in
theorem statesOf_append :
    statesOf (steps ++ [(s, w)]) s' = statesOf steps s ++ [s'] := by
  simp [statesOf]

omit [Hashing D B] [DecidableEq D] [DecidableEq B] in
theorem statesOf_last : (statesOf steps s)[steps.length]? = some s := by
  simp [statesOf]

theorem getElem?_append_of_some {α : Type} {xs : List α} {x : α} (held : xs[i]? = some x)
    (later : List α) : (xs ++ later)[i]? = some x := by
  rw [List.getElem?_append_left (List.getElem?_eq_some_iff.mp held).1]
  exact held

omit [Hashing D B] [DecidableEq D] [DecidableEq B] in
theorem IncludedAt.append {states : List (ExtendedPublicState D B)} {deposit : Deposit B}
    (included : IncludedAt states i deposit) (later : List (ExtendedPublicState D B)) :
    IncludedAt (states ++ later) i deposit := by
  obtain ⟨b, before, after, number, first, second, low, high⟩ := included
  exact ⟨b, before, after, number, getElem?_append_of_some first _,
    getElem?_append_of_some second _, low, high⟩

theorem HistoryOk.genesis : HistoryOk [] (genesis D : ExtendedPublicState D B) where
  number := rfl
  states := IncrementalMerkleTree.new_getRoot publicStateTreeHeight
  deposits := ⟨[], .empty, by simp⟩
  channels := ⟨[], .nil⟩

/-- One step on the public-state tree: the state that is extended joins the earlier ones. -/
theorem HistoryOk.states_step (free : CollisionFree D) (ok : HistoryOk steps s)
    (change : BlockChange v w s s') : s'.inner.prevPublicStateRoot =
      treeRoot D publicStateTreeHeight
        (listLeaves D ((steps ++ [(s, w)]).map fun step => step.1.inner)) := by
  have opened := change.opened
  rw [ok.states] at opened
  obtain ⟨-, -, climbs⟩ := MerkleProof.verify_leaf free opened
  rw [change.root, climbs, U63.asU64_toNat, ok.number, map_append, map_singleton,
    listLeaves_append, length_map]

/-- One step on the deposits: they stay, and new ones name this block. -/
theorem HistoryOk.deposits_step (free : CollisionFree D) (sound : v.Sound) (ok : HistoryOk steps s)
    (change : BlockChange v w s s') : ∃ deposits : List (Deposit B),
      DepositsBehind deposits s'.depositHashChain s'.inner.depositTreeRoot s'.depositCount ∧
      ∀ i deposit, deposits[i]? = some deposit →
        IncludedAt (statesOf (steps ++ [(s, w)]) s') i deposit := by
  obtain ⟨deposits, behind, included⟩ := ok.deposits
  rw [statesOf_append]
  rcases change.deposits with ⟨chain, root, count⟩ |
    ⟨pis, -, verified, chain, root, count, number, chain', root', count'⟩
  · rw [chain, root, count]
    exact ⟨deposits, behind, fun i deposit held => (included i deposit held).append _⟩
  · rw [← chain, ← root, ← count] at behind
    obtain ⟨new, appended, numbers⟩ := (sound.depositChain pis verified).appends free behind
    rw [chain', root', count'] at appended
    refine ⟨deposits ++ new, appended, fun i deposit held => ?_⟩
    by_cases old : i < deposits.length
    · rw [getElem?_append_left old] at held
      exact (included i deposit held).append _
    · have bound := (List.getElem?_eq_some_iff.mp held).1
      rw [getElem?_append_right (le_of_not_gt old)] at held
      refine ⟨steps.length, s, s', ?_, getElem?_append_of_some statesOf_last _, ?_, ?_, ?_⟩
      · rw [numbers deposit (mem_of_getElem? held), number, change.number, ok.number]
      · simp [statesOf]
      · rw [← count, behind.count_eq]
        exact le_of_not_gt old
      · rw [appended.count_eq]
        exact bound

omit [Hashing D B] in
theorem UpdateUserTree.toPublicInputs_start [Hashing D B] {pis : UpdateUserPublicInputs D B}
    (accepted : u.toPublicInputs = .ok pis) :
    pis.blockNumber = u.blockNumber ∧ pis.prevAccountTreeRoot = u.prevAccountTreeRoot := by
  simp [toPublicInputs] at accepted
  obtain ⟨-, -, -, -, -, -, -, rfl⟩ := accepted
  exact ⟨rfl, rfl⟩

/-- The update of a block starts where the chain is. -/
theorem BlockChange.starts (change : BlockChange v w s s')
    (accepted : u.toPublicInputs = .ok w.updateUserProof) :
    u.prevAccountTreeRoot = s.inner.accountTreeRoot ∧
    u.blockNumber = s'.inner.blockNumber ∧ s.inner.blockNumber.val < u.blockNumber.val := by
  obtain ⟨number, root⟩ := toPublicInputs_start accepted
  have same : u.blockNumber = s'.inner.blockNumber := number.symm.trans change.update_number
  refine ⟨root.symm.trans change.update_root, same, ?_⟩
  rw [same, change.number]
  exact lt_add_one _

/-- One step on the channel tree: the block, and after it the registrations. -/
theorem HistoryOk.channels_step (sound : v.Sound) (ok : HistoryOk steps s)
    (change : BlockChange v w s s') : ∃ events : List (ChannelEvent D B),
      Path ChannelEvent.Accepted (TreeState.start D) events
        ⟨s'.inner.accountTreeRoot, s'.inner.blockNumber.val⟩ := by
  obtain ⟨events, run⟩ := ok.channels
  obtain ⟨verify, known, verified⟩ := change.verified
  obtain ⟨u, accepted⟩ := sound.updateAccount _ _ _ known verified
  obtain ⟨root, number, later⟩ := change.starts accepted
  have block : ChannelEvent.Accepted ⟨s.inner.accountTreeRoot, s.inner.blockNumber.val⟩
      (.block u) ⟨w.updateUserProof.newAccountTreeRoot, s'.inner.blockNumber.val⟩ :=
    ⟨root, later, _, accepted, by rw [number]⟩
  rcases change.channels with ⟨-, -, same⟩ | ⟨pis, -, verified, -, initial, -, -,
    final, unchanged⟩
  · rw [same]
    exact ⟨_, run.snoc block⟩
  · obtain ⟨ws, registrations⟩ :=
      (sound.channelRegChain pis verified).run s'.inner.blockNumber.val
    rw [initial, ← unchanged, final] at registrations
    exact ⟨_, (run.snoc block).trans registrations⟩

theorem HistoryOk.exclusive (free : CollisionFree D) (ok : HistoryOk steps s)
    (change : BlockChange v w s s') : Exclusive w := by
  intro attached u accepted
  obtain ⟨events, run⟩ := ok.channels
  obtain ⟨root, -, later⟩ := change.starts accepted
  rcases change.channels with ⟨absent, -⟩ | ⟨_, -, -, -, -, -, -, -, unchanged⟩
  · rw [absent] at attached
    cases attached
  · -- An active slot would have changed the root, which a registration block must not.
    by_contra active
    exact (Refines.run free run).block_changes free root later accepted
      (Bool.eq_true_of_not_eq_false active) unchanged

theorem HistoryOk.step (free : CollisionFree D) (sound : v.Sound) (ok : HistoryOk steps s)
    (change : BlockChange v w s s') : HistoryOk (steps ++ [(s, w)]) s' where
  number := by rw [change.number, ok.number, length_append, length_singleton]
  states := ok.states_step free change
  deposits := ok.deposits_step free sound change
  channels := ok.channels_step sound change

theorem HistoryOk.run (free : CollisionFree D) (sound : v.Sound)
    (run : Path (Extends v) (ExtendedPublicState.genesis D) steps s) : HistoryOk steps s := by
  refine run.history (I := HistoryOk) HistoryOk.genesis ?_
  intro steps s step s' _ ok extended
  obtain ⟨prior, w⟩ := step
  cases extended.1
  exact ok.step free sound extended.change

/-! ## Every state of a chain -/

/-- Each state of a chain ends a chain of its own. -/
theorem run_to_state (run : Path (Extends v) (genesis D) steps s)
    (held : (statesOf steps s)[n]? = some st) :
    Path (Extends v) (genesis D) (steps.take n) st := by
  induction run with
  | nil =>
    have first : n = 0 ∧ genesis D = st := by
      simpa [statesOf, getElem?_singleton] using held
    obtain ⟨rfl, rfl⟩ := first
    exact .nil
  | @snoc s s' steps step before last ih =>
    obtain ⟨prior, w⟩ := step
    cases last.1
    rw [statesOf_append] at held
    by_cases inside : n < (statesOf steps prior).length
    · rw [getElem?_append_left inside] at held
      have short : n ≤ steps.length := by
        simpa [statesOf, Nat.lt_succ_iff] using inside
      rw [take_append_of_le_length short]
      exact ih held
    · rw [getElem?_append_right (le_of_not_gt inside), getElem?_singleton] at held
      split at held
      case isTrue here =>
        cases held
        have all : (steps ++ [(prior, w)]).length ≤ n := by
          simpa [statesOf] using le_of_not_gt inside
        rw [take_of_length_le all]
        exact before.snoc last
      case isFalse => cases held

/-- The step at a position leads from the state there to the next one. -/
theorem step_at {after : ExtendedPublicState D B}
    {step : ExtendedPublicState D B × BlockStepWitness D B}
    (run : Path (Extends v) (genesis D) steps s)
    (here : (statesOf steps s)[n]? = some st) (labelled : steps[n]? = some step)
    (next : (statesOf steps s)[n + 1]? = some after) : BlockChange v step.2 st after := by
  have extended := run_to_state run next
  rw [take_add_one, labelled, Option.toList_some] at extended
  obtain ⟨t, -, last⟩ := extended.snoc_inv
  have start : (statesOf steps s)[n]? = some step.1 :=
    getElem?_append_of_some (by rw [getElem?_map, labelled, Option.map_some]) _
  have same : step.1 = st := Option.some.inj (start.symm.trans here)
  obtain ⟨prior, w⟩ := step
  cases last.1
  cases same
  exact last.change

omit [Hashing D B] [DecidableEq D] [DecidableEq B] in
theorem statesOf_take (held : (statesOf steps s)[n]? = some st) :
    (statesOf steps s).take n = (steps.take n).map Prod.fst := by
  have inside := (List.getElem?_eq_some_iff.mp held).1
  rw [statesOf, length_append, length_map, length_singleton] at inside
  rw [statesOf, take_append_of_le_length (by rw [length_map]; omega), map_take]

/-- What an accepted opening under a state shows. -/
theorem HistoryOk.old_state (free : CollisionFree D) (ok : HistoryOk steps s)
    {u : UpdatePublicState D} (new : u.new = s.inner) (accepted : u.verify = .ok ()) :
    u.old = u.new ∨ (∃ (k : Nat) (step : ExtendedPublicState D B × BlockStepWitness D B),
      steps[k]? = some step ∧ u.old = step.1.inner) ∨
      (steps = [] ∧ u.old = Leafable.emptyLeaf D) := by
  unfold UpdatePublicState.verify at accepted
  split at accepted
  case isTrue same => exact .inl same.symm
  case isFalse =>
    rw [revertIf_ok, not_not, new, ok.states] at accepted
    have opened := MerkleProof.getRoot_leaf free accepted
    have low : u.old.blockNumber.val < 2 ^ publicStateTreeHeight := u.old.blockNumber.isLt
    rw [U63.asU64_toNat, Nat.mod_eq_of_lt low] at opened
    by_cases inside : u.old.blockNumber.val < steps.length
    · refine .inr (.inl ⟨_, steps[u.old.blockNumber.val], getElem?_eq_getElem inside, ?_⟩)
      refine opened.symm.trans ?_
      simp [listLeaves, inside]
    · -- Past the chain only the empty leaf is held, and it names block 0.
      have empty : u.old = Leafable.emptyLeaf D := by
        rw [← opened]
        simp [listLeaves, getElem?_eq_none (le_of_not_gt inside)]
      have zero : u.old.blockNumber.val = 0 := by
        rw [empty]
        rfl
      exact .inr (.inr ⟨eq_nil_of_length_eq_zero (by omega), empty⟩)

/-- A state at position `n` of a chain is bound to the history of that chain. -/
structure BoundToHistory (v : Verifiers D B)
    (steps : List (ExtendedPublicState D B × BlockStepWitness D B))
    (s : ExtendedPublicState D B) (n : Nat) (st : ExtendedPublicState D B) : Prop where
  number : st.inner.blockNumber.val = n
  states : HoldsExactly D publicStateTreeHeight st.inner.prevPublicStateRoot
    (((statesOf steps s).take n).map ExtendedPublicState.inner)
  deposits : ∃ deposits : List (Deposit B),
    DepositsBehind deposits st.depositHashChain st.inner.depositTreeRoot st.depositCount ∧
    HoldsExactly D depositTreeHeight st.inner.depositTreeRoot deposits ∧
    ∀ i deposit, deposits[i]? = some deposit →
      IncludedAt (statesOf (steps.take n) st) i deposit
  changes : ∀ step after, steps[n]? = some step → (statesOf steps s)[n + 1]? = some after →
    BlockChange v step.2 st after ∧ Exclusive step.2
  old : ∀ u : UpdatePublicState D, u.new = st.inner → u.verify = .ok () →
    u.old = u.new ∨
    (∃ k earlier, k < n ∧ (statesOf steps s)[k]? = some earlier ∧ u.old = earlier.inner) ∨
    (n = 0 ∧ u.old = Leafable.emptyLeaf D)

/-- Along every chain of block steps from genesis each state is bound to the chain's own history.
    Under genesis itself, whose tree of earlier states is empty, the empty leaf opens too. -/
theorem states_bound_to_history (free : CollisionFree D) (sound : v.Sound)
    (run : Path (Extends v) (ExtendedPublicState.genesis D) steps s) (n : Nat)
    (st : ExtendedPublicState D B) (held : (statesOf steps s)[n]? = some st) :
    BoundToHistory v steps s n st := by
  have ok := HistoryOk.run free sound (run_to_state run held)
  have short : n ≤ steps.length := by
    have inside := (List.getElem?_eq_some_iff.mp held).1
    simpa [statesOf, Nat.lt_succ_iff] using inside
  have length : (steps.take n).length = n := List.length_take_of_le short
  refine
    { number := ok.number.trans length
      states := HoldsExactly.of_root free ?_
      deposits := ?_
      changes := fun step after labelled next => ?_
      old := fun u new accepted => ?_ }
  · rw [ok.states, statesOf_take held, List.map_map]
    rfl
  · obtain ⟨deposits, behind, included⟩ := ok.deposits
    exact ⟨deposits, behind, .of_root free behind.root_eq, included⟩
  · have change := step_at run held labelled next
    exact ⟨change, ok.exclusive free change⟩
  · rcases ok.old_state free new accepted with same | ⟨k, step, found,
      old⟩ | ⟨start, empty⟩
    · exact .inl same
    · have below : k < n := length ▸ (List.getElem?_eq_some_iff.mp found).1
      rw [List.getElem?_take_of_lt below] at found
      refine .inr (.inl ⟨k, step.1, below, ?_, old⟩)
      exact getElem?_append_of_some (by rw [List.getElem?_map, found, Option.map_some]) _
    · rw [start] at length
      exact .inr (.inr ⟨length.symm, empty⟩)

end

/-! ## A chain with a deposit -/

section
variable {D B : Type} [Hashing D B] [DecidableEq D] [DecidableEq B]

/-- The proofs are complete: what accepted steps compute is verified, an update by the circuit for
    its number of users where there is one. -/
structure Verifiers.Complete (v : Verifiers D B) : Prop where
  updateAccount : ∀ (u : UpdateUserTree D B) verify pis,
    v.updateAccount u.block.numUsers = some verify → u.toPublicInputs = .ok pis →
    verify pis = true
  depositChain : ∀ pis, DepositChainProved pis → v.depositChain pis = true
  channelRegChain : ∀ pis, ChannelRegChainProved pis → v.channelRegChain pis = true
  blockChain : ∀ (w : BlockStepWitness D B) pis, w.toPublicInputs v = .ok pis →
    v.blockChain pis = true

/-- Public inputs that a chain of accepted block steps leads to. -/
inductive BlockChainProved (v : Verifiers D B) : BlockChainPublicInputs D B → Prop
  | first {w : BlockStepWitness D B} {pis : BlockChainPublicInputs D B} :
      w.prevBlockChainProof = none → w.toPublicInputs v = .ok pis → BlockChainProved v pis
  | next {w : BlockStepWitness D B} {prev pis : BlockChainPublicInputs D B} :
      BlockChainProved v prev → w.prevBlockChainProof = some prev →
        w.toPublicInputs v = .ok pis →
      BlockChainProved v pis

/-- The proofs that a block step reads beside the one of the chain before it, verified exactly when
    accepted steps compute them.  The one update circuit is for blocks with one slot. -/
noncomputable def Verifiers.parts : Verifiers D B where
  blockChain _ := true
  updateAccount numUsers := if numUsers = 1 then some fun pis =>
    @decide (∃ u : UpdateUserTree D B, u.block.numUsers = 1 ∧ u.toPublicInputs = .ok pis)
      (Classical.propDecidable _) else none
  depositChain pis := @decide (DepositChainProved pis) (Classical.propDecidable _)
  channelRegChain pis := @decide (ChannelRegChainProved pis) (Classical.propDecidable _)

/-- The verifiers that accept exactly what accepted steps compute. -/
noncomputable def Verifiers.ideal : Verifiers D B :=
  { parts with
    blockChain := fun pis => @decide (BlockChainProved parts pis) (Classical.propDecidable _) }

theorem Verifiers.ideal_sound : (ideal : Verifiers D B).Sound where
  updateAccount numUsers verify pis known verified := by
    obtain ⟨-, ⟨⟩⟩ := Option.ite_none_right_eq_some.mp known
    obtain ⟨u, -, accepted⟩ := @of_decide_eq_true _ (_) verified
    exact ⟨u, accepted⟩
  depositChain _ verified := @of_decide_eq_true _ (_) verified
  channelRegChain _ verified := @of_decide_eq_true _ (_) verified

theorem Verifiers.ideal_complete : (ideal : Verifiers D B).Complete where
  updateAccount u verify pis known accepted := by
    obtain ⟨one, ⟨⟩⟩ := Option.ite_none_right_eq_some.mp known
    exact @decide_eq_true _ (_) ⟨u, one, accepted⟩
  depositChain _ proved := @decide_eq_true _ (_) proved
  channelRegChain _ proved := @decide_eq_true _ (_) proved
  blockChain w pis accepted := by
    refine @decide_eq_true _ (_) ?_
    -- the step reads the proof before it only through its public inputs
    have parts_of (started : w.prevInputs parts = w.prevInputs ideal) :
        w.toPublicInputs parts = .ok pis := by
      rw [BlockStepWitness.toPublicInputs, started]
      exact accepted
    cases given : w.prevBlockChainProof with
    | none => exact .first given (parts_of (by simp only [BlockStepWitness.prevInputs, given]))
    | some prev =>
      obtain ⟨base, started, -⟩ := bind_ok.mp accepted
      simp [BlockStepWitness.prevInputs, given] at started
      refine .next (@of_decide_eq_true _ (_) started.1) given (parts_of ?_)
      simp only [BlockStepWitness.prevInputs, given, started.1]
      rfl

/-- A block whose slots are all padding. -/
def idleUpdate (s : ExtendedPublicState D B) (numUsers : BitVec 32) (number : BlockNumber)
    (depositHashChain : B) : UpdateUserTree D B :=
  let slots {α : Type} (x : α) := List.replicate numUsers.toNat x
  { prevBlockHashChain := s.blockHashChain
    prevAccountTreeRoot := s.inner.accountTreeRoot
    blockNumber := number
    block :=
      { numUsers, channelId := 0, timestamp := 0, keyIds := slots 0, txTreeRoot := zeroBytes D
        depositHashChain, channelRegHashChain := s.channelRegHashChain }
    prevAccountLeaves := slots (Leafable.emptyLeaf D)
    userMerkleProofs := slots ⟨[]⟩, sendMerkleProofs := slots ⟨[]⟩
    prevBpSigChain := s.bpSigChain
    memberLeaves := List.replicate maxSigCluster (Leafable.emptyLeaf D)
    newMemberLeaves := [], signerCount := 0, memberRegevPks := slots { a := [], b := [] }
    channelStateFields := plainFields D
    txV2Indices := slots 0, txV2s := slots (Leafable.emptyLeaf D), txV2MerkleProofs :=
      slots ⟨[]⟩
    channelActionIndices := slots 0, channelActions := slots (Leafable.emptyLeaf D)
    channelActionMerkleProofs := slots ⟨[]⟩ }

theorem UpdateUserTree.updateSlots_padding {p : Progress D B} (u : UpdateUserTree D B)
    {slots : List (BitVec 32 × Nat)} (padding : ∀ slot ∈ slots, slot.1 = 0) :
    u.updateSlots slots p = .ok p := by
  induction slots with
  | nil => rfl
  | cons slot rest ih =>
    rw [forall_mem_cons] at padding
    rw [updateSlots, updateSlot, if_pos padding.1]
    exact ih padding.2

theorem idleUpdate_accepted (s : ExtendedPublicState D B) (numUsers : BitVec 32)
    (number : BlockNumber) (chain : B) :
    ∃ pis, (idleUpdate s numUsers number chain).toPublicInputs = .ok pis ∧
      pis.blockNumber = number ∧ pis.prevAccountTreeRoot = s.inner.accountTreeRoot ∧
      pis.newAccountTreeRoot = s.inner.accountTreeRoot ∧
      pis.prevBlockHashChain = s.blockHashChain ∧ pis.prevBpSigChain = s.bpSigChain ∧
      pis.depositHashChain = chain ∧ pis.channelRegHashChain = s.channelRegHashChain := by
  let u := idleUpdate s numUsers number chain
  obtain ⟨hash, hashed⟩ : ∃ hash, u.block.hashWithPrevHash D u.prevBlockHashChain =
      some hash := by
    simp [u, idleUpdate, Block.hashWithPrevHash]
  have padding : ∀ slot ∈ u.block.keyIds.zipIdx, slot.1 = 0 := fun slot member =>
    eq_of_mem_replicate (mem_of_getElem? (mem_zipIdx_iff_getElem?.mp member))
  refine ⟨⟨number, 0, s.blockHashChain, s.inner.accountTreeRoot, hash, s.inner.accountTreeRoot,
    chain, s.channelRegHashChain, s.bpSigChain, s.bpSigChain⟩, ?_, rfl, rfl, rfl, rfl,
    rfl, rfl, rfl⟩
  simp only [toPublicInputs, bind_ok, getOrRevert_ok, revertIf_ok, exists_unit, pure_ok]
  exact ⟨by simp [idleUpdate, lengthsMatch], hash, hashed, by simp [idleUpdate],
    by simp [idleUpdate], _, u.updateSlots_padding padding, rfl⟩

/-- The public inputs that a block step starts from: those of the proof it is given, or the state
    itself. -/
def startFrom (s : ExtendedPublicState D B) (proof : Option (BlockChainPublicInputs D B)) :
    BlockChainPublicInputs D B :=
  proof.getD { initialExtPublicState := s, extPublicState := s }

section
variable {s : ExtendedPublicState D B} {proof : Option (BlockChainPublicInputs D B)}
  {v : Verifiers D B} {deposit : Deposit B} {count : U63} {depositProof : MerkleProof D}

omit [Hashing D B] [DecidableEq D] [DecidableEq B] in
theorem startFrom_eq
    (proved : ∀ prev ∈ proof, v.blockChain prev = true ∧ prev.extPublicState = s)
    {w : BlockStepWitness D B} (initial : w.initialPublicState = some s)
    (given : w.prevBlockChainProof = proof) :
    w.prevInputs v = .ok (startFrom s proof) ∧ (startFrom s proof).extPublicState = s := by
  cases proof with
  | none => exact ⟨by rw [BlockStepWitness.prevInputs, given, initial]; rfl, rfl⟩
  | some prev =>
    refine ⟨?_, (proved prev rfl).2⟩
    simp only [BlockStepWitness.prevInputs, given, (proved prev rfl).1]
    rfl

omit [DecidableEq B] in
/-- The first free position of a list opens to the empty leaf. -/
theorem exists_next_proof {V : Type} [Leafable D V] {leaves : List V} {number : U63} {root : D}
    (next : number.val = leaves.length) (behind : root = treeRoot D 63 (listLeaves D leaves)) :
    ∃ proof : MerkleProof D,
      proof.verify (Leafable.emptyLeaf D : V) number.asU64 root = .ok () := by
  have room : number.asU64.toNat < 2 ^ 63 := by
    rw [U63.asU64_toNat]
    exact number.isLt
  obtain ⟨proof, opened, -⟩ := exists_proof (D := D) 63 (listLeaves D leaves) room
  rw [← behind, U63.asU64_toNat, next, listLeaves_length] at opened
  exact ⟨proof, opened⟩

/-- What the deposit chain with this one deposit shows. -/
def oneDeposit (s : ExtendedPublicState D B) (deposit : Deposit B) (depositProof : MerkleProof D)
    (count : U63) : DepositChainPublicInputs D B :=
  { initialDepositHashChain := s.depositHashChain
    initialDepositTreeRoot := s.inner.depositTreeRoot
    initialDepositCount := s.depositCount
    depositHashChain := deposit.hashWithPrevHash D s.depositHashChain
    depositTreeRoot := depositProof.getRoot deposit s.depositCount.asU64
    depositCount := count, blockNumber := deposit.blockNumber }

omit [DecidableEq B] in
theorem oneDeposit_proved (index : deposit.depositIndex = s.depositCount)
    (more : count.val = s.depositCount.val + 1)
    (opened : depositProof.verify (Leafable.emptyLeaf D : Deposit B) s.depositCount.asU64
      s.inner.depositTreeRoot = .ok ()) :
    DepositChainProved (oneDeposit s deposit depositProof count) := by
  let step : DepositStepWitness D B :=
    { initialValue := some (s.depositHashChain, s.inner.depositTreeRoot, s.depositCount)
      prevDepositChainProof := none, deposit, depositMerkleProof := depositProof }
  refine .first (w := step) rfl ?_
  simp only [DepositStepWitness.toPublicInputs, bind_ok, mapError_ok, exists_unit,
    getOrRevert_ok, pure_ok, revertIf_ok, not_not, U63.add_eq_some]
  exact ⟨_, rfl, index, opened, count, more, rfl⟩

end

/-- A state of a chain with room can be extended by an idle block of a supported size with one
    deposit. -/
theorem HistoryOk.exists_deposit_block
    {steps : List (ExtendedPublicState D B × BlockStepWitness D B)} {s : ExtendedPublicState D B}
    (ok : HistoryOk steps s) {v : Verifiers D B} (complete : v.Complete) (numUsers : BitVec 32)
    {verify : UpdateUserPublicInputs D B → Bool}
    (supported : v.updateAccount numUsers = some verify)
    (proof : Option (BlockChainPublicInputs D B))
    (proved : ∀ prev ∈ proof, v.blockChain prev = true ∧ prev.extPublicState = s)
    (number count : U63) {deposit : Deposit B}
    (next : number.val = s.inner.blockNumber.val + 1) (more : count.val = s.depositCount.val + 1)
    (here : deposit.blockNumber = number) (index : deposit.depositIndex = s.depositCount)
    (fresh : s.depositHashChain ≠ deposit.hashWithPrevHash D s.depositHashChain) :
    ∃ w s', Extends v s (s, w) s' ∧
      (w.numUsers = numUsers ∧ w.prevBlockChainProof = proof) ∧
      v.blockChain { startFrom s proof with extPublicState := s' } = true ∧
      s'.inner.blockNumber = number ∧ s'.depositCount = count ∧
      s'.depositHashChain = deposit.hashWithPrevHash D s.depositHashChain := by
  obtain ⟨deposits, behind, -⟩ := ok.deposits
  obtain ⟨depositProof, depositOpened⟩ := exists_next_proof behind.count_eq behind.root_eq
  obtain ⟨stateProof, stateOpened⟩ :=
    exists_next_proof (by rw [ok.number, length_map]) ok.states
  have deposited := oneDeposit_proved index more depositOpened
  obtain ⟨pis, accepted, number', root, same, blocks, sigs, chain, regs⟩ :=
    idleUpdate_accepted s numUsers number (deposit.hashWithPrevHash D s.depositHashChain)
  let w : BlockStepWitness D B :=
    { numUsers, initialPublicState := some s, prevBlockChainProof := proof
      depositHashChainProof := some (oneDeposit s deposit depositProof count)
      channelRegHashChainProof := none
      updateUserProof := pis, publicStateMerkleProof := stateProof }
  obtain ⟨started, current⟩ := startFrom_eq proved (w := w) rfl rfl
  have depositPart : w.depositPart v s number =
      .ok (deposit.hashWithPrevHash D s.depositHashChain,
        depositProof.getRoot deposit s.depositCount.asU64, count) := by
    have changed : s.depositHashChain ≠ w.updateUserProof.depositHashChain :=
      fresh.trans_eq chain.symm
    rw [BlockStepWitness.depositPart, if_pos changed]
    simp only [bind_ok, getOrRevert_ok, revertIf_ok, exists_unit, pure_ok,
      not_not, Bool.not_eq_false]
    exact ⟨_, rfl, complete.depositChain _ deposited, rfl, rfl, rfl, chain.symm, here, rfl⟩
  have channelPart : w.channelRegPart v s number =
      .ok (s.channelRegHashChain, pis.newAccountTreeRoot) := rfl
  let s' : ExtendedPublicState D B :=
    { inner :=
        { blockNumber := number, timestamp := pis.blockTimestamp
          accountTreeRoot := pis.newAccountTreeRoot
          depositTreeRoot := depositProof.getRoot deposit s.depositCount.asU64
          prevPublicStateRoot := stateProof.getRoot s.inner s.inner.blockNumber.asU64 }
      blockHashChain := pis.newBlockHashChain
      depositHashChain := deposit.hashWithPrevHash D s.depositHashChain
      depositCount := count, channelRegHashChain := s.channelRegHashChain
      bpSigChain := pis.newBpSigChain }
  have stepped : w.toPublicInputs v = .ok { startFrom s proof with extPublicState := s' } := by
    simp only [BlockStepWitness.toPublicInputs, bind_ok, getOrRevert_ok, revertIf_ok,
      mapError_ok, exists_unit, pure_ok, not_not, Bool.not_eq_false]
    refine ⟨_, started, _, supported, complete.updateAccount _ _ _ supported accepted,
      number, ?_⟩
    rw [current]
    exact ⟨U63.add_eq_some.mpr next, number', root, blocks, sigs, _, depositPart, _, channelPart,
      by simp [w], regs, stateOpened, rfl⟩
  exact ⟨w, s', ⟨rfl, _, _, started, current, stepped, rfl⟩, ⟨rfl, rfl⟩,
    complete.blockChain _ _ stepped, rfl, rfl, rfl⟩

omit [DecidableEq D] [DecidableEq B] in
theorem genesis_ne_emptyLeaf (nodes : ∀ a b : D, twoToOne a b ≠ zeroDigest) :
    PublicState.genesis D ≠ Leafable.emptyLeaf D := by
  intro same
  have root : emptyChannelRoot D = zeroDigest := congrArg PublicState.accountTreeRoot same
  rw [emptyChannelRoot_eq] at root
  exact nodes _ _ root

end

def sampleDeposit (index : U63) (number : BlockNumber) : Deposit Free.Bytes :=
  { depositIndex := index, blockNumber := number, depositor := 1, recipient := .word 1
    tokenIndex := 0, amount := 5, auxData := .word 0 }

/-- The first block after genesis, with one slot and one deposit. -/
theorem exists_first_block : ∃ w s',
    Path (Extends ideal) (genesis Digest) [(genesis Digest, w)] s' ∧
    ideal.blockChain ⟨genesis Digest, s'⟩ = true ∧ s'.inner.blockNumber = 1 ∧
    s'.depositCount = 1 ∧ s'.depositHashChain =
      (sampleDeposit 0 1).hashWithPrevHash Digest (genesis Digest).depositHashChain := by
  have fresh : (genesis Digest).depositHashChain ≠
      (sampleDeposit 0 1).hashWithPrevHash Digest (genesis Digest).depositHashChain := nofun
  obtain ⟨w, s, extended, -, rest⟩ := HistoryOk.genesis.exists_deposit_block ideal_complete
    1 rfl none nofun 1 1 rfl rfl rfl rfl fresh
  exact ⟨w, s, .single extended, rest⟩

theorem states_bound_to_history_sample :
    ∃ (steps : List (ExtendedPublicState Digest Free.Bytes × BlockStepWitness _ _))
      (s : ExtendedPublicState Digest Free.Bytes),
      Path (Extends ideal) (ExtendedPublicState.genesis Digest) steps s ∧
      s.depositCount = 1 ∧ BoundToHistory ideal steps s 1 s := by
  obtain ⟨w, s, run, -, -, count, -⟩ := exists_first_block
  exact ⟨_, s, run, count, states_bound_to_history collisionFree ideal_sound run 1 s
    statesOf_last⟩

/-- The empty leaf opens under genesis: it is not genesis, and no state comes before. -/
theorem empty_leaf_opens_under_genesis :
    Path (Extends ideal) (ExtendedPublicState.genesis Digest) []
      (ExtendedPublicState.genesis Digest : ExtendedPublicState Digest Free.Bytes) ∧
    ∃ u : UpdatePublicState Digest,
      u.new = (ExtendedPublicState.genesis Digest).inner ∧ u.verify = .ok () ∧
      u.old ≠ u.new ∧ u.new.blockNumber = 0 := by
  refine ⟨.nil, ?_⟩
  obtain ⟨proof, opened, -⟩ := exists_proof (D := Digest) publicStateTreeHeight
    (fun _ => (Leafable.emptyLeaf Digest : PublicState Digest))
    (show (0 : BitVec 64).toNat < 2 ^ publicStateTreeHeight by decide)
  have reached := (MerkleProof.verify_ok_iff.mp opened).2
  have apart := genesis_ne_emptyLeaf free_node_ne_zero
  refine ⟨⟨.genesis Digest, Leafable.emptyLeaf Digest, proof⟩, rfl, ?_, apart.symm, rfl⟩
  rw [UpdatePublicState.verify, if_neg apart]
  refine revertIf_ok.mpr (not_not.mpr ?_)
  exact reached.trans (IncrementalMerkleTree.new_getRoot publicStateTreeHeight).symm

end Intmax.Validity
