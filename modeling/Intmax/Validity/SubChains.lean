import Intmax.Validity.BlockStep
import Intmax.Validity.Runs

/-! # What the proofs attached to a block say

A sound verifier accepts the public inputs of a chain of accepted steps only.  A proved deposit
chain appends deposits of one block to the deposit tree; a proved registration chain is a run of
registrations on the channel tree.
-/

namespace Intmax.Validity

open Checked Hashing Trees Transition List

section
variable {D B : Type} [Hashing D B] [DecidableEq D]

/-- Public inputs that a chain of accepted deposit steps leads to. -/
inductive DepositChainProved : DepositChainPublicInputs D B → Prop
  | first {w : DepositStepWitness D B} {pis : DepositChainPublicInputs D B} :
      w.prevDepositChainProof = none → w.toPublicInputs = .ok pis → DepositChainProved pis
  | next {w : DepositStepWitness D B} {prev pis : DepositChainPublicInputs D B} :
      DepositChainProved prev → w.prevDepositChainProof = some prev →
      w.toPublicInputs = .ok pis → DepositChainProved pis

/-- Public inputs that a chain of accepted registration steps leads to. -/
inductive ChannelRegChainProved [DecidableEq B] : ChannelRegChainPublicInputs D B → Prop
  | first {w : ChannelRegStepWitness D B} {pis : ChannelRegChainPublicInputs D B} :
      w.prevChannelRegChainProof = none → w.toPublicInputs = .ok pis → ChannelRegChainProved pis
  | next {w : ChannelRegStepWitness D B} {prev pis : ChannelRegChainPublicInputs D B} :
      ChannelRegChainProved prev → w.prevChannelRegChainProof = some prev →
      w.toPublicInputs = .ok pis → ChannelRegChainProved pis

/-- The inner proofs are sound: what is verified was computed by accepted steps. -/
structure Verifiers.Sound [DecidableEq B] (v : Verifiers D B) : Prop where
  updateAccount : ∀ numUsers verify pis, v.updateAccount numUsers = some verify →
    verify pis = true → ∃ u : UpdateUserTree D B, u.toPublicInputs = .ok pis
  depositChain : ∀ pis, v.depositChain pis = true → DepositChainProved pis
  channelRegChain : ∀ pis, v.channelRegChain pis = true → ChannelRegChainProved pis

/-! ## Deposits -/

/-- The deposit tree, chain and count stand for these deposits. -/
structure DepositsBehind (deposits : List (Deposit B)) (chain : B) (root : D) (count : U63) :
    Prop where
  chain_eq : chain = deposits.foldl (fun chain deposit => deposit.hashWithPrevHash D chain)
    (zeroBytes D)
  root_eq : root = treeRoot D depositTreeHeight (listLeaves D deposits)
  count_eq : count.val = deposits.length
  index_eq : ∀ (i : Nat) (deposit : Deposit B), deposits[i]? = some deposit →
    deposit.depositIndex.val = i

variable {deposits : List (Deposit B)} {chain : B} {root : D} {count : U63}

omit [DecidableEq D] in
theorem DepositsBehind.empty :
    DepositsBehind ([] : List (Deposit B)) (zeroBytes D) (emptyDepositRoot D) 0 where
  chain_eq := rfl
  root_eq := IncrementalMerkleTree.new_getRoot depositTreeHeight
  count_eq := rfl
  index_eq := by simp

theorem DepositsBehind.push (free : CollisionFree D)
    (behind : DepositsBehind deposits chain root count) {deposit : Deposit B}
    {proof : MerkleProof D} {count' : U63} (index : deposit.depositIndex = count)
    (opened : proof.verify (Leafable.emptyLeaf D : Deposit B) count.asU64 root = .ok ())
    (next : count'.val = count.val + 1) :
    DepositsBehind (deposits ++ [deposit]) (deposit.hashWithPrevHash D chain)
      (proof.getRoot deposit count.asU64) count' where
  chain_eq := by rw [behind.chain_eq, foldl_append, foldl_cons, foldl_nil]
  root_eq := by
    rw [behind.root_eq] at opened
    obtain ⟨-, -, climbs⟩ := MerkleProof.verify_leaf free opened
    rw [climbs, U63.asU64_toNat, behind.count_eq, listLeaves_append]
  count_eq := by rw [next, behind.count_eq, length_append, length_singleton]
  index_eq := by
    intro i found held
    by_cases inside : i < deposits.length
    · rw [getElem?_append_left inside] at held
      exact behind.index_eq i found held
    · rw [getElem?_append_right (le_of_not_gt inside),
        getElem?_singleton] at held
      -- Past the old deposits there is only the new one, and its index is the old count.
      split at held
      case isTrue here =>
        cases held
        rw [index, behind.count_eq]
        omega
      case isFalse => cases held

namespace DepositStepWitness

variable {w : DepositStepWitness D B} {prev earlier pis : DepositChainPublicInputs D B}

omit [Hashing D B] [DecidableEq D] in
/-- Without an earlier proof the step starts at the initial values themselves. -/
theorem prevPis_first (start : w.prevDepositChainProof = none) (started : w.prevPis = .ok prev) :
    prev.depositHashChain = prev.initialDepositHashChain ∧
    prev.depositTreeRoot = prev.initialDepositTreeRoot ∧
    prev.depositCount = prev.initialDepositCount := by
  simp only [prevPis, start] at started
  split at started
  · cases started
    exact ⟨rfl, rfl, rfl⟩
  · contradiction
  · cases started

omit [Hashing D B] [DecidableEq D] in
theorem prevPis_next (given : w.prevDepositChainProof = some earlier)
    (started : w.prevPis = .ok prev) :
    prev = earlier ∧ earlier.blockNumber = w.deposit.blockNumber := by
  simp only [prevPis, given] at started
  split at started
  · contradiction
  case h_2 found =>
    cases found
    simp at started
    exact ⟨started.2.symm, started.1⟩
  · cases started

theorem toPublicInputs_ok (accepted : w.toPublicInputs = .ok pis) :
    ∃ prev count, w.prevPis = .ok prev ∧ w.deposit.depositIndex = prev.depositCount ∧
      w.depositMerkleProof.verify (Leafable.emptyLeaf D : Deposit B) prev.depositCount.asU64
        prev.depositTreeRoot = .ok () ∧
      count.val = prev.depositCount.val + 1 ∧
      pis = { prev with
        depositHashChain := w.deposit.hashWithPrevHash D prev.depositHashChain
        depositTreeRoot := w.depositMerkleProof.getRoot w.deposit prev.depositCount.asU64
        depositCount := count
        blockNumber := w.deposit.blockNumber } := by
  simp only [toPublicInputs, bind_ok, mapError_ok, exists_unit, getOrRevert_ok,
    pure_ok, revertIf_ok, not_not, U63.add_eq_some] at accepted
  obtain ⟨prev, started, index, opened, count, next, rfl⟩ := accepted
  exact ⟨prev, count, started, index, opened, next, rfl⟩

end DepositStepWitness

/-- A proved deposit chain appends deposits of its block. -/
theorem DepositChainProved.appends (free : CollisionFree D) {pis : DepositChainPublicInputs D B}
    (proved : DepositChainProved pis)
    (behind : DepositsBehind deposits pis.initialDepositHashChain pis.initialDepositTreeRoot
      pis.initialDepositCount) :
    ∃ new : List (Deposit B),
      DepositsBehind (deposits ++ new) pis.depositHashChain pis.depositTreeRoot
        pis.depositCount ∧ ∀ deposit ∈ new, deposit.blockNumber = pis.blockNumber := by
  induction proved with
  | @first w pis start accepted =>
    obtain ⟨prev, count, started, index, opened, next, rfl⟩ :=
      DepositStepWitness.toPublicInputs_ok accepted
    obtain ⟨chain, root, initial⟩ := DepositStepWitness.prevPis_first start started
    have here : DepositsBehind deposits prev.depositHashChain prev.depositTreeRoot
        prev.depositCount := by
      rw [chain, root, initial]
      exact behind
    exact ⟨[w.deposit], here.push free index opened next, by simp⟩
  | @next w earlier pis proved given accepted ih =>
    obtain ⟨prev, count, started, index, opened, next, rfl⟩ :=
      DepositStepWitness.toPublicInputs_ok accepted
    obtain ⟨rfl, number⟩ := DepositStepWitness.prevPis_next given started
    obtain ⟨new, appended, numbers⟩ := ih behind
    refine ⟨new ++ [w.deposit], ?_, ?_⟩
    · rw [← append_assoc]
      exact appended.push free index opened next
    · intro deposit listed
      rcases mem_append.mp listed with old | single
      · exact (numbers deposit old).trans number
      · rw [mem_singleton.mp single]

end

/-! ## Registrations -/

section
variable {D B : Type} [Hashing D B] [DecidableEq D] [DecidableEq B]

theorem ChannelRegStepWitness.toPublicInputs_initial {w : ChannelRegStepWitness D B}
    {pis : ChannelRegChainPublicInputs D B} (accepted : w.toPublicInputs = .ok pis) :
    ∃ prev, w.prevPis = .ok prev ∧
      pis.initialChannelTreeRoot = prev.initialChannelTreeRoot := by
  simp [toPublicInputs] at accepted
  obtain ⟨-, prev, started, -, -, -, -, -, rfl⟩ := accepted
  exact ⟨prev, started, rfl⟩

/-- A proved registration chain is a run of registrations on the channel tree. -/
theorem ChannelRegChainProved.run {pis : ChannelRegChainPublicInputs D B}
    (proved : ChannelRegChainProved pis) (last : Nat) :
    ∃ ws : List (ChannelRegStepWitness D B),
      Path ChannelEvent.Accepted ⟨pis.initialChannelTreeRoot, last⟩ (ws.map .register)
        ⟨pis.channelTreeRoot, last⟩ := by
  induction proved with
  | @first w pis start accepted =>
    obtain ⟨prev, started, same⟩ := ChannelRegStepWitness.toPublicInputs_initial accepted
    have initial : prev.channelTreeRoot = prev.initialChannelTreeRoot := by
      have starts := started
      simp only [ChannelRegStepWitness.prevPis, start] at starts
      split at starts
      · cases starts
        rfl
      · contradiction
      · cases starts
    have root : w.prevRoot = some pis.initialChannelTreeRoot := by
      rw [ChannelRegStepWitness.prevRoot, started, same, ← initial]
    exact ⟨[w], .single ⟨root, pis, accepted, rfl⟩⟩
  | @next w earlier pis proved given accepted ih =>
    obtain ⟨prev, started, same⟩ := ChannelRegStepWitness.toPublicInputs_initial accepted
    have before : prev = earlier := by
      have starts := started
      simp only [ChannelRegStepWitness.prevPis, given] at starts
      split at starts
      · contradiction
      · next found =>
        cases found
        simp at starts
        exact starts.2.symm
      · cases starts
    cases before
    obtain ⟨ws, run⟩ := ih
    have root : w.prevRoot = some earlier.channelTreeRoot := by
      rw [ChannelRegStepWitness.prevRoot, started]
    refine ⟨ws ++ [w], ?_⟩
    rw [map_append, map_singleton, same]
    exact run.snoc ⟨root, pis, accepted, rfl⟩

end

end Intmax.Validity
