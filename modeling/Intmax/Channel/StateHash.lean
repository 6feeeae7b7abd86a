import Mathlib.Data.Fin.VecNotation
import Mathlib.Tactic.FinCases
import Intmax.Channel.Sparse
import Intmax.Circuits.Deployed
import Intmax.Circuits.Splitting

/-! # The hash of a balance state

`slot_leaf_hashes` hashes padding only once, and the circuits hash the header and the opened slot
again on their wires.  Both give the digests of `h1`, and `h1` has one preimage.
-/

namespace Intmax.Channel

open Checked Hashing Trees Validity PublicInputs RegevCiphertext BalanceState List Target Item

/-! ## Leaf hashes with a memo -/

namespace BalanceState

section
variable {D B : Type} [Hashing D B]

def zeroCiphertextDigest (D : Type) {B : Type} [Hashing D B] : Option B :=
  padding.digest D

def tokenCtDigests (D : Type) {B : Type} [Hashing D B] (row : TokenRow RegevCiphertext) :
    Option (List B) :=
  (List.finRange maxChannelTokens).mapM fun t =>
    if row t = .padding then zeroCiphertextDigest D else (row t).digest D

def balanceSlotLeafPreimage (D : Type) {B : Type} (regevPkDigest : B) (encBalanceDigests : List B)
    (pendingAdds : TokenRow (BitVec 32)) (recipient : Address) : List (Item D B) :=
  [.elem balanceSlotLeafDomainV2, .bytes regevPkDigest] ++ encBalanceDigests.map .bytes ++
    (List.finRange maxChannelTokens).map (fun t => u32Item (pendingAdds t)) ++
    addressItems recipient

def balanceSlotLeafHash (D : Type) {B : Type} [Hashing D B] (regevPkDigest : B)
    (encBalanceDigests : List B) (pendingAdds : TokenRow (BitVec 32)) (recipient : Address) : D :=
  hashInputs (balanceSlotLeafPreimage D regevPkDigest encBalanceDigests pendingAdds recipient)

/-- The leaf hashes as the source computes them: the leaf of a padding slot is hashed once. -/
def memoisedLeafHashes (D : Type) {B : Type} [Hashing D B] [DecidableEq B]
    (state : BalanceState B) :
    Option (List D) := do
  guard (state.encBalances.length = maxChannelMembers)
  guard (state.pendingAdds.length = maxChannelMembers)
  let zeroDigest ← zeroCiphertextDigest D
  let zeroRowDigests : List B := (List.finRange maxChannelTokens).map fun _ => zeroDigest
  let paddingLeaf := balanceSlotLeafHash D (zeroBytes D) zeroRowDigests (fun _ => 0) 0
  (List.finRange maxChannelMembers).mapM fun i => do
    let row ← state.encBalances[i.val]?
    let adds ← state.pendingAdds[i.val]?
    if state.regevPkDigests i = zeroBytes D ∧ adds = (fun _ => 0) ∧ state.recipients i = 0 ∧
        ∀ t, row t = .padding then
      some paddingLeaf
    else do
      let digests ← tokenCtDigests D row
      some (balanceSlotLeafHash D (state.regevPkDigests i) digests adds (state.recipients i))

theorem tokenCtDigests_eq (row : TokenRow RegevCiphertext) :
    (tokenCtDigests D row : Option (List B)) =
      (finRange maxChannelTokens).mapM fun t => (row t).digest D := by
  refine congrArg (fun f => (finRange maxChannelTokens).mapM f) (funext fun t => ?_)
  split
  case isTrue padded => rw [padded, zeroCiphertextDigest]
  case isFalse => rfl

theorem slotLeafHash_eq (state : BalanceState B) (slot : Fin maxChannelMembers) :
    state.slotLeafHash D slot = (do
      let row ← state.encBalances[slot.val]?
      let adds ← state.pendingAdds[slot.val]?
      let digests ← tokenCtDigests D row
      some (balanceSlotLeafHash D (state.regevPkDigests slot) digests adds
        (state.recipients slot))) := by
  simp only [tokenCtDigests_eq]
  rfl

theorem exists_zeroCiphertextDigest : ∃ digest : B, zeroCiphertextDigest D = some digest :=
  Option.isSome_iff_exists.mp (digest_isSome padding_validate)

/-- The memo holds what hashing slot by slot gives. -/
theorem memoisedLeafHashes_eq [DecidableEq B] {state : BalanceState B} (full : state.FullSize) :
    state.memoisedLeafHashes D = (finRange maxChannelMembers).mapM (state.slotLeafHash D) := by
  obtain ⟨zeroDigest, zero⟩ := exists_zeroCiphertextDigest (D := D) (B := B)
  simp only [memoisedLeafHashes, full.rows, full.counters, guard_true, zero, Option.bind_eq_bind,
    Option.pure_def, Option.bind_some]
  refine congrArg (fun f => (finRange maxChannelMembers).mapM f) (funext fun slot => ?_)
  rw [slotLeafHash_eq]
  cases state.encBalances[slot.val]? with
  | none => rfl
  | some row =>
    cases state.pendingAdds[slot.val]? with
    | none => rfl
    | some adds =>
      simp only [Option.bind_eq_bind, Option.bind_some]
      split
      case isFalse => rfl
      case isTrue padded =>
        obtain ⟨key, counters, account, row_eq⟩ := padded
        have digests : tokenCtDigests D row =
            some ((finRange maxChannelTokens).map fun _ => zeroDigest) := by
          simp only [tokenCtDigests, row_eq, if_true, zero]
          exact mapM_pure
        rw [digests, key, counters, account, Option.bind_some]

/-- Another number of rows fails the assertions. -/
theorem memoisedLeafHashes_short [DecidableEq B] {state : BalanceState B}
    (short : ¬ state.FullSize) :
    state.memoisedLeafHashes D = none := by
  by_cases rows : state.encBalances.length = maxChannelMembers
  · have counters : state.pendingAdds.length ≠ maxChannelMembers := fun counters =>
      short ⟨rows, counters⟩
    simp [memoisedLeafHashes, guard, rows, counters]
  · simp [memoisedLeafHashes, guard, rows]

end

end BalanceState

/-! ## Recomputing the hash in a circuit -/

section
variable [Keccak] [Intmax.Poseidon]

/-- `PoseidonHashOutTarget::hash_inputs`: the hash of the values on the wires. -/
def hashTargets (inputs : List Target) : PoseidonHashOut :=
  Poseidon.hashInputsU64 (inputs.map Fin.val)

abbrev AddressTarget := Fin 5 → Target

abbrev U64Target := Fin 2 → Target

/-- The four elements of a digest. -/
def digestTargets (digest : PoseidonHashOut) : Fin 4 → Target :=
  ![digest.e0, digest.e1, digest.e2, digest.e3]

def recomputeH1 (channelId memberCount delegateCount tokenCount : Target)
    (tokenRegistry : TokenRow Target) (slotTreeRoot : PoseidonHashOut)
    (settledTxChain settledTxAccumulatorRoot : Bytes32Target) (stateVersion : U64Target) :
    Builder Bytes32Target :=
  let balanceStateDomain := Target.ofNat balanceStateDomainV2
  let h1Inputs := [balanceStateDomain, channelId, memberCount, delegateCount, tokenCount] ++
    List.ofFn tokenRegistry ++ List.ofFn (digestTargets slotTreeRoot) ++ List.ofFn settledTxChain ++
    List.ofFn settledTxAccumulatorRoot ++ List.ofFn stateVersion
  let headerHash := hashTargets h1Inputs
  Bytes32Target.fromHashOut (digestTargets headerHash)

def balanceSlotLeafHashCircuit (regevPkDigest : Bytes32Target)
    (encBalanceDigests : TokenRow Bytes32Target) (pendingAdds : TokenRow Target)
    (recipient : AddressTarget) : PoseidonHashOut :=
  let leafDomain := Target.ofNat balanceSlotLeafDomainV2
  let leafInputs := [leafDomain] ++ List.ofFn regevPkDigest ++
    (List.ofFn encBalanceDigests).flatMap (fun digest => List.ofFn digest) ++
    List.ofFn pendingAdds ++ List.ofFn recipient
  hashTargets leafInputs

end

/-- The words of a value on wires, most significant first. -/
def limbTargets {n : Nat} (x : BitVec (32 * n)) : Fin n → Target := fun i =>
  Target.ofNat (x.toNat >>> (32 * (n - 1 - i.val)) % 2 ^ 32)

theorem word_lt (x shift : Nat) : x >>> shift % 2 ^ 32 < goldilocksOrder :=
  lt_trans (Nat.mod_lt _ (by decide)) (by decide)

theorem map_val_limbTargets {n : Nat} (x : BitVec (32 * n)) :
    (List.ofFn (limbTargets x)).map Fin.val = toU64Vec n x := by
  rw [toU64Vec, Words.split_eq_map, map_ofFn]
  refine ext_getElem (by simp) fun i inside inside' => ?_
  simp only [List.getElem_ofFn, List.getElem_map, List.getElem_range, Function.comp_apply,
    limbTargets, ofNat_val (word_lt _ _)]

/-- A word on a wire is hashed as the number it is. -/
theorem elements_u32Item (x : BitVec 32) :
    elements (u32Item x) = [(ofNat x.toNat).val] := rfl

theorem map_val_u32Targets (row : TokenRow (BitVec 32)) :
    (ofFn fun t => ofNat (row t).toNat).map Fin.val =
      ((finRange maxChannelTokens).map fun t =>
        (u32Item (row t) : Item PoseidonHashOut Bytes32)).flatMap elements := by
  rw [flatMap_map, map_ofFn, ofFn_eq_map]
  exact map_eq_flatMap

theorem elements_addressItems (a : Address) :
    (addressItems a : List (Item PoseidonHashOut Bytes32)).flatMap elements =
      toU64Vec 5 a := by
  rw [toU64Vec, Words.split_eq_map, addressItems, flatMap_map]
  simp only [Nat.shiftRight_eq_div_pow]
  rfl

theorem elements_u64Items (x : BitVec 64) :
    (u64Items x : List (Item PoseidonHashOut Bytes32)).flatMap elements =
      toU64Vec 2 x := by
  have word (n : Nat) : n % 2 ^ 32 % goldilocksOrder = n % 2 ^ 32 :=
    Nat.mod_eq_of_lt (lt_trans (Nat.mod_lt _ (by decide)) (by decide))
  simp only [u64Items, u32Item, field, elements, toU64Vec, Words.split,
    flatMap_cons, flatMap_nil, append_nil, nil_append,
    BitVec.extractLsb'_toNat, word, Nat.shiftRight_eq_div_pow, pow_zero, Nat.div_one]

theorem elements_bytes (digests : List Bytes32) :
    (digests.map (.bytes : Bytes32 → Item PoseidonHashOut Bytes32)).flatMap elements =
      digests.flatMap (toU64Vec 8) := by
  rw [flatMap_map]
  rfl

theorem fromHashOut_digestTargets (digest : PoseidonHashOut) :
    Bytes32Target.fromHashOut (digestTargets digest) =
      pure (limbTargets (n := 8) digest.toBytes32) := by
  rw [Bytes32Target.fromHashOut_eq]
  have order : goldilocksOrder = 2 ^ 64 - 2 ^ 32 + 1 := rfl
  refine congrArg pure (funext fun i => ?_)
  simp only [limbTargets, loAndHi, PoseidonHashOut.toBytes32_toNat, Nat.shiftRight_eq_div_pow]
  fin_cases i
  all_goals
    refine congrArg ofNat ?_
    simp [digestTargets]
    omega

section
variable [Keccak] [Intmax.Poseidon]

/-- The gadget gives the leaf hash of the values on its wires. -/
theorem balanceSlotLeafHashCircuit_eq (key : Bytes32) (digests : TokenRow Bytes32)
    (adds : TokenRow (BitVec 32)) (recipient : Address) :
    balanceSlotLeafHashCircuit (limbTargets (n := 8) key)
      (fun t => limbTargets (n := 8) (digests t))
        (fun t => ofNat (adds t).toNat) (limbTargets (n := 5) recipient) =
      balanceSlotLeafHash PoseidonHashOut key (ofFn digests) adds recipient := by
  refine congrArg Poseidon.hashInputsU64 ?_
  have domain : (ofNat balanceSlotLeafDomainV2).val =
      balanceSlotLeafDomainV2 := by decide
  have inner : (ofFn fun t => limbTargets (n := 8) (digests t)).flatMap (fun d =>
      (ofFn d).map Fin.val) = (ofFn digests).flatMap (toU64Vec 8) := by
    rw [show (fun t => limbTargets (n := 8) (digests t)) = limbTargets (n := 8) ∘
      digests from rfl, ← map_ofFn, flatMap_map]
    exact congrArg (fun f => (ofFn digests).flatMap f) (funext map_val_limbTargets)
  simp only [balanceSlotLeafPreimage, map_append, flatMap_append,
    map_cons, map_nil, domain, map_val_limbTargets, map_flatMap, inner,
    map_val_u32Targets, elements_addressItems, elements_bytes]
  rfl

/-- The gadget gives the hash of a state for the values on its wires. -/
theorem recomputeH1_eq {state : BalanceState Bytes32} {root : PoseidonHashOut}
    (rooted : state.slotTreeRoot PoseidonHashOut = some root) :
    ∃ hash, state.h1 PoseidonHashOut = some hash ∧
      recomputeH1 (ofNat state.channelId.toNat) (ofNat state.memberCount.toNat)
        (ofNat state.delegateCount.toNat) (ofNat state.tokenCount.toNat)
        (fun t => ofNat (state.tokenRegistry t).toNat) root
        (limbTargets (n := 8) state.settledTxChain)
        (limbTargets (n := 8) state.settledTxAccumulatorRoot)
        (limbTargets (n := 2) state.stateVersion) = pure (limbTargets (n := 8) hash) := by
  simp only [h1, rooted, Option.bind_eq_bind, Option.bind_some]
  refine ⟨_, rfl, (fromHashOut_digestTargets _).trans ?_⟩
  refine congrArg (fun inputs => pure (limbTargets (n := 8)
    (Poseidon.hashInputsU64 inputs).toBytes32)) ?_
  have domain : (ofNat balanceStateDomainV2).val =
      balanceStateDomainV2 := by decide
  have small {w : Nat} (x : BitVec w) (narrow : w ≤ 32) : (ofNat x.toNat).val = x.toNat :=
    ofNat_val (lt_of_lt_of_le x.isLt ((Nat.pow_le_pow_right (by decide) narrow).trans (by decide)))
  simp only [map_append, flatMap_append, map_cons, map_nil, domain,
    map_val_limbTargets, map_val_u32Targets, elements_u64Items, flatMap_cons, flatMap_nil,
    elements_u32Item, small state.memberCount (by decide), small state.delegateCount (by decide),
    small state.tokenCount (by decide)]
  simp [elements, digestTargets]

/-- The leaf of a slot, from the digests of its ciphertexts and its counters on wires. -/
def slotLeafOnWires (state : BalanceState Bytes32) (digests : Slots (TokenRow Bytes32))
    (adds : Slots (TokenRow (BitVec 32))) (slot : Fin maxChannelMembers) : PoseidonHashOut :=
  balanceSlotLeafHashCircuit (limbTargets (n := 8) (state.regevPkDigests slot))
    (fun t => limbTargets (n := 8) (digests slot t)) (fun t => Target.ofNat (adds slot t).toNat)
    (limbTargets (n := 5) (state.recipients slot))

theorem slotLeafHashes_onWires {state : BalanceState Bytes32} {digests : Slots (TokenRow Bytes32)}
    {adds : Slots (TokenRow (BitVec 32))} (full : state.FullSize)
    (hashed : ∀ slot : Fin maxChannelMembers, ∃ row, state.encBalances[slot.val]? = some row ∧
      ∀ t, (row t).digest PoseidonHashOut = some (digests slot t))
    (counted : ∀ slot : Fin maxChannelMembers, state.pendingAdds[slot.val]? = some (adds slot)) :
    state.slotLeafHashes PoseidonHashOut =
      some ((finRange maxChannelMembers).map (slotLeafOnWires state digests adds)) := by
  have leaf (slot : Fin maxChannelMembers) : state.slotLeafHash PoseidonHashOut slot =
      some (slotLeafOnWires state digests adds slot) := by
    obtain ⟨row, found, each⟩ := hashed slot
    have all : tokenCtDigests PoseidonHashOut row = some (ofFn (digests slot)) := by
      rw [tokenCtDigests_eq, ofFn_eq_map, funext each]
      exact mapM_pure
    rw [slotLeafHash_eq, found, counted slot]
    simp [all, slotLeafOnWires, balanceSlotLeafHashCircuit_eq]
  rw [slotLeafHashes, if_pos full, funext leaf]
  exact mapM_pure

end

/-! ## One function with one preimage -/

/-- The memo and the gadgets compute the hash of a state; among the states that pass `validate` it
    has one preimage; and the sparse encoding loses nothing. -/
theorem h1_one_preimage {D B : Type} [Hashing D B] [DecidableEq B] [Keccak] [Intmax.Poseidon] :
    (∀ state : BalanceState B, state.memoisedLeafHashes D = state.slotLeafHashes D ∧
      (state.FullSize → state.memoisedLeafHashes D =
        (List.finRange maxChannelMembers).mapM (state.slotLeafHash D))) ∧
    (∀ (state : BalanceState Bytes32) (digests : Slots (TokenRow Bytes32))
      (adds : Slots (TokenRow (BitVec 32))), state.FullSize →
      (∀ slot : Fin maxChannelMembers, ∃ row, state.encBalances[slot.val]? = some row ∧
        ∀ t, (row t).digest PoseidonHashOut = some (digests slot t)) →
      (∀ slot : Fin maxChannelMembers, state.pendingAdds[slot.val]? = some (adds slot)) →
      ∃ hash, state.h1 PoseidonHashOut = some hash ∧
        recomputeH1 (Target.ofNat state.channelId.toNat) (Target.ofNat state.memberCount.toNat)
          (Target.ofNat state.delegateCount.toNat) (Target.ofNat state.tokenCount.toNat)
          (fun t => Target.ofNat (state.tokenRegistry t).toNat)
          (treeRoot PoseidonHashOut balanceSlotTreeHeight (listLeaves PoseidonHashOut
            ((List.finRange maxChannelMembers).map (slotLeafOnWires state digests adds))))
          (limbTargets (n := 8) state.settledTxChain)
          (limbTargets (n := 8) state.settledTxAccumulatorRoot)
          (limbTargets (n := 2) state.stateVersion) = pure (limbTargets (n := 8) hash)) ∧
    (CollisionFree D → KeccakInjective D → ∀ s s' : BalanceState B, s.validate D = .ok () →
      s'.validate D = .ok () → s.h1 D = s'.h1 D → s = s') ∧
    (∀ state : BalanceState B, state.FullSize →
      deserializeCiphertexts (serializeCiphertexts state.encBalances) = .ok state.encBalances ∧
      deserializePendingAdds (serializePendingAdds state.pendingAdds) = .ok state.pendingAdds) ∧
    (∀ sparse rows, deserializeCiphertexts sparse = .ok rows →
      rows.length = maxChannelMembers) ∧
    ∀ sparse rows, deserializePendingAdds sparse = .ok rows →
      rows.length = maxChannelMembers := by
  refine ⟨?_, ?_, ?_, ?_, ?_, ?_⟩
  · intro state
    refine ⟨?_, memoisedLeafHashes_eq⟩
    rw [slotLeafHashes]
    split
    case isTrue full => exact memoisedLeafHashes_eq full
    case isFalse short => exact memoisedLeafHashes_short short
  · intro state digests adds full hashed counted
    exact recomputeH1_eq (slotTreeRoot_eq (slotLeafHashes_onWires full hashed counted))
  · intro free injective s s' valid valid' same
    have canonical := validate_ok_iff.mp valid
    obtain ⟨hash, found⟩ := canonical.hashable.h1_isSome (D := D)
    exact h1_injective free injective found (same ▸ found)
  · intro state full
    exact ⟨deserializeMatrix_serializeMatrix full.rows,
      deserializeMatrix_serializeMatrix full.counters⟩
  · exact fun sparse rows => deserializeMatrix_length
  · exact fun sparse rows => deserializeMatrix_length

/-- A permutation of no interest. -/
@[reducible] def zeroPoseidon : Intmax.Poseidon :=
  ⟨fun _ => ⟨default, default, default, default⟩, fun left _ => left⟩

attribute [local instance] evmKeccak zeroPoseidon

/-- The rows of two members without a balance. -/
theorem pairBalance_rows {D B : Type} [Hashing D B] (slot : Fin maxChannelMembers) :
    (pairBalance D (B := B) 1 0 .padding .padding 0 0).encBalances[slot.val]? =
      some (fun _ => .padding) ∧
    (pairBalance D (B := B) 1 0 .padding .padding 0 0).pendingAdds[slot.val]? =
      some (fun _ => 0) := by
  have canonical : (pairBalance D (B := B) 1 0 .padding .padding 0 0).Canonical D :=
    pairBalance_canonical padding_validate padding_validate (by decide) (by decide)
  obtain ⟨row, found⟩ := canonical.hashable.row_at slot.isLt
  obtain ⟨adds, counted⟩ := canonical.hashable.adds_at slot.isLt
  rw [found, counted]
  constructor
  · exact congrArg some (funext fun t => (firstToken_rows (P := (· = .padding)) rfl rfl
      rfl found t).1)
  · exact congrArg some (funext fun t => (firstToken_rows (P := (· = 0)) rfl rfl rfl counted t).1)

theorem h1_one_preimage_pair :
    (∃ hash root, (pairBalance PoseidonHashOut 1 0 .padding .padding 0 0).h1 PoseidonHashOut =
        some hash ∧
      recomputeH1 1 2 0 1 (fun _ => 0) root (limbTargets (n := 8) 0) (limbTargets (n := 8) 0)
        (limbTargets (n := 2) 0) = pure (limbTargets (n := 8) hash)) ∧
    ∀ s : BalanceState Free.Bytes, s.validate Free.Digest = .ok () →
      s.h1 Free.Digest = (pairBalance Free.Digest 1 0 .padding .padding 0 0).h1 Free.Digest →
      s = pairBalance Free.Digest 1 0 .padding .padding 0 0 ∧
      deserializePendingAdds (serializePendingAdds s.pendingAdds) = .ok s.pendingAdds := by
  obtain ⟨-, circuit, injective, sparse, -⟩ := h1_one_preimage (D := Free.Digest)
    (B := Free.Bytes)
  obtain ⟨digest, zero⟩ := exists_zeroCiphertextDigest (D := PoseidonHashOut)
  constructor
  · have canonical : (pairBalance PoseidonHashOut 1 0 .padding .padding 0 0).Canonical
        PoseidonHashOut :=
      pairBalance_canonical padding_validate padding_validate (by decide) (by decide)
    obtain ⟨hash, found, yields⟩ := circuit
      (pairBalance PoseidonHashOut 1 0 .padding .padding 0 0)
      (fun _ _ => digest) (fun _ _ => 0) canonical.hashable.toFullSize
      (fun slot => ⟨_, (pairBalance_rows slot).1, fun _ => zero⟩) fun slot =>
        (pairBalance_rows slot).2
    exact ⟨hash, _, found, yields⟩
  · intro s valid same
    have canonical : (pairBalance Free.Digest 1 0 .padding .padding 0 0).Canonical Free.Digest :=
      pairBalance_canonical padding_validate padding_validate
        (by decide) (by decide)
    have equal := injective Free.collisionFree Free.keccakInjective s _ valid
      (validate_ok_iff.mpr canonical) same
    have own := validate_ok_iff.mp valid
    exact ⟨equal, (sparse s ⟨own.rows, own.counterRows⟩).2⟩

end Intmax.Channel
