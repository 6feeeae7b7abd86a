import Intmax.Trees.Honest
import Intmax.Trees.NodeMaps

/-! # Decoded trees

Trees are written to files as their height and their leaves.  The decoders build the tree again by
the tree's own operations.  Those of the incremental tree check that the leaves fit before they
start; the sparse tree's decoder lets the tree refuse an index by an assertion, and the indexed
tree's decoder looks at the key of the first leaf only.
-/

namespace Intmax.Trees

open Checked Hashing SortedLinks Function List Option BitVec Leafable SparseMerkleTree MerkleTree

/-- Why a decoder returns no tree. -/
inductive DecodeError where
  | heightNotAddressable (height : Nat)
  | cannotHold (height leaves : Nat)
  | missingSentinel
  /-- An assertion of the tree failed. -/
  | abort
deriving DecidableEq

section
variable {D B V : Type} [Hashing D B] [Leafable D V]

/-! ## The incremental tree -/

structure IncrementalMerkleTreePacked (V : Type) where
  height : Nat
  leaves : List V

namespace IncrementalMerkleTree

def pack (t : IncrementalMerkleTree D V) : IncrementalMerkleTreePacked V :=
  { height := t.height, leaves := t.leaves }

def unpack (packed : IncrementalMerkleTreePacked V) : Option (IncrementalMerkleTree D V) :=
  (new V packed.height).pushAll packed.leaves

def deserialize (packed : IncrementalMerkleTreePacked V) :
    Except DecodeError (IncrementalMerkleTree D V) := do
  revertIf (64 ≤ packed.height) (.heightNotAddressable packed.height)
  revertIf (2 ^ packed.height < packed.leaves.length)
    (.cannotHold packed.height packed.leaves.length)
  getOrRevert (unpack packed) .abort

/-- The tree is the one over its leaves. -/
def Exact (t : IncrementalMerkleTree D V) : Prop :=
  t.merkleTree.Holds V t.height (fun i => Leafable.hash (t.leafAt i)) fun i => i < t.leaves.length

variable {t t' : IncrementalMerkleTree D V} {leaf : V}

theorem Exact.faithful (exact_tree : t.Exact) : t.Faithful := exact_tree.commits

theorem Exact.length_le (exact_tree : t.Exact) : t.leaves.length ≤ 2 ^ t.height := by
  cases held : t.leaves.length with
  | zero => exact Nat.zero_le _
  | succ n => exact exact_tree.inside n (held ▸ lt_add_one n)

theorem Exact.unique (exact_tree : t.Exact) (exact_tree' : t'.Exact)
    (heights : t.height = t'.height) (held : t.leaves = t'.leaves) : t = t' := by
  have leaves : t.leafAt = t'.leafAt := by
    funext i
    rw [leafAt, leafAt, held]
  unfold Exact at exact_tree'
  rw [← heights, ← leaves, ← held] at exact_tree'
  have trees : t.merkleTree = t'.merkleTree := Holds.unique exact_tree exact_tree'
  cases t
  cases t'
  simp_all

theorem new_exact (height : Nat) : (new V height : IncrementalMerkleTree D V).Exact := by
  have holds := new_holds (D := D) V height
  have none : (fun i => i < ([] : List V).length) = fun _ => False := by
    funext i
    simp
  change Holds V (.new V height) height _ fun i => i < ([] : List V).length
  rw [none]
  exact holds

theorem Exact.push (exact_tree : t.Exact) (pushed : t.push leaf = some t') :
    t'.height = t.height ∧ t'.leaves = t.leaves ++ [leaf] ∧ t'.Exact := by
  obtain ⟨height, held, -⟩ := exact_tree.faithful.push pushed
  refine ⟨height, held, ?_⟩
  simp [IncrementalMerkleTree.push, bind_eq_some_iff] at pushed
  obtain ⟨room, merkleTree, updated, rfl⟩ := pushed
  have holds := Holds.updateLeaf exact_tree updated
  have small : t.leaves.length < 2 ^ 64 :=
    lt_trans room (Nat.pow_lt_pow_right Nat.one_lt_two (Nat.mod_lt _ (by decide)))
  rw [toNat_ofNat, Nat.mod_eq_of_lt small, ← hash_update] at holds
  have leaves : leafAt (D := D) { merkleTree, leaves := t.leaves ++ [leaf] } =
      Function.update t.leafAt t.leaves.length leaf :=
    funext fun i => getD_append_singleton _ _ _ i
  have written : (fun i => i < (t.leaves ++ [leaf]).length) =
      fun i => i < t.leaves.length ∨ i = t.leaves.length := by
    funext i
    rw [length_append, length_singleton]
    exact propext Nat.lt_succ_iff_lt_or_eq
  unfold Exact
  rw [leaves, written, height]
  exact holds

theorem Exact.update {index : BitVec 64} (exact_tree : t.Exact)
    (updated : t.update index leaf = some t') : index.toNat < t.leaves.length ∧
      t'.height = t.height ∧ t'.leaves = t.leaves.set index.toNat leaf ∧ t'.Exact := by
  obtain ⟨bound, height, held, -⟩ := exact_tree.faithful.update updated
  refine ⟨bound, height, held, ?_⟩
  simp [IncrementalMerkleTree.update, bind_eq_some_iff] at updated
  obtain ⟨merkleTree, changed, -, rfl⟩ := updated
  have holds := Holds.updateLeaf exact_tree changed
  rw [← hash_update] at holds
  have leaves : leafAt (D := D) { merkleTree, leaves := t.leaves.set index.toNat leaf } =
      Function.update t.leafAt index.toNat leaf := getD_set _ _ _ bound
  have written : (fun i => i < (t.leaves.set index.toNat leaf).length) =
      fun i => i < t.leaves.length ∨ i = index.toNat := by
    funext i
    rw [length_set]
    refine propext ⟨Or.inl, fun put => ?_⟩
    omega
  unfold Exact
  rw [leaves, written, height]
  exact holds

/-- What the operations of the tree make, from the empty tree on. -/
inductive Built (height : Nat) : IncrementalMerkleTree D V → Prop where
  | new : Built height (new V height)
  | push {t t' : IncrementalMerkleTree D V} {leaf : V} (built : Built height t)
    (pushed : t.push leaf = some t') : Built height t'
  | update {t t' : IncrementalMerkleTree D V} {index : BitVec 64} {leaf : V}
      (built : Built height t)
    (updated : t.update index leaf = some t') : Built height t'

variable {height : Nat}

theorem Built.exact (built : Built height t) : t.height = height ∧ t.Exact := by
  induction built with
  | new => exact ⟨rfl, new_exact height⟩
  | push _ pushed ih =>
    obtain ⟨same, -, exact_tree⟩ := ih.2.push pushed
    exact ⟨same.trans ih.1, exact_tree⟩
  | update _ updated ih =>
    obtain ⟨-, same, -, exact_tree⟩ := ih.2.update updated
    exact ⟨same.trans ih.1, exact_tree⟩

theorem Built.pushAll {leaves : List V} (built : Built height t)
    (pushed : t.pushAll leaves = some t') : Built height t' := by
  induction leaves generalizing t with
  | nil =>
    cases pushed
    exact built
  | cons leaf rest ih =>
    obtain ⟨next, first, later⟩ := bind_eq_some_iff.mp pushed
    exact ih (built.push first) later

theorem exists_unpack (packed : IncrementalMerkleTreePacked V) (low : packed.height ≤ 63)
    (fits : packed.leaves.length ≤ 2 ^ packed.height) :
    ∃ t : IncrementalMerkleTree D V, unpack packed = some t ∧ Built packed.height t ∧
      t.leaves = packed.leaves := by
  obtain ⟨t, unpacked⟩ := (new_faithful (D := D) (V := V) packed.height).exists_pushAll low
    (le_trans (le_of_eq (zero_add _)) fits)
  obtain ⟨-, held, -⟩ := (new_faithful packed.height).pushAll unpacked
  exact ⟨t, unpacked, Built.new.pushAll unpacked, held⟩

/-- The checks of the decoder are what building the tree needs. -/
theorem deserialize_ok_iff {packed : IncrementalMerkleTreePacked V} :
    deserialize packed = .ok t ↔
      packed.height ≤ 63 ∧ packed.leaves.length ≤ 2 ^ packed.height ∧
        Built packed.height t ∧ t.leaves = packed.leaves := by
  simp [deserialize]
  constructor
  · rintro ⟨low, fits, unpacked⟩
    obtain ⟨t', unpacked', built, held⟩ :=
      exists_unpack (D := D) packed (Nat.le_of_lt_succ low) fits
    cases unpacked.symm.trans unpacked'
    exact ⟨Nat.le_of_lt_succ low, fits, built, held⟩
  · rintro ⟨low, fits, built, held⟩
    obtain ⟨t', unpacked, built', held'⟩ := exists_unpack (D := D) packed low fits
    obtain ⟨height, exact_tree⟩ := built.exact
    obtain ⟨height', exact_tree'⟩ := built'.exact
    have same : t' = t :=
      exact_tree'.unique exact_tree (height'.trans height.symm) (held'.trans held.symm)
    exact ⟨Nat.lt_succ_of_le low, fits, same ▸ unpacked⟩

/-- Every list of leaves that fits is decoded. -/
theorem exists_deserialize (packed : IncrementalMerkleTreePacked V) (low : packed.height ≤ 63)
    (fits : packed.leaves.length ≤ 2 ^ packed.height) :
    ∃ t : IncrementalMerkleTree D V, deserialize packed = .ok t := by
  obtain ⟨t, -, built, held⟩ := exists_unpack (D := D) packed low fits
  exact ⟨t, deserialize_ok_iff.mpr ⟨low, fits, built, held⟩⟩

theorem deserialize_avoids_abort (packed : IncrementalMerkleTreePacked V) :
    Avoids .abort (deserialize packed : Except DecodeError (IncrementalMerkleTree D V)) := by
  rw [deserialize, avoids_bind_iff]
  refine ⟨by simp, fun _ low => ?_⟩
  rw [avoids_bind_iff]
  refine ⟨by simp, fun _ fits => ?_⟩
  rw [revertIf_ok, not_le] at low
  rw [revertIf_ok, not_lt] at fits
  obtain ⟨t, unpacked, -⟩ := exists_unpack (D := D) packed (Nat.le_of_lt_succ low) fits
  rw [unpacked, avoids_getOrRevert_iff]
  exact fun failed => absurd failed (some_ne_none t)

theorem Built.round_trip (low : height ≤ 63) (built : Built height t) :
    deserialize t.pack = .ok t := by
  obtain ⟨same, exact_tree⟩ := built.exact
  refine deserialize_ok_iff.mpr ⟨?_, exact_tree.length_le, ?_, rfl⟩
  · exact le_trans (le_of_eq same) low
  · change Built t.height t
    rw [same]
    exact built

end IncrementalMerkleTree

/-! ## The sparse tree -/

structure SparseMerkleTreePacked (V : Type) where
  height : Nat
  leaves : List (BitVec 64 × V)

namespace SparseMerkleTree

def height (t : SparseMerkleTree D V) : Nat := t.merkleTree.height

def prove (t : SparseMerkleTree D V) (index : BitVec 64) : Option (MerkleProof D) :=
  t.merkleTree.prove index

/-- `pack`: the entries of a hash map come in any order. -/
structure Packs (t : SparseMerkleTree D V) (packed : SparseMerkleTreePacked V) : Prop where
  height : packed.height = t.height
  distinct : (packed.leaves.map Prod.fst).Nodup
  entries : ∀ index leaf, (index, leaf) ∈ packed.leaves ↔ t.leaves index = some leaf

def unpack (packed : SparseMerkleTreePacked V) : Option (SparseMerkleTree D V) :=
  (new V packed.height).updateAll packed.leaves

def deserialize (packed : SparseMerkleTreePacked V) :
    Except DecodeError (SparseMerkleTree D V) :=
  getOrRevert (unpack packed) .abort

/-- The entry of a place; an index has 64 bits. -/
def entry (t : SparseMerkleTree D V) (i : Nat) : Option V :=
  if i < 2 ^ 64 then t.leaves (BitVec.ofNat 64 i) else none

/-- The tree is the one over its leaves. -/
def Exact (t : SparseMerkleTree D V) : Prop :=
  t.merkleTree.Holds V t.height
    (fun i => Leafable.hash ((t.entry i).getD (Leafable.emptyLeaf D))) fun i => t.entry i ≠ none

variable {t t' : SparseMerkleTree D V} {index : BitVec 64} {leaf : V}

theorem Exact.unique (exact_tree : t.Exact) (exact_tree' : t'.Exact)
    (heights : t.height = t'.height) (held : t.leaves = t'.leaves) : t = t' := by
  have entries : t.entry = t'.entry := by
    funext i
    rw [entry, entry, held]
  unfold Exact at exact_tree'
  rw [← heights, ← entries] at exact_tree'
  have trees : t.merkleTree = t'.merkleTree := Holds.unique exact_tree exact_tree'
  cases t
  cases t'
  simp_all

theorem new_exact (height : Nat) : (new V height : SparseMerkleTree D V).Exact := by
  have holds := new_holds (D := D) V height
  have none : (new V height : SparseMerkleTree D V).entry = fun _ => none := by
    funext i
    simp [entry, new]
  unfold Exact
  rw [none]
  simp
  exact holds

omit [Leafable D V] in
theorem entry_update (t : SparseMerkleTree D V) (merkleTree : MerkleTree D) (index : BitVec 64)
    (leaf : V) : entry (D := D) ⟨merkleTree, Function.update t.leaves index (some leaf)⟩ =
      Function.update t.entry index.toNat (some leaf) := by
  funext i
  by_cases here : i = index.toNat
  · rw [here, update_self, entry, if_pos index.isLt, ofNat_toNat,
      setWidth_eq]
    exact update_self _ _ _
  · rw [update_of_ne here, entry, entry]
    by_cases small : i < 2 ^ 64
    · have other : BitVec.ofNat 64 i ≠ index := by
        rintro rfl
        rw [toNat_ofNat, Nat.mod_eq_of_lt small] at here
        exact here rfl
      rw [if_pos small, if_pos small]
      exact update_of_ne other _ _
    · rw [if_neg small, if_neg small]

theorem update_some_iff : t.update index leaf = some t' ↔
    ∃ merkleTree, t.merkleTree.updateLeaf index (hash leaf) = some merkleTree ∧
      t' = ⟨merkleTree, Function.update t.leaves index (some leaf)⟩ := by
  simp [update, bind_eq_some_iff, eq_comm (b := t')]

theorem Exact.update (exact_tree : t.Exact) (updated : t.update index leaf = some t') :
    t'.height = t.height ∧ t'.leaves = Function.update t.leaves index (some leaf) ∧
      t'.Exact := by
  obtain ⟨merkleTree, changed, rfl⟩ := update_some_iff.mp updated
  have holds := Holds.updateLeaf exact_tree changed
  have height : merkleTree.height = t.height := holds.height_eq
  have digests : (fun i => hash ((Function.update t.entry index.toNat (some leaf) i).getD
      (emptyLeaf D))) = Function.update (fun i => (hash ((t.entry i).getD
        (emptyLeaf D)) : D)) index.toNat (hash leaf) := by
    funext i
    by_cases here : i = index.toNat
    · rw [here, update_self, update_self, getD_some]
    · rw [update_of_ne here, update_of_ne here]
  have written : (fun i => Function.update t.entry index.toNat (some leaf) i ≠ none) =
      fun i => t.entry i ≠ none ∨ i = index.toNat := by
    funext i
    by_cases here : i = index.toNat
    · simp [here]
    · simp [here]
  refine ⟨height, rfl, ?_⟩
  change Holds V merkleTree merkleTree.height _ _
  rw [height, entry_update, digests, written]
  exact holds

/-- What the operations of the tree make, from the empty tree on. -/
inductive Built (height : Nat) : SparseMerkleTree D V → Prop where
  | new : Built height (new V height)
  | update {t t' : SparseMerkleTree D V} {index : BitVec 64} {leaf : V} (built : Built height t)
    (updated : t.update index leaf = some t') : Built height t'

variable {height : Nat} {updates : List (BitVec 64 × V)} {packed : SparseMerkleTreePacked V}

theorem Built.exact (built : Built height t) : t.height = height ∧ t.Exact := by
  induction built with
  | new => exact ⟨rfl, new_exact height⟩
  | update _ updated ih =>
    obtain ⟨same, -, exact_tree⟩ := ih.2.update updated
    exact ⟨same.trans ih.1, exact_tree⟩

/-- What an update does to the leaves. -/
def put (leaves : BitVec 64 → Option V) (update : BitVec 64 × V) : BitVec 64 → Option V :=
  Function.update leaves update.1 (some update.2)

/-- A run of updates inside the tree, and the leaves after it. -/
theorem Built.updateAll (built : Built height t)
    (inside : ∀ update ∈ updates, indexInDomain update.1 height = true) :
    ∃ t', t.updateAll updates = some t' ∧ Built height t' ∧
      t'.leaves = updates.foldl put t.leaves := by
  induction updates generalizing t with
  | nil => exact ⟨t, rfl, built, rfl⟩
  | cons update rest ih =>
    obtain ⟨first, later⟩ := forall_mem_cons.mp inside
    obtain ⟨height_eq, exact_tree⟩ := built.exact
    obtain ⟨merkleTree, changed⟩ := Holds.exists_updateLeaf exact_tree
      (height_eq.symm ▸ first) (hash update.2)
    have updated := update_some_iff.mpr ⟨merkleTree, changed, rfl⟩
    obtain ⟨t', run, built', leaves⟩ := ih (built.update updated) later
    refine ⟨t', ?_, built', leaves⟩
    rw [updateAll, foldlM_cons, updated]
    exact run

/-- Entries with different indices all stay. -/
theorem foldl_entries {entries : List (BitVec 64 × V)} (distinct : (entries.map Prod.fst).Nodup)
    (leaves : BitVec 64 → Option V) (index : BitVec 64) (leaf : V) :
    entries.foldl put leaves index = some leaf ↔
      (index, leaf) ∈ entries ∨ (index ∉ entries.map Prod.fst ∧
        leaves index = some leaf) := by
  induction entries generalizing leaves with
  | nil => simp
  | cons entry rest ih =>
    obtain ⟨i, v⟩ := entry
    obtain ⟨fresh, rest_distinct⟩ := nodup_cons.mp distinct
    rw [foldl_cons, ih rest_distinct]
    by_cases here : index = i
    · subst here
      have absent : (index, leaf) ∉ rest := fun member =>
        fresh (mem_map.mpr ⟨(index, leaf), member, rfl⟩)
      simp [put, absent, fresh, eq_comm]
    · simp [put, here]

theorem updateAll_inside (run : t.updateAll updates = some t') :
    ∀ update ∈ updates, indexInDomain update.1 t.height = true := by
  induction updates generalizing t with
  | nil => exact forall_mem_nil _
  | cons update rest ih =>
    rw [updateAll, foldlM_cons] at run
    obtain ⟨next, first, later⟩ := bind_eq_some_iff.mp run
    obtain ⟨merkleTree, changed, rfl⟩ := update_some_iff.mp first
    obtain ⟨domain, same⟩ := updateLeaf_domain changed
    refine forall_mem_cons.mpr ⟨domain, fun other member => ?_⟩
    have inside := ih later other member
    rw [height, same] at inside
    exact inside

/-- Indices inside the tree are all that the decoder needs. -/
theorem exists_deserialize
    (inside : ∀ update ∈ packed.leaves, indexInDomain update.1 packed.height = true) :
    ∃ t : SparseMerkleTree D V, deserialize packed = .ok t ∧ Built packed.height t := by
  obtain ⟨t, run, built, -⟩ := Built.updateAll (D := D) .new inside
  exact ⟨t, getOrRevert_ok.mpr run, built⟩

/-- An index outside the tree is not refused. -/
theorem deserialize_avoids_abort_iff (packed : SparseMerkleTreePacked V) :
    Avoids .abort (deserialize packed : Except DecodeError (SparseMerkleTree D V)) ↔
      ∀ update ∈ packed.leaves, indexInDomain update.1 packed.height = true := by
  constructor
  · intro avoids
    cases run : (unpack packed : Option (SparseMerkleTree D V)) with
    | none =>
      rw [deserialize, run] at avoids
      exact absurd rfl avoids
    | some t => exact updateAll_inside run
  · intro inside
    obtain ⟨t, done, -⟩ := exists_deserialize (D := D) inside
    rw [done]
    exact avoids_ok

/-- Written and read again, a tree is the same. -/
theorem Built.round_trip (built : Built height t) (packs : t.Packs packed) :
    deserialize packed = .ok t := by
  obtain ⟨height_eq, exact_tree⟩ := built.exact
  have inside : ∀ update ∈ packed.leaves, indexInDomain update.1 packed.height = true := by
    intro update member
    have held := (packs.entries update.1 update.2).mp member
    have written : t.entry update.1.toNat ≠ none := by
      rw [entry, if_pos update.1.isLt, ofNat_toNat, setWidth_eq, held]
      exact some_ne_none _
    have below := exact_tree.inside _ written
    exact indexInDomain_of_lt (packs.height.symm ▸ below)
  obtain ⟨t', run, built', leaves⟩ := Built.updateAll (D := D) .new inside
  obtain ⟨height_eq', exact_tree'⟩ := built'.exact
  have held : t'.leaves = t.leaves := by
    funext index
    refine ext fun leaf => ?_
    rw [leaves, foldl_entries packs.distinct, packs.entries]
    simp [SparseMerkleTree.new]
  have same : t' = t := exact_tree'.unique exact_tree (height_eq'.trans packs.height) held
  exact getOrRevert_ok.mpr (same ▸ run)

end SparseMerkleTree

end

end Intmax.Trees
