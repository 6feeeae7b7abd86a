import Intmax.Trees.Decoding

/-! # Decoded indexed trees

The decoder of the indexed tree builds any leaves that fit and start with the key of the sentinel.
Whether they are one sorted list through their links is not looked at.  Where they are, the tree is
one that insertions make: inserting the keys in the order of their places leads to leaves with the
same keys, and the keys of a sorted list fix its links.
-/

namespace Intmax.Trees

open Checked Hashing SortedLinks List IncrementalMerkleTree

section
variable {D B K : Type} [Hashing D B] [LinearOrder K] [BoundedOrder K] [TreeKey D K]

/-- `IndexedMerkleTreeError`, as `update` returns it. -/
inductive UpdateError (K : Type) where
  | keyDoesNotExist (key : K)
  /-- An assertion of the tree failed. -/
  | panic

namespace IndexedMerkleTree

/-- `index`: more than one leaf with the key panics. -/
def index (t : IndexedMerkleTree D K) (key : K) :
    Except (IndexedMerkleTreeError D K) (Option (BitVec 64)) :=
  match t.leaves.zipIdx.filter fun x => decide (x.1.key = key) with
  | [] => .ok none
  | [(_, index)] => .ok (some (BitVec.ofNat 64 index))
  | _ => .error .panic

/-- `update`: the value of a key that is in the tree. -/
def updateValue (t : IndexedMerkleTree D K) (key : K) (value : BitVec 64) :
    Except (UpdateError K) (IndexedMerkleTree D K) := do
  let found ← (index t key).mapError fun _ => .panic
  let index ← getOrRevert found (.keyDoesNotExist key)
  getOrRevert (IncrementalMerkleTree.update t index { t.getLeaf index with value }) .panic

/-- The decoder: the inner tree's, and then the key of the first leaf. -/
def deserialize (packed : IncrementalMerkleTreePacked (IndexedMerkleLeaf K)) :
    Except DecodeError (IndexedMerkleTree D K) := do
  let inner ← IncrementalMerkleTree.deserialize packed
  revertIf (inner.leaves.head?.map (·.key) ≠ some ⊥) .missingSentinel
  pure inner

/-- What the operations of the tree make, from the sentinel on. -/
inductive Built (height : Nat) : IndexedMerkleTree D K → Prop where
  | new {t : IndexedMerkleTree D K} (made : new height = some t) : Built height t
  | insert {t t' : IndexedMerkleTree D K} {key : K} {value : BitVec 64} (built : Built height t)
    (done : insert t key value = .ok t') : Built height t'
  | update {t t' : IndexedMerkleTree D K} {key : K} {value : BitVec 64} (built : Built height t)
    (done : updateValue t key value = .ok t') : Built height t'

variable {t t' between : IndexedMerkleTree D K} {low : BitVec 64} {key : K} {value : BitVec 64}
  {height : Nat}

/-! ## Keys and values -/

/-- The keys of the leaves and their values, by place. -/
def entries (t : IndexedMerkleTree D K) : List (K × BitVec 64) :=
  t.leaves.map fun leaf => (leaf.key, leaf.value)

omit [LinearOrder K] [BoundedOrder K] in
theorem keys_eq (t : IndexedMerkleTree D K) : (entries t).map Prod.fst = t.leaves.map (·.key) := by
  simp [entries]

theorem range_keys (t : IndexedMerkleTree D K) :
    (range t.leaves.length).map (fun i => (place t i).key) = t.leaves.map (·.key) := by
  refine ext_getElem (by simp) fun i inside inside' => ?_
  have bound : i < t.leaves.length := by simpa using inside
  simp [place, leafAt, getElem?_eq_getElem bound]

theorem Sorted.nodup_keys (sorted : Sorted t) : (t.leaves.map (·.key)).Nodup := by
  obtain ⟨rest, linked, perm⟩ := sorted.order
  rw [← range_keys]
  exact (perm.map _).nodup_iff.mp linked.nodup_keys

theorem Sorted.nonempty (sorted : Sorted t) : 0 < t.leaves.length := by
  obtain ⟨rest, -, perm⟩ := sorted.order
  exact mem_range.mp (perm.mem_iff.mp mem_cons_self)

/-- The keys of a sorted tree fix its links. -/
theorem Sorted.leaves_eq (sorted : Sorted t) (sorted' : Sorted t') (same : entries t = entries t') :
    t.leaves = t'.leaves := by
  obtain ⟨rest, linked, perm⟩ := sorted.order
  obtain ⟨rest', linked', perm'⟩ := sorted'.order
  have lengths : t.leaves.length = t'.leaves.length := by
    have := congrArg length same
    simpa [entries] using this
  have at_place (i : Nat) (inside : i < t.leaves.length) (inside' : i < t'.leaves.length) :
      t.leaves[i].key = t'.leaves[i].key ∧ t.leaves[i].value = t'.leaves[i].value := by
    have pairs := getElem_of_eq same (i := i) (by simpa [entries] using inside)
    simpa [entries] using pairs
  have leaf (t : IndexedMerkleTree D K) {i : Nat} (inside : i < t.leaves.length) :
      t.leafAt i = t.leaves[i] := getD_eq_getElem _ _ inside
  have keys : ∀ i ∈ 0 :: rest, (place t i).key = (place t' i).key := by
    intro i member
    have inside := mem_range.mp (perm.mem_iff.mp member)
    simp only [place, leaf t inside, leaf t' (lengths ▸ inside)]
    exact (at_place i inside (lengths ▸ inside)).1
  -- both orders go up by the same keys
  have orders : 0 :: rest = 0 :: rest' := by
    have up := pairwise_map.mp linked.sorted
    have up' : (0 :: rest').Pairwise fun i j => (place t i).key < (place t j).key := by
      refine (pairwise_map.mp linked'.sorted).imp_of_mem fun {i j} left right less => ?_
      have swap : ∀ i ∈ 0 :: rest', (place t i).key = (place t' i).key := fun i member =>
        keys i (perm.mem_iff.mpr (lengths ▸ perm'.mem_iff.mp member))
      rw [swap i left, swap j right]
      exact less
    refine Perm.eq_of_pairwise (fun i j _ _ less more => ?_) up up' (perm.trans ?_)
    · exact absurd more (lt_asymm less)
    · rw [lengths]
      exact perm'.symm
  have cells := linked.cells_eq (orders ▸ linked') keys
  refine ext_getElem lengths fun i inside inside' => ?_
  have cell := cells i (perm.mem_iff.mpr (mem_range.mpr inside))
  simp [place, leaf t inside, leaf t' inside'] at cell
  obtain ⟨key, next, link⟩ := cell
  exact IndexedMerkleLeaf.ext link key next (at_place i inside inside').2

/-! ## Insertions that succeed -/

theorem exists_update (exact_tree : t.Exact) (index : BitVec 64)
    (bound : index.toNat < t.leaves.length) (leaf : IndexedMerkleLeaf K) :
    ∃ between, update t index leaf = some between := by
  have domain : indexInDomain index t.height = true :=
    indexInDomain_of_lt (exact_tree.inside _ bound)
  obtain ⟨merkleTree, changed⟩ :=
    MerkleTree.Holds.exists_updateLeaf exact_tree domain (Leafable.hash leaf)
  refine ⟨⟨merkleTree, t.leaves.set index.toNat leaf⟩, ?_⟩
  rw [update, changed]
  exact if_pos bound

/-- The leaves after an insertion. -/
theorem Inserted.exact (inserted : Inserted t between t' low key value) (exact_tree : t.Exact) :
    t'.height = t.height ∧ t'.Exact ∧ entries t' = entries t ++ [(key, value)] := by
  obtain ⟨bound, height, held, exact_between⟩ := exact_tree.update inserted.updated
  obtain ⟨height', held', exact_tree'⟩ := exact_between.push inserted.pushed
  refine ⟨height'.trans height, exact_tree', ?_⟩
  have leaf : t.getLeaf low = t.leaves[low.toNat] := getD_eq_getElem _ _ bound
  have inside : low.toNat < (entries t).length := by simpa [entries] using bound
  -- the predecessor's key and value stay, so its entry is written over itself
  have same : (t.leaves[low.toNat].key, t.leaves[low.toNat].value) = (entries t)[low.toNat] := by
    simp [entries]
  have kept : (t.leaves.set low.toNat
      { t.getLeaf low with
        nextIndex := BitVec.ofNat 64 t.leaves.length
        nextKey := key }).map (fun leaf => (leaf.key, leaf.value)) = entries t := by
    rw [map_set, leaf]
    change (entries t).set low.toNat (t.leaves[low.toNat].key, t.leaves[low.toNat].value) = _
    rw [same, set_getElem_self]
  rw [entries, held', held, map_append, kept]
  rfl

/-- A new key is inserted while there is room. -/
theorem Sorted.exists_insert (sorted : Sorted t) (exact_tree : t.Exact)
    (low_height : t.height ≤ 63)
    (fresh : key ∉ t.leaves.map (·.key)) (room : t.leaves.length < 2 ^ t.height)
    (value : BitVec 64) : ∃ t', insert t key value = .ok t' := by
  rcases sorted.candidates_eq key with ⟨-, i, only⟩ | ⟨present, -⟩
  · have found := lowIndex_of_candidates only
    obtain ⟨bound, -⟩ := sorted.lowIndex_gap found
    obtain ⟨between, updated⟩ := exists_update exact_tree _ bound
      { t.getLeaf (BitVec.ofNat 64 i) with
        nextIndex := BitVec.ofNat 64 t.leaves.length
        nextKey := key }
    obtain ⟨-, height, held, -⟩ := exact_tree.update updated
    have same : between.leaves.length = t.leaves.length := by rw [held, length_set]
    obtain ⟨t', pushed⟩ := exists_push (t := between) (height ▸ low_height)
      (by rw [same, height]; exact room)
      { nextIndex := (t.getLeaf (BitVec.ofNat 64 i)).nextIndex
        key := key
        nextKey := (t.getLeaf (BitVec.ofNat 64 i)).nextKey
        value := value }
    exact ⟨t', insert_ok_iff.mpr ⟨_, between, found, updated, pushed⟩⟩
  · exact absurd present fresh

/-- An insertion into a tree with room never panics. -/
theorem Sorted.insert_avoids_panic (sorted : Sorted t) (exact_tree : t.Exact)
    (low_height : t.height ≤ 63) (room : t.leaves.length < 2 ^ t.height) (key : K)
    (value : BitVec 64) : Avoids .panic (insert t key value) := by
  by_cases present : key ∈ t.leaves.map (·.key)
  · rcases sorted.candidates_eq key with ⟨fresh, -⟩ | ⟨-, none⟩
    · exact absurd present fresh
    · have failed : insert t key value = .error (.keyAlreadyExists key) := by
        rw [insert, lowIndex_of_none none]
        rfl
      rw [failed, avoids_error_iff]
      intro same
      cases same
  · obtain ⟨t', done⟩ := sorted.exists_insert exact_tree low_height present room value
    rw [done]
    exact avoids_ok

/-! ## Looking a key up -/

theorem filter_zipIdx_length (sorted : Sorted t) (key : K) :
    (t.leaves.zipIdx.filter fun x => decide (x.1.key = key)).length ≤ 1 := by
  have keys : (t.leaves.zipIdx.filter fun x => decide (x.1.key = key)).map (fun x => x.1.key) =
      replicate (t.leaves.zipIdx.filter fun x => decide (x.1.key = key)).length key := by
    refine eq_replicate_iff.mpr ⟨by simp, ?_⟩
    intro found member
    obtain ⟨x, inside, rfl⟩ := mem_map.mp member
    exact of_decide_eq_true (mem_filter.mp inside).2
  have distinct : ((t.leaves.zipIdx.filter fun x => decide (x.1.key = key)).map
      fun x => x.1.key).Nodup := by
    refine Nodup.sublist (filter_sublist.map _) ?_
    have keys_zip : t.leaves.zipIdx.map (fun x => x.1.key) = t.leaves.map (·.key) := by
      conv_rhs => rw [← zipIdx_map_fst 0 t.leaves, map_map]
      rfl
    rw [keys_zip]
    exact sorted.nodup_keys
  rw [keys] at distinct
  exact nodup_replicate.mp distinct

theorem Sorted.index_avoids_panic (sorted : Sorted t) (key : K) : Avoids .panic (index t key) := by
  have few := filter_zipIdx_length sorted key
  unfold index
  split
  case h_1 => exact avoids_ok
  case h_2 => exact avoids_ok
  case h_3 other none single =>
    intro
    cases found : t.leaves.zipIdx.filter fun x => decide (x.1.key = key) with
    | nil => exact none found
    | cons first rest =>
      rw [found] at few
      cases rest with
      | nil => exact single _ _ found
      | cons => simp at few

theorem lowIndex_avoids_panic (t : IndexedMerkleTree D K) (key : K) :
    Avoids .panic (lowIndex t key) := by
  unfold lowIndex
  split
  case h_1 =>
    intro same
    cases same
  case h_2 => exact avoids_ok
  case h_3 =>
    intro same
    cases same

/-! ## Changed values -/

theorem updateValue_ok_iff : updateValue t key value = .ok t' ↔
    ∃ found, index t key = .ok (some found) ∧
      update t found { t.getLeaf found with value } = some t' := by
  simp only [updateValue, bind_ok, mapError_ok, getOrRevert_ok]
  constructor
  · rintro ⟨_, looked, found, rfl, updated⟩
    exact ⟨found, looked, updated⟩
  · rintro ⟨found, looked, updated⟩
    exact ⟨_, looked, found, rfl, updated⟩

/-- A new value leaves the list as it is. -/
theorem Sorted.updateValue (sorted : Sorted t) (exact_tree : t.Exact)
    (done : updateValue t key value = .ok t') :
    t'.height = t.height ∧ t'.Exact ∧ Sorted t' := by
  obtain ⟨found, -, updated⟩ := updateValue_ok_iff.mp done
  obtain ⟨bound, height, held, exact_tree'⟩ := exact_tree.update updated
  have lengths : t'.leaves.length = t.leaves.length := by rw [held, length_set]
  have leaves : t'.leafAt = Function.update t.leafAt found.toNat
      { t.getLeaf found with value } := by
    unfold leafAt
    rw [held]
    exact getD_set _ _ _ bound
  have places : place t' = place t := by
    funext i
    rw [place, leaves]
    by_cases here : i = found.toNat
    · rw [here, Function.update_self]
      rfl
    · rw [Function.update_of_ne here]
      rfl
  refine ⟨height, exact_tree', exact_tree'.faithful, lengths ▸ sorted.small, ?_, ?_⟩
  · rw [places, lengths]
    exact sorted.order
  · have first : (t'.leafAt 0).key = (t.leafAt 0).key := congrArg (·.key) (congrFun places 0)
    rw [first]
    exact sorted.sentinel

/-! ## Sorted trees are the built ones -/

theorem Built.spec (built : Built height t) : t.height = height ∧ t.Exact ∧ Sorted t := by
  induction built with
  | new made =>
    obtain ⟨same, -, exact_tree⟩ := (new_exact height).push made
    exact ⟨same, exact_tree, new_sorted made⟩
  | insert _ done ih =>
    obtain ⟨same, exact_tree, sorted⟩ := ih
    obtain ⟨low, between, inserted⟩ := insert_ok_iff.mp done
    obtain ⟨same', exact_tree', -⟩ := inserted.exact exact_tree
    exact ⟨same'.trans same, exact_tree', inserted.sorted sorted⟩
  | update _ done ih =>
    obtain ⟨same, exact_tree, sorted⟩ := ih
    obtain ⟨same', exact_tree', sorted'⟩ := sorted.updateValue exact_tree done
    exact ⟨same'.trans same, exact_tree', sorted'⟩

/-- Different new keys that fit are all inserted. -/
theorem Built.exists_insertAll (low_height : height ≤ 63) (built : Built height t)
    (added : List (K × BitVec 64)) (distinct : ((entries t ++ added).map Prod.fst).Nodup)
    (room : (entries t ++ added).length ≤ 2 ^ height) :
    ∃ t' : IndexedMerkleTree D K, Built height t' ∧ entries t' = entries t ++ added := by
  induction added generalizing t with
  | nil => exact ⟨t, built, (append_nil _).symm⟩
  | cons entry rest ih =>
    obtain ⟨same, exact_tree, sorted⟩ := built.spec
    have regroup : entries t ++ entry :: rest = (entries t ++ [entry]) ++ rest := by simp
    have fresh : entry.1 ∉ t.leaves.map (·.key) := by
      rw [← keys_eq]
      rw [map_append, map_cons] at distinct
      intro member
      exact disjoint_of_nodup_append distinct member mem_cons_self
    have fits : t.leaves.length < 2 ^ t.height := by
      have lengths : (entries t).length = t.leaves.length := by simp [entries]
      rw [length_append, length_cons] at room
      rw [same]
      omega
    obtain ⟨next, done⟩ := sorted.exists_insert exact_tree
      (same ▸ low_height) fresh fits entry.2
    obtain ⟨low, between, inserted⟩ := insert_ok_iff.mp done
    obtain ⟨-, -, held⟩ := inserted.exact exact_tree
    have grown : entries next ++ rest = entries t ++ entry :: rest := by rw [held, regroup]
    obtain ⟨t', built', all⟩ := ih (built.insert done) (grown ▸ distinct) (grown ▸ room)
    exact ⟨t', built', all.trans grown⟩

/-- The sentinel alone, with a value. -/
theorem exists_first (height : Nat) (low_height : height ≤ 63) (value : BitVec 64) :
    ∃ t : IndexedMerkleTree D K, Built height t ∧ entries t = [(⊥, value)] := by
  obtain ⟨made, pushed⟩ := exists_push (t :=
    (IncrementalMerkleTree.new (IndexedMerkleLeaf K) height : IndexedMerkleTree D K)) low_height
      (Nat.two_pow_pos _) .sentinel
  obtain ⟨-, held, exact_tree⟩ := (new_exact height).push pushed
  have single : made.leaves = [.sentinel] := held
  have looked : index made ⊥ = .ok (some 0) := by
    unfold index
    rw [single]
    simp [IndexedMerkleLeaf.sentinel]
  have first : made.getLeaf 0 = .sentinel := by
    change made.leaves.getD 0 _ = _
    rw [single]
    rfl
  obtain ⟨t, updated⟩ := exists_update exact_tree 0 (by simp [single])
    { made.getLeaf 0 with value }
  obtain ⟨-, -, held', -⟩ := exact_tree.update updated
  refine ⟨t, Built.update (.new pushed) (updateValue_ok_iff.mpr ⟨0, looked, updated⟩), ?_⟩
  rw [entries, held', single, first]
  rfl

/-- One sorted list of leaves is what insertions make. -/
theorem Sorted.built (sorted : Sorted t) (exact_tree : t.Exact) (low_height : t.height ≤ 63) :
    Built t.height t := by
  have lengths : (entries t).length = t.leaves.length := by simp [entries]
  cases held : entries t with
  | nil =>
    have some_leaf := sorted.nonempty
    rw [held, length_nil] at lengths
    omega
  | cons entry rest =>
    have sentinel : entry = (⊥, entry.2) := by
      have inside := sorted.nonempty
      have head : entry = (entries t)[0] := by simp [held]
      have key : t.leaves[0].key = ⊥ := by
        rw [← sorted.sentinel]
        exact congrArg (·.key) (getD_eq_getElem _ _ inside).symm
      rw [head]
      simp [entries, key]
    obtain ⟨first, built, start⟩ := exists_first (D := D) (K := K) _ low_height entry.2
    have whole : entries first ++ rest = entries t := by
      rw [start, held, ← sentinel]
      rfl
    obtain ⟨t', built', all⟩ := Built.exists_insertAll low_height built rest
      (by rw [whole, keys_eq]; exact sorted.nodup_keys)
      (by rw [whole, lengths]; exact exact_tree.length_le)
    obtain ⟨height', exact_tree', sorted'⟩ := built'.spec
    have same : t' = t := exact_tree'.unique exact_tree height'
      (sorted'.leaves_eq sorted (all.trans whole))
    exact same ▸ built'

/-! ## The decoder -/

theorem deserialize_ok_iff {packed : IncrementalMerkleTreePacked (IndexedMerkleLeaf K)} :
    deserialize packed = .ok t ↔
      IncrementalMerkleTree.deserialize packed = .ok t ∧
        t.leaves.head?.map (·.key) = some ⊥ := by
  simp only [deserialize, bind_ok, revertIf_ok, pure_ok, exists_unit, not_not]
  constructor
  · rintro ⟨inner, decoded, sentinel, rfl⟩
    exact ⟨decoded, sentinel⟩
  · rintro ⟨decoded, sentinel⟩
    exact ⟨t, decoded, sentinel, rfl⟩

theorem deserialize_avoids_abort (packed : IncrementalMerkleTreePacked (IndexedMerkleLeaf K)) :
    Avoids .abort (deserialize packed : Except DecodeError (IndexedMerkleTree D K)) := by
  rw [deserialize, avoids_bind_iff]
  exact ⟨IncrementalMerkleTree.deserialize_avoids_abort packed, by simp⟩

/-- The links are all that the decoder does not look at. -/
theorem sorted_iff_built {packed : IncrementalMerkleTreePacked (IndexedMerkleLeaf K)}
    (decoded : deserialize packed = .ok t) : Sorted t ↔ Built packed.height t := by
  obtain ⟨low, -, inner, -⟩ :=
    IncrementalMerkleTree.deserialize_ok_iff.mp (deserialize_ok_iff.mp decoded).1
  obtain ⟨same, exact_tree⟩ := inner.exact
  constructor
  · intro sorted
    exact same ▸ sorted.built exact_tree (same.symm ▸ low)
  · intro built
    exact built.spec.2.2

theorem Built.round_trip (built : Built height t) (low_height : height ≤ 63) :
    deserialize t.pack = .ok t := by
  obtain ⟨same, exact_tree, sorted⟩ := built.spec
  have inside := sorted.nonempty
  refine deserialize_ok_iff.mpr ⟨?_, ?_⟩
  · obtain ⟨t', decoded⟩ := IncrementalMerkleTree.exists_deserialize (D := D)
      t.pack (le_trans (le_of_eq same) low_height) exact_tree.length_le
    obtain ⟨-, -, built', held⟩ := IncrementalMerkleTree.deserialize_ok_iff.mp decoded
    obtain ⟨same', exact_tree'⟩ := built'.exact
    exact exact_tree'.unique exact_tree same' held ▸ decoded
  · rw [head?_eq_getElem?, getElem?_eq_getElem inside, Option.map_some, ← sorted.sentinel]
    exact congrArg (some ∘ IndexedMerkleLeaf.key) (getD_eq_getElem _ _ inside).symm

/-- A new key is inserted exactly when there is room. -/
theorem Sorted.insert_iff_room (sorted : Sorted t) (exact_tree : t.Exact)
    (low_height : t.height ≤ 63) (fresh : key ∉ t.leaves.map (·.key)) :
    (∃ t', insert t key value = .ok t') ↔ t.leaves.length < 2 ^ t.height := by
  refine ⟨fun inserts => ?_, fun room => sorted.exists_insert exact_tree low_height
    fresh room value⟩
  obtain ⟨t', done⟩ := inserts
  obtain ⟨low, between, inserted⟩ := insert_ok_iff.mp done
  obtain ⟨same, exact_tree', held⟩ := inserted.exact exact_tree
  have fits := exact_tree'.length_le
  have lengths : t'.leaves.length = t.leaves.length + 1 := by
    simpa [entries] using congrArg length held
  rw [same, lengths] at fits
  exact fits

end IndexedMerkleTree

/-! ## Decoded trees -/

/-- What the three decoders make of any input.  A sparse tree is decoded, rather than aborted,
    exactly when its indices lie inside its height.  An incremental tree always is one that pushes
    make.  An indexed tree is one that insertions make exactly when its leaves are one sorted list,
    and then no lookup panics, and an insertion only in a full tree.  A tree of at most 63 levels
    survives the way out and back. -/
theorem decoded_trees_reachable {D B V K : Type} [Hashing D B] [Leafable D V] [LinearOrder K]
    [BoundedOrder K] [TreeKey D K] :
    (∀ packed : SparseMerkleTreePacked V, packed.height < 2 ^ 32 →
      (Avoids .abort (SparseMerkleTree.deserialize packed :
          Except DecodeError (SparseMerkleTree D V)) ↔
        ∀ update ∈ packed.leaves, indexInDomain update.1 packed.height = true) ∧
      ∀ t : SparseMerkleTree D V, SparseMerkleTree.deserialize packed = .ok t →
        t.Built packed.height ∧
        ∀ index, indexInDomain index t.height = true →
        ∃ proof, t.prove index = some proof) ∧
    (∀ height (t : SparseMerkleTree D V) packed, height < 2 ^ 32 → t.Built height →
      t.Packs packed → SparseMerkleTree.deserialize packed = .ok t) ∧
    (∀ packed : IncrementalMerkleTreePacked V,
      Avoids .abort (IncrementalMerkleTree.deserialize packed :
        Except DecodeError (IncrementalMerkleTree D V)) ∧
      ∀ t : IncrementalMerkleTree D V, IncrementalMerkleTree.deserialize packed = .ok t →
        t.Built packed.height ∧ t.leaves = packed.leaves ∧
        t.leaves.length ≤ 2 ^ packed.height ∧ ∀ index, indexInDomain index t.height = true →
        ∃ proof, t.prove index = some proof) ∧
    (∀ height (t : IncrementalMerkleTree D V), height ≤ 63 → t.Built height →
      IncrementalMerkleTree.deserialize t.pack = .ok t) ∧
    (∀ packed : IncrementalMerkleTreePacked (IndexedMerkleLeaf K),
      Avoids .abort (IndexedMerkleTree.deserialize packed :
        Except DecodeError (IndexedMerkleTree D K)) ∧
      ∀ t : IndexedMerkleTree D K, IndexedMerkleTree.deserialize packed = .ok t →
        t.leaves = packed.leaves ∧ (t.Sorted ↔ IndexedMerkleTree.Built packed.height t)) ∧
    ∀ height (t : IndexedMerkleTree D K), height ≤ 63 → IndexedMerkleTree.Built height t →
      IndexedMerkleTree.deserialize t.pack = .ok t ∧ (t.leaves.map (·.key)).Nodup ∧
      (∀ index, indexInDomain index t.height = true → ∃ proof, t.prove index = some proof) ∧
      ∀ key value,
        Avoids .panic (t.index key) ∧ Avoids .panic (t.lowIndex key) ∧
        (t.leaves.length < 2 ^ height → Avoids .panic (t.insert key value)) ∧
        (key ∉ t.leaves.map (·.key) →
          ((∃ t', t.insert key value = .ok t') ↔ t.leaves.length < 2 ^ height)) := by
  refine ⟨fun packed _ => ⟨SparseMerkleTree.deserialize_avoids_abort_iff packed, ?_⟩,
    fun height t packed _ built packs => built.round_trip packs,
    fun packed => ⟨IncrementalMerkleTree.deserialize_avoids_abort packed, ?_⟩,
    fun height t low built => built.round_trip low,
    fun packed => ⟨IndexedMerkleTree.deserialize_avoids_abort packed, ?_⟩, ?_⟩
  · intro t decoded
    have inside := (SparseMerkleTree.deserialize_avoids_abort_iff (D := D) packed).mp
      (decoded ▸ avoids_ok)
    obtain ⟨t', decoded', built⟩ := SparseMerkleTree.exists_deserialize (D := D) inside
    obtain rfl : t' = t := Except.ok.inj (decoded'.symm.trans decoded)
    obtain ⟨-, exact_tree⟩ := built.exact
    exact ⟨built, fun index domain => MerkleTree.Holds.exists_prove exact_tree domain⟩
  · intro t decoded
    obtain ⟨-, fits, built, held⟩ := IncrementalMerkleTree.deserialize_ok_iff.mp decoded
    obtain ⟨-, exact_tree⟩ := built.exact
    exact ⟨built, held, held ▸ fits,
      fun index domain => MerkleTree.Holds.exists_prove exact_tree domain⟩
  · intro t decoded
    obtain ⟨inner, -⟩ := IndexedMerkleTree.deserialize_ok_iff.mp decoded
    obtain ⟨-, -, -, held⟩ := IncrementalMerkleTree.deserialize_ok_iff.mp inner
    exact ⟨held, IndexedMerkleTree.sorted_iff_built decoded⟩
  · intro height t low built
    obtain ⟨same, exact_tree, sorted⟩ := built.spec
    have low_tree : t.height ≤ 63 := same.symm ▸ low
    refine ⟨built.round_trip low, sorted.nodup_keys,
      fun index domain => MerkleTree.Holds.exists_prove exact_tree domain, fun key value => ?_⟩
    refine ⟨sorted.index_avoids_panic key, IndexedMerkleTree.lowIndex_avoids_panic t key,
      ?_, ?_⟩
    · rw [← same]
      exact fun room => sorted.insert_avoids_panic exact_tree low_tree room key value
    · rw [← same]
      exact fun fresh => sorted.insert_iff_room exact_tree low_tree fresh

/-- A sparse tree of four leaves, and an indexed one with a key. -/
theorem decoded_trees_of_height_two :
    (∃ t : SparseMerkleTree Free.Digest (IndexedMerkleLeaf U256),
      SparseMerkleTree.deserialize ⟨2, [(3, .sentinel)]⟩ = .ok t ∧ t.Built 2) ∧
    ∃ t : IndexedMerkleTree Free.Digest U256, IndexedMerkleTree.Built 2 t ∧
      5 ∈ t.leaves.map (·.key) ∧ IndexedMerkleTree.deserialize t.pack = .ok t ∧
      Avoids .panic (t.index 5) := by
  obtain ⟨sparse, -, -, -, -, indexed⟩ := decoded_trees_reachable (D := Free.Digest)
    (V := IndexedMerkleLeaf U256) (K := U256)
  constructor
  · obtain ⟨avoids, built⟩ := sparse ⟨2, [(3, .sentinel)]⟩ (by decide)
    have decodes := avoids.mpr (by decide)
    cases done : (SparseMerkleTree.deserialize ⟨2, [(3, .sentinel)]⟩ :
        Except DecodeError (SparseMerkleTree Free.Digest (IndexedMerkleLeaf U256))) with
    | error e =>
      obtain ⟨-, rfl⟩ := getOrRevert_error_iff.mp done
      exact absurd done decodes
    | ok t => exact ⟨t, rfl, (built t done).1⟩
  · obtain ⟨first, built, start⟩ :=
      IndexedMerkleTree.exists_first (D := Free.Digest) (K := U256) 2 (by decide) 0
    obtain ⟨t, built', all⟩ := IndexedMerkleTree.Built.exists_insertAll
      (by decide) built [(5, 0)] (by rw [start]; decide) (by rw [start]; decide)
    have run := indexed 2 t (by decide) built'
    refine ⟨t, built', ?_, run.1, (run.2.2.2 5 0).1⟩
    rw [← IndexedMerkleTree.keys_eq, all, start]
    decide

/-- Two leaves with one key behind the sentinel. -/
def repeatedKey : IncrementalMerkleTreePacked (IndexedMerkleLeaf U256) :=
  let leaf := { nextIndex := 0, key := 5, nextKey := 0, value := 0 }
  { height := 2, leaves := [.sentinel, leaf, leaf] }

/-- An index outside the height aborts, a key that is there twice passes and panics when it is
    looked for, and a tree that `new` makes is not read back. -/
theorem decoded_trees_unchecked :
    (SparseMerkleTree.deserialize ⟨0, [(1, .sentinel)]⟩ :
      Except DecodeError (SparseMerkleTree Free.Digest (IndexedMerkleLeaf U256))) =
        .error .abort ∧
    (∃ t : IndexedMerkleTree Free.Digest U256,
      IndexedMerkleTree.deserialize repeatedKey = .ok t ∧
      ¬ IndexedMerkleTree.Built 2 t ∧ t.index 5 = .error .panic) ∧
    (IncrementalMerkleTree.deserialize (IncrementalMerkleTree.new (D := Free.Digest)
      (IndexedMerkleLeaf U256) 64).pack : Except DecodeError (IndexedMerkleTree Free.Digest U256)) =
        .error (.heightNotAddressable 64) := by
  refine ⟨?_, ?_, by rfl⟩
  · have outside : ¬ ∀ update ∈ [((1 : BitVec 64), (.sentinel : IndexedMerkleLeaf U256))],
        indexInDomain update.1 0 = true := by
      decide
    exact not_not.mp fun avoids => outside
      ((SparseMerkleTree.deserialize_avoids_abort_iff (D := Free.Digest) _).mp avoids)
  · obtain ⟨t, decoded⟩ := IncrementalMerkleTree.exists_deserialize (D := Free.Digest)
      repeatedKey (by decide) (by decide)
    obtain ⟨-, -, -, twice⟩ := IncrementalMerkleTree.deserialize_ok_iff.mp decoded
    have looked : IndexedMerkleTree.index t 5 = .error .panic := by
      unfold IndexedMerkleTree.index
      rw [twice]
      rfl
    refine ⟨t, IndexedMerkleTree.deserialize_ok_iff.mpr ⟨decoded, by rw [twice]; rfl⟩, ?_,
      looked⟩
    intro built
    exact built.spec.2.2.index_avoids_panic 5 looked

end

end Intmax.Trees
