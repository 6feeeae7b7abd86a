import Mathlib.Data.List.Basic
import Mathlib.Tactic.Ring

/-! # Binary Merkle trees

A tree of height `h` over the digests `f 0, f 1, …`, and the climb of a digest along the
path of its index with siblings from anywhere.  When `node` is injective on the pairs that are
hashed, a climb of the right length that ends at the root starts at the tree's own digest, and
with another digest it ends at the root of the updated tree.  When in addition no leaf digest is a
node, every climb that reaches the root has the right length.
-/

namespace Intmax.Merkle

open Function List Nat

variable {D : Type} (node : D → D → D)

/-- The root over the first `2 ^ h` digests. -/
def root : Nat → (Nat → D) → D
  | 0, f => f 0
  | h + 1, f => node (root h f) (root h fun i => f (2 ^ h + i))

/-- The root over the `v`-th block of `2 ^ n` digests. -/
def block (f : Nat → D) (n v : Nat) : D := root node n fun i => f (v * 2 ^ n + i)

/-- The digest above `x` at index `i`, with the siblings from the leaf upwards. -/
def climb : List D → Nat → D → D
  | [], _, x => x
  | s :: siblings, i, x => climb siblings (i / 2) (if i % 2 = 1 then node s x else node x s)

/-- The pairs that are hashed on the way to a root. -/
def pairs : Nat → (Nat → D) → Set (D × D)
  | 0, _ => ∅
  | h + 1, f =>
    insert (root node h f, root node h fun i => f (2 ^ h + i))
      (pairs h f ∪ pairs h fun i => f (2 ^ h + i))

/-- The pairs that are hashed on a climb. -/
def climbPairs : List D → Nat → D → Set (D × D)
  | [], _, _ => ∅
  | s :: siblings, i, x =>
    insert (if i % 2 = 1 then (s, x) else (x, s))
      (climbPairs siblings (i / 2) (if i % 2 = 1 then node s x else node x s))

/-- Pairs of the set have different nodes. -/
abbrev InjectiveOn (S : Set (D × D)) : Prop := Set.InjOn (fun p : D × D => node p.1 p.2) S

variable {node} {h i : Nat} {f g : Nat → D} {siblings : List D} {x : D} {S : Set (D × D)}

theorem injectiveOn_of_injective2 (inj : Injective2 node) : InjectiveOn node S := by
  rintro ⟨a, b⟩ - ⟨c, d⟩ - same
  obtain ⟨rfl, rfl⟩ := inj same
  rfl

/-! ## Roots -/

/-- A root reads the digests of its tree only. -/
theorem root_congr (same : ∀ i < 2 ^ h, f i = g i) : root node h f = root node h g := by
  induction h generalizing f g with
  | zero => exact same 0 one_pos
  | succ h ih =>
    have left : ∀ i < 2 ^ h, f i = g i := fun i below => same i (by omega)
    have right : ∀ i < 2 ^ h, f (2 ^ h + i) = g (2 ^ h + i) := fun i below => same _ (by omega)
    simp only [root, ih left, ih right]

theorem root_injectiveOn (inj : InjectiveOn node S) (left : pairs node h f ⊆ S)
    (right : pairs node h g ⊆ S) (same : root node h f = root node h g) :
    ∀ i < 2 ^ h, f i = g i := by
  induction h generalizing f g with
  | zero =>
    intro i below
    have zero : i = 0 := by omega
    rw [zero]
    exact same
  | succ h ih =>
    intro i below
    rw [pairs, Set.insert_subset_iff, Set.union_subset_iff] at left right
    obtain ⟨lower, upper⟩ := Prod.mk.inj (inj left.1 right.1 same)
    by_cases low : i < 2 ^ h
    · exact ih left.2.1 right.2.1 lower i low
    · have shifted := ih left.2.2 right.2.2 upper (i - 2 ^ h) (by omega)
      rwa [Nat.add_sub_cancel' (le_of_not_gt low)] at shifted

theorem root_injective (inj : Injective2 node) (same : root node h f = root node h g) :
    ∀ i < 2 ^ h, f i = g i :=
  root_injectiveOn (injectiveOn_of_injective2 inj) (Set.subset_univ _) (Set.subset_univ _) same

/-- A tree of one digest hashes each of its roots with itself. -/
theorem pairs_const (d : D) :
    pairs node h (fun _ => d) ⊆ { p | ∃ k < h,
      p = (root node k fun _ => d, root node k fun _ => d) } := by
  induction h with
  | zero => exact Set.empty_subset _
  | succ h ih =>
    rw [pairs, Set.union_self]
    rintro p (rfl | hashed)
    · exact ⟨h, lt_add_one h, rfl⟩
    · obtain ⟨k, below, rfl⟩ := ih hashed
      exact ⟨k, lt_succ_of_lt below, rfl⟩

/-- When only the first digest is not padding, the upper half is padding. -/
theorem upper_padded {d : D} (padded : ∀ i, f (i + 1) = d) (h : Nat) :
    (fun i => f (2 ^ h + i)) = fun _ => d := by
  funext i
  have positive := Nat.two_pow_pos h
  rw [show 2 ^ h + i = 2 ^ h - 1 + i + 1 by omega, padded]

theorem pairs_padded {d : D} (padded : ∀ i, f (i + 1) = d) :
    pairs node h f ⊆ { p | ∃ k < h, p = (root node k f, root node k fun _ => d) ∨
      p = (root node k fun _ => d, root node k fun _ => d) } := by
  induction h with
  | zero => exact Set.empty_subset _
  | succ h ih =>
    rw [pairs, upper_padded padded]
    rintro p (rfl | hashed | hashed)
    · exact ⟨h, lt_add_one h, .inl rfl⟩
    · obtain ⟨k, below, either⟩ := ih hashed
      exact ⟨k, lt_succ_of_lt below, either⟩
    · obtain ⟨k, below, rfl⟩ := pairs_const d hashed
      exact ⟨k, lt_succ_of_lt below, .inr rfl⟩

/-- An update in the left half leaves the right half alone. -/
theorem root_update_left (below : i < 2 ^ h) (y : D) :
    root node (h + 1) (update f i y) =
      node (root node h (update f i y)) (root node h fun j => f (2 ^ h + j)) := by
  rw [root]
  congr 1
  refine root_congr fun j _ => update_of_ne ?_ _ _
  omega

/-- An update in the right half leaves the left half alone. -/
theorem root_update_right (y : D) :
    root node (h + 1) (update f (2 ^ h + i) y) =
      node (root node h f) (root node h (update (fun j => f (2 ^ h + j)) i y)) := by
  rw [root]
  congr 1
  · refine root_congr fun j below => update_of_ne ?_ _ _
    omega
  · refine root_congr fun j _ => ?_
    by_cases here : j = i
    · rw [here, update_self, update_self]
    · rw [update_of_ne here, update_of_ne (by omega)]

/-! ## Blocks -/

theorem block_zero (v : Nat) : block node f 0 v = f v := by simp [block, root]

theorem block_top : block node f h 0 = root node h f := by simp [block]

/-- A block is made of two of half its size. -/
theorem block_succ (n v : Nat) :
    block node f (n + 1) v = node (block node f n (2 * v)) (block node f n (2 * v + 1)) := by
  have left : v * 2 ^ (n + 1) = 2 * v * 2 ^ n := by rw [pow_succ]; ring
  have right : 2 * v * 2 ^ n + 2 ^ n = (2 * v + 1) * 2 ^ n := by ring
  unfold block
  rw [root]
  simp only [← add_assoc, left, right]

/-- An update outside a block leaves its root alone. -/
theorem block_update_of_ne {n v : Nat} (outside : i / 2 ^ n ≠ v) (y : D) :
    block node (update f i y) n v = block node f n v := by
  refine root_congr fun j below => update_of_ne ?_ _ _
  intro same
  apply outside
  rw [← same, mul_comm, Nat.mul_add_div (Nat.two_pow_pos n), Nat.div_eq_of_lt below, add_zero]

/-! ## Climbs -/

/-- The last sibling of a climb is the top one. -/
theorem climb_concat (s : D) :
    climb node (siblings ++ [s]) i x =
      if i / 2 ^ siblings.length % 2 = 1 then node s (climb node siblings i x)
      else node (climb node siblings i x) s := by
  induction siblings generalizing i x with
  | nil => simp [climb]
  | cons t rest ih =>
    rw [cons_append, climb, ih, climb, length_cons, pow_succ', Nat.div_div_eq_div_mul]

theorem climbPairs_concat (s : D) :
    climbPairs node (siblings ++ [s]) i x =
      insert (if i / 2 ^ siblings.length % 2 = 1 then (s, climb node siblings i x)
        else (climb node siblings i x, s)) (climbPairs node siblings i x) := by
  induction siblings generalizing i x with
  | nil => simp [climb, climbPairs]
  | cons t rest ih =>
    rw [cons_append, climbPairs, ih, climb, climbPairs, length_cons, pow_succ',
      Nat.div_div_eq_div_mul, Set.insert_comm]

/-- The upper half of the tree holds the index when its top bit is set. -/
theorem mod_two_pow_succ (i h : Nat) :
    i % 2 ^ (h + 1) = if i / 2 ^ h % 2 = 1 then 2 ^ h + i % 2 ^ h else i % 2 ^ h := by
  rw [pow_succ, mod_mul]
  split
  case isTrue right => rw [right]; omega
  case isFalse left => rw [show i / 2 ^ h % 2 = 0 by omega]; omega

/-- Every index has siblings that lead to the root, whatever digest is put there.  With the tree's
    own digest, the climb hashes pairs of the tree. -/
theorem exists_climb_within (node : D → D → D) (h i : Nat) (f : Nat → D) :
    ∃ siblings, siblings.length = h ∧
      (∀ y, climb node siblings i y = root node h (update f (i % 2 ^ h) y)) ∧
      climbPairs node siblings i (f (i % 2 ^ h)) ⊆ pairs node h f := by
  induction h generalizing f with
  | zero => exact ⟨[], rfl, fun y => by simp [climb, root, mod_one], by simp [climbPairs]⟩
  | succ h ih =>
    have own (half : Nat → D) (position : Nat) :
        root node h (update half position (half position)) = root node h half := by
      rw [update_eq_self]
    by_cases right : i / 2 ^ h % 2 = 1
    · obtain ⟨siblings, length, climbs, within⟩ := ih fun j => f (2 ^ h + j)
      refine ⟨siblings ++ [root node h f], by simp [length], fun y => ?_, ?_⟩
      · rw [climb_concat, length, if_pos right, climbs, mod_two_pow_succ, if_pos right,
          root_update_right]
      · rw [mod_two_pow_succ, if_pos right, climbPairs_concat, length, if_pos right, climbs,
          own fun j => f (2 ^ h + j), pairs]
        exact Set.insert_subset_insert (within.trans Set.subset_union_right)
    · obtain ⟨siblings, length, climbs, within⟩ := ih f
      refine ⟨siblings ++ [root node h fun j => f (2 ^ h + j)], by simp [length],
        fun y => ?_, ?_⟩
      · rw [climb_concat, length, if_neg right, climbs, mod_two_pow_succ, if_neg right,
          root_update_left (Nat.mod_lt _ (Nat.two_pow_pos h))]
      · rw [mod_two_pow_succ, if_neg right, climbPairs_concat, length, if_neg right, climbs, own f,
          pairs]
        exact Set.insert_subset_insert (within.trans Set.subset_union_left)

theorem exists_climb (node : D → D → D) (h i : Nat) (f : Nat → D) :
    ∃ siblings, siblings.length = h ∧
      ∀ y, climb node siblings i y = root node h (update f (i % 2 ^ h) y) := by
  obtain ⟨siblings, length, climbs, -⟩ := exists_climb_within node h i f
  exact ⟨siblings, length, climbs⟩

/-- A climb of the tree's height that ends at its root starts at the tree's own digest, and
    ends at the root of the updated tree when it starts at another one. -/
theorem climb_eq_root_on (inj : InjectiveOn node S) (tree : pairs node h f ⊆ S)
    (path : climbPairs node siblings i x ⊆ S) (length : siblings.length = h)
    (reached : climb node siblings i x = root node h f) :
    f (i % 2 ^ h) = x ∧
    ∀ y, climb node siblings i y = root node h (update f (i % 2 ^ h) y) := by
  induction h generalizing f siblings with
  | zero =>
    rw [length_eq_zero_iff] at length
    subst length
    simp only [climb, root] at reached
    simp [climb, root, reached, mod_one]
  | succ h ih =>
    -- peel the top level off both sides
    obtain ⟨lower, s, rfl⟩ : ∃ lower s, siblings = lower ++ [s] :=
      (eq_nil_or_concat' siblings).resolve_left fun empty => by simp [empty] at length
    have shorter : lower.length = h := by simpa using length
    rw [climb_concat, shorter, root] at reached
    rw [climbPairs_concat, shorter, Set.insert_subset_iff] at path
    rw [pairs, Set.insert_subset_iff, Set.union_subset_iff] at tree
    by_cases right : i / 2 ^ h % 2 = 1
    · rw [if_pos right] at reached path
      obtain ⟨rfl, lower_reached⟩ := Prod.mk.inj (inj path.1 tree.1 reached)
      obtain ⟨leaf, climbs⟩ := ih tree.2.2 path.2 shorter lower_reached
      have position : i % 2 ^ (h + 1) = 2 ^ h + i % 2 ^ h := by
        rw [mod_two_pow_succ, if_pos right]
      refine ⟨by rw [position]; exact leaf, fun y => ?_⟩
      rw [climb_concat, shorter, if_pos right, climbs, position, root_update_right]
    · rw [if_neg right] at reached path
      obtain ⟨lower_reached, rfl⟩ := Prod.mk.inj (inj path.1 tree.1 reached)
      obtain ⟨leaf, climbs⟩ := ih tree.2.1 path.2 shorter lower_reached
      have position : i % 2 ^ (h + 1) = i % 2 ^ h := by
        rw [mod_two_pow_succ, if_neg right]
      refine ⟨by rw [position]; exact leaf, fun y => ?_⟩
      rw [climb_concat, shorter, if_neg right, climbs, position,
        root_update_left (Nat.mod_lt _ (Nat.two_pow_pos h))]

theorem climb_eq_root (inj : Injective2 node) (length : siblings.length = h)
    (reached : climb node siblings i x = root node h f) :
    f (i % 2 ^ h) = x ∧
    ∀ y, climb node siblings i y = root node h (update f (i % 2 ^ h) y) :=
  climb_eq_root_on (injectiveOn_of_injective2 inj) (Set.subset_univ _) (Set.subset_univ _) length
    reached

/-- A leaf digest is not a node. -/
def Apart (node : D → D → D) (x : D) : Prop := ∀ a b, x ≠ node a b

/-- Without collisions between leaves and nodes every climb to the root has its height. -/
theorem length_of_climb (inj : Injective2 node) (leaf : Apart node x)
    (leaves : ∀ i < 2 ^ h, Apart node (f i)) (reached : climb node siblings i x = root node h f) :
    siblings.length = h := by
  induction h generalizing f siblings with
  | zero =>
    rcases eq_nil_or_concat' siblings with rfl | ⟨lower, s, rfl⟩
    · rfl
    · rw [climb_concat, root] at reached
      split at reached
      · exact absurd reached.symm (leaves 0 one_pos _ _)
      · exact absurd reached.symm (leaves 0 one_pos _ _)
  | succ h ih =>
    rcases eq_nil_or_concat' siblings with rfl | ⟨lower, s, rfl⟩
    · exact absurd reached (leaf _ _)
    · rw [climb_concat, root] at reached
      rw [length_append, length_singleton]
      congr 1
      split at reached
      · exact ih (fun i below => leaves _ (by omega)) (inj reached).2
      · exact ih (fun i below => leaves i (by omega)) (inj reached).1

/-! ## Folding in place -/

/-- The root of a tree is the root over the nodes of its lowest level. -/
theorem root_succ_pairs (node : D → D → D) (h : Nat) (f : Nat → D) :
    root node (h + 1) f = root node h fun i => node (f (2 * i)) (f (2 * i + 1)) := by
  induction h generalizing f with
  | zero => simp [root]
  | succ h ih =>
    have double (i : Nat) : 2 ^ (h + 1) + 2 * i = 2 * (2 ^ h + i) := by rw [pow_succ']; ring
    have next (i : Nat) : 2 ^ (h + 1) + (2 * i + 1) = 2 * (2 ^ h + i) + 1 := by
      rw [pow_succ']
      ring
    rw [root, ih, ih, root]
    simp only [double, next]

/-- One level: the nodes of the pairs below `width`, written over the lower half of the array. -/
def foldLevel (node : D → D → D) (width : Nat) (nodes : Nat → D) : Nat → D :=
  (List.range ((width + 1) / 2)).foldl
    (fun nodes k => Function.update nodes k (node (nodes (2 * k)) (nodes (2 * k + 1)))) nodes

/-- All levels of a tree over the first `width` digests of an array, in place. -/
def foldInPlace (node : D → D → D) (width : Nat) (nodes : Nat → D) : Nat → D :=
  if 1 < width then foldInPlace node (width / 2) (foldLevel node width nodes) else nodes
termination_by width

/-- A pair is read before anything is written over it. -/
theorem foldl_update_pairs (nodes : Nat → D) (m i : Nat) :
    (range m).foldl
      (fun nodes k => update nodes k (node (nodes (2 * k)) (nodes (2 * k + 1)))) nodes i =
      if i < m then node (nodes (2 * i)) (nodes (2 * i + 1)) else nodes i := by
  induction m generalizing i with
  | zero => simp
  | succ m ih =>
    rw [range_succ, foldl_append, foldl_cons, foldl_nil, update_apply,
      ih, ih, ih, if_neg (show ¬2 * m < m by omega), if_neg (show ¬2 * m + 1 < m by omega)]
    split
    case isTrue here => rw [here, if_pos (lt_add_one m)]
    case isFalse elsewhere =>
      have order : i < m + 1 ↔ i < m := by omega
      simp only [order]

theorem foldInPlace_eq_root (node : D → D → D) (h : Nat) (nodes : Nat → D) :
    foldInPlace node (2 ^ h) nodes 0 = root node h nodes := by
  induction h generalizing nodes with
  | zero => simp [foldInPlace, root]
  | succ h ih =>
    have half : 2 ^ (h + 1) / 2 = 2 ^ h := by rw [pow_succ, Nat.mul_div_cancel _ two_pos]
    have rounded : (2 ^ (h + 1) + 1) / 2 = 2 ^ h := by rw [pow_succ]; omega
    rw [foldInPlace, if_pos (Nat.one_lt_two_pow (Nat.succ_ne_zero h)), half, ih, root_succ_pairs]
    refine root_congr fun i below => ?_
    rw [foldLevel, rounded, foldl_update_pairs, if_pos below]

end Intmax.Merkle
