import Mathlib.Data.Set.Function
import Mathlib.Data.List.Induction

/-! # Hash chains

A hash chain commits to a list by folding a link function over it from a seed.
`links` lists the pairs a fold actually hashed.  When the link function has no
collision on the pairs hashed and never returns the seed there, the head of the
chain determines the list: a chain cannot be extended, shortened or reordered
without moving its head.
-/

namespace HashChain

open List

variable {δ α : Type} (link : δ → α → δ) (seed : δ)

/-- The head of the chain over `xs`. -/
def head (xs : List α) : δ := xs.foldl link seed

/-- The pairs hashed while folding `xs`, oldest first. -/
def links : δ → List α → List (δ × α)
  | _, [] => []
  | d, a :: xs => (d, a) :: links (link d a) xs

@[simp] theorem head_snoc (xs : List α) (a : α) :
    head link seed (xs ++ [a]) = link (head link seed xs) a := by
  simp [head]

theorem links_snoc (d : δ) (xs : List α) (a : α) :
    links link d (xs ++ [a]) = links link d xs ++ [(head link d xs, a)] := by
  induction xs generalizing d with
  | nil => rfl
  | cons x xs ih => simp [links, ih, head]

theorem links_append (d : δ) (xs ys : List α) :
    links link d (xs ++ ys) = links link d xs ++ links link (head link d xs) ys := by
  induction xs generalizing d with
  | nil => rfl
  | cons x xs ih => simp [links, ih, head]

variable {xs : List α} {S : Set (δ × α)}

theorem mem_of_links {d : δ} {p : δ × α} (member : p ∈ links link d xs) : p.2 ∈ xs := by
  induction xs generalizing d with
  | nil => cases member
  | cons x xs ih =>
    rcases mem_cons.mp member with rfl | later
    · exact mem_cons_self
    · exact mem_cons_of_mem _ (ih later)

/-- The link function separates the pairs of `S` and keeps them off the seed. -/
structure CollisionFree (S : Set (δ × α)) : Prop where
  injOn : Set.InjOn (fun p => link p.1 p.2) S
  fresh : ∀ p ∈ S, link p.1 p.2 ≠ seed

variable {link seed}

/-- Chains with one head end alike: the lists agree, or one extends the other at its front by a
    chain that leads from the seed back to the seed. -/
theorem head_eq (inj : Set.InjOn (fun p => link p.1 p.2) S) {ys : List α}
    (hx : ∀ p ∈ links link seed xs, p ∈ S) (hy : ∀ p ∈ links link seed ys, p ∈ S)
    (same : head link seed xs = head link seed ys) :
    xs = ys ∨ ∃ loop, loop ≠ [] ∧ (xs = loop ++ ys ∨ ys = loop ++ xs) ∧
      head link seed loop = seed := by
  induction xs using reverseRecOn generalizing ys with
  | nil =>
    rcases eq_nil_or_concat ys with rfl | ⟨init, last, rfl⟩
    · exact .inl rfl
    · exact .inr ⟨init.concat last, by simp, .inr (by simp), same.symm⟩
  | append_singleton xs a ih =>
    rcases eq_nil_or_concat ys with rfl | ⟨init, last, rfl⟩
    · exact .inr ⟨xs ++ [a], by simp, .inl (by simp), same⟩
    · rw [concat_eq_append] at hy same ⊢
      rw [links_snoc] at hx hy
      rw [head_snoc, head_snoc] at same
      -- equal heads come from equal last links, and the rest follows below them
      have lastLink := inj (hx (head link seed xs, a) (by simp))
        (hy (head link seed init, last) (by simp)) same
      obtain ⟨heads, rfl⟩ := Prod.mk.inj lastLink
      rcases ih (fun p hp => hx p (by simp [hp])) (fun p hp => hy p (by simp [hp])) heads with
        rfl | ⟨loop, nonempty, longer | longer, closed⟩
      · exact .inl rfl
      · exact .inr ⟨loop, nonempty, .inl (by rw [longer, append_assoc]), closed⟩
      · exact .inr ⟨loop, nonempty, .inr (by rw [longer, append_assoc]), closed⟩

/-- No chain over links of `S` leads back to the seed. -/
theorem CollisionFree.head_ne_seed (free : CollisionFree link seed S) (nonempty : xs ≠ [])
    (hx : ∀ p ∈ links link seed xs, p ∈ S) : head link seed xs ≠ seed := by
  rcases eq_nil_or_concat xs with rfl | ⟨init, last, rfl⟩
  · exact absurd rfl nonempty
  · rw [concat_eq_append] at hx ⊢
    rw [links_snoc] at hx
    rw [head_snoc]
    exact free.fresh (head link seed init, last) (hx _ (by simp))

/-- The head of a chain determines the list folded into it. -/
theorem head_inj (free : CollisionFree link seed S) {ys : List α}
    (hx : ∀ p ∈ links link seed xs, p ∈ S) (hy : ∀ p ∈ links link seed ys, p ∈ S)
    (same : head link seed xs = head link seed ys) : xs = ys := by
  have front {loop rest : List α} (within : ∀ p ∈ links link seed (loop ++ rest), p ∈ S) :
      ∀ p ∈ links link seed loop, p ∈ S := by
    intro p member
    apply within
    rw [links_append]
    exact mem_append_left _ member
  rcases head_eq free.injOn hx hy same with lists | ⟨loop, nonempty, rfl | rfl, closed⟩
  · exact lists
  · exact absurd closed (free.head_ne_seed nonempty (front hx))
  · exact absurd closed (free.head_ne_seed nonempty (front hy))

/-- Two prefixes of one list with the same head have the same length. -/
theorem take_inj (free : CollisionFree link seed S) (hx : ∀ p ∈ links link seed xs, p ∈ S)
    {i j : Nat} (hi : i ≤ xs.length) (hj : j ≤ xs.length)
    (same : head link seed (xs.take i) = head link seed (xs.take j)) : i = j := by
  have within (k : Nat) : ∀ p ∈ links link seed (xs.take k), p ∈ S := by
    intro p member
    apply hx
    rw [← take_append_drop k xs, links_append]
    exact mem_append_left _ member
  have lists := head_inj free (within i) (within j) same
  have lengths := congrArg length lists
  simp at lengths
  omega

end HashChain
