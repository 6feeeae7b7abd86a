import Mathlib.Data.List.Basic

/-! # Sequence numbers per owner

Entries are appended to one log and dropped from its end; each has an owner and a
number.  `Counts` says that the entries of one owner, oldest first, are numbered
from one up without gap.  An append that numbers its entry next keeps it, a drop
keeps it with one number less, and everything else here follows by walking the log.
-/

namespace Numbering

open List

variable {A : Type} [DecidableEq A]

/-- The entries below `n` that `p` owns, oldest first. -/
def owned (owner : Nat → A) (p : A) (n : Nat) : List Nat :=
  (List.range n).filter (fun id => decide (owner id = p))

/-- The numbers of the entries below `n` that `p` owns, oldest first. -/
def numbers (owner : Nat → A) (index : Nat → Nat) (p : A) (n : Nat) : List Nat :=
  (owned owner p n).map index

/-- The entries of `p` below `n` carry the numbers `1, …, m` in order. -/
def Counts (owner : Nat → A) (index : Nat → Nat) (p : A) (n m : Nat) : Prop :=
  numbers owner index p n = List.range' 1 m

variable {owner owner' : Nat → A} {index index' : Nat → Nat} {p : A} {n m : Nat}

theorem owned_succ_self (own : owner n = p) : owned owner p (n + 1) = owned owner p n ++ [n] := by
  simp [owned, range_succ, own]

theorem owned_succ_other (other : owner n ≠ p) : owned owner p (n + 1) = owned owner p n := by
  simp [owned, range_succ, other]

theorem Counts.push (counts : Counts owner index p n m) (own : owner n = p)
    (next : index n = m + 1) : Counts owner index p (n + 1) (m + 1) := by
  unfold Counts numbers at counts ⊢
  rw [owned_succ_self own, map_append, counts, range'_concat]
  simp [next, Nat.add_comm]

theorem Counts.skip (counts : Counts owner index p n m) (other : owner n ≠ p) :
    Counts owner index p (n + 1) m := by
  unfold Counts numbers at counts ⊢
  rw [owned_succ_other other]
  exact counts

/-- Dropping an entry of `p` drops the highest number. -/
theorem Counts.pop (counts : Counts owner index p (n + 1) m) (own : owner n = p) :
    1 ≤ m ∧ index n = m ∧ Counts owner index p n (m - 1) := by
  unfold Counts numbers at counts ⊢
  rw [owned_succ_self own, map_append] at counts
  cases m with
  | zero => simp at counts
  | succ m =>
    rw [range'_concat] at counts
    obtain ⟨earlier, last⟩ := append_inj' counts rfl
    refine ⟨by omega, ?_, earlier⟩
    simp at last
    omega

theorem Counts.unskip (counts : Counts owner index p (n + 1) m) (other : owner n ≠ p) :
    Counts owner index p n m := by
  unfold Counts numbers at counts ⊢
  rw [owned_succ_other other] at counts
  exact counts

theorem Counts.congr (counts : Counts owner index p n m)
    (owners : ∀ id, id < n → owner' id = owner id)
    (indices : ∀ id, id < n → index' id = index id) : Counts owner' index' p n m := by
  induction n generalizing m with
  | zero => exact counts
  | succ n ih =>
    have same := owners n (Nat.lt_succ_self n)
    have below (id : Nat) (earlier : id < n) : id < n + 1 := Nat.lt_succ_of_lt earlier
    by_cases own : owner n = p
    · obtain ⟨positive, last, rest⟩ := counts.pop own
      have kept := (ih rest (fun id h => owners id (below id h)) (fun id h => indices id (below id
        h))).push (same.trans own) (by rw [indices n (Nat.lt_succ_self n)]; omega)
      rwa [Nat.sub_add_cancel positive] at kept
    · have kept := ih (counts.unskip own) (fun id h => owners id (below id h))
        (fun id h => indices id (below id h))
      exact kept.skip (fun own' => own (same.symm.trans own'))

theorem Counts.bounds (counts : Counts owner index p n m) {id : Nat} (below : id < n)
    (own : owner id = p) : 1 ≤ index id ∧ index id ≤ m := by
  induction n generalizing m with
  | zero => omega
  | succ n ih =>
    by_cases last : id = n
    · subst last
      obtain ⟨positive, number, -⟩ := counts.pop own
      omega
    · by_cases ownLast : owner n = p
      · have earlier := ih (counts.pop ownLast).2.2 (by omega)
        omega
      · exact ih (counts.unskip ownLast) (by omega)

/-- Later entries of one owner have higher numbers. -/
theorem Counts.lt_of_lt (counts : Counts owner index p n m) {id id' : Nat} (before : id < id')
    (below : id' < n) (own : owner id = p) (own' : owner id' = p) : index id < index id' := by
  induction n generalizing m with
  | zero => omega
  | succ n ih =>
    by_cases last : id' = n
    · subst last
      obtain ⟨positive, number, rest⟩ := counts.pop own'
      have earlier := rest.bounds before own
      omega
    · by_cases ownLast : owner n = p
      · exact ih (counts.pop ownLast).2.2 (by omega)
      · exact ih (counts.unskip ownLast) (by omega)

/-- Entries of one owner numbered above `r` are at most `m - r`. -/
theorem Counts.countP_le (counts : Counts owner index p n m) {r : Nat} {P : Nat → Bool}
    (above : ∀ id, id < n → owner id = p → P id = true → r < index id) :
    (owned owner p n).countP P ≤ m - r := by
  induction n generalizing m with
  | zero => simp [owned]
  | succ n ih =>
    have earlier (id : Nat) (below : id < n) : owner id = p → P id = true → r < index id :=
      above id (Nat.lt_succ_of_lt below)
    by_cases own : owner n = p
    · obtain ⟨positive, number, rest⟩ := counts.pop own
      have bound := ih rest earlier
      rw [owned_succ_self own, countP_append]
      by_cases passes : P n = true
      · have last := above n (Nat.lt_succ_self n) own passes
        simp [passes]
        omega
      · simp [passes]
        omega
    · rw [owned_succ_other own]
      exact ih (counts.unskip own) earlier

end Numbering
