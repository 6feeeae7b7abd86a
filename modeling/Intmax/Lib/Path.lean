import Mathlib.Data.List.Basic
import Mathlib.Order.Basic

/-! # Runs of a labelled transition system

`Path step s ls t` says that the moves labelled `ls`, in this order, lead from
`s` to `t`.  Labels carry what an outside observer of the run knows, so a ghost
history of the run is a function of `ls` alone; the rules below are the two
shapes every result about whole runs takes: an invariant of single moves, and an
invariant that may also speak about the labels seen so far.
-/

namespace Transition

open List

variable {S L : Type}

/-- A finite run: the labels of its moves, oldest first, and its two ends. -/
inductive Path (step : S → L → S → Prop) (s : S) : List L → S → Prop
  | nil : Path step s [] s
  | snoc {t u : S} {ls : List L} {l : L} :
      Path step s ls t → step t l u → Path step s (ls ++ [l]) u

/-- `t` is reached from `s` by some run. -/
def Reachable (step : S → L → S → Prop) (s t : S) : Prop := ∃ ls, Path step s ls t

variable {step : S → L → S → Prop}

theorem Path.single {s t : S} {l : L} (h : step s l t) : Path step s [l] t :=
  .snoc .nil h

theorem Path.trans {s t u : S} {ks ls : List L}
    (first : Path step s ks t) (second : Path step t ls u) : Path step s (ks ++ ls) u := by
  induction second with
  | nil => simpa using first
  | snoc _ last ih =>
    rw [← append_assoc]
    exact .snoc ih last

theorem Path.cons {s t u : S} {l : L} {ls : List L}
    (first : step s l t) (rest : Path step t ls u) : Path step s (l :: ls) u :=
  (Path.single first).trans rest

/-- Along a run, what holds at the start and is kept by every move holds at the end. -/
theorem Path.invariant {I : S → Prop} (keep : ∀ s l t, I s → step s l t → I t)
    {s t : S} {ls : List L} (run : Path step s ls t) (start : I s) : I t := by
  induction run with
  | nil => exact start
  | snoc _ last ih => exact keep _ _ _ ih last

/-- The same rule for an invariant over the state and the labels seen so far. -/
theorem Path.history {I : List L → S → Prop} {s : S} (start : I [] s)
    (keep : ∀ ls t l u, Path step s ls t → I ls t → step t l u → I (ls ++ [l]) u)
    {t : S} {ls : List L} (run : Path step s ls t) : I ls t := by
  induction run with
  | nil => exact start
  | snoc before last ih => exact keep _ _ _ _ before ih last

/-- A run seen through a map that turns moves into moves. -/
theorem Path.map {T : Type} {step' : T → L → T → Prop} {f : S → T}
    (moves : ∀ s l t, step s l t → step' (f s) l (f t)) {s t : S} {ls : List L}
    (run : Path step s ls t) : Path step' (f s) ls (f t) := by
  induction run with
  | nil => exact .nil
  | snoc _ last ih => exact ih.snoc (moves _ _ _ last)

/-- A run can be cut where its labels are cut. -/
theorem Path.split {s u : S} {ks ls : List L} (run : Path step s (ks ++ ls) u) :
    ∃ t, Path step s ks t ∧ Path step t ls u := by
  generalize joined : ks ++ ls = all at run
  induction run generalizing ls with
  | nil =>
    obtain ⟨rfl, rfl⟩ := append_eq_nil_iff.mp joined
    exact ⟨_, .nil, .nil⟩
  | @snoc t' _ before l earlier last ih =>
    rcases eq_nil_or_concat ls with rfl | ⟨rest, l', rfl⟩
    · rw [append_nil] at joined
      subst joined
      exact ⟨_, .snoc earlier last, .nil⟩
    · rw [concat_eq_append, ← append_assoc] at joined
      obtain ⟨cut, same⟩ := append_inj' joined rfl
      cases same
      obtain ⟨t, first, second⟩ := ih cut
      exact ⟨t, first, by simpa using second.snoc last⟩

theorem Path.nil_inv {s t : S} (run : Path step s [] t) : s = t := by
  generalize empty : [] = ls at run
  cases run with
  | nil => rfl
  | snoc => simp at empty

theorem Path.snoc_inv {s u : S} {l : L} {ls : List L} (run : Path step s (ls ++ [l]) u) :
    ∃ t, Path step s ls t ∧ step t l u := by
  generalize joined : ls ++ [l] = all at run
  cases run with
  | nil => simp at joined
  | snoc earlier last =>
    obtain ⟨rfl, same⟩ := append_inj' joined rfl
    cases same
    exact ⟨_, earlier, last⟩

theorem Path.cons_inv {s u : S} {l : L} {ls : List L} (run : Path step s (l :: ls) u) :
    ∃ t, step s l t ∧ Path step t ls u := by
  obtain ⟨t, first, rest⟩ := Path.split (show Path step s ([l] ++ ls) u from run)
  obtain ⟨s', start, move⟩ := Path.snoc_inv (show Path step s ([] ++ [l]) t from first)
  cases start.nil_inv
  exact ⟨t, move, rest⟩

theorem Reachable.invariant {I : S → Prop} (keep : ∀ s l t, I s → step s l t → I t)
    {s t : S} (h : Reachable step s t) (start : I s) : I t := by
  obtain ⟨_, run⟩ := h
  exact run.invariant keep start

/-! ## Runs that evaluate -/

section
variable {C : Type} {run : C → S → Option (L × S)}

/-- Execute commands one after another, collecting the labels of their moves. -/
def runAll (run : C → S → Option (L × S)) : List C → S → Option (List L × S)
  | [], s => some ([], s)
  | c :: rest, s => do
    let (l, s) ← run c s
    let (ls, s) ← runAll run rest s
    some (l :: ls, s)

theorem runAll_path (moves : ∀ c s l t, run c s = some (l, t) → step s l t)
    {cs : List C} {s t : S}
    {ls : List L} (h : runAll run cs s = some (ls, t)) : Path step s ls t := by
  induction cs generalizing s ls with
  | nil =>
    cases h
    exact .nil
  | cons c cs ih =>
    obtain ⟨⟨l, s₁⟩, first, h⟩ := Option.bind_eq_some_iff.mp h
    obtain ⟨⟨rest, s₂⟩, later, same⟩ := Option.bind_eq_some_iff.mp h
    cases same
    exact .cons (moves _ _ _ _ first) (ih later)

/-- The commands run, and what they leave passes `check`. -/
theorem runAll_any (moves : ∀ c s l t, run c s = some (l, t) → step s l t) {cs : List C} {s : S}
    {check : List L × S → Bool} (h : (runAll run cs s).any check = true) :
    ∃ ls t, Path step s ls t ∧ check (ls, t) = true := by
  obtain ⟨⟨ls, t⟩, ran, checked⟩ := Option.any_eq_true _ _ |>.mp h
  exact ⟨ls, t, runAll_path moves ran, checked⟩

end

end Transition
