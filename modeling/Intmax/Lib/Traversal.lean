import Mathlib.Data.List.Basic

/-! # Traversals that can fail

A traversal with an optional function has a result exactly if every answer is there.
-/

variable {α β : Type} {f g : α → Option β} {a : α} {l l' : List α} {y : β} {ys : List β}

theorem mapM_option_eq_some_iff : l.mapM f = some ys ↔ l.map f = ys.map some := by
  induction l generalizing ys with
  | nil => cases ys <;> simp
  | cons a rest ih =>
    cases ys with
    | nil => simp [Option.bind_eq_some_iff]
    | cons y ys => simp [ih, Option.bind_eq_some_iff]

theorem mapM_option_length (found : l.mapM f = some ys) : ys.length = l.length := by
  simpa using (congrArg List.length (mapM_option_eq_some_iff.mp found)).symm

theorem mapM_option_some (all : ∀ a ∈ l, (f a).isSome = true) :
    ∃ ys, l.mapM f = some ys ∧ ys.length = l.length := by
  induction l with
  | nil => exact ⟨[], rfl, rfl⟩
  | cons a rest ih =>
    obtain ⟨here, there⟩ := List.forall_mem_cons.mp all
    obtain ⟨y, found⟩ := Option.isSome_iff_exists.mp here
    obtain ⟨ys, others, length⟩ := ih there
    refine ⟨y :: ys, ?_, by simp [length]⟩
    simp [List.mapM_cons, found, others]

theorem mapM_option_mem (found : l.mapM f = some ys) (member : y ∈ ys) : ∃ a ∈ l,
    f a = some y := by
  have inside : some y ∈ ys.map some := List.mem_map_of_mem member
  rw [← mapM_option_eq_some_iff.mp found] at inside
  exact List.mem_map.mp inside

/-- Equal results of one traversal come from equal answers. -/
theorem mapM_option_inj (found : l.mapM f = some ys) (found' : l.mapM g = some ys) (a : α)
    (member : a ∈ l) : ∃ y, f a = some y ∧ g a = some y := by
  have answers := mapM_option_eq_some_iff.mp found
  have same : l.map f = l.map g := answers.trans (mapM_option_eq_some_iff.mp found').symm
  have inside : f a ∈ l.map f := List.mem_map_of_mem member
  rw [answers] at inside
  obtain ⟨y, -, here⟩ := List.mem_map.mp inside
  exact ⟨y, here.symm, (List.map_inj_left.mp same a member).symm.trans here.symm⟩

/-- A traversal with an injective function is injective. -/
theorem mapM_option_injective (injective : ∀ {a a' b}, f a = some b → f a' = some b → a = a')
    (found : l.mapM f = some ys) (found' : l'.mapM f = some ys) : l = l' := by
  rw [mapM_option_eq_some_iff] at found found'
  induction ys generalizing l l' with
  | nil => rw [List.map_eq_nil_iff.mp found, List.map_eq_nil_iff.mp found']
  | cons y ys ih =>
    obtain ⟨a, rest, rfl, here, there⟩ := List.map_eq_cons_iff.mp found
    obtain ⟨a', rest', rfl, here', there'⟩ := List.map_eq_cons_iff.mp found'
    rw [injective here here', ih there there']
