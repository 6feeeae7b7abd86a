import Mathlib.Data.List.Chain
import Mathlib.Data.List.Nodup
import Mathlib.Order.BoundedOrder.Basic
import Mathlib.Order.Lattice

/-! # A sorted linked list in a map

Cells at arbitrary places, each with its key, the key after it and a link to the next cell.
`Linked` says that the places of `order`, in this order, are a list through the links that is
strictly sorted by key.  A key that falls into the gap after a cell is new, and putting it there
keeps the list.
-/

namespace SortedLinks

open List

variable {ι K L : Type} [LinearOrder K] [OrderBot K]

@[ext]
structure Cell (K L : Type) where
  key : K
  nextKey : K
  link : L

/-- The places of `order` form a list; the last cell has the bottom key and `stop` next. -/
structure Linked (name : ι → L) (stop : L) (cells : ι → Cell K L)
    (order : List ι) : Prop where
  links : order.IsChain fun i j => (cells i).link = name j ∧
    (cells i).nextKey = (cells j).key ∧ (cells i).key < (cells j).key
  last : ∀ i, order.getLast? = some i → (cells i).link = stop ∧ (cells i).nextKey = ⊥

variable {name : ι → L} {stop : L} {cells cells' : ι → Cell K L}
  {order before after : List ι}
  {low new : ι} {key : K}

theorem Linked.sorted (linked : Linked name stop cells order) :
    (order.map fun i => (cells i).key).Pairwise (· < ·) := by
  have increasing : order.IsChain fun i j => (cells i).key < (cells j).key :=
    linked.links.imp fun _ _ link => link.2.2
  exact pairwise_map.mpr increasing.pairwise

theorem Linked.nodup_keys (linked : Linked name stop cells order) :
    (order.map fun i => (cells i).key).Nodup :=
  linked.sorted.imp fun less => ne_of_lt less

theorem Linked.nodup (linked : Linked name stop cells order) : order.Nodup :=
  Nodup.of_map _ linked.nodup_keys

/-- The list is in the cells of its places only. -/
theorem Linked.congr (linked : Linked name stop cells order)
    (same : ∀ i ∈ order, cells' i = cells i) : Linked name stop cells' order := by
  constructor
  · refine linked.links.imp_of_mem_imp fun i j left right link => ?_
    rw [same i left, same j right]
    exact link
  · intro i last
    rw [same i (mem_of_mem_getLast? last)]
    exact linked.last i last

/-- The keys along a list leave nothing else in its cells open. -/
theorem Linked.cells_eq (linked : Linked name stop cells order)
    (linked' : Linked name stop cells' order)
    (keys : ∀ i ∈ order, (cells i).key = (cells' i).key) : ∀ i ∈ order,
      cells i = cells' i := by
  induction order with
  | nil =>
    intro i member
    cases member
  | cons first rest ih =>
    have key := keys first mem_cons_self
    cases rest with
    | nil =>
      intro i member
      obtain rfl := mem_singleton.mp member
      obtain ⟨link, next⟩ := linked.last i rfl
      obtain ⟨link', next'⟩ := linked'.last i rfl
      exact Cell.ext key (next.trans next'.symm) (link.trans link'.symm)
    | cons second rest =>
      obtain ⟨⟨link, next, -⟩, links⟩ := isChain_cons_cons.mp linked.links
      obtain ⟨⟨link', next', -⟩, links'⟩ := isChain_cons_cons.mp linked'.links
      have later := ih ⟨links, fun i last => linked.last i (by rwa [getLast?_cons_cons])⟩
        ⟨links', fun i last => linked'.last i (by rwa [getLast?_cons_cons])⟩
        fun i member => keys i (mem_cons_of_mem _ member)
      intro i member
      rcases mem_cons.mp member with rfl | member
      · have key' := keys second (by simp)
        exact Cell.ext key (next.trans (key'.trans next'.symm)) (link.trans link'.symm)
      · exact later i member

/-- Only the last cell has the bottom key next. -/
theorem Linked.link_eq_stop (linked : Linked name stop cells order) {i : ι} (member : i ∈ order)
    (bottom : (cells i).nextKey = ⊥) : (cells i).link = stop := by
  obtain ⟨before, after, rfl⟩ := append_of_mem member
  cases after with
  | nil => exact (linked.last i (by simp)).1
  | cons next rest =>
    obtain ⟨-, late, -⟩ := isChain_append.mp linked.links
    obtain ⟨⟨-, key_eq, less⟩, -⟩ := isChain_cons_cons.mp late
    rw [← key_eq, bottom] at less
    exact absurd less not_lt_bot

/-- The next key of a cell is at most every larger key of the list. -/
theorem Linked.nextKey_le (linked : Linked name stop cells order) {i j : ι} (left : i ∈ order)
    (right : j ∈ order) (less : (cells i).key < (cells j).key) :
    (cells i).nextKey ≤ (cells j).key ∧ (cells i).nextKey ≠ ⊥ := by
  obtain ⟨before, after, rfl⟩ := append_of_mem left
  have sorted := pairwise_append.mp (pairwise_map.mp linked.sorted)
  obtain ⟨-, late, -⟩ := isChain_append.mp linked.links
  simp at right
  rcases right with earlier | rfl | later
  · exact absurd (sorted.2.2 j earlier i (by simp)) (lt_asymm less)
  · exact absurd less (lt_irrefl _)
  · cases after with
    | nil => cases later
    | cons next rest =>
      obtain ⟨⟨-, key_eq, above⟩, -⟩ := isChain_cons_cons.mp late
      rw [key_eq]
      refine ⟨?_, ne_bot_of_gt above⟩
      obtain rfl | later := mem_cons.mp later
      · exact le_refl _
      · have tail := (pairwise_cons.mp sorted.2.1).2
        exact le_of_lt ((pairwise_cons.mp tail).1 j later)

/-- The key falls into the gap after the cell. -/
def Gap (cell : Cell K L) (key : K) : Prop :=
  cell.key < key ∧ (key < cell.nextKey ∨ cell.nextKey = ⊥)

theorem Linked.not_gap_of_lt (linked : Linked name stop cells order) {i j : ι} (left : i ∈ order)
    (right : j ∈ order) (less : (cells i).key < (cells j).key) (reached : (cells j).key ≤ key) :
    ¬ Gap (cells i) key := by
  rintro ⟨-, upper⟩
  obtain ⟨below, proper⟩ := linked.nextKey_le left right less
  exact absurd (lt_of_lt_of_le (upper.resolve_right proper) below) (not_lt_of_ge reached)

/-- A key in a gap is not in the list. -/
theorem Linked.fresh_of_gap (linked : Linked name stop cells order) {i : ι} (member : i ∈ order)
    (gap : Gap (cells i) key) : key ∉ order.map fun j => (cells j).key := by
  intro present
  obtain ⟨j, right, rfl⟩ := mem_map.mp present
  exact linked.not_gap_of_lt member right gap.1 (le_refl _) gap

/-- A key is in one gap at most. -/
theorem Linked.gap_unique (linked : Linked name stop cells order) {i j : ι} (left : i ∈ order)
    (right : j ∈ order) (gap : Gap (cells i) key) (gap' : Gap (cells j) key) : i = j := by
  rcases lt_trichotomy (cells i).key (cells j).key with less | same | less
  · exact absurd gap (linked.not_gap_of_lt left right less (le_of_lt gap'.1))
  · exact inj_on_of_nodup_map linked.nodup_keys left right same
  · exact absurd gap' (linked.not_gap_of_lt right left less (le_of_lt gap.1))

/-- A key above the first cell that is not in the list is in a gap. -/
theorem Linked.exists_gap {first : ι} {rest : List ι}
    (linked : Linked name stop cells (first :: rest)) (above : (cells first).key < key)
    (absent : key ∉ (first :: rest).map fun j => (cells j).key) :
    ∃ i ∈ first :: rest, Gap (cells i) key := by
  induction rest generalizing first with
  | nil =>
    exact ⟨first, mem_singleton_self _, above, Or.inr (linked.last first rfl).2⟩
  | cons next rest ih =>
    obtain ⟨⟨-, key_eq, -⟩, links⟩ := isChain_cons_cons.mp linked.links
    have tail : Linked name stop cells (next :: rest) :=
      ⟨links, fun i last => linked.last i (by rwa [getLast?_cons_cons])⟩
    simp at absent
    rcases lt_trichotomy key (cells next).key with before | same | later
    · exact ⟨first, by simp, above, Or.inl (key_eq ▸ before)⟩
    · exact absurd same absent.2.1
    · obtain ⟨i, member, gap⟩ := ih tail later (by simpa using absent.2)
      exact ⟨i, mem_cons_of_mem _ member, gap⟩

/-- What an insertion writes: the cell before the gap and the new cell. -/
structure Inserts (name : ι → L) (cells cells' : ι → Cell K L) (low new : ι)
    (key : K) : Prop where
  low_eq : cells' low = { cells low with nextKey := key, link := name new }
  new_eq : cells' new = { cells low with key := key }
  others : ∀ i, i ≠ low → i ≠ new → cells' i = cells i

/-- A key in the gap after a cell of the list goes there. -/
theorem Linked.insert (linked : Linked name stop cells (before ++ low :: after))
    (fresh : new ∉ before ++ low :: after) (lower : (cells low).key < key)
    (upper : key < (cells low).nextKey ∨ (cells low).nextKey = ⊥)
    (inserts : Inserts name cells cells' low new key) :
    Linked name stop cells' (before ++ low :: new :: after) := by
  have distinct := linked.nodup
  have apart : ∀ i ∈ before ++ after, cells' i = cells i := by
    intro i member
    apply inserts.others
    · rintro rfl
      have := nodup_middle.mp distinct
      exact (nodup_cons.mp this).1 member
    · rintro rfl
      apply fresh
      simp at member ⊢
      exact member.imp_right .inr
  have low_key : (cells' low).key = (cells low).key := by rw [inserts.low_eq]
  obtain ⟨early, late, joint⟩ := isChain_append.mp linked.links
  have late' : (new :: after).IsChain fun i j => (cells' i).link = name j ∧
      (cells' i).nextKey = (cells' j).key ∧ (cells' i).key < (cells' j).key := by
    cases after with
    | nil => exact .singleton _
    | cons next rest =>
      obtain ⟨⟨link, key_eq, less⟩, rest_links⟩ := isChain_cons_cons.mp late
      have next_eq := apart next (by simp)
      have gap : key < (cells low).nextKey := upper.resolve_right fun bottom => by
        rw [← key_eq, bottom] at less
        exact not_lt_bot less
      refine isChain_cons_cons.mpr ⟨?_, rest_links.imp_of_mem_imp fun i j left right link => ?_⟩
      · rw [inserts.new_eq, next_eq]
        exact ⟨link, key_eq, key_eq ▸ gap⟩
      · rw [apart i (mem_append_right _ left), apart j (mem_append_right _ right)]
        exact link
  constructor
  · refine isChain_append.mpr ⟨?_, isChain_cons_cons.mpr ⟨?_, late'⟩, ?_⟩
    · refine early.imp_of_mem_imp fun i j left right link => ?_
      rw [apart i (mem_append_left _ left), apart j (mem_append_left _ right)]
      exact link
    · rw [inserts.low_eq, inserts.new_eq]
      exact ⟨rfl, rfl, lower⟩
    · intro i last j first
      obtain rfl : low = j := by simpa using first
      have link := joint i last low (by simp)
      rw [apart i (mem_append_left _ (mem_of_mem_getLast? last)), low_key]
      exact link
  · intro i last
    have ends := linked.last
    cases after with
    | nil =>
      obtain rfl : new = i := by simpa using last
      rw [inserts.new_eq]
      exact ends low (by simp)
    | cons next rest =>
      have member : i ∈ next :: rest := by
        rw [getLast?_append_cons, getLast?_cons_cons, getLast?_cons_cons] at last
        exact mem_of_mem_getLast? last
      rw [apart i (mem_append_right _ member)]
      apply ends
      rw [getLast?_append_cons, getLast?_cons_cons] at last ⊢
      rwa [getLast?_cons_cons] at last

end SortedLinks
