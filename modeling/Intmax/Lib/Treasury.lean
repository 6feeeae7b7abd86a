import Intmax.Lib.Ledger

/-! # Treasuries

A treasury keeps one account for each index.  An account is denominated in an asset
and holds an escrow and the pull payments taken from it; several accounts may share
an asset.  The treasury is balanced when, of every asset, it holds exactly what the
accounts in that asset owe.  Asset 0 means that none has been set.
-/

/-- One account: what is escrowed, and what each holder may pull. -/
structure Treasury.Account (κ α : Type) where
  asset : κ
  escrow : Nat
  pending : α → Nat

/-- The accounts, and the amount of each asset that is held. -/
structure Treasury (ι κ α : Type) where
  accounts : ι → Treasury.Account κ α
  held : κ → Nat

namespace Treasury

open Function Account

variable {ι κ α : Type} [DecidableEq ι] [DecidableEq κ] [DecidableEq α] [Zero κ]

/-- A single booking, in which only `payer` is paid. -/
inductive Move (payer : α) (t : Treasury ι κ α) : Treasury ι κ α → Prop
  | register (i : ι) (asset : κ) : (t.accounts i).asset = 0 →
      Move payer t
        { t with accounts := Function.update t.accounts i { t.accounts i with asset } }
  | deposit (i : ι) (amount : Nat) : (t.accounts i).asset ≠ 0 →
      Move payer t
        { accounts := Function.update t.accounts i
            { t.accounts i with escrow := (t.accounts i).escrow + amount }
          held := Function.update t.held (t.accounts i).asset
            (t.held (t.accounts i).asset + amount) }
  | credit (i : ι) (a : α) (amount : Nat) : amount ≤ (t.accounts i).escrow →
      Move payer t
        { t with
          accounts := Function.update t.accounts i
            { t.accounts i with
              escrow := (t.accounts i).escrow - amount
              pending := Function.update (t.accounts i).pending a
                ((t.accounts i).pending a + amount) } }
  | payout (i : ι) (amount : Nat) : (t.accounts i).asset ≠ 0 →
      amount ≤ (t.accounts i).pending payer → amount ≤ t.held (t.accounts i).asset →
      Move payer t
        { accounts := Function.update t.accounts i
            { t.accounts i with
              pending := Function.update (t.accounts i).pending payer
                ((t.accounts i).pending payer - amount) }
          held := Function.update t.held (t.accounts i).asset
            (t.held (t.accounts i).asset - amount) }

/-- Any number of bookings. -/
abbrev Moves (payer : α) : Treasury ι κ α → Treasury ι κ α → Prop :=
  Relation.ReflTransGen (Move payer)

section
variable {t t' : Treasury ι κ α} {payer a : α} {i : ι}

/-- Only the payer loses a pull payment, and an asset that is set stays. -/
theorem Move.kept (move : Move payer t t') (other : a ≠ payer) :
    (t.accounts i).pending a ≤ (t'.accounts i).pending a ∧
      ((t.accounts i).asset ≠ 0 → (t'.accounts i).asset = (t.accounts i).asset) := by
  cases move with
  | register j asset unset => by_cases here : i = j <;> simp [here, unset]
  | deposit j amount set => by_cases here : i = j <;> simp [here]
  | credit j b amount enough =>
    by_cases here : i = j
    · by_cases mine : a = b <;> simp [here, mine]
    · simp [here]
  | payout j amount set enough covered => by_cases here : i = j <;> simp [here, other]

theorem Moves.kept (moves : Moves payer t t') (other : a ≠ payer) :
    (t.accounts i).pending a ≤ (t'.accounts i).pending a ∧
      ((t.accounts i).asset ≠ 0 → (t'.accounts i).asset = (t.accounts i).asset) := by
  induction moves with
  | refl => simp
  | tail _ move ih =>
    obtain ⟨grows, stays⟩ := move.kept (i := i) other
    exact ⟨ih.1.trans grows, fun set => (stays (ih.2 set ▸ set)).trans (ih.2 set)⟩

end

section
variable [Fintype ι] [Fintype α]

/-- What an account owes. -/
def Account.owed (account : Account κ α) : Nat :=
  account.escrow + Ledger.total id account.pending

/-- What an account owes in a given asset. -/
def Account.owedIn (k : κ) (account : Account κ α) : Nat :=
  if account.asset = k then account.owed else 0

omit [DecidableEq α] [Zero κ] in
theorem Account.owedIn_self (account : Account κ α) :
    account.owedIn account.asset = account.owed :=
  if_pos rfl

/-- Every asset is held to the amount owed in it, and without an asset nothing is owed. -/
structure Balanced (t : Treasury ι κ α) : Prop where
  held_eq : ∀ k, k ≠ 0 → t.held k = Ledger.total (Account.owedIn k) t.accounts
  unset : ∀ i, (t.accounts i).asset = 0 → (t.accounts i).owed = 0

variable {t t' : Treasury ι κ α} {i : ι} {payer : α}

omit [DecidableEq α] in
/-- One account is rewritten and the amount held of its asset follows. -/
theorem Balanced.write (balanced : Balanced t) {account : Account κ α} {held : κ → Nat}
    (asset_eq : account.asset = (t.accounts i).asset)
    (follows : (t.accounts i).asset ≠ 0 → held (t.accounts i).asset + (t.accounts i).owed =
      t.held (t.accounts i).asset + account.owed)
    (others : ∀ k, k ≠ (t.accounts i).asset → held k = t.held k)
    (unset : (t.accounts i).asset = 0 → account.owed = 0) :
    Balanced { accounts := update t.accounts i account, held } := by
  constructor
  · intro k set
    have sum := Ledger.total_update_add (owedIn k) t.accounts i account
    have before := balanced.held_eq k set
    by_cases mine : k = (t.accounts i).asset
    · subst mine
      have moved := follows set
      rw [owedIn_self, ← asset_eq, owedIn_self, asset_eq] at sum
      show held _ = Ledger.total _ (update t.accounts i account)
      omega
    · have elsewhere : (t.accounts i).owedIn k = 0 := if_neg (Ne.symm mine)
      have elsewhere' : account.owedIn k = 0 := if_neg (by rw [asset_eq]; exact Ne.symm mine)
      show held k = Ledger.total _ (update t.accounts i account)
      rw [others k mine]
      omega
  · intro j none_
    by_cases same : j = i
    · subst same
      simp at none_ ⊢
      exact unset (asset_eq ▸ none_)
    · simp only [update_of_ne same] at none_ ⊢
      exact balanced.unset j none_

theorem Move.balanced (move : Move payer t t') (balanced : Balanced t) : Balanced t' := by
  cases move with
  | register i asset unset =>
    -- the account owes nothing yet, in whatever asset
    have nothing := balanced.unset i unset
    constructor
    · intro k set
      have sum := Ledger.total_update_add (owedIn k) t.accounts i
        { t.accounts i with asset }
      have before : (t.accounts i).owedIn k = 0 := if_neg (by rw [unset]; exact set.symm)
      have after : owedIn k { t.accounts i with asset } = 0 := by
        unfold owedIn
        split
        · exact nothing
        · rfl
      rw [before, after] at sum
      exact (balanced.held_eq k set).trans sum.symm
    · intro j none_
      by_cases same : j = i
      · subst same
        simp
        exact nothing
      · simp only [update_of_ne same] at none_ ⊢
        exact balanced.unset j none_
  | deposit i amount set =>
    refine balanced.write rfl (fun _ => ?_) (fun k other => update_of_ne other ..)
      (fun none_ => absurd none_ set)
    rw [update_self]
    simp only [owed]
    omega
  | credit i a amount enough =>
    have pending := Ledger.total_update_add id (t.accounts i).pending a
      ((t.accounts i).pending a + amount)
    simp only [id] at pending
    have kept : owed { t.accounts i with
        escrow := (t.accounts i).escrow - amount
        pending := update (t.accounts i).pending a ((t.accounts i).pending a + amount) } =
        (t.accounts i).owed := by
      simp only [owed]
      omega
    refine balanced.write rfl (fun _ => ?_) (fun k other => rfl) (fun none_ => ?_)
    · rw [kept]
    · rw [kept]
      exact balanced.unset i none_
  | payout i amount set enough covered =>
    have pending := Ledger.total_update_add id (t.accounts i).pending payer
      ((t.accounts i).pending payer - amount)
    simp only [id] at pending
    refine balanced.write rfl (fun _ => ?_) (fun k other => update_of_ne other ..)
      (fun none_ => absurd none_ set)
    rw [update_self]
    simp only [owed]
    omega

theorem Moves.balanced (moves : Moves payer t t') (balanced : Balanced t) : Balanced t' := by
  induction moves with
  | refl => exact balanced
  | tail _ move ih => exact move.balanced ih

/-- What may be pulled is held. -/
theorem Balanced.pending_le_held (balanced : Balanced t) (a : α)
    (set : (t.accounts i).asset ≠ 0) :
    (t.accounts i).pending a ≤ t.held (t.accounts i).asset := by
  rw [balanced.held_eq _ set]
  have mine := Ledger.le_total id (t.accounts i).pending a
  have whole := Ledger.le_total (owedIn (t.accounts i).asset) t.accounts i
  rw [owedIn_self] at whole
  simp only [owed, id] at mine whole
  omega

end

end Treasury
