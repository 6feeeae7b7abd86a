import Intmax.Channel.Registering

/-! # Wallet gates

A member's wallet checks a proposed state before it signs it.  A gate refuses with a text; a
transition verifier behind it reports its own reason; and some helpers abort the program on input
that was not validated before.
-/

namespace Intmax.Wallet

open Checked Hashing Channel Validity

inductive WalletError where
  | message (text : String)
  | transition (context : String) (reason : ChannelStateUpdateError)
  | panic

abbrev WResult (α : Type) := Except WalletError α

/-- `checked_add(1)` of a counter. -/
def nextCounter (counter : BitVec 64) (text : String) : WResult (BitVec 64) := do
  revertIf (counter.toNat + 1 = 2 ^ 64) (.message text)
  pure (counter + 1)

@[simp] theorem nextCounter_ok_iff {counter next : BitVec 64} {text : String} :
    nextCounter counter text = .ok next ↔ counter.toNat + 1 ≠ 2 ^ 64 ∧
      counter + 1 = next := by
  simp [nextCounter]

end Intmax.Wallet
