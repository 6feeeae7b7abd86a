import Intmax.Circuits.PublicInputs
import Intmax.Circuits.Splitting
import Intmax.Trees.Roots
import Intmax.Validity.PublicState

/-! # Balances of the base layer

What a Balance proof of a channel commits to: its private state, the public state it is anchored at
and the sends it has processed.  The wires of a circuit that reads the public inputs are kept beside
the native types; numbers are field elements there, and reading them checks their ranges.
-/

namespace Intmax.Balance

open Checked Hashing Trees Validity Gadgets Builder PublicInputs List Target

section
variable {D B : Type} [Hashing D B]

/-! ## Private states -/

structure PrivateState (D : Type) where
  assetTreeRoot : D
  nullifierTreeRoot : D
  sentTxTreeRoot : D
  prevPrivateCommitment : D
  nonce : BitVec 32
  salt : D

def PrivateState.commitment (state : PrivateState D) : D :=
  hashInputs [.digest state.assetTreeRoot, .digest state.nullifierTreeRoot,
    .digest state.sentTxTreeRoot, .digest state.prevPrivateCommitment, u32Item state.nonce,
    .digest state.salt]

/-! ## Public states on wires -/

structure PublicStateTarget (D : Type) where
  blockNumber : Target
  timestamp : Fin 2 → Target
  accountTreeRoot : D
  depositTreeRoot : D
  prevPublicStateRoot : D

namespace PublicStateTarget

/-- `set_witness`. -/
def ofState (state : PublicState D) : PublicStateTarget D :=
  { blockNumber := Target.ofNat state.blockNumber.val
    timestamp := fun i => Target.ofNat ((splitU64 state.timestamp).getD i.val 0)
    accountTreeRoot := state.accountTreeRoot
    depositTreeRoot := state.depositTreeRoot
    prevPublicStateRoot := state.prevPublicStateRoot }

end PublicStateTarget

/-! ## Balance public inputs -/

structure BalancePublicInputs (D B : Type) where
  channelId : ChannelId
  publicState : PublicState D
  blockR : BlockNumber
  privateCommitment : D
  settledTxChain : B

structure BalancePublicInputsTarget (D B : Type) where
  channelId : Target
  publicState : PublicStateTarget D
  blockR : Target
  privateCommitment : D
  settledTxChain : B

/-- `BalanceFullPublicInputs`: the verifier data of the cyclic circuit stands after the inputs. -/
structure BalanceFullPublicInputsTarget (D B : Type) where
  pis : BalancePublicInputsTarget D B
  vd : List (Item D B)

/-- `BlockNumber::new`. -/
def blockNumberNew (value : Target) : Except String BlockNumber :=
  if fits : value.val < 2 ^ 63 then .ok ⟨value.val, fits⟩
  else .error s!"Value {value.val} exceeds 63-bit range"

/-- `PublicState::from_u64_slice`. -/
def PublicStateTarget.decode (state : PublicStateTarget D) : Except String (PublicState D) := do
  let blockNumber ← (blockNumberNew state.blockNumber).mapError ("Block number error: " ++ ·)
  let timestamp ← (fromU64Slice 2 (List.ofFn fun i => (state.timestamp i).val)).mapError
    ("Timestamp error: " ++ ·.message)
  pure
    { blockNumber, timestamp
      accountTreeRoot := state.accountTreeRoot
      depositTreeRoot := state.depositTreeRoot
      prevPublicStateRoot := state.prevPublicStateRoot }

/-- `BalancePublicInputs::from_u64`. -/
def BalancePublicInputsTarget.decode (pis : BalancePublicInputsTarget D B) :
    Except String (BalancePublicInputs D B) := do
  let channelId ← (channelIdNew pis.channelId.val).mapError
    ("Failed to parse channel_id: " ++ ·.message)
  let publicState ← pis.publicState.decode.mapError ("Failed to parse public_state: " ++ ·)
  let blockR ← (blockNumberNew pis.blockR).mapError ("Failed to parse block_r: " ++ ·)
  pure
    { channelId, publicState, blockR
      privateCommitment := pis.privateCommitment
      settledTxChain := pis.settledTxChain }

theorem blockNumberNew_ok_iff {value : Target} {number : BlockNumber} :
    blockNumberNew value = .ok number ↔ value = ofNat number.val := by
  rw [ofNat_eq_iff (lt_order number.isLt), blockNumberNew]
  split
  case isTrue fits => simp [Fin.ext_iff]
  case isFalse large =>
    simp [reduceCtorEq]
    intro same
    exact large (same ▸ number.isLt)

/-- `set_witness`. -/
def BalancePublicInputsTarget.ofPis (pis : BalancePublicInputs D B) :
    BalancePublicInputsTarget D B :=
  { channelId := Target.ofNat pis.channelId.toNat
    publicState := .ofState pis.publicState
    blockR := Target.ofNat pis.blockR.val
    privateCommitment := pis.privateCommitment
    settledTxChain := pis.settledTxChain }

omit [Hashing D B] in
theorem PublicStateTarget.decode_ofState (state : PublicState D) :
    (PublicStateTarget.ofState state).decode = .ok state := by
  have limbs : ofFn (fun i : Fin 2 => ((PublicStateTarget.ofState state).timestamp i).val) =
      splitU64 state.timestamp := by
    have order : 2 ^ 32 < goldilocksOrder := by decide
    have high : state.timestamp.toNat >>> 32 < 2 ^ 32 := by
      rw [Nat.shiftRight_eq_div_pow]
      omega
    have low : state.timestamp.toNat % 2 ^ 32 < 2 ^ 32 := Nat.mod_lt _ (by decide)
    simp only [ofState, splitU64, ofFn_succ, ofFn_zero, Fin.val_zero, Fin.val_succ, getD_cons_zero,
      getD_cons_succ, ofNat_val (lt_trans high order), ofNat_val (lt_trans low order)]
  simp only [decode, bind_ok, mapError_ok, pure_ok, blockNumberNew_ok_iff,
    fromU64Slice_ok_iff, ← splitU64_eq]
  exact ⟨state.blockNumber, rfl, state.timestamp, limbs, rfl⟩

omit [Hashing D B] in
/-- The inputs that the prover sets are decoded, unless they are those of the dummy channel. -/
theorem BalancePublicInputsTarget.decode_ofPis {pis : BalancePublicInputs D B}
    (real : pis.channelId ≠ 0) : (BalancePublicInputsTarget.ofPis pis).decode = .ok pis := by
  have number : (ofNat pis.channelId.toNat).val = pis.channelId.toNat :=
    ofNat_val (lt_trans pis.channelId.isLt (by decide))
  simp only [decode, channelIdNew, bind_ok, mapError_ok, pure_ok,
    revertIf_ok, blockNumberNew_ok_iff, exists_unit]
  refine ⟨pis.channelId, ⟨?_, ?_, ?_⟩, pis.publicState, PublicStateTarget.decode_ofState _,
    pis.blockR, rfl, rfl⟩
  · show ¬2 ^ 32 ≤ (ofNat pis.channelId.toNat).val
    rw [number]
    exact not_le_of_gt pis.channelId.isLt
  · show ¬(ofNat pis.channelId.toNat).val = 0
    rw [number]
    exact fun zero => real (BitVec.eq_of_toNat_eq zero)
  · show BitVec.ofNat 32 (ofNat pis.channelId.toNat).val = pis.channelId
    rw [number, BitVec.ofNat_toNat, BitVec.setWidth_eq]

end

end Intmax.Balance
