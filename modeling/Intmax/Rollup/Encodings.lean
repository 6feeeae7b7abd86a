import Intmax.Circuits.Deployed
import Intmax.Lib.Memory
import Intmax.Rollup.Withdrawals
import Intmax.Validity.PublicState

/-! # Encodings of the hash chains

The rollup packs the records it hashes in assembly, with word stores at running offsets; the
circuits hash the same records as streams of 32-bit words.  Both give one byte string, and that
string determines the record, so a chain determines the records folded into it.
-/

namespace Intmax.Rollup

open Memory PublicInputs BigEndian HashChain Validity Words List

/-! ## The assembly of the contract

Each function returns the string it hashes, for any memory `m` and any free pointer `ptr`. -/

namespace Assembly

def computeValidityPIHash (m : Nat → UInt8) (ptr : Nat) (pis : ValidityPublicInputs) : Bytes :=
  let m := mstore m ptr (shl 192 pis.initialBlockNumber.toNat)
  let m := mstore m (ptr + 8) pis.initialBlockChain.toNat
  let m := mstore m (ptr + 40) pis.initialExtCommitment.toNat
  let m := mstore m (ptr + 72) (shl 192 pis.finalBlockNumber.toNat)
  let m := mstore m (ptr + 80) pis.finalBlockChain.toNat
  let m := mstore m (ptr + 112) pis.finalExtCommitment.toNat
  let m := mstore m (ptr + 144) (shl 96 pis.prover.toNat)
  read m ptr 164

/-- The cursor runs over the key ids four bytes at a time. -/
def computeBlockHash (m : Nat → UInt8) (ptr : Nat) (prevHash : Bytes32) (block : SubBlock)
    (blockDepositHashChain blockChannelRegHashChain : Bytes32) : Bytes :=
  let m := mstore m ptr prevHash.toNat
  let m := mstore m (ptr + 32) (shl 224 block.channelId.toNat)
  let m := mstore m (ptr + 36) (shl 192 block.timestamp.toNat)
  let s := (block.keyIds.map BitVec.toNat).foldl
    (fun s keyId => (mstore s.1 s.2 (shl 224 keyId), s.2 + 4)) (m, ptr + 44)
  let cursor := s.2
  let m := mstore s.1 cursor block.txTreeRoot.toNat
  let m := mstore m (cursor + 32) blockDepositHashChain.toNat
  let m := mstore m (cursor + 64) blockChannelRegHashChain.toNat
  let cursor := cursor + 96
  read m ptr (cursor - ptr)

def computeDepositHash (m : Nat → UInt8) (ptr : Nat) (prevHash : Bytes32)
    (record : DepositRecord) :
    Bytes :=
  let m := mstore m ptr prevHash.toNat
  let m := mstore m (ptr + 32) (shl 96 record.depositor.toNat)
  let m := mstore m (ptr + 52) record.recipient.toNat
  let m := mstore m (ptr + 84) (shl 224 record.tokenIndex.toNat)
  let m := mstore m (ptr + 88) record.amount.toNat
  let m := mstore m (ptr + 120) record.auxData.toNat
  read m ptr 152

def foldWithdrawalLeaf (m : Nat → UInt8) (ptr : Nat) (prev : Bytes32) (w : Withdrawal) : Bytes :=
  let m := mstore m ptr prev.toNat
  let m := mstore m (ptr + 32) (shl 96 w.recipient.toNat)
  let m := mstore m (ptr + 52) (shl 224 w.tokenIndex.toNat)
  let m := mstore m (ptr + 56) w.amount.toNat
  let m := mstore m (ptr + 88) w.nullifier.toNat
  let m := mstore m (ptr + 120) w.auxData.toNat
  read m ptr 152

end Assembly

/-! ## Packed strings -/

def blockPreimage (prevHash : Bytes32) (block : SubBlock)
    (blockDepositHashChain blockChannelRegHashChain : Bytes32) : Bytes :=
  packBytes32 prevHash ++ packUint32 block.channelId ++ packUint64 block.timestamp ++
    block.keyIds.flatMap packUint32 ++ packBytes32 block.txTreeRoot ++
    packBytes32 blockDepositHashChain ++ packBytes32 blockChannelRegHashChain

def validityPreimage (pis : ValidityPublicInputs) : Bytes :=
  packUint64 pis.initialBlockNumber ++ packBytes32 pis.initialBlockChain ++
    packBytes32 pis.initialExtCommitment ++ packUint64 pis.finalBlockNumber ++
    packBytes32 pis.finalBlockChain ++ packBytes32 pis.finalExtCommitment ++ packAddress pis.prover

theorem Assembly.computeValidityPIHash_eq (m : Nat → UInt8) (ptr : Nat)
    (pis : ValidityPublicInputs) :
    Assembly.computeValidityPIHash m ptr pis = validityPreimage pis := by
  have held := ((((((holds_nil : Holds m ptr 0 []).store (k := 8) (by decide)
    pis.initialBlockNumber.toNat).store_word pis.initialBlockChain.isLt).store_word
    pis.initialExtCommitment.isLt).store (k := 8) (by decide) pis.finalBlockNumber.toNat).store_word
    pis.finalBlockChain.isLt).store_word pis.finalExtCommitment.isLt
  have packed := (held.store (k := 20) (by decide) pis.prover.toNat).read
  rw [nil_append] at packed
  exact packed

theorem Assembly.computeDepositHash_eq (m : Nat → UInt8) (ptr : Nat) (prevHash : Bytes32)
    (record : DepositRecord) :
    Assembly.computeDepositHash m ptr prevHash record = depositPreimage prevHash record := by
  have held := ((((holds_nil : Holds m ptr 0 []).store_word prevHash.isLt).store (k := 20)
    (by decide) record.depositor.toNat).store_word record.recipient.isLt).store (k := 4) (by decide)
    record.tokenIndex.toNat
  have packed := ((held.store_word record.amount.isLt).store_word record.auxData.isLt).read
  simp at packed
  exact packed

theorem Assembly.foldWithdrawalLeaf_eq (m : Nat → UInt8) (ptr : Nat) (prev : Bytes32)
    (w : Withdrawal) : Assembly.foldWithdrawalLeaf m ptr prev w = withdrawalPreimage prev w := by
  have held := ((((holds_nil : Holds m ptr 0 []).store_word prev.isLt).store (k := 20) (by decide)
    w.recipient.toNat).store (k := 4) (by decide) w.tokenIndex.toNat).store_word w.amount.isLt
  have packed := ((held.store_word w.nullifier.isLt).store_word w.auxData.isLt).read
  rw [nil_append] at packed
  exact packed

theorem Assembly.computeBlockHash_eq (m : Nat → UInt8) (ptr : Nat) (prevHash : Bytes32)
    (block : SubBlock) (deposits regs : Bytes32) :
    Assembly.computeBlockHash m ptr prevHash block deposits regs =
      blockPreimage prevHash block deposits regs := by
  have header := (((holds_nil : Holds m ptr 0 []).store_word prevHash.isLt).store (k := 4)
    (by decide) block.channelId.toNat).store (k := 8) (by decide) block.timestamp.toNat
  -- the loop leaves the cursor after the last key id
  obtain ⟨m', folded, held⟩ := header.store_all (k := 4) (by decide)
    (block.keyIds.map BitVec.toNat)
  have packed := (((held.store_word block.txTreeRoot.isLt).store_word deposits.isLt).store_word
    regs.isLt).read
  have ids : (block.keyIds.map BitVec.toNat).flatMap (encode 4) =
      block.keyIds.flatMap packUint32 := flatMap_map ..
  rw [nil_append, ids] at packed
  have loop : (block.keyIds.map BitVec.toNat).foldl (fun s keyId => (mstore s.1 s.2 (shl 224 keyId),
      s.2 + 4)) (mstore (mstore (mstore m ptr prevHash.toNat) (ptr + 32) (shl 224
      block.channelId.toNat)) (ptr + 36) (shl 192 block.timestamp.toNat), ptr + 44) = (m', ptr + (44
      + (block.keyIds.map BitVec.toNat).length * 4)) := folded
  refine Eq.trans ?_ packed
  simp only [Assembly.computeBlockHash, loop]
  rw [add_assoc ptr _ 96, Nat.add_sub_cancel_left]
  rfl

/-! ## The streams of the circuits

The words that `hash_with_prev_hash` and `ValidityPublicInputs::hash` concatenate. -/

def blockWords (block : Block Bytes32) (prevHash : Bytes32) : List Nat :=
  toU64Vec 8 prevHash ++ [block.channelId.toNat] ++
    splitU64 block.timestamp ++ block.keyIds.map BitVec.toNat ++
    toU64Vec 8 block.txTreeRoot ++ toU64Vec 8 block.depositHashChain ++
    toU64Vec 8 block.channelRegHashChain

def depositWords (deposit : Deposit Bytes32) (prevHash : Bytes32) : List Nat :=
  toU64Vec 8 prevHash ++ toU64Vec 5 deposit.depositor ++
    toU64Vec 8 deposit.recipient ++ [deposit.tokenIndex.toNat] ++
    toU64Vec 8 (BitVec.ofFin deposit.amount) ++ toU64Vec 8 deposit.auxData

/-- `Withdrawal::to_u32_vec` after the previous hash. -/
def withdrawalWords (w : Withdrawal) (prevHash : Bytes32) : List Nat :=
  toU64Vec 8 prevHash ++ (toU64Vec 5 w.recipient ++
    [w.tokenIndex.toNat] ++ toU64Vec 8 w.amount ++ toU64Vec 8 w.nullifier ++
    toU64Vec 8 w.auxData)

/-- `ValidityPublicInputs` of the circuit: block numbers have 63 bits. -/
structure CircuitValidityPublicInputs where
  initialBlockNumber : BlockNumber
  initialBlockChain : Bytes32
  initialExtCommitment : Bytes32
  finalBlockNumber : BlockNumber
  finalBlockChain : Bytes32
  finalExtCommitment : Bytes32
  prover : Address

/-- `U63::to_u32_vec`: the high 31 bits and the low word. -/
def u63Words (n : U63) : List Nat := [(n.val >>> 32) % 2 ^ 31, n.val % 2 ^ 32]

def validityWords (pis : CircuitValidityPublicInputs) : List Nat :=
  u63Words pis.initialBlockNumber ++ toU64Vec 8 pis.initialBlockChain ++
    toU64Vec 8 pis.initialExtCommitment ++ u63Words pis.finalBlockNumber ++
    toU64Vec 8 pis.finalBlockChain ++ toU64Vec 8 pis.finalExtCommitment ++
    toU64Vec 5 pis.prover

/-! ### The same values on both sides -/

/-- The circuit's block with the values of a posted sub-block. -/
def SubBlock.toBlock (block : SubBlock) (depositHashChain channelRegHashChain : Bytes32) :
    Block Bytes32 :=
  { numUsers := BitVec.ofNat 32 block.keyIds.length
    channelId := block.channelId
    timestamp := block.timestamp
    keyIds := block.keyIds
    txTreeRoot := block.txTreeRoot
    depositHashChain
    channelRegHashChain }

/-- The circuit's deposit with the values of a recorded one; index and block are not hashed. -/
def DepositRecord.toDeposit (record : DepositRecord) (depositIndex : U63)
    (blockNumber : BlockNumber) : Deposit Bytes32 :=
  { depositIndex
    blockNumber
    depositor := record.depositor
    recipient := record.recipient
    tokenIndex := record.tokenIndex
    amount := record.amount.toFin
    auxData := record.auxData }

def CircuitValidityPublicInputs.posted (pis : CircuitValidityPublicInputs) : ValidityPublicInputs :=
  { initialBlockNumber := U63.asU64 pis.initialBlockNumber
    initialBlockChain := pis.initialBlockChain
    initialExtCommitment := pis.initialExtCommitment
    finalBlockNumber := U63.asU64 pis.finalBlockNumber
    finalBlockChain := pis.finalBlockChain
    finalExtCommitment := pis.finalExtCommitment
    prover := pis.prover }

theorem u63Words_eq (n : U63) :
    u63Words n = splitU64 (U63.asU64 n) := by
  have high : n.val >>> 32 % 2 ^ 31 = n.val >>> 32 := by
    rw [Nat.shiftRight_eq_div_pow]
    omega
  rw [u63Words, splitU64, U63.asU64_toNat, high]

theorem blockPreimage_eq_bytes (prevHash : Bytes32) (block : SubBlock) (deposits regs : Bytes32) :
    blockPreimage prevHash block deposits regs =
      bytes (blockWords (block.toBlock deposits regs) prevHash) := by
  have ids : block.keyIds.flatMap packUint32 = bytes (block.keyIds.map BitVec.toNat) := by
    rw [flatMap_eq_bytes packUint32_eq_bytes, ← map_eq_flatMap]
  simp only [blockPreimage, ids, packBytes32_eq_bytes,
    packUint32_eq_bytes, packUint64_eq_bytes, ← bytes_append]
  rfl

theorem depositPreimage_eq_bytes (prevHash : Bytes32) (record : DepositRecord)
    (depositIndex : U63) (blockNumber : BlockNumber) :
    depositPreimage prevHash record =
      bytes (depositWords (record.toDeposit depositIndex blockNumber) prevHash) := by
  simp only [depositPreimage, packBytes32_eq_bytes, packUint32_eq_bytes,
    packAddress_eq_bytes, ← bytes_append, ← append_assoc]
  rfl

theorem withdrawalPreimage_eq_bytes (prevHash : Bytes32) (w : Withdrawal) :
    withdrawalPreimage prevHash w = bytes (withdrawalWords w prevHash) := by
  simp only [withdrawalPreimage, withdrawalWords, packBytes32_eq_bytes, packUint32_eq_bytes,
    packAddress_eq_bytes, ← bytes_append, ← append_assoc]

theorem validityPreimage_eq_bytes (pis : CircuitValidityPublicInputs) :
    validityPreimage pis.posted = bytes (validityWords pis) := by
  simp only [validityPreimage, validityWords, CircuitValidityPublicInputs.posted, u63Words_eq,
    packBytes32_eq_bytes, packUint64_eq_bytes, packAddress_eq_bytes, ← bytes_append]

/-! ### The modelled circuit functions hash these streams -/

theorem words_u32Item (n : BitVec 32) :
    (u32Item n : Item PoseidonHashOut Bytes32).words = [n.toNat] := by
  have fits := n.isLt
  rw [u32Item, Item.field, Item.words_elem, Nat.mod_eq_of_lt (lt_trans fits (by decide))]

theorem words_u64Items (n : BitVec 64) :
    (u64Items n : List (Item PoseidonHashOut Bytes32)).flatMap Item.words =
      splitU64 n := by
  simp only [u64Items, flatMap_cons, flatMap_nil, words_u32Item,
    splitU64, cons_append, nil_append, append_nil,
    BitVec.extractLsb'_toNat, Nat.shiftRight_eq_div_pow, pow_zero, Nat.div_one]
  rw [Nat.mod_eq_of_lt (show n.toNat / 2 ^ 32 < 2 ^ 32 by omega)]

theorem words_elems (ns : List Nat) :
    (ns.map (.elem : Nat → Item PoseidonHashOut Bytes32)).flatMap Item.words = ns := by
  rw [flatMap_map]
  exact (map_eq_flatMap (f := fun n => n)).symm.trans (map_id ns)

theorem words_addressItems (a : Address) :
    (addressItems a : List (Item PoseidonHashOut Bytes32)).flatMap Item.words =
      toU64Vec 5 a := by
  have limbs : (addressItems a : List (Item PoseidonHashOut Bytes32)) =
      (toU64Vec 5 a).map .elem := by
    rw [toU64Vec, split_eq_map, map_map]
    apply map_congr_left
    intro i _
    rw [Function.comp_apply, Nat.shiftRight_eq_div_pow]
  rw [limbs, words_elems]

theorem words_u256Items (n : Trees.U256) :
    (u256Items n : List (Item PoseidonHashOut Bytes32)).flatMap Item.words =
      toU64Vec 8 (BitVec.ofFin n) := by
  rw [u256Items, words_elems, toU64Vec, split_eq_map]
  apply map_congr_left
  intro i _
  rw [Nat.shiftRight_eq_div_pow]
  rfl

section
variable [Keccak] [Poseidon]

theorem block_hashWithPrevHash_eq (block : Block Bytes32) (prevHash : Bytes32)
    (padded : BitVec.ofNat 32 block.keyIds.length = block.numUsers) :
    block.hashWithPrevHash PoseidonHashOut prevHash =
      some (hashWords (blockWords block prevHash)) := by
  have ids : (block.keyIds.map (u32Item : _ → Item PoseidonHashOut Bytes32)).flatMap
      Item.words = block.keyIds.map BitVec.toNat := by
    rw [flatMap_map, map_eq_flatMap]
    exact congrArg (fun f => block.keyIds.flatMap f) (funext words_u32Item)
  rw [Block.hashWithPrevHash, if_pos padded]
  simp [Hashing.keccak, ids, words_u32Item, words_u64Items, blockWords]

theorem deposit_hashWithPrevHash_eq (deposit : Deposit Bytes32) (prevHash : Bytes32) :
    deposit.hashWithPrevHash PoseidonHashOut prevHash =
      hashWords (depositWords deposit prevHash) := by
  simp [Deposit.hashWithPrevHash, Deposit.items, Hashing.keccak, words_u32Item, words_addressItems,
    words_u256Items, depositWords]

end

/-! ## What a string determines -/

theorem packUint32s_length (ids : List (BitVec 32)) :
    (ids.flatMap packUint32).length = 4 * ids.length := by
  induction ids with
  | nil => rfl
  | cons id ids ih =>
    rw [flatMap_cons, length_append, ih, packUint32, length_ofBitVec, length_cons]
    omega

/-- The length of the string gives the number of key ids. -/
theorem blockPreimage_length (prevHash : Bytes32) (block : SubBlock) (deposits regs : Bytes32) :
    (blockPreimage prevHash block deposits regs).length = 140 + 4 * block.keyIds.length := by
  simp [blockPreimage, packBytes32, packUint32, packUint64]
  omega

theorem blockPreimage_inj {prev prev' : Bytes32} {block block' : SubBlock}
    {deposits deposits' regs regs' : Bytes32}
    (same : blockPreimage prev block deposits regs = blockPreimage prev' block' deposits' regs') :
    prev = prev' ∧ block = block' ∧ deposits = deposits' ∧ regs = regs' := by
  have counts : block.keyIds.length = block'.keyIds.length := by
    have lengths := congrArg length same
    rw [blockPreimage_length, blockPreimage_length] at lengths
    omega
  simp [blockPreimage] at same
  obtain ⟨prevEq, same⟩ := append_inj_of_width same
  obtain ⟨channelId, same⟩ := append_inj_of_width same
  obtain ⟨timestamp, same⟩ := append_inj_of_width same
  obtain ⟨ids, same⟩ := append_inj same (by
    rw [packUint32s_length, packUint32s_length, counts])
  obtain ⟨txTreeRoot, same⟩ := append_inj_of_width same
  obtain ⟨depositsEq, same⟩ := append_inj_of_width same
  have regsEq := ofBitVec_inj same
  have keyIds := flatMap_inj (show ∀ b, (packUint32 b).length = 4 from
    fun _ => length_ofBitVec _) (fun _ _ => ofBitVec_inj) counts ids
  refine ⟨prevEq, ?_, depositsEq, regsEq⟩
  cases block
  cases block'
  simp only at channelId timestamp txTreeRoot keyIds
  subst channelId timestamp txTreeRoot keyIds
  rfl

theorem validityPreimage_inj {pis pis' : ValidityPublicInputs}
    (same : validityPreimage pis = validityPreimage pis') : pis = pis' := by
  simp [validityPreimage] at same
  obtain ⟨initialNumber, same⟩ := append_inj_of_width same
  obtain ⟨initialChain, same⟩ := append_inj_of_width same
  obtain ⟨initialExt, same⟩ := append_inj_of_width same
  obtain ⟨finalNumber, same⟩ := append_inj_of_width same
  obtain ⟨finalChain, same⟩ := append_inj_of_width same
  obtain ⟨finalExt, same⟩ := append_inj_of_width same
  have prover := ofBitVec_inj same
  cases pis
  cases pis'
  simp only at initialNumber initialChain initialExt finalNumber finalChain finalExt prover
  subst initialNumber initialChain initialExt finalNumber finalChain finalExt prover
  rfl

/-! ## What a chain determines -/

/-- A sub-block with the deposit and registration chains it commits to. -/
structure PostedBlock where
  block : SubBlock
  depositHashChain : Bytes32
  channelRegHashChain : Bytes32
  deriving DecidableEq

def PostedBlock.preimage (prevHash : Bytes32) (posted : PostedBlock) : Bytes :=
  blockPreimage prevHash posted.block posted.depositHashChain posted.channelRegHashChain

theorem PostedBlock.preimage_inj {prev prev' : Bytes32} {posted posted' : PostedBlock}
    (same : posted.preimage prev = posted'.preimage prev') : prev = prev' ∧ posted = posted' := by
  obtain ⟨prevEq, block, deposits, regs⟩ := blockPreimage_inj same
  refine ⟨prevEq, ?_⟩
  cases posted
  cases posted'
  simp only at block deposits regs
  subst block deposits regs
  rfl

section
variable {α : Type}

/-- The strings hashed while `xs` is folded from `start`. -/
def foldedStrings (link : Bytes32 → α → Bytes32) (preimage : Bytes32 → α → Bytes)
    (start : Bytes32) (xs : List α) : Set Bytes :=
  { x | ∃ p ∈ links link start xs, x = preimage p.1 p.2 }

variable {link : Bytes32 → α → Bytes32} {preimage : Bytes32 → α → Bytes} {start : Bytes32}

theorem foldedStrings_nil : foldedStrings link preimage start [] = ∅ := by
  simp [foldedStrings, links]

theorem foldedStrings_singleton {a : α} :
    foldedStrings link preimage start [a] = {preimage start a} := by
  simp [foldedStrings, links]

/-- Two lists folded from `start` to one end: they are equal, or one of them is the other after
    records that lead from `start` back to `start`. -/
def SameOrLoop (link : Bytes32 → α → Bytes32) (start : Bytes32) (xs ys : List α) : Prop :=
  xs = ys ∨ ∃ loop, loop ≠ [] ∧ (xs = loop ++ ys ∨ ys = loop ++ xs) ∧
    head link start loop = start

variable [Keccak]

def PostedBlock.hash (prevHash : Bytes32) (posted : PostedBlock) : Bytes32 :=
  computeBlockHash prevHash posted.block posted.depositHashChain posted.channelRegHashChain

theorem sameOrLoop_of_head_eq (hashes : ∀ prev a, link prev a = keccak256 (preimage prev a))
    (inj : ∀ prev prev' a a', preimage prev a = preimage prev' a' → prev = prev' ∧ a = a')
    {xs ys : List α} (free : Set.InjOn keccak256
      (foldedStrings link preimage start xs ∪ foldedStrings link preimage start ys))
    (same : head link start xs = head link start ys) :
    SameOrLoop link start xs ys := by
  let S : Set (Bytes32 × α) :=
    { p | p ∈ links link start xs ∨ p ∈ links link start ys }
  have hashed (p : Bytes32 × α) (member : p ∈ S) : preimage p.1 p.2 ∈
      foldedStrings link preimage start xs ∪ foldedStrings link preimage start ys := by
    rcases member with left | right
    · exact .inl ⟨p, left, rfl⟩
    · exact .inr ⟨p, right, rfl⟩
  have links : Set.InjOn (fun p : Bytes32 × α => link p.1 p.2) S := by
    intro p hp q hq equal
    simp only [hashes] at equal
    obtain ⟨prev, record⟩ := inj _ _ _ _ (free (hashed p hp) (hashed q hq) equal)
    exact Prod.ext prev record
  exact head_eq links (fun _ => .inl) (fun _ => .inr) same

/-- The contract and the circuits hash the same bytes for every block, deposit, withdrawal and
    validity statement.  Without collisions among the strings hashed, a chain determines the
    records folded into it, up to a loop of records that hashes back to the start. -/
theorem chain_encodings_exact [Poseidon] :
    (∀ m ptr prevHash block deposits regs,
      Assembly.computeBlockHash m ptr prevHash block deposits regs =
        bytes (blockWords (block.toBlock deposits regs) prevHash) ∧
      computeBlockHash prevHash block deposits regs =
        keccak256 (Assembly.computeBlockHash m ptr prevHash block deposits regs) ∧
      (block.toBlock deposits regs).hashWithPrevHash PoseidonHashOut prevHash =
        some (computeBlockHash prevHash block deposits regs)) ∧
    (∀ m ptr prevHash record depositIndex blockNumber,
      Assembly.computeDepositHash m ptr prevHash record =
        bytes (depositWords (record.toDeposit depositIndex blockNumber) prevHash) ∧
      computeDepositHash prevHash record =
        keccak256 (Assembly.computeDepositHash m ptr prevHash record) ∧
      (record.toDeposit depositIndex blockNumber).hashWithPrevHash PoseidonHashOut prevHash =
        computeDepositHash prevHash record) ∧
    (∀ m ptr prevHash w,
      Assembly.foldWithdrawalLeaf m ptr prevHash w = bytes (withdrawalWords w prevHash) ∧
      foldWithdrawalLeaf prevHash w = keccak256 (Assembly.foldWithdrawalLeaf m ptr prevHash w)) ∧
    (∀ m ptr pis,
      Assembly.computeValidityPIHash m ptr pis.posted = bytes (validityWords pis) ∧
      computeValidityPIHash pis.posted =
        keccak256 (Assembly.computeValidityPIHash m ptr pis.posted)) ∧
    (∀ (start : Bytes32) (xs ys : List PostedBlock),
      Set.InjOn keccak256 (foldedStrings PostedBlock.hash PostedBlock.preimage start xs ∪
        foldedStrings PostedBlock.hash PostedBlock.preimage start ys) →
      head PostedBlock.hash start xs = head PostedBlock.hash start ys →
      SameOrLoop PostedBlock.hash start xs ys) ∧
    (∀ (start : Bytes32) (xs ys : List DepositRecord),
      Set.InjOn keccak256 (foldedStrings computeDepositHash depositPreimage start xs ∪
        foldedStrings computeDepositHash depositPreimage start ys) →
      head computeDepositHash start xs = head computeDepositHash start ys →
      SameOrLoop computeDepositHash start xs ys) ∧
    (∀ (start : Bytes32) (xs ys : List Withdrawal),
      Set.InjOn keccak256 (foldedStrings foldWithdrawalLeaf withdrawalPreimage start xs ∪
        foldedStrings foldWithdrawalLeaf withdrawalPreimage start ys) →
      head foldWithdrawalLeaf start xs = head foldWithdrawalLeaf start ys →
      SameOrLoop foldWithdrawalLeaf start xs ys) ∧
    ∀ pis pis' : ValidityPublicInputs,
      Set.InjOn keccak256 { validityPreimage pis, validityPreimage pis' } →
      computeValidityPIHash pis = computeValidityPIHash pis' → pis = pis' := by
  refine ⟨?_, ?_, ?_, ?_, ?_, ?_, ?_, ?_⟩
  · intro m ptr prevHash block deposits regs
    rw [Assembly.computeBlockHash_eq, block_hashWithPrevHash_eq _ _ rfl, hashWords,
      ← blockPreimage_eq_bytes]
    exact ⟨rfl, rfl, rfl⟩
  · intro m ptr prevHash record depositIndex blockNumber
    rw [Assembly.computeDepositHash_eq, deposit_hashWithPrevHash_eq, hashWords,
      ← depositPreimage_eq_bytes]
    exact ⟨rfl, rfl, rfl⟩
  · intro m ptr prevHash w
    rw [Assembly.foldWithdrawalLeaf_eq, ← withdrawalPreimage_eq_bytes]
    exact ⟨rfl, rfl⟩
  · intro m ptr pis
    rw [Assembly.computeValidityPIHash_eq, ← validityPreimage_eq_bytes]
    exact ⟨rfl, rfl⟩
  · intro start xs ys free same
    exact sameOrLoop_of_head_eq (fun _ _ => rfl) (fun _ _ _ _ => PostedBlock.preimage_inj) free same
  · intro start xs ys free same
    exact sameOrLoop_of_head_eq (fun _ _ => rfl) (fun _ _ _ _ => depositPreimage_inj) free same
  · intro start xs ys free same
    exact sameOrLoop_of_head_eq (fun _ _ => rfl) (fun _ _ _ _ => withdrawalPreimage_inj) free same
  · intro pis pis' free same
    exact validityPreimage_inj (free (Set.mem_insert _ _) (Set.mem_insert_of_mem _ rfl) same)

end

/-- A deposit of `amount` wei. -/
def weiDeposit (amount : Uint256) : DepositRecord := { amount }

/-- Two deposits of different amounts lead to different chains. -/
theorem chain_encodings_exact_deposits :
    @head Bytes32 _ (@computeDepositHash evmKeccak) 0 [weiDeposit 1] ≠
      @head Bytes32 _ (@computeDepositHash evmKeccak) 0 [weiDeposit 2] := by
  intro same
  have distinct : Keccak256.digest (depositPreimage 0 (weiDeposit 1)) ≠
      Keccak256.digest (depositPreimage 0 (weiDeposit 2)) := by
    decide +kernel
  have free : Set.InjOn evmKeccak.keccak256
      (foldedStrings (@computeDepositHash evmKeccak) depositPreimage 0 [weiDeposit 1] ∪
        foldedStrings (@computeDepositHash evmKeccak) depositPreimage 0 [weiDeposit 2]) := by
    rw [foldedStrings_singleton, foldedStrings_singleton, Set.singleton_union, Set.injOn_pair]
    exact fun equal => absurd equal distinct
  let poseidon : Poseidon :=
    ⟨fun _ => PoseidonHashOut.reduce 0, fun _ _ => PoseidonHashOut.reduce 0⟩
  rcases (@chain_encodings_exact evmKeccak poseidon).2.2.2.2.2.1 0 [weiDeposit 1] [weiDeposit 2]
    free same
    with equal | ⟨loop, nonempty, longer | longer, -⟩
  · exact absurd equal (by decide)
  · have lengths := congrArg List.length longer
    rw [List.length_append] at lengths
    exact nonempty (List.length_eq_zero_iff.mp (by simpa using lengths))
  · have lengths := congrArg List.length longer
    rw [List.length_append] at lengths
    exact nonempty (List.length_eq_zero_iff.mp (by simpa using lengths))

/-- Collision freeness alone does not keep a chain off its start: under a hash function that
    maps the one string hashed to the start, no deposit and one deposit end alike. -/
theorem deposit_chain_loops :
    let hash : Keccak := ⟨fun _ => 0⟩
    Set.InjOn hash.keccak256
      (foldedStrings (@computeDepositHash hash) depositPreimage 0 [] ∪
        foldedStrings (@computeDepositHash hash) depositPreimage 0 [weiDeposit 1]) ∧
    head (@computeDepositHash hash) 0 [] =
      head (@computeDepositHash hash) 0 [weiDeposit 1] ∧
    ([] : List DepositRecord) ≠ [weiDeposit 1] := by
  refine ⟨?_, rfl, nofun⟩
  rw [foldedStrings_nil, foldedStrings_singleton, Set.empty_union]
  exact Set.injOn_singleton _ _

end Intmax.Rollup
