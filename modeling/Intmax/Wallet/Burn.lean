import Intmax.Balance.Withdrawal
import Intmax.Channel.Signed
import Intmax.Wallet.Basic

/-! # Burns and their withdrawals

An inter-channel debit names one transfer of the base layer.  A burn is a debit to the reserved
channel; what it pays on L1 is derived twice, from the co-signed debit and from the settled
transaction.
-/

namespace Intmax.Wallet

open Checked Hashing Trees Channel Validity Balance List IncrementalMerkleTree Item RegevCiphertext
open Free (Digest)

variable {D B : Type} [Hashing D B]

/-! ## The transfer of a debit -/

/-- The only receiver of a debit. -/
def soleReceiver (tx : InterChannelTx D B) : WResult (ReceiverBalanceDelta B) :=
  match tx.receiverDeltas with
  | [delta] => .ok delta
  | deltas => .error (.message
      s!"F-AUX-1: expected exactly one receiver delta, got {deltas.length}")

/-- One transfer makes one transaction; a push into the empty tree has room. -/
def interChannelTxV2Leaf (D : Type) {B : Type} [Hashing D B] (transfer : Transfer B)
    (nonce : BitVec 32) : WResult (TxV2 D) := do
  let transferTree : IncrementalMerkleTree D (Transfer B) ← getOrRevert
    ((IncrementalMerkleTree.new (Transfer B) transferTreeHeight).push transfer) .panic
  pure
    { txClass := .userTransfer, transferTreeRoot := transferTree.getRoot, nonce
      channelActionRoot := zeroDigest }

/-! ## What they say -/

/-- The transaction of one transfer holds it at index 0 and nothing else. -/
theorem interChannelTxV2Leaf_ok (transfer : Transfer B) (nonce : BitVec 32) :
    ∃ txV2, interChannelTxV2Leaf D transfer nonce = .ok txV2 ∧ txV2.nonce = nonce ∧
      txV2.txClass = .userTransfer ∧ txV2.channelActionRoot = zeroDigest ∧
      txV2.transferTreeRoot = treeRoot D transferTreeHeight (listLeaves D [transfer]) := by
  obtain ⟨tree, pushed⟩ := exists_push (t := (new (Transfer B) transferTreeHeight :
    IncrementalMerkleTree D _)) (show 6 ≤ 63 by decide) (show 0 < 2 ^ 6 by decide) transfer
  have root : tree.getRoot = treeRoot D transferTreeHeight (listLeaves D [transfer]) :=
    pushAll_getRoot (by simp [pushAll, pushed])
  simp only [interChannelTxV2Leaf, bind_ok, getOrRevert_ok, pure_ok]
  exact ⟨_, ⟨tree, pushed, rfl⟩, rfl, rfl, rfl, root⟩

variable {tx : InterChannelTx D B} {amount : BitVec 64} {transfer : Transfer B}

omit [Hashing D B] in
theorem soleReceiver_ok {delta : ReceiverBalanceDelta B} (found : soleReceiver tx = .ok delta) :
    tx.receiverDeltas = [delta] := by
  unfold soleReceiver at found
  split at found
  case h_1 only => rw [only, Except.ok.inj found]
  case h_2 => cases found

theorem txLeafHash_injective (injective : KeccakInjective D) {a b c d e a' b' c' d' e' : B}
    (same : Channel.txLeafHash D a b c d e = Channel.txLeafHash D a' b' c' d' e') :
    a = a' ∧ b = b' ∧ c = c' ∧ d = d' ∧ e = e' := by
  have wings := injective _ _ (by simp [sameKind]) same
  simp at wings
  have sender := injective _ _ (by simp [sameKind]) wings.1
  have receiver := injective _ _ (by simp [sameKind]) wings.2
  simp at sender receiver
  exact ⟨sender.1, sender.2, receiver⟩

theorem burnDescriptor_injective (injective : KeccakInjective D) {s s' : ChannelId}
    {n n' t t' : BitVec 32} {l l' r r' : B} {a a' : U256}
    (same : burnDescriptor D s n l r t a = burnDescriptor D s' n' l' r' t' a') :
    s = s' ∧ n = n' ∧ l = l' ∧ r = r' ∧ t = t' ∧ a = a' := by
  have alike : Alike (D := D) (B := B)
      ([.elem burnDescriptorDomain, u32Item s, u32Item n, .bytes l, .bytes r, u32Item t] ++
        u256Items a)
      ([.elem burnDescriptorDomain, u32Item s', u32Item n', .bytes l', .bytes r', u32Item t'] ++
        u256Items a') :=
    Alike.append (by simp [u32Item, field, sameKind]) (u256Items_alike _ _)
  obtain ⟨front, amount⟩ := append_inj' (injective _ _ alike same) rfl
  simp [u32Item_injective.eq_iff] at front
  obtain ⟨rfl, rfl, rfl, rfl, rfl⟩ := front
  exact ⟨rfl, rfl, rfl, rfl, rfl, u256Items_injective amount⟩

variable [DecidableEq D] [DecidableEq B] [RecipientBytes D B]

/-- An error of the channel types under a heading; an abort is not caught. -/
def WalletError.ofChannel (heading : String) : ChannelError → WalletError
  | .panic => .panic
  | err => .message (heading ++ toString err)

def interChannelBaseTransfer (recipientPkG : B) (tokenIndex : BitVec 32) (amount : BitVec 64)
    (auxData : B) : Transfer B :=
  { recipient := recipientPkG, tokenIndex, amount := u64ToU256 amount, auxData }

/-- The transfer of a burn: its recipient is the L1 address that the receiver key spells. -/
def burnTransfer (tx : InterChannelTx D B) (amount : BitVec 64) (receiverPkG txLeaf : B) :
    WResult (Transfer B) := do
  revertIf (tx.destinationBaseTransferSalt ≠ zeroDigest)
    (.message "F-AUX-1: burn must carry the canonical zero base transfer salt")
  let _ ← (extractAddressFromRecipient D receiverPkG).mapError fun error => .message
    ("F-AUX-1: burn receiver is not canonical ADDRESS_TAG (0x02 || 11 zero bytes || address): " ++
      s!"{error}")
  pure (interChannelBaseTransfer receiverPkG tx.tokenIndex amount
    (burnDescriptor D tx.sourceChannelId tx.baseNonce txLeaf receiverPkG tx.tokenIndex
      (u64ToU256 amount)))

def canonicalInterChannelBaseTransfer (tx : InterChannelTx D B) (amount : BitVec 64) :
    WResult (Transfer B) := do
  let receiver ← soleReceiver tx
  let txLeaf ← tx.txLeafHash.mapError (.ofChannel "F-AUX-1: tx leaf: ")
  (if tx.destinationChannelId = burnChannelId then
    burnTransfer tx amount receiver.receiverPkG txLeaf
  else
    pure (interChannelBaseTransfer
      (calculateRecipientFromUserId D tx.destinationChannelId tx.destinationBaseTransferSalt)
      tx.tokenIndex amount txLeaf) : WResult (Transfer B))

def interChannelTransferIndex : BitVec 32 := 0

def burnWithdrawalLeaf (D : Type) {B : Type} [Hashing D B] [DecidableEq B] [RecipientBytes D B]
    (sourceChannelId : ChannelId) (burnRecipientPkG : B) (tokenIndex : BitVec 32)
    (amount : BitVec 64) (auxData : B) (txNonce : BitVec 32) : WResult (Withdrawal B) := do
  let transfer := interChannelBaseTransfer burnRecipientPkG tokenIndex amount auxData
  let recipient ← (extractAddressFromRecipient D transfer.recipient).mapError fun e => .message
    ("burn withdrawal leaf: recipient is not an ADDRESS_TAG L1 recipient — this burn is not " ++
      s!"withdrawable: {e}")
  let settled : SettledTransfer B :=
    { inner := transfer, source := sourceChannelId, transferIndex := interChannelTransferIndex
      nonce := txNonce }
  pure
    { recipient, tokenIndex := transfer.tokenIndex, amount := transfer.amount
      nullifier := settled.nullifier D, auxData := transfer.auxData }

/-- The debit burns the amount with this transfer. -/
structure IsBurn (tx : InterChannelTx D B) (amount : BitVec 64) (transfer : Transfer B) : Prop where
  burn : tx.destinationChannelId = burnChannelId
  canonical : canonicalInterChannelBaseTransfer tx amount = .ok transfer

/-- What the transfer of a burn is made of. -/
structure BurnParts (tx : InterChannelTx D B) (amount : BitVec 64) (transfer : Transfer B)
    (delta : ReceiverBalanceDelta B) (senderDelta receiverDelta : B)
    (address : Address) : Prop where
  receiver : tx.receiverDeltas = [delta]
  sent : tx.senderDeltaCt.digest D = some senderDelta
  received : delta.amount.digest D = some receiverDelta
  spelled : extractAddressFromRecipient D delta.receiverPkG = .ok address
  transfer : transfer = interChannelBaseTransfer delta.receiverPkG tx.tokenIndex amount
    (burnDescriptor D tx.sourceChannelId tx.baseNonce
      (Channel.txLeafHash D tx.sourcePkG senderDelta delta.receiverPkG delta.receiverRegevPkDigest
        receiverDelta) delta.receiverPkG tx.tokenIndex (u64ToU256 amount))

theorem IsBurn.parts (burn : IsBurn tx amount transfer) :
      ∃ delta senderDelta receiverDelta address,
        BurnParts tx amount transfer delta senderDelta receiverDelta address := by
  have canonical := burn.canonical
  simp only [canonicalInterChannelBaseTransfer, if_pos burn.burn, burnTransfer, bind_ok,
    mapError_ok, InterChannelTx.txLeafHash, getOrRevert_ok, revertIf_ok, exists_unit,
    pure_ok, not_not] at canonical
  obtain ⟨delta, sole, _, ⟨head, first, sent, senderDigest, received, receiverDigest, rfl⟩, -,
    address, spelled, rfl⟩ := canonical
  have receiver := soleReceiver_ok sole
  obtain rfl : delta = head := by
    rw [receiver] at first
    exact Option.some.inj first
  exact ⟨delta, sent, received, address,
    { receiver, sent := senderDigest, received := receiverDigest, spelled, transfer := rfl }⟩

/-- The leaf of a burn as its co-signers compute it. -/
def burnLeaf (tx : InterChannelTx D B) (amount : BitVec 64) (transfer : Transfer B) :
    WResult (Withdrawal B) :=
  burnWithdrawalLeaf D tx.sourceChannelId transfer.recipient tx.tokenIndex amount transfer.auxData
    tx.baseNonce

/-- The witness is about the transaction of the transfer, sent by the source channel with the base
    nonce of the debit. -/
structure Settles (w : SingleWithdawalWitness D B) (tx : InterChannelTx D B)
    (transfer : Transfer B) :
    Prop where
  channel : w.accountState.channelId = tx.sourceChannelId
  transaction : ∃ txV2, interChannelTxV2Leaf D transfer tx.baseNonce = .ok txV2 ∧
    w.tx = { transferTreeRoot := txV2.transferTreeRoot, nonce := txV2.nonce }

omit [DecidableEq D] in
/-- No address is spelled by an empty leaf. -/
theorem extract_empty_error (address : Address) :
    extractAddressFromRecipient D (zeroBytes D : B) ≠ .ok address := by
  intro spelled
  have word : RecipientBytes.toWord D (zeroBytes D : B) =
      (addressTag ++ (0 : BitVec 88) ++ address : BitVec 256) := by
    rw [extractAddressFromRecipient_ok_iff.mp spelled]
    exact RecipientBytes.toWord_ofWord _
  rw [RecipientBytes.toWord_zero] at word
  have tag := congrArg (fun word : BitVec 256 => word.extractLsb' 248 8) word
  simp only [extractLsb'_address] at tag
  exact absurd tag (by decide)

/-- A witness that withdraws from a transaction of one transfer opens that transfer. -/
theorem Settles.withdrawal_eq (free : CollisionFree D) {w : SingleWithdawalWitness D B}
    {vd : BalanceVerifier D B} {pis : SingleWithdawalPublicInputs D B}
    (settles : Settles w tx transfer) (accepted : w.toPublicInputs vd = .ok pis) :
    ∃ address, extractAddressFromRecipient D transfer.recipient = .ok address ∧
      pis.withdrawal =
        { recipient := address, tokenIndex := transfer.tokenIndex, amount := transfer.amount
          nullifier := SettledTransfer.nullifier D
            { inner := transfer, source := tx.sourceChannelId
              transferIndex := interChannelTransferIndex, nonce := tx.baseNonce }
          auxData := transfer.auxData } := by
  simp only [SingleWithdawalWitness.toPublicInputs, SingleWithdawalWitness.withdrawal, bind_ok,
    revertIf_ok, exists_unit, mapError_ok, pure_ok, not_not] at accepted
  obtain ⟨-, -, balancePis, -, -, -, -, -, root, opened, channel, -, -, -, _,
    ⟨address, spelled, rfl⟩, rfl⟩ := accepted
  obtain ⟨txV2, built, same⟩ := settles.transaction
  obtain ⟨txV2', built', nonce, -, -, transfers⟩ :=
    interChannelTxV2Leaf_ok (D := D) transfer tx.baseNonce
  cases built.symm.trans built'
  rw [TransferWitness.verify, root, same, transfers] at opened
  obtain ⟨-, leaf, -⟩ := MerkleProof.verify_leaf free opened
  rw [index64_toNat] at leaf
  -- Every other index of the transfer tree is empty, and nothing can be withdrawn from it.
  have first : w.transferWitness.transferIndex = 0 := by
    by_contra later
    have positive : w.transferWitness.transferIndex.toNat ≠ 0 := fun zero =>
      later (BitVec.eq_of_toNat_eq zero)
    have empty : w.transferWitness.transfer = Leafable.emptyLeaf D := by
      rw [← leaf, listLeaves, getD_eq_default]
      exact Nat.one_le_iff_ne_zero.mpr positive
    rw [empty] at spelled
    exact extract_empty_error address spelled
  rw [first] at leaf
  have only : w.transferWitness.transfer = transfer := leaf.symm
  rw [only] at spelled
  refine ⟨address, spelled, ?_⟩
  rw [only, first, ← channel, settles.channel, same, nonce]
  rfl

/-- Two burns pay the same. -/
structure SameBurn (tx : InterChannelTx D B) (amount : BitVec 64) (tx' : InterChannelTx D B)
    (amount' : BitVec 64) : Prop where
  source : tx'.sourceChannelId = tx.sourceChannelId
  nonce : tx'.baseNonce = tx.baseNonce
  sender : tx'.sourcePkG = tx.sourcePkG
  senderDelta : tx'.senderDeltaCt = tx.senderDeltaCt
  receiver : tx'.receiverDeltas = tx.receiverDeltas
  token : tx'.tokenIndex = tx.tokenIndex
  amount : amount' = amount

/-- The transfer of a burn as what settles of it. -/
def settledBurn (tx : InterChannelTx D B) (transfer : Transfer B) : SettledTransfer B :=
  { inner := transfer, source := tx.sourceChannelId, transferIndex := interChannelTransferIndex
    nonce := tx.baseNonce }

theorem IsBurn.leaf (burn : IsBurn tx amount transfer) :
    ∃ address, extractAddressFromRecipient D transfer.recipient = .ok address ∧
      burnLeaf tx amount transfer = .ok
        { recipient := address, tokenIndex := transfer.tokenIndex, amount := transfer.amount
          nullifier := (settledBurn tx transfer).nullifier D, auxData := transfer.auxData } := by
  obtain ⟨delta, sent, received, address, parts⟩ := burn.parts
  obtain rfl := parts.transfer
  refine ⟨address, parts.spelled, ?_⟩
  simp only [burnLeaf, burnWithdrawalLeaf, bind_ok, mapError_ok, pure_ok]
  exact ⟨address, parts.spelled, rfl⟩

/-- One transfer, sender and nonce have one burn behind them. -/
theorem IsBurn.same (injective : KeccakInjective D) {tx' : InterChannelTx D B} {amount' : BitVec 64}
    {transfer' : Transfer B} (burn : IsBurn tx amount transfer)
    (burn' : IsBurn tx' amount' transfer')
    (same : settledBurn tx' transfer' = settledBurn tx transfer) :
    SameBurn tx amount tx' amount' := by
  obtain ⟨delta, sent, received, _, parts⟩ := burn.parts
  obtain ⟨delta', sent', received', _, parts'⟩ := burn'.parts
  obtain ⟨inner, source, -, nonce⟩ := SettledTransfer.mk.inj same
  rw [parts.transfer, parts'.transfer] at inner
  obtain ⟨receiverPk, token, amounts, aux⟩ := Transfer.mk.inj inner
  obtain ⟨-, -, leaves, -⟩ := burnDescriptor_injective injective aux
  obtain ⟨sender, sents, -, receiverKey, receiveds⟩ := txLeafHash_injective injective leaves
  have sentCt : tx'.senderDeltaCt = tx.senderDeltaCt :=
    digest_injective injective (sents ▸ parts'.sent) parts.sent
  have receivedCt : delta'.amount = delta.amount :=
    digest_injective injective (receiveds ▸ parts'.received) parts.received
  have deltas : delta' = delta := by
    cases delta
    cases delta'
    simp
    exact ⟨receiverPk, receiverKey, receivedCt⟩
  exact
    { source, nonce, sender, senderDelta := sentCt, token
      receiver := by rw [parts.receiver, parts'.receiver, deltas]
      amount := BitVec.eq_of_toNat_eq (show (u64ToU256 amount').val = (u64ToU256 amount).val from
        congrArg Fin.val amounts) }

/-- The withdrawal leaf that is computed from a co-signed burn exists and is the one that every
    accepted witness of its settlement derives; and no other burn has its nullifier. -/
theorem burn_leaf_proved (free : CollisionFree D) (injective : KeccakInjective D)
    {tx : InterChannelTx D B} {amount : BitVec 64} {transfer : Transfer B}
    (burn : IsBurn tx amount transfer) :
    ∃ leaf, burnLeaf tx amount transfer = .ok leaf ∧
      (∀ w vd pis, Settles w tx transfer → w.toPublicInputs vd = .ok pis →
        pis.withdrawal = leaf) ∧
      ∀ tx' amount' transfer' leaf', IsBurn tx' amount' transfer' →
        burnLeaf tx' amount' transfer' = .ok leaf' → leaf'.nullifier = leaf.nullifier →
        SameBurn tx amount tx' amount' := by
  obtain ⟨address, spelled, made⟩ := burn.leaf
  refine ⟨_, made, ?_, ?_⟩
  · intro w vd pis settles accepted
    obtain ⟨address', spelled', derived⟩ := settles.withdrawal_eq free accepted
    cases spelled.symm.trans spelled'
    exact derived
  · intro tx' amount' transfer' leaf' burn' made' nullifiers
    obtain ⟨_, -, computed⟩ := burn'.leaf
    cases made'.symm.trans computed
    exact burn.same injective burn' (SettledTransfer.nullifier_injective free nullifiers)

/-! ## A burn that settled -/

/-- A burn of 5 units to the L1 address 7. -/
def sampleBurn : InterChannelTx Digest Free.Bytes where
  txInclusionProof := .default
  signedSmallBlock :=
    { message := { channelId := 1, bpMemberSlot := 0, bpPkG := .word 0, smallBlockNumber := 0
                   prevSmallBlockRoot := .word 0, txTreeRoot := .word 0
                   stateCommitmentRoot := .word 0, mediumEpochHint := 0, closeFreezeNonce := 0 }
      signatures := [], aggregatedSignatureProof := [], mediumBlockNumber := 0
      confirmationProof := [] }
  senderDeltaCt := .padding
  sourceChannelId := 1
  destinationChannelId := burnChannelId
  tokenIndex := 0
  baseNonce := 3
  destinationBaseTransferSalt := zeroDigest
  sourcePkG := .word 0
  «seal» := .word 0
  txHash := .word 0
  intmaxTransferCommitment := .word 0
  recipientMemo := []
  receiverDeltas := [{ receiverPkG := calculateRecipientFromAddress Digest 7
                       receiverRegevPkDigest := .word 0, amount := .padding }]
  channelUpdateZkp := { role := .channelStateUpdate, backend := .plonky3, proof := [] }
  transportProof := []

theorem sampleBurn_isBurn : ∃ transfer, IsBurn sampleBurn 5 transfer := by
  obtain ⟨digest, hashed⟩ := Option.isSome_iff_exists.mp
    (digest_isSome (D := Digest) padding_validate)
  have leaf : sampleBurn.txLeafHash = .ok (Channel.txLeafHash Digest sampleBurn.sourcePkG digest
      (calculateRecipientFromAddress Digest 7) (.word 0) digest) := by
    simp [InterChannelTx.txLeafHash]
    exact ⟨_, rfl, digest, hashed, digest, hashed, rfl⟩
  have spelled : extractAddressFromRecipient Digest (calculateRecipientFromAddress Digest 7 :
      Free.Bytes) = .ok 7 := extractAddressFromRecipient_ok_iff.mpr rfl
  obtain ⟨transfer, made⟩ : ∃ transfer, burnTransfer sampleBurn 5
      (calculateRecipientFromAddress Digest 7)
      (Channel.txLeafHash Digest sampleBurn.sourcePkG digest
        (calculateRecipientFromAddress Digest 7) (.word 0) digest) = .ok transfer := by
    simp only [burnTransfer, bind_ok, revertIf_ok, exists_unit, mapError_ok, pure_ok, not_not]
    exact ⟨_, rfl, 7, spelled, rfl⟩
  refine ⟨transfer, rfl, ?_⟩
  simp [canonicalInterChannelBaseTransfer, if_pos
    (show sampleBurn.destinationChannelId = burnChannelId from rfl)]
  exact ⟨_, rfl, _, leaf, made⟩

/-- A transfer to an L1 address has a witness of its settlement. -/
theorem exists_settling {tx : InterChannelTx Digest Free.Bytes} {transfer : Transfer Free.Bytes}
    {address : Address} (source : tx.sourceChannelId = 1)
    (spelled : extractAddressFromRecipient Digest transfer.recipient = .ok address) :
    ∃ w vd pis, Settles w tx transfer ∧ w.toPublicInputs vd = .ok pis := by
  obtain ⟨txV2, built, nonce, kind, action, transfers⟩ :=
    interChannelTxV2Leaf_ok (D := Digest) transfer tx.baseNonce
  let sent : Tx Digest := { transferTreeRoot := txV2.transferTreeRoot, nonce := txV2.nonce }
  have small (n : BitVec 32) : (index64 n).toNat < 2 ^ 32 := by
    rw [index64_toNat]
    exact n.isLt
  -- Each tree holds its leaf everywhere, so that one proof of it exists at every index.
  obtain ⟨transferProof, opensTransfer, -⟩ := exists_proof (D := Digest) transferTreeHeight
    (listLeaves Digest [transfer]) (show (index64 0).toNat < 2 ^ 6 by decide)
  obtain ⟨sentProof, opensSent, -⟩ := exists_proof (D := Digest) sentTxTreeHeight
    (fun _ => sent) (small txV2.nonce)
  obtain ⟨txProof, opensTx, -⟩ := exists_proof (D := Digest) channelTreeHeight
    (fun _ => txV2) (small 1)
  let sendLeaf : SendLeaf Free.Bytes :=
    { prev := 0, cur := 0
      txTreeRoot := ofDigest (treeRoot Digest channelTreeHeight fun _ => txV2) }
  obtain ⟨sendProof, opensSend, -⟩ := exists_proof (D := Digest) sendTreeHeight
    (fun _ => sendLeaf) (small 0)
  let channelLeaf : ChannelLeaf Digest :=
    { index := 0, prev := 0, sendTreeRoot := treeRoot Digest sendTreeHeight fun _ => sendLeaf
      memberPubkeysRoot := .zero }
  obtain ⟨userProof, opensUser, -⟩ := exists_proof (D := Digest) channelTreeHeight
    (fun _ => channelLeaf) (small 1)
  let privateState : PrivateState Digest :=
    { assetTreeRoot := .zero, nullifierTreeRoot := .zero
      sentTxTreeRoot := treeRoot Digest sentTxTreeHeight fun _ => sent
      prevPrivateCommitment := .zero, nonce := 0, salt := .zero }
  let publicState : PublicState Digest :=
    { blockNumber := 1, timestamp := 0
      accountTreeRoot := treeRoot Digest channelTreeHeight fun _ => channelLeaf
      depositTreeRoot := .zero, prevPublicStateRoot := .zero }
  let balancePis : BalancePublicInputs Digest Free.Bytes :=
    { channelId := 1, publicState, blockR := 1, privateCommitment := privateState.commitment
      settledTxChain := .word 0 }
  let w : SingleWithdawalWitness Digest Free.Bytes :=
    { balanceProof := ⟨.ofPis balancePis, []⟩, privateState
      updatePublicState := { new := publicState, old := publicState, merkleProof := ⟨[]⟩ }
      accountState :=
        { channelId := 1, accountTreeRoot := publicState.accountTreeRoot, sendLeaf
          sendLeafIndex := 0, sendMerkleProof := sendProof, channelLeaf
          userMerkleProof := userProof }
      txMerkleProof := ⟨[]⟩, txV2MerkleProof := some txProof, txV2 := some txV2, tx := sent
      sentTxMerkleProof := sentProof
      transferWitness :=
        { transferTreeRoot := txV2.transferTreeRoot, transfer, transferIndex := 0
          transferMerkleProof := transferProof } }
  have decoded : w.balanceProof.pis.decode = .ok balancePis :=
    BalancePublicInputsTarget.decode_ofPis (show (1 : ChannelId) ≠ 0 by decide)
  have update : w.updatePublicState.verify = .ok () := if_pos rfl
  have account : w.accountState.verify = .ok () := by
    simp only [AccountState.verify, bind_ok, mapError_ok, exists_unit]
    exact ⟨opensSend, opensUser⟩
  have opened : w.transferWitness.verify = .ok () := by
    rw [TransferWitness.verify]
    show transferProof.verify transfer (index64 0) txV2.transferTreeRoot = .ok ()
    rw [transfers]
    exact opensTransfer
  have included : w.verifyInclusion 1 (reduceToHashOut sendLeaf.txTreeRoot) = .ok () := by
    simp only [SingleWithdawalWitness.verifyInclusion, w, bind_ok, mapError_ok,
      revertIf_ok, exists_unit, not_not]
    rw [reduceToHashOut_ofDigest]
    exact ⟨opensTx, kind, action, rfl, rfl⟩
  obtain ⟨withdrawal, derived⟩ : ∃ withdrawal, w.withdrawal 1 = .ok withdrawal := by
    simp only [SingleWithdawalWitness.withdrawal, bind_ok, mapError_ok, pure_ok]
    exact ⟨_, address, spelled, rfl⟩
  refine ⟨w, { vd := [], verify := fun _ => true }, { publicState, withdrawal },
    ⟨source.symm, txV2, built, rfl⟩, ?_⟩
  simp only [SingleWithdawalWitness.toPublicInputs, bind_ok, revertIf_ok, exists_unit,
    mapError_ok, pure_ok, not_not]
  exact ⟨rfl, Bool.noConfusion, balancePis, decoded, rfl, update, rfl, opensSent,
    rfl, opened, rfl, rfl, account, included, withdrawal, derived, rfl⟩

theorem burn_leaf_proved_sample : ∃ transfer leaf w vd pis, IsBurn sampleBurn 5 transfer ∧
    burnLeaf sampleBurn 5 transfer = .ok leaf ∧ Settles w sampleBurn transfer ∧
    SingleWithdawalWitness.toPublicInputs w vd = .ok pis ∧ pis.withdrawal = leaf := by
  obtain ⟨transfer, burn⟩ := sampleBurn_isBurn
  obtain ⟨leaf, made, proved, -⟩ :=
    burn_leaf_proved Free.collisionFree Free.keccakInjective burn
  obtain ⟨address, spelled, -⟩ := burn.leaf
  obtain ⟨w, vd, pis, settles, accepted⟩ :=
    exists_settling (show sampleBurn.sourceChannelId = 1 from rfl) spelled
  exact ⟨transfer, leaf, w, vd, pis, burn, made, settles, accepted,
    proved w vd pis settles accepted⟩

end Intmax.Wallet
