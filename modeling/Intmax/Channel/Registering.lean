import Intmax.Lib.Traversal
import Intmax.Channel.Steps

/-! # Registering a token is always possible

A valid state has a digest, and while there is room in the registry the canonical next state of a
new token passes the verifier.
-/

namespace Intmax.Channel

open Checked Hashing Validity RegevCiphertext BalanceState List Option ChannelState

variable {D B : Type} {ct : RegevCiphertext} {channelId : ChannelId} {key key' root : B}
  {state : BalanceState B} {tokenIndex : BitVec 32}

/-! ## What a registration does -/

/-- What hashing a state asserts: one row for each slot, and canonical ciphertexts in them. -/
structure BalanceState.Hashable (state : BalanceState B) : Prop extends FullSize state where
  ciphertexts : ∀ slot : Fin maxChannelMembers, ∀ row,
    state.encBalances[slot.val]? = some row → ∀ t : Fin maxChannelTokens,
      (row t).validate = .ok ()

variable {slot : Nat} {version : BitVec 64} {ct' : RegevCiphertext} {adds adds' : BitVec 32}

theorem BalanceState.Hashable.row_at {state : BalanceState B} (hashable : state.Hashable)
    (inside : slot < maxChannelMembers) : ∃ row, state.encBalances[slot]? = some row :=
  ⟨_, getElem?_eq_getElem (inside.trans_eq hashable.rows.symm)⟩

theorem BalanceState.Hashable.adds_at {state : BalanceState B} (hashable : state.Hashable)
    (inside : slot < maxChannelMembers) : ∃ row, state.pendingAdds[slot]? = some row :=
  ⟨_, getElem?_eq_getElem (inside.trans_eq hashable.counters.symm)⟩

theorem BalanceState.registered_tokenCount (room : state.tokenCount.toNat < maxChannelTokens) :
    (state.registered room tokenIndex).tokenCount.toNat = state.tokenCount.toNat + 1 := by
  have small : state.tokenCount.toNat < 10 := room
  have one : (1 : BitVec 8).toNat = 1 := rfl
  rw [registered, BitVec.toNat_add, one]
  omega

variable [Hashing D B]

/-! ## Digests of valid states -/

theorem pairUp_length : ∀ l : List D, (pairUp (B := B) l).length = l.length / 2
  | [] => by simp [pairUp]
  | [_] => by simp [pairUp]
  | a :: b :: rest => by
    simp [pairUp, pairUp_length rest]
    omega

theorem pairUp_iterate_length (k : Nat) (l : List D) :
    ((pairUp (B := B))^[k] l).length = l.length / 2 ^ k := by
  induction k generalizing l with
  | zero => simp
  | succ k ih => rw [Function.iterate_succ_apply, ih, pairUp_length,
      Nat.div_div_eq_div_mul, pow_succ']

theorem RegevCiphertext.digest_isSome (valid : ct.validate = .ok ()) :
    ((ct.digest D : Option B)).isSome = true := by
  simp [digest, valid]

theorem RegevCiphertext.validate_of_digest {b : B} (found : ct.digest D = some b) :
    ct.validate = .ok () := by
  simp only [digest] at found
  split at found
  case h_1 valid => exact valid
  case h_2 => cases found

theorem BalanceState.Canonical.hashable {state : BalanceState B} (canonical : state.Canonical D) :
    state.Hashable where
  rows := canonical.rows
  counters := canonical.counterRows
  ciphertexts slot row found t := (canonical.ciphertexts slot.val row found t).1

theorem BalanceState.Hashable.h1_isSome {state : BalanceState B} (hashable : state.Hashable) :
    ∃ b, state.h1 D = some b := by
  have leaf : ∀ slot ∈ finRange maxChannelMembers,
      (state.slotLeafHash D slot).isSome = true := by
    intro slot _
    obtain ⟨row, rowFound⟩ := hashable.row_at slot.isLt
    obtain ⟨adds, addsFound⟩ := hashable.adds_at slot.isLt
    obtain ⟨digests, hashed, -⟩ := mapM_option_some (l := finRange maxChannelTokens)
      fun t _ => digest_isSome (D := D) (hashable.ciphertexts slot row rowFound t)
    simp [slotLeafHash, rowFound, addsFound, hashed]
  obtain ⟨leaves, hashed, length⟩ := mapM_option_some leaf
  rw [length_finRange] at length
  -- Ten levels over 1024 leaves leave one node.
  have one : ((pairUp (B := B))^[10] leaves).length = 1 := by
    rw [pairUp_iterate_length, length]
    rfl
  obtain ⟨root, only⟩ := length_eq_one_iff.mp one
  have rooted : state.slotTreeRoot D = some root := by
    simp only [slotTreeRoot, slotLeafHashes_eq_some.mpr ⟨hashable.toFullSize, hashed⟩,
      bind_eq_bind, bind_some, only, head?_cons]
  simp only [h1, rooted, bind_eq_bind, bind_some]
  exact ⟨_, rfl⟩

/-- A state with a hash has all its rows, and its ciphertexts have digests. -/
theorem BalanceState.hashable_of_h1 {state : BalanceState B} {b : B} (found : state.h1 D = some b) :
    state.Hashable := by
  simp [h1, slotTreeRoot, bind_eq_some_iff, slotLeafHashes_eq_some] at found
  obtain ⟨_, ⟨leaves, ⟨full, hashed⟩, -⟩, -⟩ := found
  refine ⟨full, fun slot row here t => ?_⟩
  obtain ⟨leaf, hashedSlot, -⟩ := mapM_option_inj hashed hashed slot (mem_finRange slot)
  simp [slotLeafHash, here, bind_eq_some_iff] at hashedSlot
  obtain ⟨adds, -, digests, each, -⟩ := hashedSlot
  obtain ⟨digest, hashedCt, -⟩ := mapM_option_inj each each t (mem_finRange t)
  exact validate_of_digest hashedCt

theorem ChannelState.signingDigest_isSome {state : ChannelState B}
    (hashable : state.balanceState.Hashable) : ∃ b, state.signingDigest D = some b := by
  obtain ⟨h1, hashed⟩ := hashable.h1_isSome (D := D)
  simp only [signingDigest, hashed, bind_eq_bind, bind_some]
  exact ⟨_, rfl⟩

theorem BalanceState.Canonical.registered (canonical : state.Canonical D)
    (room : state.tokenCount.toNat < maxChannelTokens)
    (unregistered : ∀ t : Fin maxChannelTokens, t.val < state.tokenCount.toNat →
      state.tokenRegistry t ≠ tokenIndex) :
    (state.registered room tokenIndex).Canonical D := by
  have count : (state.registered room tokenIndex).tokenCount.toNat = _ := registered_tokenCount room
  have below {t : Fin maxChannelTokens} (other : t.val ≠ state.tokenCount.toNat) :
      (state.registered room tokenIndex).tokenRegistry t = state.tokenRegistry t :=
    Function.update_of_ne (fun same => other (congrArg Fin.val same)) _ _
  exact
    { rows := canonical.rows
      counterRows := canonical.counterRows
      tokens := by
        rw [count]
        exact ⟨Nat.le_add_left _ _, room⟩
      distinct := by
        intro i j order active
        rw [count] at active
        by_cases last : j.val = state.tokenCount.toNat
        · -- The new token is none of the old ones.
          have new : (state.registered room tokenIndex).tokenRegistry j = tokenIndex := by
            have at_ : j = ⟨state.tokenCount.toNat, room⟩ := Fin.ext last
            rw [at_]
            exact Function.update_self _ _ _
          rw [new, below (by omega)]
          exact unregistered i (by omega)
        · rw [below last, below (by omega)]
          exact canonical.distinct i j order (by omega)
      unused := by
        intro t unused
        rw [count] at unused
        rw [below (by omega)]
        exact canonical.unused t (by omega)
      members := canonical.members
      fits := canonical.fits
      ciphertexts := by
        intro index row found t
        obtain ⟨valid, padding, inactive⟩ := canonical.ciphertexts index row found t
        refine ⟨valid, padding, fun unused => inactive ?_⟩
        rw [count] at unused
        omega
      keys := canonical.keys
      exits := canonical.exits
      counters := by
        intro index row found t
        obtain ⟨small, padding, inactive⟩ := canonical.counters index row found t
        refine ⟨small, padding, fun unused => inactive ?_⟩
        rw [count] at unused
        omega }

/-! ## A channel of two members

The smallest channel: two members, one token and no delegates. -/

section
variable (D)

/-- A row with one value at the first token. -/
def firstToken {α : Type} (value rest : α) : TokenRow α :=
  fun t => if t.val = 0 then value else rest

/-- The balance state of two members with the given positions at the only token. -/
def pairBalance (channelId : ChannelId) (version : BitVec 64) (ct ct' : RegevCiphertext)
    (adds adds' : BitVec 32) : BalanceState B where
  channelId := channelId
  memberCount := 2
  delegateCount := 0
  encBalances := firstToken ct .padding :: firstToken ct' .padding ::
    List.replicate 1022 (fun _ => .padding)
  regevPkDigests := fun _ => zeroBytes D
  recipients := fun i => if i.val < 2 then 1 else 0
  settledTxChain := zeroBytes D
  settledTxAccumulatorRoot := zeroBytes D
  stateVersion := version
  pendingAdds := firstToken adds 0 :: firstToken adds' 0 :: List.replicate 1022 (fun _ => 0)
  tokenRegistry := fun _ => 0
  tokenCount := 1

def pairRecord (channelId : ChannelId) (key key' root : B) : ChannelRecord B where
  channelId := channelId
  memberCount := 2
  delegateCount := 0
  memberPkGs := fun i => if i.val = 0 then key else if i.val = 1 then key' else zeroBytes D
  bpMemberSlot := 0
  regevPkRoot := root

end

def pairSignatures (key key' : B) : List (MemberSignature B) :=
  [{ memberSlot := 0, pkG := key, signature := List.replicate falconCosignBlobBytes 0 },
    { memberSlot := 1, pkG := key', signature := List.replicate falconCosignBlobBytes 0 }]

theorem RegevCiphertext.padding_validate : padding.validate = .ok () := by
  have zeros : (padding.c1 ++ padding.c2).find?
      (fun c => decide (regevQ ≤ c.toNat)) = none := by
    simp [padding, regevQ]
  simp [validate, zeros]
  simp [padding]

/-- What holds of the values in the rows of two members holds of what is read there. -/
theorem firstToken_rows {α : Type} {P : α → Prop} {value value' rest : α} {index : Nat}
    {row : TokenRow α} (first : P value) (second : P value') (others : P rest)
    (found : (firstToken value rest :: firstToken value' rest ::
      replicate 1022 (fun _ => rest))[index]? = some row) (t : Fin maxChannelTokens) :
    P (row t) ∧ (2 ≤ index → row t = rest) ∧ (1 ≤ t.val → row t = rest) := by
  have each (v : α) (holds : P v) :
      P (firstToken v rest t) ∧ (1 ≤ t.val → firstToken v rest t = rest) := by
    unfold firstToken
    split
    · exact ⟨holds, fun later => by omega⟩
    · exact ⟨others, fun _ => rfl⟩
  match index with
  | 0 =>
    cases found
    exact ⟨(each value first).1, fun outside => by omega, (each value first).2⟩
  | 1 =>
    cases found
    exact ⟨(each value' second).1, fun outside => by omega, (each value' second).2⟩
  | index + 2 =>
    have member := mem_of_getElem? (show (replicate 1022 _)[index]? = some row from found)
    rw [eq_of_mem_replicate member]
    exact ⟨others, fun _ => rfl, fun _ => rfl⟩

theorem pairBalance_canonical (valid : ct.validate = .ok ()) (valid' : ct'.validate = .ok ())
    (small : adds.toNat ≤ maxHomoAddsBeforeRefresh)
    (small' : adds'.toNat ≤ maxHomoAddsBeforeRefresh) :
    (pairBalance D channelId version ct ct' adds adds').Canonical D := by
  have two : (pairBalance D channelId version ct ct' adds adds').active = 2 := rfl
  have one : (pairBalance D channelId version ct ct' adds adds').tokenCount.toNat = 1 := rfl
  exact
    { rows := by
        simp only [pairBalance, length_cons, length_replicate]
        rfl
      counterRows := by
        simp only [pairBalance, length_cons, length_replicate]
        rfl
      tokens := by rw [one]; decide
      distinct := by
        intro i j order active
        rw [one] at active
        omega
      unused := fun _ _ => rfl
      members := ⟨le_refl 2, by show 2 ≤ maxSigCluster; decide⟩
      fits := by rw [two]; decide
      ciphertexts := fun _ _ => firstToken_rows
        (P := (RegevCiphertext.validate · = .ok ())) valid valid' padding_validate
      keys := fun _ _ => rfl
      exits := by
        intro i
        rw [two]
        refine ⟨fun active => ?_, fun padding => if_neg (not_lt.mpr padding)⟩
        rw [show (pairBalance D channelId version ct ct' adds adds').recipients i = 1 from
          if_pos active]
        decide
      counters := fun _ _ => firstToken_rows
        (P := (BitVec.toNat · ≤ maxHomoAddsBeforeRefresh)) small small' (Nat.zero_le _) }

section
variable (D)

/-- A signed state over a balance state of the channel, with the digest it hashes to. -/
def pairState (balance : BalanceState B) (epoch : BitVec 64) (digest : B) : ChannelState B where
  channelId := balance.channelId
  epoch := epoch
  smallBlockNumber := 0
  closeFreezeNonce := 0
  channelFund :=
    { channelId := balance.channelId, amounts := fun _ => 0, intmaxStateRoot := zeroBytes D }
  balanceState := balance
  h2Tag := zeroBytes D
  sharedNativeNullifierRoot := zeroBytes D
  unallocatedConfirmedIncoming := 0
  prevDigest := zeroBytes D
  digest := digest
  memberSignatures := []

end

/-- A signed state of a channel whose record and digest fit it. -/
structure ChannelState.Fits (D : Type) {B : Type} [Hashing D B] (record : ChannelRecord B)
    (state : ChannelState B) : Prop where
  canonical : state.balanceState.Canonical D
  digest : state.signingDigest D = some state.digest
  memberCount : state.balanceState.memberCount = record.memberCount
  delegateCount : state.balanceState.delegateCount = record.delegateCount
  balanceChannelId : state.balanceState.channelId = state.channelId
  channelId : state.channelId = record.channelId

/-- There is a state of the channel for every epoch. -/
theorem exists_pairState_fits {epoch : BitVec 64}
    (canonical : (pairBalance D channelId version ct ct' adds adds').Canonical D) :
    ∃ digest, (pairState D (pairBalance D channelId version ct ct' adds adds') epoch
      digest).Fits D (pairRecord D channelId key key' root) := by
  obtain ⟨digest, hashed⟩ := signingDigest_isSome (D := D)
    (show (pairState D (pairBalance D channelId version ct ct' adds adds') epoch
      (zeroBytes D)).balanceState.Hashable from canonical.hashable)
  exact ⟨digest,
    { canonical, digest := hashed
      memberCount := rfl, delegateCount := rfl, balanceChannelId := rfl, channelId := rfl }⟩

variable [DecidableEq B]

theorem pairRecord_validate (real : channelId ≠ burnChannelId) (key_ne : key ≠ zeroBytes D)
    (key'_ne : key' ≠ zeroBytes D) (distinct : key ≠ key') (anchored : root ≠ zeroBytes D) :
    (pairRecord D channelId key key' root).validate D = .ok () := by
  simp only [ChannelRecord.validate, bind_ok, revertIf_ok, exists_unit, forM_ok,
    not_and, not_or, not_not]
  have two : (pairRecord D channelId key key' root).memberCount.toNat = 2 := rfl
  have none : (pairRecord D channelId key key' root).delegateCount.toNat = 0 := rfl
  simp only [two, none]
  refine ⟨anchored, real, by decide, show ¬ 2 ≤ 0 by decide, by decide,
    fun i _ => ⟨?_, ?_, ?_⟩⟩
  · intro active
    simp only [pairRecord]
    split
    · exact key_ne
    · rw [if_pos (by omega)]
      exact key'_ne
  · rintro active ⟨j, order, active', same⟩
    simp only [pairRecord, if_pos (show i.val = 0 by omega), if_neg (show j.val ≠ 0 by omega),
      if_pos (show j.val = 1 by omega)] at same
    exact distinct same
  · intro padding
    simp only [pairRecord, if_neg (show i.val ≠ 0 by omega), if_neg (show i.val ≠ 1 by omega)]

/-- Signatures of the two members pass the checks, whatever bytes of the right length they hold. -/
theorem pairSigned_valid {blob blob' : List (BitVec 8)}
    (valid : (pairRecord D channelId key key' root).validate D = .ok ())
    (size : blob.length = falconCosignBlobBytes) (size' : blob'.length = falconCosignBlobBytes) :
    validateAllMemberSignatures D (pairRecord D channelId key key' root)
      [{ memberSlot := 0, pkG := key, signature := blob },
        { memberSlot := 1, pkG := key', signature := blob' }] = .ok () := by
  have filled {blob : List (BitVec 8)} (size : blob.length = falconCosignBlobBytes) : blob ≠ [] :=
    ne_nil_of_length_pos (by rw [size]; decide)
  simp only [validateAllMemberSignatures, validateMemberSignatureSlots, valid, bind_ok, revertIf_ok,
    exists_unit, forM_ok, zipIdx_cons, zipIdx_nil, forall_mem_cons, not_not, true_and]
  have first : ¬ ∀ i : Fin maxChannelMembers, i.val = 0 →
      key ≠ (pairRecord D channelId key key' root).memberPkGs i :=
      fun none => none ⟨0, by decide⟩ rfl rfl
  have second : ¬ ∀ i : Fin maxChannelMembers, i.val = 0 + 1 →
      key' ≠ (pairRecord D channelId key key' root).memberPkGs i :=
      fun none => none ⟨1, by decide⟩ rfl rfl
  exact ⟨⟨rfl, ⟨rfl, first, filled size⟩, ⟨rfl, second, filled size'⟩,
    forall_mem_nil _⟩, size, size', forall_mem_nil _⟩

theorem pairSignatures_valid (valid : (pairRecord D channelId key key' root).validate D = .ok ()) :
    validateAllMemberSignatures D (pairRecord D channelId key key' root) (pairSignatures key key') =
      .ok () :=
  pairSigned_valid valid length_replicate length_replicate

/-! ## The next state -/

/-- While the registry has room, a new token can be registered. -/
theorem tokenRegister_accepted {record : ChannelRecord B} {prev : ChannelState B}
    {signatures : List (MemberSignature B)} (fits : prev.Fits D record)
    (room : prev.balanceState.tokenCount.toNat < maxChannelTokens)
    (unregistered : ∀ t : Fin maxChannelTokens, t.val < prev.balanceState.tokenCount.toNat →
      prev.balanceState.tokenRegistry t ≠ tokenIndex)
    (signed : validateAllMemberSignatures D record signatures = .ok ()) :
    ∃ next inputs, TokenRegisterUpdateWitness.verify D
      { channelRecord := record, prevState := prev, nextState := next, tokenIndex } =
        .ok inputs := by
  have applied := applyTokenRegister_ok.mpr ⟨room, unregistered, rfl⟩
  have canonical := fits.canonical.registered room unregistered
  let unsigned : ChannelState B :=
    { prev with
      epoch := prev.epoch + 1
      balanceState := prev.balanceState.registered room tokenIndex
      h2Tag := zeroBytes D
      prevDigest := prev.digest
      memberSignatures := [] }
  obtain ⟨digest, hashed⟩ := signingDigest_isSome (D := D)
    (show unsigned.balanceState.Hashable from canonical.hashable)
  -- The digest covers neither itself nor the signatures.
  let next : ChannelState B := { unsigned with digest, memberSignatures := signatures }
  have nextHashed : next.signingDigest D = some digest := hashed
  have expected : prev.tokenRegisterNextState D tokenIndex = .ok { unsigned with digest } := by
    simp only [tokenRegisterNextState, applied, bind_ok, getOrRevert_ok]
    refine ⟨_, rfl, ?_⟩
    change (unsigned.withComputedDigest D) = _
    simp [withComputedDigest, hashed]
  refine ⟨next, updateInputs .tokenRegister prev next 0 0 (zeroBytes D)
    (zeroBytes D) digest, ?_⟩
  have linkage : verifyStateLinkage D prev next = .ok () := by
    simp only [verifyStateLinkage, bind_ok, revertIf_ok, exists_unit, getOrRevert_ok, not_not]
    exact ⟨rfl, rfl, rfl, prev.digest, fits.digest, rfl, digest, nextHashed, rfl⟩
  have shared : verifyBalanceStateShared D record prev next = .ok () := by
    simp only [verifyBalanceStateShared, verifyOrdinaryStateMetadata, verifyParticipants, bind_ok,
      mapError_ok, revertIf_ok, exists_unit, validate_ok_iff, not_or, not_not]
    exact ⟨⟨⟨fits.memberCount, fits.delegateCount⟩,
      ⟨fits.memberCount, fits.delegateCount⟩, rfl⟩, fits.canonical, canonical,
      ⟨fits.balanceChannelId, fits.balanceChannelId, fits.channelId⟩,
      rfl, rfl, rfl⟩
  have registered : prev.balanceState.verifyTokenRegisterTransition next.balanceState tokenIndex =
      .ok () := by
    simp only [verifyTokenRegisterTransition, applied, bind_ok, revertIf_ok, not_not]
    exact ⟨_, rfl, rfl⟩
  simp [TokenRegisterUpdateWitness.verify, requireH2Zero, requireChainUnchanged,
    requireAccumulatorUnchanged, ensureSameChannelFund, ensureSameU256, ensureSameRoot,
    verifyNextStateSignatures]
  exact ⟨linkage, shared, registered, rfl, rfl, rfl, rfl, rfl, rfl, rfl, rfl, _, expected, rfl,
    signed, rfl⟩

end Intmax.Channel
