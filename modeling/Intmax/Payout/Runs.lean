import Intmax.Payout.Store

/-! # Runs of the payout store

A snapshot on disk only ever moves in two ways: its candidate advances, or a candidate that was
complete makes room for one whose nullifier is new to the ledger.  What is asked of whole runs
follows from this and from the check that `commit` makes before each write.
-/

namespace Intmax.Payout

open Checked Transition List Option BigEndian

variable {path : String} {disk disk' : PayoutSnapshot} {j j' : Journal} {io : Replacement}
  {acts : List Act}
  {a a' : PartialWithdrawalCandidate}

/-! ## How a candidate advances -/

/-- The second candidate is the first one in a later phase. -/
structure Advances (a a' : PartialWithdrawalCandidate) : Prop where
  request : a'.toPreparePartialWithdrawalPayout = a.toPreparePartialWithdrawalPayout
  candidateId : a'.candidateId = a.candidateId
  payout : ∀ i, a.payoutBroadcast = some i → a'.payoutBroadcast = some i
  confirmed : ∀ c, a.payoutConfirmation = some c → a'.payoutConfirmation = some c
  delegated : a.recipientPullDelegated = true → a'.recipientPullDelegated = true
  pull : ∀ i, a.pullBroadcast = some i → a'.pullBroadcast = some i
  pulled : ∀ c, a.pullConfirmation = some c → a'.pullConfirmation = some c
  confirmedFirst : a.pullBroadcast = none → a'.pullBroadcast.isSome = true →
    a.payoutConfirmation.isSome = true

theorem Advances.refl (a : PartialWithdrawalCandidate) : Advances a a where
  request := rfl
  candidateId := rfl
  payout _ h := h
  confirmed _ h := h
  delegated h := h
  pull _ h := h
  pulled _ h := h
  confirmedFirst none some := by simp [none] at some

theorem Advances.nullifier {a a' : PartialWithdrawalCandidate} (h : Advances a a') :
    a'.nullifier = a.nullifier := by
  rw [h.request]

theorem Advances.isComplete {a a' : PartialWithdrawalCandidate} (h : Advances a a')
    (complete : a.isComplete = true) : a'.isComplete = true := by
  simp [PartialWithdrawalCandidate.isComplete, isSome_iff_exists] at complete ⊢
  obtain ⟨⟨c, confirmed⟩, ended⟩ := complete
  refine ⟨⟨c, h.confirmed c confirmed⟩, ended.imp ?_ h.delegated⟩
  rintro ⟨c, pulled⟩
  exact ⟨c, h.pulled c pulled⟩

theorem recordOnce_ok {α : Type} [DecidableEq α] {existing stored : Option α} {value : α}
    {refusal : String} (recorded : recordOnce existing value refusal = .ok stored) (i : α)
    (found : existing = some i) : stored = some i := by
  simp [recordOnce] at recorded
  obtain ⟨same, rfl⟩ := recorded
  have equal : i = value := by simpa [found] using same
  rw [equal]

variable {intent : BroadcastIntent} {txHash : Bytes32}

theorem markPayoutBroadcast_advances (h : markPayoutBroadcast intent a = .ok a') :
    Advances a a' := by
  unfold markPayoutBroadcast at h
  split at h
  · cases h
    exact .refl a
  · simp at h
    obtain ⟨-, stored, recorded, rfl⟩ := h
    exact { Advances.refl a with payout := recordOnce_ok recorded }

theorem confirmPayout_advances {confirmation : PayoutConfirmation}
    (h : confirmPayout confirmation a = .ok a') : Advances a a' := by
  simp [confirmPayout] at h
  obtain ⟨-, h⟩ := h
  split at h
  · simp at h
    obtain ⟨-, rfl⟩ := h
    exact .refl a
  case h_2 unconfirmed =>
    simp at h
    obtain ⟨hashes, -, rfl⟩ := h
    exact { Advances.refl a with confirmed := fun c found => by simp [unconfirmed] at found }

theorem recordPayoutTxHash_advances (h : recordPayoutTxHash txHash a = .ok a') : Advances a a' := by
  simp [recordPayoutTxHash] at h
  obtain ⟨-, h⟩ := h
  split at h
  · simp at h
    obtain ⟨-, rfl⟩ := h
    exact .refl a
  · simp at h
    obtain ⟨hashes, -, rfl⟩ := h
    exact { Advances.refl a with }

theorem markRecipientPullDelegated_advances (h : markRecipientPullDelegated a = .ok a') :
    Advances a a' := by
  simp [markRecipientPullDelegated] at h
  obtain ⟨-, -, rfl⟩ := h
  exact { Advances.refl a with delegated := fun _ => rfl }

theorem markPullBroadcast_advances (h : markPullBroadcast intent a = .ok a') : Advances a a' := by
  simp only [markPullBroadcast, bind_ok, revertIf_ok, exists_unit, getOrRevert_ok] at h
  obtain ⟨-, payout, confirmed, h⟩ := h
  split at h
  · cases h
    exact .refl a
  · simp at h
    obtain ⟨-, stored, recorded, rfl⟩ := h
    exact { Advances.refl a with
      pull := recordOnce_ok recorded
      confirmedFirst := fun _ _ => by rw [confirmed, isSome_some] }

theorem confirmPull_advances {confirmation : PullConfirmation}
    (h : confirmPull confirmation a = .ok a') : Advances a a' := by
  simp [confirmPull] at h
  obtain ⟨-, h⟩ := h
  split at h
  · simp at h
    obtain ⟨-, rfl⟩ := h
    exact .refl a
  case h_2 unconfirmed =>
    simp at h
    obtain ⟨hashes, -, rfl⟩ := h
    exact { Advances.refl a with pulled := fun c found => by simp [unconfirmed] at found }

theorem recordPullTxHash_advances (h : recordPullTxHash txHash a = .ok a') : Advances a a' := by
  simp [recordPullTxHash] at h
  obtain ⟨-, h⟩ := h
  split at h
  · simp at h
    obtain ⟨-, rfl⟩ := h
    exact .refl a
  · simp at h
    obtain ⟨hashes, -, rfl⟩ := h
    exact { Advances.refl a with }

/-! ## How a snapshot moves -/

/-- The two ways in which a snapshot gives way to another. -/
inductive Moves (disk : PayoutSnapshot) : PayoutSnapshot → Prop
  | advance {a a' : PartialWithdrawalCandidate} {completedNullifiers : List Bytes32}
      (found : disk.active = some a) (advances : Advances a a')
      (grown : disk.completedNullifiers ⊆ completedNullifiers)
      (earned : ∀ n ∈ completedNullifiers, n ∈ disk.completedNullifiers ∨
        n = a.nullifier ∧ a'.isComplete = true) :
      Moves disk { disk with active := some a', completedNullifiers }
  | replace {a' : PartialWithdrawalCandidate}
      (finished : ∀ a, disk.active = some a → a.isComplete = true)
      (unused : a'.nullifier ∉ disk.completedNullifiers) (fresh : a'.pullBroadcast = none) :
      Moves disk { disk with active := some a' }

theorem wantMutation_moves {id : Bytes32}
    {update : PartialWithdrawalCandidate → PResult PartialWithdrawalCandidate}
    (advances : ∀ a a', update a = .ok a' → Advances a a') {c : PartialWithdrawalCandidate}
    (h : wantMutation id update disk = .ok (.write disk' c)) : Moves disk disk' := by
  simp only [wantMutation, bind_ok, getOrRevert_ok, revertIf_ok, exists_unit,
    pure_ok, Wanted.write.injEq] at h
  obtain ⟨a, found, -, a', updated, rfl, -⟩ := h
  have advance := advances a a' updated
  refine .advance found advance ?_ ?_
  · intro n listed
    split
    · exact mem_append_left _ listed
    · exact listed
  · intro n listed
    split at listed
    case isTrue ended =>
      obtain before | now := mem_append.mp listed
      · exact .inl before
      · exact .inr ⟨by rw [mem_singleton.mp now, advance.nullifier], ended.1⟩
    case isFalse => exact .inl listed

theorem Moves.grown (h : Moves disk disk') :
    disk.completedNullifiers ⊆ disk'.completedNullifiers := by
  cases h with
  | advance _ _ grown => exact grown
  | replace => exact Subset.refl _

/-! ## The file -/

theorem fromLeBytes_toLeBytes {n value : Nat} (fits : value < 256 ^ n) :
    fromLeBytes (toLeBytes n value) = value := by
  rw [fromLeBytes, toLeBytes, reverse_reverse, decode_encode fits]

theorem length_toLeBytes (n value : Nat) : (toLeBytes n value).length = n := by
  simp [toLeBytes]

theorem length_snapshotMagic : snapshotMagic.length = 16 := by
  decide +kernel

section
variable [Keccak] [Serde]

variable {bytes : Bytes} {op : Operation} {store : PartialWithdrawalPayoutStore}
  {file : Option Bytes} {P : PartialWithdrawalCandidate → Prop}

/-- What was written is read back. -/
theorem readSnapshot_encodeSnapshot (encoded : encodeSnapshot disk = .ok bytes) :
    readSnapshot path bytes = .ok disk := by
  simp [encodeSnapshot] at encoded
  obtain ⟨payload, written, small, rfl⟩ := encoded
  have fits : payload.length < 256 ^ 8 := lt_of_le_of_lt (Nat.le_of_add_right_le small) (by decide)
  have versionRead : fromLeBytes (toLeBytes 4 partialWithdrawalPayoutVersion) =
      partialWithdrawalPayoutVersion := fromLeBytes_toLeBytes (by decide)
  have sizeRead := fromLeBytes_toLeBytes fits
  have magicLength := length_snapshotMagic
  have versionLength := length_toLeBytes 4 partialWithdrawalPayoutVersion
  have sizeLength := length_toLeBytes 8 payload.length
  have sumLength : (ofBitVec 32 (keccak256 payload)).length = 32 := length_ofBitVec _
  generalize toLeBytes 4 partialWithdrawalPayoutVersion = version at *
  generalize toLeBytes 8 payload.length = size at *
  generalize checksum : ofBitVec 32 (keccak256 payload) = sum at *
  -- The four fields of the header lie where the reader cuts.
  have at16 : (snapshotMagic ++ (version ++ (size ++ (sum ++ payload)))).drop 16 =
      version ++ (size ++ (sum ++ payload)) := drop_left' magicLength
  have at20 : (snapshotMagic ++ (version ++ (size ++ (sum ++ payload)))).drop 20 =
      size ++ (sum ++ payload) := by
    rw [← drop_drop (i := 4) (j := 16), at16, drop_left' versionLength]
  have at28 : (snapshotMagic ++ (version ++ (size ++ (sum ++ payload)))).drop 28 =
      sum ++ payload := by
    rw [← drop_drop (i := 8) (j := 20), at20, drop_left' sizeLength]
  have at60 : (snapshotMagic ++ (version ++ (size ++ (sum ++ payload)))).drop headerBytes =
      payload := by
    rw [headerBytes, ← drop_drop (i := 32) (j := 28), at28, drop_left' sumLength]
  have length : (snapshotMagic ++ (version ++ (size ++ (sum ++ payload)))).length =
      headerBytes + payload.length := by
    simp [magicLength, versionLength, sizeLength, sumLength, headerBytes]
    omega
  rw [readSnapshot, at16, at20, at28, at60, length, take_left' magicLength, take_left'
    versionLength, take_left' sizeLength, take_left' sumLength, versionRead, sizeRead]
  simp only [bind_ok, revertIf_ok, exists_unit, mapError_ok, checksum, Serde.fromSlice_toVec
    written, ne_eq, not_true_eq_false, if_false, not_false_eq_true, true_and, and_true]
  constructor
  · omega
  · omega

/-! ## Wanted snapshots -/

theorem want_moves {c : PartialWithdrawalCandidate} (h : op.want disk = .ok (.write disk' c)) :
    Moves disk disk' := by
  cases op with
  | prepare request =>
    simp [Operation.want, wantPrepare] at h
    obtain ⟨-, id, -, h⟩ := h
    split at h
    case h_1 nothing =>
      simp at h
      obtain ⟨unused, rfl, -⟩ := h
      exact .replace (fun a found => by simp [nothing] at found) unused rfl
    case h_2 active found =>
      split at h
      · simp at h
      · simp at h
        obtain ⟨complete, unused, rfl, -⟩ := h
        refine .replace (fun a same => ?_) unused rfl
        cases found.symm.trans same
        simpa using complete
  | markPayoutBroadcast => exact wantMutation_moves (fun _ _ => markPayoutBroadcast_advances) h
  | confirmPayout => exact wantMutation_moves (fun _ _ => confirmPayout_advances) h
  | recordPayoutTxHash => exact wantMutation_moves (fun _ _ => recordPayoutTxHash_advances) h
  | markRecipientPullDelegated =>
    exact wantMutation_moves (fun _ _ => markRecipientPullDelegated_advances) h
  | markPullBroadcast => exact wantMutation_moves (fun _ _ => markPullBroadcast_advances) h
  | confirmPull => exact wantMutation_moves (fun _ _ => confirmPull_advances) h
  | recordPullTxHash => exact wantMutation_moves (fun _ _ => recordPullTxHash_advances) h

/-! ## What holds of the snapshot on disk -/

/-- A snapshot that passes its check, in which a completed nullifier is not in flight. -/
structure Kept (disk : PayoutSnapshot) : Prop where
  verified : verifyDisk disk = .ok ()
  ledger : ∀ a, disk.active = some a → a.nullifier ∈ disk.completedNullifiers →
    a.isComplete = true

theorem verifyDisk_active {a : PartialWithdrawalCandidate} (verified : verifyDisk disk = .ok ())
    (found : disk.active = some a) : verifyActive disk.completedNullifiers a = .ok () := by
  simp [verifyDisk, found] at verified
  exact verified.2.2

/-- A complete candidate is in the ledger. -/
theorem verifyDisk_completed {a : PartialWithdrawalCandidate} (verified : verifyDisk disk = .ok ())
    (found : disk.active = some a) (complete : a.isComplete = true) :
    a.nullifier ∈ disk.completedNullifiers := by
  have checked := verifyDisk_active verified found
  simp only [verifyActive, bind_ok, exists_unit, revertIf_ok] at checked
  obtain ⟨-, -, -, -, listed, -⟩ := checked
  exact not_not.mp fun absent => listed ⟨complete, absent⟩

/-- A pull intent stands next to a confirmed payout and is not handed off. -/
theorem verifyDisk_pull {a : PartialWithdrawalCandidate} (verified : verifyDisk disk = .ok ())
    (found : disk.active = some a) (pulling : a.pullBroadcast.isSome = true) :
    ∃ c, a.payoutConfirmation = some c ∧
      validatePayoutConfirmation a c = .ok () ∧ a.recipientPullDelegated = false := by
  have checked := verifyDisk_active verified found
  simp [verifyActive] at checked
  obtain ⟨-, phases, -, confirmations, -⟩ := checked
  simp only [verifyPhases, bind_ok, exists_unit, revertIf_ok] at phases
  obtain ⟨-, -, -, confirmed, delegated, -⟩ := phases
  cases payout : a.payoutConfirmation with
  | none => exact absurd ⟨pulling, payout⟩ confirmed
  | some c =>
    simp only [verifyConfirmations, payout, bind_ok, exists_unit, revertIf_ok,
      mapError_ok] at confirmations
    refine ⟨c, rfl, confirmations.1.2, ?_⟩
    cases handed : a.recipientPullDelegated with
    | false => rfl
    | true => exact absurd ⟨handed, .inr (.inl pulling)⟩ delegated

theorem Moves.kept (h : Moves disk disk') (kept : Kept disk)
    (verified : verifyDisk disk' = .ok ()) : Kept disk' := by
  refine ⟨verified, ?_⟩
  cases h with
  | @advance a a' _ found advances grown earned =>
    rintro _ ⟨⟩ listed
    cases earned _ listed with
    | inl before =>
      rw [advances.nullifier] at before
      exact advances.isComplete (kept.ledger a found before)
    | inr now => exact now.2
  | replace _ unused =>
    rintro _ ⟨⟩ listed
    exact absurd listed unused

/-! ## How the journal moves -/

/-- The snapshot in the journal file. -/
def Persisted (path : String) (j : Journal) (disk : PayoutSnapshot) : Prop :=
  ∃ bytes, j.file = some bytes ∧ readSnapshot path bytes = .ok disk

theorem Persisted.unique (h : Persisted path j disk) (h' : Persisted path j disk') :
    disk = disk' := by
  obtain ⟨bytes, file, read⟩ := h
  obtain ⟨bytes', file', read'⟩ := h'
  cases file.symm.trans file'
  exact Except.ok.inj (read.symm.trans read')

/-- The file holds a sound snapshot, and the store that answers holds the same one. -/
structure Journal.Sound (path : String) (j : Journal) : Prop where
  file : ∀ bytes, j.file = some bytes → ∃ disk,
    readSnapshot path bytes = .ok disk ∧ Kept disk
  store : ∀ s, j.store = some s → s.poisoned = false → Persisted path j s.disk

theorem verifyDisk_empty : verifyDisk emptySnapshot = .ok () := rfl

theorem kept_empty : Kept emptySnapshot where
  verified := verifyDisk_empty
  ledger _ found := by cases found

/-- A replacement of the file leaves the old content, or the new one that reads back. -/
theorem persistSnapshot_cases (io : Replacement) (disk : PayoutSnapshot) (file : Option Bytes) :
    ((persistSnapshot io disk file).1 ≠ .ok () ∧ (persistSnapshot io disk file).2 = file) ∨
    ∃ bytes, encodeSnapshot disk = .ok bytes ∧
      (persistSnapshot io disk file).2 = some bytes := by
  unfold persistSnapshot
  cases encoded : encodeSnapshot disk with
  | error e => exact .inl ⟨by simp, rfl⟩
  | ok bytes =>
    cases io with
    | done => exact .inr ⟨bytes, rfl, rfl⟩
    | failed error replaced =>
      cases replaced with
      | false => exact .inl ⟨by simp, rfl⟩
      | true => exact .inr ⟨bytes, rfl, rfl⟩

/-- After a commit: nothing was written, or the new snapshot passed its check and is on disk. -/
theorem commit_cases (io : Replacement) (disk : PayoutSnapshot)
    (store : PartialWithdrawalPayoutStore) (file : Option Bytes) :
    ((commit io disk store file).2.file = file ∧ ∀ s,
      (commit io disk store file).2.store = some s → s.poisoned = false → s = store) ∨
    verifyDisk disk = .ok () ∧ ∃ bytes, encodeSnapshot disk = .ok bytes ∧
      (commit io disk store file).2.file = some bytes ∧
      ∀ s, (commit io disk store file).2.store = some s → s.poisoned = false →
      s.disk = disk := by
  unfold commit
  cases verified : verifyDisk disk with
  | error e =>
    refine .inl ⟨rfl, fun s same _ => ?_⟩
    cases same
    rfl
  | ok _ =>
    have outcome := persistSnapshot_cases io disk file
    generalize persistSnapshot io disk file = written at outcome
    obtain ⟨answer, content⟩ := written
    cases answer with
    | error e =>
      have silent : ∀ s, some { store with poisoned := true } = some s → s.poisoned = false →
          False := by
        intro s same healthy
        cases same
        cases healthy
      cases outcome with
      | inl unchanged => exact .inl ⟨unchanged.2, fun s same healthy =>
          (silent s same healthy).elim⟩
      | inr replaced =>
        obtain ⟨bytes, encoded, now⟩ := replaced
        exact .inr ⟨rfl, bytes, encoded, now, fun s same healthy =>
          (silent s same healthy).elim⟩
    | ok _ =>
      cases outcome with
      | inl unchanged => exact absurd rfl unchanged.1
      | inr replaced =>
        obtain ⟨bytes, encoded, now⟩ := replaced
        refine .inr ⟨rfl, bytes, encoded, now, fun s same _ => ?_⟩
        cases same
        rfl

/-- One call keeps the journal sound and moves its snapshot at most once. -/
theorem Operation.run_sound (sound : Journal.Sound path { file, store := some store }) :
    (op.run io store file).2.Sound path ∧
      ∀ disk, Persisted path { file, store := some store } disk →
        ∃ disk', Persisted path (op.run io store file).2 disk' ∧
        (disk' = disk ∨ Moves disk disk') := by
  unfold Operation.run
  cases wanted : (do store.ensureHealthy; op.want store.disk : PResult Wanted) with
  | error e => exact ⟨sound, fun disk held => ⟨disk, held, .inl rfl⟩⟩
  | ok w =>
    simp [PartialWithdrawalPayoutStore.ensureHealthy] at wanted
    obtain ⟨healthy, wanted⟩ := wanted
    cases w with
    | answer c => exact ⟨sound, fun disk held => ⟨disk, held, .inl rfl⟩⟩
    | write next c =>
      have held := sound.store store rfl healthy
      have moves := want_moves wanted
      obtain ⟨bytes, content, read⟩ := id held
      obtain ⟨disk, read', kept⟩ := sound.file bytes content
      cases read.symm.trans read'
      obtain ⟨unchanged, silent⟩ | ⟨verified, bytes', encoded, now, answers⟩ :=
        commit_cases io next store file
      · have held' (d : PayoutSnapshot) (h : Persisted path { file, store := some store } d) :
            Persisted path (commit io next store file).2 d := by
          obtain ⟨bytes, found, read⟩ := h
          exact ⟨bytes, unchanged.trans found, read⟩
        refine ⟨⟨fun bytes found => sound.file bytes (unchanged.symm.trans found), ?_⟩,
          fun d h => ⟨d, held' d h, .inl rfl⟩⟩
        intro s same well
        rw [silent s same well]
        exact held' _ held
      · have read' : readSnapshot path bytes' = .ok next := readSnapshot_encodeSnapshot encoded
        refine ⟨⟨?_, fun s same well => ⟨bytes',
          now, by rw [answers s same well, read']⟩⟩, ?_⟩
        · intro bytes found
          cases now.symm.trans found
          exact ⟨next, read', moves.kept kept verified⟩
        · intro d h
          cases h.unique held
          exact ⟨next, ⟨bytes', now, read'⟩, .inr moves⟩

/-- A sound snapshot opens. -/
theorem Journal.openStore_some (content : j.file = some bytes)
    (read : readSnapshot path bytes = .ok disk) (verified : verifyDisk disk = .ok ()) :
    j.openStore path io = (.ok (), { j with store := some { disk, poisoned := false } }) := by
  have loaded : loadSnapshot path bytes = .ok disk := by simp [loadSnapshot, read, verified]
  simp only [openStore, content, loaded]

theorem Journal.openStore_none (content : j.file = none) : (j.openStore path io).2 = noJournal ∨
      ∃ bytes, encodeSnapshot emptySnapshot = .ok bytes ∧
        (j.openStore path io).2.file = some bytes ∧
        ∀ s, (j.openStore path io).2.store = some s → s.disk = emptySnapshot := by
  simp only [openStore, content, verifyDisk_empty]
  have outcome := persistSnapshot_cases io emptySnapshot none
  generalize persistSnapshot io emptySnapshot none = written at outcome
  obtain ⟨answer, file⟩ := written
  cases answer with
  | error e =>
    cases outcome with
    | inl unchanged =>
      cases unchanged.2
      exact .inl rfl
    | inr replaced =>
      obtain ⟨bytes, encoded, now⟩ := replaced
      exact .inr ⟨bytes, encoded, now, fun s same => by cases same⟩
  | ok _ =>
    cases outcome with
    | inl unchanged => exact absurd rfl unchanged.1
    | inr replaced =>
      obtain ⟨bytes, encoded, now⟩ := replaced
      refine .inr ⟨bytes, encoded, now, fun s same => ?_⟩
      cases same
      rfl

theorem noJournal_sound (path : String) : noJournal.Sound path where
  file _ found := by cases found
  store _ found := by cases found

/-- Opening the journal keeps it sound and writes nothing over a snapshot. -/
theorem Journal.openStore_sound (sound : j.Sound path) : (j.openStore path io).2.Sound path ∧
      ∀ disk, Persisted path j disk → Persisted path (j.openStore path io).2 disk := by
  cases content : j.file with
  | some bytes =>
    obtain ⟨disk, read, kept⟩ := sound.file bytes content
    rw [openStore_some content read kept.verified]
    refine ⟨⟨sound.file, fun s same _ => ?_⟩, fun _ held => held⟩
    cases same
    exact ⟨bytes, content, read⟩
  | none =>
    have absent (disk : PayoutSnapshot) (held : Persisted path j disk) : False := by
      obtain ⟨bytes, found, -⟩ := held
      cases content.symm.trans found
    refine ⟨?_, fun disk held => (absent disk held).elim⟩
    obtain still | ⟨bytes, encoded, now, answers⟩ := openStore_none content
    · rw [still]
      exact noJournal_sound path
    · have read : readSnapshot path bytes = .ok emptySnapshot :=
        readSnapshot_encodeSnapshot encoded
      refine ⟨fun bytes' found => ?_, fun s same _ =>
        ⟨bytes, now, by rw [answers s same, read]⟩⟩
      cases now.symm.trans found
      exact ⟨emptySnapshot, read, kept_empty⟩

/-- One step keeps the journal sound and moves its snapshot at most once. -/
theorem Step.sound {act : Act} (step : Step path j act j') (sound : j.Sound path) :
    j'.Sound path ∧ ∀ disk, Persisted path j disk →
      ∃ disk', Persisted path j' disk' ∧ (disk' = disk ∨ Moves disk disk') := by
  cases step with
  | operation => exact Operation.run_sound sound
  | reopen =>
    obtain ⟨sound', same⟩ := Journal.openStore_sound sound
    exact ⟨sound', fun disk held => ⟨disk, same disk held, .inl rfl⟩⟩

theorem Run.sound (run : Run path acts j) : j.Sound path :=
  run.invariant (fun _ _ _ sound step => (step.sound sound).1) (noJournal_sound path)

theorem Journal.Sound.kept (sound : j.Sound path) (held : Persisted path j disk) : Kept disk := by
  obtain ⟨bytes, content, read⟩ := held
  obtain ⟨disk', read', kept⟩ := sound.file bytes content
  cases read.symm.trans read'
  exact kept

/-! ## What lasts -/

/-- The nullifier is in the ledger and its candidate gone. -/
def Retired (n : Bytes32) (disk : PayoutSnapshot) : Prop :=
  n ∈ disk.completedNullifiers ∧ ∀ a, disk.active = some a → a.nullifier ≠ n

/-- The active candidate of this nullifier has the property, or the nullifier is retired. -/
def Lasting (P : PartialWithdrawalCandidate → Prop) (n : Bytes32)
    (disk : PayoutSnapshot) : Prop :=
  (∃ a, disk.active = some a ∧ a.nullifier = n ∧ P a) ∨ Retired n disk

/-- What later phases keep of a candidate lasts. -/
theorem Moves.lasting (kept : ∀ a a', Advances a a' → P a → P a') {n : Bytes32}
    (moves : Moves disk disk') (verified : verifyDisk disk = .ok ()) (lasting : Lasting P n disk) :
    Lasting P n disk' := by
  cases moves with
  | @advance a a' _ found advances grown _ =>
    cases lasting with
    | inl here =>
      obtain ⟨b, active, own, has⟩ := here
      cases found.symm.trans active
      exact .inl ⟨a', rfl, advances.nullifier.trans own, kept a a' advances has⟩
    | inr retired =>
      refine .inr ⟨grown retired.1, ?_⟩
      rintro _ ⟨⟩
      rw [advances.nullifier]
      exact retired.2 a found
  | @replace a' finished unused _ =>
    -- The candidate that leaves was complete, so its nullifier is in the ledger.
    have listed : n ∈ disk.completedNullifiers := by
      cases lasting with
      | inl here =>
        obtain ⟨b, active, rfl, -⟩ := here
        exact verifyDisk_completed verified active (finished b active)
      | inr retired => exact retired.1
    refine .inr ⟨listed, ?_⟩
    rintro _ ⟨⟩ rfl
    exact unused listed

/-- A snapshot is followed on disk by what its moves lead to. -/
theorem persisted_of_path (more : Path (Step path) j acts j') (sound : j.Sound path)
    {I : PayoutSnapshot → Prop}
    (keep : ∀ disk disk', Kept disk → Moves disk disk' → I disk → I disk')
    (held : Persisted path j disk) (start : I disk) :
    j'.Sound path ∧ ∃ disk', Persisted path j' disk' ∧ I disk' := by
  refine more.invariant (I := fun j' => j'.Sound path ∧ ∃ disk',
    Persisted path j' disk' ∧ I disk') ?_ ⟨sound, disk, held, start⟩
  rintro j₁ act j₂ ⟨sound₁, disk₁, held₁, has⟩ step
  obtain ⟨sound₂, moved⟩ := step.sound sound₁
  obtain ⟨disk₂, held₂, rfl | moves⟩ := moved disk₁ held₁
  · exact ⟨sound₂, _, held₂, has⟩
  · exact ⟨sound₂, disk₂, held₂, keep _ _ (sound₁.kept held₁) moves has⟩

/-- What later phases keep of a candidate, every later snapshot has of the candidate of the same
    nullifier. -/
theorem lasting_of_path (more : Path (Step path) j acts j') (sound : j.Sound path)
    (kept : ∀ a a', Advances a a' → P a → P a') {a a' : PartialWithdrawalCandidate}
    (held : Persisted path j disk) (active : disk.active = some a) (has : P a)
    (held' : Persisted path j' disk') (active' : disk'.active = some a')
    (same : a'.nullifier = a.nullifier) : P a' := by
  obtain ⟨-, last, lastHeld, lasting⟩ := persisted_of_path more sound
    (I := Lasting P a.nullifier)
    (fun _ _ kept' moves => moves.lasting kept kept'.verified) held (.inl ⟨a, active, rfl, has⟩)
  cases held'.unique lastHeld
  cases lasting with
  | inl here =>
    obtain ⟨b, found, -, has'⟩ := here
    cases active'.symm.trans found
    exact has'
  | inr retired => exact absurd same (retired.2 a' active')

/-- A completed nullifier stays in the ledger. -/
theorem completed_of_path (more : Path (Step path) j acts j') (sound : j.Sound path)
    (held : Persisted path j disk) (held' : Persisted path j' disk') :
    disk.completedNullifiers ⊆ disk'.completedNullifiers := by
  intro n listed
  obtain ⟨-, last, lastHeld, listed'⟩ := persisted_of_path more sound (I := fun disk => n ∈
    disk.completedNullifiers) (fun _ _ _ moves had => moves.grown had) held listed
  cases held'.unique lastHeld
  exact listed'

/-- No request with a completed nullifier changes the journal. -/
theorem prepare_completed {request : PreparePartialWithdrawalPayout}
    (listed : request.nullifier ∈ store.disk.completedNullifiers) :
    ((Operation.prepare request).run io store file).2 = { file, store := some store } := by
  unfold Operation.run
  cases wanted : (do store.ensureHealthy; (Operation.prepare request).want store.disk :
      PResult Wanted) with
  | error e => rfl
  | ok w =>
    cases w with
    | answer c => rfl
    | write next c =>
      simp [Operation.want, wantPrepare] at wanted
      obtain ⟨-, -, id, -, wanted⟩ := wanted
      split at wanted
      · simp [listed] at wanted
      · split at wanted
        · simp at wanted
        · simp [listed] at wanted

/-! ## The journal is never reused and always reopens -/

/-- What the second of two snapshots, one persisted before the other, keeps of the first. -/
structure Continues (disk disk' : PayoutSnapshot) : Prop where
  payoutIntent : ∀ a a' intent, disk.active = some a → disk'.active = some a' →
    a'.nullifier = a.nullifier → a.payoutBroadcast = some intent →
    a'.payoutBroadcast = some intent
  pullIntent : ∀ a a' intent, disk.active = some a → disk'.active = some a' →
    a'.nullifier = a.nullifier → a.pullBroadcast = some intent → a'.pullBroadcast = some intent
  completed : ∀ n ∈ disk.completedNullifiers, n ∈ disk'.completedNullifiers ∧
    ∀ a', disk'.active = some a' → a'.nullifier = n → a'.isComplete = true

/-- What holds of two snapshots between which one step lies. -/
structure StepsTo (disk disk' : PayoutSnapshot) : Prop where
  inFlight : ∀ a, disk.active = some a → a.isComplete = false →
    ∃ a', disk'.active = some a' ∧ a'.candidateId = a.candidateId ∧
    a'.toPreparePartialWithdrawalPayout = a.toPreparePartialWithdrawalPayout
  pullAfterPayout : ∀ a', disk'.active = some a' → a'.pullBroadcast.isSome = true →
    ∃ a, disk.active = some a ∧ a.nullifier = a'.nullifier ∧
    a.payoutConfirmation.isSome = true

theorem Moves.stepsTo (moves : Moves disk disk') (verified : verifyDisk disk = .ok ()) :
    StepsTo disk disk' := by
  cases moves with
  | @advance a a' _ found advances _ _ =>
    constructor
    · intro b active _
      cases found.symm.trans active
      exact ⟨a', rfl, advances.candidateId, advances.request⟩
    · rintro _ ⟨⟩ pulling
      refine ⟨a, found, advances.nullifier.symm, ?_⟩
      cases before : a.pullBroadcast with
      | none => exact advances.confirmedFirst before pulling
      | some intent =>
        obtain ⟨c, confirmed, -⟩ := verifyDisk_pull verified found (by rw [before]; rfl)
        rw [confirmed, isSome_some]
  | @replace a' finished _ fresh =>
    constructor
    · intro b active incomplete
      rw [finished b active] at incomplete
      cases incomplete
    · rintro _ ⟨⟩ pulling
      rw [fresh] at pulling
      cases pulling

theorem stepsTo_refl (verified : verifyDisk disk = .ok ()) :
    StepsTo disk disk where
  inFlight a active _ := ⟨a, active, rfl, rfl⟩
  pullAfterPayout a active pulling := by
    obtain ⟨c, confirmed, -⟩ := verifyDisk_pull verified active pulling
    exact ⟨a, active, rfl, by rw [confirmed, isSome_some]⟩

/-- At two points of a run of the journal, the first not after the second: what was persisted
    passes its check and opens; the snapshots continue each other, over one step with the candidate
    in flight kept; a pull intent stands next to a matching confirmation and no hand-off; a
    completed nullifier is not prepared again; and a payout is only broadcast when no intent for it
    was persisted before. -/
theorem payout_journal_never_reused {path : String} {acts acts' : List Act} {j j' : Journal}
    (run : Run path acts j) (more : Path (Step path) j acts' j') :
    (∀ bytes, j.file = some bytes → ∃ disk, readSnapshot path bytes = .ok disk ∧
      verifyDisk disk = .ok () ∧ ∀ io, (j.openStore path io).1 = .ok ()) ∧
    (∀ disk, Persisted path j disk → ∃ disk', Persisted path j' disk' ∧
      Continues disk disk') ∧
    (∀ act j₁ disk, Step path j act j₁ → Persisted path j disk →
      ∃ disk₁, Persisted path j₁ disk₁ ∧ StepsTo disk disk₁) ∧
    (∀ disk a, Persisted path j disk → disk.active = some a →
      a.pullBroadcast.isSome = true → ∃ c, a.payoutConfirmation = some c ∧
        validatePayoutConfirmation a c = .ok () ∧ a.recipientPullDelegated = false) ∧
    (∀ store request io, j.store = some store →
      request.nullifier ∈ store.disk.completedNullifiers →
      ((Operation.prepare request).run io store j.file).2 = j) ∧
    (∀ store a state, j'.store = some store → store.getActive = .ok (some a) →
      partialWithdrawalResumeAction a state = .ok .broadcastPayout →
      ∀ disk a₀, Persisted path j disk → disk.active = some a₀ →
        a₀.nullifier = a.nullifier → a₀.payoutBroadcast = none) := by
  have sound : j.Sound path := Run.sound run
  refine ⟨?_, ?_, ?_, ?_, ?_, ?_⟩
  · intro bytes content
    obtain ⟨disk, read, kept⟩ := sound.file bytes content
    refine ⟨disk, read, kept.verified, fun io => ?_⟩
    rw [Journal.openStore_some content read kept.verified]
  · intro disk held
    obtain ⟨sound', disk', held', -⟩ := persisted_of_path more sound (I := fun _ => True)
      (fun _ _ _ _ _ => trivial) held trivial
    refine ⟨disk', held', ?_, ?_, ?_⟩
    · intro a a' intent active active' same has
      exact lasting_of_path more sound (P := fun a => a.payoutBroadcast = some intent)
        (fun _ _ advances => advances.payout intent) held active has held' active' same
    · intro a a' intent active active' same has
      exact lasting_of_path more sound (P := fun a => a.pullBroadcast = some intent)
        (fun _ _ advances => advances.pull intent) held active has held' active' same
    · intro n listed
      have listed' := completed_of_path more sound held held' listed
      refine ⟨listed', fun a' active' own => ?_⟩
      exact (sound'.kept held').ledger a' active' (own ▸ listed')
  · intro act j₁ disk step held
    have verified := (sound.kept held).verified
    obtain ⟨disk₁, held₁, rfl | moves⟩ := (step.sound sound).2 disk held
    · exact ⟨_, held₁, stepsTo_refl verified⟩
    · exact ⟨disk₁, held₁, moves.stepsTo verified⟩
  · intro disk a held active pulling
    exact verifyDisk_pull (sound.kept held).verified active pulling
  · intro store request io open' listed
    rw [prepare_completed listed, ← open']
  · intro store a state open' answered broadcast disk a₀ held active own
    simp [PartialWithdrawalPayoutStore.getActive, PartialWithdrawalPayoutStore.ensureHealthy]
      at answered
    obtain ⟨healthy, active'⟩ := answered
    have sound' : j'.Sound path := Run.sound (Transition.Path.trans run more)
    cases intended : a₀.payoutBroadcast with
    | none => rfl
    | some intent =>
      have has := lasting_of_path more sound (P := fun a => a.payoutBroadcast = some intent)
        (fun _ _ advances => advances.payout intent) held active intended
        (sound'.store store open' healthy) active' own.symm
      rw [partialWithdrawalResumeAction_broadcast broadcast] at has
      cases has

/-- A call, where it can be made. -/
def Act.perform (path : String) (act : Act) (j : Journal) : Option (Act × Journal) :=
  match act, j with
  | .operation op io, ⟨file, some store⟩ => some (.operation op io, (op.run io store file).2)
  | .operation _ _, ⟨_, none⟩ => none
  | .reopen io, j => some (.reopen io, (j.openStore path io).2)

theorem Act.perform_step (act : Act) (j : Journal) (l : Act) (j' : Journal)
    (done : act.perform path j = some (l, j')) : Step path j l j' := by
  cases act with
  | operation op io =>
    obtain ⟨file, store⟩ := j
    cases store with
    | none => cases done
    | some store =>
      cases done
      exact .operation
  | reopen io =>
    cases done
    exact .reopen

end

/-! ### A journal with a payout under way -/

def sampleAnchor : BlockProducerAnchor :=
  { generation := 2, entryHash := 5, blockNumber := 9, timestamp := 60
    extendedStateCommitment := 0x9e, bpSigChain := 6 }

/-- A word as JSON text. -/
def hexText (zeros : Nat) (digits : String) : String :=
  "\"0x" ++ String.ofList (List.replicate zeros '0') ++ digits ++ "\""

/-- The payout of the sample, as its prover writes it. -/
def samplePayoutText : String :=
  "\x7b\"withdrawals\":[\x7b\"recipient\":" ++ hexText 38 "a1" ++
    ",\"token_index\":0,\"amount\":\"5\",\"nullifier\":" ++ hexText 62 "fe" ++
    ",\"aux_data\":" ++ hexText 62 "ad" ++ "\x7d],\"withdrawal_prover\":" ++ hexText 38 "b2" ++
    ",\"block_number\":9,\"ext_commitment\":" ++ hexText 62 "9e" ++ "\x7d"

/-- An MLE artefact without fields. -/
def sampleMleText : String := "\x7b\x7d"

def sampleRequest : PreparePartialWithdrawalPayout :=
  { chainId := 31337
    rollup := 0x1000
    channelId := 7
    signedHeadDigest := 0x77
    burnBaseNonce := 3
    producerReceipt :=
      { requestId := "burn", generation := 1, entryHash := 4, blockNumber := 8, timestamp := 50
        extendedStateCommitment := 0x50, bpSigChain := 6 }
    artifacts :=
      { withdrawal := { recipient := 0xa1, tokenIndex := 0, amount := 5, nullifier := 0xfe
                        auxData := 0xad }
        withdrawalProver := 0xb2
        payoutJson := samplePayoutText
        withdrawalMleJson := sampleMleText
        producerAnchor := sampleAnchor
        metrics := { singleWithdrawalProofBytes := 1, withdrawalChainProofBytes := 1
                     withdrawalFinalProofBytes := 1, mleJsonBytes := 2 } } }

def samplePayoutJson : PayoutJson :=
  { withdrawals := [{ recipient := 0xa1, tokenIndex := 0, amount := 5, nullifier := 0xfe
                      auxData := 0xad }]
    withdrawalProver := 0xb2
    blockNumber := 9
    extCommitment := 0x9e }

def sampleIntent : BroadcastIntent :=
  { caller := 0xc3, startBlock := 100, callerNonce := 0, calldataHash := 0xcd, creditBefore := 0 }

/-- The candidate of the request. -/
def sampleCandidate : PartialWithdrawalCandidate :=
  { sampleRequest with candidateId := evmKeccak.keccak256 [], lane := .native }

/-- The snapshots of the run, in its order. -/
def sampleSnapshots : List PayoutSnapshot :=
  [emptySnapshot, { emptySnapshot with active := some sampleCandidate },
    { emptySnapshot with
      active := some { sampleCandidate with payoutBroadcast := some sampleIntent } }]

/-- A library that reads the two texts of the sample and writes these snapshots as their number. -/
@[reducible] def sampleSerde : Serde where
  parsePayout text := if text = samplePayoutText then .ok samplePayoutJson else .error "no payout"
  isObject text := if text = sampleMleText then .ok true else .error "no value"
  identityToVec _ := .ok []
  snapshotToVec disk :=
    if disk ∈ sampleSnapshots then .ok [UInt8.ofNat (sampleSnapshots.idxOf disk)]
    else .error "not in the list"
  snapshotFromSlice payload :=
    match sampleSnapshots[(payload.headD 0).toNat]? with
    | some disk => .ok disk
    | none => .error "not in the list"
  fromSlice_toVec := by
    intro disk payload written
    split at written
    case isTrue listed =>
      cases written
      have all : ∀ disk ∈ sampleSnapshots,
          sampleSnapshots[(UInt8.ofNat (sampleSnapshots.idxOf disk)).toNat]? = some disk := by
        decide +kernel
      simp only [List.headD_cons, all disk listed]
    case isFalse => cases written

/-- Open, prepare, and journal the payout that is about to be sent. -/
def sampleActs : List Act :=
  [.reopen .done, .operation (.prepare sampleRequest) .done,
    .operation (.markPayoutBroadcast (evmKeccak.keccak256 []) sampleIntent) .done]

/-- The intent is in the store and a snapshot on disk. -/
def sampleIntended (run : List Act × Journal) : Bool :=
  run.2.file.isSome && run.2.store.any fun store =>
    decide (store.disk.active = some { sampleCandidate with payoutBroadcast := some sampleIntent })

theorem payout_journal_never_reused_sample :
    letI : Keccak := evmKeccak
    letI : Serde := sampleSerde
    ∃ acts j store bytes, Run "payout" acts j ∧ j.store = some store ∧
      store.disk.active = some { sampleCandidate with payoutBroadcast := some sampleIntent } ∧
      j.file = some bytes ∧ ∃ disk, readSnapshot "payout" bytes = .ok disk ∧
        verifyDisk disk = .ok () ∧ ∀ io, (j.openStore "payout" io).1 = .ok () := by
  let _ : Keccak := evmKeccak
  let _ : Serde := sampleSerde
  obtain ⟨acts, j, run, intended⟩ := runAll_any Act.perform_step
    (show (runAll (Act.perform "payout") sampleActs noJournal).any sampleIntended = true by
      decide +kernel)
  simp [sampleIntended, Option.any_eq_true, Option.isSome_iff_exists] at intended
  obtain ⟨⟨bytes, content⟩, store, opened, active⟩ := intended
  exact ⟨acts, j, store, bytes, run, opened, active, content,
    (payout_journal_never_reused run .nil).1 bytes content⟩

end Intmax.Payout
