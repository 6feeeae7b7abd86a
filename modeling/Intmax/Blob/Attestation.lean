import Intmax.Lib.Words
import Intmax.Blob.Agreement
import Intmax.Blob.Evaluation

/-! # The attestation journal of `BlobKZGVerifierExt`

Anyone may attest the bytes of a posted proof: the contract fills the blobs again, derives the
Fiat-Shamir point, evaluates the blob there and has the point-evaluation precompile check the
value against the sidecar's commitment.  A journal entry is kept under the rollup, the submission
id and the submission's commitment.

The precompile is taken to accept the derived point only for the polynomial a versioned hash
commits to, and `keccak256` to have no collision among the strings that are hashed.  A commitment
then opens to one byte string.
-/

namespace Intmax.Blob

open Checked BigEndian Function List

/-! ## The contract -/

/-- The precompiles at `0x02` and `0x0a`.  `none` is a failed call. -/
class Precompiles where
  sha256 : Bytes → Bytes32
  pointEvaluation : Bytes → Option Bytes

export Precompiles (sha256)

/-- `CHALLENGE_PREFIX`: `FSBLOBVERIFY_V1_` and the number of elements. -/
def challengePrefix : Bytes32 := 0x4653424c4f425645524946595f56315f00000000000000000000000000001000

/-- A short ASCII string. -/
def ascii (text : String) : Bytes := text.toList.map fun c => UInt8.ofNat c.toNat

/-- What the caller supplies: the proof, the calldata behind it, and the sidecars. -/
structure Evidence where
  proofBytes : Bytes
  behind : Bytes
  sidecars : Bytes
  deriving DecidableEq, Repr

@[ext]
structure BlobHashes where
  blobHash0 : Bytes32
  blobHash1 : Bytes32
  blobCount : Nat
  deriving DecidableEq, Repr

section Contract

variable [Precompiles]

/-- The buffer `prefix || blob || commitment`. -/
def challengeInput (blob : Nat → BitVec 256) (commitment : Bytes) : Bytes :=
  packBytes32 challengePrefix ++
    ((List.range fieldElementsPerBlob).map blob).flatMap packBytes32 ++ commitment

/-- The Fiat-Shamir point. -/
def challenge (blob : Nat → BitVec 256) (commitment : Bytes) : Nat :=
  (sha256 (challengeInput blob commitment)).toNat % blsModulus

def versionedHash (commitment : Bytes) : Bytes32 :=
  (sha256 commitment &&& (BitVec.allOnes 256 >>> 8)) ||| (1 <<< 248)

def pointEvaluation (blobIndex : Nat) (hash : Bytes32) (z y : Nat) (commitment proof : Bytes) :
    Except BlobRevert Unit := do
  let input := packBytes32 hash ++ packBytes32 (BitVec.ofNat 256 z) ++
    packBytes32 (BitVec.ofNat 256 y) ++ commitment ++ proof
  let output ← getOrRevert (Precompiles.pointEvaluation input) (.pointEvaluationFailed blobIndex)
  revertIf (output.length ≠ 64) (.pointEvaluationFailed blobIndex)
  revertIf (decode (output.take 32) ≠ fieldElementsPerBlob ∨
    decode (output.drop 32) ≠ blsModulus) (.invalidPointEvaluationResult blobIndex)

namespace Evidence

def blob (e : Evidence) (blobIndex : Nat) : Nat → BitVec 256 :=
  fillSimpleCoderBlob e.proofBytes e.behind blobIndex

/-- `sidecars[offset:offset + 48]`. -/
def commitment (e : Evidence) (blobIndex : Nat) : Bytes :=
  (e.sidecars.drop (blobIndex * 96)).take 48

/-- `sidecars[offset + 48:offset + 96]`. -/
def proof (e : Evidence) (blobIndex : Nat) : Bytes :=
  (e.sidecars.drop (blobIndex * 96 + 48)).take 48

def verifyBlob (e : Evidence) (blobIndex : Nat) : Except BlobRevert Bytes32 := do
  let z := challenge (e.blob blobIndex) (e.commitment blobIndex)
  let y := evaluateBlob (e.blob blobIndex) z
  let hash := versionedHash (e.commitment blobIndex)
  pointEvaluation blobIndex hash z y (e.commitment blobIndex) (e.proof blobIndex)
  pure hash

def verify (e : Evidence) : Except BlobRevert BlobHashes := do
  let count ← blobCount e.proofBytes.length
  let expected := count * 96
  revertIf (e.sidecars.length ≠ expected) (.sidecarLengthMismatch expected e.sidecars.length)
  let blobHash0 ← e.verifyBlob 0
  let blobHash1 ← (if count = 2 then e.verifyBlob 1 else pure 0 : Except BlobRevert Bytes32)
  pure ⟨blobHash0, blobHash1, count⟩

end Evidence

variable [Keccak]

def proofDaDomain : Bytes32 := keccak256 (ascii "INTMAX3_PROOF_DA_V3")
def proofAttestationDomain : Bytes32 := keccak256 (ascii "INTMAX3_PROOF_ATTESTATION_V1")

def commitmentPreimage (hashes : BlobHashes) (stateRoot : Bytes32) (submittedAtBlock : BitVec 64)
    (submissionId : BitVec 256) : Bytes :=
  packBytes32 proofDaDomain ++ packBytes32 hashes.blobHash0 ++ packBytes32 hashes.blobHash1 ++
    packBytes32 (BitVec.ofNat 256 hashes.blobCount) ++ packBytes32 stateRoot ++
    padLeft32 (packUint64 submittedAtBlock) ++ packBytes32 submissionId

/-- `_postedBlobMetadata`, with the `BLOBHASH` of the transaction. -/
def postedBlobMetadata (blobhash : Nat → Bytes32) : Except BlobRevert BlobHashes := do
  revertIf (blobhash 0 = 0) (.missingBlob 0)
  if blobhash 1 = 0 then pure ⟨blobhash 0, 0, 1⟩
  else
    revertIf (blobhash 2 ≠ 0) (.extraBlob 2)
    pure ⟨blobhash 0, blobhash 1, 2⟩

/-- What the rollup stores as the commitment of a submission. -/
def postCommitment (blobhash : Nat → Bytes32) (stateRoot : Bytes32) (submittedAtBlock : BitVec 64)
    (submissionId : BitVec 256) : Except BlobRevert Bytes32 := do
  let hashes ← postedBlobMetadata blobhash
  pure (keccak256 (commitmentPreimage hashes stateRoot submittedAtBlock submissionId))

def Evidence.verifyAndCommit (e : Evidence) (stateRoot : Bytes32) (submittedAtBlock : BitVec 64)
    (submissionId : BitVec 256) : Except BlobRevert Bytes32 := do
  let hashes ← e.verify
  pure (keccak256 (commitmentPreimage hashes stateRoot submittedAtBlock submissionId))

def digestPreimage (proofHash : Bytes32) (proofLength : BitVec 256) : Bytes :=
  packBytes32 proofAttestationDomain ++ packBytes32 proofHash ++ packBytes32 proofLength

def proofDigest (proofHash : Bytes32) (proofLength : BitVec 256) : Bytes32 :=
  keccak256 (digestPreimage proofHash proofLength)

def keyPreimage (rollup : Address) (submissionId : BitVec 256) (submissionCommitment : Bytes32) :
    Bytes :=
  padLeft32 (packAddress rollup) ++ packBytes32 submissionId ++ packBytes32 submissionCommitment

/-- What `attestProofData` reads of the rollup's `SubmissionView`. -/
structure SubmissionView where
  commitment : Bytes32
  finalized : Bool
  submittedAtBlock : BitVec 64
  stateRoot : Bytes32
  deriving DecidableEq, Repr

/-- The word at position `i` of an answer. -/
def answerWord (context : Bytes) (i : Nat) : Nat :=
  decode (window context (32 * i) 32)

/-- `abi.decode(context, (bytes32, address, bool, uint64, bytes32))`. -/
def decodeSubmission (context : Bytes) : Except BlobRevert SubmissionView := do
  revertIf (2 ^ 160 ≤ answerWord context 1) .malformedContext
  revertIf (2 ≤ answerWord context 2) .malformedContext
  revertIf (2 ^ 64 ≤ answerWord context 3) .malformedContext
  pure
    { commitment := BitVec.ofNat 256 (answerWord context 0)
      finalized := answerWord context 2 = 1
      submittedAtBlock := BitVec.ofNat 64 (answerWord context 3)
      stateRoot := BitVec.ofNat 256 (answerWord context 4) }

/-- A call of `attestProofData`, with what the rollup answers to `getSubmission` during it. -/
structure Attest where
  rollup : Address
  submissionId : BitVec 256
  evidence : Evidence
  context : Option Bytes
  deriving DecidableEq, Repr

/-- `attestProofData` up to the journal: the submission the evidence opens. -/
def Attest.submission (call : Attest) : Except BlobRevert SubmissionView := do
  let context ← getOrRevert call.context .invalidRollupContext
  revertIf (context.length ≠ 160) .invalidRollupContext
  let sub ← decodeSubmission context
  revertIf (sub.commitment = 0 ∨ sub.finalized = true) .submissionUnavailable
  let opened ← call.evidence.verifyAndCommit sub.stateRoot sub.submittedAtBlock call.submissionId
  revertIf (opened ≠ sub.commitment) .submissionCommitmentMismatch
  pure sub

/-- `_attestedProofData`. -/
abbrev Journal := Bytes32 → Bytes32

def Attest.digest (call : Attest) : Bytes32 :=
  proofDigest (keccak256 call.evidence.proofBytes)
    (BitVec.ofNat 256 call.evidence.proofBytes.length)

/-- The journal's key of the submission. -/
def Attest.key (call : Attest) (sub : SubmissionView) : Bytes32 :=
  keccak256 (keyPreimage call.rollup call.submissionId sub.commitment)

def attestProofData (call : Attest) (journal : Journal) :
    Except BlobRevert (Bytes32 × Journal) := do
  let sub ← call.submission
  let prior := journal (call.key sub)
  revertIf (prior ≠ 0 ∧ prior ≠ call.digest) .conflictingAttestation
  pure (call.digest, Function.update journal (call.key sub) call.digest)

/-- `isProofDataAttested`, called by `sender`. -/
def isProofDataAttested (journal : Journal) (sender : Address) (submissionId : BitVec 256)
    (submissionCommitment proofHash : Bytes32) (proofLength : BitVec 256) : Bool :=
  journal (keccak256 (keyPreimage sender submissionId submissionCommitment)) =
    proofDigest proofHash proofLength

/-- The journal after one call.  A call that reverts leaves no trace. -/
def Journal.apply (journal : Journal) (call : Attest) : Journal :=
  match attestProofData call journal with
  | .ok (_, journal') => journal'
  | .error _ => journal

/-- The journal after a sequence of calls. -/
def journalAfter (calls : List Attest) : Journal := calls.foldl Journal.apply fun _ => 0

end Contract

/-! ## The blobs a versioned hash commits to -/

variable {k : Nat} {blob blob' : Nat → BitVec 256}

theorem Evidence.element_lt {e : Evidence} (fits : e.proofBytes.length ≤ twoBlobCapacity)
    (blobIndex : Nat) (inside : k < fieldElementsPerBlob) :
    (e.blob blobIndex k).toNat < blsModulus := by
  rw [Evidence.blob, fillSimpleCoderBlob_apply _ _ _ inside, ofNat_element_toNat fits]
  exact (Blob.element_lt (short_of_fits fits) _).trans (by decide)

theorem Interpolates.blob_eq {p : Polynomial Scalar} (interpolates : Interpolates blob p)
    (interpolates' : Interpolates blob' p) (inside : k < fieldElementsPerBlob)
    (small : (blob k).toNat < blsModulus) (small' : (blob' k).toNat < blsModulus) :
    blob k = blob' k := by
  have same : ((blob k).toNat : Scalar) = ((blob' k).toNat : Scalar) := by
    rw [← interpolates.values k inside, ← interpolates'.values k inside]
  have residues := (ZMod.natCast_eq_natCast_iff' _ _ blsModulus).mp same
  rw [Nat.mod_eq_of_lt small, Nat.mod_eq_of_lt small'] at residues
  exact BitVec.eq_of_toNat_eq residues

theorem blobCount_ok {proofLength count : Nat} (h : blobCount proofLength = .ok count) :
    proofLength ≤ twoBlobCapacity ∧ (count = 1 ∧ proofLength ≤ oneBlobCapacity ∨
      count = 2) := by
  simp [blobCount, reduceCtorEq] at h
  have less : oneBlobCapacity ≤ twoBlobCapacity := by decide
  obtain ⟨-, ⟨one, rfl⟩ | ⟨-, two, rfl⟩⟩ := h
  · exact ⟨one.trans less, .inl ⟨rfl, one⟩⟩
  · exact ⟨two, .inr rfl⟩

section Binding

variable [Precompiles]

/-- The precompile accepts the derived point of a blob only if the blob's polynomial is the one
    the versioned hash commits to. -/
def PointBinding (committed : Bytes32 → Polynomial Scalar) : Prop :=
  ∀ (blob : Nat → BitVec 256) (p : Polynomial Scalar) (blobIndex y : Nat)
    (commitment proof : Bytes), commitment.length = 48 → proof.length = 48 →
    (∀ k < fieldElementsPerBlob, (blob k).toNat < blsModulus) → Interpolates blob p →
    y < blsModulus →
    (y : Scalar) = p.eval (challenge blob commitment : Scalar) →
    pointEvaluation blobIndex (versionedHash commitment) (challenge blob commitment) y commitment
      proof = .ok () →
    p = committed (versionedHash commitment)

variable {e : Evidence}

variable {blobIndex : Nat} {hash : Bytes32} {e' : Evidence} {hashes : BlobHashes}

/-- A verified blob has the polynomial its versioned hash commits to. -/
theorem Evidence.verifyBlob_binds {committed : Bytes32 → Polynomial Scalar}
    (binding : PointBinding committed) (fits : e.proofBytes.length ≤ twoBlobCapacity)
    (room : blobIndex * 96 + 96 ≤ e.sidecars.length)
    (verified : e.verifyBlob blobIndex = .ok hash) :
    Interpolates (e.blob blobIndex) (committed hash) := by
  simp [Evidence.verifyBlob] at verified
  obtain ⟨accepted, rfl⟩ := verified
  obtain ⟨p, interpolates, -⟩ := exists_interpolates (e.blob blobIndex)
  have point : challenge (e.blob blobIndex) (e.commitment blobIndex) < blsModulus :=
    Nat.mod_lt _ (by decide)
  have elements (k : Nat) (inside : k < fieldElementsPerBlob) :
      (e.blob blobIndex k).toNat < blsModulus := element_lt fits blobIndex inside
  obtain ⟨small, value, -⟩ := evaluateBlob_spec interpolates elements point
  have commitmentLength : (e.commitment blobIndex).length = 48 := by
    simp [Evidence.commitment]
    omega
  have proofLength : (e.proof blobIndex).length = 48 := by
    simp [Evidence.proof]
    omega
  rw [← binding _ p blobIndex _ _ _ commitmentLength proofLength elements interpolates small value
    accepted]
  exact interpolates

/-- Blobs verified under one versioned hash hold the same part of the proof. -/
theorem Evidence.verifyBlob_elements {committed : Bytes32 → Polynomial Scalar}
    (binding : PointBinding committed) (fits : e.proofBytes.length ≤ twoBlobCapacity)
    (fits' : e'.proofBytes.length ≤ twoBlobCapacity)
    (room : blobIndex * 96 + 96 ≤ e.sidecars.length)
    (room' : blobIndex * 96 + 96 ≤ e'.sidecars.length)
    (verified : e.verifyBlob blobIndex = .ok hash) (verified' : e'.verifyBlob blobIndex = .ok hash)
    {k : Nat} (inside : k < fieldElementsPerBlob) :
    element e.proofBytes (blobIndex * fieldElementsPerBlob + k) =
      element e'.proofBytes (blobIndex * fieldElementsPerBlob + k) := by
  have same := (verifyBlob_binds binding fits room verified).blob_eq (verifyBlob_binds binding fits'
    room' verified') inside (element_lt fits _ inside) (element_lt fits' _ inside)
  rw [Evidence.blob, Evidence.blob, fillSimpleCoderBlob_apply _ _ _ inside,
    fillSimpleCoderBlob_apply _ _ _ inside] at same
  rw [← ofNat_element_toNat fits, same, ofNat_element_toNat fits']

/-- The hashes of the blobs determine the proof. -/
theorem Evidence.verify_inj {committed : Bytes32 → Polynomial Scalar}
    (binding : PointBinding committed) (verified : e.verify = .ok hashes)
    (verified' : e'.verify = .ok hashes) : e.proofBytes = e'.proofBytes := by
  simp only [Evidence.verify, bind_ok, exists_unit, revertIf_ok, pure_ok,
    not_not] at verified verified'
  obtain ⟨count, counted, length, hash0, first, hash1, second, rfl⟩ := verified
  obtain ⟨count', counted', length', hash0', first', hash1', second', same⟩ := verified'
  cases same
  obtain ⟨fits, shape⟩ := blobCount_ok counted
  obtain ⟨fits', -⟩ := blobCount_ok counted'
  have front (k : Nat) (inside : k < fieldElementsPerBlob) :
      element e.proofBytes k = element e'.proofBytes k := by
    have same := verifyBlob_elements binding fits fits' (by omega) (by omega) first first' inside
    rwa [zero_mul, zero_add] at same
  cases shape with
  | inl one =>
    exact element_inj one.2 (by decide) front
  | inr two =>
    subst two
    have reach : e.proofBytes.length ≤ (2 * fieldElementsPerBlob - 1) * 31 := fits
    refine element_inj reach (by decide) fun g below => ?_
    by_cases inside : g < fieldElementsPerBlob
    · exact front g inside
    · -- the part behind the end of the first blob
      rw [if_pos rfl] at second second'
      have same := verifyBlob_elements binding fits fits' (by omega) (by omega) second second'
        (k := g - fieldElementsPerBlob) (by omega)
      rwa [one_mul, Nat.add_sub_cancel' (le_of_not_gt inside)] at same

theorem Evidence.verify_count (verified : e.verify = .ok hashes) : hashes.blobCount < 2 ^ 256 := by
  simp [Evidence.verify] at verified
  obtain ⟨count, counted, -, hash0, -, hash1, -, rfl⟩ := verified
  obtain ⟨-, shape⟩ := blobCount_ok counted
  have small : count ≤ 2 := by omega
  exact small.trans_lt (by decide)

theorem Evidence.verify_avoids (e : Evidence) : Avoids .conflictingAttestation e.verify := by
  have point (blobIndex : Nat) : Avoids .conflictingAttestation (e.verifyBlob blobIndex) := by
    simp [Evidence.verifyBlob, pointEvaluation]
  simp [Evidence.verify, blobCount, point]

end Binding

/-! ## What is hashed -/

variable {n : Nat} {rest rest' : Bytes}

theorem padLeft32_append_inj {x y : BitVec (8 * n)} (same : padLeft32 (ofBitVec n x) ++ rest =
      padLeft32 (ofBitVec n y) ++ rest') : x = y ∧ rest = rest' := by
  simp [padLeft32] at same
  exact append_inj_of_width same

theorem keyPreimage_inj {rollup rollup' : Address} {submissionId submissionId' : BitVec 256}
    {commitment commitment' : Bytes32}
    (same : keyPreimage rollup submissionId commitment =
      keyPreimage rollup' submissionId' commitment') :
    rollup = rollup' ∧ submissionId = submissionId' ∧ commitment = commitment' := by
  simp [keyPreimage, packBytes32, packAddress] at same
  obtain ⟨address, same⟩ := padLeft32_append_inj same
  obtain ⟨id, same⟩ := append_inj_of_width same
  exact ⟨address, id, ofBitVec_inj same⟩

theorem postedBlobMetadata_count {blobhash : Nat → Bytes32} {hashes : BlobHashes}
    (posted : postedBlobMetadata blobhash = .ok hashes) : hashes.blobCount < 2 ^ 256 := by
  simp [postedBlobMetadata] at posted
  obtain ⟨-, ⟨-, rfl⟩ | ⟨-, -, rfl⟩⟩ := posted
  · exact Nat.one_lt_two_pow (by decide)
  · exact (by decide : 2 < 2 ^ 256)

section Journal

variable [Keccak]

variable {stateRoot stateRoot' : Bytes32} {submittedAtBlock submittedAtBlock' : BitVec 64}
  {submissionId submissionId' : BitVec 256}

theorem commitmentPreimage_inj {hashes hashes' : BlobHashes} (small : hashes.blobCount < 2 ^ 256)
    (small' : hashes'.blobCount < 2 ^ 256)
    (same : commitmentPreimage hashes stateRoot submittedAtBlock submissionId =
      commitmentPreimage hashes' stateRoot' submittedAtBlock' submissionId') :
    hashes = hashes' ∧ stateRoot = stateRoot' ∧ submittedAtBlock = submittedAtBlock' ∧
      submissionId = submissionId' := by
  simp only [commitmentPreimage, append_assoc, packBytes32, packUint64] at same
  obtain ⟨-, same⟩ := append_inj_of_width same
  obtain ⟨hash0, same⟩ := append_inj_of_width same
  obtain ⟨hash1, same⟩ := append_inj_of_width same
  obtain ⟨count, same⟩ := append_inj_of_width same
  obtain ⟨root, same⟩ := append_inj_of_width same
  obtain ⟨block, same⟩ := padLeft32_append_inj same
  have counts := congrArg BitVec.toNat count
  rw [BitVec.toNat_ofNat, BitVec.toNat_ofNat, Nat.mod_eq_of_lt small, Nat.mod_eq_of_lt small']
    at counts
  exact ⟨BlobHashes.ext hash0 hash1 counts, root, block, ofBitVec_inj same⟩

theorem digestPreimage_inj {proofHash proofHash' : Bytes32} {proofLength proofLength' : BitVec 256}
    (same : digestPreimage proofHash proofLength = digestPreimage proofHash' proofLength') :
    proofHash = proofHash' ∧ proofLength = proofLength' := by
  simp only [digestPreimage, append_assoc, packBytes32] at same
  obtain ⟨-, same⟩ := append_inj_of_width same
  obtain ⟨hash, same⟩ := append_inj_of_width same
  exact ⟨hash, ofBitVec_inj same⟩

/-- The hash keeps these strings apart, from each other and from the empty entry. -/
structure HashesApart (strings : Set Bytes) : Prop where
  injOn : Set.InjOn keccak256 strings
  nonzero : ∀ x ∈ strings, keccak256 x ≠ 0

variable [Precompiles]

/-- The string `_verifyAndCommit` hashes. -/
def Evidence.hashed (e : Evidence) (stateRoot : Bytes32) (submittedAtBlock : BitVec 64)
    (submissionId : BitVec 256) : Set Bytes :=
  { x | ∃ hashes, e.verify = .ok hashes ∧
    x = commitmentPreimage hashes stateRoot submittedAtBlock submissionId }

/-- The strings a call hashes that reaches the journal. -/
def Attest.hashed (call : Attest) : Set Bytes :=
  { x | ∃ sub, call.submission = .ok sub ∧
    (x ∈ call.evidence.hashed sub.stateRoot sub.submittedAtBlock call.submissionId ∨
      x = call.evidence.proofBytes ∨
      x = digestPreimage (keccak256 call.evidence.proofBytes)
        (BitVec.ofNat 256 call.evidence.proofBytes.length) ∨
      x = keyPreimage call.rollup call.submissionId sub.commitment) }

/-- A commitment opens to one proof, and to one state root, block and submission id. -/
theorem Evidence.verifyAndCommit_inj {e e' : Evidence} {committed : Bytes32 → Polynomial Scalar}
    (binding : PointBinding committed) {commitment : Bytes32}
    (opened : e.verifyAndCommit stateRoot submittedAtBlock submissionId = .ok commitment)
    (opened' : e'.verifyAndCommit stateRoot' submittedAtBlock' submissionId' = .ok commitment)
    {strings : Set Bytes} (apart : HashesApart strings)
    (hashed : e.hashed stateRoot submittedAtBlock submissionId ⊆ strings)
    (hashed' : e'.hashed stateRoot' submittedAtBlock' submissionId' ⊆ strings) :
    e.proofBytes = e'.proofBytes ∧ stateRoot = stateRoot' ∧
      submittedAtBlock = submittedAtBlock' ∧ submissionId = submissionId' := by
  simp [Evidence.verifyAndCommit] at opened opened'
  obtain ⟨hashes, verified, rfl⟩ := opened
  obtain ⟨hashes', verified', same⟩ := opened'
  have member : commitmentPreimage hashes stateRoot submittedAtBlock submissionId ∈ strings :=
    hashed ⟨hashes, verified, rfl⟩
  have member' : commitmentPreimage hashes' stateRoot' submittedAtBlock' submissionId' ∈
      strings :=
    hashed' ⟨hashes', verified', rfl⟩
  obtain ⟨rfl, roots⟩ := commitmentPreimage_inj (verify_count verified') (verify_count verified)
    (apart.injOn member' member same)
  exact ⟨verify_inj binding verified verified', roots.1.symm, roots.2.1.symm, roots.2.2.symm⟩

/-! ## The journal -/

variable {call : Attest} {journal : Journal}

theorem attestProofData_ok_iff {journal' : Journal} {digest : Bytes32} :
    attestProofData call journal = .ok (digest, journal') ↔
      ∃ sub, call.submission = .ok sub ∧
        (journal (call.key sub) = 0 ∨ journal (call.key sub) = call.digest) ∧
        call.digest = digest ∧ update journal (call.key sub) call.digest = journal' := by
  simp only [attestProofData, bind_ok, exists_unit, revertIf_ok, pure_ok,
    Prod.mk.injEq, not_and_or, not_not]

/-- Nothing before the journal reverts with a conflict. -/
theorem Attest.submission_avoids (call : Attest) :
    Avoids .conflictingAttestation call.submission := by
  simp [Attest.submission, decodeSubmission, Evidence.verifyAndCommit, Evidence.verify_avoids]

theorem attestProofData_conflict
    (conflict : attestProofData call journal = .error .conflictingAttestation) :
    ∃ sub, call.submission = .ok sub ∧ journal (call.key sub) ≠ 0 ∧
      journal (call.key sub) ≠ call.digest := by
  simp only [attestProofData, bind_error, revertIf_error, pure_ne_error, and_false,
    exists_false, or_false] at conflict
  cases conflict with
  | inl early => exact absurd early call.submission_avoids
  | inr late =>
    obtain ⟨sub, opened, differs, -⟩ := late
    exact ⟨sub, opened, differs⟩

theorem Attest.submission_opens {sub : SubmissionView} (live : call.submission = .ok sub) :
    call.evidence.verifyAndCommit sub.stateRoot sub.submittedAtBlock call.submissionId =
      .ok sub.commitment := by
  simp only [Attest.submission, bind_ok, exists_unit, revertIf_ok, pure_ok, not_not] at live
  obtain ⟨context, -, -, view, -, -, opened, verified, rfl, rfl⟩ := live
  exact verified

/-- A call leaves the journal as it is, or fills one entry that is empty or holds the same. -/
theorem Journal.apply_cases (journal : Journal) (call : Attest) :
    journal.apply call = journal ∨ ∃ sub, call.submission = .ok sub ∧
      (journal (call.key sub) = 0 ∨ journal (call.key sub) = call.digest) ∧
      journal.apply call = update journal (call.key sub) call.digest := by
  rw [Journal.apply]
  split
  case h_1 digest journal' attested =>
    obtain ⟨sub, live, prior, -, rfl⟩ := attestProofData_ok_iff.mp attested
    exact .inr ⟨sub, live, prior, rfl⟩
  case h_2 => exact .inl rfl

/-- Every entry was made by a call for the submission of its key. -/
def Recorded (calls : List Attest) (journal : Journal) : Prop :=
  ∀ key, journal key = 0 ∨ ∃ call ∈ calls, ∃ sub, call.submission = .ok sub ∧
    call.key sub = key ∧ journal key = call.digest

theorem Recorded.apply {calls : List Attest} (recorded : Recorded calls journal) (call : Attest) :
    Recorded (calls ++ [call]) (journal.apply call) := by
  have older (key : Bytes32) : journal key = 0 ∨ ∃ call' ∈ calls ++ [call], ∃ sub,
      call'.submission = .ok sub ∧ call'.key sub = key ∧ journal key = call'.digest := by
    cases recorded key with
    | inl empty => exact .inl empty
    | inr made =>
      obtain ⟨call', member, rest⟩ := made
      exact .inr ⟨call', mem_append_left _ member, rest⟩
  intro key
  obtain same | ⟨sub, live, -, same⟩ := journal.apply_cases call
  · rw [same]
    exact older key
  · by_cases here : key = call.key sub
    · subst here
      refine .inr ⟨call, mem_append_right _ mem_cons_self, sub, live, rfl, ?_⟩
      rw [same, update_self]
    · rw [same, update_of_ne here]
      exact older key

theorem journalAfter_snoc (calls : List Attest) (call : Attest) :
    journalAfter (calls ++ [call]) = (journalAfter calls).apply call := by
  rw [journalAfter, foldl_append]
  rfl

theorem journalAfter_recorded (calls : List Attest) : Recorded calls (journalAfter calls) := by
  induction calls using reverseRecOn with
  | nil => exact fun _ => .inl rfl
  | append_singleton calls call ih =>
    rw [journalAfter_snoc]
    exact ih.apply call

/-- An entry that is made is never changed. -/
theorem journalAfter_kept {calls : List Attest} {key : Bytes32}
    (made : journalAfter calls key ≠ 0) (later : List Attest) :
    journalAfter (calls ++ later) key = journalAfter calls key := by
  induction later using reverseRecOn with
  | nil => rw [append_nil]
  | append_singleton later call ih =>
    rw [← append_assoc, journalAfter_snoc]
    obtain same | ⟨sub, -, prior, same⟩ := (journalAfter (calls ++ later)).apply_cases call
    · rw [same, ih]
    · rw [same]
      by_cases here : key = call.key sub
      · subst here
        rw [ih] at prior
        rw [update_self, prior.resolve_left made]
      · rw [update_of_ne here, ih]

/-! ## One byte string -/

section Bound

variable {committed : Bytes32 → Polynomial Scalar} {strings : Set Bytes}

variable {call : Attest} {sub : SubmissionView} {calls : List Attest}

/-- Calls that reach one entry of the journal bring the same proof. -/
theorem Attest.proofBytes_eq (binding : PointBinding committed) (apart : HashesApart strings)
    {call' : Attest} {sub' : SubmissionView} (hashed : call.hashed ⊆ strings)
    (hashed' : call'.hashed ⊆ strings) (live : call.submission = .ok sub)
    (live' : call'.submission = .ok sub') (same : call.key sub = call'.key sub') :
    call.evidence.proofBytes = call'.evidence.proofBytes := by
  have member := hashed ⟨sub, live, .inr (.inr (.inr rfl))⟩
  have member' := hashed' ⟨sub', live', .inr (.inr (.inr rfl))⟩
  obtain ⟨-, -, commitments⟩ := keyPreimage_inj (apart.injOn member member' same)
  have opened := call.submission_opens live
  rw [commitments] at opened
  exact (Evidence.verifyAndCommit_inj binding opened (call'.submission_opens live') apart
    (fun x inside => hashed ⟨sub, live, .inl inside⟩)
    fun x inside => hashed' ⟨sub', live', .inl inside⟩).1

theorem attestProofData_never_conflicts (binding : PointBinding committed)
    (apart : HashesApart strings) (hashed : ∀ c ∈ calls ++ [call], c.hashed ⊆ strings) :
    attestProofData call (journalAfter calls) ≠ .error .conflictingAttestation := by
  intro conflict
  obtain ⟨sub, live, made, differs⟩ := attestProofData_conflict conflict
  -- the entry was made by an earlier call with the same proof
  obtain ⟨earlier, member, sub', live', key, entry⟩ :=
    (journalAfter_recorded calls (call.key sub)).resolve_left made
  have same := Attest.proofBytes_eq binding apart (hashed earlier (mem_append_left _ member))
    (hashed call (mem_append_right _ mem_cons_self)) live' live key
  rw [entry, Attest.digest, Attest.digest, same] at differs
  exact differs rfl

/-- The data that opens a live submission is attested, whatever was called before. -/
theorem attestProofData_admits (binding : PointBinding committed) (apart : HashesApart strings)
    (hashed : ∀ c ∈ calls ++ [call], c.hashed ⊆ strings) (live : call.submission = .ok sub) :
    attestProofData call (journalAfter calls) =
      .ok (call.digest, update (journalAfter calls) (call.key sub) call.digest) := by
  have free := attestProofData_never_conflicts binding apart hashed
  refine attestProofData_ok_iff.mpr ⟨sub, live, ?_, rfl, rfl⟩
  by_contra differs
  rw [not_or] at differs
  apply free
  simp only [attestProofData, live, bind_error, revertIf_error]
  exact .inr ⟨sub, rfl, .inl ⟨differs, trivial⟩⟩

/-- An attested digest is the digest of a call for the same rollup, id and commitment. -/
theorem attested_by (apart : HashesApart strings) (hashed : ∀ c ∈ calls, c.hashed ⊆ strings)
    {sender : Address} {submissionId : BitVec 256} {commitment proofHash : Bytes32}
    {proofLength : BitVec 256} (key : keyPreimage sender submissionId commitment ∈ strings)
    (digest : digestPreimage proofHash proofLength ∈ strings)
    (attested : isProofDataAttested (journalAfter calls) sender submissionId commitment proofHash
      proofLength = true) :
    ∃ call ∈ calls, ∃ sub, call.submission = .ok sub ∧ call.rollup = sender ∧
      call.submissionId = submissionId ∧ sub.commitment = commitment ∧
      keccak256 call.evidence.proofBytes = proofHash ∧
      BitVec.ofNat 256 call.evidence.proofBytes.length = proofLength := by
  have entry := of_decide_eq_true attested
  have made : journalAfter calls (keccak256 (keyPreimage sender submissionId commitment)) ≠
      0 := by
    rw [entry]
    exact apart.nonzero _ digest
  obtain ⟨call, member, sub, live, same, value⟩ :=
    (journalAfter_recorded calls _).resolve_left made
  have called := hashed call member
  obtain ⟨rollup, id, commitments⟩ := keyPreimage_inj
    (apart.injOn (called ⟨sub, live, .inr (.inr (.inr rfl))⟩) key same)
  obtain ⟨hash, length⟩ := digestPreimage_inj
    (apart.injOn (called ⟨sub, live, .inr (.inr (.inl rfl))⟩) digest (value.symm.trans entry))
  exact ⟨call, member, sub, live, rollup, id, commitments, hash, length⟩

/-- A submission is opened for the blobs, the state root and the block it was posted with. -/
theorem Attest.posted_eq (apart : HashesApart strings) (hashed : call.hashed ⊆ strings)
    (live : call.submission = .ok sub) {blobhash : Nat → Bytes32} {hashes : BlobHashes}
    {stateRoot : Bytes32} {submittedAtBlock : BitVec 64}
    (posted : postedBlobMetadata blobhash = .ok hashes)
    (member : commitmentPreimage hashes stateRoot submittedAtBlock call.submissionId ∈ strings)
    (stored : postCommitment blobhash stateRoot submittedAtBlock call.submissionId =
      .ok sub.commitment) :
    call.evidence.verify = .ok hashes ∧ sub.stateRoot = stateRoot ∧
      sub.submittedAtBlock = submittedAtBlock := by
  have opened := call.submission_opens live
  simp [Evidence.verifyAndCommit, postCommitment, posted] at opened stored
  obtain ⟨hashes', verified, same⟩ := opened
  have member' := hashed ⟨sub, live, .inl ⟨hashes', verified, rfl⟩⟩
  obtain ⟨rfl, root, block, -⟩ := commitmentPreimage_inj (Evidence.verify_count verified)
    (postedBlobMetadata_count posted) (apart.injOn member' member (same.trans stored.symm))
  exact ⟨verified, root, block⟩

theorem proof_attestations_bind (binding : PointBinding committed) (apart : HashesApart strings) :
    -- a commitment opens to one byte string
    (∀ (e e' : Evidence) (stateRoot stateRoot' : Bytes32)
      (submittedAtBlock submittedAtBlock' : BitVec 64) (submissionId submissionId' : BitVec 256)
      (commitment : Bytes32), e.hashed stateRoot submittedAtBlock submissionId ⊆ strings →
      e'.hashed stateRoot' submittedAtBlock' submissionId' ⊆ strings →
      e.verifyAndCommit stateRoot submittedAtBlock submissionId = .ok commitment →
      e'.verifyAndCommit stateRoot' submittedAtBlock' submissionId' = .ok commitment →
      e.proofBytes = e'.proofBytes) ∧
    -- no call after any sequence of calls meets a conflict
    (∀ (calls : List Attest) (call : Attest),
      (∀ c ∈ calls ++ [call], c.hashed ⊆ strings) →
      attestProofData call (journalAfter calls) ≠ .error .conflictingAttestation) ∧
    -- the data of a live submission can be attested, stays attested, and no other bytes are
    (∀ (calls later : List Attest) (call : Attest) (sub : SubmissionView),
      (∀ c ∈ calls ++ [call], c.hashed ⊆ strings) → call.submission = .ok sub →
      (∃ journal, attestProofData call (journalAfter calls) = .ok (call.digest, journal)) ∧
      isProofDataAttested (journalAfter (calls ++ [call] ++ later)) call.rollup call.submissionId
        sub.commitment (keccak256 call.evidence.proofBytes)
        (BitVec.ofNat 256 call.evidence.proofBytes.length) = true ∧
      ∀ bytes ∈ strings,
        digestPreimage (keccak256 bytes) (BitVec.ofNat 256 bytes.length) ∈ strings →
        isProofDataAttested (journalAfter calls) call.rollup call.submissionId sub.commitment
          (keccak256 bytes) (BitVec.ofNat 256 bytes.length) = true →
        bytes = call.evidence.proofBytes) ∧
    -- what is attested was attested for that rollup, submission id and commitment
    ∀ (calls : List Attest) (sender : Address) (submissionId : BitVec 256)
      (commitment proofHash : Bytes32) (proofLength : BitVec 256),
      (∀ c ∈ calls, c.hashed ⊆ strings) →
      keyPreimage sender submissionId commitment ∈ strings →
      digestPreimage proofHash proofLength ∈ strings →
      isProofDataAttested (journalAfter calls) sender submissionId commitment proofHash
        proofLength = true →
      ∃ call ∈ calls, ∃ sub, call.submission = .ok sub ∧ call.rollup = sender ∧
        call.submissionId = submissionId ∧ sub.commitment = commitment ∧
        keccak256 call.evidence.proofBytes = proofHash ∧
        BitVec.ofNat 256 call.evidence.proofBytes.length = proofLength ∧
        -- a reused id posted with other blobs, in another block or with another state root differs
        ∀ (blobhash : Nat → Bytes32) (hashes : BlobHashes) (stateRoot : Bytes32)
          (submittedAtBlock : BitVec 64), postedBlobMetadata blobhash = .ok hashes →
          commitmentPreimage hashes stateRoot submittedAtBlock submissionId ∈ strings →
          postCommitment blobhash stateRoot submittedAtBlock submissionId = .ok commitment →
          call.evidence.verify = .ok hashes ∧ sub.stateRoot = stateRoot ∧
            sub.submittedAtBlock = submittedAtBlock := by
  refine ⟨fun e e' _ _ _ _ _ _ commitment hashed hashed' opened opened' =>
      (Evidence.verifyAndCommit_inj binding opened opened' apart hashed hashed').1,
    fun calls call hashed => attestProofData_never_conflicts binding apart hashed,
    fun calls later call sub hashed live =>
      ⟨⟨_, attestProofData_admits binding apart hashed live⟩, ?_,
        fun bytes inside digest attested => ?_⟩, ?_⟩
  · -- the entry is made by the call and kept
    have called := hashed call (List.mem_append_right _ List.mem_cons_self)
    have made : journalAfter (calls ++ [call]) (call.key sub) = call.digest := by
      rw [journalAfter_snoc, Journal.apply, attestProofData_admits binding apart hashed live]
      exact Function.update_self ..
    have nonzero : journalAfter (calls ++ [call]) (call.key sub) ≠ 0 := by
      rw [made]
      exact apart.nonzero _ (called ⟨sub, live, .inr (.inr (.inl rfl))⟩)
    exact decide_eq_true ((journalAfter_kept nonzero later).trans made)
  · have called := hashed call (List.mem_append_right _ List.mem_cons_self)
    have earlier (c : Attest) (member : c ∈ calls) : c.hashed ⊆ strings :=
      hashed c (List.mem_append_left _ member)
    obtain ⟨call', member, sub', live', rollup, id, commitment, hash, -⟩ := attested_by apart
      earlier (called ⟨sub, live, .inr (.inr (.inr rfl))⟩) digest attested
    have key : call.key sub = call'.key sub' := by
      rw [Attest.key, Attest.key, rollup, id, commitment]
    rw [Attest.proofBytes_eq binding apart called (earlier call' member) live live' key]
    exact (apart.injOn (earlier call' member ⟨sub', live', .inr (.inl rfl)⟩) inside hash).symm
  · intro calls sender submissionId commitment proofHash proofLength hashed key digest attested
    obtain ⟨call, member, sub, live, rfl, rfl, rfl, hash, length⟩ :=
      attested_by apart hashed key digest attested
    exact ⟨call, member, sub, live, rfl, rfl, rfl, hash, length,
      fun blobhash hashes stateRoot submittedAtBlock posted inside stored =>
        Attest.posted_eq apart (hashed call member) live posted inside stored⟩

end Bound

end Journal

/-! ## One attested byte -/

theorem flatMap_packBytes32_length (l : List Bytes32) :
    (l.flatMap packBytes32).length = 32 * l.length := by
  induction l with
  | nil => rfl
  | cons x l ih =>
    rw [flatMap_cons, length_append, ih, packBytes32, length_ofBitVec, length_cons]
    omega

theorem packed_append_inj (same : ((range n).map blob).flatMap packBytes32 ++ rest =
      ((range n).map blob').flatMap packBytes32 ++ rest') (inside : k < n) :
    blob k = blob' k := by
  have lengths : ((range n).map blob).length = ((range n).map blob').length := by
    rw [length_map, length_map]
  obtain ⟨elements, -⟩ := append_inj same
    (by rw [flatMap_packBytes32_length, flatMap_packBytes32_length, lengths])
  have width (x : Bytes32) : (packBytes32 x).length = 32 := by
    rw [packBytes32, length_ofBitVec]
  have injective (x y : Bytes32) (same : packBytes32 x = packBytes32 y) : x = y :=
    ofBitVec_inj (n := 32) same
  have here : ((range n).map blob)[k]? = ((range n).map blob')[k]? := by
    rw [Words.flatMap_inj width injective lengths elements]
  rw [getElem?_map, getElem?_map, getElem?_range inside] at here
  exact Option.some.inj here

theorem challengeInput_inj {commitment commitment' : Bytes}
    (same : challengeInput blob commitment = challengeInput blob' commitment')
    (inside : k < fieldElementsPerBlob) : blob k = blob' k := by
  rw [challengeInput, challengeInput, append_assoc, append_assoc, append_cancel_left_eq] at same
  exact packed_append_inj same inside

theorem packed_point {hash z : Bytes32} (rest : Bytes) :
    ((packBytes32 hash ++ (packBytes32 z ++ rest)).drop 32).take 32 = packBytes32 z := by
  have width (x : Bytes32) : (packBytes32 x).length = 32 := by
    rw [packBytes32, length_ofBitVec]
  rw [drop_left' (width hash), take_left' (width z)]

/-- The input of the precompile for the first blob of `e` at the point `1`. -/
def Evidence.opening (e : Evidence) : Bytes :=
  packBytes32 (1 <<< 248) ++ packBytes32 (BitVec.ofNat 256 1) ++
    packBytes32 (BitVec.ofNat 256 (evaluateBlob (e.blob 0) 1)) ++ e.commitment 0 ++ e.proof 0

/-- A hash that is odd on the challenge of `e` only, and a precompile that accepts the opening of
    `e` only. -/
@[reducible] def onlyAt (e : Evidence) : Precompiles where
  sha256 input := if input = challengeInput (e.blob 0) (e.commitment 0) then 1
    else BitVec.ofNat 256 (2 * (decode input % 2 ^ 200))
  pointEvaluation input :=
    if input = e.opening then
      some (packBytes32 (BitVec.ofNat 256 fieldElementsPerBlob) ++
        packBytes32 (BitVec.ofNat 256 blsModulus))
    else none

section OnlyAt

variable {e : Evidence} {commitment : Bytes}

theorem onlyAt_sha256 (input : Bytes) :
    (onlyAt e).sha256 input = if input = challengeInput (e.blob 0) (e.commitment 0) then 1
      else BitVec.ofNat 256 (2 * (decode input % 2 ^ 200)) := rfl

theorem onlyAt_pointEvaluation (input : Bytes) :
    (onlyAt e).pointEvaluation input =
      if input = e.opening then
        some (packBytes32 (BitVec.ofNat 256 fieldElementsPerBlob) ++
          packBytes32 (BitVec.ofNat 256 blsModulus))
      else none := rfl

theorem onlyAt_challenge {blob : Nat → BitVec 256} :
    @challenge (onlyAt e) blob commitment = 1 ↔
      challengeInput blob commitment = challengeInput (e.blob 0) (e.commitment 0) := by
  change ((onlyAt e).sha256 (challengeInput blob commitment)).toNat % blsModulus = 1 ↔ _
  rw [onlyAt_sha256]
  split
  case isTrue same => exact ⟨fun _ => same, fun _ => by decide⟩
  case isFalse other =>
    have small : 2 * (decode (challengeInput blob commitment) % 2 ^ 200) < 2 ^ 201 := by omega
    have below : 2 ^ 201 < blsModulus := by decide
    have fits : 2 ^ 201 < 2 ^ 256 := by decide
    simp only [other, iff_false]
    rw [BitVec.toNat_ofNat, Nat.mod_eq_of_lt (small.trans fits),
      Nat.mod_eq_of_lt (small.trans below)]
    omega

theorem onlyAt_versionedHash (zero : decode (e.commitment 0) = 0) :
    @versionedHash (onlyAt e) (e.commitment 0) = 1 <<< 248 := by
  have short : e.commitment 0 ≠ challengeInput (e.blob 0) (e.commitment 0) := by
    intro same
    have lengths := congrArg List.length same
    rw [challengeInput, length_append, length_append, packBytes32, length_ofBitVec] at lengths
    omega
  change ((onlyAt e).sha256 (e.commitment 0) &&& (BitVec.allOnes 256 >>> 8)) ||| (1 <<< 248) = _
  rw [onlyAt_sha256, if_neg short, zero]
  decide

theorem onlyAt_accepts {blobIndex : Nat} {hash : Bytes32} {z y : Nat} {proof : Bytes}
    (small : z < 2 ^ 256)
    (accepted : @pointEvaluation (onlyAt e) blobIndex hash z y commitment proof = .ok ()) :
    z = 1 := by
  simp only [pointEvaluation, onlyAt_pointEvaluation, bind_ok, getOrRevert_ok,
    Option.ite_none_right_eq_some, Evidence.opening, append_assoc] at accepted
  obtain ⟨output, ⟨same, -⟩, -⟩ := accepted
  have point := congrArg (fun input => (input.drop 32).take 32) same
  simp only [packed_point] at point
  have one := congrArg BitVec.toNat (ofBitVec_inj (n := 32) point)
  rwa [BitVec.toNat_ofNat, Nat.mod_eq_of_lt small] at one

/-- The one challenge that is accepted binds one blob. -/
theorem onlyAt_binding {p : Polynomial Scalar}
    (unique : ∀ q, Interpolates (e.blob 0) q → q = p) :
    @PointBinding (onlyAt e) fun _ => p := by
  intro blob q blobIndex y commitment proof _ _ _ interpolates _ _ accepted
  have small : @challenge (onlyAt e) blob commitment < 2 ^ 256 :=
    (Nat.mod_lt _ (by decide)).trans (by decide)
  have same := onlyAt_challenge.mp (onlyAt_accepts small accepted)
  refine unique q ⟨interpolates.degree, fun k inside => ?_⟩
  rw [interpolates.values k inside, challengeInput_inj same inside]

/-- A proof in one blob is verified by its own opening. -/
theorem onlyAt_verify (one : blobCount e.proofBytes.length = .ok 1)
    (length : e.sidecars.length = 96) (zero : decode (e.commitment 0) = 0) :
    @Evidence.verify (onlyAt e) e = .ok ⟨1 <<< 248, 0, 1⟩ := by
  have first : @Evidence.verifyBlob (onlyAt e) e 0 = .ok (1 <<< 248) := by
    simp only [Evidence.verifyBlob, onlyAt_challenge.mpr rfl, onlyAt_versionedHash zero,
      bind_ok, exists_unit, pure_ok, and_true, pointEvaluation, onlyAt_pointEvaluation,
      getOrRevert_ok, Option.ite_none_right_eq_some, revertIf_ok]
    exact ⟨_, ⟨rfl, rfl⟩, by decide, by decide⟩
  simp only [Evidence.verify, bind_ok, exists_unit, revertIf_ok, pure_ok, first, one]
  exact ⟨1, rfl, by rw [length, not_not], _, rfl, 0, rfl, rfl⟩

end OnlyAt

def sampleEvidence : Evidence := ⟨[7], [], List.replicate 96 0⟩

@[reducible] def samplePrecompiles : Precompiles := onlyAt sampleEvidence

def sampleStateRoot : Bytes32 := 0xabc
def sampleSubmissionId : BitVec 256 := 3

@[reducible] def sampleCommitment : Bytes32 :=
  @keccak256 evmKeccak
    (@commitmentPreimage evmKeccak ⟨1 <<< 248, 0, 1⟩ sampleStateRoot 100 sampleSubmissionId)

/-- Submission 3 of the rollup, posted in block 100, opened with one byte. -/
def sampleAttest : Attest where
  rollup := 0x5000
  submissionId := sampleSubmissionId
  evidence := sampleEvidence
  context := some (packBytes32 sampleCommitment ++ packBytes32 0xb0b ++ packBytes32 0 ++
    packBytes32 100 ++ packBytes32 sampleStateRoot)

def sampleView : SubmissionView := ⟨sampleCommitment, false, 100, sampleStateRoot⟩

theorem sampleAttest_decodes :
    decodeSubmission (packBytes32 sampleCommitment ++ packBytes32 0xb0b ++ packBytes32 0 ++
      packBytes32 100 ++ packBytes32 sampleStateRoot) = .ok sampleView := by
  decide +kernel

theorem sampleAttest_submission :
    @Attest.submission samplePrecompiles evmKeccak sampleAttest = .ok sampleView := by
  have nonzero : ¬ (sampleView.commitment = 0 ∨ sampleView.finalized = true) := by decide +kernel
  simp only [Attest.submission, bind_ok, getOrRevert_ok, exists_unit, revertIf_ok,
    pure_ok, not_not, Evidence.verifyAndCommit]
  refine ⟨_, rfl, by decide +kernel, sampleView, sampleAttest_decodes, nonzero, sampleCommitment,
    ⟨_, onlyAt_verify (by decide) (by decide) (by decide), rfl⟩, rfl, rfl⟩

@[reducible] def sampleStrings : List Bytes :=
  [@commitmentPreimage evmKeccak ⟨1 <<< 248, 0, 1⟩ sampleStateRoot 100 sampleSubmissionId, [7],
    @digestPreimage evmKeccak (@keccak256 evmKeccak [7]) 1,
    keyPreimage 0x5000 sampleSubmissionId sampleCommitment]

theorem sampleStrings_apart : @HashesApart evmKeccak { x | x ∈ sampleStrings } := by
  have distinct : (sampleStrings.map evmKeccak.keccak256).Nodup := by decide +kernel
  have nonzero : 0 ∉ sampleStrings.map evmKeccak.keccak256 := by decide +kernel
  refine @HashesApart.mk evmKeccak _ (fun x member y member' same =>
    inj_on_of_nodup_map distinct member member' same) fun x member zero => nonzero ?_
  rw [← zero]
  exact mem_map_of_mem member

theorem sampleAttest_hashed :
    @Attest.hashed evmKeccak samplePrecompiles sampleAttest ⊆ { x | x ∈ sampleStrings } := by
  rintro x ⟨sub, live, inside⟩
  cases Except.ok.inj (sampleAttest_submission.symm.trans live)
  obtain ⟨hashes, verified, rfl⟩ | rfl | rfl | rfl := inside
  · have known : @Evidence.verify samplePrecompiles sampleEvidence = .ok ⟨1 <<< 248, 0, 1⟩ :=
      onlyAt_verify (by decide) (by decide) (by decide)
    cases Except.ok.inj (known.symm.trans verified)
    exact .head _
  · exact .tail _ (.head _)
  · exact .tail _ (.tail _ (.head _))
  · exact .tail _ (.tail _ (.tail _ (.head _)))

/-- The submission is attested twice; both calls are admitted. -/
theorem proof_attestations_bind_sample :
    (∃ journal, @attestProofData samplePrecompiles evmKeccak sampleAttest
      (@journalAfter samplePrecompiles evmKeccak [sampleAttest]) =
        .ok (@Attest.digest evmKeccak sampleAttest, journal)) ∧
    @isProofDataAttested evmKeccak
      (@journalAfter samplePrecompiles evmKeccak [sampleAttest, sampleAttest]) 0x5000
      sampleSubmissionId sampleCommitment (@keccak256 evmKeccak [7]) 1 = true := by
  obtain ⟨p, -, unique⟩ := exists_interpolates (sampleEvidence.blob 0)
  obtain ⟨-, -, admitted, -⟩ := @proof_attestations_bind evmKeccak samplePrecompiles
    (fun _ => p) _ (onlyAt_binding unique) sampleStrings_apart
  have hashed (c : Attest) (member : c ∈ [sampleAttest] ++ [sampleAttest]) :
      @Attest.hashed evmKeccak samplePrecompiles c ⊆ { x | x ∈ sampleStrings } := by
    have same : c = sampleAttest := by simpa using member
    rw [same]
    exact sampleAttest_hashed
  obtain ⟨again, attested, -⟩ :=
    admitted [sampleAttest] [] sampleAttest sampleView hashed sampleAttest_submission
  exact ⟨again, attested⟩

end Intmax.Blob
