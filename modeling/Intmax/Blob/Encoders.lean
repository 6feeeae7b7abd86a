import Intmax.Contracts.Evm

/-! # The two blob encoders

A validity proof is posted as one or two blobs of 4096 field elements.  The producer
encodes it with `encode_simple_coder_blobs` of `proof_da.rs`; `BlobKZGVerifierExt` fills
the same blobs again from calldata with `_fillSimpleCoderBlob`.  The Rust encoder writes a
byte stream, the contract writes words.
-/

namespace Intmax.Blob

open Checked

def fieldElementsPerBlob : Nat := 4096
def bytesPerFieldElement : Nat := 32
def bytesPerBlob : Nat := fieldElementsPerBlob * bytesPerFieldElement
def payloadBytesPerFieldElement : Nat := 31
def oneBlobCapacity : Nat := (fieldElementsPerBlob - 1) * 31
def twoBlobCapacity : Nat := (2 * fieldElementsPerBlob - 1) * 31

/-! ## `BlobKZGVerifierExt` -/

inductive BlobRevert
  | emptyProofPayload
  | proofPayloadTooLarge (proofLength : Nat)
  | missingBlob (index : Nat)
  | extraBlob (index : Nat)
  | sidecarLengthMismatch (expected supplied : Nat)
  | pointEvaluationFailed (index : Nat)
  | invalidPointEvaluationResult (index : Nat)
  | invalidRollupContext
  | submissionUnavailable
  | submissionCommitmentMismatch
  | conflictingAttestation
  -- `abi.decode` reverts without a reason
  | malformedContext
  deriving DecidableEq, Repr

def blobCount (proofLength : Nat) : Except BlobRevert Nat := do
  revertIf (proofLength = 0) .emptyProofPayload
  if proofLength ≤ oneBlobCapacity then pure 1
  else if proofLength ≤ twoBlobCapacity then pure 2
  else .error (.proofPayloadTooLarge proofLength)

/-- The word at `off` of the calldata, zero past its end. -/
def calldataload (calldata : Bytes) (off : Nat) : BitVec 256 :=
  BitVec.ofNat 256 (BigEndian.decode (BigEndian.window calldata off 32))

/-- The word packed from the `remaining` proof bytes at a source offset.  Bytes after the
    proof belong to other arguments and are cut off. -/
def packWord (word : BitVec 256) (remaining : Nat) : BitVec 256 :=
  if remaining < 31 then (word >>> ((32 - remaining) * 8)) <<< ((31 - remaining) * 8)
  else word >>> 8

/-- The loop of `_fillSimpleCoderBlob` over the elements from `local` on.  The calldata
    behind `proofBytes` is `rest`; a blob is a memory of words. -/
def fillElements (proofBytes rest : Bytes) (globalBase : Nat) :
    Nat → Nat → (Nat → BitVec 256) → (Nat → BitVec 256)
  | 0, _, blob => blob
  | fuel + 1, localIndex, blob =>
    let source := (globalBase + localIndex - 1) * payloadBytesPerFieldElement
    if proofBytes.length ≤ source then blob
    else
      let remaining := proofBytes.length - source
      let packed := packWord (calldataload (proofBytes ++ rest) source) remaining
      fillElements proofBytes rest globalBase fuel (localIndex + 1)
        (Function.update blob localIndex packed)

/-- `_fillSimpleCoderBlob` on a fresh, zeroed buffer. -/
def fillSimpleCoderBlob (proofBytes rest : Bytes) (blobIndex : Nat) : Nat → BitVec 256 :=
  let blob : Nat → BitVec 256 := fun _ => 0
  if blobIndex = 0 then
    let blob := Function.update blob 0 (BitVec.ofNat 256 proofBytes.length <<< 184)
    fillElements proofBytes rest 0 (fieldElementsPerBlob - 1) 1 blob
  else
    fillElements proofBytes rest (blobIndex * fieldElementsPerBlob) fieldElementsPerBlob 0 blob

/-! ## `proof_da.rs` -/

/-- How the Rust encoder fails: an `Err` with its message, or an out-of-range slice. -/
inductive Failure
  | err (message : String)
  | panic
  deriving DecidableEq, Repr

/-- `slice::chunks`: the last chunk may be shorter. -/
def chunks (n : Nat) (bytes : Bytes) : List Bytes :=
  (List.range ((bytes.length + n - 1) / n)).map fun i => (bytes.drop (n * i)).take n

/-- `slice::chunks_exact`: an incomplete last chunk is dropped. -/
def chunksExact (n : Nat) (bytes : Bytes) : List Bytes :=
  (List.range (bytes.length / n)).map fun i => (bytes.drop (n * i)).take n

/-- `stream[off..off + bytes.len()].copy_from_slice(bytes)`. -/
def copyFromSlice (stream : Bytes) (off : Nat) (bytes : Bytes) : Except Failure Bytes :=
  if off + bytes.length ≤ stream.length then
    .ok (stream.take off ++ bytes ++ stream.drop (off + bytes.length))
  else .error .panic

/-- The loop over the chunks of the payload, numbered from `chunkIndex` on. -/
def writeChunks : List Bytes → Nat → Bytes → Except Failure Bytes
  | [], _, stream => .ok stream
  | chunk :: rest, chunkIndex, stream => do
    let offset := (chunkIndex + 1) * bytesPerFieldElement
    let stream ← copyFromSlice stream (offset + 1) chunk
    writeChunks rest (chunkIndex + 1) stream

def encodeSimpleCoderBlobs (payload : Bytes) : Except Failure (List Bytes) := do
  revertIf (payload = []) (.err "proof payload is empty")
  revertIf (twoBlobCapacity < payload.length)
    (.err ("proof payload has " ++ toString payload.length ++ " bytes; maximum is " ++
      toString twoBlobCapacity))
  let blobCount := if payload.length ≤ oneBlobCapacity then 1 else 2
  let stream := List.replicate (blobCount * bytesPerBlob) 0
  revertIf (2 ^ 64 ≤ payload.length)
    (.err "proof payload length does not fit SimpleCoder u64 header")
  let stream ← copyFromSlice stream 1 (BigEndian.encode 8 payload.length)
  let stream ← writeChunks (chunks payloadBytesPerFieldElement payload) 0 stream
  pure (chunksExact bytesPerBlob stream)

/-- The `k`-th field element of a blob. -/
def fieldElement (blob : Bytes) (k : Nat) : BitVec 256 :=
  BitVec.ofNat 256
    (BigEndian.decode (BigEndian.window blob (k * bytesPerFieldElement) bytesPerFieldElement))

end Intmax.Blob
