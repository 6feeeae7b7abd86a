import Intmax.Blob.Encoders

/-! # The two blob encoders agree

Both encoders are compared with one description of the format: element 0 holds the
length of the payload behind a zero byte, and every later element holds 31 bytes behind a
zero byte, continued across the end of the first blob.  The description determines the
payload.
-/

namespace Intmax.Blob

open Checked BigEndian Function List Nat

/-- The field element at position `g`, counted through both blobs. -/
def element (payload : Bytes) (g : Nat) : Nat :=
  if g = 0 then payload.length * 2 ^ 184 else decode (window payload ((g - 1) * 31) 31)

theorem element_zero (payload : Bytes) : element payload 0 = payload.length * 2 ^ 184 := if_pos rfl

variable {payload proofBytes rest stream : Bytes} {blobs : Nat}

theorem element_pos {g : Nat} (later : g ≠ 0) :
    element payload g = decode (window payload ((g - 1) * 31) 31) := if_neg later

/-- Past the payload the blob is zero. -/
theorem element_past {g : Nat} (later : g ≠ 0) (past : payload.length ≤ (g - 1) * 31) :
    element payload g = 0 := by
  rw [element_pos later, window_of_le past, decode_zeros]

theorem element_lt (short : payload.length < 2 ^ 64) (g : Nat) : element payload g < 2 ^ 248 := by
  unfold element
  split
  · omega
  · have bound := decode_lt (window payload ((g - 1) * 31) 31)
    rw [length_window] at bound
    exact bound.trans_eq (by norm_num)

/-- Payloads with the same elements, as far as both reach, are equal. -/
theorem element_inj {payload' : Bytes} {count : Nat} (reach : payload.length ≤ (count - 1) * 31)
    (nonempty : 0 < count) (same : ∀ g < count, element payload g = element payload' g) :
    payload = payload' := by
  have length : payload.length = payload'.length := by
    have header := same 0 nonempty
    rw [element_zero, element_zero] at header
    omega
  apply ext_getElem length
  intro n below below'
  -- byte `n` stands in element `n / 31 + 1`
  have chunk := same (n / 31 + 1) (by omega)
  rw [element_pos (by omega), element_pos (by omega)] at chunk
  have windows := decode_inj (by simp) chunk
  have byte := congrArg (fun bytes => bytes.getD (n % 31) 0) windows
  have position : n / 31 * 31 + n % 31 = n := div_add_mod' n 31
  simpa [window, mod_lt, position, below, below'] using byte

/-! ## The contract -/

theorem calldataload_toNat (calldata : Bytes) (off : Nat) :
    (calldataload calldata off).toNat = decode (window calldata off 32) := by
  have bound := decode_lt (window calldata off 32)
  rw [length_window] at bound
  rw [calldataload, BitVec.toNat_ofNat]
  exact mod_eq_of_lt (bound.trans_eq (by norm_num))

/-- Inside the proof, what follows it in the calldata is not read. -/
theorem window_proofBytes {off n : Nat} (inside : off + n ≤ proofBytes.length) :
    window (proofBytes ++ rest) off n = window proofBytes off n := by
  apply window_congr
  intro k below
  exact getD_append _ _ _ _ (by omega)

theorem packWord_calldata {source : Nat} (inside : source < proofBytes.length) :
    packWord (calldataload (proofBytes ++ rest) source) (proofBytes.length - source) =
      BitVec.ofNat 256 (decode (window proofBytes source 31)) := by
  have word := calldataload_toNat (proofBytes ++ rest) source
  apply BitVec.eq_of_toNat_eq
  have small : decode (window proofBytes source 31) < 2 ^ 256 := by
    have bound := decode_lt (window proofBytes source 31)
    rw [length_window] at bound
    exact bound.trans (Nat.pow_lt_pow_right (by omega) (show 31 < 32 by omega))
  rw [BitVec.toNat_ofNat, mod_eq_of_lt small]
  unfold packWord
  split
  case isTrue tail =>
    -- the last chunk: its bytes are cut out and moved to the front of the 31
    generalize count : proofBytes.length - source = remaining at tail
    have split_ : (32 : Nat) = remaining + (32 - remaining) := by omega
    have cut : (calldataload (proofBytes ++ rest) source).toNat / 256 ^ (32 - remaining) =
        decode (window proofBytes source remaining) := by
      have parts := decode_append_div (window (proofBytes ++ rest) source remaining)
        (window (proofBytes ++ rest) (source + remaining) (32 - remaining))
      rw [← window_add, ← split_, length_window] at parts
      rw [word, parts, window_proofBytes (by omega)]
    have padded : decode (window proofBytes source 31) =
        decode (window proofBytes source remaining) * 256 ^ (31 - remaining) := by
      have parts : window proofBytes source 31 =
          window proofBytes source remaining ++ replicate (31 - remaining) 0 := by
        rw [← window_of_le (show proofBytes.length ≤ source + remaining by omega),
          ← window_add, Nat.add_sub_cancel' tail.le]
      rw [parts, decode_append, decode_zeros, add_zero, length_replicate]
    rw [BitVec.toNat_shiftLeft, BitVec.toNat_ushiftRight, shiftRight_eq_div_pow,
      shiftLeft_eq, mul_comm (32 - remaining) 8, pow_mul, mul_comm (31 - remaining) 8, pow_mul]
    show _ / 256 ^ _ * 256 ^ _ % _ = _
    rw [cut, ← padded, mod_eq_of_lt small]
  case isFalse whole =>
    have parts := decode_append_div (window (proofBytes ++ rest) source 31)
      (window (proofBytes ++ rest) (source + 31) 1)
    rw [← window_add, length_window] at parts
    rw [BitVec.toNat_ushiftRight, shiftRight_eq_div_pow, word]
    exact parts.trans (by rw [window_proofBytes (by omega)])

/-- The loop writes the elements of its range and stops where they are all zero. -/
theorem fillElements_apply {globalBase : Nat} {fuel localIndex : Nat} {blob : Nat → BitVec 256}
    (header : globalBase + localIndex ≠ 0) (fresh : ∀ k, localIndex ≤ k → blob k = 0)
    (k : Nat) :
    fillElements proofBytes rest globalBase fuel localIndex blob k =
      if localIndex ≤ k ∧ k < localIndex + fuel then
        BitVec.ofNat 256 (element proofBytes (globalBase + k)) else blob k := by
  induction fuel generalizing localIndex blob with
  | zero =>
    rw [if_neg (by omega)]
    rfl
  | succ fuel ih =>
    unfold fillElements
    by_cases past : proofBytes.length ≤ (globalBase + localIndex - 1) *
      payloadBytesPerFieldElement
    · -- the loop breaks, and everything from here on is zero
      rw [if_pos past]
      simp only [payloadBytesPerFieldElement] at past
      split
      case isTrue within =>
        rw [fresh k within.1, element_past (by omega) (by omega)]
        rfl
      case isFalse => rfl
    · rw [if_neg past, ih (by omega), packWord_calldata (lt_of_not_ge past)]
      · by_cases here : k = localIndex
        · subst here
          rw [if_neg (by omega), if_pos (by omega), update_self, element_pos header]
          rfl
        · rw [update_of_ne here]
          by_cases later : localIndex + 1 ≤ k ∧ k < localIndex + 1 + fuel
          · rw [if_pos later, if_pos (by omega)]
          · rw [if_neg later, if_neg (by omega)]
      · intro k' after
        rw [update_of_ne (by omega)]
        exact fresh k' (by omega)

theorem fillSimpleCoderBlob_apply (proofBytes rest : Bytes) (blobIndex : Nat) {k : Nat}
    (inside : k < fieldElementsPerBlob) :
    fillSimpleCoderBlob proofBytes rest blobIndex k =
      BitVec.ofNat 256 (element proofBytes (blobIndex * fieldElementsPerBlob + k)) := by
  simp only [fieldElementsPerBlob] at inside
  simp only [fillSimpleCoderBlob, fieldElementsPerBlob]
  split
  case isTrue first =>
    subst first
    rw [fillElements_apply (by omega) (fun k' later => update_of_ne (by omega) ..)]
    by_cases header : k = 0
    · subst header
      rw [if_neg (by omega), update_self, zero_mul, zero_add, element_zero]
      apply BitVec.eq_of_toNat_eq
      rw [BitVec.toNat_shiftLeft, BitVec.toNat_ofNat, BitVec.toNat_ofNat, shiftLeft_eq,
        mod_mul_mod]
    · rw [if_pos (by omega), zero_mul]
  case isFalse later =>
    rw [fillElements_apply (by omega) (fun _ _ => rfl), if_pos (by omega)]

/-! ## The producer -/

theorem copyFromSlice_apply (stream bytes : Bytes) {off : Nat}
    (room : off + bytes.length ≤ stream.length) :
    ∃ stream', copyFromSlice stream off bytes = .ok stream' ∧ stream'.length = stream.length ∧
      ∀ n, stream'.getD n 0 = if off ≤ n ∧ n < off + bytes.length then bytes.getD (n - off) 0
        else stream.getD n 0 := by
  refine ⟨_, if_pos room, ?_, ?_⟩
  · simp
    omega
  · intro n
    have front : (stream.take off).length = off := by
      rw [length_take]
      omega
    rw [append_assoc]
    by_cases before : n < off
    · rw [if_neg (by omega), getD_append _ _ _ _ (by omega)]
      simp [getD, before]
    · rw [getD_append_right _ _ _ _ (by omega), front]
      by_cases written : n < off + bytes.length
      · rw [if_pos (by omega), getD_append _ _ _ _ (by omega)]
      · rw [if_neg (by omega), getD_append_right _ _ _ _ (by omega)]
        have position : off + bytes.length + (n - off - bytes.length) = n := by omega
        simp [getD, position]

/-- The chunk loop on a stream that is still zero where it writes: chunk `i` ends up behind
    the zero byte of element `chunkIndex + 1 + i`. -/
theorem writeChunks_apply {cs : List Bytes} (chunkIndex : Nat)
    (short : ∀ c ∈ cs, c.length ≤ 31)
    (room : 32 * (chunkIndex + 1 + cs.length) ≤ stream.length)
    (zero : ∀ n, 32 * (chunkIndex + 1) ≤ n → stream.getD n 0 = 0) :
    ∃ stream', writeChunks cs chunkIndex stream = .ok stream' ∧
      stream'.length = stream.length ∧
      (∀ n, n < 32 * (chunkIndex + 1) → stream'.getD n 0 = stream.getD n 0) ∧
      (∀ g, chunkIndex + 1 ≤ g → stream'.getD (32 * g) 0 = 0) ∧
      ∀ g j, chunkIndex + 1 ≤ g → j < 31 →
        stream'.getD (32 * g + (1 + j)) 0 = (cs.getD (g - (chunkIndex + 1)) []).getD j 0 := by
  induction cs generalizing chunkIndex stream with
  | nil =>
    refine ⟨stream, rfl, rfl, fun _ _ => rfl, fun g later => zero _ (by omega), ?_⟩
    intro g j later inside
    rw [zero _ (by omega)]
    rfl
  | cons chunk cs ih =>
    have fits := short chunk mem_cons_self
    simp at room
    obtain ⟨stream₁, copied, length₁, bytes₁⟩ := copyFromSlice_apply stream chunk
      (show 32 * (chunkIndex + 1) + 1 + chunk.length ≤ stream.length by omega)
    have zero₁ : ∀ n, 32 * (chunkIndex + 1 + 1) ≤ n → stream₁.getD n 0 = 0 := by
      intro n later
      rw [bytes₁, if_neg (by omega)]
      exact zero n (by omega)
    obtain ⟨stream₂, written, length₂, kept, heads, chunks⟩ := ih (chunkIndex + 1)
      (fun c member => short c (mem_cons_of_mem _ member)) (by omega) zero₁
    refine ⟨stream₂, ?_, length₂.trans length₁, ?_, ?_, ?_⟩
    · simp only [writeChunks, bytesPerFieldElement, mul_comm _ 32, copied]
      exact written
    · intro n below
      rw [kept n (by omega), bytes₁, if_neg (by omega)]
    · intro g later
      by_cases here : g = chunkIndex + 1
      · subst here
        rw [kept _ (by omega), bytes₁, if_neg (by omega)]
        exact zero _ (by omega)
      · exact heads g (by omega)
    · intro g j later inside
      by_cases here : g = chunkIndex + 1
      · subst here
        rw [kept _ (by omega), bytes₁, Nat.sub_self]
        by_cases full : j < chunk.length
        · have position : 32 * (chunkIndex + 1) + (1 + j) - (32 * (chunkIndex + 1) + 1) = j := by
            omega
          rw [if_pos (by omega), position]
          rfl
        · -- behind a short last chunk the stream stays zero
          rw [if_neg (by omega), zero _ (by omega)]
          exact (getD_eq_default _ _ (by simpa using full)).symm
      · have next : g - (chunkIndex + 1) = (g - (chunkIndex + 1 + 1)) + 1 := by omega
        rw [chunks g j (by omega) inside, next]
        rfl

/-- Reading chunk by chunk is reading the payload. -/
theorem chunks_getD (payload : Bytes) (i : Nat) {j : Nat} (inside : j < 31) :
    ((chunks 31 payload).getD i []).getD j 0 = payload.getD (i * 31 + j) 0 := by
  by_cases chunk : i < (payload.length + 30) / 31
  · have position : 31 * i + j = i * 31 + j := by omega
    simp [chunks, getD, chunk, inside, position]
  · have past : payload.length ≤ i * 31 + j := by omega
    simp [chunks, getD, le_of_not_gt chunk, past]

theorem chunks_length_le (payload : Bytes) : ∀ c ∈ chunks 31 payload, c.length ≤ 31 := by
  intro c member
  obtain ⟨i, -, rfl⟩ := mem_map.mp member
  simp

/-- The stream the producer writes, element by element. -/
structure Streams (payload stream : Bytes) (blobs : Nat) : Prop where
  length : stream.length = blobs * bytesPerBlob
  element_eq : ∀ g, decode (window stream (32 * g) 32) = element payload g

/-- The header and the chunks make up the stream. -/
theorem Streams.of_bytes (length : stream.length = blobs * bytesPerBlob)
    (short : payload.length < 2 ^ 64)
    (header : window stream 0 32 = 0 :: (encode 8 payload.length ++ replicate 23 0))
    (heads : ∀ g, 1 ≤ g → stream.getD (32 * g) 0 = 0) (bytes : ∀ g j, 1 ≤ g → j < 31 →
      stream.getD (32 * g + (1 + j)) 0 = payload.getD ((g - 1) * 31 + j) 0) :
    Streams payload stream blobs := by
  refine ⟨length, ?_⟩
  intro g
  by_cases first : g = 0
  · subst first
    rw [mul_zero, header, decode_cons_zero, decode_append, decode_encode (by omega),
      decode_zeros, length_replicate, element_zero]
    norm_num
  · have front : window stream (32 * g) 1 = [0] := by
      simp only [window, range_one, map_cons, map_nil, add_zero, heads g (by omega)]
    have rest : window stream (32 * g + 1) 31 = window payload ((g - 1) * 31) 31 := by
      apply window_congr
      intro j inside
      rw [add_assoc]
      exact bytes g j (by omega) inside
    have whole := window_add stream (32 * g) 1 31
    rw [front, rest, singleton_append] at whole
    rw [whole, decode_cons_zero, element_pos first]

/-- How many blobs a payload takes. -/
def blobsOf (payload : Bytes) : Nat := if payload.length ≤ oneBlobCapacity then 1 else 2

theorem blobsOf_reach (fits : payload.length ≤ twoBlobCapacity) :
    payload.length ≤ (blobsOf payload * fieldElementsPerBlob - 1) * 31 ∧
      0 < blobsOf payload := by
  simp only [twoBlobCapacity, fieldElementsPerBlob] at fits ⊢
  by_cases one : payload.length ≤ oneBlobCapacity
  · rw [blobsOf, if_pos one]
    simp only [oneBlobCapacity, fieldElementsPerBlob] at one
    omega
  · rw [blobsOf, if_neg one]
    omega

theorem short_of_fits (fits : payload.length ≤ twoBlobCapacity) : payload.length < 2 ^ 64 := by
  simp only [twoBlobCapacity, fieldElementsPerBlob] at fits
  omega

/-- The first element: a zero byte, the eight bytes of the length, and zeros. -/
theorem header_window {header : Bytes} (length : header.length = 8) (first : stream.getD 0 0 = 0)
    (field : ∀ k < 8, stream.getD (1 + k) 0 = header.getD k 0)
    (zero : ∀ k < 23, stream.getD (9 + k) 0 = 0) :
    window stream 0 32 = 0 :: (header ++ replicate 23 0) := by
  have front : window stream 0 1 = [0] := by
    simp only [window, range_one, map_cons, map_nil, add_zero, first]
  have middle : window stream 1 8 = header := by
    have self := window_self header
    rw [length] at self
    rw [← self]
    apply window_congr
    intro k inside
    rw [field k inside, zero_add]
  have back : window stream 9 23 = replicate 23 0 := by
    have past : window ([] : Bytes) 0 23 = replicate 23 0 := window_of_le (zero_le 0) 23
    rw [← past]
    apply window_congr
    intro k inside
    rw [zero k inside]
    rfl
  have whole := window_add stream 0 1 31
  have rest := window_add stream 1 8 23
  rw [rest, front, middle, back] at whole
  exact whole

theorem encodeSimpleCoderBlobs_streams (nonempty : payload ≠ [])
    (fits : payload.length ≤ twoBlobCapacity) :
    ∃ stream, encodeSimpleCoderBlobs payload = .ok (chunksExact bytesPerBlob stream) ∧
      Streams payload stream (blobsOf payload) := by
  obtain ⟨reach, positive⟩ := blobsOf_reach fits
  have small := short_of_fits fits
  have size : blobsOf payload * bytesPerBlob = 131072 * blobsOf payload := mul_comm _ _
  simp only [fieldElementsPerBlob] at reach
  -- the zeroed stream, then the header, then the chunks
  have zeros (n : Nat) :
      (replicate (blobsOf payload * bytesPerBlob) (0 : UInt8)).getD n 0 = 0 := by
    by_cases inside : n < blobsOf payload * bytesPerBlob
    · simp [inside]
    · simp [inside]
  obtain ⟨stream₁, header, length₁, bytes₁⟩ := copyFromSlice_apply
    (replicate (blobsOf payload * bytesPerBlob) 0) (encode 8 payload.length)
    (show 1 + _ ≤ _ by rw [length_encode, length_replicate]; omega)
  rw [length_encode] at bytes₁
  rw [length_replicate] at length₁
  have count : (chunks 31 payload).length = (payload.length + 30) / 31 := by simp [chunks]
  obtain ⟨stream, written, length, kept, heads, bytes⟩ := writeChunks_apply
    0 (chunks_length_le payload) (show _ ≤ stream₁.length by rw [count, length₁]; omega)
    (by intro n later; rw [bytes₁, if_neg (by omega)]; exact zeros n)
  have first : window stream 0 32 = 0 :: (encode 8 payload.length ++ replicate 23 0) := by
    apply header_window (length_encode _ _)
    · rw [kept _ (by omega), bytes₁, if_neg (by omega), zeros]
    · intro k inside
      rw [kept _ (by omega), bytes₁, if_pos (by omega), Nat.add_sub_cancel_left]
    · intro k inside
      rw [kept _ (by omega), bytes₁, if_neg (by omega), zeros]
  refine ⟨stream, ?_, .of_bytes (length.trans length₁) small first
    (fun g later => heads g later) ?_⟩
  · simp only [encodeSimpleCoderBlobs, bind_ok, revertIf_ok, exists_unit, pure_ok]
    exact ⟨nonempty, by omega, by omega, stream₁, header, stream, written, rfl⟩
  · intro g j later inside
    rw [bytes g j later inside, chunks_getD payload _ inside]

/-- The field elements of the blobs cut out of the stream. -/
theorem Streams.blob {i : Nat} {blob : Bytes} (streams : Streams payload stream blobs)
    (cut : (chunksExact bytesPerBlob stream)[i]? = some blob) :
    blob.length = bytesPerBlob ∧ ∀ k < fieldElementsPerBlob,
      fieldElement blob k =
        BitVec.ofNat 256 (element payload (i * fieldElementsPerBlob + k)) := by
  have length := streams.length
  simp only [chunksExact, getElem?_map, Option.map_eq_some_iff,
    getElem?_eq_some_iff, length_range, getElem_range] at cut
  obtain ⟨_, ⟨below, rfl⟩, rfl⟩ := cut
  rw [length, Nat.mul_div_cancel _ (by decide)] at below
  constructor
  · rw [length_take, length_drop, length, mul_comm bytesPerBlob i, ← Nat.sub_mul]
    have room : bytesPerBlob ≤ (blobs - i) * bytesPerBlob := Nat.le_mul_of_pos_left _ (by omega)
    omega
  · intro k inside
    have read : window ((stream.drop (bytesPerBlob * i)).take bytesPerBlob) (k * 32) 32 =
        window stream (32 * (i * fieldElementsPerBlob + k)) 32 := by
      simp only [fieldElementsPerBlob] at inside
      apply window_congr
      intro j below'
      have position : bytesPerBlob * i + (k * 32 + j) =
          32 * (i * fieldElementsPerBlob + k) + j := by
        simp only [bytesPerBlob, fieldElementsPerBlob, bytesPerFieldElement]
        omega
      have within : k * 32 + j < bytesPerBlob := by
        simp only [bytesPerBlob, fieldElementsPerBlob, bytesPerFieldElement]
        omega
      simp [getD, getElem?_take, if_pos within, position]
    rw [fieldElement, ← streams.element_eq]
    exact congrArg (fun bytes => BitVec.ofNat 256 (decode bytes)) read

/-! ## Agreement -/

theorem blobCount_eq {proofLength : Nat} (positive : proofLength ≠ 0)
    (fits : proofLength ≤ twoBlobCapacity) :
    blobCount proofLength = .ok (if proofLength ≤ oneBlobCapacity then 1 else 2) := by
  by_cases one : proofLength ≤ oneBlobCapacity
  · simp [blobCount, positive, one]
  · simp [blobCount, positive, one, fits]

theorem Streams.blobs_length (streams : Streams payload stream blobs) :
    (chunksExact bytesPerBlob stream).length = blobs := by
  simp [chunksExact, streams.length]
  exact Nat.mul_div_cancel _ (by decide)

/-- The producer only encodes what it can also measure. -/
theorem encodeSimpleCoderBlobs_ok {blobs : List Bytes}
    (h : encodeSimpleCoderBlobs payload = .ok blobs) :
    payload ≠ [] ∧ payload.length ≤ twoBlobCapacity := by
  simp only [encodeSimpleCoderBlobs, bind_ok, revertIf_ok, exists_unit] at h
  obtain ⟨nonempty, fits, -⟩ := h
  exact ⟨nonempty, le_of_not_gt fits⟩

theorem ofNat_element_toNat (fits : payload.length ≤ twoBlobCapacity) (g : Nat) :
    (BitVec.ofNat 256 (element payload g)).toNat = element payload g := by
  have bound := element_lt (short_of_fits fits) g
  rw [BitVec.toNat_ofNat]
  exact Nat.mod_eq_of_lt (bound.trans (Nat.pow_lt_pow_right (by omega) (by omega)))

/-- Two payloads with the same blobs are equal. -/
theorem encodeSimpleCoderBlobs_inj {payload' : Bytes} {blobs : List Bytes}
    (h : encodeSimpleCoderBlobs payload = .ok blobs)
    (h' : encodeSimpleCoderBlobs payload' = .ok blobs) : payload = payload' := by
  obtain ⟨nonempty, fits⟩ := encodeSimpleCoderBlobs_ok h
  obtain ⟨nonempty', fits'⟩ := encodeSimpleCoderBlobs_ok h'
  obtain ⟨stream, encoded, streams⟩ := encodeSimpleCoderBlobs_streams nonempty fits
  obtain ⟨stream', encoded', streams'⟩ := encodeSimpleCoderBlobs_streams nonempty' fits'
  cases h.symm.trans encoded
  have same : chunksExact bytesPerBlob stream' = chunksExact bytesPerBlob stream :=
    (Except.ok.inj (h'.symm.trans encoded')).symm
  obtain ⟨reach, positive⟩ := blobsOf_reach fits
  refine element_inj reach (mul_pos positive (by decide)) ?_
  intro g below
  -- element `g` stands in blob `g / 4096`, which both payloads produce
  have blobBelow : g / fieldElementsPerBlob < (chunksExact bytesPerBlob stream).length := by
    rw [streams.blobs_length]
    exact Nat.div_lt_of_lt_mul (by rwa [mul_comm])
  have inside : g % fieldElementsPerBlob < fieldElementsPerBlob := mod_lt _ (by decide)
  obtain ⟨blob, cut⟩ : ∃ blob, (chunksExact bytesPerBlob stream)[g / fieldElementsPerBlob]? =
    some blob := ⟨_, getElem?_eq_getElem blobBelow⟩
  have mine := (streams.blob cut).2 _ inside
  have theirs := (streams'.blob (by rw [same]; exact cut)).2 _ inside
  rw [div_add_mod'] at mine theirs
  have values := congrArg BitVec.toNat (mine.symm.trans theirs)
  rwa [ofNat_element_toNat fits, ofNat_element_toNat fits'] at values

/-- For every payload of one byte up to the capacity of two blobs the producer's blobs
    exist, the contract counts as many, and whatever follows the proof in the calldata, each
    field element the contract fills is the producer's and fits 248 bits.  The blobs determine
    the payload. -/
theorem blob_encodings_agree {payload : Bytes} (nonempty : 1 ≤ payload.length)
    (fits : payload.length ≤ twoBlobCapacity) :
    ∃ blobs, encodeSimpleCoderBlobs payload = .ok blobs ∧
      blobCount payload.length = .ok blobs.length ∧
      (∀ i blob, blobs[i]? = some blob → blob.length = bytesPerBlob ∧
        ∀ k < fieldElementsPerBlob,
          (fieldElement blob k).toNat < 2 ^ 248 ∧
          ∀ rest, fillSimpleCoderBlob payload rest i k = fieldElement blob k) ∧
      ∀ payload', encodeSimpleCoderBlobs payload' = .ok blobs → payload' = payload := by
  have bytes : payload ≠ [] := List.ne_nil_of_length_pos nonempty
  obtain ⟨stream, encoded, streams⟩ := encodeSimpleCoderBlobs_streams bytes fits
  refine ⟨_, encoded, ?_, ?_, fun payload' encoded' =>
    encodeSimpleCoderBlobs_inj encoded' encoded⟩
  · rw [streams.blobs_length, blobCount_eq (by omega) fits]
    rfl
  · intro i blob cut
    obtain ⟨length, elements⟩ := streams.blob cut
    refine ⟨length, ?_⟩
    intro k inside
    rw [elements k inside, ofNat_element_toNat fits]
    exact ⟨element_lt (short_of_fits fits) _,
      fun rest => fillSimpleCoderBlob_apply payload rest i inside⟩

/-- One byte more than fits the first blob. -/
theorem blob_encodings_agree_sample :
    ∃ blobs, encodeSimpleCoderBlobs (List.replicate 126946 7) = .ok blobs ∧
      blobs.length = 2 := by
  have agree := @blob_encodings_agree (List.replicate 126946 7)
    (by rw [List.length_replicate]; decide) (by rw [List.length_replicate]; decide)
  obtain ⟨blobs, encoded, count, -⟩ := agree
  rw [List.length_replicate] at count
  have two : blobCount 126946 = .ok 2 := by decide
  exact ⟨blobs, encoded, Except.ok.inj (count.symm.trans two)⟩

end Intmax.Blob
