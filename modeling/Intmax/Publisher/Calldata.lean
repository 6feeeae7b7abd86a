import Intmax.Lib.Traversal
import Intmax.Publisher.Abi

/-! # Calldata read back

What a JSON value describes for a kind, and Solidity's own encoding and decoding of the kinds.  Both
encoders write what Solidity writes for the values that are described, and the decoder finds these
again and reads every byte once.
-/

namespace Intmax.Abi

open List hiding tails
open Checked HeadTail

/-! ## Arguments -/

inductive AbiValue where
  | number (n : Nat)
  | flag (value : Bool)
  | bytes (data : List UInt8)
  | list (items : List AbiValue)

def describeUint : Json → Option Nat
  | .string text => (Decimal.read text.toList).toOption
  | .number asU64 => asU64.map BitVec.toNat
  | _ => none

def describeHex (value : Json) : Option (List UInt8) := do
  let text ← value.asStr
  let body ← stripHex text.toList
  hexPairs body

mutual

/-- The argument that a JSON value stands for, with the members that the validity publisher
    finds. -/
def describe : AbiKind → Json → Option AbiValue
  | .uint _, value => (describeUint value).map .number
  | .bool, value => value.asBool.map .flag
  | .address, value => (describeHex value).map .bytes
  | .fixedBytes _, value => (describeHex value).map .bytes
  | .bytes, value => (describeHex value).map .bytes
  | .tuple fields, value => (describeFields fields.isSingle fields value).map .list
  | .fixedArray element _, value => do
    let items ← value.asArray
    (items.mapM (describe element)).map .list
  | .dynamicArray element, value => do
    let items ← value.asArray
    (items.mapM (describe element)).map .list

def describeFields (only : Bool) : AbiFields → Json → Option (List AbiValue)
  | .nil, _ => some []
  | .cons name kind rest, value => do
    let member ← (fieldValue .validity only value name "").toOption
    let first ← describe kind member
    let later ← describeFields only rest value
    some (first :: later)

end

/-! ## Solidity's encoding -/

mutual

/-- The room of a kind that is not dynamic. -/
def AbiKind.size : AbiKind → Nat
  | .tuple fields => fields.size
  | .fixedArray element length => element.size * length
  | _ => 32

def AbiFields.size : AbiFields → Nat
  | .nil => 0
  | .cons _ kind rest => kind.size + rest.size

end

def padding (n : Nat) : Nat := (n + 31) / 32 * 32 - n

mutual

def write : AbiKind → AbiValue → List UInt8
  | .address, .bytes data => List.replicate 12 0 ++ data
  | .bool, .flag value => List.replicate 31 0 ++ [if value then 1 else 0]
  | .uint _, .number n => word n
  | .fixedBytes size, .bytes data => data ++ List.replicate (32 - size) 0
  | .bytes, .bytes data => word data.length ++ data ++ List.replicate (padding data.length) 0
  | .tuple fields, .list items => layout (pieces fields items)
  | .fixedArray element _, .list items =>
    layout (items.map fun item => ⟨element.isDynamic, write element item⟩)
  | .dynamicArray element, .list items =>
    word items.length ++ layout (items.map fun item => ⟨element.isDynamic, write element item⟩)
  | _, _ => []

def pieces : AbiFields → List AbiValue → List Piece
  | .cons _ kind rest, first :: later => ⟨kind.isDynamic, write kind first⟩ :: pieces rest later
  | _, _ => []

end

def piece (entry : AbiKind × AbiValue) : Piece := ⟨entry.1.isDynamic, write entry.1 entry.2⟩

def decodeWord (interpret : List UInt8 → Option AbiValue) (data : List UInt8) :
    Option (AbiValue × List Nat) :=
  if 32 ≤ data.length then (interpret (data.take 32)).map fun value => (value, List.range 32)
  else none

mutual

def decodeValue : AbiKind → List UInt8 → Option (AbiValue × List Nat)
  | .address, data => decodeWord (fun bytes =>
      if bytes.take 12 = List.replicate 12 0 then some (.bytes (bytes.drop 12)) else none) data
  | .bool, data => decodeWord (fun bytes =>
      if BigEndian.decode bytes < 2 then some (.flag (BigEndian.decode bytes = 1)) else none) data
  | .uint bits, data => decodeWord (fun bytes =>
      if BigEndian.decode bytes < 2 ^ bits then some (.number (BigEndian.decode bytes))
      else none) data
  | .fixedBytes size, data => decodeWord (fun bytes =>
      if bytes.drop size = List.replicate (32 - size) 0 then some (.bytes (bytes.take size))
      else none) data
  | .bytes, data => do
    let n ← readWord data
    if (data.drop (32 + n)).take (padding n) = List.replicate (padding n) 0 ∧
        32 + n ≤ data.length then
      some (.bytes ((data.drop 32).take n), List.range (32 + n + padding n))
    else none
  | .tuple fields, data => (read data 0 (readers fields)).map fun found =>
      (.list found.1, found.2)
  | .fixedArray element length, data =>
    (read data 0 (List.replicate length ⟨element.isDynamic, element.size,
      decodeValue element⟩)).map fun found => (.list found.1, found.2)
  | .dynamicArray element, data => do
    let n ← readWord data
    -- the offsets of the elements count from behind their number
    let found ← read (data.drop 32) 0
      (List.replicate n ⟨element.isDynamic, element.size, decodeValue element⟩)
    some (.list found.1, List.range 32 ++ found.2.map (32 + ·))

def readers : AbiFields → List (Reader AbiValue)
  | .nil => []
  | .cons _ kind rest => ⟨kind.isDynamic, kind.size, decodeValue kind⟩ :: readers rest

end

def reader (kind : AbiKind) : Reader AbiValue := ⟨kind.isDynamic, kind.size, decodeValue kind⟩

/-- The arguments of a call, from the bytes behind the selector. -/
def decodeArguments (kinds : List AbiKind) (data : List UInt8) :
    Option (List AbiValue × List Nat) :=
  read data 0 (kinds.map reader)

/-! ## Sizes -/

variable {n : Nat} {bytes bytes' : List UInt8} {value : Json} {path : String}

theorem checked_ok_iff {m : Nat} {overflow : String} :
    checked n overflow = .ok m ↔ n < 2 ^ 64 ∧ n = m := by
  simp [checked]

mutual

theorem staticSize_ok : ∀ (kind : AbiKind) {n : Nat}, kind.staticSize = .ok n → n = kind.size
  | .address, _, done => by cases done; rfl
  | .bool, _, done => by cases done; rfl
  | .uint _, _, done => by cases done; rfl
  | .fixedBytes _, _, done => by cases done; rfl
  | .bytes, _, done => by cases done
  | .dynamicArray _, _, done => by cases done
  | .tuple fields, n, done => by
    simp [AbiKind.staticSize] at done
    rw [AbiKind.size, fieldSizes_ok fields done.2, zero_add]
  | .fixedArray element length, n, done => by
    simp [AbiKind.staticSize, checked_ok_iff] at done
    obtain ⟨-, size, found, -, rfl⟩ := done
    rw [AbiKind.size, staticSize_ok element found]

theorem fieldSizes_ok : ∀ (fields : AbiFields) {total n : Nat},
    fields.staticSize total = .ok n → n = total + fields.size
  | .nil, _, _, done => by cases done; rfl
  | .cons _ kind rest, total, n, done => by
    simp only [AbiFields.staticSize, bind_ok, checked_ok_iff] at done
    obtain ⟨size, found, _, ⟨-, rfl⟩, later⟩ := done
    rw [fieldSizes_ok rest later, staticSize_ok kind found, AbiFields.size, add_assoc]

end

/-! ## Sequences -/

/-- What the encoder writes for a kind is Solidity's encoding of what the value describes, and the
    decoder reads it. -/
def Read (p : Publisher) (kind : AbiKind) : Prop :=
  ∀ value path body, encodeValueBody p kind value path = .ok body →
    (kind.isDynamic = false → body.length = kind.size) ∧
    ∃ described, describe kind value = some described ∧ body = write kind described ∧
      Reads (decodeValue kind) body described

variable {p : Publisher} {args : List Argument}

/-- The first loop adds up the heads. -/
theorem headSizes_ok {total : Nat} (done : (args.map (part p)).foldlM headSizes total = .ok n) :
    n = total + slots (args.map (reader ·.1)) := by
  induction args generalizing total with
  | nil =>
    cases done
    rfl
  | cons arg later ih =>
    simp only [map_cons, foldlM_cons, headSizes, bind_ok, checked_ok_iff] at done
    obtain ⟨_, ⟨size, found, -, rfl⟩, rest⟩ := done
    have room : size = if arg.1.isDynamic then 32 else arg.1.size := by
      obtain ⟨dynamic, found⟩ | ⟨fixed, found⟩ := ite_ok.mp found
      · cases found
        exact (if_pos dynamic).symm
      · exact (staticSize_ok arg.1 found).trans (if_neg fixed).symm
    rw [ih rest, room, add_assoc]
    rfl

/-- The second loop lays the bodies out. -/
theorem place_ok (reads : ∀ arg ∈ args, Read p arg.1) {headSize : Nat}
    {head tail : List UInt8} {written : List UInt8 × List UInt8}
    (done : (args.map (part p)).foldlM (place headSize) (head, tail) = .ok written) :
    ∃ found : List (AbiKind × AbiValue), args.map (·.1) = found.map (·.1) ∧
      args.map (fun arg => describe arg.1 arg.2.1) = found.map (some ·.2) ∧
      (∀ entry ∈ found, Fits (piece entry) (reader entry.1) entry.2) ∧
      written.1 = head ++ heads (headSize + tail.length) (found.map piece) ∧
      written.2 = tail ++ tails (found.map piece) ∧
      Addressed (headSize + tail.length) (found.map piece) := by
  induction args generalizing head tail with
  | nil =>
    cases done
    exact ⟨[], rfl, rfl, forall_mem_nil _, by simp [heads], by simp [tails], trivial⟩
  | cons arg later ih =>
    obtain ⟨here, there⟩ := forall_mem_cons.mp reads
    simp only [map_cons, foldlM_cons, bind_ok, place, part, AbiKind.part] at done
    obtain ⟨next, step, rest⟩ := done
    cases fixed : arg.1.isDynamic with
    | false =>
      simp [fixed, ↓reduceIte] at step
      obtain ⟨_, made, rfl⟩ := step
      obtain ⟨static, value, same, rfl, run⟩ := here _ _ _ made
      obtain ⟨found, kinds, values, fits, first, second, addressed⟩ := ih there rest
      refine ⟨(arg.1, value) :: found, by simp [kinds], by simp [same, values],
        forall_mem_cons.mpr ⟨⟨rfl, fun _ => (static fixed).symm, run⟩, fits⟩, ?_⟩
      simp_all [heads, tails, Addressed, piece]
    | true =>
      simp only [fixed, ↓reduceIte, abiWordFromUsize, bind_ok, checked_ok_iff, revertIf_ok,
        exists_unit, pure_ok] at step
      obtain ⟨_, ⟨small, rfl⟩, _, ⟨-, rfl⟩, _, made, rfl⟩ := step
      obtain ⟨-, value, same, rfl, run⟩ := here _ _ _ made
      obtain ⟨found, kinds, values, fits, first, second, addressed⟩ := ih there rest
      have word_fits : headSize + tail.length < 256 ^ 32 := lt_trans small (by decide)
      rw [length_append, ← add_assoc] at first addressed
      refine ⟨(arg.1, value) :: found, by simp [kinds], by simp [same, values],
        forall_mem_cons.mpr ⟨⟨rfl, fun still => ?_, run⟩, fits⟩, ?_⟩
      · cases fixed.symm.trans still
      · simp_all [heads, tails, Addressed, piece]

/-- A sequence is Solidity's, and is read back as what its entries describe. -/
theorem encodeSequence_reads (reads : ∀ arg ∈ args, Read p arg.1)
    (done : encodeSequence (args.map (part p)) = .ok bytes) :
    ∃ found : List (AbiKind × AbiValue), args.map (·.1) = found.map (·.1) ∧
      args.map (fun arg => describe arg.1 arg.2.1) = found.map (some ·.2) ∧
      bytes = layout (found.map piece) ∧
      Reads (read · 0 (args.map (reader ·.1))) bytes (found.map (·.2)) ∧
      ((∀ arg ∈ args, arg.1.isDynamic = false) →
      bytes.length = slots (args.map (reader ·.1))) := by
  simp only [encodeSequence, bind_ok, pure_ok] at done
  obtain ⟨n, sizes, written, placed, rfl⟩ := done
  obtain ⟨found, kinds, values, fits, first, second, addressed⟩ := place_ok reads placed
  have readers : args.map (reader ·.1) = found.map (reader ·.1) := by
    have mapped := congrArg (map reader) kinds
    rw [map_map, map_map] at mapped
    exact mapped
  rw [headSizes_ok sizes, zero_add, readers, ← headSize_eq_slots fits] at first addressed
  have laid : written.1 ++ written.2 = layout (found.map piece) := by
    rw [first, second, nil_append, nil_append]
    rfl
  refine ⟨found, kinds, values, laid, ?_, fun static => ?_⟩
  · rw [laid, readers]
    exact reads_layout fits addressed
  · have none : tails (found.map piece) = [] := by
      refine tails_of_static fun entry inside => ?_
      have known : entry.1 ∈ args.map (·.1) := kinds ▸ mem_map_of_mem inside
      obtain ⟨arg, among, same⟩ := mem_map.mp known
      have still : entry.1.isDynamic = false := same ▸ static arg among
      exact still
    rw [laid, layout, length_append, length_heads, none, headSize_eq_slots fits, readers]
    rfl

/-! ## Values of one word, and bytes -/

theorem reads_word {interpret : List UInt8 → Option AbiValue} {body : List UInt8}
    {value : AbiValue} (long : body.length = 32) (found : interpret body = some value) :
    Reads (decodeWord interpret) body value := by
  intro rest
  refine ⟨range 32, ?_, by rw [long]⟩
  have front : (body ++ rest).take 32 = body := take_left' long
  rw [decodeWord, if_pos (by simp [long]), front, found]
  rfl

theorem decodeHex_ok {expected : Option Nat} {notText : String}
    (done : decodeHex p value expected path notText = .ok bytes) :
    describeHex value = some bytes ∧ ∀ n, expected = some n → bytes.length = n := by
  simp only [decodeHex, bind_ok, getOrRevert_ok, revertIf_ok, exists_unit, pure_ok] at done
  obtain ⟨text, isText, body, stripped, _, pairs, exact_length, rfl⟩ := done
  refine ⟨by simp [describeHex, isText, stripped, pairs], ?_⟩
  rintro n rfl
  simpa using exact_length

theorem uintText_ok {text : List Char} (found : uintText value path = .ok text)
    (parsed : (Decimal.read text).toOption = some n) : describeUint value = some n := by
  unfold uintText at found
  split at found
  case h_1 =>
    cases found
    exact parsed
  case h_2 =>
    cases found
    rw [Decimal.read_write] at parsed
    cases parsed
    rfl
  case h_3 => cases found

theorem parseUintValue_ok {bits : Nat} (done : parseUintValue p value bits path = .ok n) :
    describeUint value = some n ∧ n < 2 ^ bits ∧ n < 256 ^ 32 := by
  simp only [parseUintValue, bind_ok, getOrRevert_ok, revertIf_ok, exists_unit,
    pure_ok, not_or, not_le, not_lt] at done
  obtain ⟨text, found, -, _, parsed, ⟨-, wide, small⟩, rfl⟩ := done
  have top : 2 ^ bits ≤ 2 ^ 256 := Nat.pow_le_pow_right two_pos wide
  exact ⟨uintText_ok found parsed, small, lt_of_lt_of_le small top⟩

theorem reads_bytes (small : bytes.length + 31 < 2 ^ 64) :
    Reads (decodeValue .bytes)
      (word bytes.length ++ bytes ++ replicate (padding bytes.length) 0) (.bytes bytes) := by
  intro rest
  refine ⟨range (32 + bytes.length + padding bytes.length), ?_, by simp [add_assoc]⟩
  have fits : bytes.length < 256 ^ 32 := lt_trans (lt_of_le_of_lt (Nat.le_add_right _ 31) small)
    (by decide)
  have behind (more : List UInt8) : (word bytes.length ++ (bytes ++ more)).drop 32 =
      bytes ++ more :=
    drop_left' (length_word _)
  simp only [decodeValue, append_assoc, readWord_word fits, Option.bind_eq_bind,
    Option.bind_some, behind, ← drop_drop, drop_left, take_left]
  rw [if_pos]
  refine ⟨take_left' (by simp), by simp⟩

/-! ## Values -/

/-- The items of an array. -/
theorem Read.elements {element : AbiKind} (here : Read p element) {items : List Json}
    (done : encodeSequence (items.zipIdx.map fun item =>
      element.part (encodeValueBody p element item.1 (path ++ "[" ++ toString item.2 ++ "]"))) =
      .ok bytes) :
    ∃ values, items.mapM (describe element) = some values ∧
      bytes = layout (values.map fun value => ⟨element.isDynamic, write element value⟩) ∧
      Reads (read · 0 (replicate items.length (reader element))) bytes values ∧
      (element.isDynamic = false → bytes.length = element.size * items.length) := by
  let args : List Argument := items.zipIdx.map fun item =>
    (element, item.1, path ++ "[" ++ toString item.2 ++ "]")
  have kind : ∀ arg ∈ args, arg.1 = element := by
    intro arg member
    obtain ⟨item, -, rfl⟩ := mem_map.mp member
    rfl
  have readers : args.map (reader ·.1) = replicate items.length (reader element) := by
    simp [args, Function.comp_def]
  have described : args.map (fun arg => describe arg.1 arg.2.1) = items.map (describe element) := by
    conv_rhs => rw [← zipIdx_map_fst 0 items, map_map]
    simp [args]
  have listed : encodeSequence (args.map (part p)) = .ok bytes := by
    rw [map_map]
    exact done
  obtain ⟨found, kinds, same, laid, reads, static⟩ :=
    encodeSequence_reads (fun arg member => kind arg member ▸ here) listed
  rw [readers] at reads static
  refine ⟨found.map (·.2), mapM_option_eq_some_iff.mpr ?_, ?_, reads, fun fixed => ?_⟩
  · rw [← described, same, map_map]
    rfl
  · rw [laid, map_map]
    refine congrArg layout (map_congr_left fun entry inside => ?_)
    have known : entry.1 ∈ args.map (·.1) := kinds ▸ mem_map_of_mem inside
    obtain ⟨arg, among, eq⟩ := mem_map.mp known
    rw [Function.comp_apply, ← kind arg among, eq]
    rfl
  · rw [static fun arg member => kind arg member ▸ fixed, slots_replicate]
    simp [reader, fixed, mul_comm]

theorem read_address : Read p .address := by
  intro value path body done
  simp only [encodeValueBody, bind_ok, exists_unit, pure_ok] at done
  obtain ⟨bytes, found, -, rfl⟩ := done
  obtain ⟨described, long⟩ := decodeHex_ok found
  have length : (replicate 12 0 ++ bytes).length = 32 := by simp [long 20 rfl]
  refine ⟨fun _ => length, .bytes bytes, by simp [describe, described], rfl,
    reads_word length ?_⟩
  rw [if_pos (take_left' (by simp)), drop_left' (by simp)]

theorem read_bool : Read p .bool := by
  intro value path body done
  simp only [encodeValueBody, bind_ok, exists_unit, getOrRevert_ok, pure_ok] at done
  obtain ⟨-, boolean, found, rfl⟩ := done
  refine ⟨fun _ => by simp [AbiKind.size], .flag boolean, by simp [describe, found],
    rfl, reads_word (by simp) ?_⟩
  rw [BigEndian.decode_snoc, BigEndian.decode_zeros]
  cases boolean with
  | false => rfl
  | true => rfl

theorem read_uint (bits : Nat) : Read p (.uint bits) := by
  intro value path body done
  simp [encodeValueBody] at done
  obtain ⟨n, found, rfl⟩ := done
  obtain ⟨described, small, fits⟩ := parseUintValue_ok found
  refine ⟨fun _ => length_word n, .number n, by simp [describe, described],
    rfl, reads_word (length_word n) ?_⟩
  rw [word, BigEndian.decode_encode fits, if_pos small]

theorem read_fixedBytes (size : Nat) : Read p (.fixedBytes size) := by
  intro value path body done
  simp [encodeValueBody] at done
  obtain ⟨bytes, found, fits, rfl⟩ := done
  obtain ⟨described, long⟩ := decodeHex_ok found
  have known := long size rfl
  have length : (bytes ++ replicate (32 - size) 0).length = 32 := by
    rw [length_append, length_replicate, known]
    omega
  refine ⟨fun _ => length, .bytes bytes, by simp [describe, described], rfl,
    reads_word length ?_⟩
  rw [if_pos (drop_left' known), take_left' known]

theorem read_bytes : Read p .bytes := by
  intro value path body done
  simp only [encodeValueBody, abiWordFromUsize, bind_ok, exists_unit, checked_ok_iff,
    pure_ok] at done
  obtain ⟨bytes, found, _, ⟨small, rfl⟩, _, ⟨-, rfl⟩, rfl⟩ := done
  obtain ⟨described, -⟩ := decodeHex_ok found
  exact ⟨fun fixed => (by cases fixed), .bytes bytes, by simp [describe, described],
    rfl, reads_bytes small⟩

/-- Where a publisher finds a member, the validity publisher finds it. -/
theorem fieldValue_ok {only : Bool} {member : Json} {name : String}
    (found : fieldValue p only value name path = .ok member) :
    fieldValue .validity only value name "" = .ok member := by
  cases p with
  | validity =>
    simp [fieldValue, jsonMember] at found ⊢
    exact found
  | close =>
    simp [fieldValue, jsonMember, reduceCtorEq, ↓reduceIte] at found ⊢
    obtain ⟨members, object, named⟩ := found
    cases value with
    | object own =>
      cases object
      simp [Json.asArray, Json.asObject, named]
    | null | bool _ | number _ | string _ | array _ => cases object

mutual

theorem read_value (p : Publisher) : ∀ kind, Read p kind
  | .address => read_address
  | .bool => read_bool
  | .uint bits => read_uint bits
  | .fixedBytes size => read_fixedBytes size
  | .bytes => read_bytes
  | .tuple fields => by
    intro value path body done
    simp only [encodeValueBody, bind_ok] at done
    obtain ⟨_, members, done⟩ := done
    obtain ⟨args, rfl, readers, all, described, static⟩ :=
      read_fields p fields.isSingle fields members
    obtain ⟨found, kinds, same, laid, reads, length⟩ := encodeSequence_reads all done
    obtain ⟨values, written⟩ := described found kinds same
    refine ⟨fun fixed => ?_, .list (found.map (·.2)), by simp [describe, values],
      by rw [laid, write, written], fun rest => ?_⟩
    · obtain ⟨still, size⟩ := static fixed
      rw [length still, ← readers, size]
      rfl
    · obtain ⟨used, run, places⟩ := reads rest
      rw [← readers] at run
      exact ⟨used, by simp [decodeValue, run], places⟩
  | .fixedArray element expected => by
    intro value path body done
    simp [encodeValueBody] at done
    obtain ⟨-, items, array, rfl, done⟩ := done
    obtain ⟨values, described, laid, reads, length⟩ := (read_value p element).elements done
    refine ⟨length, .list values, by simp [describe, array, described], laid, fun rest => ?_⟩
    obtain ⟨used, run, places⟩ := reads rest
    rw [reader] at run
    exact ⟨used, by simp [decodeValue, run], places⟩
  | .dynamicArray element => by
    intro value path body done
    simp only [encodeValueBody, abiWordFromUsize, bind_ok, exists_unit, getOrRevert_ok,
      revertIf_ok, not_le, pure_ok] at done
    obtain ⟨-, items, array, _, ⟨small, rfl⟩, sequence, done, rfl⟩ := done
    obtain ⟨values, described, laid, reads, -⟩ := (read_value p element).elements done
    refine ⟨fun fixed => (by cases fixed), .list values, by simp [describe, array, described],
      by rw [write, ← laid, mapM_option_length described], fun rest => ?_⟩
    obtain ⟨used, run, places⟩ := reads rest
    rw [reader] at run
    have fits : items.length < 256 ^ 32 := lt_trans small (by decide)
    have behind : (word items.length ++ (sequence ++ rest)).drop 32 = sequence ++ rest :=
      drop_left' (length_word _)
    refine ⟨range 32 ++ used.map (32 + ·), ?_, ?_⟩
    · simp [decodeValue, readWord_word fits, behind, run]
    · rw [length_append, length_word, range_add]
      exact (places.map _).append_left _

theorem read_fields (p : Publisher) (only : Bool) : ∀ (fields : AbiFields) {value : Json}
    {path : String} {parts : List Part}, memberParts p only fields value path = .ok parts →
    ∃ args : List Argument, parts = args.map (part p) ∧
      readers fields = args.map (reader ·.1) ∧ (∀ arg ∈ args, Read p arg.1) ∧
      (∀ found : List (AbiKind × AbiValue), args.map (·.1) = found.map (·.1) →
        args.map (fun arg => describe arg.1 arg.2.1) = found.map (some ·.2) →
        describeFields only fields value = some (found.map (·.2)) ∧
          pieces fields (found.map (·.2)) = found.map piece) ∧
      (fields.anyDynamic = false → (∀ arg ∈ args, arg.1.isDynamic = false) ∧
        slots (readers fields) = fields.size)
  | .nil, _, _, _, done => by
    cases done
    refine ⟨[], rfl, rfl, forall_mem_nil _, fun found kinds _ => ?_,
      fun _ => ⟨forall_mem_nil _, rfl⟩⟩
    cases found with
    | nil => exact ⟨rfl, rfl⟩
    | cons => cases kinds
  | .cons name kind rest, value, path, _, done => by
    simp [memberParts] at done
    obtain ⟨member, named, _, members, rfl⟩ := done
    obtain ⟨args, rfl, readers, all, described, static⟩ := read_fields p only rest members
    refine ⟨(kind, member, path ++ "." ++ name) :: args, rfl, by rw [Abi.readers, readers]; rfl,
      forall_mem_cons.mpr ⟨read_value p kind, all⟩, fun found kinds same => ?_,
      fun fixed => ?_⟩
    · cases found with
      | nil => cases kinds
      | cons first later =>
        obtain ⟨own, kinds⟩ := cons.inj kinds
        obtain ⟨head, same⟩ := cons.inj same
        have same_kind : kind = first.1 := own
        have here : describe kind member = some first.2 := head
        obtain ⟨values, written⟩ := described later kinds same
        constructor
        · simp [describeFields, fieldValue_ok named, Except.toOption, here, values]
        · simp [pieces, written, piece, same_kind]
    · rw [AbiFields.anyDynamic, Bool.or_eq_false_iff] at fixed
      obtain ⟨still, size⟩ := static fixed.2
      refine ⟨forall_mem_cons.mpr ⟨fixed.1, still⟩, ?_⟩
      rw [Abi.readers, slots, size, fixed.1, AbiFields.size]
      rfl

end

/-! ## Calldata -/

theorem digitChar_inj : ∀ i < 16, ∀ j < 16, Nat.digitChar i = Nat.digitChar j → i = j := by
  decide

theorem hexEncode_inj (same : hexEncode bytes = hexEncode bytes') : bytes = bytes' := by
  induction bytes generalizing bytes' with
  | nil =>
    cases bytes' with
    | nil => rfl
    | cons => simp [hexEncode] at same
  | cons b rest ih =>
    cases bytes' with
    | nil => simp [hexEncode] at same
    | cons b' rest' =>
      simp [hexEncode] at same
      obtain ⟨high, low, later⟩ := same
      have small := b.toNat_lt
      have small' := b'.toNat_lt
      have highs := digitChar_inj _ (by omega) _ (by omega) high
      have lows := digitChar_inj _ (by omega) _ (by omega) low
      have here : b = b' := UInt8.toNat_inj.mp (by omega)
      rw [here, ih later]

theorem encodeFunction_ok_iff (p : Publisher) (name : String) (args : List Argument)
    {calldata : String} : encodeFunction p name args = .ok calldata ↔
      ∃ sequence, encodeSequence (args.map (part p)) = .ok sequence ∧
        "0x" ++ String.ofList (hexEncode (selector name (args.map (·.1)) ++ sequence)) =
          calldata := by
  simp [encodeFunction]

/-- The calldata of one function shows the bytes of the arguments. -/
theorem calldata_inj {sequence sequence' : List UInt8}
    (same : "0x" ++ String.ofList (hexEncode (bytes ++ sequence)) =
      "0x" ++ String.ofList (hexEncode (bytes ++ sequence'))) : sequence = sequence' := by
  have texts := congrArg String.toList same
  simp only [String.toList_append, String.toList_ofList] at texts
  exact append_cancel_left (hexEncode_inj (append_cancel_left texts))

/-- What follows the selector is Solidity's encoding of the arguments that are described, and they
    are read back. -/
theorem arguments_read {sequence : List UInt8}
    (done : encodeSequence (args.map (part p)) = .ok sequence) :
    ∃ values used, args.mapM (fun arg => describe arg.1 arg.2.1) = some values ∧
      sequence = layout (((args.map (·.1)).zip values).map piece) ∧
      decodeArguments (args.map (·.1)) sequence = some (values, used) ∧
      used.Perm (range sequence.length) := by
  obtain ⟨found, kinds, same, laid, reads, -⟩ :=
    encodeSequence_reads (fun arg _ => read_value p arg.1) done
  obtain ⟨used, run, places⟩ := reads []
  refine ⟨found.map (·.2), used, mapM_option_eq_some_iff.mpr ?_, ?_, ?_, places⟩
  · rw [same, map_map]
    rfl
  · rw [laid, kinds, zip_map', map_id']
  · rw [append_nil] at run
    rw [decodeArguments, map_map]
    exact run

/-- Whatever arguments a publisher accepts, the decoder of Solidity reads behind the selector what
    the JSON values describe, every byte once.  Calldata for one function thus fixes the arguments,
    and where the other publisher accepts the values too, it writes the same. -/
theorem calldata_read_back (p : Publisher) (name : String) (args : List Argument)
    (calldata : String) (accepted : encodeFunction p name args = .ok calldata) :
    (∃ sequence values used,
      "0x" ++ String.ofList (hexEncode (selector name (args.map (·.1)) ++ sequence)) = calldata ∧
      args.mapM (fun arg => describe arg.1 arg.2.1) = some values ∧
      decodeArguments (args.map (·.1)) sequence = some (values, used) ∧
      used.Perm (List.range sequence.length)) ∧
    (∀ p' args', args'.map (·.1) = args.map (·.1) →
      encodeFunction p' name args' = .ok calldata →
      args'.mapM (fun arg => describe arg.1 arg.2.1) =
        args.mapM (fun arg => describe arg.1 arg.2.1)) ∧
    ∀ p' calldata', encodeFunction p' name args = .ok calldata' → calldata' = calldata := by
  obtain ⟨sequence, done, rfl⟩ := (encodeFunction_ok_iff _ _ _).mp accepted
  obtain ⟨values, used, described, laid, run, places⟩ := arguments_read done
  refine ⟨⟨sequence, values, used, rfl, described, run, places⟩, ?_, ?_⟩
  · intro p' args' kinds accepted'
    obtain ⟨sequence', done', written⟩ := (encodeFunction_ok_iff _ _ _).mp accepted'
    obtain ⟨values', used', described', -, run', -⟩ := arguments_read done'
    rw [kinds] at written
    obtain rfl := calldata_inj written
    rw [kinds, run] at run'
    cases run'
    rw [described, described']
  · intro p' calldata' accepted'
    obtain ⟨sequence', done', rfl⟩ := (encodeFunction_ok_iff _ _ _).mp accepted'
    obtain ⟨values', -, described', laid', -⟩ := arguments_read done'
    rw [described] at described'
    cases described'
    rw [laid', laid]

/-- Bytes and a number. -/
def submitArgs : List Argument :=
  [(.bytes, .string "0x0102", "proof"), (.uint 64, .number (some 7), "nonce")]

theorem calldata_read_back_submit : ∃ calldata,
    encodeFunction .close "submit" submitArgs = .ok calldata ∧
    encodeFunction .validity "submit" submitArgs = .ok calldata := by
  have close := (encodeFunction_ok_iff .close "submit" submitArgs).mpr ⟨_, rfl, rfl⟩
  have validity := (encodeFunction_ok_iff .validity "submit" submitArgs).mpr ⟨_, rfl, rfl⟩
  exact ⟨_, close, (calldata_read_back .close _ _ _ close).2.2 .validity _
    validity ▸ validity⟩

end Intmax.Abi
