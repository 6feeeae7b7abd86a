import Intmax.Lib.Checked
import Intmax.Lib.Decimal
import Intmax.Lib.HeadTail
import Intmax.Lib.Keccak

/-! # The ABI encoders of the publishers

The close publisher and the validity publisher each write calldata out of JSON with an encoder of
their own.  The two differ in the kinds they have, in how a member of a tuple is found, and in what
they refuse; the loop over a sequence is the same.
-/

namespace Intmax.Abi

open Checked HeadTail

inductive Publisher where
  | close
  | validity
  deriving DecidableEq

mutual

/-- `AbiKind`, with the constructors of both: the close publisher has no `DynamicArray`, the
    validity publisher neither `Bool` nor `FixedArray`. -/
inductive AbiKind where
  | address
  | bool
  | uint (bits : Nat)
  | fixedBytes (size : Nat)
  | bytes
  | tuple (fields : AbiFields)
  | fixedArray (element : AbiKind) (length : Nat)
  | dynamicArray (element : AbiKind)

/-- The `AbiField`s of a tuple. -/
inductive AbiFields where
  | nil
  | cons (name : String) (kind : AbiKind) (rest : AbiFields)

end

/-- A JSON value; of a number, what `as_u64` gives. -/
inductive Json where
  | null
  | bool (value : Bool)
  | number (asU64 : Option (BitVec 64))
  | string (text : String)
  | array (items : List Json)
  | object (members : List (String × Json))

inductive AbiError where
  | message (text : String)
  /-- A constructor that the publisher's enumeration does not have. -/
  | noSuchKind
  /-- A slice out of range. -/
  | panic

namespace Json

def asStr : Json → Option String
  | .string text => some text
  | _ => none

def asBool : Json → Option Bool
  | .bool value => some value
  | _ => none

def asArray : Json → Option (List Json)
  | .array items => some items
  | _ => none

def asObject : Json → Option (List (String × Json))
  | .object members => some members
  | _ => none

end Json

/-! ## Kinds -/

mutual

def AbiKind.signature : AbiKind → String
  | .address => "address"
  | .bool => "bool"
  | .uint bits => "uint" ++ toString bits
  | .fixedBytes size => "bytes" ++ toString size
  | .bytes => "bytes"
  | .tuple fields => "(" ++ String.intercalate "," fields.signatures ++ ")"
  | .fixedArray element length => element.signature ++ "[" ++ toString length ++ "]"
  | .dynamicArray element => element.signature ++ "[]"

def AbiFields.signatures : AbiFields → List String
  | .nil => []
  | .cons _ kind rest => kind.signature :: rest.signatures

end

mutual

def AbiKind.isDynamic : AbiKind → Bool
  | .bytes => true
  | .dynamicArray _ => true
  | .tuple fields => fields.anyDynamic
  | .fixedArray element _ => element.isDynamic
  | .address | .bool | .uint _ | .fixedBytes _ => false

def AbiFields.anyDynamic : AbiFields → Bool
  | .nil => false
  | .cons _ kind rest => kind.isDynamic || rest.anyDynamic

end

/-- A `usize` has 64 bits. -/
def checked (n : Nat) (overflow : String) : Except AbiError Nat := do
  revertIf (2 ^ 64 ≤ n) (.message overflow)
  pure n

mutual

def AbiKind.staticSize : AbiKind → Except AbiError Nat
  | .bytes | .dynamicArray _ => .error (.message "dynamic ABI value has no static size")
  | .address | .bool | .uint _ | .fixedBytes _ => .ok 32
  | .tuple fields => do
    revertIf fields.anyDynamic (.message "dynamic ABI value has no static size")
    fields.staticSize 0
  | .fixedArray element length => do
    revertIf element.isDynamic (.message "dynamic ABI value has no static size")
    let size ← element.staticSize
    checked (size * length) "ABI fixed-array size overflow"

def AbiFields.staticSize : AbiFields → Nat → Except AbiError Nat
  | .nil, total => .ok total
  | .cons _ kind rest, total => do
    let size ← kind.staticSize
    let total ← checked (total + size) "ABI static tuple size overflow"
    rest.staticSize total

end

/-! ## Values -/

/-- The name under which the Rust producer writes a public input. -/
def snakeCase : String → Option String
  | "initialBlockNumber" => some "initial_block_number"
  | "initialBlockChain" => some "initial_block_chain"
  | "initialExtCommitment" => some "initial_ext_commitment"
  | "finalBlockNumber" => some "final_block_number"
  | "finalBlockChain" => some "final_block_chain"
  | "finalExtCommitment" => some "final_ext_commitment"
  | _ => none

def jsonMember (p : Publisher) (value : Json) (name path : String) : Except AbiError Json := do
  let members ← getOrRevert value.asObject (.message (path ++ " must be a JSON object"))
  getOrRevert ((members.lookup name).or
      (if p = .validity then (snakeCase name).bind (List.lookup · members) else none))
    (.message (path ++ "." ++ name ++ " is missing"))

/-- The value of a field.  The validity publisher takes an array for a tuple that has `evals` as its
    only field. -/
def fieldValue (p : Publisher) (only : Bool) (value : Json) (name path : String) :
    Except AbiError Json :=
  if p = .validity ∧ only = true ∧ name = "evals" ∧ value.asArray.isSome then .ok value
  else jsonMember p value name path

/-- The text of a number: a string's own, or what a JSON number is written as. -/
def uintText (value : Json) (path : String) : Except AbiError (List Char) :=
  match value with
  | .string text => .ok text.toList
  | .number (some n) => .ok (Decimal.write n.toNat)
  | _ => .error (.message (path ++ " must be an unsigned integer"))

def parseUintValue (p : Publisher) (value : Json) (bits : Nat) (path : String) :
    Except AbiError Nat := do
  let text ← uintText value path
  revertIf (text = [] ∨ (p = .close ∧ 1 < text.length ∧ text.head? = some '0') ∨
      text.any (fun c => !c.isDigit))
    (.message (path ++ " must be a canonical decimal unsigned integer"))
  let parsed ← getOrRevert (Decimal.read text).toOption
    (.message (path ++ " is not an unsigned integer"))
  revertIf (bits = 0 ∨ 256 < bits ∨ 2 ^ bits ≤ parsed)
    (.message (path ++ " does not fit uint" ++ toString bits))
  pure parsed

def hexDigit (c : Char) : Option Nat :=
  if c.isDigit then some (c.toNat - 48)
  else if 'a' ≤ c ∧ c ≤ 'f' then some (c.toNat - 87)
  else if 'A' ≤ c ∧ c ≤ 'F' then some (c.toNat - 55)
  else none

/-- The bytes of pairs of hex digits. -/
def hexPairs : List Char → Option (List UInt8)
  | [] => some []
  | [_] => none
  | high :: low :: rest => do
    let high ← hexDigit high
    let low ← hexDigit low
    let bytes ← hexPairs rest
    some (UInt8.ofNat (16 * high + low) :: bytes)

def stripHex : List Char → Option (List Char)
  | '0' :: 'x' :: body => some body
  | '0' :: 'X' :: body => some body
  | _ => none

/-- `decode_hex`; the close publisher has a text of its own, `notText`, for a value that is no
    string. -/
def decodeHex (p : Publisher) (value : Json) (expected : Option Nat) (path notText : String) :
    Except AbiError (List UInt8) := do
  let text ← getOrRevert value.asStr
    (.message (path ++ if p = .close then notText else " must be 0x-prefixed hex"))
  let body ← getOrRevert (stripHex text.toList) (.message (path ++ " must be 0x-prefixed hex"))
  let decoded ← getOrRevert (hexPairs body) (.message (path ++ " is malformed hex"))
  revertIf (expected.any (decoded.length ≠ ·))
    (.message (path ++ " has " ++ toString decoded.length ++ " bytes; expected exactly " ++
      toString (expected.getD 0)))
  pure decoded

/-! ## Encoding -/

def abiWordFromUsize (value : Nat) : Except AbiError (List UInt8) := do
  revertIf (2 ^ 64 ≤ value) (.message "ABI length/offset does not fit u64")
  pure (word value)

/-- An entry of a sequence, as `encode_sequence` asks for it. -/
structure Part where
  isDynamic : Bool
  staticSize : Except AbiError Nat
  body : Except AbiError (List UInt8)

def AbiKind.part (kind : AbiKind) (body : Except AbiError (List UInt8)) : Part :=
  ⟨kind.isDynamic, kind.staticSize, body⟩

def headSizes (total : Nat) (part : Part) : Except AbiError Nat := do
  let size ← (if part.isDynamic then .ok 32 else part.staticSize)
  checked (total + size) "ABI head size overflow"

def place (headSize : Nat) (written : List UInt8 × List UInt8) (part : Part) :
    Except AbiError (List UInt8 × List UInt8) :=
  if part.isDynamic then do
    let offset ← checked (headSize + written.2.length) "ABI offset overflow"
    let offset ← abiWordFromUsize offset
    let body ← part.body
    pure (written.1 ++ offset, written.2 ++ body)
  else do
    let body ← part.body
    pure (written.1 ++ body, written.2)

def encodeSequence (parts : List Part) : Except AbiError (List UInt8) := do
  let headSize ← parts.foldlM headSizes 0
  let written ← parts.foldlM (place headSize) ([], [])
  pure (written.1 ++ written.2)

def zeroAddress : Publisher → String
  | .close => " must be a nonzero address"
  | .validity => " must not be the zero address"

def bytesOverflow : Publisher → String
  | .close => "ABI bytes length overflow"
  | .validity => "ABI byte length overflow"

def AbiFields.isSingle : AbiFields → Bool
  | .cons _ _ .nil => true
  | _ => false

mutual

def encodeValueBody (p : Publisher) : AbiKind → Json → String → Except AbiError (List UInt8)
  | .address, value, path => do
    let bytes ← decodeHex p value (some 20) path " must be a hex address"
    revertIf (bytes.all (· = 0)) (.message (path ++ zeroAddress p))
    pure (List.replicate 12 0 ++ bytes)
  | .bool, value, path => do
    revertIf (p = .validity) .noSuchKind
    let boolean ← getOrRevert value.asBool (.message (path ++ " must be a JSON boolean"))
    pure (List.replicate 31 0 ++ [if boolean then 1 else 0])
  | .uint bits, value, path => do
    -- the digits of the number, to the right
    let parsed ← parseUintValue p value bits path
    pure (word parsed)
  | .fixedBytes size, value, path => do
    let bytes ← decodeHex p value (some size) path " must be hex"
    revertIf (32 < size) .panic
    pure (bytes ++ List.replicate (32 - size) 0)
  | .bytes, value, path => do
    let bytes ← decodeHex p value none path " must be hex"
    let padded ← checked (bytes.length + 31) (bytesOverflow p)
    let length ← abiWordFromUsize bytes.length
    pure (length ++ bytes ++ List.replicate (padded / 32 * 32 - bytes.length) 0)
  | .tuple fields, value, path => do
    let parts ← memberParts p fields.isSingle fields value path
    encodeSequence parts
  | .fixedArray element expected, value, path => do
    revertIf (p = .validity) .noSuchKind
    let items ← getOrRevert value.asArray (.message (path ++ " must be an array"))
    revertIf (items.length ≠ expected)
      (.message (path ++ " has " ++ toString items.length ++ " elements; expected exactly " ++
        toString expected))
    encodeSequence (items.zipIdx.map fun item =>
      element.part (encodeValueBody p element item.1 (path ++ "[" ++ toString item.2 ++ "]")))
  | .dynamicArray element, value, path => do
    revertIf (p = .close) .noSuchKind
    let items ← getOrRevert value.asArray (.message (path ++ " must be an array"))
    let length ← abiWordFromUsize items.length
    let sequence ← encodeSequence (items.zipIdx.map fun item =>
      element.part (encodeValueBody p element item.1 (path ++ "[" ++ toString item.2 ++ "]")))
    pure (length ++ sequence)

/-- The members of a tuple, found before any of them is encoded. -/
def memberParts (p : Publisher) (only : Bool) :
    AbiFields → Json → String → Except AbiError (List Part)
  | .nil, _, _ => .ok []
  | .cons name kind rest, value, path => do
    let member ← fieldValue p only value name path
    let later ← memberParts p only rest value path
    pure (kind.part (encodeValueBody p kind member (path ++ "." ++ name)) :: later)

end

/-- `hex::encode`. -/
def hexEncode (bytes : List UInt8) : List Char :=
  bytes.flatMap fun b => [Nat.digitChar (b.toNat / 16), Nat.digitChar (b.toNat % 16)]

/-- The first four bytes of the hash of the signature. -/
def selector (name : String) (kinds : List AbiKind) : List UInt8 :=
  let signature := name ++ "(" ++ String.intercalate "," (kinds.map AbiKind.signature) ++ ")"
  (BigEndian.ofBitVec 32 (Keccak256.digest signature.toUTF8.toList)).take 4

/-- An argument of a call: its kind, its value and its path. -/
abbrev Argument := AbiKind × Json × String

def part (p : Publisher) (arg : Argument) : Part :=
  arg.1.part (encodeValueBody p arg.1 arg.2.1 arg.2.2)

def encodeFunction (p : Publisher) (name : String) (args : List Argument) :
    Except AbiError String := do
  let sequence ← encodeSequence (args.map (part p))
  pure ("0x" ++ String.ofList (hexEncode (selector name (args.map (·.1)) ++ sequence)))

end Intmax.Abi
