import Intmax.Circuits.PublicInputs
import Intmax.Regev.Scheme

/-! # The hash signature of a channel transaction

The owner of a key proves, in a table of eight rows, that it knows the secret key behind a public
key and that a sponge has absorbed the key and a message.  Each row is one application of the
permutation; what a row is for is said by selector columns that the prover fills in.
-/

namespace Intmax.Regev

open Checked Validity PublicInputs List

/-! ## Keys and signatures -/

/-- A state of the permutation. -/
abbrev SpongeState := Fin 16 → F

/-- The permutation `default_babybear_poseidon2_16`. -/
class Poseidon2 where
  permute16 : SpongeState → SpongeState

export Poseidon2 (permute16)

def domainPkB : F := 0x42504b42

def domainSigB : F := 0x42534742

def spongeRate : Nat := 8

def sigBlocks : Nat := 4

structure BabyBearSecretKey where
  limbs : Fin 9 → F

@[ext] structure BabyBearPublicKey where
  digest : Fin 8 → F

/-- The first eight elements of a state. -/
def rate (state : SpongeState) : Fin 8 → F := fun i => state (i.castLE (by decide))

namespace BabyBearSecretKey

/-- The state that is permuted to the public key. -/
def pkInput (sk : BabyBearSecretKey) : SpongeState := fun i =>
  (domainPkB :: List.ofFn sk.limbs).getD i.val 0

/-- What the sponge of a signature absorbs, with zeros up to the last block. -/
def absorbed (sk : BabyBearSecretKey) (mLimbs : Fin 16 → F) : List F :=
  domainSigB :: (List.ofFn sk.limbs ++ List.ofFn mLimbs ++ List.replicate 6 0)

end BabyBearSecretKey

/-- Block `b` in the rate of a state: written over the first one, added to later ones. -/
def absorbBlock (absorb : List F) (state : SpongeState) (b : Nat) : SpongeState := fun i =>
  if i.val < spongeRate then
    let x := absorb.getD (spongeRate * b + i.val) 0
    if b = 0 then x else state i + x
  else state i

namespace BabyBearSecretKey

variable [Poseidon2] (sk : BabyBearSecretKey) (mLimbs : Fin 16 → F)

def publicKey : BabyBearPublicKey where
  digest := rate (permute16 sk.pkInput)

def signDigestNative : Fin 8 → F :=
  let absorb := sk.absorbed mLimbs
  rate ((List.range sigBlocks).foldl
    (fun state b => permute16 (absorbBlock absorb state b)) fun _ => 0)

end BabyBearSecretKey

/-! ## Encodings -/

def BabyBearPublicKey.toCanonicalLimbs (pk : BabyBearPublicKey) : List Nat :=
  List.ofFn fun i => (pk.digest i).val

def BabyBearPublicKey.toBytes32 (pk : BabyBearPublicKey) : Bytes32 :=
  BitVec.ofNat 256 (Words.join pk.toCanonicalLimbs)

def BabyBearPublicKey.fromBytes32 (b : Bytes32) : Except String BabyBearPublicKey := do
  let words := toU64Vec 8 b
  revertIf (words.length ≠ 8 ∨ ∃ w ∈ words, regevQ ≤ w)
    "pk_b bytes32 limb >= q (non-canonical)"
  pure { digest := fun i => (words.getD i.val 0 : F) }

/-- The halves of the words of a digest, low half first. -/
def decomposeDigestToLimbs (digest : Bytes32) : Fin 16 → F := fun i =>
  let w := (toU64Vec 8 digest).getD (i.val / 2) 0
  if i.val % 2 = 0 then ((w &&& 0xffff : Nat) : F) else ((w >>> 16 &&& 0xffff : Nat) : F)

/-! ## The table -/

/-- A row: the two ends of its permutation, its selectors, and the secret key. -/
structure Row where
  inputs : SpongeState
  post : SpongeState
  sel : Fin 6 → F
  sk : Fin 9 → F

abbrev HashSigTrace := Fin 8 → Row

abbrev selPk : Fin 6 := 0
abbrev selSig1 : Fin 6 := 1
abbrev selSig2 : Fin 6 := 2
abbrev selSig3 : Fin 6 := 3
abbrev selSig4 : Fin 6 := 4
abbrev selPad : Fin 6 := 5

/-- The public values: the key and the message. -/
@[ext] structure PublicValues where
  pk : Fin 8 → F
  m : Fin 16 → F

/-- `builder.when(g).assert_eq(x, y)`. -/
def WhenEq (g x y : F) : Prop := g * (x - y) = 0

/-- `Poseidon2HashSigAir::eval` on a row and the next one.  The columns between the ends of a
    permutation are those of the vendored constraints, which make the ends match. -/
@[mk_iff] structure HashSigEval [Poseidon2] (pv : PublicValues) (firstRow transition : Prop)
    (loc nxt : Row) :
    Prop where
  permuted : loc.post = permute16 loc.inputs
  -- selectors
  selBool : ∀ i, loc.sel i * (loc.sel i - 1) = 0
  selSum : ∑ i, loc.sel i = 1
  firstPk : firstRow → loc.sel selPk = 1
  firstOther : firstRow → ∀ i, i ≠ selPk → loc.sel i = 0
  nextPk : transition → nxt.sel selPk = 0
  nextSig1 : transition → nxt.sel selSig1 = loc.sel selPk
  nextSig2 : transition → nxt.sel selSig2 = loc.sel selSig1
  nextSig3 : transition → nxt.sel selSig3 = loc.sel selSig2
  nextSig4 : transition → nxt.sel selSig4 = loc.sel selSig3
  nextPad : transition → nxt.sel selPad = loc.sel selSig4 + loc.sel selPad
  -- one secret key
  nextSk : transition → ∀ i, nxt.sk i = loc.sk i
  -- the row of the public key
  pkDomain : WhenEq (loc.sel selPk) (loc.inputs 0) domainPkB
  pkSk : ∀ i : Fin 9, WhenEq (loc.sel selPk) (loc.inputs ⟨1 + i.val, by omega⟩) (loc.sk i)
  pkZero : ∀ k : Fin 6, WhenEq (loc.sel selPk) (loc.inputs ⟨10 + k.val, by omega⟩) 0
  pkDigest : ∀ i : Fin 8, WhenEq (loc.sel selPk) (loc.post (i.castLE (by decide))) (pv.pk i)
  -- the first block
  sig1Domain : WhenEq (loc.sel selSig1) (loc.inputs 0) domainSigB
  sig1Sk : ∀ i : Fin 7, WhenEq (loc.sel selSig1) (loc.inputs ⟨1 + i.val, by omega⟩)
    (loc.sk (i.castLE (by decide)))
  sig1Zero : ∀ k : Fin 8, WhenEq (loc.sel selSig1) (loc.inputs ⟨8 + k.val, by omega⟩) 0
  -- from the first block to the second
  sig2Sk7 : WhenEq (loc.sel selSig1) (nxt.inputs 0) (loc.post 0 + loc.sk 7)
  sig2Sk8 : WhenEq (loc.sel selSig1) (nxt.inputs 1) (loc.post 1 + loc.sk 8)
  sig2M : ∀ j : Fin 6, WhenEq (loc.sel selSig1) (nxt.inputs ⟨2 + j.val, by omega⟩)
    (loc.post ⟨2 + j.val, by omega⟩ + pv.m (j.castLE (by decide)))
  sig2Carry : ∀ j : Fin 8, WhenEq (loc.sel selSig1) (nxt.inputs ⟨8 + j.val, by omega⟩)
    (loc.post ⟨8 + j.val, by omega⟩)
  -- from the second block to the third
  sig3M : ∀ j : Fin 8, WhenEq (loc.sel selSig2) (nxt.inputs (j.castLE (by decide)))
    (loc.post (j.castLE (by decide)) + pv.m ⟨6 + j.val, by omega⟩)
  sig3Carry : ∀ j : Fin 8, WhenEq (loc.sel selSig2) (nxt.inputs ⟨8 + j.val, by omega⟩)
    (loc.post ⟨8 + j.val, by omega⟩)
  -- from the third block to the fourth
  sig4M14 : WhenEq (loc.sel selSig3) (nxt.inputs 0) (loc.post 0 + pv.m 14)
  sig4M15 : WhenEq (loc.sel selSig3) (nxt.inputs 1) (loc.post 1 + pv.m 15)
  sig4Zero : ∀ j : Fin 6, WhenEq (loc.sel selSig3) (nxt.inputs ⟨2 + j.val, by omega⟩)
    (loc.post ⟨2 + j.val, by omega⟩)
  sig4Carry : ∀ j : Fin 8, WhenEq (loc.sel selSig3) (nxt.inputs ⟨8 + j.val, by omega⟩)
    (loc.post ⟨8 + j.val, by omega⟩)

/-- A table that satisfies the constraints; the row after the last one is the first. -/
def HashSigTrace.Satisfies [Poseidon2] (trace : HashSigTrace) (pv : PublicValues) : Prop :=
  ∀ r, HashSigEval pv (r = 0) (r ≠ 7) (trace r) (trace (r + 1))

/-! ## The generated table -/

/-- What row `r` is for. -/
def rowKind (r : Fin 8) : Fin 6 :=
  match r.val with
  | 0 => selPk
  | 1 => selSig1
  | 2 => selSig2
  | 3 => selSig3
  | 4 => selSig4
  | _ => selPad

section
variable [Poseidon2]

/-- The inputs of the sponge, block by block, and the state after the last one. -/
def sigInputs (absorb : List F) (blocks : Nat) : List SpongeState × SpongeState :=
  (List.range blocks).foldl (fun done b =>
    let state := absorbBlock absorb done.2 b
    (done.1 ++ [state], permute16 state)) ([], fun _ => 0)

def generateHashSigTrace (sk : BabyBearSecretKey) (mLimbs : Fin 16 → F) :
    HashSigTrace × PublicValues × (Fin 8 → F) :=
  let (inputs, state) := sigInputs (sk.absorbed mLimbs) sigBlocks
  -- rows after the last block permute zeros
  let rowInputs (r : Fin 8) : SpongeState := (sk.pkInput :: inputs).getD r.val fun _ => 0
  (fun r =>
    { inputs := rowInputs r
      post := permute16 (rowInputs r)
      sel := fun i => if i = rowKind r then 1 else 0
      sk := sk.limbs },
    { pk := sk.publicKey.digest, m := mLimbs }, rate state)

end

/-! ## Sponges -/

section
variable [Poseidon2]

/-- The input of block `b`. -/
def blockInput (absorb : List F) : Nat → SpongeState
  | 0 => absorbBlock absorb (fun _ => 0) 0
  | b + 1 => absorbBlock absorb (permute16 (blockInput absorb b)) (b + 1)

theorem sigInputs_succ (absorb : List F) (n : Nat) : sigInputs absorb (n + 1) =
    ((range (n + 1)).map (blockInput absorb), permute16 (blockInput absorb n)) := by
  induction n with
  | zero => rfl
  | succ n ih =>
    rw [sigInputs, range_succ, foldl_append]
    rw [sigInputs] at ih
    rw [ih, foldl_cons, foldl_nil, map_append, map_singleton]
    rfl

theorem foldl_absorbBlock (absorb : List F) (n : Nat) : (range (n + 1)).foldl
    (fun state b => permute16 (absorbBlock absorb state b)) (fun _ => 0) =
      permute16 (blockInput absorb n) := by
  induction n with
  | zero => rfl
  | succ n ih =>
    rw [range_succ, foldl_append, ih]
    rfl

theorem BabyBearSecretKey.signDigestNative_eq (sk : BabyBearSecretKey) (mLimbs : Fin 16 → F) :
    sk.signDigestNative mLimbs = rate (permute16 (blockInput (sk.absorbed mLimbs) 3)) :=
  congrArg rate (foldl_absorbBlock (sk.absorbed mLimbs) 3)

end

/-! ## The layout of the blocks -/

theorem eq_pkInput_iff {inputs : SpongeState} {sk : BabyBearSecretKey} : inputs = sk.pkInput ↔
    inputs 0 = domainPkB ∧ (∀ i : Fin 9, inputs ⟨1 + i.val, by omega⟩ = sk.limbs i) ∧
      ∀ k : Fin 6, inputs ⟨10 + k.val, by omega⟩ = 0 := by
  constructor
  · rintro rfl
    refine ⟨rfl, fun i => ?_, fun k => ?_⟩
    · fin_cases i <;> rfl
    · fin_cases k <;> rfl
  · rintro ⟨domain, key, zero⟩
    funext i
    fin_cases i
    exacts [domain, key 0, key 1, key 2, key 3, key 4, key 5, key 6, key 7, key 8, zero 0, zero 1,
      zero 2, zero 3, zero 4, zero 5]

section
variable {inputs post : SpongeState} {sk : BabyBearSecretKey} {m : Fin 16 → F}

theorem eq_firstBlock_iff : inputs = absorbBlock (sk.absorbed m) (fun _ => 0) 0 ↔
    inputs 0 = domainSigB ∧
    (∀ i : Fin 7, inputs ⟨1 + i.val, by omega⟩ = sk.limbs (i.castLE (by decide))) ∧
    ∀ k : Fin 8, inputs ⟨8 + k.val, by omega⟩ = 0 := by
  constructor
  · rintro rfl
    refine ⟨rfl, fun i => ?_, fun k => ?_⟩
    · fin_cases i <;> rfl
    · fin_cases k <;> rfl
  · rintro ⟨domain, key, zero⟩
    funext i
    fin_cases i
    exacts [domain, key 0, key 1, key 2, key 3, key 4, key 5, key 6, zero 0, zero 1, zero 2, zero 3,
      zero 4, zero 5, zero 6, zero 7]

theorem eq_secondBlock_iff : inputs = absorbBlock (sk.absorbed m) post 1 ↔
    inputs 0 = post 0 + sk.limbs 7 ∧ inputs 1 = post 1 + sk.limbs 8 ∧
    (∀ j : Fin 6, inputs ⟨2 + j.val, by omega⟩ =
      post ⟨2 + j.val, by omega⟩ + m (j.castLE (by decide))) ∧
    ∀ j : Fin 8, inputs ⟨8 + j.val, by omega⟩ = post ⟨8 + j.val, by omega⟩ := by
  constructor
  · rintro rfl
    refine ⟨rfl, rfl, fun j => ?_, fun j => ?_⟩
    · fin_cases j <;> rfl
    · fin_cases j <;> rfl
  · rintro ⟨key7, key8, message, carry⟩
    funext i
    fin_cases i
    exacts [key7, key8, message 0, message 1, message 2, message 3, message 4, message 5, carry 0,
      carry 1, carry 2, carry 3, carry 4, carry 5, carry 6, carry 7]

theorem eq_thirdBlock_iff : inputs = absorbBlock (sk.absorbed m) post 2 ↔
    (∀ j : Fin 8, inputs (j.castLE (by decide)) =
      post (j.castLE (by decide)) + m ⟨6 + j.val, by omega⟩) ∧
    ∀ j : Fin 8, inputs ⟨8 + j.val, by omega⟩ = post ⟨8 + j.val, by omega⟩ := by
  constructor
  · rintro rfl
    refine ⟨fun j => ?_, fun j => ?_⟩
    · fin_cases j <;> rfl
    · fin_cases j <;> rfl
  · rintro ⟨message, carry⟩
    funext i
    fin_cases i
    exacts [message 0, message 1, message 2, message 3, message 4, message 5, message 6, message 7,
      carry 0, carry 1, carry 2, carry 3, carry 4, carry 5, carry 6, carry 7]

theorem eq_fourthBlock_iff : inputs = absorbBlock (sk.absorbed m) post 3 ↔
    inputs 0 = post 0 + m 14 ∧ inputs 1 = post 1 + m 15 ∧
    (∀ j : Fin 6, inputs ⟨2 + j.val, by omega⟩ = post ⟨2 + j.val, by omega⟩) ∧
    ∀ j : Fin 8, inputs ⟨8 + j.val, by omega⟩ = post ⟨8 + j.val, by omega⟩ := by
  -- the zeros of the last block leave their part of the rate alone
  have padded (j : Fin 6) : absorbBlock (sk.absorbed m) post 3 ⟨2 + j.val, by omega⟩ =
      post ⟨2 + j.val, by omega⟩ := by
    have zero : absorbBlock (sk.absorbed m) post 3 ⟨2 + j.val, by omega⟩ =
        post ⟨2 + j.val, by omega⟩ + 0 := by fin_cases j <;> rfl
    rw [zero, add_zero]
  constructor
  · rintro rfl
    refine ⟨rfl, rfl, padded, fun j => ?_⟩
    fin_cases j <;> rfl
  · rintro ⟨message14, message15, zero, carry⟩
    have rest (j : Fin 6) := (zero j).trans (padded j).symm
    funext i
    fin_cases i
    exacts [message14, message15, rest 0, rest 1, rest 2, rest 3, rest 4, rest 5, carry 0, carry 1,
      carry 2, carry 3, carry 4, carry 5, carry 6, carry 7]

end

/-! ## Rows -/

/-- What the selectors of the next row say. -/
def advance (k : Fin 6) : Fin 6 := if k = selPad then selPad else k + 1

/-- What the constraints say about the states of a row of kind `k` and of the row after it. -/
structure Binds (pv : PublicValues) (k : Fin 6) (loc nxt : Row) : Prop where
  pk : k = selPk → loc.inputs = BabyBearSecretKey.pkInput ⟨loc.sk⟩ ∧ rate loc.post = pv.pk
  sig1 : k = selSig1 →
    loc.inputs = absorbBlock (BabyBearSecretKey.absorbed ⟨loc.sk⟩ pv.m) (fun _ => 0) 0 ∧
    nxt.inputs = absorbBlock (BabyBearSecretKey.absorbed ⟨loc.sk⟩ pv.m) loc.post 1
  sig2 : k = selSig2 →
    nxt.inputs = absorbBlock (BabyBearSecretKey.absorbed ⟨loc.sk⟩ pv.m) loc.post 2
  sig3 : k = selSig3 →
    nxt.inputs = absorbBlock (BabyBearSecretKey.absorbed ⟨loc.sk⟩ pv.m) loc.post 3

/-- A gate is open on the rows of its kind. -/
theorem whenEq_single {k i : Fin 6} {x y : F} :
    WhenEq ((Pi.single k 1 : Fin 6 → F) i) x y ↔ (k = i → x = y) := by
  rw [WhenEq, Pi.single_apply]
  by_cases same : i = k
  · rw [if_pos same, one_mul, sub_eq_zero]
    exact ⟨fun equal _ => equal, fun equal => equal same.symm⟩
  · rw [if_neg same, zero_mul]
    exact ⟨fun _ equal => absurd equal.symm same, fun _ => rfl⟩

/-- The shift of the selectors of one kind. -/
theorem shift_single (k : Fin 6) : (![0, (Pi.single k 1 : Fin 6 → F) selPk,
    (Pi.single k 1 : Fin 6 → F) selSig1, (Pi.single k 1 : Fin 6 → F) selSig2,
    (Pi.single k 1 : Fin 6 → F) selSig3,
    (Pi.single k 1 : Fin 6 → F) selSig4 + (Pi.single k 1 : Fin 6 → F) selPad] : Fin 6 → F) =
      Pi.single (advance k) 1 := by
  revert k
  decide +kernel

section
variable [Poseidon2] {pv : PublicValues} {firstRow transition : Prop} {loc nxt : Row} {k : Fin 6}

theorem HashSigEval.next_sel (eval : HashSigEval pv firstRow transition loc nxt)
    (kind : loc.sel = Pi.single k 1) (moves : transition) : nxt.sel = Pi.single (advance k) 1 := by
  have shift : nxt.sel = ![0, loc.sel selPk, loc.sel selSig1, loc.sel selSig2, loc.sel selSig3,
      loc.sel selSig4 + loc.sel selPad] := by
    funext i
    fin_cases i
    exacts [eval.nextPk moves, eval.nextSig1 moves, eval.nextSig2 moves, eval.nextSig3 moves,
      eval.nextSig4 moves, eval.nextPad moves]
  rw [shift, kind, shift_single]

theorem HashSigEval.binds (eval : HashSigEval pv firstRow transition loc nxt)
    (kind : loc.sel = Pi.single k 1) : Binds pv k loc nxt := by
  have gates := (hashSigEval_iff pv firstRow transition loc nxt).mp eval
  simp only [kind, whenEq_single] at gates
  obtain ⟨-, -, -, -, -, -, -, -, -, -, -, -, pkDomain, pkSk, pkZero, pkDigest,
    sig1Domain, sig1Sk, sig1Zero, sig2Sk7, sig2Sk8, sig2M, sig2Carry, sig3M, sig3Carry, sig4M14,
    sig4M15, sig4Zero, sig4Carry⟩ := gates
  constructor
  · intro open_
    exact ⟨eq_pkInput_iff.mpr ⟨pkDomain open_, fun i => pkSk i open_,
      fun i => pkZero i open_⟩, funext fun i => pkDigest i open_⟩
  · intro open_
    exact ⟨eq_firstBlock_iff.mpr ⟨sig1Domain open_, fun i => sig1Sk i open_,
      fun i => sig1Zero i open_⟩, eq_secondBlock_iff.mpr ⟨sig2Sk7 open_, sig2Sk8 open_,
      fun j => sig2M j open_, fun j => sig2Carry j open_⟩⟩
  · intro open_
    exact eq_thirdBlock_iff.mpr ⟨fun j => sig3M j open_, fun j => sig3Carry j open_⟩
  · intro open_
    exact eq_fourthBlock_iff.mpr ⟨sig4M14 open_, sig4M15 open_, fun j => sig4Zero j open_,
      fun j => sig4Carry j open_⟩

/-- A row of a known kind satisfies the constraints when its states are bound as they say. -/
theorem hashSigEval_of_binds (kind : loc.sel = Pi.single k 1)
    (permuted : loc.post = permute16 loc.inputs) (first : firstRow → k = selPk)
    (next : transition → nxt.sel = Pi.single (advance k) 1 ∧ nxt.sk = loc.sk)
    (binds : Binds pv k loc nxt) : HashSigEval pv firstRow transition loc nxt := by
  have shift (moves : transition) := (next moves).1.trans (shift_single k).symm
  rw [hashSigEval_iff]
  simp only [kind, whenEq_single]
  refine ⟨permuted, ?_, ?_, ?_, ?_, ?_, ?_, ?_, ?_, ?_, ?_,
    fun moves => congrFun (next moves).2, ?_⟩
  · intro i
    rw [Pi.single_apply]
    split <;> simp
  · simp
  · intro isFirst
    rw [first isFirst, Pi.single_eq_same]
  · intro isFirst i other
    rw [first isFirst, Pi.single_eq_of_ne other]
  iterate 6
    · intro moves
      rw [shift moves]
      rfl
  have pk open_ := eq_pkInput_iff.mp (binds.pk open_).1
  have digest open_ := (binds.pk open_).2
  have first open_ := eq_firstBlock_iff.mp (binds.sig1 open_).1
  have second open_ := eq_secondBlock_iff.mp (binds.sig1 open_).2
  have third open_ := eq_thirdBlock_iff.mp (binds.sig2 open_)
  have fourth open_ := eq_fourthBlock_iff.mp (binds.sig3 open_)
  exact ⟨fun o => (pk o).1, fun i o => (pk o).2.1 i, fun i o => (pk o).2.2 i,
    fun i o => congrFun (digest o) i, fun o => (first o).1, fun i o => (first o).2.1 i,
    fun i o => (first o).2.2 i, fun o => (second o).1, fun o => (second o).2.1,
    fun j o => (second o).2.2.1 j, fun j o => (second o).2.2.2 j, fun j o => (third o).1 j,
    fun j o => (third o).2 j, fun o => (fourth o).1, fun o => (fourth o).2.1,
    fun j o => (fourth o).2.2.1 j, fun j o => (fourth o).2.2.2 j⟩

/-! ## Tables -/

variable {trace : HashSigTrace}

namespace HashSigTrace

omit [Poseidon2] in
theorem castSucc_ne_last : ∀ r : Fin 7, r.castSucc ≠ 7 := by decide

omit [Poseidon2] in
theorem rowKind_succ : ∀ r : Fin 7, rowKind r.succ = advance (rowKind r.castSucc) := by decide

/-- The rows of a table have the kinds of the generated one. -/
theorem Satisfies.kinds (satisfied : trace.Satisfies pv) (r : Fin 8) :
    (trace r).sel = Pi.single (rowKind r) 1 := by
  induction r using Fin.induction with
  | zero =>
    funext i
    by_cases isPk : i = selPk
    · rw [isPk]
      exact (satisfied 0).firstPk rfl
    · rw [(satisfied 0).firstOther rfl i isPk]
      exact (Pi.single_eq_of_ne (M := fun _ => F) isPk _).symm
  | succ r ih =>
    have next := (satisfied r.castSucc).next_sel ih (castSucc_ne_last r)
    rw [Fin.coeSucc_eq_succ] at next
    rw [next, rowKind_succ]

/-- One secret key stands in all rows. -/
theorem Satisfies.sk_eq (satisfied : trace.Satisfies pv) (r : Fin 8) :
    (trace r).sk = (trace 0).sk := by
  induction r using Fin.induction with
  | zero => rfl
  | succ r ih =>
    have next := (satisfied r.castSucc).nextSk (castSucc_ne_last r)
    rw [Fin.coeSucc_eq_succ] at next
    exact (funext next).trans ih

/-- What a table says: its first rows are the derivation of a public key and the blocks of a sponge,
    for one secret key. -/
structure Proves (trace : HashSigTrace) (pv : PublicValues) (sk : BabyBearSecretKey) : Prop where
  permuted : ∀ r, (trace r).post = permute16 (trace r).inputs
  kinds : ∀ r, (trace r).sel = Pi.single (rowKind r) 1
  secret : ∀ r, (trace r).sk = sk.limbs
  derivation : (trace 0).inputs = sk.pkInput
  blocks : ∀ b : Fin 4, (trace ⟨b.val + 1, by omega⟩).inputs =
    blockInput (sk.absorbed pv.m) b.val
  key : sk.publicKey.digest = pv.pk

theorem Satisfies.proves (satisfied : trace.Satisfies pv) : trace.Proves pv ⟨(trace 0).sk⟩ := by
  have permuted (r : Fin 8) := (satisfied r).permuted
  have binds (r : Fin 8) := (satisfied r).binds (satisfied.kinds r)
  obtain ⟨derivation, digest⟩ := (binds 0).pk rfl
  obtain ⟨first, second⟩ := (binds 1).sig1 rfl
  have third := (binds 2).sig2 rfl
  have fourth := (binds 3).sig3 rfl
  rw [satisfied.sk_eq, permuted] at second third fourth
  rw [satisfied.sk_eq] at first
  -- each block starts from what the one before it left
  rw [first] at second
  rw [show (trace 2).inputs = _ from second] at third
  rw [show (trace 3).inputs = _ from third] at fourth
  refine ⟨permuted, satisfied.kinds, satisfied.sk_eq, derivation, fun b => ?_, ?_⟩
  · fin_cases b
    exacts [first, second, third, fourth]
  · rw [BabyBearSecretKey.publicKey, ← derivation, ← permuted]
    exact digest

theorem Proves.chained {sk : BabyBearSecretKey} (proves : trace.Proves pv sk) (b : Fin 3) :
    (trace ⟨b.val + 2, by omega⟩).inputs =
      absorbBlock (sk.absorbed pv.m) (trace ⟨b.val + 1, by omega⟩).post (b.val + 1) := by
  rw [proves.permuted, proves.blocks ⟨b.val, by omega⟩]
  exact proves.blocks ⟨b.val + 1, by omega⟩

theorem Proves.satisfies {sk : BabyBearSecretKey} (proves : trace.Proves pv sk) :
    trace.Satisfies pv := by
  have kind_iff : ∀ r : Fin 8, (rowKind r = selPk → r = 0) ∧
      (rowKind r = selSig1 → r = 1) ∧ (rowKind r = selSig2 → r = 2) ∧
      (rowKind r = selSig3 → r = 3) := by decide
  have kind_next : ∀ r : Fin 8, r ≠ 7 → rowKind (r + 1) = advance (rowKind r) := by decide
  intro r
  obtain ⟨isPk, isSig1, isSig2, isSig3⟩ := kind_iff r
  refine hashSigEval_of_binds (proves.kinds r) (proves.permuted r) (fun first => by rw [first]; rfl)
    (fun moves => ⟨?_, ?_⟩) ⟨?_, ?_, ?_, ?_⟩
  · rw [proves.kinds, kind_next r moves]
  · rw [proves.secret, proves.secret]
  · intro kind
    rw [isPk kind, proves.secret, proves.permuted, proves.derivation]
    exact ⟨rfl, proves.key⟩
  · intro kind
    rw [isSig1 kind, proves.secret]
    exact ⟨proves.blocks 0, proves.chained 0⟩
  · intro kind
    rw [isSig2 kind, proves.secret]
    exact proves.chained 1
  · intro kind
    rw [isSig3 kind, proves.secret]
    exact proves.chained 2

theorem satisfies_iff : trace.Satisfies pv ↔ ∃ sk, trace.Proves pv sk :=
  ⟨fun satisfied => ⟨_, satisfied.proves⟩, fun ⟨_, proves⟩ => proves.satisfies⟩

/-- A table is for one key and one message. -/
theorem Satisfies.pv_eq {pv' : PublicValues} (satisfied : trace.Satisfies pv)
    (satisfied' : trace.Satisfies pv') : pv = pv' := by
  have proves := satisfied.proves
  have proves' := satisfied'.proves
  have second := eq_secondBlock_iff.mp (proves.chained 0)
  have second' := eq_secondBlock_iff.mp (proves'.chained 0)
  have third := eq_thirdBlock_iff.mp (proves.chained 1)
  have third' := eq_thirdBlock_iff.mp (proves'.chained 1)
  have fourth := eq_fourthBlock_iff.mp (proves.chained 2)
  have fourth' := eq_fourthBlock_iff.mp (proves'.chained 2)
  have low (j : Fin 6) := add_left_cancel ((second.2.2.1 j).symm.trans (second'.2.2.1 j))
  have middle (j : Fin 8) := add_left_cancel ((third.1 j).symm.trans (third'.1 j))
  have high := add_left_cancel (fourth.1.symm.trans fourth'.1)
  have last := add_left_cancel (fourth.2.1.symm.trans fourth'.2.1)
  refine PublicValues.ext (proves.key.symm.trans proves'.key) (funext fun i => ?_)
  fin_cases i
  exacts [low 0, low 1, low 2, low 3, low 4, low 5, middle 0, middle 1, middle 2,
    middle 3, middle 4, middle 5, middle 6, middle 7, high, last]

/-- The generated table proves what it was generated for. -/
theorem generated_proves (sk : BabyBearSecretKey) (mLimbs : Fin 16 → F) :
    Proves (generateHashSigTrace sk mLimbs).1 { pk := sk.publicKey.digest, m := mLimbs } sk where
  permuted _ := rfl
  kinds r := by
    funext i
    rw [Pi.single_apply]
    rfl
  secret _ := rfl
  derivation := rfl
  blocks b := by fin_cases b <;> rfl
  key := rfl

theorem generated_values (sk : BabyBearSecretKey) (mLimbs : Fin 16 → F) :
    (generateHashSigTrace sk mLimbs).2 =
      ({ pk := sk.publicKey.digest, m := mLimbs }, sk.signDigestNative mLimbs) := by
  rw [sk.signDigestNative_eq]
  exact congrArg (fun done => (_, rate done.2)) (sigInputs_succ (sk.absorbed mLimbs) 3)

end HashSigTrace

end

/-! ## Injective encodings -/

theorem BabyBearPublicKey.canonicalLimbs_lt {pk : BabyBearPublicKey} :
    ∀ w ∈ pk.toCanonicalLimbs, w < regevQ := by
  intro w member
  obtain ⟨i, rfl⟩ := mem_ofFn.mp member
  exact ZMod.val_lt _

theorem BabyBearPublicKey.toU64Vec_toBytes32 (pk : BabyBearPublicKey) :
    toU64Vec 8 pk.toBytes32 = pk.toCanonicalLimbs := by
  have small : ∀ w ∈ pk.toCanonicalLimbs, w < 2 ^ 32 := fun w member =>
    (canonicalLimbs_lt w member).trans (by decide)
  have length : pk.toCanonicalLimbs.length = 8 := length_ofFn
  have fits := Words.join_lt small
  have split := Words.split_join small
  rw [length] at fits split
  rw [toU64Vec, toBytes32, BitVec.toNat_ofNat, Nat.mod_eq_of_lt fits, split]

theorem BabyBearPublicKey.fromBytes32_toBytes32 (pk : BabyBearPublicKey) :
    fromBytes32 pk.toBytes32 = .ok pk := by
  simp [fromBytes32, toU64Vec_toBytes32]
  refine ⟨⟨length_ofFn, canonicalLimbs_lt⟩, ?_⟩
  ext i
  show (((toCanonicalLimbs pk).getD i.val 0 : Nat) : F) = pk.digest i
  rw [toCanonicalLimbs, getD_eq_getElem _ _ (by rw [length_ofFn]; exact i.isLt), List.getElem_ofFn]
  exact ZMod.natCast_zmod_val _

theorem BabyBearPublicKey.toBytes32_injective : Function.Injective toBytes32 := by
  intro pk pk' same
  have decoded := pk.fromBytes32_toBytes32
  rw [same, fromBytes32_toBytes32] at decoded
  exact (Except.ok.inj decoded).symm

/-- Numbers below the order of the field are different in it. -/
theorem natCast_inj_of_lt {a b : Nat} (ha : a < regevQ) (hb : b < regevQ)
    (same : (a : F) = (b : F)) : a = b := by
  have values := congrArg ZMod.val same
  rwa [ZMod.val_natCast_of_lt ha, ZMod.val_natCast_of_lt hb] at values

theorem decomposeDigestToLimbs_injective : Function.Injective decomposeDigestToLimbs := by
  intro d d' same
  have half (n : Nat) : n &&& 0xffff < regevQ := lt_of_le_of_lt Nat.and_le_right (by decide)
  have mask (n : Nat) : n &&& 0xffff = n % 2 ^ 16 := Nat.and_two_pow_sub_one_eq_mod n 16
  have small (d : Bytes32) (w : Nat) : (toU64Vec 8 d).getD w 0 < 2 ^ 32 := by
    rw [getD_eq_getElem?_getD]
    cases found : (toU64Vec 8 d)[w]? with
    | none => simp
    | some x => exact Words.lt_of_mem_split (mem_of_getElem? found)
  have word (w : Fin 8) : (toU64Vec 8 d).getD w.val 0 =
      (toU64Vec 8 d').getD w.val 0 := by
    have low := congrFun same ⟨2 * w.val, by omega⟩
    have high := congrFun same ⟨2 * w.val + 1, by omega⟩
    have index : (2 * w.val + 1) / 2 = w.val := by omega
    have odd : (2 * w.val + 1) % 2 ≠ 0 := by omega
    simp only [decomposeDigestToLimbs, Nat.mul_mod_right, if_true, odd, if_false, index,
      Nat.mul_div_cancel_left w.val two_pos] at low high
    have low := natCast_inj_of_lt (half _) (half _) low
    have high := natCast_inj_of_lt (half _) (half _) high
    rw [mask, mask] at low high
    rw [Nat.shiftRight_eq_div_pow, Nat.shiftRight_eq_div_pow] at high
    have fits := small d w.val
    have fits' := small d' w.val
    omega
  have words : toU64Vec 8 d = toU64Vec 8 d' := by
    have length (d : Bytes32) : (toU64Vec 8 d).length = 8 := Words.length_split ..
    refine ext_getElem ((length d).trans (length d').symm) fun i inside inside' => ?_
    have here := word ⟨i, length d ▸ inside⟩
    rwa [getD_eq_getElem _ _ inside, getD_eq_getElem _ _ inside'] at here
  exact BitVec.eq_of_toNat_eq (Words.split_inj d.isLt d'.isLt words)

/-! ## One key and one message -/

/-- The constraints hold exactly for the tables whose first rows derive the public key and absorb
    the public message under one secret key; the generated table is one of them; and a table serves
    one key and one digest only. -/
theorem hash_sig_air_exact [Poseidon2] :
    (∀ (pv : PublicValues) (trace : HashSigTrace),
      trace.Satisfies pv ↔ ∃ sk, trace.Proves pv sk) ∧
    (∀ (pv : PublicValues) (trace : HashSigTrace) (sk : BabyBearSecretKey), trace.Proves pv sk →
      rate (trace 4).post = sk.signDigestNative pv.m) ∧
    (∀ (sk : BabyBearSecretKey) (m : Fin 16 → F),
      (generateHashSigTrace sk m).1.Satisfies { pk := sk.publicKey.digest, m := m } ∧
      (generateHashSigTrace sk m).2 =
        ({ pk := sk.publicKey.digest, m := m }, sk.signDigestNative m)) ∧
    Function.Injective decomposeDigestToLimbs ∧ Function.Injective BabyBearPublicKey.toBytes32 ∧
    (∀ pk : BabyBearPublicKey, BabyBearPublicKey.fromBytes32 pk.toBytes32 = .ok pk) ∧
    ∀ (trace : HashSigTrace) (pk pk' : BabyBearPublicKey) (digest digest' : Bytes32),
      trace.Satisfies { pk := pk.digest, m := decomposeDigestToLimbs digest } →
      trace.Satisfies { pk := pk'.digest, m := decomposeDigestToLimbs digest' } →
      pk = pk' ∧ digest = digest' := by
  refine ⟨fun pv trace => HashSigTrace.satisfies_iff, ?_,
    fun sk m => ⟨(HashSigTrace.generated_proves sk m).satisfies,
    HashSigTrace.generated_values sk m⟩, decomposeDigestToLimbs_injective,
    BabyBearPublicKey.toBytes32_injective, BabyBearPublicKey.fromBytes32_toBytes32, ?_⟩
  · intro pv trace sk proves
    rw [sk.signDigestNative_eq, proves.permuted]
    exact congrArg (fun state => rate (permute16 state)) (proves.blocks 3)
  · intro trace pk pk' digest digest' satisfied satisfied'
    obtain ⟨keys, messages⟩ := PublicValues.mk.inj (satisfied.pv_eq satisfied')
    exact ⟨BabyBearPublicKey.ext keys, decomposeDigestToLimbs_injective messages⟩

/-- A rotation in place of the permutation. -/
@[reducible] def rotation : Poseidon2 := ⟨fun state i => state (i + 1)⟩

attribute [local instance] rotation

def sampleSecretKey : BabyBearSecretKey := ⟨fun _ => 1⟩

theorem hash_sig_air_exact_rotation :
    (generateHashSigTrace sampleSecretKey (decomposeDigestToLimbs 7)).1.Satisfies
      { pk := sampleSecretKey.publicKey.digest, m := decomposeDigestToLimbs 7 } ∧
    rate ((generateHashSigTrace sampleSecretKey (decomposeDigestToLimbs 7)).1 4).post =
      sampleSecretKey.signDigestNative (decomposeDigestToLimbs 7) ∧
    ∀ digest : Bytes32,
      (generateHashSigTrace sampleSecretKey (decomposeDigestToLimbs 7)).1.Satisfies
        { pk := sampleSecretKey.publicKey.digest, m := decomposeDigestToLimbs digest } →
      digest = 7 := by
  obtain ⟨-, signs, generated, -, -, -, unique⟩ := hash_sig_air_exact
  obtain ⟨satisfied, -⟩ := generated sampleSecretKey (decomposeDigestToLimbs 7)
  have signed := signs _ _ sampleSecretKey
    (HashSigTrace.generated_proves sampleSecretKey (decomposeDigestToLimbs 7))
  refine ⟨satisfied, signed, ?_⟩
  intro digest other
  exact (unique _ _ _ digest 7 other satisfied).2

end Intmax.Regev
