import Intmax.Channel.SlotTree
import Intmax.Channel.Registering

/-! # What a signing digest pins

Without collisions a signing digest determines everything that it covers: two states with one
digest differ at most in their signatures.
-/

namespace Intmax.Channel

open Checked Hashing Trees Validity List Option Item BalanceState ChannelState RegevCiphertext
open BalanceState (pairUp slotLeafHash h1 slotTreeRoot)

variable {D B : Type}

/-! ## Layouts -/

/-- Two preimages of one layout. -/
abbrev Alike (l l' : List (Item D B)) : Prop :=
  List.Forall₂ (fun a b => Item.sameKind a b = true) l l'

theorem Alike.append {a a' b b' : List (Item D B)} (front : Alike a a') (back : Alike b b') :
    Alike (a ++ b) (a' ++ b') :=
  rel_append front back

theorem Alike.map {α : Type} {f g : α → Item D B} (kinds : ∀ a, sameKind (f a) (g a) = true)
    (l : List α) : Alike (l.map f) (l.map g) := by
  induction l with
  | nil => exact .nil
  | cons a rest ih => exact .cons (kinds a) ih

theorem Alike.flatMap {α : Type} {f g : α → List (Item D B)} (pieces : ∀ a, Alike (f a) (g a))
    (l : List α) : Alike (l.flatMap f) (l.flatMap g) := by
  induction l with
  | nil => exact .nil
  | cons a rest ih => exact (pieces a).append ih

/-- Lists of one kind and one length. -/
theorem Alike.of_length {α : Type} {f : α → Item D B}
    (kind : ∀ a a', sameKind (f a) (f a') = true) :
    ∀ {l l' : List α}, l.length = l'.length → Alike (l.map f) (l'.map f)
  | [], [], _ => .nil
  | a :: _, a' :: _, same => .cons (kind a a') (Alike.of_length kind (Nat.succ_injective same))

theorem u64Items_alike (n n' : BitVec 64) : Alike (D := D) (B := B) (u64Items n) (u64Items n') := by
  simp [u64Items, u32Item, field, sameKind]

theorem u256Items_alike (n n' : U256) : Alike (D := D) (B := B) (u256Items n) (u256Items n') :=
  Alike.of_length (fun _ _ => rfl) (by simp [u32Limbs])

theorem addressItems_alike (a a' : Address) :
    Alike (D := D) (B := B) (addressItems a) (addressItems a') :=
  Alike.map (fun _ => rfl) _

/-! ## Ciphertexts -/

section
variable [Hashing D B]

theorem RegevCiphertext.digest_injective (injective : KeccakInjective D) {ct ct' : RegevCiphertext}
    {hash : B} (found : ct.digest D = some hash) (found' : ct'.digest D = some hash) :
      ct = ct' := by
  have opened {ct : RegevCiphertext} (found : ct.digest D = some hash) :
      ct.c1.length = regevN ∧ ct.c2.length = regevN ∧
        keccak (D := D) ([.elem regevCtDomain, .elem ct.c1.length] ++ ct.c1.map u32Item ++
        ct.c2.map u32Item) = hash := by
    have valid := validate_of_digest found
    simp [digest, valid] at found
    simp [validate] at valid
    exact ⟨valid.1.1, valid.1.2, found⟩
  obtain ⟨first, second, hashed⟩ := opened found
  obtain ⟨first', second', hashed'⟩ := opened found'
  have kind (a a' : BitVec 32) : sameKind (D := D) (B := B) (u32Item a) (u32Item a') = true := rfl
  have same := injective _ _ (((Alike.append (.cons rfl (.cons rfl .nil))
    (Alike.of_length kind (first.trans first'.symm))).append
      (Alike.of_length kind (second.trans second'.symm)))) (hashed.trans hashed'.symm)
  obtain ⟨front, tail⟩ := append_inj' same (by simp [second, second'])
  obtain ⟨-, head⟩ := append_inj' front (by simp [first, first'])
  have words : Function.Injective (map (u32Item (D := D) (B := B))) :=
    map_injective_iff.mpr u32Item_injective
  cases ct
  cases ct'
  simp
  exact ⟨words head, words tail⟩

/-! ## Balances -/

/-- A leaf pins the key, the ciphertexts, the counters and the recipient of its slot. -/
theorem slotLeafHash_injective (free : CollisionFree D) (injective : KeccakInjective D)
    {s s' : BalanceState B} {slot : Fin maxChannelMembers} {leaf : D}
    (found : s.slotLeafHash D slot = some leaf) (found' : s'.slotLeafHash D slot = some leaf) :
    s.encBalances[slot.val]? = s'.encBalances[slot.val]? ∧
      s.pendingAdds[slot.val]? = s'.pendingAdds[slot.val]? ∧
      s.regevPkDigests slot = s'.regevPkDigests slot ∧
      s.recipients slot = s'.recipients slot := by
  simp only [slotLeafHash, bind_eq_bind, bind_eq_some_iff, some.injEq] at found found'
  obtain ⟨row, rows, adds, counters, digests, hashed, rfl⟩ := found
  obtain ⟨row', rows', adds', counters', digests', hashed', same⟩ := found'
  have size := mapM_option_length hashed
  have size' := mapM_option_length hashed'
  have words (b b' : B) : sameKind (D := D) (.bytes b) (.bytes b') = true := rfl
  have preimage := free.inputs _ _ ((((Alike.append (.cons rfl (.cons rfl .nil))
    (Alike.of_length words (size'.trans size.symm))).append
      (Alike.map (fun _ => rfl) _)).append (addressItems_alike _ _))) same
  obtain ⟨front, recipients⟩ := append_inj' preimage (by simp [addressItems])
  obtain ⟨front, counted⟩ := append_inj' front (by simp)
  obtain ⟨keys, cts⟩ := append_inj' front (by simp [size, size'])
  simp at keys
  have cts : digests' = digests := map_injective_iff.mpr (fun _ _ => bytes.inj) cts
  subst cts
  have rowsEq : row = row' := by
    funext t
    obtain ⟨hash, here, here'⟩ := mapM_option_inj hashed hashed' t (mem_finRange t)
    exact digest_injective injective here here'
  have addsEq : adds = adds' := by
    funext t
    exact (u32Item_injective (map_inj_left.mp counted t (mem_finRange t))).symm
  exact ⟨by rw [rows, rows', rowsEq], by rw [counters, counters', addsEq], keys.symm,
    (addressItems_injective recipients).symm⟩

theorem pairUp_injective (nodes : Function.Injective2 (twoToOne : D → D → D)) :
    ∀ {k : Nat} {l l' : List D}, l.length = 2 * k → l'.length = 2 * k →
      pairUp (B := B) l = pairUp (B := B) l' → l = l'
  | 0, l, l', size, size', _ => by
    rw [length_eq_zero_iff.mp (by omega : l.length = 0),
      length_eq_zero_iff.mp (by omega : l'.length = 0)]
  | k + 1, a :: b :: rest, a' :: b' :: rest', size, size', same => by
    simp [pairUp] at same
    obtain ⟨rfl, rfl⟩ := nodes same.1
    simp at size size'
    rw [pairUp_injective nodes (k := k) (by omega) (by omega) same.2]

/-- The root of a full tree pins its leaves. -/
theorem pairUp_iterate_injective (nodes : Function.Injective2 (twoToOne : D → D → D)) :
    ∀ {k : Nat} {l l' : List D}, l.length = 2 ^ k → l'.length = 2 ^ k →
      ((pairUp (B := B))^[k] l).head? = ((pairUp (B := B))^[k] l').head? →
        l = l'
  | 0, l, l', size, size', same => by
    obtain ⟨a, rfl⟩ := length_eq_one_iff.mp size
    obtain ⟨a', rfl⟩ := length_eq_one_iff.mp size'
    simpa using same
  | k + 1, l, l', size, size', same => by
    rw [pow_succ'] at size size'
    have half {l : List D} (size : l.length = 2 * 2 ^ k) :
        (pairUp (B := B) l).length = 2 ^ k := by
      rw [pairUp_length, size, Nat.mul_div_cancel_left _ (by decide)]
    exact pairUp_injective nodes size size'
      (pairUp_iterate_injective nodes (half size) (half size') same)

omit [Hashing D B] in
theorem ext_of_rows {α : Type} {l l' : List α} {n : Nat} (size : l.length = n)
    (size' : l'.length = n) (rows : ∀ i : Fin n, l[i.val]? = l'[i.val]?) : l = l' := by
  refine ext_getElem? fun i => ?_
  by_cases inside : i < n
  · exact rows ⟨i, inside⟩
  · rw [getElem?_eq_none (by omega), getElem?_eq_none (by omega)]

/-- The hash of a balance state pins the whole state. -/
theorem BalanceState.h1_injective (free : CollisionFree D) (injective : KeccakInjective D)
    {s s' : BalanceState B} {hash : B} (found : s.h1 D = some hash)
    (found' : s'.h1 D = some hash) : s = s' := by
  simp only [h1, slotTreeRoot, bind_eq_bind, bind_eq_some_iff, some.injEq,
    slotLeafHashes_eq_some] at found found'
  obtain ⟨root, ⟨leaves, ⟨full, hashed⟩, top⟩, rfl⟩ := found
  obtain ⟨root', ⟨leaves', ⟨full', hashed'⟩, top'⟩, same⟩ := found'
  have preimage := free.inputs _ _ ((((Alike.append (.cons rfl (.cons rfl (.cons rfl (.cons rfl
    (.cons rfl .nil))))) (Alike.map (fun _ => rfl) _)).append (.cons rfl (.cons rfl (.cons rfl
    .nil)))).append (u64Items_alike _ _))) (ofDigest_injective same)
  obtain ⟨front, version⟩ := append_inj' preimage rfl
  obtain ⟨front, roots⟩ := append_inj' front rfl
  obtain ⟨counts, registry⟩ := append_inj' front (by simp)
  simp at counts roots
  obtain ⟨channel, members, delegates, tokens⟩ := counts
  obtain ⟨rfl, chain, accumulator⟩ := roots
  have size := mapM_option_length hashed
  have size' := mapM_option_length hashed'
  rw [length_finRange] at size size'
  have leavesEq : leaves = leaves' :=
    pairUp_iterate_injective free.nodes (k := 10) size size' (top.trans top'.symm)
  subst leavesEq
  have slots (slot : Fin maxChannelMembers) :
      s.encBalances[slot.val]? = s'.encBalances[slot.val]? ∧
        s.pendingAdds[slot.val]? = s'.pendingAdds[slot.val]? ∧
      s.regevPkDigests slot = s'.regevPkDigests slot ∧
        s.recipients slot = s'.recipients slot := by
    obtain ⟨leaf, here, here'⟩ := mapM_option_inj hashed hashed' slot (mem_finRange slot)
    exact slotLeafHash_injective free injective here here'
  have registryEq : s'.tokenRegistry = s.tokenRegistry :=
    funext fun t => u32Item_injective (map_inj_left.mp registry t (mem_finRange t))
  have rows := ext_of_rows full.rows full'.rows fun slot => (slots slot).1
  have counters := ext_of_rows full.counters full'.counters fun slot => (slots slot).2.1
  have keys : s.regevPkDigests = s'.regevPkDigests := funext fun slot => (slots slot).2.2.1
  have recipients : s.recipients = s'.recipients := funext fun slot => (slots slot).2.2.2
  cases s
  cases s'
  simp only [mk.injEq]
  exact ⟨(u32Item_injective channel).symm, (BitVec.eq_of_toNat_eq members).symm,
    (BitVec.eq_of_toNat_eq delegates).symm, rows, keys, recipients, chain.symm, accumulator.symm,
    (u64Items_injective version).symm, counters, registryEq.symm,
    (BitVec.eq_of_toNat_eq tokens).symm⟩

omit [Hashing D B] in
theorem amounts_injective {f g : TokenRow U256}
    (same : (finRange maxChannelTokens).flatMap (fun t => u256Items (D := D) (B := B) (f t)) =
      (finRange maxChannelTokens).flatMap fun t => u256Items (g t)) : f = g := by
  have each : ∀ {l : List (Fin maxChannelTokens)},
      l.flatMap (fun t => u256Items (D := D) (B := B) (f t)) =
        l.flatMap (fun t => u256Items (g t)) → ∀ t ∈ l, f t = g t := by
    intro l
    induction l with
    | nil => exact fun _ t member => absurd member not_mem_nil
    | cons a rest ih =>
      intro same t member
      obtain ⟨here, later⟩ := append_inj same (by simp [u256Items, u32Limbs])
      obtain rfl | inRest := mem_cons.mp member
      · exact u256Items_injective here
      · exact ih later t inRest
  exact funext fun t => each same t (mem_finRange t)

variable {s s' : ChannelState B} {digest : B}

/-- A signing digest pins the fields of a state, and its balances through their hash. -/
theorem ChannelState.signingDigest_fields (injective : KeccakInjective D)
    (found : s.signingDigest D = some digest) (found' : s'.signingDigest D = some digest) :
    (∃ h1, s.balanceState.h1 D = some h1 ∧ s'.balanceState.h1 D = some h1) ∧
      s'.balanceState.stateVersion = s.balanceState.stateVersion ∧
      s' = { s with
        balanceState := s'.balanceState, digest := s'.digest
        memberSignatures := s'.memberSignatures } := by
  simp only [signingDigest, bind_eq_bind, bind_eq_some_iff, some.injEq] at found found'
  obtain ⟨h1, hashed, rfl⟩ := found
  obtain ⟨h1', hashed', same⟩ := found'
  have one (a a' : Item D B) (kind : sameKind a a' = true) : Alike [a] [a'] := .cons kind .nil
  have preimage := injective _ _ ((((((((((Alike.append (.cons rfl (.cons rfl .nil))
    (u64Items_alike _ _)).append (u64Items_alike _ _)).append (u64Items_alike _ _)).append
      (one _ _ rfl)).append (Alike.flatMap (fun _ => u256Items_alike _ _) _)).append
        (.cons rfl (.cons rfl (.cons rfl .nil)))).append (u256Items_alike _ _)).append
          (.cons rfl (.cons rfl .nil))).append (u64Items_alike _ _))) same
  obtain ⟨front, version⟩ := append_inj' preimage rfl
  obtain ⟨front, links⟩ := append_inj' front rfl
  obtain ⟨front, unallocated⟩ := append_inj' front (by simp [u256Items, u32Limbs])
  obtain ⟨front, roots⟩ := append_inj' front rfl
  obtain ⟨front, amounts⟩ := append_inj' front (by simp [u256Items, u32Limbs])
  obtain ⟨front, fundChannel⟩ := append_inj' front rfl
  obtain ⟨front, nonce⟩ := append_inj' front rfl
  obtain ⟨front, block⟩ := append_inj' front rfl
  obtain ⟨channel, epoch⟩ := append_inj' front rfl
  simp at links roots fundChannel channel
  obtain ⟨stateRoot, rfl, nullifiers⟩ := roots
  have amounts := amounts_injective amounts
  have fund : s'.channelFund = s.channelFund := by
    cases h : s.channelFund
    cases h' : s'.channelFund
    simp
    rw [h, h'] at fundChannel amounts stateRoot
    exact ⟨u32Item_injective fundChannel, amounts, stateRoot⟩
  refine ⟨⟨_, hashed, hashed'⟩, u64Items_injective version, ?_⟩
  cases s
  cases s'
  simp
  exact ⟨u32Item_injective channel, u64Items_injective epoch, u64Items_injective block,
    u64Items_injective nonce, fund, links.2, nullifiers, u256Items_injective unallocated, links.1⟩

/-- Two states with one signing digest differ at most in what is not signed. -/
theorem ChannelState.signingDigest_injective (free : CollisionFree D)
    (injective : KeccakInjective D) (found : s.signingDigest D = some digest)
    (found' : s'.signingDigest D = some digest) :
    s' = { s with digest := s'.digest, memberSignatures := s'.memberSignatures } := by
  obtain ⟨⟨h1, hashed, hashed'⟩, -, fields⟩ := signingDigest_fields injective found found'
  have balance := h1_injective free injective hashed hashed'
  rwa [← balance] at fields

end

end Intmax.Channel
