import Intmax.Channel.Registering
import Intmax.Settlement.Close

/-! # Metadata and refresh budget along a chain of states

Every step of a chain links the same metadata and changes the counters of the positions it names,
so a whole chain is described by its transitions: the counter of a position is the number of
additions to it since it was encrypted last.
-/

namespace Intmax.Channel

open Checked Hashing Transition Validity List BitVec BalanceState
open Free (Digest)

variable {D B : Type} {record : ChannelRecord B} {s s' : ChannelState B}
  {ts : List (ChannelTransition D B)}

/-- How many transitions add to a position. -/
def additions (p : Position) (ts : List (ChannelTransition D B)) : Nat :=
  ts.countP fun t => decide (t.Adds p)

theorem additions_snoc (p : Position) (ts : List (ChannelTransition D B))
    (t : ChannelTransition D B) :
    additions p (ts ++ [t]) = additions p ts + if t.Adds p then 1 else 0 := by
  simp [additions, countP_cons]

variable [Hashing D B]

/-! ## What never changes -/

/-- The fields that no transition may touch. -/
structure SameMetadata (s s' : ChannelState B) : Prop where
  channelId : s'.channelId = s.channelId
  memberCount : s'.balanceState.memberCount = s.balanceState.memberCount
  delegateCount : s'.balanceState.delegateCount = s.balanceState.delegateCount
  recipients : s'.balanceState.recipients = s.balanceState.recipients
  regevPkDigests : s'.balanceState.regevPkDigests = s.balanceState.regevPkDigests
  closeFreezeNonce : s'.closeFreezeNonce = s.closeFreezeNonce

theorem Linked.sameMetadata (linked : Linked D record s s') : SameMetadata s s' where
  channelId := linked.channelId
  memberCount := linked.memberCount.2.trans linked.memberCount.1.symm
  delegateCount := linked.delegateCount.2.trans linked.delegateCount.1.symm
  recipients := linked.recipients
  regevPkDigests := linked.regevPkDigests
  closeFreezeNonce := linked.closeFreezeNonce

theorem SameMetadata.trans {s'' : ChannelState B} (first : SameMetadata s s')
    (second : SameMetadata s' s'') : SameMetadata s s'' where
  channelId := second.channelId.trans first.channelId
  memberCount := second.memberCount.trans first.memberCount
  delegateCount := second.delegateCount.trans first.delegateCount
  recipients := second.recipients.trans first.recipients
  regevPkDigests := second.regevPkDigests.trans first.regevPkDigests
  closeFreezeNonce := second.closeFreezeNonce.trans first.closeFreezeNonce

/-! ## The registry -/

/-- The registered tokens in the order of their registration. -/
def BalanceState.activeTokens (state : BalanceState B) : List (BitVec 32) :=
  (List.ofFn state.tokenRegistry).take state.tokenCount.toNat

theorem RegistryStep.appends {before after : BalanceState B} (step : RegistryStep before after) :
    before.activeTokens <+: after.activeTokens := by
  cases step with
  | inl same => rw [activeTokens, activeTokens, same.1, same.2]
  | inr appended =>
    obtain ⟨room, tokenIndex, -, registry, count⟩ := appended
    have grown : after.tokenCount.toNat = before.tokenCount.toNat + 1 := by
      have small : before.tokenCount.toNat < 10 := room
      have one : (1 : BitVec 8).toNat = 1 := rfl
      rw [count, toNat_add, one]
      omega
    -- Both lists agree below the old count, where the update does not reach.
    have same : before.activeTokens = (ofFn after.tokenRegistry).take
        before.tokenCount.toNat := by
      rw [activeTokens, registry]
      apply ext_getElem
      · simp
      · intro i below _
        simp at below
        simp
        rw [Function.update_of_ne]
        intro at_
        simp at at_
        omega
    rw [same, activeTokens, grown]
    exact take_prefix_take_left (by omega)

/-- The registered tokens are distinct, and the rest of the registry is zero. -/
structure RegistryCanonical (state : BalanceState B) : Prop where
  distinct : state.activeTokens.Nodup
  unused : ∀ t : Fin maxChannelTokens, state.tokenCount.toNat ≤ t.val →
    state.tokenRegistry t = 0

theorem BalanceState.Canonical.registry {state : BalanceState B} (canonical : state.Canonical D) :
    RegistryCanonical state where
  distinct := by
    rw [activeTokens, Nodup, pairwise_iff_getElem]
    intro i j below below' order
    simp at below below'
    simp
    exact canonical.distinct _ _ (Fin.mk_lt_mk.mpr order) (by simp only; omega)
  unused := canonical.unused

theorem BalanceState.Canonical.adds_le {state : BalanceState B} (canonical : state.Canonical D)
    (p : Position) : (state.adds p).toNat ≤ maxHomoAddsBeforeRefresh := by
  rw [adds]
  cases found : state.pendingAdds[p.1]? with
  | none => exact Nat.zero_le _
  | some row => exact (canonical.counters p.1 row found p.2).1

variable [DecidableEq B] [OfLimbs B] {backends : Backends B}

/-- A step against a fixed record of the channel. -/
def ChainStep (backends : Backends B) (record : ChannelRecord B) (s : ChannelState B)
    (t : ChannelTransition D B) (s' : ChannelState B) : Prop :=
  Accepts backends s t s' ∧ t.record = record

theorem chain_sameMetadata (run : Path (ChainStep backends record) s ts s') :
    SameMetadata s s' := by
  refine run.invariant (I := SameMetadata s) (fun _ _ _ kept step => ?_)
    ⟨rfl, rfl, rfl, rfl, rfl, rfl⟩
  exact kept.trans step.1.step.linked.sameMetadata

theorem chain_registry (run : Path (ChainStep backends record) s ts s') :
    s.balanceState.activeTokens <+: s'.balanceState.activeTokens := by
  refine run.invariant (I := fun u => s.balanceState.activeTokens <+: u.balanceState.activeTokens)
    (fun _ _ _ kept step => ?_) (prefix_refl _)
  exact kept.trans step.1.step.registry.appends

/-! ## Both ends of a chain -/

/-- A chain with a step starts and ends in states that pass the validation. -/
theorem chain_canonical (run : Path (ChainStep backends record) s ts s') (moved : ts ≠ []) :
    s.balanceState.Canonical D ∧ s'.balanceState.Canonical D := by
  refine run.history (I := fun ls u => ls ≠ [] →
    s.balanceState.Canonical D ∧ u.balanceState.Canonical D) (fun none => absurd rfl none)
    (fun ls t l u before kept step _ => ?_) moved
  have linked := step.1.step.linked
  cases ls with
  | nil => exact ⟨before.nil_inv ▸ linked.before, linked.after⟩
  | cons => exact ⟨(kept (cons_ne_nil _ _)).1, linked.after⟩

/-! ## Counters -/

theorem chain_counters (run : Path (ChainStep backends record) s ts s') :
    s'.epoch = s.epoch + BitVec.ofNat 64 ts.length ∧
      s'.balanceState.stateVersion =
        s.balanceState.stateVersion + BitVec.ofNat 64 ts.length := by
  refine run.history (I := fun ls u => u.epoch = s.epoch + BitVec.ofNat 64 ls.length ∧
    u.balanceState.stateVersion = s.balanceState.stateVersion + BitVec.ofNat 64 ls.length)
    (by simp) (fun ls t l u _ counted step => ?_)
  have linked := step.1.step.linked
  rw [linked.epoch, linked.stateVersion, counted.1, counted.2]
  simp only [length_append, length_singleton, BitVec.ofNat_add, BitVec.add_assoc]
  exact ⟨rfl, rfl⟩

/-- The close intent and the pending close carry the counters of the two states. -/
def Closes (state : ChannelState B) (intent : Settlement.CloseIntent) : Prop :=
  intent.finalEpoch = state.epoch.toNat ∧
    intent.finalStateVersion = state.balanceState.stateVersion.toNat

/-- While the epoch does not wrap around, the order of the close game is the order of the chain. -/
theorem chain_order (run : Path (ChainStep backends record) s ts s')
    (room : s.epoch.toNat + ts.length < 2 ^ 64) {early late : Settlement.PendingClose}
    (first : Closes s early.toCloseIntent) (last : Closes s' late.toCloseIntent) :
    (Settlement.isNewer late.toCloseIntent early = true ↔ ts ≠ []) ∧
      Settlement.isNewer early.toCloseIntent late = false := by
  have counted := chain_counters run
  have epoch : s'.epoch.toNat = s.epoch.toNat + ts.length := by
    rw [counted.1, toNat_add, toNat_ofNat]
    omega
  simp only [Settlement.isNewer, first.1, first.2, last.1, last.2, epoch]
  cases ts with
  | nil =>
    -- Without a step both closes carry the same pair.
    have same : s'.balanceState.stateVersion = s.balanceState.stateVersion := by
      rw [counted.2]
      exact BitVec.add_zero _
    simp [same]
  | cons t rest =>
    simp only [length_cons, ne_eq, reduceCtorEq, not_false_eq_true, iff_true, Bool.or_eq_true,
      Bool.or_eq_false_iff, Bool.and_eq_false_imp, decide_eq_true_eq, decide_eq_false_iff_not]
    refine ⟨.inl (by omega), by omega, fun same => absurd same (by omega)⟩

/-- A step that starts below the last epoch and the last version. -/
def CountedStep (backends : Backends B) (record : ChannelRecord B) (s : ChannelState B)
    (t : ChannelTransition D B) (s' : ChannelState B) : Prop :=
  ChainStep backends record s t s' ∧ s.epoch ≠ BitVec.allOnes 64 ∧
    s.balanceState.stateVersion ≠ BitVec.allOnes 64

omit [Hashing D B] [DecidableEq B] [OfLimbs B] in
theorem toNat_add_one {n : BitVec 64} (below : n ≠ BitVec.allOnes 64) :
    (n + 1).toNat = n.toNat + 1 := by
  have last : n.toNat ≠ 2 ^ 64 - 1 := fun same =>
    below (BitVec.eq_of_toNat_eq (by rw [same, toNat_allOnes]))
  have one : (1 : BitVec 64).toNat = 1 := rfl
  rw [toNat_add, one]
  omega

/-- The counters are the numbers of steps, and the close game orders states as the chain does. -/
structure ChainCounted (s : ChannelState B) (ts : List (ChannelTransition D B))
    (s' : ChannelState B) : Prop where
  epoch : s'.epoch.toNat = s.epoch.toNat + ts.length
  stateVersion : s'.balanceState.stateVersion.toNat =
    s.balanceState.stateVersion.toNat + ts.length
  order : ∀ early late : Settlement.PendingClose, Closes s early.toCloseIntent →
    Closes s' late.toCloseIntent →
      (Settlement.isNewer late.toCloseIntent early = true ↔ ts ≠ []) ∧
        Settlement.isNewer early.toCloseIntent late = false

theorem chain_counted (run : Path (CountedStep backends record) s ts s') :
    ChainCounted s ts s' := by
  have counted : s'.epoch.toNat = s.epoch.toNat + ts.length ∧
      s'.balanceState.stateVersion.toNat = s.balanceState.stateVersion.toNat + ts.length := by
    -- over the steps made so far: none of them starts at a last value, so both counters grow
    refine run.history (I := fun ls u => u.epoch.toNat = s.epoch.toNat + ls.length ∧
      u.balanceState.stateVersion.toNat = s.balanceState.stateVersion.toNat + ls.length)
      ⟨rfl, rfl⟩ (fun ls t l u _ counted step => ?_)
    have linked := step.1.1.step.linked
    rw [linked.epoch, linked.stateVersion, toNat_add_one step.2.1, toNat_add_one step.2.2,
      counted.1, counted.2, length_append, length_singleton, add_assoc, add_assoc]
    exact ⟨rfl, rfl⟩
  have room : s.epoch.toNat + ts.length < 2 ^ 64 := counted.1 ▸ s'.epoch.isLt
  exact ⟨counted.1, counted.2, fun early late =>
    chain_order (run.map (f := id) fun _ _ _ step => step.1) room⟩

/-! ## Additions since the last encryption -/

/-- Along a chain that never encrypts a position anew its counter counts the additions. -/
theorem chain_adds {p : Position} (run : Path (ChainStep backends record) s ts s')
    (kept : ∀ t ∈ ts, ¬ t.Refreshes p) :
    (s'.balanceState.adds p).toNat = (s.balanceState.adds p).toNat + additions p ts := by
  refine run.history (I := fun ls u => (∀ t ∈ ls, ¬ t.Refreshes p) →
    (u.balanceState.adds p).toNat = (s.balanceState.adds p).toNat + additions p ls)
    (fun _ => rfl) (fun ls t l u _ counted step kept => ?_) kept
  have before := counted fun t old => kept t (mem_append_left _ old)
  have positions := step.1.step.positions
  rw [additions_snoc]
  split
  case isTrue added =>
    obtain ⟨room, incremented⟩ := positions.adds p added
    have one : (1 : BitVec 32).toNat = 1 := rfl
    have small : maxHomoAddsBeforeRefresh = 64 := rfl
    rw [incremented, toNat_add, one]
    omega
  case isFalse notAdded =>
    rw [(positions.frame p notAdded (kept l (mem_append_right _ (mem_singleton_self l)))).2,
      before, add_zero]

/-- After an encryption the counter counts the additions that follow it. -/
theorem chain_adds_since {p : Position} {before after : List (ChannelTransition D B)}
    {t : ChannelTransition D B} (run : Path (ChainStep backends record) s (before ++ t :: after) s')
    (fresh : t.Refreshes p) (kept : ∀ t ∈ after, ¬ t.Refreshes p) :
    (s'.balanceState.adds p).toNat = additions p after := by
  obtain ⟨middle, -, rest⟩ := run.split
  obtain ⟨middle', step, rest⟩ := rest.cons_inv
  rw [chain_adds rest kept, step.1.step.positions.refreshes p fresh]
  simp

/-- A position that no transition names keeps its ciphertext and its counter. -/
theorem chain_frame {p : Position} (run : Path (ChainStep backends record) s ts s')
    (unnamed : ∀ t ∈ ts, ¬ t.Adds p ∧ ¬ t.Refreshes p) :
    s'.balanceState.ct p = s.balanceState.ct p ∧
      s'.balanceState.adds p = s.balanceState.adds p := by
  refine run.history (I := fun ls u => (∀ t ∈ ls, ¬ t.Adds p ∧ ¬ t.Refreshes p) →
    u.balanceState.ct p = s.balanceState.ct p ∧ u.balanceState.adds p = s.balanceState.adds p)
    (fun _ => ⟨rfl, rfl⟩) (fun ls t l u _ same step unnamed => ?_) unnamed
  obtain ⟨notAdded, notFresh⟩ := unnamed l (mem_append_right _ (mem_singleton_self l))
  have before := same fun t old => unnamed t (mem_append_left _ old)
  have now := step.1.step.positions.frame p notAdded notFresh
  exact ⟨now.1.trans before.1, now.2.trans before.2⟩

/-! ## A whole chain -/

/-- What a chain of states against one record keeps and counts. -/
structure ChainKept (D : Type) {B : Type} [Hashing D B] [DecidableEq B] (s : ChannelState B)
    (ts : List (ChannelTransition D B)) (s' : ChannelState B) : Prop where
  metadata : SameMetadata s s'
  registry : s.balanceState.activeTokens <+: s'.balanceState.activeTokens
  registries : ts ≠ [] → RegistryCanonical s.balanceState ∧ RegistryCanonical s'.balanceState
  epoch : s'.epoch = s.epoch + BitVec.ofNat 64 ts.length
  stateVersion : s'.balanceState.stateVersion =
    s.balanceState.stateVersion + BitVec.ofNat 64 ts.length
  order : s.epoch.toNat + ts.length < 2 ^ 64 → ∀ early late : Settlement.PendingClose,
    Closes s early.toCloseIntent → Closes s' late.toCloseIntent →
      (Settlement.isNewer late.toCloseIntent early = true ↔ ts ≠ []) ∧
        Settlement.isNewer early.toCloseIntent late = false
  counted : ∀ p : Position, (∀ t ∈ ts, ¬ t.Refreshes p) →
    (s'.balanceState.adds p).toNat = (s.balanceState.adds p).toNat + additions p ts
  countedSince : ∀ (p : Position) (before after : List (ChannelTransition D B))
    (t : ChannelTransition D B), ts = before ++ t :: after → t.Refreshes p →
      (∀ t ∈ after, ¬ t.Refreshes p) → (s'.balanceState.adds p).toNat = additions p after
  budget : ts ≠ [] → ∀ p : Position, (s.balanceState.adds p).toNat ≤
    maxHomoAddsBeforeRefresh ∧ (s'.balanceState.adds p).toNat ≤ maxHomoAddsBeforeRefresh
  frame : ∀ p : Position, (∀ t ∈ ts, ¬ t.Adds p ∧ ¬ t.Refreshes p) →
    s'.balanceState.ct p = s.balanceState.ct p ∧ s'.balanceState.adds p = s.balanceState.adds p

/-- In a channel of two members a token is registered from every epoch. -/
theorem exists_registration (backends : Backends B) (epoch : BitVec 64) {key key' root : B}
    (key_ne : key ≠ zeroBytes D) (key'_ne : key' ≠ zeroBytes D) (distinct : key ≠ key')
    (anchored : root ≠ zeroBytes D) :
    ∃ (s s' : ChannelState B) (t : ChannelTransition D B),
      (s.epoch = epoch ∧ s.balanceState.stateVersion = 0) ∧
      ChainStep backends (pairRecord D 1 key key' root) s t s' := by
  let balance : BalanceState B := pairBalance D 1 0 .padding .padding 0 0
  have canonical : balance.Canonical D := pairBalance_canonical RegevCiphertext.padding_validate
    RegevCiphertext.padding_validate (Nat.zero_le _) (Nat.zero_le _)
  have valid : (pairRecord D 1 key key' root).validate D = .ok () :=
    pairRecord_validate (by decide) key_ne key'_ne distinct anchored
  obtain ⟨digest, fits⟩ : ∃ digest, (pairState D balance epoch digest).Fits D
      (pairRecord D 1 key key' root) := exists_pairState_fits canonical
  have room : balance.tokenCount.toNat < maxChannelTokens := show 1 < maxChannelTokens by decide
  have unregistered : ∀ t : Fin maxChannelTokens, t.val < balance.tokenCount.toNat →
      balance.tokenRegistry t ≠ 5 := fun t _ => show (0 : BitVec 32) ≠ 5 by decide
  obtain ⟨next, inputs, accepted⟩ :=
    tokenRegister_accepted fits room unregistered (pairSignatures_valid valid)
  exact ⟨_, next, .tokenRegister ⟨_, _, next, 5⟩, ⟨rfl, rfl⟩,
    ⟨rfl, rfl, inputs, accepted⟩, rfl⟩

/-- No proof is accepted. -/
def Backends.refusing : Backends B where
  regev := fun _ _ _ => .error .panic
  transport := fun _ _ => .error .panic
  decrypt := fun _ _ => []

/-- What every chain keeps; the counters count its steps where none starts at the last value. -/
theorem channel_chain_kept (run : Path (ChainStep backends record) s ts s') :
    ChainKept D s ts s' ∧ (Path (CountedStep backends record) s ts s' →
      ChainCounted s ts s') where
  left :=
    { metadata := chain_sameMetadata run
      registry := chain_registry run
      registries := fun moved =>
        ⟨(chain_canonical run moved).1.registry, (chain_canonical run moved).2.registry⟩
      epoch := (chain_counters run).1
      stateVersion := (chain_counters run).2
      order := fun room _ _ first last => chain_order run room first last
      counted := fun _ kept => chain_adds run kept
      countedSince := fun _ _ _ _ cut fresh kept => chain_adds_since (cut ▸ run) fresh kept
      budget := fun moved p =>
        ⟨(chain_canonical run moved).1.adds_le p, (chain_canonical run moved).2.adds_le p⟩
      frame := fun _ unnamed => chain_frame run unnamed }
  right := chain_counted

theorem channel_chain_kept_registration :
    ∃ (s s' : ChannelState Free.Bytes) (t : ChannelTransition Digest Free.Bytes),
      Path (CountedStep .refusing (pairRecord Digest 1 (.word 1) (.word 2) (.word 3))) s [t] s' ∧
        ChainKept Digest s [t] s' ∧ ChainCounted s [t] s' := by
  obtain ⟨s, s', t, ⟨epoch, version⟩, step⟩ := exists_registration (D := Digest) .refusing 0
    (show Free.Bytes.word 1 ≠ _ by nofun) (show Free.Bytes.word 2 ≠ _ by nofun) (by decide)
    (show Free.Bytes.word 3 ≠ _ by nofun)
  have counted : Path (CountedStep .refusing (pairRecord Digest 1 (.word 1) (.word 2) (.word 3)))
      s [t] s' := .single ⟨step, by rw [epoch]; decide, by rw [version]; decide⟩
  obtain ⟨kept, exact_counts⟩ := channel_chain_kept (.single step)
  exact ⟨s, s', t, counted, kept, exact_counts counted⟩

/-- After the last epoch comes epoch zero, and the close game prefers the older state. -/
theorem epoch_wraps_around :
    ∃ (s s' : ChannelState Free.Bytes) (t : ChannelTransition Digest Free.Bytes),
      ChainStep .refusing (pairRecord Digest 1 (.word 1) (.word 2) (.word 3)) s t s' ∧
        s'.epoch.toNat ≠ s.epoch.toNat + 1 ∧
          ∀ early late : Settlement.PendingClose, Closes s early.toCloseIntent →
            Closes s' late.toCloseIntent →
              Settlement.isNewer early.toCloseIntent late = true ∧
                Settlement.isNewer late.toCloseIntent early = false := by
  obtain ⟨s, s', t, ⟨last, -⟩, step⟩ := exists_registration (D := Digest) .refusing
    (BitVec.allOnes 64)
    (show Free.Bytes.word 1 ≠ _ by nofun) (show Free.Bytes.word 2 ≠ _ by nofun) (by decide)
    (show Free.Bytes.word 3 ≠ _ by nofun)
  have before : s.epoch.toNat = 2 ^ 64 - 1 := by
    rw [last, BitVec.toNat_allOnes]
  have after : s'.epoch.toNat = 0 := by
    rw [step.1.step.linked.epoch, last, BitVec.toNat_add, BitVec.toNat_allOnes]
    rfl
  refine ⟨s, s', t, step, by omega, fun early late first second => ?_⟩
  simp only [Settlement.isNewer, first.1, second.1, before, after]
  exact ⟨by simp, by simp⟩

end Intmax.Channel
