import Intmax.Rollup.Layout

/-! # Finalized history

The finalized height is the end of a live finalized submission (or zero), and no
finalized submission lies above it.  A fraud proof may only remove batches that
start above that height, and the layout puts every finalized batch below them; so
what is finalized is never written again.
-/

namespace Intmax.Rollup

open Checked Transition Function

structure Chain.Finality (c : Chain) : Prop where
  reached : c.latestFinalizedBlockNumber = 0 ∨ ∃ id, id < c.nextSubmissionId ∧
    (c.submissions id).finalized = true ∧
    (c.batchMetadata id).endBlockNumber = c.latestFinalizedBlockNumber
  below : ∀ id, (c.submissions id).finalized = true →
    (c.batchMetadata id).endBlockNumber ≤ c.latestFinalizedBlockNumber

/-- Everything finalized in `c` stands unchanged in `c'`. -/
structure Chain.KeepsFinalized (c c' : Chain) : Prop where
  height : c.latestFinalizedBlockNumber ≤ c'.latestFinalizedBlockNumber
  live : ∀ id, (c.submissions id).finalized = true → id < c'.nextSubmissionId
  submission : ∀ id, (c.submissions id).finalized = true → c'.submissions id = c.submissions id
  batch : ∀ id, (c.submissions id).finalized = true → c'.batchMetadata id = c.batchMetadata id
  hashes : ∀ b, b ≤ c.latestFinalizedBlockNumber →
    c'.blockHashChainAt b = c.blockHashChainAt b
  deposits : ∀ b, b ≤ c.latestFinalizedBlockNumber →
    c'.blockDepositHash b = c.blockDepositHash b
  regs : ∀ b, b ≤ c.latestFinalizedBlockNumber →
    c'.blockChannelRegHash b = c.blockChannelRegHash b
  roots : ∀ root, c.isFinalizedStateRoot root = true → c'.isFinalizedStateRoot root = true

namespace Chain

variable {c c' c'' : Chain}

theorem KeepsFinalized.refl (layout : c.Layout) : KeepsFinalized c c where
  height := le_refl _
  live := fun _ finalized => layout.live_of_finalized finalized
  submission := fun _ _ => rfl
  batch := fun _ _ => rfl
  hashes := fun _ _ => rfl
  deposits := fun _ _ => rfl
  regs := fun _ _ => rfl
  roots := fun _ known => known

theorem KeepsFinalized.trans (first : KeepsFinalized c c') (second : KeepsFinalized c' c'') :
    KeepsFinalized c c'' := by
  -- what is finalized in `c` is still finalized in `c'`, so the second half applies to it
  have still {id : Nat} (finalized : (c.submissions id).finalized = true) :
      (c'.submissions id).finalized = true := by
    rw [first.submission id finalized]
    exact finalized
  have reaches {b : Nat} (below : b ≤ c.latestFinalizedBlockNumber) :
      b ≤ c'.latestFinalizedBlockNumber := le_trans below first.height
  constructor
  · exact le_trans first.height second.height
  · intro id finalized
    exact second.live id (still finalized)
  · intro id finalized
    rw [second.submission id (still finalized), first.submission id finalized]
  · intro id finalized
    rw [second.batch id (still finalized), first.batch id finalized]
  · intro b below
    rw [second.hashes b (reaches below), first.hashes b below]
  · intro b below
    rw [second.deposits b (reaches below), first.deposits b below]
  · intro b below
    rw [second.regs b (reaches below), first.regs b below]
  · intro root known
    exact second.roots root (first.roots root known)

/-- The finalized height never passes the head. -/
theorem Finality.height_le (finality : c.Finality) (layout : c.Layout) :
    c.latestFinalizedBlockNumber ≤ c.blockNumber := by
  rcases finality.reached with genesis | ⟨id, live, -, height⟩
  · omega
  · rw [layout.head, ← height, ← heightBefore_succ]
    exact layout.mono live (le_refl _)

/-- A batch that starts above the finalized height is not finalized, and none after it is. -/
theorem Finality.unfinalized_from (finality : c.Finality) (layout : c.Layout) {target id : Nat}
    (above : c.latestFinalizedBlockNumber < (c.batchMetadata target).startBlockNumber)
    (from_ : target ≤ id) : (c.submissions id).finalized = false := by
  rw [Bool.eq_false_iff]
  intro finalized
  have live := layout.live_of_finalized finalized
  have below := finality.below id finalized
  have order := layout.mono from_ (le_of_lt live)
  have nonempty := layout.nonempty id live
  have start := layout.start target (by omega)
  rw [heightBefore_succ] at nonempty
  omega

/-! ## Retracting -/

variable {last : Nat}

theorem Finality.retract (finality : c.Finality) (layout : c.Layout)
    (next : c.nextSubmissionId = last + 1)
    (above : c.latestFinalizedBlockNumber ≤ c.heightBefore last) : (retract c).Finality := by
  obtain ⟨-, grew, -, stop⟩ := layout.last_blocks next
  rw [layout.retract_eq next]
  constructor
  · rcases finality.reached with genesis | ⟨id, live, finalized, height⟩
    · exact .inl genesis
    · have earlier : id ≠ last := by
        rintro rfl
        omega
      refine .inr ⟨id, ?_, ?_, ?_⟩
      · show id < last
        omega
      · simp only [update_of_ne earlier]
        exact finalized
      · simp only [update_of_ne earlier]
        exact height
  · intro id finalized
    by_cases same : id = last
    · subst same
      simp only [update_self] at finalized
      cases finalized
    · simp only [update_of_ne same] at finalized ⊢
      exact finality.below id finalized

theorem KeepsFinalized.retract (finality : c.Finality) (layout : c.Layout)
    (next : c.nextSubmissionId = last + 1)
    (above : c.latestFinalizedBlockNumber ≤ c.heightBefore last) :
    KeepsFinalized c (retract c) := by
  obtain ⟨-, grew, -, stop⟩ := layout.last_blocks next
  have earlier {id : Nat} (finalized : (c.submissions id).finalized = true) : id < last := by
    have live := layout.live_of_finalized finalized
    have below := finality.below id finalized
    rcases Nat.lt_or_eq_of_le (show id ≤ last by omega) with before | rfl
    · exact before
    · omega
  rw [layout.retract_eq next]
  constructor
  · exact le_refl _
  · intro id finalized
    exact earlier finalized
  · intro id finalized
    exact update_of_ne (ne_of_lt (earlier finalized)) _ _
  · intro id finalized
    exact update_of_ne (ne_of_lt (earlier finalized)) _ _
  · intro b below
    exact if_neg (by omega)
  · intro b below
    exact if_neg (by omega)
  · intro b below
    exact if_neg (by omega)
  · intro root known
    exact known

/-- The same over a whole truncation, which stays above the finalized height. -/
theorem Finality.truncate (finality : c.Finality) (layout : c.Layout) {target n : Nat}
    (next : c.nextSubmissionId = target + n)
    (above : c.latestFinalizedBlockNumber ≤ c.heightBefore target) :
    (Rollup.retract^[n] c).Finality ∧ KeepsFinalized c (Rollup.retract^[n] c) := by
  have kept := (retract_iterate (P := fun d => (d.Layout ∧ d.Finality ∧ KeepsFinalized c d) ∧
    d.latestFinalizedBlockNumber ≤ d.heightBefore target) target ?_ ⟨⟨layout, finality, .refl
    layout⟩, above⟩ next).1
  · exact kept.1.2
  · intro d ⟨⟨laid, final, keeps⟩, clear⟩ more
    have next' : d.nextSubmissionId = d.nextSubmissionId - 1 + 1 := by omega
    have clear' : d.latestFinalizedBlockNumber ≤ d.heightBefore (d.nextSubmissionId - 1) :=
      le_trans clear (laid.mono (by omega) (by omega))
    refine ⟨⟨laid.retract next', final.retract laid next' clear',
      keeps.trans (.retract final laid next' clear')⟩, ?_⟩
    have sameHeight : (Rollup.retract d).heightBefore target = d.heightBefore target := by
      apply heightBefore_congr
      intro k before
      exact (retract_earlier d (by omega)).2
    rw [sameHeight, laid.retract_eq next']
    exact clear

end Chain

/-! ## The finalized check of the truncation loop -/

section
variable {σ : Type} {sat : Satellite σ} {cfg : Config} {exit offender : Address} {forfeit : Bool}

variable {n target : Nat} {t : Truncation σ} {e : Revert}

variable {k submissionId : Nat} {v : Vault} {reporter : Address} {world : External}
  {args : ProofArgs}

/-- Where the loop reaches submission `k`, having removed all later ones, that submission
    is as it was when the loop started. -/
theorem truncateLoop_reaches {t' : Truncation σ}
    (h : truncateLoop cfg sat exit offender forfeit (k + 1) n t = .ok t') :
    t'.chain.submissions k = t.chain.submissions k ∧
    t'.chain.batchMetadata k = t.chain.batchMetadata k ∧
    t'.chain.latestFinalizedBlockNumber = t.chain.latestFinalizedBlockNumber := by
  have chain := truncateLoop_chain h
  have kept := retract_iterate_earlier (c := t.chain.withNext (k + 1 + n)) rfl (lt_add_one k)
  have height := retract_iterate_finalizedHeight n (t.chain.withNext (k + 1 + n))
  rw [← chain] at kept height
  exact ⟨kept.1, kept.2, height⟩

/-- A loop that aborts does so in one of its passes. -/
theorem truncateLoop_error (h : truncateLoop cfg sat exit offender forfeit target n t = .error e) :
    ∃ k t', target ≤ k ∧ k < target + n ∧
      truncateLoop cfg sat exit offender forfeit (k + 1) (target + n - (k + 1)) t = .ok t' ∧
      truncateOne cfg sat exit offender forfeit k t' = .error e := by
  induction n generalizing t with
  | zero => cases h
  | succ n ih =>
    rcases bind_error.mp h with first | ⟨t₁, first, rest⟩
    · refine ⟨target + n, t, by omega, by omega, ?_, first⟩
      rw [show target + (n + 1) - (target + n + 1) = 0 by omega]
      rfl
    · obtain ⟨k, t', from_, below, reached, failed⟩ := ih rest
      refine ⟨k, t', from_, by omega, ?_, failed⟩
      rw [show target + (n + 1) - (k + 1) = (target + n - (k + 1)) + 1 by omega]
      simp [truncateLoop]
      refine ⟨t₁, ?_, reached⟩
      rw [show k + 1 + (target + n - (k + 1)) = target + n by omega]
      exact first

theorem Truncation.chargeRemoval_error {submitter : Address}
    (h : t.chargeRemoval cfg offender forfeit submitter = .error e) : e = .panic := by
  rcases bind_error.mp h with underflow | ⟨posted, -, charged⟩
  · exact (sub_error underflow).symm
  · cases forfeit with
    | false => cases charged
    | true =>
      simp [Truncation.book] at charged
      split at charged
      · rcases bind_error.mp charged with overflow | ⟨_, -, done⟩
        · exact (add_error overflow).symm
        · cases done
      · rcases bind_error.mp charged with overflow | ⟨_, -, done⟩
        · exact (add_error overflow).symm
        · cases done

theorem rollbackBlocks_error {start : Nat} {x : Chain × σ}
    (h : rollbackBlocks sat exit start n x = .error e) :
    ∃ number j, sat.rollbackPost exit number j = .error e := by
  induction n generalizing x with
  | zero => cases h
  | succ n ih =>
    rcases bind_error.mp h with called | ⟨j, -, rest⟩
    · simp only [rollbackSigned] at called
      split at called
      · exact ⟨_, _, called⟩
      · cases called
    · exact ih rest

theorem rollbackBatch_error {c : Chain} {j : σ}
    (h : rollbackBatch sat exit submissionId c j = .error e) :
    ∃ number j, sat.rollbackPost exit number j = .error e := by
  simp only [rollbackBatch] at h
  split at h
  · cases h
  · rcases bind_error.mp h with deleting | ⟨_, -, done⟩
    · exact rollbackBlocks_error deleting
    · cases done

/-- A pass aborts on a finalized submission, on arithmetic, or because the satellite does. -/
theorem truncateOne_error
    (h : truncateOne cfg sat exit offender forfeit submissionId t = .error e) :
    (t.chain.submissions submissionId).finalized = true ∨ e = .panic ∨
      ∃ number j, sat.rollbackPost exit number j = .error e := by
  rcases bind_error.mp h with check | ⟨_, -, h⟩
  · exact .inl (revertIf_error.mp check).1
  · rcases bind_error.mp h with charge | ⟨_, -, h⟩
    · exact .inr (.inl (Truncation.chargeRemoval_error charge))
    · rcases bind_error.mp h with rolling | ⟨_, -, done⟩
      · exact .inr (.inr (rollbackBatch_error rolling))
      · cases done

theorem creditPending_error {recipient : Address} {amount : Nat}
    (h : creditPending recipient amount v = .error e) : e = .panic := by
  rcases bind_error.mp h with overflow | ⟨_, -, done⟩
  · exact (add_error overflow).symm
  · cases done

theorem settleForfeits_error {offenderForfeited othersForfeited : Nat}
    (h : settleForfeits cfg reporter offenderForfeited othersForfeited v = .error e) :
    e = .panic := by
  simp only [settleForfeits] at h
  split at h
  · cases h
  · rcases bind_error.mp h with overflow | ⟨_, -, h⟩
    · exact (mul_error overflow).symm
    · rcases bind_error.mp h with underflow | ⟨_, -, h⟩
      · exact (sub_error underflow).symm
      · rcases bind_error.mp h with overflow | ⟨_, -, h⟩
        · exact (add_error overflow).symm
        · rcases bind_error.mp h with credit | ⟨_, -, credit⟩
          · exact creditPending_error credit
          · exact creditPending_error credit

/-- A truncation aborts in its loop, or on the arithmetic of the settlement. -/
theorem truncateSubmissions_error {s : Rollup} {j : σ}
    (h : truncateSubmissions cfg sat target reporter forfeit s j = .error e) :
    e = .panic ∨
    truncateLoop cfg sat s.roles.channelExitMaterializer (s.chain.submissions target).submitter
      forfeit target (s.chain.nextSubmissionId - target)
      { chain := s.chain, bonds := s.vault.bonds, satellite := j,
        offenderForfeited := 0, othersForfeited := 0 } = .error e := by
  rcases bind_error.mp h with loop | ⟨t, -, h⟩
  · exact .inr loop
  · cases forfeit with
    | false => cases h
    | true =>
      rcases bind_error.mp h with overflow | ⟨_, -, h⟩
      · exact .inl (add_error overflow).symm
      · rcases bind_error.mp h with settling | ⟨_, -, done⟩
        · exact .inl (settleForfeits_error settling)
        · cases done

/-- The loop's finalized check passes wherever the loop gets to, once the target starts
    above the finalized height. -/
theorem truncateLoop_unfinalized {s : Rollup} (layout : s.chain.Layout)
    (finality : s.chain.Finality) {bonds : Address → Bond} {j : σ}
    (above : s.chain.latestFinalizedBlockNumber < (s.chain.batchMetadata target).startBlockNumber)
    (from_ : target ≤ k) (reached : truncateLoop cfg sat exit offender forfeit (k + 1) n
      { chain := s.chain, bonds, satellite := j, offenderForfeited := 0, othersForfeited := 0 } =
        .ok t) : (t.chain.submissions k).finalized = false := by
  rw [(truncateLoop_reaches reached).1]
  exact finality.unfinalized_from layout above from_

variable [Keccak]

theorem verifyFraud_error {s : Rollup} (h : verifyFraud world args s = .error .alreadyFinalized) :
    False := by
  rcases bind_error.mp h with check | ⟨_, -, h⟩
  · cases (revertIf_error.mp check).2
  · split at h
    · dsimp only at h
      split at h
      · cases h
      · rcases bind_error.mp h with check | ⟨_, -, h⟩
        · cases (revertIf_error.mp check).2
        · rcases bind_error.mp h with check | ⟨_, -, h⟩
          · cases (revertIf_error.mp check).2
          · cases h
    · cases h

theorem fraudProof_never_alreadyFinalized {env : Env} {s : Rollup} {j : σ}
    (layout : s.chain.Layout) (finality : s.chain.Finality)
    (own : ∀ callee number j, sat.rollbackPost callee number j ≠ .error .alreadyFinalized) :
    fraudProof cfg sat env world args s j ≠ .error .alreadyFinalized := by
  intro h
  rcases bind_error.mp h with check | ⟨_, -, h⟩
  · cases (revertIf_error.mp check).2
  rcases bind_error.mp h with check | ⟨_, -, h⟩
  · cases (revertIf_error.mp check).2
  dsimp only at h
  split at h
  · cases h
  rcases bind_error.mp h with check | ⟨_, -, h⟩
  · cases (revertIf_error.mp check).2
  rcases bind_error.mp h with check | ⟨_, passed, h⟩
  · cases (revertIf_error.mp check).2
  have above := lt_of_not_ge (revertIf_ok.mp passed)
  -- past the guards only the verdict and the truncation can abort
  obtain ⟨confirmed, truncating⟩ : ∃ confirmed, truncateSubmissions cfg sat args.submissionId
      env.sender confirmed s j = .error .alreadyFinalized := by
    split at h
    · rcases bind_error.mp h with verdict | ⟨confirmed, -, h⟩
      · exact (verifyFraud_error verdict).elim
      · split at h
        · cases h
        · rcases bind_error.mp h with truncating | ⟨_, -, done⟩
          · exact ⟨confirmed, truncating⟩
          · cases done
    · rcases bind_error.mp h with verdict | ⟨confirmed, -, h⟩
      · cases verdict
      · split at h
        · cases h
        · rcases bind_error.mp h with truncating | ⟨_, -, done⟩
          · exact ⟨confirmed, truncating⟩
          · cases done
  rcases truncateSubmissions_error truncating with panic | loop
  · cases panic
  · obtain ⟨k, t, from_, -, reached, failed⟩ := truncateLoop_error loop
    rcases truncateOne_error failed with finalized | panic | ⟨number, j', refused⟩
    · rw [truncateLoop_unfinalized layout finality above from_ reached] at finalized
      cases finalized
    · cases panic
    · exact own _ _ _ refused

end

/-! ## Effects -/

section
variable [Keccak] {σ : Type} {sat : Satellite σ} {cfg : Config} {env : Env} {s s' : Rollup}
  {j j' : σ}

theorem Posts.finality {args : PostArgs} {cursor : PostCursor σ} {submission : Submission}
    (posts : Posts cfg sat env args cursor submission s s' j j') (layout : s.chain.Layout)
    (finality : s.chain.Finality) :
    s'.chain.Finality ∧ s.chain.KeepsFinalized s'.chain := by
  have loop := posts.loop
  simp only [startCursor] at loop
  have under := finality.height_le layout
  have grew := posts.height_lt
  have earlier {id : Nat} (finalized : (s.chain.submissions id).finalized = true) :
      id ≠ s.chain.nextSubmissionId := ne_of_lt (layout.live_of_finalized finalized)
  rw [posts.chain_eq]
  refine ⟨⟨?_, ?_⟩, ?_⟩
  · rcases finality.reached with genesis | ⟨id, live, finalized, height⟩
    · exact .inl genesis
    · refine .inr ⟨id, Nat.lt_succ_of_lt live, ?_, ?_⟩
      · simp only [postedChain, update_of_ne (earlier finalized)]
        exact finalized
      · simp only [postedChain, update_of_ne (earlier finalized)]
        exact height
  · intro id finalized
    by_cases last : id = s.chain.nextSubmissionId
    · subst last
      simp [postedChain] at finalized
      rw [posts.unfinalized] at finalized
      cases finalized
    · simp only [postedChain, update_of_ne last] at finalized ⊢
      exact finality.below id finalized
  · constructor
    · exact le_refl _
    · intro id finalized
      exact Nat.lt_succ_of_lt (layout.live_of_finalized finalized)
    · intro id finalized
      exact update_of_ne (earlier finalized) _ _
    · intro id finalized
      exact update_of_ne (earlier finalized) _ _
    · intro b below
      exact update_of_ne (by omega) _ _
    · intro b below
      exact loop.deposits b (.inl (le_trans below under))
    · intro b below
      exact loop.regs b (.inl (le_trans below under))
    · intro root known
      exact known

variable {world : External} {args : ProofArgs}

/-- An accepted finalization marks a live submission that ends strictly higher: the only
    live submission ending at the finalized height is finalized already. -/
theorem checkFinalize_strict {c : Chain} (checked : checkFinalize world args c = .ok ())
    (layout : c.Layout) (finality : c.Finality) :
    c.latestFinalizedBlockNumber < args.validityPIs.finalBlockNumber.toNat := by
  obtain ⟨found, unfinalized, -, height, forward⟩ := checkFinalize_ok checked
  have live := layout.live_of_commitment found
  rcases Nat.lt_or_eq_of_le forward with higher | same
  · exact higher
  · rcases finality.reached with genesis | ⟨id, live', finalized, height'⟩
    · have nonempty := layout.nonempty args.submissionId live
      rw [Chain.heightBefore_succ] at nonempty
      omega
    · have sameId := layout.end_inj live live' (by omega)
      rw [sameId, finalized] at unfinalized
      cases unfinalized

theorem markFinalized_finality {c : Chain} (checked : checkFinalize world args c = .ok ())
    (layout : c.Layout) (finality : c.Finality) :
    (markFinalized args c).Finality ∧ c.KeepsFinalized (markFinalized args c) := by
  obtain ⟨found, unfinalized, -, height, forward⟩ := checkFinalize_ok checked
  have live := layout.live_of_commitment found
  have other {id : Nat} (finalized : (c.submissions id).finalized = true) :
      id ≠ args.submissionId := by
    rintro rfl
    rw [unfinalized] at finalized
    cases finalized
  refine ⟨⟨?_, ?_⟩, ?_⟩
  · refine .inr ⟨args.submissionId, live, ?_, height.symm⟩
    simp [markFinalized]
  · intro id finalized
    by_cases same : id = args.submissionId
    · subst same
      exact le_of_eq height.symm
    · simp only [markFinalized, update_of_ne same] at finalized ⊢
      exact le_trans (finality.below id finalized) forward
  · constructor
    · exact forward
    · intro id finalized
      exact layout.live_of_finalized finalized
    · intro id finalized
      exact update_of_ne (other finalized) _ _
    · intro id finalized
      rfl
    · intro b below
      rfl
    · intro b below
      rfl
    · intro b below
      rfl
    · intro root known
      by_cases same : root = args.stateRoot
      · subst same
        simp [markFinalized]
      · simp only [markFinalized, update_of_ne same]
        exact known

theorem ChainEffect.finality {action : ChainAction}
    (effect : ChainEffect cfg sat env action s s' j j') (layout : s.chain.Layout)
    (finality : s.chain.Finality) :
    s'.chain.Finality ∧ s.chain.KeepsFinalized s'.chain := by
  cases effect with
  | idle chain =>
    rw [chain]
    exact ⟨finality, .refl layout⟩
  | bind chain =>
    rw [chain]
    exact ⟨finality, .refl layout⟩
  | release => exact ⟨finality, .refl layout⟩
  | post posts => exact posts.finality layout finality
  | finalize checked => exact markFinalized_finality checked layout finality
  | @truncate s s' j j' target forfeit t found above truncates =>
    have live := layout.live_of_commitment found
    have start := layout.start target live
    rw [truncates.chain_retract (le_of_lt live)]
    exact finality.truncate layout (Nat.add_sub_of_le (le_of_lt live)).symm (by omega)

theorem initial_finality (cfg : Config) : (initial cfg).chain.Finality := by
  refine ⟨.inl rfl, ?_⟩
  intro id finalized
  cases finalized

theorem Reachable.finality (reachable : Reachable cfg s) :
    s.chain.Layout ∧ s.chain.Finality := by
  refine Transition.Reachable.invariant (I := fun s => s.chain.Layout ∧ s.chain.Finality) ?_
    reachable ⟨initial_layout cfg, initial_finality cfg⟩
  intro s e t ⟨layout, finality⟩ step
  obtain ⟨σ, sat, j, j', effect⟩ := Step.effect step
  exact ⟨effect.layout layout, (effect.finality layout finality).1⟩

theorem run_keepsFinalized {events : List Event} (reachable : Reachable cfg s)
    (run : Path (Step cfg) s events s') : s.chain.KeepsFinalized s'.chain := by
  obtain ⟨layout, finality⟩ := reachable.finality
  refine (run.invariant (I := fun t => (t.chain.Layout ∧ t.chain.Finality) ∧
    s.chain.KeepsFinalized t.chain) ?_ ⟨⟨layout, finality⟩, .refl layout⟩).2
  intro t e u ⟨⟨laid, final⟩, keeps⟩ step
  obtain ⟨σ, sat, j, j', effect⟩ := Step.effect step
  obtain ⟨final', kept⟩ := effect.finality laid final
  exact ⟨⟨effect.layout laid, final'⟩, keeps.trans kept⟩

/-- Finalized history is permanent.  In every reachable state the finalized height is at
    most the head; an accepted finalization raises it; along every further run whatever is
    finalized stays as it is; and a fraud proof never meets a finalized submission in its
    truncation loop, nor reverts on one. -/
theorem finalized_history_permanent (reachable : Reachable cfg s) :
    s.chain.latestFinalizedBlockNumber ≤ s.chain.blockNumber ∧
    (∀ e t args, Step cfg s e t → e.call = .finalize args → e.outcome = .returned true →
      s.chain.latestFinalizedBlockNumber < t.chain.latestFinalizedBlockNumber) ∧
    (∀ events t, Path (Step cfg) s events t → s.chain.KeepsFinalized t.chain) ∧
    (∀ (τ : Type) (sat : Satellite τ) (j : τ) (offender : Address) (forfeit : Bool)
      (target k : Nat) (t : Truncation τ),
      s.chain.latestFinalizedBlockNumber < (s.chain.batchMetadata target).startBlockNumber →
      target ≤ k →
      truncateLoop cfg sat s.roles.channelExitMaterializer offender forfeit (k + 1)
        (s.chain.nextSubmissionId - (k + 1))
        { chain := s.chain, bonds := s.vault.bonds, satellite := j,
          offenderForfeited := 0, othersForfeited := 0 } = .ok t →
      (t.chain.submissions k).finalized = false) ∧
    (∀ (τ : Type) (sat : Satellite τ) (j : τ) (env : Env) (world : External)
      (args : ProofArgs), (∀ callee number j,
        sat.rollbackPost callee number j ≠ .error .alreadyFinalized) →
      fraudProof cfg sat env world args s j ≠ .error .alreadyFinalized) := by
  obtain ⟨layout, finality⟩ := reachable.finality
  refine ⟨finality.height_le layout, ?_, ?_, ?_, ?_⟩
  · intro e t args step call outcome
    obtain ⟨τ, sat, j, j', effect⟩ := Step.effect step
    have action : e.action = .finalize args := by
      simp only [Event.action, call, outcome]
    rw [action] at effect
    cases effect with
    | finalize checked => exact checkFinalize_strict checked layout finality
  · intro events t run
    exact run_keepsFinalized reachable run
  · intro τ sat j offender forfeit target k t above from_ reached
    exact truncateLoop_unfinalized layout finality above from_ reached
  · intro τ sat j env world args own
    exact fraudProof_never_alreadyFinalized layout finality own

end

section
attribute [local instance] evmKeccak

/-- Finalize the second of two posted batches, whose proof covers the first. -/
def sampleFinalize : Env × External × Call :=
  let first := computeBlockHash 0 sampleBlock 0 0
  let pis : ValidityPublicInputs :=
    { initialBlockNumber := 0, initialBlockChain := 0, initialExtCommitment := 0x9e
      finalBlockNumber := 2, finalBlockChain := computeBlockHash first sampleBlock 0 0
      finalExtCommitment := 0x51, prover := 3 }
  let limbs := (List.range 8).map fun i =>
    ((computeValidityPIHash pis).toNat >>> (224 - i * 32)) % 2 ^ 32
  (sampleEnv 3 0 5, { sampleExternal with validityPublicInputs := fun _ => some limbs }, .finalize
    { submissionId := 1, stateRoot := 0x51, validityPIs := pis, proofBytes := [1] })

theorem finalized_history_permanent_sample : ∃ s, Reachable sampleConfig s ∧
    s.chain.latestFinalizedBlockNumber = 2 ∧ (s.chain.submissions 0).finalized = false ∧
    (s.chain.submissions 1).finalized = true ∧
    ∀ events t, Path (Step sampleConfig) s events t → s.chain.KeepsFinalized t.chain := by
  have ran : runsTo sampleConfig sampleSatellite ()
      (sampleSetup ++ [samplePost 9 2, samplePost 0 3, sampleFinalize]) (fun _ s =>
        s.chain.latestFinalizedBlockNumber == 2 && !(s.chain.submissions 0).finalized &&
          (s.chain.submissions 1).finalized) = true := by decide +kernel
  obtain ⟨events, s, run, facts⟩ := runsTo_run ran
  simp at facts
  obtain ⟨⟨height, skipped⟩, marked⟩ := facts
  have reachable : Reachable sampleConfig s := ⟨events, run⟩
  exact ⟨s, reachable, height, skipped, marked, (finalized_history_permanent reachable).2.2.1⟩

end

end Intmax.Rollup
