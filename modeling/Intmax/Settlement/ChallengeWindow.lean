import Mathlib.Data.Prod.Lex
import Intmax.Settlement.Specs

/-! # The challenge window of a close

An era is a ladder of intents: the first one fixes the horizon, and every
replacement comes inside the current window and is strictly newer.  The deadline of
a rung is a function of its time and of the horizon, so the order of the
deadlines and their bounds are the monotonicity and the bounds of that function,
as long as the horizon and the absolute end fit in 64 bits.
-/

namespace Intmax.Settlement

open Checked Transition List

/-! ## Eras -/

/-- One accepted intent: what it said, when it came, and the deadline that was stored. -/
structure Rung where
  intent : CloseIntent
  time : Nat
  deadline : Nat

/-- Epoch and version, in the order in which intents replace each other. -/
def CloseIntent.rank (intent : CloseIntent) : Nat ×ₗ Nat :=
  toLex (intent.finalEpoch, intent.finalStateVersion)

/-- Calls that neither add a rung nor end the era. -/
def Call.keepsEra : Call → Bool
  | .submitCloseIntent .. => false
  | .cancelClose .. => false
  | .finalizeCloseGuarded .. => false
  | _ => true

section
variable [Keccak]

/-- `Era cfg first rungs x`: in a run that has reached `x`, the first intent of the current era
    came at `first`, and `rungs` are the accepted intents, newest first. -/
inductive Era (cfg : Config) : Nat → List Rung → Manager × Nat → Prop
  | opened {x y : Manager × Nat} {e : Event} {intent : CloseIntent} {compactProof : Bytes}
      (reached : Transition.Reachable (TimedStep cfg) (initial, 0) x)
      (idle : x.1.lifecycle.pendingClose.active = false) (step : TimedStep cfg x e y)
      (called : e.call = .submitCloseIntent intent compactProof) :
      Era cfg e.env.timestamp
        [⟨intent, e.env.timestamp, y.1.lifecycle.pendingClose.challengeDeadline⟩] y
  | replaced {first : Nat} {rungs : List Rung} {x y : Manager × Nat} {e : Event}
      {intent : CloseIntent} {compactProof : Bytes} (era : Era cfg first rungs x)
      (step : TimedStep cfg x e y) (called : e.call = .submitCloseIntent intent compactProof) :
      Era cfg first
        (⟨intent, e.env.timestamp, y.1.lifecycle.pendingClose.challengeDeadline⟩ :: rungs) y
  | other {first : Nat} {rungs : List Rung} {x y : Manager × Nat} {e : Event}
      (era : Era cfg first rungs x) (step : TimedStep cfg x e y) (keeps : e.call.keepsEra = true) :
      Era cfg first rungs y

end

/-! ## The deadline as a function of the time -/

variable {cfg : Config}

theorem Config.minResponse_eq (cfg : Config) :
    cfg.minResponse = min cfg.challengePeriod minCloseResponseSecs := by
  unfold minResponse
  split
  · rename_i short
    exact (min_eq_left short.le).symm
  · rename_i long
    exact (min_eq_right (le_of_not_gt long)).symm

variable {horizon now deadline : Nat}

theorem deadlineAt_ok (h : deadlineAt cfg horizon now = .ok deadline) :
    deadline = min (max (min (now + cfg.challengePeriod) horizon) (now + cfg.minResponse))
      (horizon + cfg.minResponse) := by
  simp only [deadlineAt, bind_ok, add_ok_iff, pure_ok] at h
  obtain ⟨_, ⟨-, rfl⟩, _, ⟨-, rfl⟩, rfl⟩ := h
  grind

/-- A later rung never stores an earlier deadline. -/
theorem deadlineAt_mono {later deadline' : Nat} (h : deadlineAt cfg horizon now = .ok deadline)
    (h' : deadlineAt cfg horizon later = .ok deadline') (le : now ≤ later) :
    deadline ≤ deadline' := by
  rw [deadlineAt_ok h, deadlineAt_ok h']
  apply min_le_min_right
  apply max_le_max
  · exact min_le_min_right _ (Nat.add_le_add_right le _)
  · exact Nat.add_le_add_right le _

theorem deadlineAt_le (h : deadlineAt cfg horizon now = .ok deadline) :
    deadline ≤ horizon + cfg.minResponse := by
  rw [deadlineAt_ok h]
  exact min_le_right _ _

theorem le_deadlineAt (h : deadlineAt cfg horizon now = .ok deadline) :
    min (now + cfg.minResponse) (horizon + cfg.minResponse) ≤ deadline := by
  rw [deadlineAt_ok h]
  exact min_le_min_right _ (le_max_right _ _)

theorem isNewer_rank {intent : CloseIntent} {current : PendingClose}
    (newer : isNewer intent current = true) : current.toCloseIntent.rank < intent.rank := by
  simp [isNewer] at newer
  rw [CloseIntent.rank, CloseIntent.rank, Prod.Lex.toLex_lt_toLex]
  cases newer with
  | inl epoch => exact .inl epoch
  | inr version => exact .inr ⟨version.1.symm, version.2⟩

/-! ## What an era keeps -/

structure Ladder (cfg : Config) (first : Nat) (rungs : List Rung) (x : Manager × Nat) : Prop where
  pending : x.1.lifecycle.channelStatus = .closePending
  active : x.1.lifecycle.pendingClose.active = true
  horizon_eq : x.1.lifecycle.closeChallengeHorizon = (first + 2 * cfg.challengePeriod) % 2 ^ 64
  highest : ∀ rung ∈ rungs, rung.intent.rank ≤ x.1.lifecycle.pendingClose.toCloseIntent.rank
  past : ∀ rung ∈ rungs, rung.time ≤ x.2
  ordered : rungs.Pairwise fun newer older => older.time ≤ newer.time
  stored : ∀ rung ∈ rungs, ∃ deadline,
    deadlineAt cfg ((first + 2 * cfg.challengePeriod) % 2 ^ 64) rung.time = .ok deadline ∧
    rung.deadline = deadline % 2 ^ 64

section
variable [Keccak] {x y : Manager × Nat} {first : Nat} {rungs : List Rung} {e : Event}

variable {s s' : Manager} {intent : CloseIntent} {compactProof : Bytes}

/-- What a submission did, from its step. -/
theorem Step.submits (step : Step cfg s e s')
    (called : e.call = .submitCloseIntent intent compactProof) :
    ∃ horizon deadline, Submits cfg e.env intent horizon deadline s s' := by
  obtain ⟨ε, sat, x, x', effect⟩ := step.effect
  rw [called] at effect
  cases effect with
  | request named _ _ _ => cases named
  | submit submits => exact ⟨_, _, submits⟩
  | accrue named _ _ _ _ _ => cases named

theorem Ladder.opened (idle : x.1.lifecycle.pendingClose.active = false)
    (step : TimedStep cfg x e y) (called : e.call = .submitCloseIntent intent compactProof) :
    Ladder cfg e.env.timestamp
      [⟨intent, e.env.timestamp, y.1.lifecycle.pendingClose.challengeDeadline⟩] y := by
  obtain ⟨horizon, deadline, submits⟩ := step.1.submits called
  have window := submits.window
  rw [idle] at window
  obtain ⟨-, requested, rfl⟩ := window.resolve_left (by simp)
  have manager_eq := submits.manager_eq
  exact
    { pending := by rw [manager_eq]; exact requested
      active := by rw [manager_eq]; rfl
      horizon_eq := by rw [manager_eq]; rfl
      highest := by
        intro rung member
        cases mem_singleton.mp member
        rw [manager_eq]
        exact le_refl _
      past := by
        intro rung member
        cases mem_singleton.mp member
        exact step.2.2.ge
      ordered := pairwise_singleton _ _
      stored := by
        intro rung member
        cases mem_singleton.mp member
        exact ⟨deadline, submits.deadline_eq, by rw [manager_eq]; rfl⟩ }

theorem Ladder.replaced (ladder : Ladder cfg first rungs x) (step : TimedStep cfg x e y)
    (called : e.call = .submitCloseIntent intent compactProof) :
    Ladder cfg first
      (⟨intent, e.env.timestamp, y.1.lifecycle.pendingClose.challengeDeadline⟩ :: rungs) y := by
  obtain ⟨horizon, deadline, submits⟩ := step.1.submits called
  have window := submits.window
  rw [ladder.active] at window
  obtain ⟨-, -, newer, rfl⟩ := window.resolve_right (by simp)
  have manager_eq := submits.manager_eq
  have deadline_eq := submits.deadline_eq
  rw [ladder.horizon_eq] at deadline_eq
  exact
    { pending := by rw [manager_eq]; exact ladder.pending
      active := by rw [manager_eq]; rfl
      horizon_eq := by rw [manager_eq]; exact ladder.horizon_eq
      highest := by
        intro rung member
        rw [manager_eq]
        cases mem_cons.mp member with
        | inl new => exact (congrArg (·.intent.rank) new).le
        | inr old => exact (ladder.highest rung old).trans (isNewer_rank newer).le
      past := by
        intro rung member
        rw [step.2.2]
        cases mem_cons.mp member with
        | inl new => exact (congrArg (·.time) new).le
        | inr old => exact (ladder.past rung old).trans step.2.1
      ordered := pairwise_cons.mpr
        ⟨fun rung old => (ladder.past rung old).trans step.2.1, ladder.ordered⟩
      stored := by
        intro rung member
        cases mem_cons.mp member with
        | inl new =>
          subst new
          exact ⟨deadline, deadline_eq, by rw [manager_eq]; rfl⟩
        | inr old => exact ladder.stored rung old }

/-- While a close is pending, calls that do not move the era leave the lifecycle alone. -/
theorem Step.lifecycle_eq (step : Step cfg s e s')
    (pending : s.lifecycle.channelStatus = .closePending) (keeps : e.call.keepsEra = true) :
    s'.lifecycle = s.lifecycle := by
  obtain ⟨ε, sat, x, x', effect⟩ := step.effect
  obtain ⟨env, call⟩ := e
  cases effect with
  | request _ _ _ requests => exact absurd (pending.symm.trans requests.active) (by simp)
  | submit _ => cases keeps
  | cancel _ => cases keeps
  | finalize _ _ => cases keeps
  | accrue _ _ _ _ _ _ => rfl
  | pull pulls => rw [pulls.manager_eq]
  | pay pays =>
    obtain ⟨frame, -, manager_eq⟩ := pays.manager_eq
    rw [manager_eq]
  | pulled _ => rfl
  | paid _ _ => rfl

theorem Era.ladder (era : Era cfg first rungs x) : Ladder cfg first rungs x := by
  induction era with
  | opened _ idle step called => exact .opened idle step called
  | replaced _ step called ladder => exact ladder.replaced step called
  | other _ step keeps ladder =>
    have same := step.1.lifecycle_eq ladder.pending keeps
    exact
      { pending := by rw [same]; exact ladder.pending
        active := by rw [same]; exact ladder.active
        horizon_eq := by rw [same]; exact ladder.horizon_eq
        highest := by rw [same]; exact ladder.highest
        past := fun rung member => by
          rw [step.2.2]
          exact (ladder.past rung member).trans step.2.1
        ordered := ladder.ordered
        stored := ladder.stored }

/-! ## The close game -/

omit [Keccak] in
/-- When the absolute end fits in 64 bits, neither cast of the clock loses anything. -/
theorem Ladder.deadline_eq (ladder : Ladder cfg first rungs x)
    (fits : first + 2 * cfg.challengePeriod + cfg.minResponse < 2 ^ 64) {rung : Rung}
    (member : rung ∈ rungs) :
    deadlineAt cfg (first + 2 * cfg.challengePeriod) rung.time = .ok rung.deadline := by
  obtain ⟨deadline, clock, stored⟩ := ladder.stored rung member
  rw [Nat.mod_eq_of_lt (by omega)] at clock
  have bound := deadlineAt_le clock
  rw [Nat.mod_eq_of_lt (by omega)] at stored
  rw [stored]
  exact clock

theorem Step.finalizes {digest : Bytes32} {generation : Nat} (step : Step cfg s e s')
    (called : e.call = .finalizeCloseGuarded digest generation) :
    ∃ digest funds, Finalizes e.env digest funds s s' := by
  obtain ⟨ε, sat, x, x', effect⟩ := step.effect
  rw [called] at effect
  cases effect with
  | request named _ _ _ => cases named
  | finalize _ finalizes => exact ⟨_, _, finalizes⟩
  | accrue named _ _ _ _ _ => cases named

theorem close_game_timing (era : Era cfg first rungs x) :
    (first + 2 * cfg.challengePeriod + min cfg.challengePeriod minCloseResponseSecs < 2 ^ 64 →
      rungs.Pairwise (fun newer older => older.deadline ≤ newer.deadline) ∧
      ∀ rung ∈ rungs,
        rung.deadline ≤
          first + 2 * cfg.challengePeriod + min cfg.challengePeriod minCloseResponseSecs ∧
        min (rung.time + min cfg.challengePeriod minCloseResponseSecs)
          (first + 2 * cfg.challengePeriod + min cfg.challengePeriod minCloseResponseSecs) ≤
            rung.deadline) ∧
    (∀ e s e' s' intent compactProof digest generation, Step cfg x.1 e s →
      Step cfg x.1 e' s' → e.call = .submitCloseIntent intent compactProof →
      e'.call = .finalizeCloseGuarded digest generation →
      e.env.timestamp ≠ e'.env.timestamp) ∧
    (∀ e s digest generation, Step cfg x.1 e s →
      e.call = .finalizeCloseGuarded digest generation → ∀ rung ∈ rungs,
        toLex (rung.intent.finalEpoch, rung.intent.finalStateVersion) ≤
        toLex (s.finalized.epoch, s.finalized.stateVersion)) := by
  have ladder := era.ladder
  refine ⟨?_, ?_, ?_⟩
  · rw [← cfg.minResponse_eq]
    intro fits
    constructor
    · -- all rungs have one horizon, so the order of their times is that of their deadlines
      refine ladder.ordered.imp_of_mem ?_
      intro newer older new old le
      exact deadlineAt_mono (ladder.deadline_eq fits old) (ladder.deadline_eq fits new) le
    · intro rung member
      have clock := ladder.deadline_eq fits member
      exact ⟨deadlineAt_le clock, le_deadlineAt clock⟩
  · intro e s e' s' intent compactProof digest generation step step' called called' same
    obtain ⟨horizon, deadline, submits⟩ := step.submits called
    obtain ⟨_, _, finalizes⟩ := step'.finalizes called'
    -- a replacement needs the window open, a finalization needs it over
    cases submits.window with
    | inl replacing => exact absurd finalizes.late (Nat.not_lt.mpr (same ▸ replacing.2.1))
    | inr opening => exact absurd (ladder.active.symm.trans opening.1) (by simp)
  · intro e s digest generation step called rung member
    obtain ⟨_, _, finalizes⟩ := step.finalizes called
    rw [finalizes.manager_eq]
    exact ladder.highest rung member

end

section
attribute [local instance] evmKeccak

/-- Two replacements, the second in the last stretch before the horizon, and a finalization. -/
theorem close_game_timing_sample : ∃ rungs x e s, Era sampleConfig 2000 rungs x ∧
    2000 + 2 * sampleConfig.challengePeriod +
      min sampleConfig.challengePeriod minCloseResponseSecs < 2 ^ 64 ∧
    rungs.map (fun rung => (rung.time, rung.deadline)) =
      [(174000, 177600), (88000, 174400), (2000, 88400)] ∧
    rungs.Pairwise (fun newer older => older.deadline ≤ newer.deadline) ∧
    Step sampleConfig x.1 e s ∧ s.finalized.stateVersion = 3 ∧
    ∀ rung ∈ rungs, toLex (rung.intent.finalEpoch, rung.intent.finalStateVersion) ≤
      toLex (s.finalized.epoch, s.finalized.stateVersion) := by
  have ran : runsFrom sampleConfig sampleSatellite [sampleRequest] (initial, 0) () (fun _ s x =>
      s.1.lifecycle.pendingClose.active == false &&
      stepsTo sampleConfig sampleSatellite (sampleSubmit 2000 1) s x (fun s x =>
        s.1.lifecycle.pendingClose.challengeDeadline == 88400 &&
        stepsTo sampleConfig sampleSatellite (sampleSubmit 88000 2) s x (fun s x =>
          s.1.lifecycle.pendingClose.challengeDeadline == 174400 &&
          stepsTo sampleConfig sampleSatellite (sampleSubmit 174000 3) s x (fun s x =>
            s.1.lifecycle.pendingClose.challengeDeadline == 177600 &&
            stepsTo sampleConfig sampleSatellite
              (sampleEnv 0x41 177601, sampleExternal 0, .finalizeCloseGuarded
                (computeCloseIntentDigest sampleConfig (sampleIntent 3)) 1) s x (fun s _ =>
              s.1.finalized.stateVersion == 3))))) = true := by decide +kernel
  obtain ⟨_, s, x, setup, more⟩ := runsFrom_path ran
  simp at more
  obtain ⟨idle, more⟩ := more
  obtain ⟨s₁, x₁, first, more⟩ := stepsTo_step more
  simp at more
  obtain ⟨deadline₁, more⟩ := more
  obtain ⟨s₂, x₂, second, more⟩ := stepsTo_step more
  simp at more
  obtain ⟨deadline₂, more⟩ := more
  obtain ⟨s₃, x₃, third, more⟩ := stepsTo_step more
  simp at more
  obtain ⟨deadline₃, more⟩ := more
  obtain ⟨s₄, x₄, last, version⟩ := stepsTo_step more
  have era := ((Era.opened ⟨_, setup⟩ idle first rfl).replaced second rfl).replaced third rfl
  have fits : 2000 + 2 * sampleConfig.challengePeriod +
      min sampleConfig.challengePeriod minCloseResponseSecs < 2 ^ 64 := by decide
  obtain ⟨clock, -, newest⟩ := close_game_timing era
  refine ⟨_, s₃, _, s₄.1, era, fits, ?_, (clock fits).1, last.1, beq_iff_eq.mp version,
    newest _ _ _ _ last.1 rfl⟩
  simp [deadline₁, deadline₂, deadline₃, sampleSubmit, sampleEnv]

/-- A manager whose challenge period is half the range of its clock. -/
def halfRangeConfig : Config :=
  { sampleConfig with
    challengePeriod := 9223372036854775808
    challengePeriod_pos := by decide
    challengePeriod_lt := by decide }

/-- The horizon wraps round to the time of the first intent, and a replacement can be finalized
    in the second after it came. -/
theorem challenge_horizon_wraps : ∃ rungs x, Era halfRangeConfig 2000 rungs x ∧
    ∃ rung ∈ rungs, rung.time = 5600 ∧ rung.deadline = 5600 ∧
      rung.deadline < min (rung.time + min halfRangeConfig.challengePeriod minCloseResponseSecs)
        (2000 + 2 * halfRangeConfig.challengePeriod +
          min halfRangeConfig.challengePeriod minCloseResponseSecs) := by
  have ran : runsFrom halfRangeConfig sampleSatellite [sampleRequest] (initial, 0) () (fun _ s x =>
      s.1.lifecycle.pendingClose.active == false &&
      stepsTo halfRangeConfig sampleSatellite (sampleSubmit 2000 1) s x (fun s x =>
        stepsTo halfRangeConfig sampleSatellite (sampleSubmit 5600 2) s x (fun s _ =>
          s.1.lifecycle.pendingClose.challengeDeadline == 5600))) = true := by decide +kernel
  obtain ⟨_, s, x, setup, more⟩ := runsFrom_path ran
  simp at more
  obtain ⟨idle, more⟩ := more
  obtain ⟨s₁, x₁, first, more⟩ := stepsTo_step more
  obtain ⟨s₂, x₂, second, deadline⟩ := stepsTo_step more
  have era := (Era.opened ⟨_, setup⟩ idle first rfl).replaced second rfl
  refine ⟨_, s₂, era, _, List.mem_cons_self, rfl, beq_iff_eq.mp deadline, ?_⟩
  show s₂.1.lifecycle.pendingClose.challengeDeadline < _
  rw [beq_iff_eq.mp deadline]
  decide

end

/-! ## A close is final -/

section
variable [Keccak] {s s' : Manager} {e : Event}

/-- Nothing is booked before a close is final, and a final close leaves no intent behind. -/
structure Stage (s : Manager) : Prop where
  ended : s.lifecycle.channelStatus = .closed → s.lifecycle.pendingClose.active = false
  clean : s.lifecycle.channelStatus ≠ .closed →
    s.accounts = {} ∧ s.finalized = {} ∧ s.status = none

/-- What no call changes after the close. -/
def Settled (s s' : Manager) : Prop :=
  s'.lifecycle = s.lifecycle ∧ s'.finalized = s.finalized ∧
    s'.accounts.finalizedChannelFundAmount = s.accounts.finalizedChannelFundAmount

theorem Stage.settled (stage : Stage s) (closed : s.lifecycle.channelStatus = .closed)
    (step : Step cfg s e s') : Settled s s' := by
  have idle := stage.ended closed
  obtain ⟨ε, sat, x, x', effect⟩ := step.effect
  obtain ⟨env, call⟩ := e
  cases effect with
  | request _ _ _ requests => cases closed.symm.trans requests.active
  | submit submits =>
    cases submits.window with
    | inl replacing => cases idle.symm.trans replacing.1
    | inr opening => cases closed.symm.trans opening.2.1
  | cancel cancels => cases idle.symm.trans cancels.active
  | finalize _ finalizes => cases idle.symm.trans finalizes.active
  | accrue _ _ _ _ _ accrues =>
    obtain ⟨shared, rfl⟩ := accrues.accounts_eq
    exact ⟨rfl, rfl, rfl⟩
  | pull pulls => exact pulls.manager_eq ▸ ⟨rfl, rfl, rfl⟩
  | pay pays =>
    obtain ⟨frame, -, manager_eq⟩ := pays.manager_eq
    exact manager_eq ▸ ⟨rfl, rfl, rfl⟩
  | pulled _ => exact ⟨rfl, rfl, rfl⟩
  | paid _ _ => exact ⟨rfl, rfl, rfl⟩

theorem Stage.step (stage : Stage s) (step : Step cfg s e s') : Stage s' := by
  by_cases closed : s.lifecycle.channelStatus = .closed
  · obtain ⟨same, -⟩ := stage.settled closed step
    rw [← same] at closed
    exact ⟨fun _ => same ▸ stage.ended (same ▸ closed), (absurd closed ·)⟩
  · have clean := stage.clean closed
    obtain ⟨ε, sat, x, x', effect⟩ := step.effect
    obtain ⟨env, call⟩ := e
    cases effect with
    | request _ _ _ requests => exact requests.manager_eq ▸ ⟨(by cases ·), fun _ => clean⟩
    | submit submits => exact submits.manager_eq ▸ ⟨(absurd · closed), fun _ => clean⟩
    | cancel cancels => exact cancels.manager_eq ▸ ⟨fun _ => rfl, fun _ => clean⟩
    | finalize _ finalizes => exact finalizes.manager_eq ▸ ⟨fun _ => rfl, (absurd rfl ·)⟩
    | accrue _ _ _ _ now _ => exact absurd now closed
    | pull pulls => exact absurd pulls.closed closed
    | pay pays =>
      -- no payout has been accrued yet
      have positive := pays.positive
      rw [clean.1] at positive
      cases positive
    | pulled suspended => cases clean.2.2.symm.trans suspended
    | paid _ suspended => cases clean.2.2.symm.trans suspended

/-- Before its close is final a manager has booked nothing; afterwards no call moves its lifecycle,
    the state it was closed at or the funds of that state. -/
theorem close_is_final {events : List Event} (run : Run cfg events s) :
    (s.lifecycle.channelStatus ≠ .closed →
      s.accounts = {} ∧ s.finalized = {} ∧ s.status = none) ∧
    (s.lifecycle.channelStatus = .closed →
      ∀ later t, Path (Step cfg) s later t → Settled s t) := by
  have start : Stage initial := ⟨fun _ => rfl, fun _ => ⟨rfl, rfl, rfl⟩⟩
  have stage : Stage s := run.invariant (fun _ _ _ stage => stage.step) start
  refine ⟨stage.clean, fun closed later t path => ?_⟩
  have kept : Stage t ∧ Settled s t := by
    refine path.invariant (I := fun t => Stage t ∧ Settled s t) ?_ ⟨stage, rfl, rfl, rfl⟩
    rintro t e u ⟨stage, lifecycle, finalized, funds⟩ step
    obtain ⟨lifecycle', finalized', funds'⟩ := stage.settled (lifecycle ▸ closed) step
    exact ⟨stage.step step, lifecycle'.trans lifecycle, finalized'.trans finalized,
      funds'.trans funds⟩
  exact kept.2

end

section
attribute [local instance] evmKeccak

theorem close_is_final_sample : ∃ events s e t, Run sampleConfig events s ∧
    s.lifecycle.channelStatus = .closed ∧ Step sampleConfig s e t ∧
    t.accounts.lateIncomingFundAmount 0 = 7 ∧ Settled s t := by
  have ran : runsFrom sampleConfig sampleSatellite
      [sampleRequest, sampleSubmit 2000 1, (sampleEnv 0x41 90000, sampleExternal 0,
        .finalizeCloseGuarded (computeCloseIntentDigest sampleConfig (sampleIntent 1)) 1)]
      (initial, 0) () (fun _ s x => decide (s.1.lifecycle.channelStatus = .closed) &&
        stepsTo sampleConfig sampleSatellite
          (sampleEnv 0x2000 90002, sampleExternal 0, .creditLateIncoming 0 7 0x42 9) s x (fun t _ =>
            t.1.accounts.lateIncomingFundAmount 0 == 7)) = true := by decide +kernel
  obtain ⟨events, s, x, run, more⟩ := runsFrom_path ran
  simp at more
  obtain ⟨t, -, step, late⟩ := stepsTo_step more.2
  have kept := (close_is_final (untimed run)).2 more.1 _ _ (.single step.1)
  exact ⟨events, s.1, _, t.1, untimed run, more.1, step.1, beq_iff_eq.mp late, kept⟩

end

end Intmax.Settlement
