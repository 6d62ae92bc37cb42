import EdgeBridge.Foundation.Streak
import EdgeBridge.Readiness.Monitor
import Mathlib.Data.List.Chain

/-!
# Debouncing

The timers of the monitor begin with the current run of equal results, so that its
changes of state are the ones that the history of checks calls for.
-/

namespace EdgeBridge

open Foundation

section

variable {Seconds : Type} [LE Seconds] (monitor : ReadinessMonitor Seconds)
  (checks : Nat → Check)

def results (i : Nat) : Bool := (checks i).success

/-! ## The history that calls for a change -/

/-- The maximal run of equal results around check `i` has lasted for `delay`. -/
def LastsFor (delay : Seconds) (i : Nat) : Prop :=
  ∃ first, BeginsRun (results checks) first i ∧ first < i ∧
    delay ≤ monitor.elapsed (checks first).checkedAt (checks i).checkedAt

def EntersReady (state : ReadinessState) (i : Nat) : Prop :=
  state ≠ .ready ∧ results checks i = true ∧
    LastsFor monitor checks monitor.recoveryDelaySeconds i

def EntersNotReady (state : ReadinessState) (i : Nat) : Prop :=
  results checks i = false ∧
    (state = .unknown ∨
      state = .ready ∧ LastsFor monitor checks monitor.disconnectDelaySeconds i)

/-! ## The timers -/

def runStartedAt (i : Nat) : Datetime := (checks (runStart (results checks) i)).checkedAt

/-- The begin of the run of equal results before check `n`, if they are `result`. -/
def since (result : Bool) : Nat → Option Datetime
  | 0 => none
  | n + 1 => if results checks n = result then some (runStartedAt checks n) else none

variable {checks}

theorem since_succ {result : Bool} {n : Nat} (h : results checks n = result) :
    since checks result (n + 1) = some (runStartedAt checks n) := if_pos h

theorem since_succ_of_ne {result : Bool} {n : Nat} (h : results checks n ≠ result) :
    since checks result (n + 1) = none := if_neg h

/-- A timer that runs at a check with its result began with the run of that check. -/
theorem since_eq {result : Bool} {n : Nat} (h : results checks n = result) :
    since checks result n = if runStart (results checks) n < n then
      some (runStartedAt checks n) else none := by
  cases n with
  | zero => rfl
  | succ n =>
      by_cases hsame : results checks (n + 1) = results checks n
      · rw [if_pos (runStart_succ_lt_iff.mpr hsame), since_succ (hsame.symm.trans h)]
        simp only [runStartedAt, runStart_succ_of_eq hsame]
      · rw [if_neg (runStart_succ_lt_iff.not.mpr hsame)]
        apply since_succ_of_ne
        intro hbefore
        exact hsame (h.trans hbefore.symm)

theorem runStart_eq_of_since {result : Bool} {n : Nat} (h : results checks n = result)
    (hnone : since checks result n = none) : runStart (results checks) n = n := by
  have hle := runStart_le (results checks) n
  rw [since_eq h] at hnone
  split at hnone
  · cases hnone
  · omega

theorem since_eq_some {result : Bool} {n : Nat} {started : Datetime}
    (h : results checks n = result) (hsome : since checks result n = some started) :
    runStart (results checks) n < n ∧ started = runStartedAt checks n := by
  rw [since_eq h] at hsome
  split at hsome
  · next hlt =>
    rw [Option.some.injEq] at hsome
    exact ⟨hlt, hsome.symm⟩
  · cases hsome

end

/-- The state before check `n`: the timer of the opposite result runs. -/
structure Debounced (checks : Nat → Check) (n : Nat) (s : ReadinessRuntimeState) : Prop where
  enabled : s.state ≠ .disabled
  disconnect : s.disconnectStartedAt = if s.state = .ready then since checks false n else none
  recovery : s.recoveryStartedAt = if s.state = .ready then none else since checks true n

theorem debounced_initial (checks : Nat → Check) :
    Debounced checks 0 (.initial true) := by
  constructor
  · decide
  · rfl
  · rfl

section

variable {Seconds : Type} [LE Seconds] {monitor : ReadinessMonitor Seconds}
  {checks : Nat → Check} {n : Nat} {s t : ReadinessRuntimeState} {br : Option Int}

theorem Debounced.of_stands {state : ReadinessState} {disconnect recovery : Option Datetime}
    (h : t.Stands state disconnect recovery) (henabled : state ≠ .disabled)
    (hdisconnect : disconnect = if state = .ready then since checks false n else none)
    (hrecovery : recovery = if state = .ready then none else since checks true n) :
    Debounced checks n t := by
  constructor
  · rw [h.state]
    exact henabled
  · rw [h.disconnect, h.state, hdisconnect]
  · rw [h.recovery, h.state, hrecovery]

theorem ReadinessState.ready_of_ne {state : ReadinessState} (hdisabled : state ≠ .disabled)
    (hunknown : state ≠ .unknown) (hnotReady : state ≠ .notReady) : state = .ready := by
  cases state with
  | unknown => exact absurd rfl hunknown
  | ready => rfl
  | notReady => exact absurd rfl hnotReady
  | disabled => exact absurd rfl hdisabled

theorem Debounced.step (h : Debounced checks n s)
    (hmove : CheckMove monitor s (checks n).checkedAt (results checks n) t br) :
    Debounced checks (n + 1) t := by
  generalize hresult : results checks n = result at hmove
  have hother : ∀ {other : Bool}, result ≠ other → since checks other (n + 1) = none := by
    intro other hne
    apply since_succ_of_ne
    rw [hresult]
    exact hne
  have hsince := since_succ hresult
  cases hmove with
  | stillReady _ hstate hnext =>
      apply Debounced.of_stands hnext (by decide)
      · rw [if_pos rfl, hother (by decide)]
      · rw [if_pos rfl]
  | recoveryStarted _ hstate htimer hnext =>
      rw [h.recovery, if_neg hstate] at htimer
      apply Debounced.of_stands hnext h.enabled
      · rw [if_neg hstate]
      · rw [if_neg hstate, hsince, runStartedAt, runStart_eq_of_since hresult htimer]
  | recovering _ started hstate htimer helapsed hnext =>
      rw [h.recovery, if_neg hstate] at htimer
      apply Debounced.of_stands hnext h.enabled
      · rw [if_neg hstate]
      · rw [if_neg hstate, hsince, (since_eq_some hresult htimer).2]
  | recovered _ started hstate htimer helapsed hnext =>
      apply Debounced.of_stands hnext (by decide)
      · rw [if_pos rfl, hother (by decide)]
      · rw [if_pos rfl]
  | startedDown _ hstate hnext =>
      apply Debounced.of_stands hnext (by decide)
      · rw [if_neg (by decide)]
      · rw [if_neg (by decide), hother (by decide)]
  | stillDown _ hstate hnext =>
      apply Debounced.of_stands hnext (by decide)
      · rw [if_neg (by decide)]
      · rw [if_neg (by decide), hother (by decide)]
  | disconnectStarted _ hunknown hdown htimer hnext =>
      have hready := ReadinessState.ready_of_ne h.enabled hunknown hdown
      rw [h.disconnect, if_pos hready] at htimer
      apply Debounced.of_stands hnext h.enabled
      · rw [if_pos hready, hsince, runStartedAt, runStart_eq_of_since hresult htimer]
      · rw [if_pos hready]
  | disconnecting _ started hunknown hdown htimer helapsed hnext =>
      have hready := ReadinessState.ready_of_ne h.enabled hunknown hdown
      rw [h.disconnect, if_pos hready] at htimer
      apply Debounced.of_stands hnext h.enabled
      · rw [if_pos hready, hsince, (since_eq_some hresult htimer).2]
      · rw [if_pos hready]
  | disconnected _ started hunknown hdown htimer helapsed hnext =>
      apply Debounced.of_stands hnext (by decide)
      · rw [if_neg (by decide)]
      · rw [if_neg (by decide), hother (by decide)]

theorem lastsFor_iff {result : Bool} {started : Datetime}
    (hresult : results checks n = result) (hstarted : since checks result n = some started)
    (delay : Seconds) :
    LastsFor monitor checks delay n ↔
      delay ≤ monitor.elapsed started (checks n).checkedAt := by
  rcases since_eq_some hresult hstarted with ⟨hlt, rfl⟩
  constructor
  · rintro ⟨first, hfirst, -, hdelay⟩
    rw [beginsRun_iff.mp hfirst] at hdelay
    exact hdelay
  · intro hdelay
    exact ⟨_, runStart_begins _ n, hlt, hdelay⟩

theorem not_lastsFor {result : Bool} (hresult : results checks n = result)
    (hnone : since checks result n = none) (delay : Seconds) :
    ¬ LastsFor monitor checks delay n := by
  rintro ⟨first, hfirst, hlt, -⟩
  rw [beginsRun_iff.mp hfirst, runStart_eq_of_since hresult hnone] at hlt
  exact Nat.lt_irrefl n hlt

/-- The value that a check publishes is the change that the history calls for. -/
theorem Debounced.published (h : Debounced checks n s)
    (hmove : CheckMove monitor s (checks n).checkedAt (results checks n) t br) :
    (br = some 1 ↔ EntersReady monitor checks s.state n) ∧
      (br = some 0 ↔ EntersNotReady monitor checks s.state n) := by
  unfold EntersReady EntersNotReady
  generalize hresult : results checks n = result at hmove
  cases hmove with
  | stillReady _ hstate hnext => simp [hstate]
  | recoveryStarted _ hstate htimer hnext =>
      rw [h.recovery, if_neg hstate] at htimer
      simp [not_lastsFor hresult htimer]
  | recovering _ started hstate htimer helapsed hnext =>
      rw [h.recovery, if_neg hstate] at htimer
      simp [lastsFor_iff hresult htimer, helapsed]
  | recovered _ started hstate htimer helapsed hnext =>
      rw [h.recovery, if_neg hstate] at htimer
      simp [lastsFor_iff hresult htimer, helapsed, hstate]
  | startedDown _ hstate hnext => simp [hstate]
  | stillDown _ hstate hnext => simp [hstate]
  | disconnectStarted _ hunknown hdown htimer hnext =>
      have hready := ReadinessState.ready_of_ne h.enabled hunknown hdown
      rw [h.disconnect, if_pos hready] at htimer
      simp [not_lastsFor hresult htimer, hunknown]
  | disconnecting _ started hunknown hdown htimer helapsed hnext =>
      have hready := ReadinessState.ready_of_ne h.enabled hunknown hdown
      rw [h.disconnect, if_pos hready] at htimer
      simp [lastsFor_iff hresult htimer, helapsed, hunknown]
  | disconnected _ started hunknown hdown htimer helapsed hnext =>
      have hready := ReadinessState.ready_of_ne h.enabled hunknown hdown
      rw [h.disconnect, if_pos hready] at htimer
      simp [lastsFor_iff hresult htimer, helapsed, hready]

end

/-! ## Sequences of checks -/

section

variable {Seconds : Type} [LE Seconds] [DecidableLE Seconds]
  (monitor : ReadinessMonitor Seconds) (checks : Nat → Check)
  (answers : Nat → PublisherAnswer)

/-- The state before check `n`, and the values published so far; `answers i` is what the
publisher does if check `i` calls it. -/
def monitored : Nat → ReadinessRuntimeState × List Int
  | 0 => (.initial monitor.enabled, [])
  | n + 1 =>
      let before := monitored n
      let after := monitor.runCheckOnce before.1 (checks n) (answers n)
      (after.1, before.2 ++ after.2.toList)

def stateBefore (n : Nat) : ReadinessState := (monitored monitor checks answers n).1.state

def publishedBefore (n : Nat) : List Int := (monitored monitor checks answers n).2

variable {monitor checks answers}

/-- The publish that follows a check leaves its debouncing as it is. -/
theorem runCheckOnce_move (henabled : monitor.enabled = true) (s : ReadinessRuntimeState)
    (check : Check) (answer : PublisherAnswer) :
    CheckMove monitor s check.checkedAt check.success
      (monitor.runCheckOnce s check answer).1 (monitor.runCheckOnce s check answer).2 := by
  have hmove := runCheck_move henabled (s := s) check
  unfold ReadinessMonitor.runCheckOnce
  generalize monitor.runCheck s check = result at hmove ⊢
  rcases result with ⟨t, br⟩
  cases br with
  | none => exact hmove
  | some brValue => exact hmove.publishBr _ answer

theorem monitored_debounced (henabled : monitor.enabled = true) (n : Nat) :
    Debounced checks n (monitored monitor checks answers n).1 := by
  induction n with
  | zero =>
      simp only [monitored, henabled]
      exact debounced_initial checks
  | succ n ih => exact ih.step (runCheckOnce_move henabled _ _ _)

/-- The last value that was published is the confirmed state. -/
theorem published_alternates (henabled : monitor.enabled = true) (n : Nat) :
    (publishedBefore monitor checks answers n).IsChain (· ≠ ·) ∧
      ∀ value ∈ (publishedBefore monitor checks answers n).getLast?,
        (value = 1 ∧ stateBefore monitor checks answers n = .ready) ∨
          (value = 0 ∧ stateBefore monitor checks answers n = .notReady) := by
  induction n with
  | zero =>
      refine ⟨List.isChain_nil, ?_⟩
      intro value hvalue
      cases hvalue
  | succ n ih =>
      rcases ih with ⟨hchain, hlast⟩
      have hmove := runCheckOnce_move henabled (monitored monitor checks answers n).1
        (checks n) (answers n)
      unfold publishedBefore stateBefore at *
      simp only [monitored]
      generalize monitor.runCheckOnce (monitored monitor checks answers n).1 (checks n)
        (answers n) = result at hmove ⊢
      rcases result with ⟨t, br⟩
      rcases hmove.published with ⟨rfl, hstate⟩ | ⟨rfl, hbefore, hafter⟩ |
        ⟨rfl, hbefore, hafter⟩
      · simp only at hstate
        rw [hstate, Option.toList_none, List.append_nil]
        exact ⟨hchain, hlast⟩
      · refine ⟨List.isChain_append.mpr ⟨hchain, List.isChain_singleton _, ?_⟩, ?_⟩
        · intro value hvalue next hnext
          rcases hlast value hvalue with ⟨-, hready⟩ | ⟨rfl, -⟩
          · exact absurd hready hbefore
          · cases hnext
            decide
        · intro value hvalue
          rw [Option.toList_some, List.getLast?_concat] at hvalue
          cases hvalue
          exact .inl ⟨rfl, hafter⟩
      · refine ⟨List.isChain_append.mpr ⟨hchain, List.isChain_singleton _, ?_⟩, ?_⟩
        · intro value hvalue next hnext
          rcases hlast value hvalue with ⟨rfl, -⟩ | ⟨-, hnotReady⟩
          · cases hnext
            decide
          · exact absurd hnotReady hbefore
        · intro value hvalue
          rw [Option.toList_some, List.getLast?_concat] at hvalue
          cases hvalue
          exact .inr ⟨rfl, hafter⟩

/--
The monitor changes its state, and publishes, at the checks that the history calls for
and at no others, so that the published values alternate.
-/
theorem readiness_debounced (henabled : monitor.enabled = true) :
    (∀ i, let before := stateBefore monitor checks answers i
      let after := stateBefore monitor checks answers (i + 1)
      (before ≠ .ready ∧ after = .ready ↔ EntersReady monitor checks before i) ∧
      (before ≠ .notReady ∧ after = .notReady ↔ EntersNotReady monitor checks before i) ∧
      (after ≠ before → after = .ready ∨ after = .notReady) ∧
      publishedBefore monitor checks answers (i + 1) =
        publishedBefore monitor checks answers i ++
          if before ≠ .ready ∧ after = .ready then [1]
          else if before ≠ .notReady ∧ after = .notReady then [0]
          else []) ∧
    ∀ n, (publishedBefore monitor checks answers n).IsChain (· ≠ ·) := by
  constructor
  · intro i
    have hmove := runCheckOnce_move henabled (monitored monitor checks answers i).1
      (checks i) (answers i)
    have hchanges := hmove.changes
    have hdebounced : Debounced checks i (monitored monitor checks answers i).1 :=
      monitored_debounced henabled i
    have hcalled := hdebounced.published hmove
    refine ⟨hchanges.1.symm.trans hcalled.1, hchanges.2.1.symm.trans hcalled.2,
      hchanges.2.2.1, ?_⟩
    exact congrArg _ hchanges.2.2.2
  · intro n
    exact (published_alternates henabled n).1

end

/-! ## A recovery after ten seconds -/

/-- Times and delays in microseconds. -/
def sampleMonitor : ReadinessMonitor Int where
  enabled := true
  disconnectDelaySeconds := 5000000
  recoveryDelaySeconds := 10000000
  totalSeconds := id

/-- Successes at 0 and at 10 seconds. -/
def sampleChecks (i : Nat) : Check where
  checkedAt := .ofSecond (if i = 0 then 0 else 10) (by split <;> decide)
  outcome := .returned true

theorem readiness_debounced_sample :
    EntersReady sampleMonitor sampleChecks
        (stateBefore sampleMonitor sampleChecks (fun _ => .returned false) 1) 1 ∧
      (publishedBefore sampleMonitor sampleChecks (fun _ => .returned false) 2).IsChain
        (· ≠ ·) := by
  have henabled : sampleMonitor.enabled = true := rfl
  have hdebounced := @readiness_debounced Int _ _ sampleMonitor sampleChecks
    (fun _ => .returned false) henabled
  refine ⟨(hdebounced.1 1).1.mp ?_, hdebounced.2 2⟩
  decide

end EdgeBridge
