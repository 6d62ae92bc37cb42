import EdgeBridge.Foundation.Datetime

/-!
# The readiness monitor

`ReadinessMonitor` of `readiness.py`: one check debounces its result with two timers
and confirms a change of the state, and the publish of a confirmed change follows.
-/

namespace EdgeBridge

open Foundation

inductive ReadinessState where
  | unknown
  | ready
  | notReady
  | disabled
  deriving DecidableEq

/-- The values of the enumeration, as `snapshot` shows them. -/
def ReadinessState.value : ReadinessState → Text
  | .unknown => str "UNKNOWN"
  | .ready => str "READY"
  | .notReady => str "NOT_READY"
  | .disabled => str "DISABLED"

structure ReadinessRuntimeState where
  state : ReadinessState
  lastCheckAt : Option Datetime
  lastSuccessAt : Option Datetime
  lastFailureAt : Option Datetime
  lastPublishedAt : Option Datetime
  lastError : Option Text
  disconnectStartedAt : Option Datetime
  recoveryStartedAt : Option Datetime
  deriving DecidableEq

/-- The settings; `totalSeconds` is `timedelta.total_seconds` of some microseconds, and
the numbers that it is compared with are left open. -/
structure ReadinessMonitor (Seconds : Type) where
  enabled : Bool
  disconnectDelaySeconds : Seconds
  recoveryDelaySeconds : Seconds
  totalSeconds : Int → Seconds

namespace ReadinessRuntimeState

def initial (enabled : Bool) : ReadinessRuntimeState where
  state := if enabled then .unknown else .disabled
  lastCheckAt := none
  lastSuccessAt := none
  lastFailureAt := none
  lastPublishedAt := none
  lastError := none
  disconnectStartedAt := none
  recoveryStartedAt := none

def recordCheck (s : ReadinessRuntimeState) (success : Bool) (checkedAt : Datetime)
    (error : Option Text) : ReadinessRuntimeState :=
  { s with
    lastCheckAt := some checkedAt
    lastError := error
    lastSuccessAt := if success then some checkedAt else s.lastSuccessAt
    lastFailureAt := if success then s.lastFailureAt else some checkedAt }

/-- `_confirm_state` up to the publish, with the `BR` value that is to be published. -/
def confirmState (s : ReadinessRuntimeState) (newState : ReadinessState) (brValue : Int) :
    ReadinessRuntimeState × Option Int :=
  if s.state = newState then (s, none)
  else
    ({ s with
      state := newState
      disconnectStartedAt := none
      recoveryStartedAt := none }, some brValue)

end ReadinessRuntimeState

/-! ## One check -/

/-- What `readiness_check` did: it returned something true or false, or raised. -/
inductive CheckOutcome where
  | returned (result : Bool)
  | raised (text : Text)

/-- `_run_readiness_check`. -/
def CheckOutcome.result : CheckOutcome → Bool × Option Text
  | .returned result => (result, none)
  | .raised text => (false, some text)

/-- A call of `run_check_once`. -/
structure Check where
  checkedAt : Datetime
  outcome : CheckOutcome

def Check.success (check : Check) : Bool := check.outcome.result.1

/-- What the publisher did: an exception, or a result with its `success`. -/
inductive PublisherAnswer where
  | raised (text : Text)
  | returned (success : Bool)

namespace ReadinessMonitor

variable {Seconds : Type} [LE Seconds] [DecidableLE Seconds] (monitor : ReadinessMonitor Seconds)

/-- `(now - started_at).total_seconds()`. -/
def elapsed (started now : Datetime) : Seconds :=
  monitor.totalSeconds ((now.micro : Int) - started.micro)

def handleSuccess (s : ReadinessRuntimeState) (now : Datetime) :
    ReadinessRuntimeState × Option Int :=
  if s.state = .ready then
    ({ s with disconnectStartedAt := none, recoveryStartedAt := none }, none)
  else
    let cleared := { s with disconnectStartedAt := none }
    match cleared.recoveryStartedAt with
    | none => ({ cleared with recoveryStartedAt := some now }, none)
    | some recoveryStartedAt =>
        if monitor.recoveryDelaySeconds ≤ monitor.elapsed recoveryStartedAt now then
          cleared.confirmState .ready 1
        else (cleared, none)

def handleFailure (s : ReadinessRuntimeState) (now : Datetime) :
    ReadinessRuntimeState × Option Int :=
  let cleared := { s with recoveryStartedAt := none }
  if s.state = .unknown then cleared.confirmState .notReady 0
  else if s.state = .notReady then ({ cleared with disconnectStartedAt := none }, none)
  else
    match cleared.disconnectStartedAt with
    | none => ({ cleared with disconnectStartedAt := some now }, none)
    | some disconnectStartedAt =>
        if monitor.disconnectDelaySeconds ≤ monitor.elapsed disconnectStartedAt now then
          cleared.confirmState .notReady 0
        else (cleared, none)

/-- `run_check_once` up to the publish of a confirmed change. -/
def runCheck (s : ReadinessRuntimeState) (check : Check) :
    ReadinessRuntimeState × Option Int :=
  if monitor.enabled then
    let recorded := s.recordCheck check.success check.checkedAt check.outcome.result.2
    if check.success then monitor.handleSuccess recorded check.checkedAt
    else monitor.handleFailure recorded check.checkedAt
  else (s, none)

end ReadinessMonitor

/-- `_publish_br` after the publisher was called. -/
def ReadinessRuntimeState.publishBr (s : ReadinessRuntimeState) (now : Datetime) :
    PublisherAnswer → ReadinessRuntimeState
  | .returned true => { s with lastPublishedAt := some now }
  | _ => s

/-- `run_check_once`, with the value that it published if it did. -/
def ReadinessMonitor.runCheckOnce {Seconds : Type} [LE Seconds] [DecidableLE Seconds]
    (monitor : ReadinessMonitor Seconds) (s : ReadinessRuntimeState) (check : Check)
    (answer : PublisherAnswer) : ReadinessRuntimeState × Option Int :=
  match monitor.runCheck s check with
  | (t, none) => (t, none)
  | (t, some brValue) => (t.publishBr check.checkedAt answer, some brValue)

/-! ## What a check does to the state -/

/-- The fields that debouncing reads. -/
structure ReadinessRuntimeState.Stands (s : ReadinessRuntimeState) (state : ReadinessState)
    (disconnectStartedAt recoveryStartedAt : Option Datetime) : Prop where
  state : s.state = state
  disconnect : s.disconnectStartedAt = disconnectStartedAt
  recovery : s.recoveryStartedAt = recoveryStartedAt

theorem ReadinessRuntimeState.Stands.publishBr {s : ReadinessRuntimeState}
    {state : ReadinessState} {disconnectStartedAt recoveryStartedAt : Option Datetime}
    (h : s.Stands state disconnectStartedAt recoveryStartedAt) (now : Datetime)
    (answer : PublisherAnswer) :
    (s.publishBr now answer).Stands state disconnectStartedAt recoveryStartedAt := by
  unfold ReadinessRuntimeState.publishBr
  split
  · exact ⟨h.state, h.disconnect, h.recovery⟩
  · exact h

theorem ReadinessRuntimeState.confirmState_of_ne {s : ReadinessRuntimeState}
    {newState : ReadinessState} (h : s.state ≠ newState) (brValue : Int) :
    (s.confirmState newState brValue).1.Stands newState none none ∧
      (s.confirmState newState brValue).2 = some brValue := by
  unfold ReadinessRuntimeState.confirmState
  rw [if_neg h]
  exact ⟨⟨rfl, rfl, rfl⟩, rfl⟩

section

variable {Seconds : Type} [LE Seconds]

/-- Everything that a check of an enabled monitor can do: the result of the check, the
state after it and the value that is to be published. -/
inductive CheckMove (monitor : ReadinessMonitor Seconds) (s : ReadinessRuntimeState)
    (now : Datetime) : Bool → ReadinessRuntimeState → Option Int → Prop
  | stillReady (t : ReadinessRuntimeState) :
      s.state = .ready → t.Stands .ready none none → CheckMove monitor s now true t none
  | recoveryStarted (t : ReadinessRuntimeState) :
      s.state ≠ .ready → s.recoveryStartedAt = none → t.Stands s.state none (some now) →
      CheckMove monitor s now true t none
  | recovering (t : ReadinessRuntimeState) (started : Datetime) :
      s.state ≠ .ready → s.recoveryStartedAt = some started →
      ¬ monitor.recoveryDelaySeconds ≤ monitor.elapsed started now →
      t.Stands s.state none (some started) → CheckMove monitor s now true t none
  | recovered (t : ReadinessRuntimeState) (started : Datetime) :
      s.state ≠ .ready → s.recoveryStartedAt = some started →
      monitor.recoveryDelaySeconds ≤ monitor.elapsed started now →
      t.Stands .ready none none → CheckMove monitor s now true t (some 1)
  | startedDown (t : ReadinessRuntimeState) :
      s.state = .unknown → t.Stands .notReady none none →
      CheckMove monitor s now false t (some 0)
  | stillDown (t : ReadinessRuntimeState) :
      s.state = .notReady → t.Stands .notReady none none →
      CheckMove monitor s now false t none
  | disconnectStarted (t : ReadinessRuntimeState) :
      s.state ≠ .unknown → s.state ≠ .notReady → s.disconnectStartedAt = none →
      t.Stands s.state (some now) none → CheckMove monitor s now false t none
  | disconnecting (t : ReadinessRuntimeState) (started : Datetime) :
      s.state ≠ .unknown → s.state ≠ .notReady → s.disconnectStartedAt = some started →
      ¬ monitor.disconnectDelaySeconds ≤ monitor.elapsed started now →
      t.Stands s.state (some started) none → CheckMove monitor s now false t none
  | disconnected (t : ReadinessRuntimeState) (started : Datetime) :
      s.state ≠ .unknown → s.state ≠ .notReady → s.disconnectStartedAt = some started →
      monitor.disconnectDelaySeconds ≤ monitor.elapsed started now →
      t.Stands .notReady none none → CheckMove monitor s now false t (some 0)

variable {monitor : ReadinessMonitor Seconds} {s : ReadinessRuntimeState}

theorem CheckMove.of_recorded {now : Datetime} {success : Bool} {checkedAt : Datetime}
    {error : Option Text} {result : Bool} {t : ReadinessRuntimeState} {br : Option Int}
    (h : CheckMove monitor (s.recordCheck success checkedAt error) now result t br) :
    CheckMove monitor s now result t br := by
  cases h with
  | stillReady _ hstate hnext => exact .stillReady t hstate hnext
  | recoveryStarted _ hstate htimer hnext => exact .recoveryStarted t hstate htimer hnext
  | recovering _ started hstate htimer helapsed hnext =>
      exact .recovering t started hstate htimer helapsed hnext
  | recovered _ started hstate htimer helapsed hnext =>
      exact .recovered t started hstate htimer helapsed hnext
  | startedDown _ hstate hnext => exact .startedDown t hstate hnext
  | stillDown _ hstate hnext => exact .stillDown t hstate hnext
  | disconnectStarted _ hunknown hdown htimer hnext =>
      exact .disconnectStarted t hunknown hdown htimer hnext
  | disconnecting _ started hunknown hdown htimer helapsed hnext =>
      exact .disconnecting t started hunknown hdown htimer helapsed hnext
  | disconnected _ started hunknown hdown htimer helapsed hnext =>
      exact .disconnected t started hunknown hdown htimer helapsed hnext

theorem CheckMove.published {now : Datetime} {result : Bool} {t : ReadinessRuntimeState}
    {br : Option Int} (h : CheckMove monitor s now result t br) :
    (br = none ∧ t.state = s.state) ∨
      (br = some 1 ∧ s.state ≠ .ready ∧ t.state = .ready) ∨
      (br = some 0 ∧ s.state ≠ .notReady ∧ t.state = .notReady) := by
  cases h with
  | stillReady _ hstate hnext => exact .inl ⟨rfl, hnext.state.trans hstate.symm⟩
  | recoveryStarted _ _ _ hnext => exact .inl ⟨rfl, hnext.state⟩
  | recovering _ _ _ _ _ hnext => exact .inl ⟨rfl, hnext.state⟩
  | recovered _ _ hstate _ _ hnext => exact .inr (.inl ⟨rfl, hstate, hnext.state⟩)
  | startedDown _ hstate hnext =>
      exact .inr (.inr ⟨rfl, by rw [hstate]; decide, hnext.state⟩)
  | stillDown _ hstate hnext => exact .inl ⟨rfl, hnext.state.trans hstate.symm⟩
  | disconnectStarted _ _ _ _ hnext => exact .inl ⟨rfl, hnext.state⟩
  | disconnecting _ _ _ _ _ _ hnext => exact .inl ⟨rfl, hnext.state⟩
  | disconnected _ _ _ hdown _ _ hnext => exact .inr (.inr ⟨rfl, hdown, hnext.state⟩)

/-- A check publishes exactly the change that it makes. -/
theorem CheckMove.changes {t : ReadinessRuntimeState} {now : Datetime} {result : Bool}
    {br : Option Int} (h : CheckMove monitor s now result t br) :
    (br = some 1 ↔ s.state ≠ .ready ∧ t.state = .ready) ∧
      (br = some 0 ↔ s.state ≠ .notReady ∧ t.state = .notReady) ∧
      (t.state ≠ s.state → t.state = .ready ∨ t.state = .notReady) ∧
      br.toList = if s.state ≠ .ready ∧ t.state = .ready then [1]
        else if s.state ≠ .notReady ∧ t.state = .notReady then [0] else [] := by
  rcases h.published with ⟨rfl, hstate⟩ | ⟨rfl, hbefore, hafter⟩ | ⟨rfl, hbefore, hafter⟩
  · rw [hstate]
    simp
  · simp [hbefore, hafter]
  · simp [hbefore, hafter]

/-- The publish that follows a check changes nothing that debouncing reads. -/
theorem CheckMove.publishBr {now : Datetime} {result : Bool} {t : ReadinessRuntimeState}
    {br : Option Int} (h : CheckMove monitor s now result t br) (publishedAt : Datetime)
    (answer : PublisherAnswer) :
    CheckMove monitor s now result (t.publishBr publishedAt answer) br := by
  cases h with
  | stillReady _ hstate hnext => exact .stillReady _ hstate (hnext.publishBr _ _)
  | recoveryStarted _ hstate htimer hnext =>
      exact .recoveryStarted _ hstate htimer (hnext.publishBr _ _)
  | recovering _ started hstate htimer helapsed hnext =>
      exact .recovering _ started hstate htimer helapsed (hnext.publishBr _ _)
  | recovered _ started hstate htimer helapsed hnext =>
      exact .recovered _ started hstate htimer helapsed (hnext.publishBr _ _)
  | startedDown _ hstate hnext => exact .startedDown _ hstate (hnext.publishBr _ _)
  | stillDown _ hstate hnext => exact .stillDown _ hstate (hnext.publishBr _ _)
  | disconnectStarted _ hunknown hdown htimer hnext =>
      exact .disconnectStarted _ hunknown hdown htimer (hnext.publishBr _ _)
  | disconnecting _ started hunknown hdown htimer helapsed hnext =>
      exact .disconnecting _ started hunknown hdown htimer helapsed (hnext.publishBr _ _)
  | disconnected _ started hunknown hdown htimer helapsed hnext =>
      exact .disconnected _ started hunknown hdown htimer helapsed (hnext.publishBr _ _)

variable [DecidableLE Seconds]

theorem handleSuccess_move (now : Datetime) :
    CheckMove monitor s now true (monitor.handleSuccess s now).1
      (monitor.handleSuccess s now).2 := by
  unfold ReadinessMonitor.handleSuccess
  split
  · next hready => exact .stillReady _ hready ⟨hready, rfl, rfl⟩
  · next hother =>
    simp only
    split
    · next hnone => exact .recoveryStarted _ hother hnone ⟨rfl, rfl, rfl⟩
    · next started hstarted =>
      split
      · next helapsed =>
        have hconfirmed := ReadinessRuntimeState.confirmState_of_ne
          (s := { s with disconnectStartedAt := none }) hother 1
        rw [hconfirmed.2]
        exact .recovered _ started hother hstarted helapsed hconfirmed.1
      · next helapsed =>
        exact .recovering _ started hother hstarted helapsed ⟨rfl, rfl, hstarted⟩

theorem handleFailure_move (now : Datetime) :
    CheckMove monitor s now false (monitor.handleFailure s now).1
      (monitor.handleFailure s now).2 := by
  have hconfirmed : s.state ≠ .notReady → _ :=
    fun hother => ReadinessRuntimeState.confirmState_of_ne
      (s := { s with recoveryStartedAt := none }) hother 0
  unfold ReadinessMonitor.handleFailure
  simp only
  split
  · next hunknown =>
    have hchanged := hconfirmed (by rw [hunknown]; decide)
    rw [hchanged.2]
    exact .startedDown _ hunknown hchanged.1
  · next hunknown =>
    split
    · next hdown => exact .stillDown _ hdown ⟨hdown, rfl, rfl⟩
    · next hdown =>
      split
      · next hnone => exact .disconnectStarted _ hunknown hdown hnone ⟨rfl, rfl, rfl⟩
      · next started hstarted =>
        split
        · next helapsed =>
          have hchanged := hconfirmed hdown
          rw [hchanged.2]
          exact .disconnected _ started hunknown hdown hstarted helapsed hchanged.1
        · next helapsed =>
          exact .disconnecting _ started hunknown hdown hstarted helapsed
            ⟨rfl, hstarted, rfl⟩

theorem runCheck_move (henabled : monitor.enabled = true) (check : Check) :
    CheckMove monitor s check.checkedAt check.success (monitor.runCheck s check).1
      (monitor.runCheck s check).2 := by
  unfold ReadinessMonitor.runCheck
  rw [if_pos henabled]
  simp only
  cases hsuccess : check.success with
  | true =>
      rw [if_pos rfl]
      exact (handleSuccess_move check.checkedAt).of_recorded
  | false =>
      rw [if_neg Bool.false_ne_true]
      exact (handleFailure_move check.checkedAt).of_recorded

/-- A check asks for a publish exactly when it changes the state; a disabled monitor
does neither. -/
theorem runCheck_published (monitor : ReadinessMonitor Seconds) (s : ReadinessRuntimeState)
    (check : Check) :
    ((monitor.runCheck s check).2 = none ∧ (monitor.runCheck s check).1.state = s.state) ∨
      ((monitor.runCheck s check).2 = some 1 ∧ s.state ≠ .ready ∧
        (monitor.runCheck s check).1.state = .ready) ∨
      ((monitor.runCheck s check).2 = some 0 ∧ s.state ≠ .notReady ∧
        (monitor.runCheck s check).1.state = .notReady) := by
  cases henabled : monitor.enabled with
  | true => exact (runCheck_move henabled check).published
  | false =>
      unfold ReadinessMonitor.runCheck
      rw [henabled]
      exact .inl ⟨rfl, rfl⟩

end

end EdgeBridge
