import EdgeBridge.Commands
import EdgeBridge.Foundation.System
import EdgeBridge.Readiness.Debounce

/-!
# Two writers of the readiness value

The monitor confirms a change and then publishes it; a print-job request looks at the
confirmed state, at the connection, and then publishes `BR=1`.  Nothing keeps one
writer from stepping in between the steps of the other.
-/

namespace EdgeBridge

open Foundation

/-! ## The steps of a refresh -/

/-- Where `_refresh_ready_before_print_job_start` stands. -/
inductive RefreshStage where
  | entered
  /-- The snapshot showed `READY`. -/
  | ready
  /-- The MQTT client was connected. -/
  | connected
  | finished (result : Option PublishResult)

namespace RefreshStage

/-- The first read: the state that the snapshot shows. -/
def sample (command : PlcCommand) (state : ReadinessState) : RefreshStage :=
  if command.key ≠ str "messt01" then .finished none
  else if state.value ≠ str "READY" then .finished none
  else .ready

def test (connected : Bool) : RefreshStage → RefreshStage
  | .ready => if connected then .connected else .finished none
  | stage => stage

def publish (topic : Text) (answer : ClientPublish) : RefreshStage → RefreshStage
  | .connected => .finished (some (publishReadiness topic 1 answer))
  | stage => stage

/-- Between its first and its last step. -/
def underway : RefreshStage → Bool
  | .ready => true
  | .connected => true
  | _ => false

/-- The three steps are the function of the command API. -/
theorem refresh_eq (topic : Text) (command : PlcCommand) (state : ReadinessState)
    (connected : Bool) (answer : ClientPublish) :
    ((sample command state).test connected).publish topic answer =
      .finished (refreshReadyBeforePrintJobStart topic command state.value connected
        answer) := by
  unfold sample refreshReadyBeforePrintJobStart
  split
  · rfl
  · split
    · rfl
    · cases connected with
      | true => rfl
      | false => rfl

end RefreshStage

/-! ## The system -/

structure Refresh where
  command : PlcCommand
  stage : RefreshStage

structure BrState where
  runtime : ReadinessRuntimeState
  /-- The value of a confirmed change that is still to be published. -/
  pending : Option (Int × Datetime)
  refreshes : List Refresh
  /-- The last value that reached the PLC. -/
  lastBr : Option Int

/-- Every publish is accepted and delivered in the order of the publishes. -/
inductive BrLabel where
  | check (check : Check)
  | publishBr
  | enter (command : PlcCommand)
  | sample (index : Nat)
  | test (index : Nat) (connected : Bool)
  | publishReadiness (index : Nat) (mid : Option Int)

def BrState.advance (s : BrState) (index : Nat) (refresh : Refresh) (stage : RefreshStage) :
    BrState :=
  { s with refreshes := s.refreshes.set index { refresh with stage := stage } }

section

variable {Seconds : Type} [LE Seconds] [DecidableLE Seconds]

def BrState.step (monitor : ReadinessMonitor Seconds) (topic : Text) (s : BrState) :
    BrLabel → Option BrState
  | .check check =>
      if s.pending.isSome then none
      else
        let result := monitor.runCheck s.runtime check
        some { s with
          runtime := result.1
          pending := result.2.map fun brValue => (brValue, check.checkedAt) }
  | .publishBr =>
      s.pending.map fun pending =>
        { s with
          runtime := s.runtime.publishBr pending.2 (.returned true)
          pending := none
          lastBr := some pending.1 }
  | .enter command => some { s with refreshes := s.refreshes ++ [⟨command, .entered⟩] }
  | .sample index =>
      match s.refreshes[index]? with
      | some ⟨command, .entered⟩ =>
          some (s.advance index ⟨command, .entered⟩ (.sample command s.runtime.state))
      | _ => none
  | .test index connected =>
      match s.refreshes[index]? with
      | some ⟨command, .ready⟩ =>
          some (s.advance index ⟨command, .ready⟩ (RefreshStage.ready.test connected))
      | _ => none
  | .publishReadiness index mid =>
      match s.refreshes[index]? with
      | some ⟨command, .connected⟩ =>
          some { s.advance index ⟨command, .connected⟩
              (RefreshStage.connected.publish topic (.answered 0 mid)) with
            lastBr := some 1 }
      | _ => none

def brSystem (monitor : ReadinessMonitor Seconds) (topic : Text) :
    System BrState BrLabel Unit where
  init := ⟨.initial monitor.enabled, none, [], none⟩
  step := BrState.step monitor topic
  observe _ _ := []

end

/-- No transition of the monitor and no refresh is between its first and last step. -/
def BrState.Quiescent (s : BrState) : Prop :=
  s.pending = none ∧ ∀ refresh ∈ s.refreshes, refresh.stage.underway = false

/-- What the PLC was told last is what the monitor has confirmed. -/
def BrState.Agrees (s : BrState) : Prop :=
  ∀ brValue, s.lastBr = some brValue → (brValue = 1 ↔ s.runtime.state = .ready)

/-! ## Refreshes that are not stale -/

/-- A request publishes `BR=1` only while the confirmed state is `READY`, or before the
monitor has published the change away from it. -/
def RefreshInTime (_past : List Unit) (s : BrState) : BrLabel → Prop
  | .publishReadiness _ _ => s.runtime.state = .ready ∨ s.pending.isSome = true
  | _ => True

instance (past : List Unit) (s : BrState) : ∀ label, Decidable (RefreshInTime past s label)
  | .publishReadiness _ _ =>
      inferInstanceAs (Decidable (s.runtime.state = .ready ∨ s.pending.isSome = true))
  | .check _ | .publishBr | .enter _ | .sample _ | .test _ _ => isTrue True.intro

/-- What is published last, or about to be, is the confirmed state. -/
structure BrSound (s : BrState) : Prop where
  pending : ∀ brValue at_, s.pending = some (brValue, at_) →
    (brValue = 1 ↔ s.runtime.state = .ready)
  published : s.pending = none → s.Agrees

section

variable {Seconds : Type} [LE Seconds] [DecidableLE Seconds]
  {monitor : ReadinessMonitor Seconds} {topic : Text}

theorem brSound_init : BrSound (brSystem monitor topic).init where
  pending := nofun
  published := nofun

theorem BrSound.advance {s : BrState} (h : BrSound s) (index : Nat) (refresh : Refresh)
    (stage : RefreshStage) : BrSound (s.advance index refresh stage) :=
  ⟨h.pending, h.published⟩

theorem BrSound.check {s : BrState} (h : BrSound s) (check : Check)
    (hpending : s.pending = none) :
    BrSound { s with
      runtime := (monitor.runCheck s.runtime check).1
      pending := (monitor.runCheck s.runtime check).2.map
        fun brValue => (brValue, check.checkedAt) } := by
  rcases runCheck_published monitor s.runtime check with
    ⟨hnone, hstate⟩ | ⟨hready, -, hstate⟩ | ⟨hnotReady, -, hstate⟩
  · constructor
    · intro brValue at_ hsome
      simp [hnone] at hsome
    · intro _ brValue hbr
      simp only at hbr ⊢
      rw [hstate]
      exact h.published hpending brValue hbr
  · constructor
    · intro brValue at_ hsome
      simp only [hready, Option.map_some, Option.some.injEq, Prod.mk.injEq] at hsome
      simp only [hstate, ← hsome.1]
    · intro hnone
      simp [hready] at hnone
  · constructor
    · intro brValue at_ hsome
      simp only [hnotReady, Option.map_some, Option.some.injEq, Prod.mk.injEq] at hsome
      simp only [hstate, ← hsome.1]
      decide
    · intro hnone
      simp [hnotReady] at hnone

theorem BrSound.step {s t : BrState} (h : BrSound s) {label : BrLabel}
    (hinTime : RefreshInTime [] s label) (hstep : s.step monitor topic label = some t) :
    BrSound t := by
  cases label with
  | check check =>
      simp only [BrState.step] at hstep
      split at hstep
      · cases hstep
      · next hpending =>
        cases hstep
        exact h.check check (by simpa using hpending)
  | publishBr =>
      rcases Option.map_eq_some_iff.mp hstep with ⟨⟨brValue, at_⟩, hpending, rfl⟩
      constructor
      · nofun
      · intro _ published hpublished
        cases hpublished
        have hstate := h.pending brValue at_ hpending
        simp only [ReadinessRuntimeState.publishBr]
        exact hstate
  | enter command =>
      cases hstep
      exact ⟨h.pending, h.published⟩
  | sample index =>
      simp only [BrState.step] at hstep
      split at hstep
      · cases hstep
        exact h.advance _ _ _
      · cases hstep
  | test index connected =>
      simp only [BrState.step] at hstep
      split at hstep
      · cases hstep
        exact h.advance _ _ _
      · cases hstep
  | publishReadiness index mid =>
      simp only [BrState.step] at hstep
      split at hstep
      · cases hstep
        constructor
        · exact h.pending
        · intro hnone brValue hbr
          cases hbr
          rcases hinTime with hready | hpending
          · exact iff_of_true rfl hready
          · have hnone' : s.pending = none := hnone
            rw [hnone'] at hpending
            cases hpending
      · cases hstep

/--
As long as every request that publishes `BR=1` is in time, the PLC's last value is 1
exactly when the monitor's state is `READY`; a request that is late leaves the PLC with
a 1 that the monitor does not confirm and is not about to correct.
-/
theorem readiness_agrees {labels : List BrLabel} {s : BrState}
    (run : (brSystem monitor topic).exec (brSystem monitor topic).init labels = some s) :
    ((brSystem monitor topic).Along RefreshInTime [] (brSystem monitor topic).init labels →
      s.Quiescent → s.Agrees) ∧
    ∀ label t, ¬ RefreshInTime [] s label → s.step monitor topic label = some t →
      t.lastBr = some 1 ∧ t.runtime.state ≠ .ready ∧ t.pending = none := by
  constructor
  · intro along hquiescent
    have hsound := (brSystem monitor topic).run_invariant (I := fun _ m => BrSound m)
      brSound_init (fun _ m _ _ _ hm hinTime hstep => hm.step hinTime hstep) along run
    exact hsound.published hquiescent.1
  · intro label t hlate hstep
    cases label with
    | publishReadiness index mid =>
        simp only [RefreshInTime, not_or, Bool.not_eq_true, Option.isSome_eq_false_iff,
          Option.isNone_iff_eq_none] at hlate
        simp only [BrState.step] at hstep
        split at hstep
        · cases hstep
          exact ⟨rfl, hlate.1, hlate.2⟩
        · cases hstep
    | _ => exact absurd True.intro hlate

end

/-! ## A refresh that is late -/

def printCommand : PlcCommand := ⟨str "messt01", str "Z106-020C012P001"⟩

def sampleCheck (result : Bool) (second : Nat) (h : second < 1000 := by decide) : BrLabel :=
  .check ⟨.ofSecond second (by unfold maxSecond; omega), .returned result⟩

/-- Ready after ten seconds; a request sees it and finds the client connected. -/
def readySeen : List BrLabel :=
  [sampleCheck true 0, sampleCheck true 10, .publishBr, .enter printCommand, .sample 0,
    .test 0 true]

/-- The connection to Odoo is lost before the request publishes. -/
def lateRefresh : List BrLabel :=
  readySeen ++ [sampleCheck false 11, sampleCheck false 16, .publishBr,
    .publishReadiness 0 none]

def BrState.summary (s : BrState) : Option Int × ReadinessState × Bool × List Bool :=
  (s.lastBr, s.runtime.state, s.pending.isSome,
    s.refreshes.map fun refresh => refresh.stage.underway)

theorem quiescent_of_summary {s : BrState} {brValue : Option Int} {state : ReadinessState}
    (h : s.summary = (brValue, state, false, [false])) :
    s.lastBr = brValue ∧ s.runtime.state = state ∧ s.Quiescent := by
  simp only [BrState.summary, Prod.mk.injEq, Option.isSome_eq_false_iff,
    Option.isNone_iff_eq_none] at h
  rcases h with ⟨hlast, hstate, hpending, hrefreshes⟩
  refine ⟨hlast, hstate, hpending, ?_⟩
  intro refresh hrefresh
  have hmem := List.mem_map_of_mem (f := fun refresh : Refresh => refresh.stage.underway)
    hrefresh
  rw [hrefreshes] at hmem
  exact List.mem_singleton.mp hmem

theorem late_refresh_disagrees :
    ∃ s, (brSystem sampleMonitor []).exec (brSystem sampleMonitor []).init lateRefresh =
        some s ∧ s.Quiescent ∧ ¬ s.Agrees := by
  have hrun : ((brSystem sampleMonitor []).exec (brSystem sampleMonitor []).init
      lateRefresh).map BrState.summary = some (some 1, .notReady, false, [false]) := by
    decide +kernel
  rcases Option.map_eq_some_iff.mp hrun with ⟨s, hs, hsummary⟩
  rcases quiescent_of_summary hsummary with ⟨hlast, hstate, hquiescent⟩
  refine ⟨s, hs, hquiescent, ?_⟩
  intro hagrees
  have hready := (hagrees 1 hlast).mp rfl
  rw [hstate] at hready
  cases hready

/-- A request that publishes while the state it has seen is still confirmed. -/
theorem readiness_agrees_sample :
    ∃ s, (brSystem sampleMonitor []).exec (brSystem sampleMonitor []).init
        (readySeen ++ [.publishReadiness 0 none]) = some s ∧ s.lastBr = some 1 ∧
      s.Agrees := by
  have hrun : ((brSystem sampleMonitor []).exec (brSystem sampleMonitor []).init
      (readySeen ++ [.publishReadiness 0 none])).map BrState.summary =
        some (some 1, .ready, false, [false]) := by
    decide +kernel
  rcases Option.map_eq_some_iff.mp hrun with ⟨s, hs, hsummary⟩
  rcases quiescent_of_summary hsummary with ⟨hlast, -, hquiescent⟩
  exact ⟨s, hs, hlast, (readiness_agrees hs).1 (by decide +kernel) hquiescent⟩

end EdgeBridge
