import EdgeBridge.Foundation.System

/-!
# Shutdown of the worker

`OdooQueueWorker.stop` against the steps of the worker thread around one submission:
the test of the stop event, the registration of the child, its start, the join and the
clearing.  `terminate` and `kill` end a child that runs; `join` of the thread returns
when the thread has ended or after its timeout.
-/

namespace EdgeBridge.Shutdown

open Foundation

inductive ProcessStatus where
  | created
  | running
  | ended
  deriving DecidableEq

/-- Where the worker thread stands; `remaining` records of its batch are left. -/
inductive WorkerPoint where
  | loopTest
  | claiming
  | batch (remaining : Nat)
  /-- After the stop test, before the child is registered. -/
  | creating (remaining : Nat)
  | registered (process remaining : Nat)
  | joining (process remaining : Nat)
  | killing (process remaining : Nat)
  | clearing (process remaining : Nat)
  | settling (remaining : Nat)
  | waiting
  | exited
  deriving DecidableEq

/-- Where the thread that calls `stop` stands. -/
inductive StopperPoint where
  | idle
  | flagged
  | inspected (process : Option Nat)
  | terminating (process : Nat)
  | clearing (process : Nat)
  | joiningThread
  | returned
  deriving DecidableEq

structure State where
  stopEvent : Bool
  /-- `_active_submission_process`. -/
  active : Option Nat
  processes : List ProcessStatus
  worker : WorkerPoint
  stopper : StopperPoint
  deriving DecidableEq

def State.initial : State := ⟨false, none, [], .loopTest, .idle⟩

def State.isRunning (s : State) (process : Nat) : Bool :=
  s.processes[process]? == some .running

/-- `terminate` and `kill`, which do nothing to a child that is not alive. -/
def State.endProcess (s : State) (process : Nat) : State :=
  if s.isRunning process then { s with processes := s.processes.set process .ended } else s

/-- `_clear_active_submission`. -/
def State.clearActive (s : State) (process : Nat) : State :=
  if s.active = some process then { s with active := none } else s

/-! ## Steps -/

inductive Label where
  | testStop
  | claimed (records : Nat)
  | rejectPayload
  | register
  | start
  /-- An exception, which `_run_loop` logs. -/
  | raise
  | joined
  | joinTimedOut
  | kill
  | clear
  | settle
  | wake
  | childExits (process : Nat)
  | stop
  | inspect
  | testAlive
  | terminate
  | clearStopped
  | joinThread

def State.workerStep (s : State) : WorkerPoint → Label → Option State
  | .loopTest, .testStop =>
      some { s with worker := if s.stopEvent then .exited else .claiming }
  | .claiming, .claimed records => some { s with worker := .batch records }
  | .batch 0, .testStop => some { s with worker := .waiting }
  | .batch (remaining + 1), .testStop =>
      some { s with worker := if s.stopEvent then .waiting else .creating remaining }
  | .creating remaining, .rejectPayload => some { s with worker := .settling remaining }
  | .creating remaining, .register =>
      some { s with
        processes := s.processes ++ [.created]
        active := some s.processes.length
        worker := .registered s.processes.length remaining }
  | .registered process remaining, .start =>
      some { s with
        processes := s.processes.set process .running
        worker := .joining process remaining }
  | .claiming, .raise | .creating _, .raise | .registered _ _, .raise | .settling _, .raise =>
      some { s with worker := .waiting }
  | .joining process remaining, .joined =>
      if s.isRunning process then none
      else some { s with worker := .clearing process remaining }
  | .joining process remaining, .joinTimedOut =>
      if s.isRunning process then some { s with worker := .killing process remaining }
      else none
  | .killing process remaining, .kill =>
      some { s.endProcess process with worker := .clearing process remaining }
  | .clearing process remaining, .clear =>
      some { s.clearActive process with worker := .settling remaining }
  | .settling remaining, .settle => some { s with worker := .batch remaining }
  | .waiting, .wake => some { s with worker := .loopTest }
  | _, _ => none

def State.stopperStep (s : State) : StopperPoint → Label → Option State
  | .idle, .stop => some { s with stopEvent := true, stopper := .flagged }
  | .flagged, .inspect => some { s with stopper := .inspected s.active }
  | .inspected none, .testAlive => some { s with stopper := .joiningThread }
  | .inspected (some process), .testAlive =>
      some { s with
        stopper := if s.isRunning process then .terminating process else .joiningThread }
  | .terminating process, .terminate =>
      some { s.endProcess process with stopper := .clearing process }
  | .clearing process, .clearStopped =>
      some { s.clearActive process with stopper := .joiningThread }
  | .joiningThread, .joinThread => some { s with stopper := .returned }
  | _, _ => none

def State.step (s : State) (label : Label) : Option State :=
  match label with
  | .childExits process => if s.isRunning process then some (s.endProcess process) else none
  | .stop | .inspect | .testAlive | .terminate | .clearStopped | .joinThread =>
      s.stopperStep s.stopper label
  | label => s.workerStep s.worker label

def shutdownSystem : System State Label Unit where
  init := .initial
  step := State.step
  observe _ _ := []

/-! ## The invariant -/

/-- The child that the worker waits for. -/
def WorkerPoint.child : WorkerPoint → Option Nat
  | .joining process _ => some process
  | .killing process _ => some process
  | _ => none

/-- Past the stop test, and not yet past the start of the child. -/
def WorkerPoint.aboutToStart : WorkerPoint → Bool
  | .creating _ => true
  | .registered _ _ => true
  | _ => false

def WorkerPoint.isCreating : WorkerPoint → Bool
  | .creating _ => true
  | _ => false

def WorkerPoint.isRegistered : WorkerPoint → Bool
  | .registered _ _ => true
  | _ => false

theorem notAboutToStart {worker : WorkerPoint} (hcreating : worker.isCreating = false)
    (hregistered : worker.isRegistered = false) : worker.aboutToStart = false := by
  cases worker with
  | creating remaining => cases hcreating
  | registered process remaining => cases hregistered
  | _ => rfl

/-- `stop` reads the active process when the worker is not about to register one, and
tests it when the worker is not about to start it. -/
def LooksInTime (_past : List Unit) (s : State) : Label → Prop
  | .inspect => s.worker.isCreating = false
  | .testAlive => s.worker.isRegistered = false
  | _ => True

instance (past : List Unit) (s : State) : ∀ label, Decidable (LooksInTime past s label)
  | .inspect => inferInstanceAs (Decidable (s.worker.isCreating = false))
  | .testAlive => inferInstanceAs (Decidable (s.worker.isRegistered = false))
  | .testStop | .claimed _ | .rejectPayload | .register | .start | .raise | .joined
  | .joinTimedOut | .kill | .clear | .settle | .wake | .childExits _ | .stop | .terminate
  | .clearStopped | .joinThread => isTrue True.intro

/-- What `stop` may rely on at each of its points. -/
def State.StopperSound (s : State) : StopperPoint → Prop
  | .idle => True
  | .flagged => s.stopEvent = true
  | .inspected process => s.stopEvent = true ∧ s.worker.isCreating = false ∧
      ∀ p, (s.isRunning p = true ∨ ∃ n, s.worker = .registered p n) → process = some p
  | .terminating process => s.stopEvent = true ∧ s.worker.aboutToStart = false ∧
      s.processes[process]? ≠ some .created ∧ ∀ p, s.isRunning p = true → p = process
  | .clearing process => s.stopEvent = true ∧ s.worker.aboutToStart = false ∧
      s.processes[process]? ≠ some .created ∧ ∀ p, s.isRunning p = false
  | .joiningThread | .returned => s.stopEvent = true ∧ s.worker.aboutToStart = false ∧
      ∀ p, s.isRunning p = false

structure Sound (s : State) : Prop where
  child : ∀ p, s.isRunning p = true → s.worker.child = some p ∧ s.active = some p
  registered : ∀ p n, s.worker = .registered p n →
    s.processes[p]? = some .created ∧ s.active = some p
  stopper : s.StopperSound s.stopper

theorem sound_initial : Sound .initial := by
  constructor
  · intro p hp
    simp [State.initial, State.isRunning] at hp
  · intro p n hp
    cases hp
  · trivial

/-! ## What the writes do -/

theorem isRunning_endProcess (s : State) (process p : Nat) :
    (s.endProcess process).isRunning p = (s.isRunning p && p != process) := by
  unfold State.endProcess State.isRunning
  split
  · grind
  · grind

theorem created_endProcess (s : State) (process p : Nat) :
    (s.endProcess process).processes[p]? = some .created ↔
      s.processes[p]? = some .created := by
  unfold State.endProcess State.isRunning
  split
  · grind
  · grind

@[simp] theorem endProcess_fields (s : State) (process : Nat) :
    (s.endProcess process).stopEvent = s.stopEvent ∧
      (s.endProcess process).active = s.active ∧
      (s.endProcess process).worker = s.worker ∧
      (s.endProcess process).stopper = s.stopper := by
  unfold State.endProcess
  split
  · exact ⟨rfl, rfl, rfl, rfl⟩
  · exact ⟨rfl, rfl, rfl, rfl⟩

@[simp] theorem clearActive_fields (s : State) (process : Nat) :
    (s.clearActive process).stopEvent = s.stopEvent ∧
      (s.clearActive process).processes = s.processes ∧
      (s.clearActive process).worker = s.worker ∧
      (s.clearActive process).stopper = s.stopper := by
  unfold State.clearActive
  split
  · exact ⟨rfl, rfl, rfl, rfl⟩
  · exact ⟨rfl, rfl, rfl, rfl⟩

/-! ## What a step of the worker can do -/

inductive WorkerMove (s : State) : State → Prop
  | idles (worker : WorkerPoint) :
      s.worker.child = none → worker.child = none → worker.aboutToStart = false →
      WorkerMove s { s with worker := worker }
  | creates (remaining : Nat) :
      s.worker.child = none → s.stopEvent = false →
      WorkerMove s { s with worker := .creating remaining }
  | registers (remaining : Nat) :
      s.worker = .creating remaining →
      WorkerMove s { s with
        processes := s.processes ++ [.created]
        active := some s.processes.length
        worker := .registered s.processes.length remaining }
  | starts (process remaining : Nat) :
      s.worker = .registered process remaining →
      WorkerMove s { s with
        processes := s.processes.set process .running
        worker := .joining process remaining }
  | leaves (process remaining : Nat) :
      s.worker = .joining process remaining → s.isRunning process = false →
      WorkerMove s { s with worker := .clearing process remaining }
  | kills (process remaining : Nat) :
      s.worker = .joining process remaining →
      WorkerMove s { s with worker := .killing process remaining }
  | killed (process remaining : Nat) :
      s.worker = .killing process remaining →
      WorkerMove s { s.endProcess process with worker := .clearing process remaining }
  | clears (process remaining : Nat) :
      s.worker = .clearing process remaining →
      WorkerMove s { s.clearActive process with worker := .settling remaining }

theorem workerStep_move {s t : State} {label : Label}
    (hstep : s.workerStep s.worker label = some t) : WorkerMove s t := by
  generalize hworker : s.worker = point at hstep
  unfold State.workerStep at hstep
  split at hstep
  · cases hstep
    apply WorkerMove.idles
    · rw [hworker]
      rfl
    · split <;> rfl
    · split <;> rfl
  · cases hstep
    exact .idles _ (by rw [hworker]; rfl) rfl rfl
  · cases hstep
    exact .idles _ (by rw [hworker]; rfl) rfl rfl
  · cases hstep
    split
    · exact .idles _ (by rw [hworker]; rfl) rfl rfl
    · next hstop => exact .creates _ (by rw [hworker]; rfl) (by simpa using hstop)
  · cases hstep
    exact .idles _ (by rw [hworker]; rfl) rfl rfl
  · cases hstep
    exact .registers _ hworker
  · cases hstep
    exact .starts _ _ hworker
  · cases hstep
    exact .idles _ (by rw [hworker]; rfl) rfl rfl
  · cases hstep
    exact .idles _ (by rw [hworker]; rfl) rfl rfl
  · cases hstep
    exact .idles _ (by rw [hworker]; rfl) rfl rfl
  · cases hstep
    exact .idles _ (by rw [hworker]; rfl) rfl rfl
  · split at hstep
    · cases hstep
    · next hrunning =>
      cases hstep
      exact .leaves _ _ hworker (by simpa using hrunning)
  · split at hstep
    · cases hstep
      exact .kills _ _ hworker
    · cases hstep
  · cases hstep
    exact .killed _ _ hworker
  · cases hstep
    exact .clears _ _ hworker
  · cases hstep
    exact .idles _ (by rw [hworker]; rfl) rfl rfl
  · cases hstep
    exact .idles _ (by rw [hworker]; rfl) rfl rfl
  · cases hstep

/-! ## The invariant is kept -/

theorem Sound.not_running {s : State} (h : Sound s) (hchild : s.worker.child = none)
    {p : Nat} (hp : s.isRunning p = true) : False := by
  have hworker := (h.child p hp).1
  rw [hchild] at hworker
  cases hworker

/-- Fewer children that run, and a worker that is not closer to a start. -/
theorem State.StopperSound.mono {s t : State} {point : StopperPoint}
    (h : s.StopperSound point) (hevent : t.stopEvent = s.stopEvent)
    (hrunning : ∀ p, t.isRunning p = true → s.isRunning p = true)
    (hcreated : ∀ p : Nat, t.processes[p]? = some .created →
      s.processes[p]? = some .created)
    (hcreating : t.worker.isCreating = true → s.worker.isCreating = true)
    (hregistered : ∀ p n, t.worker = .registered p n → s.worker = .registered p n) :
    t.StopperSound point := by
  have habout : s.worker.aboutToStart = false → t.worker.aboutToStart = false := by
    intro hs
    cases ht : t.worker with
    | creating remaining =>
        have hcreating := hcreating (by rw [ht]; rfl)
        cases hs' : s.worker <;> simp_all [WorkerPoint.isCreating, WorkerPoint.aboutToStart]
    | registered p n =>
        rw [hregistered p n ht] at hs
        cases hs
    | _ => rfl
  have hnone : (∀ p, s.isRunning p = false) → ∀ p, t.isRunning p = false := by
    intro hs p
    cases hp : t.isRunning p with
    | false => rfl
    | true => exact absurd (hrunning p hp) (by simp [hs p])
  cases point with
  | idle => trivial
  | flagged => exact hevent.trans h
  | inspected process =>
      rcases h with ⟨hstop, hcreate, hprocess⟩
      refine ⟨hevent.trans hstop, ?_, ?_⟩
      · cases ht : t.worker.isCreating with
        | false => rfl
        | true => exact absurd (hcreating ht) (by simp [hcreate])
      · rintro p (hp | ⟨n, hp⟩)
        · exact hprocess p (.inl (hrunning p hp))
        · exact hprocess p (.inr ⟨n, hregistered p n hp⟩)
  | terminating process =>
      rcases h with ⟨hstop, hstart, hprocess, honly⟩
      exact ⟨hevent.trans hstop, habout hstart, fun hp => hprocess (hcreated _ hp),
        fun p hp => honly p (hrunning p hp)⟩
  | clearing process =>
      rcases h with ⟨hstop, hstart, hprocess, hquiet⟩
      exact ⟨hevent.trans hstop, habout hstart, fun hp => hprocess (hcreated _ hp),
        hnone hquiet⟩
  | joiningThread =>
      rcases h with ⟨hstop, hstart, hquiet⟩
      exact ⟨hevent.trans hstop, habout hstart, hnone hquiet⟩
  | returned =>
      rcases h with ⟨hstop, hstart, hquiet⟩
      exact ⟨hevent.trans hstop, habout hstart, hnone hquiet⟩

/-- A worker that is about to start a child has been seen by `stop` at most once. -/
theorem State.StopperSound.early {s : State} {point : StopperPoint}
    (h : s.StopperSound point) (hstart : s.worker.aboutToStart = true) :
    point = .idle ∨ point = .flagged ∧ s.stopEvent = true ∨
      ∃ process, point = .inspected process ∧ s.stopEvent = true ∧
        s.worker.isCreating = false ∧
        ∀ p, (s.isRunning p = true ∨ ∃ n, s.worker = .registered p n) → process = some p := by
  cases point with
  | idle => exact .inl rfl
  | flagged => exact .inr (.inl ⟨rfl, h⟩)
  | inspected process => exact .inr (.inr ⟨process, rfl, h⟩)
  | terminating process => exact absurd hstart (by simp [h.2.1])
  | clearing process => exact absurd hstart (by simp [h.2.1])
  | joiningThread => exact absurd hstart (by simp [h.2.1])
  | returned => exact absurd hstart (by simp [h.2.1])

theorem State.StopperSound.idle_of_event {s : State} {point : StopperPoint}
    (h : s.StopperSound point) (hevent : s.stopEvent = false) : point = .idle := by
  cases point with
  | idle => rfl
  | flagged => exact absurd h (by simp [State.StopperSound, hevent])
  | inspected process => exact absurd h.1 (by simp [hevent])
  | terminating process => exact absurd h.1 (by simp [hevent])
  | clearing process => exact absurd h.1 (by simp [hevent])
  | joiningThread => exact absurd h.1 (by simp [hevent])
  | returned => exact absurd h.1 (by simp [hevent])

theorem Sound.worker_step {s t : State} (h : Sound s) (hmove : WorkerMove s t) : Sound t := by
  have hstopper := h.stopper
  cases hmove with
  | idles worker hchild hnext hstart =>
      constructor
      · intro p hp
        exact (h.not_running hchild hp).elim
      · rintro p n rfl
        cases hstart
      · refine State.StopperSound.mono hstopper rfl (fun p hp => hp) (fun p hp => hp) ?_ ?_
        · intro hcreating
          cases worker with
          | creating remaining => cases hstart
          | _ => cases hcreating
        · rintro p n rfl
          cases hstart
  | creates remaining hchild hevent =>
      constructor
      · intro p hp
        exact (h.not_running hchild hp).elim
      · nofun
      · rw [State.StopperSound.idle_of_event hstopper hevent]
        exact True.intro
  | registers remaining hworker =>
      have hchild : s.worker.child = none := by rw [hworker]; rfl
      constructor
      · intro p hp
        have hbefore : s.isRunning p = true := by
          have hstatus := beq_iff_eq.mp hp
          rw [List.getElem?_append] at hstatus
          split at hstatus
          · exact beq_iff_eq.mpr hstatus
          · rcases List.mem_singleton.mp (List.mem_of_getElem? hstatus)
        exact (h.not_running hchild hbefore).elim
      · intro p n hp
        cases hp
        exact ⟨by simp, rfl⟩
      · rcases State.StopperSound.early hstopper (by rw [hworker]; rfl) with
          hidle | ⟨hflagged, hevent⟩ | ⟨process, -, -, hcreating, -⟩
        · rw [hidle]
          exact True.intro
        · rw [hflagged]
          exact hevent
        · rw [hworker] at hcreating
          cases hcreating
  | starts process remaining hworker =>
      have hchild : s.worker.child = none := by rw [hworker]; rfl
      have hactive := (h.registered process remaining hworker).2
      have honly : ∀ p, State.isRunning { s with
          processes := s.processes.set process .running
          worker := .joining process remaining } p = true → p = process := by
        intro p hp
        by_contra hne
        have hstatus := beq_iff_eq.mp hp
        rw [List.getElem?_set_ne (Ne.symm hne)] at hstatus
        exact h.not_running hchild (beq_iff_eq.mpr hstatus)
      constructor
      · intro p hp
        rw [honly p hp]
        exact ⟨rfl, hactive⟩
      · nofun
      · rcases State.StopperSound.early hstopper (by rw [hworker]; rfl) with
          hidle | ⟨hflagged, hevent⟩ | ⟨seen, hinspected, hevent, -, hseen⟩
        · rw [hidle]
          exact True.intro
        · rw [hflagged]
          exact hevent
        · rw [hinspected]
          refine ⟨hevent, rfl, ?_⟩
          rintro p (hp | ⟨n, hp⟩)
          · rw [honly p hp]
            exact hseen process (.inr ⟨remaining, hworker⟩)
          · cases hp
  | leaves process remaining hworker hrunning =>
      constructor
      · intro p hp
        have hp' := h.child p hp
        rw [hworker] at hp'
        cases hp'.1
        have hrunning' : s.isRunning process = true := hp
        rw [hrunning] at hrunning'
        cases hrunning'
      · nofun
      · exact State.StopperSound.mono hstopper rfl (fun p hp => hp) (fun p hp => hp) nofun nofun
  | kills process remaining hworker =>
      constructor
      · intro p hp
        have hp' := h.child p hp
        rw [hworker] at hp'
        exact hp'
      · nofun
      · exact State.StopperSound.mono hstopper rfl (fun p hp => hp) (fun p hp => hp) nofun nofun
  | killed process remaining hworker =>
      have hnone : ∀ p, (s.endProcess process).isRunning p = false := by
        intro p
        rw [isRunning_endProcess]
        cases hp : s.isRunning p with
        | false => rfl
        | true =>
            have hchild := (h.child p hp).1
            rw [hworker] at hchild
            cases hchild
            simp
      constructor
      · intro p hp
        have hp' : (s.endProcess process).isRunning p = true := hp
        rw [hnone p] at hp'
        cases hp'
      · nofun
      · have hfields := endProcess_fields s process
        rw [show _ = _ from hfields.2.2.2]
        refine State.StopperSound.mono hstopper hfields.1 ?_ ?_ nofun nofun
        · intro p hp
          have hp' : (s.endProcess process).isRunning p = true := hp
          rw [hnone p] at hp'
          cases hp'
        · intro p hp
          exact (created_endProcess s process p).mp hp
  | clears process remaining hworker =>
      have hfields := clearActive_fields s process
      have hsame : ∀ p, State.isRunning { s.clearActive process with
          worker := .settling remaining } p = s.isRunning p := by
        intro p
        simp only [State.isRunning, hfields.2.1]
      constructor
      · intro p hp
        rw [hsame p] at hp
        exact (h.not_running (by rw [hworker]; rfl) hp).elim
      · nofun
      · rw [show _ = _ from hfields.2.2.2]
        refine State.StopperSound.mono hstopper hfields.1 ?_ ?_ nofun nofun
        · intro p hp
          rw [hsame p] at hp
          exact hp
        · intro p hp
          rw [← hfields.2.1]
          exact hp

/-- A child that ends leaves everybody with less to rely on. -/
theorem Sound.endProcess {s : State} (h : Sound s) (process : Nat) :
    Sound (s.endProcess process) := by
  have hfields := endProcess_fields s process
  have hrunning : ∀ p, (s.endProcess process).isRunning p = true → s.isRunning p = true := by
    intro p hp
    rw [isRunning_endProcess, Bool.and_eq_true] at hp
    exact hp.1
  constructor
  · intro p hp
    rw [hfields.2.2.1, hfields.2.1]
    exact h.child p (hrunning p hp)
  · intro p n hp
    rw [hfields.2.2.1] at hp
    rw [created_endProcess, hfields.2.1]
    exact h.registered p n hp
  · rw [hfields.2.2.2]
    refine State.StopperSound.mono h.stopper hfields.1 hrunning ?_ ?_ ?_
    · intro p hp
      exact (created_endProcess s process p).mp hp
    · rw [hfields.2.2.1]
      exact id
    · rw [hfields.2.2.1]
      exact fun _ _ => id

theorem Sound.stopper_step {s t : State} (h : Sound s) {label : Label}
    (hinTime : LooksInTime [] s label) (hstep : s.stopperStep s.stopper label = some t) :
    Sound t := by
  have hsound := h.stopper
  generalize hpoint : s.stopper = point at hstep hsound
  unfold State.stopperStep at hstep
  split at hstep
  · cases hstep
    exact ⟨h.child, h.registered, rfl⟩
  · cases hstep
    refine ⟨h.child, h.registered, hsound, hinTime, ?_⟩
    rintro p (hp | ⟨n, hp⟩)
    · exact (h.child p hp).2
    · exact (h.registered p n hp).2
  · cases hstep
    rcases hsound with ⟨hevent, hcreating, hseen⟩
    refine ⟨h.child, h.registered, hevent, ?_, ?_⟩
    · exact notAboutToStart hcreating hinTime
    · intro p
      cases hp : s.isRunning p with
      | false => exact hp
      | true => cases hseen p (.inl hp)
  · next process =>
    cases hstep
    rcases hsound with ⟨hevent, hcreating, hseen⟩
    have hstart := notAboutToStart hcreating hinTime
    refine ⟨h.child, h.registered, ?_⟩
    cases halive : s.isRunning process with
    | true =>
        refine ⟨hevent, hstart, ?_, ?_⟩
        · have hstatus : s.processes[process]? = some .running := beq_iff_eq.mp halive
          simp only [hstatus]
          decide
        · intro p hp
          cases hseen p (.inl hp)
          rfl
    | false =>
        refine ⟨hevent, hstart, ?_⟩
        intro p
        cases hp : s.isRunning p with
        | false => exact hp
        | true =>
            cases hseen p (.inl hp)
            rw [halive] at hp
            cases hp
  · next process =>
    cases hstep
    rcases hsound with ⟨hevent, hstart, hcreated, honly⟩
    have hended := h.endProcess process
    have hfields := endProcess_fields s process
    refine ⟨hended.child, hended.registered, hfields.1.trans hevent, ?_, ?_, ?_⟩
    · rw [show _ = _ from hfields.2.2.1]
      exact hstart
    · intro hstatus
      exact hcreated ((created_endProcess s process process).mp hstatus)
    · intro p
      have hp := isRunning_endProcess s process p
      cases hrunning : s.isRunning p with
      | false =>
          rw [hrunning] at hp
          exact hp
      | true =>
          rw [honly p hrunning, bne_self_eq_false, Bool.and_false] at hp
          rw [honly p hrunning]
          exact hp
  · next process =>
    cases hstep
    rcases hsound with ⟨hevent, hstart, hcreated, hquiet⟩
    have hfields := clearActive_fields s process
    have hrunning : ∀ p, State.isRunning { s.clearActive process with
        stopper := .joiningThread } p = false := by
      intro p
      have hp := hquiet p
      unfold State.isRunning at hp ⊢
      simp only [hfields.2.1]
      exact hp
    refine ⟨?_, ?_, hfields.1.trans hevent, ?_, hrunning⟩
    · intro p hp
      rw [hrunning p] at hp
      cases hp
    · intro p n hp
      rw [show _ = _ from hfields.2.2.1] at hp
      rw [hp] at hstart
      cases hstart
    · rw [show _ = _ from hfields.2.2.1]
      exact hstart
  · cases hstep
    exact ⟨h.child, h.registered, hsound⟩
  · cases hstep

theorem Sound.step {s t : State} (h : Sound s) {label : Label}
    (hinTime : LooksInTime [] s label) (hstep : s.step label = some t) : Sound t := by
  unfold State.step at hstep
  split at hstep
  · split at hstep
    · cases hstep
      exact h.endProcess _
    · cases hstep
  · exact h.stopper_step hinTime hstep
  · exact h.stopper_step hinTime hstep
  · exact h.stopper_step hinTime hstep
  · exact h.stopper_step hinTime hstep
  · exact h.stopper_step hinTime hstep
  · exact h.stopper_step hinTime hstep
  · exact h.worker_step (workerStep_move hstep)

theorem registered_of_start {s t : State} (hstep : s.step .start = some t) :
    ∃ process remaining, s.worker = .registered process remaining := by
  simp only [State.step] at hstep
  cases hworker : s.worker with
  | registered process remaining => exact ⟨process, remaining, rfl⟩
  | _ => simp [hworker, State.workerStep] at hstep

/--
If `stop` does not look at the active submission between the worker's stop test and the
start of its child, then after it has returned no child is alive, and none is started.
-/
theorem no_submission_after_stop {labels : List Label} {s : State}
    (run : shutdownSystem.exec shutdownSystem.init labels = some s)
    (along : shutdownSystem.Along LooksInTime [] shutdownSystem.init labels)
    (hreturned : s.stopper = .returned) :
    (∀ p, s.isRunning p = false) ∧ ∀ t, s.step .start ≠ some t := by
  have hsound := shutdownSystem.run_invariant (I := fun _ m => Sound m) sound_initial
    (fun _ m _ _ _ hm hinTime hstep => hm.step hinTime hstep) along run
  have hstopper := hsound.stopper
  rw [hreturned] at hstopper
  refine ⟨hstopper.2.2, ?_⟩
  intro t hstep
  rcases registered_of_start hstep with ⟨process, remaining, hworker⟩
  have hstart := hstopper.2.1
  rw [hworker] at hstart
  cases hstart

/-! ## A stop in between -/

/-- The worker has claimed one record and passed the stop test. -/
def pastStopTest : List Label := [.testStop, .claimed 1, .testStop]

/-- `stop` finds no child, the worker starts one, and the join of the thread times out. -/
def stopInBetween : List Label :=
  pastStopTest ++ [.stop, .inspect, .testAlive, .register, .start, .joinThread]

theorem submission_after_stop :
    ∃ s, shutdownSystem.exec shutdownSystem.init stopInBetween = some s ∧
      s.stopper = .returned ∧ s.isRunning 0 = true := by
  have hrun : shutdownSystem.exec shutdownSystem.init stopInBetween =
      some ⟨true, some 0, [.running], .joining 0 0, .returned⟩ := by
    decide
  exact ⟨_, hrun, rfl, rfl⟩

/-- `stop` finds the child that runs, and ends it. -/
def stopWhileJoining : List Label :=
  pastStopTest ++ [.register, .start, .stop, .inspect, .testAlive, .terminate,
    .clearStopped, .joinThread]

theorem no_submission_after_stop_sample :
    ∃ s, shutdownSystem.exec shutdownSystem.init stopWhileJoining = some s ∧
      s.processes = [.ended] ∧ (∀ p, s.isRunning p = false) ∧
      ∀ t, s.step .start ≠ some t := by
  have hrun : shutdownSystem.exec shutdownSystem.init stopWhileJoining =
      some ⟨true, none, [.ended], .joining 0 0, .returned⟩ := by
    decide
  exact ⟨_, hrun, rfl, no_submission_after_stop hrun (by decide) rfl⟩

end EdgeBridge.Shutdown
