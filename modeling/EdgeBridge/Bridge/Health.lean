import EdgeBridge.Bridge.Attempts
import EdgeBridge.Bridge.Batch
import EdgeBridge.Bridge.Hand
import EdgeBridge.Store.Counts

/-!
# What the worker's health tells

`WorkerState` of `queue_worker.py` next to the threads: the worker notes its heartbeats and
the record that it has begun, and `health_snapshot` reads the notes from another thread.
An exception ends a record without a note, so that the record stays reported.  The pending
count, which no report shows, is not written here.
-/

namespace EdgeBridge

open Foundation

/-! ## The notes of the worker -/

def WorkerHealth.initial : WorkerHealth := ⟨none, none, none, none, none, 0⟩

/-- What `health_snapshot` returns; the time in processing is in microseconds. -/
structure HealthReport where
  workerRunning : Bool
  workerHealthy : Bool
  workerLastHeartbeat : Option Text
  workerCurrentMessageId : Option Nat
  workerCurrentProcessing : Option Int
  queueNewCount : Nat
  queueProcessingCount : Nat
  queueFailedCount : Nat
  queueCompletedCount : Nat

/-- `_parse_timestamp`. -/
def parseHeartbeat (platform : Platform) (text : Option Text) :
    Except PyError (Option Datetime) :=
  match truthy text with
  | none => .ok none
  | some text => (parseTimestamp platform text).map some

/-- `health_snapshot`: the notes are read at `asked`, and the age of the heartbeat is taken at
`now`, after the queue was counted. -/
def WorkerHealth.healthSnapshot (platform : Platform) (submissionTimeout : Int)
    (heartbeatThresholdSeconds : Int) (workerThreadAlive : Bool) (asked : Datetime)
    (db : Database) (now : Datetime) (w : WorkerHealth) : Except PyError HealthReport := do
  let lastLoopTimestamp := w.lastLoopAt.map formatTimestamp
  let currentProcessing := w.currentRecordStartedAt.map fun started =>
    max 0 ((asked.micro : Int) - started.micro)
  let lastHeartbeat ← parseHeartbeat platform lastLoopTimestamp
  let beating := lastHeartbeat.any fun lastHeartbeat =>
    decide ((now.micro : Int) - lastHeartbeat.micro ≤ heartbeatThresholdSeconds * 1000000)
  let hanging := currentProcessing.any fun elapsed =>
    decide (submissionTimeout * 1000000 < elapsed)
  .ok {
    workerRunning := workerThreadAlive
    workerHealthy := workerThreadAlive && beating && !hanging
    workerLastHeartbeat := lastLoopTimestamp
    workerCurrentMessageId := w.currentRecordId
    workerCurrentProcessing := currentProcessing
    queueNewCount := queueCount db .new
    queueProcessingCount := queueCount db .processing
    queueFailedCount := queueCount db .failed
    queueCompletedCount := queueCount db .completed }

/-! ## The calls -/

inductive WorkerEvent where
  | beat (now : Datetime)
  | began (recordId : Nat) (now : Datetime)
  | finished (recordId : Nat) (succeeded : Bool) (now : Datetime)
  /-- An exception has ended `_process_record`. -/
  | abandoned (recordId : Nat)
  | restarted
  deriving DecidableEq

def WorkerHealth.note (w : WorkerHealth) : WorkerEvent → WorkerHealth
  | .beat now => w.heartbeat now
  | .began recordId now => w.beginRecord recordId now
  | .finished _ succeeded now => w.finishRecord succeeded now
  | .abandoned _ => w
  | .restarted => .initial

/-- The calls of a step, from the worker before to the worker after. -/
def noteCalls (stopping : Bool) (before after : WorkerState) (now : Datetime) :
    Label → List WorkerEvent
  | .cycle => [.beat now]
  | .next _ =>
      match before with
      | .batch (record :: _) => if stopping then [] else [.began record.id now]
      | _ => []
  | .commit .worker _ =>
      match before, after with
      | .processing record _ (.failing _) _, .batch _ => [.finished record.id false now]
      | _, _ => []
  | .publishAck =>
      match before with
      | .processing record _ _ _ => [.finished record.id true now]
      | _ => []
  | _ => []

/-- The record that a step goes on with. -/
def recordOf (before : WorkerState) : List WorkerEvent → Option Nat
  | [.began recordId _] => some recordId
  | _ => before.current

/-- An exception has ended the record. -/
def abandonedBy : Option Nat → WorkerState → List WorkerEvent
  | some recordId, .idle => [.abandoned recordId]
  | _, _ => []

def workerNotes (stopping : Bool) (before after : WorkerState) (now : Datetime)
    (label : Label) : List WorkerEvent :=
  let calls := noteCalls stopping before after now label
  match label with
  | .restart _ => [.restarted]
  | _ => calls ++ abandonedBy (recordOf before calls) after

structure NotedBridge where
  bridge : Bridge
  health : WorkerHealth

inductive NotedLabel where
  /-- A step of the threads; `now` is the reading of the note that it makes, if any. -/
  | step (label : Label) (now : Datetime)
  /-- A round that ends with an `OdooAuthenticationError`. -/
  | unauthenticated (now : Datetime)

def NotedBridge.step (platform : Platform) (s : NotedBridge) : NotedLabel → Option NotedBridge
  | .step label now =>
      (s.bridge.step platform label).map fun next =>
        ⟨next, (workerNotes s.bridge.stopping s.bridge.worker next.worker now label).foldl
          WorkerHealth.note s.health⟩
  | .unauthenticated now =>
      match s.bridge.worker with
      | .idle =>
          if s.bridge.stopping then none
          else some { s with health := s.health.heartbeat now }
      | _ => none

def NotedBridge.notes (platform : Platform) (s : NotedBridge) : NotedLabel → List WorkerEvent
  | .step label now =>
      match s.bridge.step platform label with
      | some next => workerNotes s.bridge.stopping s.bridge.worker next.worker now label
      | none => []
  | .unauthenticated now => [.beat now]

def notedSystem (platform : Platform) (config : Config) :
    System NotedBridge NotedLabel WorkerEvent where
  init := ⟨.start config .empty, .initial⟩
  step := NotedBridge.step platform
  observe := NotedBridge.notes platform

/-! ## What the calls say -/

/-- The last heartbeat of the process; every note is one. -/
def lastBeat (past : List WorkerEvent) : Option Datetime :=
  past.foldl (fun last event =>
    match event with
    | .beat now | .began _ now | .finished _ _ now => some now
    | .abandoned _ => last
    | .restarted => none) none

/-- The last record that was begun and not finished. -/
def lastRecord (past : List WorkerEvent) : Option (Nat × Datetime) :=
  past.foldl (fun last event =>
    match event with
    | .began recordId now => some (recordId, now)
    | .finished _ _ _ | .restarted => none
    | .beat _ | .abandoned _ => last) none

/-- The record that an exception has ended, until the next one is begun. -/
def abandonedRecord (past : List WorkerEvent) : Option Nat :=
  past.foldl (fun last event =>
    match event with
    | .abandoned recordId => some recordId
    | .began _ _ | .finished _ _ _ | .restarted => none
    | .beat _ => last) none

/-! ## One step -/

/-- What the notes of a step say about the record in the hands of the worker. -/
inductive Handed (before after : WorkerState) : List WorkerEvent → Prop
  | quiet : after.current = before.current → Handed before after []
  | beat (now : Datetime) : before.current = none → after.current = none →
      Handed before after [.beat now]
  | began (recordId : Nat) (now : Datetime) : before.current = none →
      after.current = some recordId → Handed before after [.began recordId now]
  | refused (recordId : Nat) (now : Datetime) : before.current = none →
      after.current = none →
      Handed before after [.began recordId now, .abandoned recordId]
  | finished (recordId : Nat) (succeeded : Bool) (now : Datetime) :
      before.current = some recordId → after.current = none →
      Handed before after [.finished recordId succeeded now]
  | abandoned (recordId : Nat) : before.current = some recordId → after.current = none →
      Handed before after [.abandoned recordId]
  | restarted : after.current = none → Handed before after [.restarted]

theorem handed_uncalled {stopping : Bool} {before after : WorkerState} {now : Datetime}
    {label : Label} (hlabel : ∀ config, label ≠ .restart config)
    (hcalls : noteCalls stopping before after now label = [])
    (hkept : after.current = before.current ∨ after = .idle) :
    Handed before after (workerNotes stopping before after now label) := by
  have hnotes : workerNotes stopping before after now label =
      abandonedBy before.current after := by
    unfold workerNotes
    rw [hcalls]
    cases label with
    | restart config => exact absurd rfl (hlabel config)
    | _ => rfl
  rw [hnotes]
  cases hcurrent : before.current with
  | none =>
      apply Handed.quiet
      rcases hkept with hkept | rfl
      · rw [hkept]
      · rw [hcurrent]
        rfl
  | some recordId =>
      rcases hkept with hkept | rfl
      · cases after with
        | processing _ _ _ _ => exact .quiet hkept
        | idle | claiming | batch _ =>
            rw [hcurrent] at hkept
            cases hkept
      · exact .abandoned recordId hcurrent rfl

theorem resume_error_worker (s : Bridge) (thread : Thread) (error : PyError) :
    (s.resume thread (.error error)).worker = s.worker ∨
      (s.resume thread (.error error)).worker = .idle := by
  cases thread with
  | worker => exact .inr rfl
  | _ => exact .inl rfl

/-- A record is begun, refused before it is, or left where the batch ends. -/
theorem handed_next (config : Config) (stopping : Bool) (records : List MessageRecord)
    (now noted : Datetime) :
    Handed (.batch records) (nextRecord config stopping now records)
      (workerNotes stopping (.batch records) (nextRecord config stopping now records) noted
        (.next now)) := by
  cases records with
  | nil => exact handed_uncalled (by simp) rfl (.inl rfl)
  | cons record rest =>
      cases stopping with
      | true => exact handed_uncalled (by simp) rfl (.inl rfl)
      | false =>
          simp only [nextRecord, Bool.false_eq_true, if_false]
          cases payloadFromRecord record with
          | ok payload => exact .began record.id noted rfl rfl
          | error error =>
              cases hmessage : valueErrorText error with
              | some message =>
                  simp only [hmessage]
                  exact .began record.id noted rfl rfl
              | none =>
                  simp only [hmessage]
                  exact .refused record.id noted rfl rfl

theorem ofStage_current {record : MessageRecord} {lastAttemptAt : Text}
    {rest : List MessageRecord} (stage : Option RecordStage) :
    (WorkerState.ofStage record lastAttemptAt rest stage).current = some record.id ∨
      WorkerState.ofStage record lastAttemptAt rest stage = .idle := by
  cases stage with
  | some stage => exact .inl rfl
  | none => exact .inr rfl

theorem handed_workerStep {config : Config} {stopping : Bool} {before after : WorkerState}
    {label : Label} (h : workerStep config stopping before label = some after)
    (now : Datetime) :
    Handed before after (workerNotes stopping before after now label) := by
  unfold workerStep at h
  split at h
  · split at h
    · cases h
    · cases h
      exact .beat now rfl rfl
  · cases h
    exact handed_next config stopping _ _ now
  · cases h
    exact handed_uncalled (by simp) rfl (ofStage_current _)
  · cases h
    exact handed_uncalled (by simp) rfl (.inl rfl)
  · cases h
    exact handed_uncalled (by simp) rfl (.inl rfl)
  · cases h
    exact handed_uncalled (by simp) rfl (.inl rfl)
  · split at h
    · cases h
      exact handed_uncalled (by simp) rfl (.inl rfl)
    · cases h
  · cases h
    exact handed_uncalled (by simp) rfl (.inl rfl)
  · cases h
    exact handed_uncalled (by simp) rfl (ofStage_current _)
  · cases h
    exact handed_uncalled (by simp) rfl (ofStage_current _)
  · cases h
    exact .finished _ true now rfl rfl
  · cases h

/-- The steps of the other threads change nothing here. -/
theorem handed_localStep {platform : Platform} {s t : Bridge} {label : Label}
    (hstep : s.localStep platform label = some t) (now : Datetime) :
    Handed s.worker t.worker (workerNotes s.stopping s.worker t.worker now label) := by
  have hmoved : ∀ {label}, (workerStep s.config s.stopping s.worker label).map
      (fun worker => ({ s with worker := worker } : Bridge)) = some t →
      Handed s.worker t.worker (workerNotes s.stopping s.worker t.worker now label) := by
    intro label hmoved
    rcases Option.map_eq_some_iff.mp hmoved with ⟨worker, hworker, rfl⟩
    exact handed_workerStep hworker now
  have hmqtt : ∀ {label}, (∀ config, label ≠ .restart config) →
      noteCalls s.stopping s.worker t.worker now label = [] →
      (mqttStep platform s.wal.data s.mqtt label).map
        (fun mqtt => ({ s with mqtt := mqtt } : Bridge)) = some t →
      Handed s.worker t.worker (workerNotes s.stopping s.worker t.worker now label) := by
    intro label hlabel hcalls hmoved
    rcases Option.map_eq_some_iff.mp hmoved with ⟨mqtt, -, rfl⟩
    exact handed_uncalled hlabel hcalls (.inl rfl)
  cases label with
  | watch at' =>
      simp only [Bridge.localStep] at hstep
      split at hstep
      · split at hstep
        · cases hstep
        · cases hstep
          exact handed_uncalled (by simp) rfl (.inl rfl)
      · cases hstep
  | cleanUp | reconcileOnce | audit | startAgain =>
      simp only [Bridge.localStep] at hstep
      split at hstep
      · cases hstep
        exact handed_uncalled (by simp) rfl (.inl rfl)
      · cases hstep
  | stop =>
      cases hstep
      exact handed_uncalled (by simp) rfl (.inl rfl)
  | restart config =>
      cases hstep
      exact .restarted rfl
  | deliver | lookup | publishReplay | finishMessage => exact hmqtt (by simp) rfl hstep
  | begin | lock | giveUp | commit | cycle | next | spawn | childOpens | childWrites
  | childExits | hardTimeout | stopKill | collect | respond | publishAck =>
      exact hmoved hstep

/-- A transaction ends a record in its last stage, or by its exception. -/
theorem handed_transaction {platform : Platform} {s t : Bridge} {label : Label}
    {thread : Thread} (hthread : label.thread = some thread)
    (hstep : s.step platform label = some t) (now : Datetime) :
    Handed s.worker t.worker (workerNotes s.stopping s.worker t.worker now label) := by
  have herror : ∀ (wal : Wal Database Thread) thread error,
      (({ s with wal := wal } : Bridge).resume thread (.error error)).worker.current =
          s.worker.current ∨
        (({ s with wal := wal } : Bridge).resume thread (.error error)).worker = .idle :=
    fun wal thread error =>
      (resume_error_worker _ thread error).imp_left (congrArg WorkerState.current)
  have hother : ∀ (wal : Wal Database Thread) {thread} (_ : thread ≠ .worker) answer,
      (({ s with wal := wal } : Bridge).resume thread answer).worker = s.worker :=
    fun wal thread hthread answer => resume_worker_of_ne _ answer hthread
  cases Bridge.step_move hstep with
  | began | locked => exact handed_uncalled (by simp) rfl (.inl rfl)
  | answered thread at' job result hjob hidle hearly =>
      refine handed_uncalled (by simp) rfl ?_
      cases result with
      | error error => exact herror s.wal thread error
      | ok answer =>
          by_cases hworker : thread = .worker
          · subst hworker
            cases workerJob_of_job hjob with
            | claiming hclaiming =>
                left
                simp only [Bridge.resume, hclaiming]
                cases answer <;> rfl
            | failing => cases hearly
            | completing => simp [Job.earlyAnswer] at hearly
          · rw [hother s.wal hworker]
            exact .inl rfl
  | refused thread => exact handed_uncalled (by simp) rfl (herror _ thread _)
  | gaveUp thread => exact handed_uncalled (by simp) rfl (herror s.wal thread _)
  | committed thread at' job answer db hjob hwriting hrun =>
      by_cases hworker : thread = .worker
      · subst hworker
        cases workerJob_of_job hjob with
        | claiming hclaiming =>
            simp only [Bridge.resume, hclaiming]
            cases answer <;> exact handed_uncalled (by simp) rfl (.inl rfl)
        | failing _ _ _ _ hfailing =>
            simp only [Bridge.resume, hfailing]
            exact .finished _ false now rfl rfl
        | completing _ _ _ _ _ hcompleting =>
            simp only [Bridge.resume, hcompleting]
            exact handed_uncalled (by simp) rfl (.inl rfl)
      · rw [hother _ hworker]
        refine handed_uncalled (by simp) ?_ (.inl rfl)
        cases thread with
        | worker => exact absurd rfl hworker
        | _ => rfl
  | failed thread at' job error hjob hwriting hrun =>
      refine handed_uncalled (by simp) ?_ (herror _ thread error)
      cases thread with
      | worker =>
          simp only [Bridge.resume]
          cases s.worker with
          | processing record _ stage _ => cases stage <;> rfl
          | _ => rfl
      | _ => rfl
  | worker _ _ hlabel | mqtt _ _ hlabel | lifecycle _ _ hlabel =>
      rw [hlabel] at hthread
      cases hthread
  | watch | audit | stopped | startedAgain | restarted => cases hthread

theorem handed_step {platform : Platform} {s t : Bridge} {label : Label}
    (hstep : s.step platform label = some t) (now : Datetime) :
    Handed s.worker t.worker (workerNotes s.stopping s.worker t.worker now label) := by
  cases hthread : label.thread with
  | some thread => exact handed_transaction hthread hstep now
  | none =>
      unfold Bridge.step at hstep
      rw [hthread] at hstep
      exact handed_localStep hstep now

/-! ## Every run -/

theorem lastBeat_snoc (past : List WorkerEvent) (event : WorkerEvent) :
    lastBeat (past ++ [event]) =
      match event with
      | .beat now | .began _ now | .finished _ _ now => some now
      | .abandoned _ => lastBeat past
      | .restarted => none := by
  simp only [lastBeat, List.foldl_append, List.foldl_cons, List.foldl_nil]

theorem lastRecord_snoc (past : List WorkerEvent) (event : WorkerEvent) :
    lastRecord (past ++ [event]) =
      match event with
      | .began recordId now => some (recordId, now)
      | .finished _ _ _ | .restarted => none
      | .beat _ | .abandoned _ => lastRecord past := by
  simp only [lastRecord, List.foldl_append, List.foldl_cons, List.foldl_nil]

theorem abandonedRecord_snoc (past : List WorkerEvent) (event : WorkerEvent) :
    abandonedRecord (past ++ [event]) =
      match event with
      | .abandoned recordId => some recordId
      | .began _ _ | .finished _ _ _ | .restarted => none
      | .beat _ => abandonedRecord past := by
  simp only [abandonedRecord, List.foldl_append, List.foldl_cons, List.foldl_nil]

/-- A call says the same to the notes and to the one who reads the calls. -/
structure Noted (past : List WorkerEvent) (health : WorkerHealth) : Prop where
  beat : health.lastLoopAt = lastBeat past
  record : health.currentRecordId = (lastRecord past).map Prod.fst
  started : health.currentRecordStartedAt = (lastRecord past).map Prod.snd

theorem Noted.note {past : List WorkerEvent} {health : WorkerHealth} (h : Noted past health)
    (event : WorkerEvent) : Noted (past ++ [event]) (health.note event) := by
  constructor
  · rw [lastBeat_snoc]
    cases event with
    | abandoned recordId => exact h.beat
    | _ => rfl
  · rw [lastRecord_snoc]
    cases event with
    | beat now => exact h.record
    | abandoned recordId => exact h.record
    | _ => rfl
  · rw [lastRecord_snoc]
    cases event with
    | beat now => exact h.started
    | abandoned recordId => exact h.started
    | _ => rfl

theorem Noted.notes {past : List WorkerEvent} {health : WorkerHealth} (h : Noted past health)
    (events : List WorkerEvent) :
    Noted (past ++ events) (events.foldl WorkerHealth.note health) := by
  induction events generalizing past health with
  | nil =>
      rw [List.append_nil]
      exact h
  | cons event events ih =>
      rw [List.append_cons]
      exact ih (h.note event)

/-- The record that was begun last is in the hands of the worker, or an exception has ended
it. -/
structure Held (past : List WorkerEvent) (worker : WorkerState) : Prop where
  record : (lastRecord past).map Prod.fst = worker.current.or (abandonedRecord past)
  free : worker.current.isSome = true → abandonedRecord past = none

theorem Held.step {past events : List WorkerEvent} {before after : WorkerState}
    (h : Held past before) (handed : Handed before after events) :
    Held (past ++ events) after := by
  obtain ⟨hrecord, hfree⟩ := h
  cases handed with
  | quiet hkept => exact ⟨by simpa [hkept] using hrecord, by simpa [hkept] using hfree⟩
  | beat now hbefore hafter =>
      refine ⟨?_, by simp [hafter]⟩
      rw [lastRecord_snoc, abandonedRecord_snoc, hrecord, hbefore, hafter]
  | began recordId now hbefore hafter =>
      refine ⟨?_, fun _ => by rw [abandonedRecord_snoc]⟩
      rw [lastRecord_snoc, hafter]
      rfl
  | refused recordId now hbefore hafter =>
      refine ⟨?_, by simp [hafter]⟩
      rw [List.append_cons, lastRecord_snoc, lastRecord_snoc, abandonedRecord_snoc, hafter]
      rfl
  | finished recordId succeeded now hbefore hafter =>
      refine ⟨?_, by simp [hafter]⟩
      rw [lastRecord_snoc, abandonedRecord_snoc, hafter]
      rfl
  | abandoned recordId hbefore hafter =>
      refine ⟨?_, by simp [hafter]⟩
      rw [lastRecord_snoc, abandonedRecord_snoc, hrecord, hbefore, hafter]
      rfl
  | restarted hafter =>
      refine ⟨?_, by simp [hafter]⟩
      rw [lastRecord_snoc, abandonedRecord_snoc, hafter]
      rfl

theorem noted_of_ran {platform : Platform} {config : Config} {past : List WorkerEvent}
    {s : NotedBridge}
    (ran : (notedSystem platform config).Ran (notedSystem platform config).init past s) :
    Noted past s.health ∧ Held past s.bridge.worker := by
  refine (notedSystem platform config).trace_invariant
    (I := fun past s => Noted past s.health ∧ Held past s.bridge.worker)
    ⟨⟨rfl, rfl, rfl⟩, ⟨rfl, by simp [notedSystem, Bridge.start, WorkerState.current]⟩⟩
    (fun past m label t _ hm hstep => ?_) ran
  obtain ⟨hnoted, hheld⟩ := hm
  cases label with
  | step label now =>
      simp only [notedSystem, NotedBridge.step, Option.map_eq_some_iff] at hstep
      obtain ⟨next, hnext, rfl⟩ := hstep
      simp only [notedSystem, NotedBridge.notes, hnext]
      exact ⟨hnoted.notes _, hheld.step (handed_step hnext now)⟩
  | unauthenticated now =>
      simp only [notedSystem, NotedBridge.step] at hstep
      split at hstep
      · next hidle =>
        split at hstep
        · cases hstep
        · cases hstep
          refine ⟨hnoted.note _, hheld.step (.beat now ?_ ?_)⟩
          · rw [hidle]
            rfl
          · rw [hidle]
            rfl
      · cases hstep

/-! ## The report -/

theorem parseHeartbeat_formatTimestamp (platform : Platform) (beat : Option Datetime) :
    parseHeartbeat platform (beat.map formatTimestamp) = .ok (beat.map Datetime.truncate) := by
  cases beat with
  | none => rfl
  | some beat =>
      have htext : truthy (some (formatTimestamp beat)) = some (formatTimestamp beat) := rfl
      simp [parseHeartbeat, htext, parseTimestamp, fromIsoformat_formatTimestamp, Except.map]

/-- The worker beats: its last note is not older than the threshold. -/
def Beating (thresholdSeconds : Int) (now : Datetime) (past : List WorkerEvent) : Prop :=
  ∃ beat, lastBeat past = some beat ∧
    (now.micro : Int) - beat.truncate.micro ≤ thresholdSeconds * 1000000

/-- The record begun last is within the submission timeout, or was finished. -/
def Advancing (submissionTimeout : Int) (asked : Datetime) (past : List WorkerEvent) : Prop :=
  ∀ id started, lastRecord past = some (id, started) →
    max 0 ((asked.micro : Int) - started.micro) ≤ submissionTimeout * 1000000

theorem beating_iff {thresholdSeconds : Int} {now : Datetime} {past : List WorkerEvent} :
    (((lastBeat past).map Datetime.truncate).any fun lastHeartbeat =>
      decide ((now.micro : Int) - lastHeartbeat.micro ≤ thresholdSeconds * 1000000)) = true ↔
      Beating thresholdSeconds now past := by
  unfold Beating
  cases lastBeat past with
  | none => simp
  | some beat => simp

theorem advancing_iff {submissionTimeout : Int} {asked : Datetime} {past : List WorkerEvent} :
    ((((lastRecord past).map Prod.snd).map fun started =>
      max 0 ((asked.micro : Int) - started.micro)).any fun elapsed =>
        decide (submissionTimeout * 1000000 < elapsed)) = false ↔
      Advancing submissionTimeout asked past := by
  unfold Advancing
  cases lastRecord past with
  | none => simp
  | some begun =>
      obtain ⟨id, started⟩ := begun
      simp

/--
What the health report tells is so.  In every interleaving it names the last heartbeat and
the record in the hands of the worker, or else the one that an exception has ended last; it
counts every row of the queue; and it calls the worker healthy if and only if the thread
lives, has beaten within the threshold and has been in no record for longer than the
submission timeout, an abandoned record counting as one that it still is in.
-/
theorem worker_health_told {platform : Platform} {config : Config} {past : List WorkerEvent}
    {s : NotedBridge}
    (ran : (notedSystem platform config).Ran (notedSystem platform config).init past s)
    (thresholdSeconds : Int) (alive : Bool) (asked : Datetime) (db : Database)
    (now : Datetime) :
    ∃ report, s.health.healthSnapshot platform s.bridge.config.submissionTimeout
        thresholdSeconds alive asked db now = .ok report ∧
      report.workerLastHeartbeat = (lastBeat past).map formatTimestamp ∧
      report.workerCurrentMessageId = s.bridge.worker.current.or (abandonedRecord past) ∧
      (report.workerHealthy = true ↔ alive = true ∧ Beating thresholdSeconds now past ∧
        Advancing s.bridge.config.submissionTimeout asked past) ∧
      report.queueNewCount + report.queueProcessingCount + report.queueFailedCount +
        report.queueCompletedCount = db.mqttMessages.rows.length := by
  obtain ⟨hnoted, hheld⟩ := noted_of_ran ran
  simp only [WorkerHealth.healthSnapshot, hnoted.beat, hnoted.record, hnoted.started,
    parseHeartbeat_formatTimestamp]
  refine ⟨_, rfl, rfl, hheld.record, ?_, ?_⟩
  · rw [Bool.and_eq_true, Bool.and_eq_true, Bool.not_eq_true', beating_iff, advancing_iff,
      and_assoc]
  · have htotal := countStatus_total db
    simp only [queueCount_eq]
    omega

/-- A child that is not started leaves its record to the report. -/
def abandons : List NotedLabel :=
  (receives compactPayload ++ claims ++ [Label.next noon, .spawn false, .cycle]).map
    fun label => .step label noon

theorem worker_health_told_sample :
    ∃ past s report, (notedSystem samplePlatform sampleConfig).Ran
        (notedSystem samplePlatform sampleConfig).init past s ∧
      s.health.healthSnapshot samplePlatform s.bridge.config.submissionTimeout 300 true
        (atNoon 91) s.bridge.wal.data (atNoon 91) = .ok report ∧
      report.workerCurrentMessageId = some 1 ∧ report.workerHealthy = false := by
  have hrun : ((notedSystem samplePlatform sampleConfig).exec
      (notedSystem samplePlatform sampleConfig).init abandons).map (fun s =>
        (s.bridge.worker.current, s.bridge.config.submissionTimeout)) =
      some (none, 90) := by decide +kernel
  obtain ⟨s, hs, hvalues⟩ := Option.map_eq_some_iff.mp hrun
  simp only [Prod.mk.injEq] at hvalues
  have hpast : lastRecord ((notedSystem samplePlatform sampleConfig).trace
      (notedSystem samplePlatform sampleConfig).init abandons) = some (1, noon) ∧
      abandonedRecord ((notedSystem samplePlatform sampleConfig).trace
        (notedSystem samplePlatform sampleConfig).init abandons) = some 1 := by
    decide +kernel
  obtain ⟨report, hreport, -, hid, hhealthy, -⟩ := worker_health_told
    ⟨abandons, hs, rfl⟩ 300 true (atNoon 91) s.bridge.wal.data (atNoon 91)
  refine ⟨_, s, report, ⟨abandons, hs, rfl⟩, hreport, ?_, ?_⟩
  · rw [hid, hvalues.1, hpast.2]
    rfl
  · by_contra hwell
    have hadvancing := (hhealthy.mp (by simpa using hwell)).2.2 1 noon hpast.1
    rw [hvalues.2] at hadvancing
    exact absurd hadvancing (by decide +kernel)

end EdgeBridge
