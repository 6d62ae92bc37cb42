import EdgeBridge.Bridge.Threads

/-!
# Runs of the bridge

The events of a run, the inversion of one step, and the refinement: seen through
its database and the batch in the hands of the worker, every run of the threads
is a run of atomic transactions.
-/

namespace EdgeBridge

open Foundation

/-! ## Events -/

inductive BridgeEvent where
  | claimed (ids : List Nat)
  /-- The payload was handed to `_submit_with_hard_timeout`. -/
  | submitted (id : Nat)
  /-- The payload was rejected by `payload_from_record`. -/
  | rejected (id : Nat)
  | killed (id : Nat)
  /-- The submission returned a success with an ACK. -/
  | accepted (id : Nat) (ack : Text)
  | completed (event : Completed)
  | recovered (id : Nat)
  | published (id : Nat) (ack : Text)

/-- The events of a committed transaction. -/
def Job.events (platform : Platform) (db : Database) (now : Datetime) (job : Job) :
    Answer → List BridgeEvent
  | .claimed records => [.claimed (records.map MessageRecord.id)]
  | .recovered _ =>
      match job with
      | .recover staleBefore excludeIds =>
          (db.mqttMessages.select (isStale staleBefore excludeIds)).map
            fun row => .recovered row.id
      | _ => []
  | .done => (Ledger.completions platform db now job).map .completed
  | _ => []

def workerEvents (stopping : Bool) : WorkerState → Label → List BridgeEvent
  | .batch (record :: _), .next _ =>
      if stopping then []
      else if (payloadFromRecord record).isOk then [.submitted record.id]
      else [.rejected record.id]
  | .processing record _ (.submitting _ none _) _, .hardTimeout => [.killed record.id]
  | .processing record _ (.submitting _ none _) _, .stopKill _ => [.killed record.id]
  | .processing record _ (.submitting _ (some _) (.complete (.response response))) _,
      .collect =>
      ((extractAck response.value).map fun ack => .accepted record.id ack).toList
  | .processing record _ (.publishing ack) _, .publishAck => [.published record.id ack]
  | _, _ => []

def Bridge.observe (platform : Platform) (s : Bridge) : Label → List BridgeEvent
  | .commit thread now =>
      match s.job thread with
      | none => []
      | some job =>
          match job.run platform now s.wal.data with
          | .ok (answer, _) => job.events platform s.wal.data now answer
          | .error _ => []
  | .publishReplay =>
      match s.mqtt with
      | .publishing id _ ack => [.published id ack]
      | _ => []
  | label => workerEvents s.stopping s.worker label

def bridgeSystem (platform : Platform) (config : Config) :
    System Bridge Label BridgeEvent where
  init := .start config .empty
  step := Bridge.step platform
  observe := Bridge.observe platform

/-! ## The inversion of a step -/

/-- Everything that a step can do. -/
inductive Move (platform : Platform) (s : Bridge) : Label → Bridge → Prop
  | began (thread : Thread) (now : Datetime) (job : Job) :
      s.job thread = some job →
      s.wal.transaction thread = .idle →
      job.earlyAnswer platform now s.wal.data = none →
      job.readsFirst = true →
      Move platform s (.begin thread now) { s with wal := s.wal.read thread }
  | answered (thread : Thread) (now : Datetime) (job : Job)
      (result : Except PyError Answer) :
      s.job thread = some job →
      s.wal.transaction thread = .idle →
      job.earlyAnswer platform now s.wal.data = some result →
      Move platform s (.begin thread now) (s.resume thread result)
  | locked (thread : Thread) (job : Job) (wal : Wal Database Thread) :
      s.job thread = some job →
      (s.wal.transaction thread = .idle → job.readsFirst = false) →
      s.wal.lock thread = .granted wal →
      Move platform s (.lock thread) { s with wal := wal }
  | refused (thread : Thread) (job : Job) (version : Nat) (snapshot : Database) :
      s.job thread = some job →
      s.wal.transaction thread = .reading version snapshot →
      (∀ wal, s.wal.lock thread ≠ .granted wal) →
      Move platform s (.lock thread)
        ({ s with wal := s.wal.close thread }.resume thread (.error databaseIsLocked))
  | gaveUp (thread : Thread) (job : Job) :
      s.job thread = some job →
      s.wal.transaction thread = .idle →
      job.readsFirst = false →
      Move platform s (.giveUp thread) (s.resume thread (.error databaseIsLocked))
  | committed (thread : Thread) (now : Datetime) (job : Job) (answer : Answer)
      (db : Database) :
      s.job thread = some job →
      s.wal.transaction thread = .writing →
      job.run platform now s.wal.data = .ok (answer, db) →
      Move platform s (.commit thread now)
        ({ s with
          wal := if answer.wrote then s.wal.commit thread db
            else s.wal.close thread }.resume thread (.ok answer))
  | failed (thread : Thread) (now : Datetime) (job : Job) (error : PyError) :
      s.job thread = some job →
      s.wal.transaction thread = .writing →
      job.run platform now s.wal.data = .error error →
      Move platform s (.commit thread now)
        ({ s with wal := s.wal.close thread }.resume thread (.error error))
  | worker (label : Label) (worker : WorkerState) :
      label.thread = none →
      workerStep s.config s.stopping s.worker label = some worker →
      Move platform s label { s with worker := worker }
  | watch (now : Datetime) :
      s.watchdog = .idle → s.stopping = false →
      Move platform s (.watch now)
        { s with watchdog := watchState s.config s.worker now }
  | mqtt (label : Label) (mqtt : MqttState) :
      label.thread = none →
      mqttStep platform s.wal.data s.mqtt label = some mqtt →
      Move platform s label { s with mqtt := mqtt }
  | lifecycle (label : Label) (lifecycle : LifecycleState) :
      label.thread = none → s.lifecycle = .idle →
      Move platform s label { s with lifecycle := lifecycle }
  | audit (write : AuditWrite) :
      s.api = none → Move platform s (.audit write) { s with api := some write }
  | stopped : Move platform s .stop { s with stopping := true }
  | startedAgain : s.worker = .idle →
      Move platform s .startAgain { s with stopping := false }
  | restarted (config : Config) :
      Move platform s (.restart config) (.start config s.wal.data)

theorem Bridge.transactionStep_move {platform : Platform} {s t : Bridge} {job : Job}
    {label : Label} {thread : Thread} (hthread : label.thread = some thread)
    (hjob : s.job thread = some job)
    (h : s.transactionStep platform job label = some t) : Move platform s label t := by
  cases label with
  | begin c now =>
      cases hthread
      simp only [Bridge.transactionStep] at h
      split at h
      · next hidle =>
        split at h
        · next result hearly =>
          cases h
          exact .answered _ now job result hjob hidle hearly
        · next hearly =>
          split at h
          · next hreads =>
            cases h
            exact .began _ now job hjob hidle hearly hreads
          · cases h
      · cases h
  | lock c =>
      cases hthread
      simp only [Bridge.transactionStep] at h
      split at h
      · cases h
      · next hidle =>
        split at h
        · cases h
        · next hreads =>
          split at h
          · next wal hgranted =>
            cases h
            exact .locked _ job wal hjob (fun _ => by simpa using hreads) hgranted
          · cases h
      · next version snapshot hreading =>
        split at h
        · next wal hgranted =>
          cases h
          refine .locked _ job wal hjob ?_ hgranted
          intro hidle
          rw [hreading] at hidle
          cases hidle
        · next hrefused =>
          cases h
          exact .refused _ job version snapshot hjob hreading hrefused
  | giveUp c =>
      cases hthread
      simp only [Bridge.transactionStep] at h
      split at h
      · next hidle hblocked =>
        split at h
        · cases h
        · next hreads =>
          cases h
          exact .gaveUp _ job hjob hidle (by simpa using hreads)
      · cases h
  | commit c now =>
      cases hthread
      simp only [Bridge.transactionStep] at h
      split at h
      · next hwriting =>
        split at h
        · next answer db hrun =>
          cases h
          exact .committed _ now job answer db hjob hwriting hrun
        · next error hrun =>
          cases h
          exact .failed _ now job error hjob hwriting hrun
      · cases h
  | _ => cases hthread

theorem Bridge.localStep_move {platform : Platform} {s t : Bridge} {label : Label}
    (hthread : label.thread = none) (h : s.localStep platform label = some t) :
    Move platform s label t := by
  have hmqtt : ∀ {label : Label}, label.thread = none →
      (mqttStep platform s.wal.data s.mqtt label).map
        (fun mqtt => ({ s with mqtt := mqtt } : Bridge)) = some t →
      Move platform s label t := by
    intro label hlabel hstep
    rcases Option.map_eq_some_iff.mp hstep with ⟨mqtt, hmqtt, rfl⟩
    exact .mqtt label mqtt hlabel hmqtt
  have hworker : ∀ {label : Label}, label.thread = none →
      (workerStep s.config s.stopping s.worker label).map
        (fun worker => ({ s with worker := worker } : Bridge)) = some t →
      Move platform s label t := by
    intro label hlabel hstep
    rcases Option.map_eq_some_iff.mp hstep with ⟨worker, hworker, rfl⟩
    exact .worker label worker hlabel hworker
  cases label with
  | begin c now => cases hthread
  | lock c => cases hthread
  | giveUp c => cases hthread
  | commit c now => cases hthread
  | watch now =>
      simp only [Bridge.localStep] at h
      split at h
      · next hidle =>
        split at h
        · cases h
        · next hstopping =>
          cases h
          exact .watch now hidle (by simpa using hstopping)
      · cases h
  | cleanUp retentionDays batchSize =>
      simp only [Bridge.localStep] at h
      split at h
      · next hidle =>
        cases h
        exact .lifecycle _ _ rfl hidle
      · cases h
  | reconcileOnce limit =>
      simp only [Bridge.localStep] at h
      split at h
      · next hidle =>
        cases h
        exact .lifecycle _ _ rfl hidle
      · cases h
  | audit write =>
      simp only [Bridge.localStep] at h
      split at h
      · next hnone =>
        cases h
        exact .audit write (by simpa using hnone)
      · cases h
  | stop =>
      cases h
      exact .stopped
  | startAgain =>
      simp only [Bridge.localStep] at h
      split at h
      · next hidle hwatchdog =>
        cases h
        exact .startedAgain hidle
      · cases h
  | restart config =>
      cases h
      exact .restarted config
  | deliver topic payload => exact hmqtt rfl h
  | lookup => exact hmqtt rfl h
  | publishReplay => exact hmqtt rfl h
  | finishMessage => exact hmqtt rfl h
  | cycle => exact hworker rfl h
  | next now => exact hworker rfl h
  | spawn started => exact hworker rfl h
  | childOpens => exact hworker rfl h
  | childWrites result => exact hworker rfl h
  | childExits exitcode => exact hworker rfl h
  | hardTimeout => exact hworker rfl h
  | stopKill exitcode => exact hworker rfl h
  | collect => exact hworker rfl h
  | respond now => exact hworker rfl h
  | publishAck => exact hworker rfl h

theorem Bridge.step_move {platform : Platform} {s t : Bridge} {label : Label}
    (h : s.step platform label = some t) : Move platform s label t := by
  unfold Bridge.step at h
  split at h
  · next thread hthread =>
    split at h
    · next job hjob => exact Bridge.transactionStep_move hthread hjob h
    · cases h
  · next hthread => exact Bridge.localStep_move hthread h

/-! ## The inversion of the events -/

/-- Everything that a step can show. -/
inductive Shown (platform : Platform) (s : Bridge) : Label → BridgeEvent → Prop
  | claimed (thread : Thread) (now : Datetime) (job : Job) (records : List MessageRecord)
      (after : Database) :
      s.job thread = some job →
      job.run platform now s.wal.data = .ok (.claimed records, after) →
      Shown platform s (.commit thread now) (.claimed (records.map MessageRecord.id))
  | recovered (thread : Thread) (now : Datetime) (row : MessageRecord) :
      Shown platform s (.commit thread now) (.recovered row.id)
  | completed (thread : Thread) (now : Datetime) (event : Completed) :
      Shown platform s (.commit thread now) (.completed event)
  | submitted (now : Datetime) (record : MessageRecord) (rest : List MessageRecord) :
      s.worker = .batch (record :: rest) →
      Shown platform s (.next now) (.submitted record.id)
  | rejected (now : Datetime) (record : MessageRecord) (rest : List MessageRecord) :
      s.worker = .batch (record :: rest) →
      Shown platform s (.next now) (.rejected record.id)
  | timedOut {record lastAttemptAt startedAt result rest} :
      s.worker = .processing record lastAttemptAt (.submitting startedAt none result) rest →
      Shown platform s .hardTimeout (.killed record.id)
  | stopped {record lastAttemptAt startedAt result rest} (exitcode : Int) :
      s.worker = .processing record lastAttemptAt (.submitting startedAt none result) rest →
      Shown platform s (.stopKill exitcode) (.killed record.id)
  | accepted {record lastAttemptAt startedAt exitcode response rest} (ack : Text) :
      s.worker = .processing record lastAttemptAt
        (.submitting startedAt (some exitcode) (.complete (.response response))) rest →
      extractAck response.value = some ack →
      Shown platform s .collect (.accepted record.id ack)
  | published {record lastAttemptAt ack rest} :
      s.worker = .processing record lastAttemptAt (.publishing ack) rest →
      Shown platform s .publishAck (.published record.id ack)
  | replayed {id messageHash ack} :
      s.mqtt = .publishing id messageHash ack →
      Shown platform s .publishReplay (.published id ack)

theorem workerEvents_shown {platform : Platform} {s : Bridge} {label : Label}
    {event : BridgeEvent} (h : event ∈ workerEvents s.stopping s.worker label) :
    Shown platform s label event := by
  unfold workerEvents at h
  split at h
  · next record rest now hbatch =>
    split at h
    · cases h
    · split at h
      · cases List.mem_singleton.mp h
        exact .submitted now record rest hbatch
      · cases List.mem_singleton.mp h
        exact .rejected now record rest hbatch
  · next hsubmitting =>
    cases List.mem_singleton.mp h
    exact .timedOut hsubmitting
  · next exitcode hsubmitting =>
    cases List.mem_singleton.mp h
    exact .stopped exitcode hsubmitting
  · next hsubmitting =>
    simp only [Option.mem_toList, Option.map_eq_some_iff] at h
    obtain ⟨ack, hack, rfl⟩ := h
    exact .accepted ack hsubmitting hack
  · next hpublishing =>
    cases List.mem_singleton.mp h
    exact .published hpublishing
  · cases h

theorem Bridge.observe_shown {platform : Platform} {s : Bridge} {label : Label}
    {event : BridgeEvent} (h : event ∈ s.observe platform label) :
    Shown platform s label event := by
  cases label with
  | commit thread now =>
      simp only [Bridge.observe] at h
      split at h
      · cases h
      · next job hjob =>
        split at h
        · next answer after hrun =>
          unfold Job.events at h
          split at h
          · cases List.mem_singleton.mp h
            exact .claimed thread now job _ after hjob hrun
          · split at h
            · obtain ⟨row, -, rfl⟩ := List.mem_map.mp h
              exact .recovered thread now row
            · cases h
          · obtain ⟨completed, -, rfl⟩ := List.mem_map.mp h
            exact .completed thread now completed
          · cases h
        · cases h
  | publishReplay =>
      simp only [Bridge.observe] at h
      split at h
      · next hpublishing =>
        cases List.mem_singleton.mp h
        exact .replayed hpublishing
      · cases h
  | _ => exact workerEvents_shown h

/-! ## The worker's steps -/

/-- Everything that a step of the worker or of its child can do. -/
inductive WorkerMove (config : Config) (stopping : Bool) :
    WorkerState → Label → WorkerState → Prop
  | cycle : stopping = false → WorkerMove config stopping .idle .cycle .claiming
  | batchEnded (records : List MessageRecord) (now : Datetime) :
      WorkerMove config stopping (.batch records) (.next now) .idle
  | entered (record : MessageRecord) (rest : List MessageRecord) (now : Datetime) :
      stopping = false → (payloadFromRecord record).isOk = true →
      WorkerMove config stopping (.batch (record :: rest)) (.next now)
        (.processing record (formatTimestamp now) (.starting now) rest)
  | rejected (record : MessageRecord) (rest : List MessageRecord) (now : Datetime)
      (message : Text) :
      stopping = false → (payloadFromRecord record).isOk = false →
      WorkerMove config stopping (.batch (record :: rest)) (.next now)
        (.processing record (formatTimestamp now)
          (.failing (config.failure message (formatTimestamp now) none true)) rest)
  | spawned (record : MessageRecord) (lastAttemptAt : Text) (startedAt : Datetime)
      (rest : List MessageRecord) :
      WorkerMove config stopping
        (.processing record lastAttemptAt (.starting startedAt) rest) (.spawn true)
        (.processing record lastAttemptAt (.submitting startedAt none .absent) rest)
  | spawnFailed (record : MessageRecord) (lastAttemptAt : Text) (startedAt : Datetime)
      (rest : List MessageRecord) :
      WorkerMove config stopping
        (.processing record lastAttemptAt (.starting startedAt) rest) (.spawn false) .idle
  | childMoved (record : MessageRecord) (lastAttemptAt : Text) (startedAt : Datetime)
      (rest : List MessageRecord) (label : Label) (exitcode : Option Int)
      (before after : ResultFile) :
      (∀ code, label ≠ .stopKill code) → label ≠ .collect → label ≠ .hardTimeout →
      WorkerMove config stopping
        (.processing record lastAttemptAt (.submitting startedAt none before) rest) label
        (.processing record lastAttemptAt (.submitting startedAt exitcode after) rest)
  | stopKilled (record : MessageRecord) (lastAttemptAt : Text) (startedAt : Datetime)
      (rest : List MessageRecord) (exitcode : Int) (file : ResultFile) :
      stopping = true →
      WorkerMove config stopping
        (.processing record lastAttemptAt (.submitting startedAt none file) rest)
        (.stopKill exitcode)
        (.processing record lastAttemptAt (.submitting startedAt (some exitcode) file) rest)
  | timedOut (record : MessageRecord) (lastAttemptAt : Text) (startedAt : Datetime)
      (rest : List MessageRecord) (file : ResultFile) :
      WorkerMove config stopping
        (.processing record lastAttemptAt (.submitting startedAt none file) rest)
        .hardTimeout
        (.processing record lastAttemptAt
          (.failing (config.failure timeoutError lastAttemptAt none false)) rest)
  | collected (record : MessageRecord) (lastAttemptAt : Text) (startedAt : Datetime)
      (rest : List MessageRecord) (exitcode : Int) (file : ResultFile) :
      WorkerMove config stopping
        (.processing record lastAttemptAt (.submitting startedAt (some exitcode) file) rest)
        .collect
        (.ofStage record lastAttemptAt rest
          (collectResult config lastAttemptAt exitcode file))
  | classified (record : MessageRecord) (lastAttemptAt : Text)
      (rest : List MessageRecord) (response : OdooResponse) (now : Datetime) :
      WorkerMove config stopping
        (.processing record lastAttemptAt (.responded response) rest) (.respond now)
        (.ofStage record lastAttemptAt rest (classify config lastAttemptAt response now))
  | published (record : MessageRecord) (lastAttemptAt : Text)
      (rest : List MessageRecord) (ack : Text) :
      WorkerMove config stopping
        (.processing record lastAttemptAt (.publishing ack) rest) .publishAck (.batch rest)

theorem nextRecord_move {config : Config} {stopping : Bool} {now : Datetime}
    (records : List MessageRecord) :
    WorkerMove config stopping (.batch records) (.next now)
      (nextRecord config stopping now records) := by
  cases records with
  | nil => exact .batchEnded [] now
  | cons record rest =>
      simp only [nextRecord]
      split
      · exact .batchEnded _ now
      · next hstopping =>
        have hgoing : stopping = false := by simpa using hstopping
        split
        · next payload hpayload => exact .entered record rest now hgoing (by rw [hpayload]; rfl)
        · next error hpayload =>
          split
          · next message _ =>
            exact .rejected record rest now message hgoing (by rw [hpayload]; rfl)
          · exact .batchEnded _ now

theorem workerStep_move {config : Config} {stopping : Bool} {w w' : WorkerState}
    {label : Label} (h : workerStep config stopping w label = some w') :
    WorkerMove config stopping w label w' := by
  unfold workerStep at h
  split at h
  · split at h
    · cases h
    · next hstopping =>
      cases h
      exact .cycle (by simpa using hstopping)
  · cases h
    exact nextRecord_move _
  · next record lastAttemptAt startedAt rest started =>
    cases h
    cases started with
    | true => exact .spawned record lastAttemptAt startedAt rest
    | false => exact .spawnFailed record lastAttemptAt startedAt rest
  · cases h
    exact .childMoved _ _ _ _ _ none _ _ nofun nofun nofun
  · cases h
    exact .childMoved _ _ _ _ _ none _ _ nofun nofun nofun
  · next exitcode =>
    cases h
    exact .childMoved _ _ _ _ _ (some exitcode) _ _ nofun nofun nofun
  · split at h
    · next hstopping =>
      cases h
      exact .stopKilled _ _ _ _ _ _ hstopping
    · cases h
  · cases h
    exact .timedOut _ _ _ _ _
  · cases h
    exact .collected _ _ _ _ _ _
  · cases h
    exact .classified _ _ _ _ _
  · cases h
    exact .published _ _ _ _
  · cases h

end EdgeBridge
