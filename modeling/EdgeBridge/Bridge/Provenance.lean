import EdgeBridge.Bridge.Acks
import EdgeBridge.Bridge.Drain
import EdgeBridge.Foundation.Justified

/-!
# Where a submission and its ACK come from

What passes between the PLC, the bridge and Odoo in one run of the threads.  The link
from a payload to its row, from the row to the object that a child is given, from the
child to the ACK and from the ACK to the PLC is one of order: each event follows from
events before it.
-/

namespace EdgeBridge

open Foundation

/-! ## The events -/

inductive WireEvent where
  /-- `_on_message` is called. -/
  | delivered (topic : Text) (payload : Bytes)
  | stored (id : Nat) (topic rawPayload : Text)
  /-- A child has been started with this object. -/
  | sent (id : Nat) (payload : List (Text × PyValue))
  /-- The child has written a response of Odoo with this ACK, and has ended. -/
  | acknowledged (id : Nat) (ack : Text)
  | published (id : Nat) (ack : Text)

def workerWire : WorkerState → Label → List WireEvent
  | .processing record _ (.starting _) _, .spawn true =>
      match payloadFromRecord record with
      | .ok payload => [.sent record.id payload]
      | .error _ => []
  | .processing record _ (.submitting _ (some _) (.complete (.response response))) _,
      .collect =>
      ((extractAck response.value).map fun ack => .acknowledged record.id ack).toList
  | .processing record _ (.publishing ack) _, .publishAck => [.published record.id ack]
  | _, _ => []

def mqttWire (platform : Platform) (db : Database) : MqttState → Label → List WireEvent
  | .saving message, .commit .mqtt now =>
      match saveMessage platform message now db with
      | .ok (saved, _) =>
          if saved.inserted then [.stored saved.id message.topic message.rawPayload] else []
      | .error _ => []
  | .publishing id _ ack, .publishReplay => [.published id ack]
  | _, _ => []

def Bridge.wireEvents (platform : Platform) (s : Bridge) : Label → List WireEvent
  | .deliver topic payload => [.delivered topic payload]
  | label => workerWire s.worker label ++ mqttWire platform s.wal.data s.mqtt label

def wireSystem (platform : Platform) (config : Config) : System Bridge Label WireEvent where
  init := .start config .empty
  step := Bridge.step platform
  observe := Bridge.wireEvents platform

def WireEvent.storedId : WireEvent → Option Nat
  | .stored id _ _ => some id
  | _ => none

def WireEvent.sentPayload : WireEvent → Option (Nat × List (Text × PyValue))
  | .sent id payload => some (id, payload)
  | _ => none

/-- What the child that was started last has been given. -/
def lastSent (past : List WireEvent) : Option (Nat × List (Text × PyValue)) :=
  (past.filterMap WireEvent.sentPayload).getLast?

/-- What an event follows from. -/
def Follows (before : List WireEvent) : WireEvent → Prop
  | .delivered _ _ => True
  | .stored id topic rawPayload => id ∉ before.filterMap WireEvent.storedId ∧
      ∃ payload message, .delivered topic payload ∈ before ∧
        acceptedMessage topic payload = .ok message ∧ message.rawPayload = rawPayload
  | .sent id payload => ∃ topic rawPayload, .stored id topic rawPayload ∈ before ∧
      Json.loads rawPayload = .ok (.dict payload)
  | .acknowledged id _ => ∃ payload, lastSent before = some (id, payload)
  | .published id ack => .acknowledged id ack ∈ before

/-! ## What the parties know -/

section

variable {platform : Platform} {config : Config} {past : List WireEvent} {s t : Bridge}
  {label : Label}

def RecordStage.Follows (past : List WireEvent) (record : MessageRecord) : RecordStage → Prop
  | .starting _ => (payloadFromRecord record).isOk = true
  | .submitting _ _ _ => ∃ payload, lastSent past = some (record.id, payload)
  | .responded response => ∀ ack, extractAck response.value = some ack →
      .acknowledged record.id ack ∈ past
  | .failing _ => True
  | .completing acknowledged _ => .acknowledged record.id acknowledged.ack ∈ past
  | .publishing ack => .acknowledged record.id ack ∈ past

def CameIn (past : List WireEvent) (record : MessageRecord) : Prop :=
  .stored record.id record.topic record.rawPayload ∈ past

def WorkerState.Follows (past : List WireEvent) : WorkerState → Prop
  | .idle | .claiming => True
  | .batch records => ∀ record ∈ records, CameIn past record
  | .processing record _ stage rest =>
      (∀ other ∈ record :: rest, CameIn past other) ∧ stage.Follows past record

/-- The rows and what the callback has in hand. -/
structure RowsFollow (platform : Platform) (past : List WireEvent) (db : Database) : Prop where
  given : ∀ id ∈ past.filterMap WireEvent.storedId, id ≤ db.mqttMessages.seq
  stored : ∀ id row, db.message id = some row → CameIn past row
  completed : ∀ id row, db.message id = some row → row.status = .completed →
    ∀ ack, StoresAck platform row.odooResponse ack → .acknowledged id ack ∈ past

structure MqttFollows (past : List WireEvent) (mqtt : MqttState) : Prop where
  saving : ∀ message, mqtt = .saving message → ∃ payload,
    .delivered message.topic payload ∈ past ∧
      acceptedMessage message.topic payload = .ok message
  acking : ∀ id ack, mqtt.acking = some (id, ack) → .acknowledged id ack ∈ past

theorem lastSent_append {events : List WireEvent}
    (hunsent : events.filterMap WireEvent.sentPayload = []) :
    lastSent (past ++ events) = lastSent past := by
  rw [lastSent, List.filterMap_append, hunsent, List.append_nil]
  rfl

theorem RecordStage.Follows.append {record : MessageRecord} {stage : RecordStage}
    (h : stage.Follows past record) {events : List WireEvent}
    (hunsent : events.filterMap WireEvent.sentPayload = []) :
    stage.Follows (past ++ events) record := by
  cases stage with
  | starting _ => exact h
  | submitting _ _ _ =>
      obtain ⟨payload, hsent⟩ := h
      exact ⟨payload, (lastSent_append hunsent).trans hsent⟩
  | responded response => exact fun ack hack => List.mem_append_left _ (h ack hack)
  | failing _ => trivial
  | completing _ _ => exact List.mem_append_left _ h
  | publishing _ => exact List.mem_append_left _ h

theorem WorkerState.Follows.append {w : WorkerState} (h : w.Follows past)
    {events : List WireEvent} (hunsent : events.filterMap WireEvent.sentPayload = []) :
    w.Follows (past ++ events) := by
  cases w with
  | idle => trivial
  | claiming => trivial
  | batch records => exact fun record hrecord => List.mem_append_left _ (h record hrecord)
  | processing record _ stage rest =>
      exact ⟨fun other hother => List.mem_append_left _ (h.1 other hother),
        h.2.append hunsent⟩

theorem MqttFollows.append {mqtt : MqttState} (h : MqttFollows past mqtt)
    (events : List WireEvent) : MqttFollows (past ++ events) mqtt where
  saving := by
    intro message hmessage
    obtain ⟨payload, hdelivered, haccepted⟩ := h.saving message hmessage
    exact ⟨payload, List.mem_append_left _ hdelivered, haccepted⟩
  acking := fun id ack hacking => List.mem_append_left _ (h.acking id ack hacking)

/-! ## The worker -/

/-- A running child is not started again. -/
theorem workerWire_submitting {record : MessageRecord} {lastAttemptAt : Text}
    {startedAt : Datetime} {file : ResultFile} {rest : List MessageRecord} (label : Label) :
    workerWire (.processing record lastAttemptAt (.submitting startedAt none file) rest) label =
      [] := by
  unfold workerWire
  split
  · next hworker => cases hworker
  · next hworker => cases hworker
  · next hworker => cases hworker
  · rfl

theorem workerMove_follows {stopping : Bool} {w w' : WorkerState}
    (h : WorkerMove config stopping w label w') (hw : w.Follows past) :
    w'.Follows (past ++ workerWire w label) := by
  cases h with
  | cycle _ => trivial
  | batchEnded _ _ => trivial
  | entered record rest now _ hpayload =>
      exact ⟨fun other hother => List.mem_append_left _ (hw other hother), hpayload⟩
  | rejected record rest now message _ hpayload =>
      exact ⟨fun other hother => List.mem_append_left _ (hw other hother), trivial⟩
  | spawned record lastAttemptAt startedAt rest =>
      obtain ⟨hrecords, hpayload⟩ := hw
      refine ⟨fun other hother => List.mem_append_left _ (hrecords other hother), ?_⟩
      simp only [RecordStage.Follows] at hpayload
      cases hread : payloadFromRecord record with
      | error error =>
          rw [hread] at hpayload
          cases hpayload
      | ok payload => exact ⟨payload, by simp [lastSent, workerWire, hread, WireEvent.sentPayload]⟩
  | spawnFailed _ _ _ _ => trivial
  | childMoved _ _ _ _ _ _ _ _ _ _ _ =>
      exact WorkerState.Follows.append hw (by rw [workerWire_submitting]; rfl)
  | stopKilled _ _ _ _ _ _ _ =>
      exact WorkerState.Follows.append hw (by rw [workerWire_submitting]; rfl)
  | timedOut record lastAttemptAt startedAt rest file =>
      exact ⟨fun other hother => List.mem_append_left _ (hw.1 other hother), trivial⟩
  | collected record lastAttemptAt startedAt rest exitcode file =>
      have hrecords : ∀ other ∈ record :: rest, CameIn (past ++ workerWire
          (.processing record lastAttemptAt (.submitting startedAt (some exitcode) file) rest)
          .collect) other :=
        fun other hother => List.mem_append_left _ (hw.1 other hother)
      cases file with
      | absent => exact ⟨hrecords, trivial⟩
      | truncated => trivial
      | complete result =>
          cases result with
          | error error => exact ⟨hrecords, trivial⟩
          | response response =>
              refine ⟨hrecords, fun ack hack => List.mem_append_right _ ?_⟩
              simp [workerWire, hack]
  | classified record lastAttemptAt rest response now =>
      obtain ⟨hrecords, hresponse⟩ := hw
      have hkept : ∀ other ∈ record :: rest, CameIn (past ++ workerWire
          (.processing record lastAttemptAt (.responded response) rest) (.respond now)) other :=
        fun other hother => List.mem_append_left _ (hrecords other hother)
      unfold classify
      split
      · trivial
      · split
        · exact ⟨hkept, trivial⟩
        · split
          · exact ⟨hkept, trivial⟩
          · next ack hack => exact ⟨hkept, List.mem_append_left _ (hresponse ack hack)⟩
  | published record lastAttemptAt rest ack =>
      exact fun other hother =>
        List.mem_append_left _ (hw.1 other (List.mem_cons_of_mem _ hother))

theorem answered_follows {w : WorkerState} {answer : Answer} (hw : w.Follows past)
    (hclaimed : w = .claiming → ∀ records, answer = .claimed records →
      ∀ record ∈ records, CameIn past record) : (w.answered answer).Follows past := by
  unfold WorkerState.answered
  split
  · next records => exact hclaimed rfl records rfl
  · exact fun other hother => hw.1 other (List.mem_cons_of_mem _ hother)
  · exact hw
  · trivial

/-! ## The callback -/

theorem acceptedMessage_topic {topic : Text} {payload : Bytes} {message : IncomingMessage}
    (h : acceptedMessage topic payload = .ok message) : message.topic = topic := by
  unfold acceptedMessage at h
  obtain ⟨parsed, -, hmessage⟩ := bind_eq_ok.mp h
  cases hmessage
  rfl

/-- A message comes into the hands of the callback by its delivery. -/
theorem mqttStep_delivers {db : Database} {state : MqttState} {message : IncomingMessage}
    (h : mqttStep platform db state label = some (.saving message)) :
    ∃ payload, label = .deliver message.topic payload ∧
      acceptedMessage message.topic payload = .ok message := by
  unfold mqttStep at h
  split at h
  · split at h
    · next accepted haccepted =>
      cases h
      rw [acceptedMessage_topic haccepted]
      exact ⟨_, rfl, haccepted⟩
    · cases h
  · split at h
    · exact absurd (Option.some.inj h) replayState_not_saving
    · cases h
  · split at h
    · exact absurd (Option.some.inj h) replayState_not_saving
    · cases h
  · cases h
  · cases h
  · cases h

theorem mqttFollows_step (hrows : RowsFollow platform past s.wal.data)
    (h : MqttFollows past s.mqtt) (hstep : s.step platform label = some t) :
    MqttFollows (past ++ s.wireEvents platform label) t.mqtt where
  saving := by
    intro message hsaving
    have hkept : s.mqtt = .saving message → ∃ payload,
        .delivered message.topic payload ∈ past ++ s.wireEvents platform label ∧
          acceptedMessage message.topic payload = .ok message :=
      (h.append _).saving message
    cases Bridge.step_move hstep with
    | answered | refused | gaveUp | committed | failed => exact hkept (resume_saving hsaving)
    | mqtt _ mqtt hlabel hmqtt =>
        simp only at hsaving
        obtain ⟨payload, rfl, haccepted⟩ := mqttStep_delivers (hsaving ▸ hmqtt)
        exact ⟨payload, List.mem_append_right _ (by simp [Bridge.wireEvents]), haccepted⟩
    | restarted => cases hsaving
    | _ => exact hkept hsaving
  acking := by
    intro id ack hacking
    apply List.mem_append_left
    rcases mqtt_acking_step hstep hacking with hkept | ⟨row, hrow, hstatus, hstores⟩
    · exact h.acking id ack hkept
    · exact hrows.completed id row hrow hstatus ack hstores

/-! ## The rows -/

theorem thread_of_save {thread : Thread} {message : IncomingMessage}
    (h : s.job thread = some (.save message)) : thread = .mqtt := by
  cases thread with
  | mqtt => rfl
  | worker => cases workerJob_of_job h
  | watchdog | lifecycle =>
      simp only [Bridge.job] at h
      split at h <;> cases h
  | api =>
      obtain ⟨write, -, heq⟩ := Option.map_eq_some_iff.mp h
      cases heq

theorem mem_wireEvents_stored {id : Nat} {topic rawPayload : Text}
    (h : .stored id topic rawPayload ∈ s.wireEvents platform label) :
    ∃ now message saved after, label = .commit .mqtt now ∧ s.mqtt = .saving message ∧
      saveMessage platform message now s.wal.data = .ok (saved, after) ∧
      saved.inserted = true ∧ saved.id = id ∧ message.topic = topic ∧
      message.rawPayload = rawPayload := by
  have hmem : .stored id topic rawPayload ∈ workerWire s.worker label ++
      mqttWire platform s.wal.data s.mqtt label := by
    unfold Bridge.wireEvents at h
    split at h
    · simp at h
    · exact h
  rcases List.mem_append.mp hmem with hworker | hmqtt
  · unfold workerWire at hworker
    split at hworker
    · split at hworker <;> simp at hworker
    · simp at hworker
    · simp at hworker
    · simp at hworker
  · unfold mqttWire at hmqtt
    split at hmqtt
    · next message now hsaving =>
      split at hmqtt
      · next saved after hsave =>
        split at hmqtt
        · next hinserted =>
          simp only [List.mem_singleton, WireEvent.stored.injEq] at hmqtt
          obtain ⟨rfl, rfl, rfl⟩ := hmqtt
          exact ⟨now, message, saved, after, rfl, hsaving, hsave, hinserted, rfl, rfl, rfl⟩
        · simp at hmqtt
      · simp at hmqtt
    · simp at hmqtt
    · simp at hmqtt

/-- The commit that adds a row. -/
theorem stored_commit (hstep : s.step platform label = some t) {id : Nat}
    {topic rawPayload : Text} (h : .stored id topic rawPayload ∈ s.wireEvents platform label) :
    ∃ now message saved, label = .commit .mqtt now ∧ s.mqtt = .saving message ∧
      saveMessage platform message now s.wal.data = .ok (saved, t.wal.data) ∧
      saved.inserted = true ∧ saved.id = id ∧ message.topic = topic ∧
      message.rawPayload = rawPayload := by
  obtain ⟨now, message, saved, after, rfl, hsaving, hsave, hinserted, hid, htopic, htext⟩ :=
    mem_wireEvents_stored h
  refine ⟨now, message, saved, rfl, hsaving, ?_, hinserted, hid, htopic, htext⟩
  have hjobOf : s.job .mqtt = some (.save message) := by simp [Bridge.job, hsaving]
  cases Bridge.step_move hstep with
  | committed _ _ job answer db hjob hwriting hrun =>
      obtain rfl := Option.some.inj (hjobOf.symm.trans hjob)
      obtain ⟨⟨saved', after'⟩, hsave', heq⟩ := map_eq_ok.mp hrun
      cases heq
      rw [hsave] at hsave'
      cases hsave'
      rw [resume_wal]
      simp [Answer.wrote, hinserted, hsave]
  | failed _ _ job error hjob hwriting hrun =>
      obtain rfl := Option.some.inj (hjobOf.symm.trans hjob)
      simp [Job.run, hsave, Except.map] at hrun
  | worker _ _ hlabel _ => cases hlabel
  | mqtt _ _ hlabel _ => cases hlabel
  | lifecycle _ _ hlabel _ => cases hlabel

theorem seq_step (hstep : s.step platform label = some t) :
    s.wal.data.mqttMessages.seq ≤ t.wal.data.mqttMessages.seq :=
  data_step_preserve (P := fun db => s.wal.data.mqttMessages.seq ≤ db.mqttMessages.seq)
    (Nat.le_refl _) hstep fun _ _ hrun => (Job.tables hrun).1

theorem mem_storedIds {id : Nat} {events : List WireEvent} :
    id ∈ events.filterMap WireEvent.storedId ↔
      ∃ topic rawPayload, .stored id topic rawPayload ∈ events := by
  rw [List.mem_filterMap]
  constructor
  · rintro ⟨event, hevent, hid⟩
    cases event with
    | stored other topic rawPayload =>
        cases hid
        exact ⟨topic, rawPayload, hevent⟩
    | _ => cases hid
  · rintro ⟨topic, rawPayload, hevent⟩
    exact ⟨_, hevent, rfl⟩

/-- A row keeps the identity that it was stored with. -/
theorem RowChange.cameIn {now : Datetime} {seq id : Nat} {job : Job} {answer : Answer}
    {before : Option MessageRecord} {row : MessageRecord}
    (h : RowChange now seq id job answer before (some row))
    (hbefore : ∀ old, before = some old → CameIn past old)
    (hsaved : ∀ message saved, job = .save message → answer = .saved saved → saved.id = id →
      before = none → .stored id message.topic message.rawPayload ∈ past) :
    CameIn past row := by
  generalize hnext : some row = next at h
  cases h with
  | kept => exact hbefore row hnext.symm
  | created messageHash hid hsavedId hbindable =>
      cases hnext
      exact hsaved _ _ rfl rfl hsavedId rfl
  | claimed old | completed old | failed old | recovered old | replayed old =>
      cases hnext
      exact hbefore old rfl
  | deleted => cases hnext

/-- A row is completed with the response of its submission. -/
theorem RowChange.acknowledged {now : Datetime} {seq id : Nat} {job : Job} {answer : Answer}
    {before : Option MessageRecord} {row : MessageRecord} {ack : Text}
    (h : RowChange now seq id job answer before (some row)) (hstatus : row.status = .completed)
    (hstores : StoresAck platform row.odooResponse ack)
    (hbefore : ∀ old, before = some old → old.status = .completed →
      StoresAck platform old.odooResponse ack → .acknowledged id ack ∈ past)
    (hcompleted : ∀ arguments, job = .complete id arguments →
      StoresAck platform (some arguments.odooResponse) ack → .acknowledged id ack ∈ past) :
    .acknowledged id ack ∈ past := by
  generalize hnext : some row = next at h
  cases h with
  | kept => exact hbefore row hnext.symm hstatus hstores
  | created | claimed | failed | recovered =>
      cases hnext
      cases hstatus
  | completed old metadata =>
      cases hnext
      exact hcompleted _ rfl hstores
  | replayed old =>
      cases hnext
      exact hbefore old rfl hstatus hstores
  | deleted => cases hnext

theorem rowsFollow_step (hworker : s.worker.Follows past)
    (h : RowsFollow platform past s.wal.data) (hstep : s.step platform label = some t) :
    RowsFollow platform (past ++ s.wireEvents platform label) t.wal.data where
  given := by
    intro id hid
    rw [List.filterMap_append, List.mem_append] at hid
    rcases hid with hold | hnew
    · exact (h.given id hold).trans (seq_step hstep)
    · obtain ⟨topic, rawPayload, hstored⟩ := mem_storedIds.mp hnew
      obtain ⟨now, message, saved, -, -, hsave, hinserted, rfl, -⟩ := stored_commit hstep hstored
      rcases (saveMessage_cases hsave).2 with ⟨-, hfound, -⟩ | ⟨-, -, hid, hinsert, -⟩
      · rw [hfound] at hinserted
        cases hinserted
      · exact message_le_seq (by
          rw [Database.message, Table.byId_insert hinsert, if_pos hid])
  stored := by
    intro id row hrow
    cases Bridge.step_effect hstep with
    | quiet hdata => exact List.mem_append_left _ (h.stored id row (hdata ▸ hrow))
    | restarted config _ ht =>
        rw [ht] at hrow
        exact List.mem_append_left _ (h.stored id row hrow)
    | wrote thread now job answer hlabel hjob hrun =>
        have hchange := Job.rowChange hrun id
        rw [hrow] at hchange
        refine hchange.cameIn (fun old hold => List.mem_append_left _ (h.stored id old hold)) ?_
        rintro message saved rfl rfl rfl hnone
        apply List.mem_append_right
        obtain rfl := thread_of_save hjob
        obtain ⟨⟨saved', after⟩, hsave, heq⟩ := map_eq_ok.mp hrun
        cases heq
        have hinserted : saved'.inserted = true := by
          rcases (saveMessage_cases hsave).2 with ⟨-, -, old, hold, hid, -⟩ | ⟨-, hinserted, -⟩
          · rw [← hid, message_of_mem hold] at hnone
            cases hnone
          · exact hinserted
        simp [hlabel, Bridge.wireEvents, mqttWire, saving_of_job hjob, hsave, hinserted]
  completed := by
    intro id row hrow hstatus ack hstores
    apply List.mem_append_left
    cases Bridge.step_effect hstep with
    | quiet hdata => exact h.completed id row (hdata ▸ hrow) hstatus ack hstores
    | restarted config _ ht =>
        rw [ht] at hrow
        exact h.completed id row hrow hstatus ack hstores
    | wrote thread now job answer hlabel hjob hrun =>
        have hchange := Job.rowChange hrun id
        rw [hrow] at hchange
        refine hchange.acknowledged hstatus hstores
          (fun old hold hdone hold' => h.completed id old hold hdone ack hold') ?_
        rintro arguments rfl hgiven
        have hthread : thread = .worker := by
          by_contra hother
          exact (job_of_ne_worker hother hjob).2.2.1 _ _ rfl
        subst hthread
        generalize hown : Job.complete id arguments = own at hjob
        cases workerJob_of_job hjob with
        | claiming => cases hown
        | failing => cases hown
        | completing record lastAttemptAt acknowledged completedAt rest hcompleting =>
            cases hown
            rw [hcompleting] at hworker
            obtain ⟨entries, -, hparse, -, hack⟩ := parseStored_of_dumpResponse platform
              acknowledged.dumped acknowledged.extracted
            rw [← hgiven.unique hparse hack]
            exact hworker.2

/-! ## One step -/

theorem mqttWire_unsent (db : Database) (mqtt : MqttState) (label : Label) :
    (mqttWire platform db mqtt label).filterMap WireEvent.sentPayload = [] := by
  unfold mqttWire
  split
  · split
    · split <;> rfl
    · rfl
  · rfl
  · rfl

theorem workerWire_unsent (w : WorkerState) (h : label ≠ .spawn true) :
    (workerWire w label).filterMap WireEvent.sentPayload = [] := by
  unfold workerWire
  split
  · exact absurd rfl h
  · next response rest => cases extractAck response.value <;> rfl
  · rfl
  · rfl

theorem wire_unsent (h : label ≠ .spawn true) :
    (s.wireEvents platform label).filterMap WireEvent.sentPayload = [] := by
  unfold Bridge.wireEvents
  split
  · rfl
  · rw [List.filterMap_append, workerWire_unsent _ h, mqttWire_unsent]
    rfl

theorem workerFollows_worker {worker : WorkerState} (h : s.worker.Follows past)
    (hworker : workerStep s.config s.stopping s.worker label = some worker) :
    worker.Follows (past ++ s.wireEvents platform label) := by
  have hmoved : worker.Follows (past ++ workerWire s.worker label) :=
    workerMove_follows (workerStep_move hworker) h
  cases label with
  | deliver topic payload => simp [workerStep] at hworker
  | _ =>
      simp only [Bridge.wireEvents, ← List.append_assoc]
      exact hmoved.append (mqttWire_unsent _ _ _)

/-- A step of another thread starts no child. -/
theorem workerFollows_step (hrows : RowsFollow platform past s.wal.data)
    (h : s.worker.Follows past) (hstep : s.step platform label = some t) :
    t.worker.Follows (past ++ s.wireEvents platform label) := by
  by_cases hspawn : label = .spawn true
  · subst hspawn
    obtain ⟨worker, hworker, rfl⟩ := Option.map_eq_some_iff.mp hstep
    exact workerFollows_worker h hworker
  have hunsent : (s.wireEvents platform label).filterMap WireEvent.sentPayload = [] :=
    wire_unsent hspawn
  have herror : ∀ (wal : Wal Database Thread) thread error,
      (({ s with wal := wal } : Bridge).resume thread (.error error)).worker.Follows past := by
    intro wal thread error
    by_cases hthread : thread = .worker
    · subst hthread
      trivial
    · rw [resume_worker_of_ne _ _ hthread]
      exact h
  cases Bridge.step_move hstep with
  | answered thread now job result hjob hidle hearly =>
      refine WorkerState.Follows.append ?_ hunsent
      cases result with
      | error error => exact herror s.wal thread error
      | ok answer =>
          by_cases hthread : thread = .worker
          · subst hthread
            refine answered_follows h fun hclaiming records hanswer => ?_
            simp only [Bridge.job, hclaiming, Option.some.injEq] at hjob
            subst hjob
            subst hanswer
            simp only [Job.earlyAnswer, Option.ite_none_right_eq_some, Option.some.injEq,
              Except.ok.injEq, Answer.claimed.injEq] at hearly
            simp [← hearly.2]
          · rw [resume_worker_of_ne _ _ hthread]
            exact h
  | refused thread => exact (herror _ thread _).append hunsent
  | gaveUp thread => exact (herror s.wal thread _).append hunsent
  | failed thread => exact (herror _ thread _).append hunsent
  | committed thread now job answer db hjob hwriting hrun =>
      refine WorkerState.Follows.append ?_ hunsent
      by_cases hthread : thread = .worker
      · subst hthread
        refine answered_follows h fun hclaiming records hanswer record hrecord => ?_
        have hclaiming' : s.worker = .claiming := hclaiming
        simp only [Bridge.job, hclaiming', Option.some.injEq] at hjob
        subst hjob
        subst hanswer
        obtain ⟨⟨records', after⟩, hclaim, heq⟩ := map_eq_ok.mp hrun
        cases heq
        obtain ⟨-, -, -, hin, -⟩ := claimPendingMessages_eq_ok hclaim
        obtain ⟨row, hrow, -, heq, -⟩ := hin record hrecord
        rw [heq]
        exact hrows.stored record.id row hrow
      · rw [resume_worker_of_ne _ _ hthread]
        exact h
  | worker label worker hlabel hworker => exact workerFollows_worker h hworker
  | restarted => trivial
  | _ => exact h.append hunsent

theorem payloadFromRecord_loads {record : MessageRecord} {payload : List (Text × PyValue)}
    (h : payloadFromRecord record = .ok payload) :
    Json.loads record.rawPayload = .ok (.dict payload) := by
  have hfields : ∀ {fields : List (Text × PyValue)}, payloadFields fields = .ok payload →
      fields = payload := by
    intro fields hfields
    unfold payloadFields at hfields
    split at hfields
    · split at hfields
      · cases hfields
      · split at hfields
        · split at hfields
          · cases hfields
            rfl
          · cases hfields
        · cases hfields
    · cases hfields
  unfold payloadFromRecord at h
  split at h
  · next fields hloads =>
    rw [hloads, hfields h]
  · cases h
  · cases h
  · cases h

theorem workerWire_follows {w : WorkerState} (h : w.Follows past) :
    ∀ event ∈ workerWire w label, Follows past event := by
  intro event hevent
  unfold workerWire at hevent
  split at hevent
  · next record lastAttemptAt startedAt rest =>
    split at hevent
    · next payload hread =>
      cases List.mem_singleton.mp hevent
      exact ⟨record.topic, record.rawPayload, h.1 record List.mem_cons_self,
        payloadFromRecord_loads hread⟩
    · cases hevent
  · simp only [Option.mem_toList, Option.map_eq_some_iff] at hevent
    obtain ⟨ack, -, rfl⟩ := hevent
    exact h.2
  · cases List.mem_singleton.mp hevent
    exact h.2
  · cases hevent

theorem mqttWire_follows (hrows : RowsFollow platform past s.wal.data)
    (h : MqttFollows past s.mqtt) :
    ∀ event ∈ mqttWire platform s.wal.data s.mqtt label, Follows past event := by
  intro event hevent
  unfold mqttWire at hevent
  split at hevent
  · next message now hsaving =>
    split at hevent
    · next saved after hsave =>
      split at hevent
      · next hinserted =>
        cases List.mem_singleton.mp hevent
        obtain ⟨payload, hdelivered, haccepted⟩ := h.saving message hsaving
        refine ⟨fun hknown => ?_, payload, message, hdelivered, haccepted, rfl⟩
        have hgiven := hrows.given _ hknown
        rcases (saveMessage_cases hsave).2 with ⟨-, hfound, -⟩ | ⟨-, -, hid, -⟩
        · rw [hfound] at hinserted
          cases hinserted
        · omega
      · cases hevent
    · cases hevent
  · next id messageHash ack hpublishing =>
    cases List.mem_singleton.mp hevent
    exact h.acking id ack (by rw [hpublishing]; rfl)
  · cases hevent

theorem workerWire_length (w : WorkerState) (label : Label) :
    (workerWire w label).length ≤ 1 := by
  unfold workerWire
  split
  · split <;> simp
  · next response rest => cases extractAck response.value <;> simp
  · simp
  · simp

theorem mqttWire_length (db : Database) (mqtt : MqttState) (label : Label) :
    (mqttWire platform db mqtt label).length ≤ 1 := by
  unfold mqttWire
  split
  · split
    · split <;> simp
    · simp
  · simp
  · simp

/-- A step is one of the worker or one of the callback. -/
theorem wire_of_one (w : WorkerState) (db : Database) (mqtt : MqttState) (label : Label) :
    workerWire w label = [] ∨ mqttWire platform db mqtt label = [] := by
  cases label with
  | spawn | collect | publishAck => exact .inr (by cases mqtt <;> rfl)
  | _ =>
      left
      unfold workerWire
      split <;> first | rfl | contradiction

theorem wire_justified (hworker : s.worker.Follows past)
    (hrows : RowsFollow platform past s.wal.data) (hmqtt : MqttFollows past s.mqtt) :
    Justified (fun between event => Follows (past ++ between) event)
      (s.wireEvents platform label) := by
  have hboth : Justified (fun between event => Follows (past ++ between) event)
      (workerWire s.worker label ++ mqttWire platform s.wal.data s.mqtt label) := by
    have hevents : ∀ event ∈ workerWire s.worker label ++
        mqttWire platform s.wal.data s.mqtt label, Follows (past ++ []) event := by
      rw [List.append_nil]
      intro event hevent
      rcases List.mem_append.mp hevent with hevent | hevent
      · exact workerWire_follows hworker event hevent
      · exact mqttWire_follows hrows hmqtt event hevent
    refine justified_of_length_le_one ?_ hevents
    have hone : workerWire s.worker label = [] ∨
        mqttWire platform s.wal.data s.mqtt label = [] := wire_of_one _ _ _ _
    rcases hone with hnone | hnone
    · rw [hnone, List.nil_append]
      exact mqttWire_length _ _ _
    · rw [hnone, List.append_nil]
      exact workerWire_length _ _
  cases label with
  | deliver topic payload => exact justified_singleton trivial
  | _ => exact hboth

/-! ## Every run -/

theorem rowsFollow_empty : RowsFollow platform [] .empty where
  given := by
    intro id hid
    cases hid
  stored := by
    intro id row hrow
    cases hrow
  completed := by
    intro id row hrow
    cases hrow

theorem mqttFollows_idle : MqttFollows [] .idle where
  saving := by
    intro message hmessage
    cases hmessage
  acking := by
    intro id ack hacking
    cases hacking

theorem wire_of_ran
    (ran : (wireSystem platform config).Ran (wireSystem platform config).init past s) :
    Justified Follows past := by
  let Kept (past : List WireEvent) (s : Bridge) : Prop :=
    (s.worker.Follows past ∧ RowsFollow platform past s.wal.data ∧ MqttFollows past s.mqtt) ∧
      Justified Follows past
  have hstart : Kept [] (wireSystem platform config).init :=
    ⟨⟨trivial, rowsFollow_empty, mqttFollows_idle⟩, justified_nil⟩
  refine ((wireSystem platform config).trace_invariant (I := Kept) hstart ?_ ran).2
  rintro past m label t - ⟨⟨hworker, hrows, hmqtt⟩, hjustified⟩ hstep
  exact ⟨⟨workerFollows_step hrows hworker hstep, rowsFollow_step hworker hrows hstep,
    mqttFollows_step hrows hmqtt hstep⟩,
    hjustified.append (wire_justified hworker hrows hmqtt)⟩

/-! ## From the PLC to Odoo and back -/

theorem stored_traced {id : Nat} {topic rawPayload : Text} (h : Justified Follows past)
    (hstored : .stored id topic rawPayload ∈ past) :
    ∃ payload message, [.delivered topic payload, .stored id topic rawPayload].Sublist past ∧
      acceptedMessage topic payload = .ok message ∧ message.rawPayload = rawPayload := by
  obtain ⟨before, after, rfl⟩ := List.append_of_mem hstored
  obtain ⟨-, payload, message, hdelivered, haccepted, htext⟩ := h before _ after rfl
  refine ⟨payload, message, ?_, haccepted, htext⟩
  exact (List.singleton_sublist.mpr hdelivered).append (List.singleton_sublist.mpr (by simp))

theorem storedIds_nodup (h : Justified Follows past) :
    (past.filterMap WireEvent.storedId).Nodup := by
  induction past using List.reverseRecOn with
  | nil => simp
  | append_singleton past event ih =>
      rw [List.filterMap_append]
      cases event with
      | stored id topic rawPayload =>
          have hnew := (h past _ [] rfl).1
          refine List.nodup_append.mpr ⟨ih h.left, by simp [WireEvent.storedId], ?_⟩
          rintro other hother new hid rfl
          simp only [List.filterMap_cons, List.filterMap_nil, WireEvent.storedId,
            List.mem_singleton] at hid
          exact hnew (hid ▸ hother)
      | _ =>
          simp only [List.filterMap_cons, List.filterMap_nil, WireEvent.storedId,
            List.append_nil]
          exact ih h.left

/-- The object is the JSON object of a message that the PLC has delivered. -/
def SentFrom (message : IncomingMessage) (topic : Text) (payload : Bytes)
    (fields : List (Text × PyValue)) : Prop :=
  acceptedMessage topic payload = .ok message ∧
    Utf8.decode payload = some message.rawPayload ∧
    Json.loads message.rawPayload = .ok (.dict fields)

theorem sent_traced {id : Nat} {fields : List (Text × PyValue)} (h : Justified Follows past)
    (hsent : .sent id fields ∈ past) :
    ∃ topic payload message, [.delivered topic payload, .stored id topic message.rawPayload,
        .sent id fields].Sublist past ∧ SentFrom message topic payload fields := by
  obtain ⟨before, after, rfl⟩ := List.append_of_mem hsent
  obtain ⟨topic, rawPayload, hstored, hloads⟩ := h before _ after rfl
  obtain ⟨payload, message, hsublist, haccepted, rfl⟩ := stored_traced h.left hstored
  obtain ⟨-, hdecode, -⟩ := acceptedMessage_eq_ok haccepted
  exact ⟨topic, payload, message, hsublist.append (List.singleton_sublist.mpr (by simp)),
    haccepted, hdecode, hloads⟩

theorem sent_of_lastSent {id : Nat} {fields : List (Text × PyValue)}
    (h : lastSent past = some (id, fields)) : .sent id fields ∈ past := by
  obtain ⟨event, hevent, heq⟩ := List.mem_filterMap.mp (List.mem_of_getLast? h)
  cases event with
  | sent other payload =>
      cases heq
      exact hevent
  | _ => cases heq

/-- The ACK is that of the last child, and no other one was started in between. -/
theorem acknowledged_traced {id : Nat} {ack : Text} (h : Justified Follows past)
    (hacknowledged : .acknowledged id ack ∈ past) :
    ∃ fields before between after, past = before ++ .sent id fields ::
        (between ++ .acknowledged id ack :: after) ∧
      ∀ event ∈ between, event.sentPayload = none := by
  obtain ⟨first, after, rfl⟩ := List.append_of_mem hacknowledged
  obtain ⟨fields, hlast⟩ := h first _ after rfl
  obtain ⟨before, event, between, rfl, hevent, hbetween⟩ := last_selected hlast
  cases event with
  | sent other payload =>
      cases hevent
      exact ⟨fields, before, between, after, by simp, hbetween⟩
  | _ => cases hevent

theorem published_traced {id : Nat} {ack : Text} (h : Justified Follows past)
    (hpublished : .published id ack ∈ past) :
    ∃ topic payload message fields, [.delivered topic payload,
        .stored id topic message.rawPayload, .sent id fields, .acknowledged id ack,
        .published id ack].Sublist past ∧ SentFrom message topic payload fields := by
  obtain ⟨before, after, rfl⟩ := List.append_of_mem hpublished
  have hacknowledged := h before _ after rfl
  obtain ⟨first, between, rfl⟩ := List.append_of_mem hacknowledged
  obtain ⟨fields, hlast⟩ := h.left first _ between rfl
  obtain ⟨topic, payload, message, hsublist, hfrom⟩ :=
    sent_traced h.left.left (sent_of_lastSent hlast)
  refine ⟨topic, payload, message, fields, ?_, hfrom⟩
  exact (hsublist.append (List.singleton_sublist.mpr (by simp) :
    [WireEvent.acknowledged id ack].Sublist (.acknowledged id ack :: between))).append
      (List.singleton_sublist.mpr (by simp))

/--
Nothing is made up on the way.  In every interleaving, with crashes, restarts and cleanups,
an id is given to one message only; the object that a child is started with is the JSON
object of a payload that was delivered and then stored under that id; an ACK is read from
the child that was started last, which had the object of the same id; and each ACK sent to
the PLC closes such a chain: delivered, stored, sent, acknowledged and only then published.
-/
theorem bridge_traced
    (ran : (wireSystem platform config).Ran (wireSystem platform config).init past s) :
    (past.filterMap WireEvent.storedId).Nodup ∧
      (∀ id fields, .sent id fields ∈ past → ∃ topic payload message,
        [.delivered topic payload, .stored id topic message.rawPayload,
          .sent id fields].Sublist past ∧ SentFrom message topic payload fields) ∧
      (∀ id ack, .acknowledged id ack ∈ past → ∃ fields before between after,
        past = before ++ .sent id fields :: (between ++ .acknowledged id ack :: after) ∧
          ∀ event ∈ between, event.sentPayload = none) ∧
      ∀ id ack, .published id ack ∈ past → ∃ topic payload message fields,
        [.delivered topic payload, .stored id topic message.rawPayload, .sent id fields,
          .acknowledged id ack, .published id ack].Sublist past ∧
        SentFrom message topic payload fields := by
  have hjustified := wire_of_ran ran
  exact ⟨storedIds_nodup hjustified, fun id fields hsent => sent_traced hjustified hsent,
    fun id ack hacknowledged => acknowledged_traced hjustified hacknowledged,
    fun id ack hpublished => published_traced hjustified hpublished⟩

end

def WireEvent.publishedAck : WireEvent → Option (Nat × Text)
  | .published id ack => some (id, ack)
  | _ => none

theorem bridge_traced_sample :
    ∃ past s topic payload message fields,
      (wireSystem samplePlatform sampleConfig).Ran
        (wireSystem samplePlatform sampleConfig).init past s ∧
      [.delivered topic payload, .stored 1 topic message.rawPayload, .sent 1 fields,
        .acknowledged 1 (str "A1"), .published 1 (str "A1")].Sublist past ∧
      SentFrom message topic payload fields := by
  have hrun : ((wireSystem samplePlatform sampleConfig).exec
      (wireSystem samplePlatform sampleConfig).init acknowledgedTwice).map (fun s =>
        s.worker.held) = some [] := by decide +kernel
  have hshown : ((wireSystem samplePlatform sampleConfig).trace
      (wireSystem samplePlatform sampleConfig).init acknowledgedTwice).filterMap
        WireEvent.publishedAck = [(1, str "A1")] := by decide +kernel
  obtain ⟨s, hs, -⟩ := Option.map_eq_some_iff.mp hrun
  have hpublished : (1, str "A1") ∈ ((wireSystem samplePlatform sampleConfig).trace
      (wireSystem samplePlatform sampleConfig).init acknowledgedTwice).filterMap
        WireEvent.publishedAck := by
    rw [hshown]
    exact List.mem_singleton_self _
  obtain ⟨event, hevent, heq⟩ := List.mem_filterMap.mp hpublished
  cases event with
  | published id ack =>
      cases heq
      obtain ⟨topic, payload, message, fields, hsublist, hfrom⟩ :=
        (bridge_traced ⟨acknowledgedTwice, hs, rfl⟩).2.2.2 1 (str "A1") hevent
      exact ⟨_, s, topic, payload, message, fields, ⟨acknowledgedTwice, hs, rfl⟩, hsublist, hfrom⟩
  | _ => cases heq

end EdgeBridge
