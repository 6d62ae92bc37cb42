import EdgeBridge.Bridge.Ingest
import EdgeBridge.Bridge.Progress
import EdgeBridge.Store.Claims

/-!
# The queue can always be drained

One pass after the other takes the pending rows, until none is left: a readable one is
completed, and one that the submit validator refuses has used up its attempts.
-/

namespace EdgeBridge

open Foundation

section

variable {platform : Platform} {config : Config} {s t : Bridge} {thread : Thread}
  {now : Datetime}
  {wal : Wal Database Thread}

/-! ## The payloads of the rows -/

/-- The payload of a message that the callback accepted. -/
def Admitted (rawPayload : Text) : Prop :=
  ∃ messageType value, messageType ∈ supportedMessageTypes ∧
    Json.loads rawPayload = .ok (.dict [(messageType, .text value)])

theorem acceptedMessage_admitted {topic : Text} {payload : Bytes} {message : IncomingMessage}
    (h : acceptedMessage topic payload = .ok message) : Admitted message.rawPayload := by
  obtain ⟨value, -, hloads, htype, -⟩ := acceptedMessage_eq_ok h
  exact ⟨message.messageType, value, htype, hloads⟩

def tableSuffixError : Text := str "Payload value must end in T01, T02, or T03"

/-- The submit validator has one objection to an admitted payload. -/
theorem payloadFromRecord_admitted {record : MessageRecord} (h : Admitted record.rawPayload) :
    (payloadFromRecord record).isOk = true ∨
      payloadFromRecord record = .error (.valueError tableSuffixError) := by
  obtain ⟨messageType, value, htype, hloads⟩ := h
  have hcontains : supportedMessageTypes.contains messageType = true := by
    simpa using htype
  simp only [payloadFromRecord, hloads, payloadFields, hcontains, Bool.not_true,
    Bool.false_eq_true, if_false]
  split
  · exact .inl rfl
  · exact .inr rfl

theorem replayState_not_saving {record : MessageRecord} {message : IncomingMessage} :
    replayState platform record ≠ .saving message := by
  unfold replayState
  repeat' split
  all_goals rintro ⟨⟩

theorem mqttStep_saving {db : Database} {state : MqttState} {label : Label}
    {message : IncomingMessage} (h : mqttStep platform db state label = some (.saving message)) :
    Admitted message.rawPayload := by
  unfold mqttStep at h
  split at h
  · split at h
    · next accepted haccepted =>
      cases h
      exact acceptedMessage_admitted haccepted
    · cases h
  · split at h
    · exact absurd (Option.some.inj h) replayState_not_saving
    · cases h
  · split at h
    · exact absurd (Option.some.inj h) replayState_not_saving
    · cases h
  · cases h
  · cases h
  · cases h

theorem resume_saving {result : Except PyError Answer} {message : IncomingMessage}
    (h : (({ s with wal := wal } : Bridge).resume thread result).mqtt = .saving message) :
    s.mqtt = .saving message := by
  by_cases hthread : thread = .mqtt
  · subst hthread
    cases result with
    | error error => cases h
    | ok answer =>
        simp only [Bridge.resume, MqttState.answered] at h
        split at h
        · split at h <;> cases h
        · split at h <;> cases h
        · cases h
  · rw [resume_mqtt_of_ne _ _ hthread] at h
    exact h

theorem saving_of_job {message : IncomingMessage} (h : s.job thread = some (.save message)) :
    s.mqtt = .saving message := by
  cases thread with
  | mqtt =>
      cases mqttJob_of_job h with
      | saving _ hsaving => exact hsaving
  | worker => cases workerJob_of_job h
  | watchdog | lifecycle =>
      simp only [Bridge.job] at h
      split at h <;> cases h
  | api =>
      obtain ⟨write, -, heq⟩ := Option.map_eq_some_iff.mp h
      cases heq

theorem admitted_step {label : Label}
    (h : (∀ message, s.mqtt = .saving message → Admitted message.rawPayload) ∧
      ∀ id row, s.wal.data.message id = some row → Admitted row.rawPayload)
    (hstep : s.step platform label = some t) :
    (∀ message, t.mqtt = .saving message → Admitted message.rawPayload) ∧
      ∀ id row, t.wal.data.message id = some row → Admitted row.rawPayload := by
  constructor
  · intro message hsaving
    cases Bridge.step_move hstep with
    | answered | refused | gaveUp | committed | failed =>
        exact h.1 message (resume_saving hsaving)
    | mqtt _ mqtt hlabel hmqtt =>
        simp only at hsaving
        exact mqttStep_saving (hsaving ▸ hmqtt)
    | restarted => cases hsaving
    | _ => exact h.1 message hsaving
  · refine data_step_preserve (P := fun db => ∀ id row, db.message id = some row →
      Admitted row.rawPayload) h.2 hstep ?_
    intro thread now job answer _ hjob hrun id row hrow
    have hchange := Job.rowChange hrun id
    rw [hrow] at hchange
    generalize hnext : some row = next at hchange
    generalize hbefore : s.wal.data.message id = before at hchange
    cases hchange with
    | kept => exact h.2 id row (hbefore.trans hnext.symm)
    | created =>
        cases hnext
        exact h.1 _ (saving_of_job hjob)
    | claimed old | completed old | failed old | recovered old | replayed old =>
        cases hnext
        exact h.2 id old hbefore
    | deleted => cases hnext

theorem Bridge.Reached.admitted (h : s.Reached platform) {id : Nat} {row : MessageRecord}
    (hrow : s.wal.data.message id = some row) : Admitted row.rawPayload := by
  obtain ⟨config, past, ran⟩ := h
  refine ((bridgeSystem platform config).trace_invariant (I := fun _ s =>
    (∀ message, s.mqtt = .saving message → Admitted message.rawPayload) ∧
      ∀ id row, s.wal.data.message id = some row → Admitted row.rawPayload) ?_
    (fun _ _ _ _ _ hm hstep => admitted_step hm hstep) ran).2 id row hrow
  constructor
  · rintro message ⟨⟩
  · rintro id row ⟨⟩

/-! ## One pass -/

/-- The settings under which a claim and a failure can be stored. -/
structure Config.Workable (platform : Platform) (config : Config) : Prop where
  batch : 1 ≤ config.batchSize
  batchSize : bindableInt config.batchSize = true
  maxRetries : bindableInt config.maxRetries = true
  bindings : config.batchSize.toNat + 2 ≤ platform.maxVariables

/-- A readable record is completed; one that the validator refuses has failed once more. -/
def Processed (record next : MessageRecord) : Prop :=
  if (payloadFromRecord record).isOk then next.status = .completed
  else next.status = .failed ∧ next.retryCount = record.retryCount + 1

/-- The worker has processed the records, and nothing else has changed. -/
structure Worked (s t : Bridge) (worker : WorkerState) (records : List MessageRecord) :
    Prop where
  worker : t.worker = worker
  writer : t.wal.writer = none
  config : t.config = s.config
  stopping : t.stopping = s.stopping
  seq : t.wal.data.mqttMessages.seq = s.wal.data.mqttMessages.seq
  others : ∀ id ∉ records.map MessageRecord.id,
    t.wal.data.message id = s.wal.data.message id
  processed : ∀ record ∈ records, ∃ next, t.wal.data.message record.id = some next ∧
    Processed record next

theorem classify_acknowledged (config : Config) (lastAttemptAt : Text)
    (acknowledged : Acknowledged) (now : Datetime) :
    classify config lastAttemptAt acknowledged.response now =
      some (.completing acknowledged (formatTimestamp now)) := by
  unfold classify
  split
  · next error hdump =>
    rw [acknowledged.dumped] at hdump
    cases hdump
  · next responseText hdump =>
    rw [businessError_of_extractAck acknowledged.extracted]
    simp only
    split
    · next hnone =>
      rw [acknowledged.extracted] at hnone
      cases hnone
    · next ack hack =>
      obtain ⟨response, text, known, hdumped, hextracted⟩ := acknowledged
      obtain rfl := Option.some.inj (hextracted.symm.trans hack)
      obtain rfl := Except.ok.inj (hdumped.symm.trans hdump)
      rfl

variable {acknowledged : Acknowledged}

/-- The child is started and writes a success with an ACK. -/
theorem submission_leads (acknowledged : Acknowledged) {record : MessageRecord}
    {rest : List MessageRecord}
    (hrunning : s.stopping = false) (hreadable : (payloadFromRecord record).isOk = true)
    (now : Datetime) :
    ({ s with worker := .batch (record :: rest) } : Bridge).Leads platform now
      { s with
        worker := .processing record (formatTimestamp now)
          (.completing acknowledged (formatTimestamp now)) rest } := by
  have hnext : workerStep s.config s.stopping (.batch (record :: rest)) (.next now) =
      some (.processing record (formatTimestamp now) (.starting now) rest) := by
    simp only [workerStep, nextRecord, hrunning]
    cases hpayload : payloadFromRecord record with
    | ok payload => rfl
    | error error =>
        rw [hpayload] at hreadable
        cases hreadable
  have hrespond : workerStep s.config s.stopping (.processing record (formatTimestamp now)
      (.responded acknowledged.response) rest) (.respond now) =
      some (.processing record (formatTimestamp now)
        (.completing acknowledged (formatTimestamp now)) rest) := by
    simp only [workerStep, classify_acknowledged]
    rfl
  refine (work_leads _ _ hnext rfl rfl).trans ?_
  refine (work_leads _ (.spawn true) rfl rfl True.intro).trans ?_
  refine (work_leads _ .childOpens rfl rfl True.intro).trans ?_
  refine (work_leads _ (.childWrites (.response acknowledged.response))
    rfl rfl True.intro).trans ?_
  refine (work_leads _ (.childExits 0) rfl rfl True.intro).trans ?_
  refine (work_leads _ .collect rfl rfl True.intro).trans ?_
  exact work_leads _ _ hrespond rfl rfl

theorem Worked.of_update {worker : WorkerState} {record row : MessageRecord}
    {change : Table.Update MessageRecord} (hwriter : wal.writer = none)
    (hmessages : wal.data.mqttMessages =
      s.wal.data.mqttMessages.update (fun other => other.id == record.id) change)
    (hrow : s.wal.data.message record.id = some row) (hprocessed : Processed record (change row)) :
    Worked s { s with wal := wal, worker := worker } worker [record] where
  worker := rfl
  writer := hwriter
  config := rfl
  stopping := rfl
  seq := by rw [hmessages, Table.seq_update]
  others id hid := by
    rw [List.map_singleton, List.mem_singleton] at hid
    exact message_not_updated hmessages hid
  processed other hother := by
    obtain rfl := List.mem_singleton.mp hother
    exact ⟨_, by rw [message_updated hmessages, hrow]; rfl, hprocessed⟩

/-- The record is completed, and its ACK is published. -/
theorem completed_leads {record : MessageRecord} {rest : List MessageRecord}
    (hreached : s.Reached platform) (hworker : s.worker = .batch (record :: rest))
    (hfree : s.wal.writer = none) (hrunning : s.stopping = false)
    (hrow : ∃ row, s.wal.data.message record.id = some row)
    (hstorable : storable s.config acknowledged.response = true)
    (hreadable : (payloadFromRecord record).isOk = true) (now : Datetime) :
    ∃ t, s.Leads platform now t ∧ Worked s t (.batch rest) [record] := by
  obtain ⟨row, hrow⟩ := hrow
  have hidle : s.wal.transaction .worker = .idle :=
    hreached.idle (by simp [Bridge.job, hworker])
  have hsubmitted : s.Leads platform now { s with
      worker := .processing record (formatTimestamp now)
        (.completing acknowledged (formatTimestamp now)) rest } := by
    have hleads : Bridge.Leads platform now { s with worker := .batch (record :: rest) } _ :=
      submission_leads acknowledged hrunning hreadable now
    rwa [← hworker] at hleads
  have hreachedThen := hreached.leads hsubmitted
  obtain ⟨config, past, ran⟩ := hreached
  obtain ⟨after, hcomplete⟩ := markCompleted_isOk platform now now hrow
    (bridge_bindable ran _ _ hrow) hstorable
  have hrun : (Job.complete record.id (acknowledged.arguments s.config
      (formatTimestamp now))).run platform now s.wal.data = .ok (.done, after) :=
    map_eq_ok.mpr ⟨after, hcomplete, rfl⟩
  obtain ⟨m, hended, hdata, hwriter, wal, rfl⟩ := fresh_leads .worker
    (.complete record.id (acknowledged.arguments s.config (formatTimestamp now))) now
    hreachedThen rfl hidle hfree fun _ => by simp [Job.earlyAnswer, hrow]
  simp only [Job.result, hrun, after_of_ok hrun, Except.map] at hdata hended hwriter
  obtain ⟨metadata, hmessages⟩ := markCompleted_mqttMessages hcomplete
  have hpublished : Bridge.Leads platform now { s with
      wal := wal
      worker := .processing record (formatTimestamp now) (.publishing acknowledged.ack) rest }
      { s with wal := wal, worker := .batch rest } :=
    work_leads { s with wal := wal } .publishAck rfl rfl True.intro
  refine ⟨_, (hsubmitted.trans hended).trans hpublished,
    .of_update hwriter (hdata ▸ hmessages) hrow ?_⟩
  rw [Processed, if_pos hreadable]
  rfl

/-- The validator refuses the record, and the failure is stored. -/
theorem refused_leads {record : MessageRecord} {rest : List MessageRecord}
    (hreached : s.Reached platform) (hworker : s.worker = .batch (record :: rest))
    (hfree : s.wal.writer = none) (hrunning : s.stopping = false)
    (hmax : bindableInt s.config.maxRetries = true)
    (hrow : s.wal.data.message record.id = some record)
    (hrefused : payloadFromRecord record = .error (.valueError tableSuffixError))
    (now : Datetime) :
    ∃ t, s.Leads platform now t ∧ Worked s t (.batch rest) [record] := by
  have hidle : s.wal.transaction .worker = .idle :=
    hreached.idle (by simp [Bridge.job, hworker])
  have hfailing : s.Leads platform now { s with
      worker := .processing record (formatTimestamp now)
        (.failing (s.config.failure tableSuffixError (formatTimestamp now) none true)) rest } := by
    have hnext : workerStep s.config s.stopping s.worker (.next now) =
        some (.processing record (formatTimestamp now)
          (.failing (s.config.failure tableSuffixError (formatTimestamp now) none true)) rest) := by
      simp only [hworker, workerStep, nextRecord, hrunning, hrefused]
      rfl
    exact work_leads _ _ hnext rfl rfl
  have hstored : ∃ answer after, (Job.fail record.id (s.config.failure tableSuffixError
      (formatTimestamp now) none true)).run platform now s.wal.data = .ok (answer, after) :=
    (markFailed_isOk hmax rfl ⟨record, hrow⟩).mpr
      (show tableSuffixError.encodable = true by decide)
  obtain ⟨answer, after, hrun⟩ := hstored
  obtain ⟨m, hended, hdata, hwriter, wal, rfl⟩ := fresh_leads .worker
    (.fail record.id (s.config.failure tableSuffixError (formatTimestamp now) none true)) now
    (hreached.leads hfailing) rfl hidle hfree (by rintro ⟨⟩)
  simp only [Job.result, hrun, after_of_ok hrun, Except.map] at hdata hended hwriter
  obtain ⟨final, hfail, heq⟩ := map_eq_ok.mp hrun
  cases heq
  have hmessages := congrArg Database.mqttMessages (markFailed_eq_ok hfail).2
  refine ⟨{ s with wal := wal, worker := .batch rest }, hfailing.trans hended,
    .of_update hwriter (hdata ▸ hmessages) hrow ?_⟩
  rw [Processed, hrefused, if_neg (by simp [Except.isOk, Except.toBool])]
  exact ⟨rfl, rfl⟩

theorem Worked.cons {m : Bridge} {middle worker : WorkerState} {record : MessageRecord}
    {rest : List MessageRecord} (first : Worked s m middle [record])
    (second : Worked m t worker rest) (hfresh : record.id ∉ rest.map MessageRecord.id) :
    Worked s t worker (record :: rest) where
  worker := second.worker
  writer := second.writer
  config := second.config.trans first.config
  stopping := second.stopping.trans first.stopping
  seq := second.seq.trans first.seq
  others id hid := by
    rw [List.map_cons, List.mem_cons, not_or] at hid
    rw [second.others id hid.2, first.others id (by simpa using hid.1)]
  processed other hother := by
    rcases List.mem_cons.mp hother with rfl | hrest
    · rw [second.others other.id hfresh]
      exact first.processed other (List.mem_singleton_self _)
    · exact second.processed other hrest

/-- The worker takes its batch to the end. -/
theorem batch_leads (acknowledged : Acknowledged) (records : List MessageRecord)
    (hreached : s.Reached platform)
    (hworker : s.worker = .batch records) (hfree : s.wal.writer = none)
    (hrunning : s.stopping = false) (hmax : bindableInt s.config.maxRetries = true)
    (hstorable : storable s.config acknowledged.response = true)
    (hrows : ∀ record ∈ records, s.wal.data.message record.id = some record)
    (hdistinct : (records.map MessageRecord.id).Nodup) (now : Datetime) :
    ∃ t, s.Leads platform now t ∧ Worked s t .idle records := by
  induction records generalizing s with
  | nil =>
      have hleads : s.Leads platform now { s with worker := .idle } :=
        work_leads _ (.next now) (by rw [hworker]; rfl) rfl rfl
      exact ⟨_, hleads, rfl, hfree, rfl, rfl, rfl, fun _ _ => rfl,
        fun _ h => absurd h List.not_mem_nil⟩
  | cons record rest ih =>
      have hrow := hrows record List.mem_cons_self
      rw [List.map_cons, List.nodup_cons] at hdistinct
      have hone : ∃ m, s.Leads platform now m ∧ Worked s m (.batch rest) [record] := by
        rcases payloadFromRecord_admitted (hreached.admitted hrow) with hreadable | hrefused
        · exact completed_leads hreached hworker hfree hrunning ⟨record, hrow⟩ hstorable
            hreadable now
        · exact refused_leads hreached hworker hfree hrunning hmax hrow hrefused now
      obtain ⟨m, hfirst, hworked⟩ := hone
      have hrest : ∀ other ∈ rest, m.wal.data.message other.id = some other := by
        intro other hother
        rw [hworked.others other.id, hrows other (List.mem_cons_of_mem _ hother)]
        rw [List.map_singleton, List.mem_singleton]
        intro heq
        exact hdistinct.1 (heq ▸ List.mem_map_of_mem hother)
      obtain ⟨t, hsecond, hthen⟩ := ih (hreached.leads hfirst) hworked.worker hworked.writer
        (hworked.stopping.trans hrunning) (by rw [hworked.config]; exact hmax)
        (by rw [hworked.config]; exact hstorable) hrest hdistinct.2
      exact ⟨t, hfirst.trans hsecond, hworked.cons hthen hdistinct.1⟩

/-! ## Pass after pass -/

/-- Between two passes, with the lock free. -/
structure Ready (platform : Platform) (s t : Bridge) : Prop where
  reached : t.Reached platform
  worker : t.worker = .idle
  writer : t.wal.writer = none
  config : t.config = s.config
  stopping : t.stopping = s.stopping

/-- How often a row can still be claimed. -/
def MessageRecord.attemptsLeft (maxRetries : Int) (row : MessageRecord) : Nat :=
  if isPending maxRetries row then (maxRetries - row.retryCount).toNat + 1 else 0

def attemptsLeft (maxRetries : Int) (db : Database) : Nat :=
  ∑ id ∈ Finset.range (db.mqttMessages.seq + 1),
    ((db.message id).map (MessageRecord.attemptsLeft maxRetries)).getD 0

/-- What a claimed row becomes has fewer attempts left. -/
theorem Processed.attemptsLeft_lt {maxRetries : Int} {row record next : MessageRecord}
    (hpending : isPending maxRetries row = true) (hretries : record.retryCount = row.retryCount)
    (h : Processed record next) :
    next.attemptsLeft maxRetries < row.attemptsLeft maxRetries := by
  unfold MessageRecord.attemptsLeft
  rw [if_pos hpending]
  unfold Processed at h
  split at h
  · rw [if_neg (by simp [isPending, h])]
    omega
  · obtain ⟨hstatus, hcount⟩ := h
    split
    · next hagain =>
      simp only [isPending, hstatus, Bool.or_eq_true, Bool.and_eq_true, decide_eq_true_eq,
        beq_iff_eq] at hagain
      rcases hagain with hnew | ⟨-, hless⟩
      · cases hnew
      · omega
    · omega

/-- A row that the pass has claimed and processed. -/
def Taken (maxRetries : Int) (before after : Database) (id : Nat) : Prop :=
  ∃ row next, before.message id = some row ∧ isPending maxRetries row = true ∧
    after.message id = some next ∧ Processed row next

/-- What a pass leaves: the rows that it took, and all others as they were. -/
structure Passed (maxRetries : Int) (before after : Database) : Prop where
  seq : after.mqttMessages.seq = before.mqttMessages.seq
  rows : ∀ id, after.message id = before.message id ∨ Taken maxRetries before after id
  moves : (∃ row ∈ before.mqttMessages.rows, isPending maxRetries row = true) →
    ∃ id, Taken maxRetries before after id

variable {maxRetries : Int} {before after : Database}

theorem Taken.attemptsLeft_lt {id : Nat} (h : Taken maxRetries before after id) :
    ((after.message id).map (MessageRecord.attemptsLeft maxRetries)).getD 0 <
      ((before.message id).map (MessageRecord.attemptsLeft maxRetries)).getD 0 := by
  obtain ⟨row, next, hrow, hpending, hnext, hprocessed⟩ := h
  rw [hrow, hnext]
  exact hprocessed.attemptsLeft_lt hpending rfl

theorem Passed.attemptsLeft_lt (h : Passed maxRetries before after)
    (hpending : ∃ row ∈ before.mqttMessages.rows, isPending maxRetries row = true) :
    attemptsLeft maxRetries after < attemptsLeft maxRetries before := by
  unfold attemptsLeft
  rw [h.seq]
  obtain ⟨id, htaken⟩ := h.moves hpending
  refine Finset.sum_lt_sum ?_ ⟨id, ?_, htaken.attemptsLeft_lt⟩
  · intro other _
    rcases h.rows other with hsame | hother
    · rw [hsame]
    · exact Nat.le_of_lt hother.attemptsLeft_lt
  · obtain ⟨row, -, hrow, -⟩ := htaken
    exact Finset.mem_range.mpr (Nat.lt_succ_of_le (message_le_seq hrow))

/-- A pass takes a readable row to its completion, or leaves it as it is. -/
theorem Passed.served {P : Option MessageRecord → Prop} {id : Nat}
    (h : Passed maxRetries before after)
    (hreadable : ∀ row, P (some row) → (payloadFromRecord row).isOk = true)
    (hrow : P (before.message id) ∨ Served before id) :
    P (after.message id) ∨ Served after id := by
  rcases h.rows id with hsame | ⟨row, next, hfound, hpending, hnext, hprocessed⟩
  · simpa only [Served, hsame] using hrow
  · rcases hrow with hbefore | ⟨found, hfound', hstatus⟩
    · right
      rw [hfound] at hbefore
      rw [Processed, if_pos (hreadable row hbefore)] at hprocessed
      exact ⟨next, hnext, hprocessed⟩
    · obtain rfl := Option.some.inj (hfound.symm.trans hfound')
      simp [isPending, hstatus] at hpending

/-- Some passes, one after the other. -/
abbrev Passes (maxRetries : Int) : Database → Database → Prop :=
  Relation.ReflTransGen (Passed maxRetries)

theorem Passes.served {P : Option MessageRecord → Prop} {id : Nat}
    (h : Passes maxRetries before after)
    (hreadable : ∀ row, P (some row) → (payloadFromRecord row).isOk = true)
    (hrow : P (before.message id) ∨ Served before id) :
    P (after.message id) ∨ Served after id := by
  induction h with
  | refl => exact hrow
  | tail _ hpassed ih => exact hpassed.served hreadable ih

theorem Passes.waiting {id : Nat} (h : Passes maxRetries before after)
    (hwaiting : Waiting maxRetries before id) :
    Waiting maxRetries after id ∨ Served after id := by
  refine h.served (P := fun found => ∃ row, found = some row ∧
    isPending maxRetries row = true ∧ (payloadFromRecord row).isOk = true) ?_ (.inl hwaiting)
  rintro row ⟨_, ⟨⟩, -, hreadable⟩
  exact hreadable

/-- A claim that returned is the begin of a pass. -/
theorem claimed_leads (acknowledged : Acknowledged) {records : List MessageRecord}
    {claimedAt : Datetime} {db : Database}
    {m : Bridge} (hreached : s.Reached platform) (hworker : s.worker = .claiming)
    (hrunning : s.stopping = false) (hworkable : s.config.Workable platform)
    (hstorable : storable s.config acknowledged.response = true)
    (hclaim : claimPendingMessages platform s.config.batchSize s.config.maxRetries claimedAt
      s.wal.data = .ok (records, db))
    (hleads : s.Leads platform now m) (hended : Ended s .worker db (.ok (.claimed records)) m) :
    ∃ t, s.Leads platform now t ∧ Worked m t .idle records ∧
      Passed s.config.maxRetries s.wal.data t.wal.data := by
  obtain ⟨hdata, hwriter, wal, rfl⟩ := hended
  obtain ⟨-, hseq, hdistinct, hin, hout⟩ := claimPendingMessages_eq_ok hclaim
  rw [resume_wal] at hdata hwriter
  have hrows : ∀ record ∈ records, wal.data.message record.id = some record := by
    intro record hrecord
    obtain ⟨-, -, -, -, hnow⟩ := hin record hrecord
    rw [hdata]
    exact hnow
  obtain ⟨t, hrest, hworked⟩ := batch_leads acknowledged records
    (hreached.leads hleads) (by simp [Bridge.resume, hworker,
      WorkerState.answered]) (by rw [resume_wal]; exact hwriter)
    (by rw [resume_stopping]; exact hrunning) (by rw [resume_config]; exact hworkable.maxRetries)
    (by rw [resume_config]; exact hstorable) (by rw [resume_wal]; exact hrows) hdistinct now
  have htaken : ∀ record ∈ records, Taken s.config.maxRetries s.wal.data t.wal.data record.id := by
    intro record hrecord
    obtain ⟨row, hrow, hpending, heq, -⟩ := hin record hrecord
    obtain ⟨next, hnext, hprocessed⟩ := hworked.processed record hrecord
    rw [heq] at hprocessed
    exact ⟨row, next, hrow, hpending, hnext, hprocessed⟩
  refine ⟨t, hleads.trans hrest, hworked, ?_, ?_, ?_⟩
  · rw [hworked.seq, resume_wal, hdata, hseq]
  · intro id
    by_cases hid : id ∈ records.map MessageRecord.id
    · obtain ⟨record, hrecord, rfl⟩ := List.mem_map.mp hid
      exact .inr (htaken record hrecord)
    · left
      rw [hworked.others id hid, resume_wal, hdata, hout id hid]
  · rintro ⟨row, hrow, hpending⟩
    have hids := (claim_ids hclaim).length_eq
    have hselected : 0 < (s.wal.data.mqttMessages.select
        (isPending s.config.maxRetries)).length :=
      List.length_pos_of_mem (List.mem_filter.mpr ⟨hrow, hpending⟩)
    have hbatch := hworkable.batch
    simp only [List.length_map, pendingIds, List.length_take] at hids
    have hpositive : 0 < records.length := by omega
    exact ⟨_, htaken _ (List.getElem_mem hpositive)⟩

theorem Keeps.ready (h : Keeps platform s t) (hworker : t.worker = .idle) :
    Ready platform s t where
  reached := h.reached
  worker := hworker
  writer := by
    rcases h.unblocked with hnone | hown
    · exact hnone
    · have hwriting := (h.reached.consistent.writer_iff .worker).mpr hown
      rw [h.reached.idle (by simp [Bridge.job, hworker])] at hwriting
      cases hwriting
  config := h.config
  stopping := h.stopping

section

variable (hrunning : s.stopping = false) (hworkable : s.config.Workable platform)
  (hstorable : storable s.config acknowledged.response = true)

include hrunning hworkable hstorable

/-- The claim that the worker is in the middle of is the begin of a pass, or it raises. -/
theorem Keeps.pass {m : Bridge} (h : Keeps platform s m) (hworker : m.worker = .claiming)
    (now : Datetime) : ∃ t, m.Leads platform now t ∧ Ready platform s t ∧
      Passes s.config.maxRetries m.wal.data t.wal.data := by
  have hjob : m.job .worker = some (.claim m.config.batchSize m.config.maxRetries) := by
    simp [Bridge.job, hworker]
  obtain ⟨t, result, hleads, hended, hfinished⟩ :=
    transact_leads h.reached hjob h.unblocked now
  have hdropped : t.worker = .idle → t.wal.data = m.wal.data →
      ∃ t, m.Leads platform now t ∧ Ready platform s t ∧
        Passes s.config.maxRetries m.wal.data t.wal.data := by
    intro hidle hsame
    obtain ⟨wal, ht⟩ := hended.resumed
    refine ⟨t, hleads, ⟨h.reached.leads hleads, hidle, hended.writer, ?_, ?_⟩, ?_⟩
    · rw [ht, resume_config]
      exact h.config
    · rw [ht, resume_stopping]
      exact h.stopping
    · rw [hsame]
  cases hfinished with
  | raised error hsame =>
      obtain ⟨wal, ht⟩ := hended.resumed
      exact hdropped (by rw [ht]; rfl) hsame
  | early claimedAt result hearly hsame =>
      have hbatch := hworkable.batch
      rw [← h.config] at hbatch
      simp only [Job.earlyAnswer, if_neg (show ¬ m.config.batchSize ≤ 0 by omega)] at hearly
      cases hearly
  | ran claimedAt answer hrun =>
      obtain ⟨⟨records, db⟩, hclaim, heq⟩ := map_eq_ok.mp hrun
      cases heq
      obtain ⟨final, hfinal, hworked, hpassed⟩ := claimed_leads acknowledged
        h.reached hworker (h.stopping.trans hrunning) (h.config ▸ hworkable)
        (h.config ▸ hstorable) hclaim hleads hended
      obtain ⟨wal, ht⟩ := hended.resumed
      rw [h.config] at hpassed
      refine ⟨final, hfinal, ⟨h.reached.leads hfinal, hworked.worker, hworked.writer, ?_, ?_⟩,
        .single hpassed⟩
      · rw [hworked.config, ht, resume_config]
        exact h.config
      · rw [hworked.stopping, ht, resume_stopping]
        exact h.stopping

/-- One more pass. -/
theorem Ready.pass {m : Bridge} (h : Ready platform s m) (now : Datetime) :
    ∃ t, m.Leads platform now t ∧ Ready platform s t ∧
      Passed s.config.maxRetries m.wal.data t.wal.data := by
  have hgoing := h.stopping.trans hrunning
  have hidle : m.wal.transaction .worker = .idle :=
    h.reached.idle (by simp [Bridge.job, h.worker])
  have hcycle : m.Leads platform now { m with worker := .claiming } := by
    refine work_leads _ .cycle ?_ rfl True.intro
    simp [workerStep, h.worker, hgoing]
  have hclaimable : m.config.Workable platform := h.config ▸ hworkable
  have hok : (claimPendingMessages platform m.config.batchSize m.config.maxRetries now
      m.wal.data).isOk = true :=
    claim_isOk hclaimable.batchSize hclaimable.maxRetries hclaimable.bindings
  cases hclaim : claimPendingMessages platform m.config.batchSize m.config.maxRetries now
      m.wal.data with
  | error error =>
      rw [hclaim] at hok
      cases hok
  | ok result =>
      obtain ⟨records, db⟩ := result
      have hrun : (Job.claim m.config.batchSize m.config.maxRetries).run platform now
          m.wal.data = .ok (.claimed records, db) := map_eq_ok.mpr ⟨_, hclaim, rfl⟩
      have hreached := h.reached.leads hcycle
      obtain ⟨claimed, hleads, hended⟩ := fresh_leads .worker
        (.claim m.config.batchSize m.config.maxRetries) now hreached rfl hidle h.writer
        (by rintro ⟨⟩)
      simp only [Job.result, hrun, after_of_ok hrun, Except.map] at hended
      obtain ⟨t, hfinal, hworked, hpassed⟩ := claimed_leads acknowledged
        hreached rfl hgoing hclaimable (h.config ▸ hstorable) hclaim hleads hended
      dsimp only at hpassed
      rw [show m.config.maxRetries = s.config.maxRetries by rw [h.config]] at hpassed
      obtain ⟨wal, ht⟩ := hended.resumed
      refine ⟨t, hcycle.trans hfinal, ⟨hreached.leads hfinal, hworked.worker, hworked.writer,
        ?_, ?_⟩, hpassed⟩
      · rw [hworked.config, ht, resume_config]
        exact h.config
      · rw [hworked.stopping, ht, resume_stopping]
        exact h.stopping

/-- Pass after pass, until no row is pending. -/
theorem Ready.drained {m : Bridge} (h : Ready platform s m) (now : Datetime) :
    ∃ t, m.Leads platform now t ∧ Ready platform s t ∧
      Passes s.config.maxRetries m.wal.data t.wal.data ∧
      ∀ row ∈ t.wal.data.mqttMessages.rows, isPending s.config.maxRetries row = false := by
  obtain ⟨t, hleads, ⟨ht, hpasses⟩, hdone⟩ := System.leads_of_measure
    (bridgeSystem platform m.config) (Label.GoesOnAt now)
    (fun t => Ready platform s t ∧ Passes s.config.maxRetries m.wal.data t.wal.data)
    (fun t => ¬ ∃ row ∈ t.wal.data.mqttMessages.rows,
      isPending s.config.maxRetries row = true)
    (fun t => attemptsLeft s.config.maxRetries t.wal.data) (fun t ht hpending => by
      obtain ⟨next, hleads, hnext, hpassed⟩ :=
        ht.1.pass hrunning hworkable hstorable now
      exact ⟨next, leads_congr.mp hleads, ⟨hnext, ht.2.tail hpassed⟩,
        hpassed.attemptsLeft_lt (not_not.mp hpending)⟩) ⟨h, .refl⟩
  refine ⟨t, hleads, ht, hpasses, fun row hrow => ?_⟩
  by_contra hpending
  exact hdone ⟨row, hrow, by simpa using hpending⟩

/-- Whatever the worker is in the middle of, it comes to the end of a pass. -/
theorem ready_leads (hreached : s.Reached platform) (now : Datetime) :
    ∃ m t, s.Leads platform now t ∧ Keeps platform s m ∧ Ready platform s t ∧
      Passes s.config.maxRetries m.wal.data t.wal.data := by
  obtain ⟨m, hfree, hkeeps, hidle | hclaiming⟩ := free_leads hreached now
  · exact ⟨m, m, hfree, hkeeps, hkeeps.ready hidle, .refl⟩
  · obtain ⟨t, hleads, ht, hpasses⟩ :=
      hkeeps.pass hrunning hworkable hstorable hclaiming now
    exact ⟨m, t, hfree.trans hleads, hkeeps, ht, hpasses⟩

end

/--
Nothing is ever stuck.  From every state that the threads reach, whatever each of them is in
the middle of, the running worker can go on until no row is pending; every readable row
that waited outside of its hands is then completed.  All it takes is settings within the
limits of SQLite, and an Odoo that answers with an ACK.
-/
theorem queue_drainable (acknowledged : Acknowledged) {past : List BridgeEvent}
    (ran : (bridgeSystem platform config).Ran (.start config .empty) past s)
    (hrunning : s.stopping = false) (hworkable : s.config.Workable platform)
    (hstorable : storable s.config acknowledged.response = true) :
    ∃ labels t, (∀ label ∈ labels, label.goesOn = true) ∧
      (bridgeSystem platform config).exec s labels = some t ∧ t.worker = .idle ∧
      (∀ row ∈ t.wal.data.mqttMessages.rows,
        isPending s.config.maxRetries row = false) ∧
      ∀ id, Waiting s.config.maxRetries s.wal.data id → id ∉ s.worker.held →
        Served t.wal.data id := by
  obtain ⟨m, u, hbegun, hkeeps, hu, hfirst⟩ :=
    ready_leads hrunning hworkable hstorable ⟨config, past, ran⟩ noon
  obtain ⟨t, hdrained, ht, hpasses, hnone⟩ := hu.drained hrunning hworkable hstorable noon
  have hleads : (bridgeSystem platform config).Leads (Label.GoesOnAt noon) s t :=
    leads_congr.mp (hbegun.trans hdrained)
  obtain ⟨labels, hlabels, run⟩ := hleads
  refine ⟨labels, t, fun label hlabel => (hlabels label hlabel).goesOn, run, ht.worker, hnone,
    fun id hwaiting hout => ?_⟩
  have hthere := (hkeeps.lasting _ (lasting_waiting platform _) id hwaiting hout).1
  rcases Passes.waiting (hfirst.trans hpasses) hthere with ⟨row, hrow, hpending, -⟩ | hserved
  · rw [hnone row (Table.mem_of_byId hrow)] at hpending
    cases hpending
  · exact hserved

end

theorem sampleOdooResponse_dumped : dumpResponse sampleOdooResponse =
    .ok (str "\x7b\"success\": true, \"result\": \x7b\"ACK\": \"A1\"\x7d\x7d") := by
  decide +kernel

theorem sampleOdooResponse_extracted :
    extractAck sampleOdooResponse.value = some (str "A1") := by
  decide +kernel

def sampleAcknowledged : Acknowledged where
  response := sampleOdooResponse
  responseText := str "\x7b\"success\": true, \"result\": \x7b\"ACK\": \"A1\"\x7d\x7d"
  ack := str "A1"
  dumped := sampleOdooResponse_dumped
  extracted := sampleOdooResponse_extracted

/-- A message waits, and the callback holds the lock for the next one. -/
def savingSecond : List Label :=
  receives compactPayload ++
    [.deliver plcToOdooTopic (nextPayload.map UInt8.ofNat), .begin .mqtt noon, .lock .mqtt]

theorem queue_drainable_sample :
    ∃ s labels t, (bridgeSystem samplePlatform sampleConfig).exec
        (.start sampleConfig .empty) savingSecond = some s ∧
      s.wal.writer = some .mqtt ∧ rowStatus s 1 = some .new ∧
      (bridgeSystem samplePlatform sampleConfig).exec s labels = some t ∧
      rowStatus t 1 = some .completed := by
  have hrun : ((bridgeSystem samplePlatform sampleConfig).exec
      (.start sampleConfig .empty) savingSecond).map (fun s =>
        (s.wal.writer, rowStatus s 1, s.stopping, s.worker.held,
          decide (1 ≤ s.config.batchSize) && bindableInt s.config.batchSize &&
            bindableInt s.config.maxRetries &&
            decide (s.config.batchSize.toNat + 2 ≤ samplePlatform.maxVariables) &&
            storable s.config sampleOdooResponse &&
            (s.wal.data.message 1).any fun row =>
              isPending s.config.maxRetries row && (payloadFromRecord row).isOk)) =
      some (some .mqtt, some .new, false, [], true) := by decide +kernel
  obtain ⟨s, hs, hvalues⟩ := Option.map_eq_some_iff.mp hrun
  simp only [Prod.mk.injEq, Bool.and_eq_true, decide_eq_true_eq, Option.any_eq_true] at hvalues
  obtain ⟨hwriter, hstatus, hrunning, hheld, ⟨⟨⟨⟨hbatch, hsize⟩, hretries⟩, hbindings⟩,
    hstorable⟩, row, hrow, hpending, hreadable⟩ := hvalues
  obtain ⟨labels, t, -, ht, -, -, hserved⟩ := queue_drainable
    sampleAcknowledged ⟨savingSecond, hs, rfl⟩ hrunning
    ⟨hbatch, hsize, hretries, hbindings⟩ hstorable
  obtain ⟨final, hfinal, hdone⟩ := hserved 1 ⟨row, hrow, hpending, hreadable⟩
    (by rw [hheld]; exact List.not_mem_nil)
  refine ⟨s, labels, t, hs, hwriter, hstatus, ht, ?_⟩
  rw [rowStatus, hfinal, Option.map_some, hdone]

end EdgeBridge
