import EdgeBridge.Foundation.PyDatetime
import EdgeBridge.Store.DaySummary
import EdgeBridge.Store.Timestamps

/-!
# Stored times as instants

The program compares its stored times as texts.  Every stored time is the UTC text of an
instant, cut to the second, and such texts compare like the instants.
-/

namespace EdgeBridge

open Foundation

/-! ## The formatters and the readers -/

/-- `database._format_timestamp`. -/
def Store.formatTimestamp (clock : Clock) (value : PyDatetime) : Except PyError Text :=
  (value.naiveAsUtc.astimezone clock).map Datetime.isoformat

/-- `database._parse_timestamp`; the answer is an aware datetime in UTC. -/
def Store.parseTimestamp (clock : Clock) : Option Text → Except PyError (Option Datetime)
  | none | some [] => .ok none
  | some value =>
      match PyDatetime.fromisoformat clock value with
      | none => .error (.valueError (str "Invalid isoformat string"))
      | some parsed => (parsed.naiveAsUtc.astimezone clock).map some

/-- `queue_worker._timestamp`. -/
def QueueWorker.timestamp (clock : Clock) (value : PyDatetime) : Except PyError Text :=
  (value.astimezone clock).map Datetime.isoformat

/-- `queue_worker._parse_timestamp`. -/
def QueueWorker.parseTimestamp (clock : Clock) (value : Option Text) :
    Except PyError (Option Datetime) :=
  Store.parseTimestamp clock value

section

variable {clock : Clock} {value : PyDatetime} {time first second : Datetime} {text other : Text}

theorem store_formatTimestamp (h : value.utcValue = some time) :
    Store.formatTimestamp clock value = .ok (formatTimestamp time) := by
  obtain ⟨haware, hutc⟩ := PyDatetime.astimezone_of_utcValue clock h
  rw [Store.formatTimestamp, haware, hutc]
  rfl

theorem queueWorker_timestamp (h : value.utcValue = some time) :
    QueueWorker.timestamp clock value = .ok (formatTimestamp time) := by
  rw [QueueWorker.timestamp, (PyDatetime.astimezone_of_utcValue clock h).2]
  rfl

theorem store_parseTimestamp (clock : Clock) (time : Datetime) :
    Store.parseTimestamp clock (some (formatTimestamp time)) = .ok (some time.truncate) := by
  have hread := PyDatetime.fromisoformat_isoformat clock time
  have hutc := PyDatetime.astimezone_of_utcValue clock
    (PyDatetime.utcValue_ofInstant time.truncate)
  cases htext : formatTimestamp time with
  | nil => exact absurd htext (formatTimestamp_ne_nil time)
  | cons c rest =>
      have hsame : time.isoformat = c :: rest := htext
      rw [hsame] at hread
      simp only [Store.parseTimestamp, hread, hutc.1, hutc.2]
      rfl

end

/-! ## Comparisons of stored texts -/

/-- The instant that a stored text denotes. -/
def storedInstant (text : Text) : Option Datetime := Datetime.ofIsoText text

/-- The stored instant is before the bound, both cut to the second. -/
def storedBefore (bound : Datetime) (text : Text) : Bool :=
  (storedInstant text).any fun time => decide (time.second < bound.second)

def storedAfter (bound : Datetime) (text : Text) : Bool :=
  (storedInstant text).any fun time => decide (bound.second < time.second)

/-- The `WHERE` of `reset_stale_processing`, over instants. -/
def isStaleAt (staleBefore : Datetime) (excludeIds : List Nat) (record : MessageRecord) :
    Bool :=
  record.status == .processing && record.lastAttemptAt.all (storedBefore staleBefore) &&
    !excludeIds.contains record.id

/-- `reset_stale_processing`, over instants. -/
def resetStaleProcessingAt (platform : Platform) (staleBefore : Datetime)
    (excludeIds : List Nat) (now : Datetime) (db : Database) :
    Except PyError (Nat × Database) :=
  if platform.maxVariables < excludeIds.length + 5 then
    .error (.operationalError (str "too many SQL variables"))
  else
    .ok ((db.mqttMessages.select (isStaleAt staleBefore excludeIds)).length,
      { db with
        mqttMessages := db.mqttMessages.update (isStaleAt staleBefore excludeIds)
          (recoverMessage (formatTimestamp now)) })

/-- The `WHERE`s of `cleanup_raw_operational_data`, over instants. -/
def isCleanableMessageAt (cutoff : Datetime) (db : Database) (record : MessageRecord) : Bool :=
  record.status == .completed && record.completedAt.any (storedBefore cutoff) &&
    summaryApplied db record.id

def isCleanableCommandAt (cutoff : Datetime) (record : ApiCommandRecord) : Bool :=
  record.status.isTerminal && storedBefore cutoff record.receivedAt

def isCleanableProductionAt (cutoff : Datetime) (record : ProductionRecord) : Bool :=
  record.summaryApplied && storedBefore cutoff record.completedAt

/-- The deletions of `cleanup_raw_operational_data`, over instants. -/
def deleteBatchAt (cutoff : Datetime) (batchSize : Nat) (db : Database) :
    CleanupResult × Database :=
  let messageIds := cleanableIds db.mqttMessages (isCleanableMessageAt cutoff db) batchSize
  let commandIds := cleanableIds db.apiCommands (isCleanableCommandAt cutoff)
    (batchSize - messageIds.length)
  let recordIds := cleanableIds db.productionRecords (isCleanableProductionAt cutoff)
    (batchSize - messageIds.length - commandIds.length)
  (⟨messageIds.length, commandIds.length, recordIds.length, none⟩,
    { db with
      mqttMessages := deleteIds db.mqttMessages messageIds
      apiCommands := deleteIds db.apiCommands commandIds
      productionRecords := deleteIds db.productionRecords recordIds })

/-- The first and the last fields of a daily summary, chosen by instants. -/
def addToSummaryAt (completed : Datetime) (record : ProductionRecord) (nowText : Text) :
    Table.Update DailySummary where
  apply row :=
    { addToSummary record nowText row with
      firstAck := if storedAfter completed row.firstCompletedAt then record.ack
        else row.firstAck
      lastAck := if storedAfter completed row.lastCompletedAt then row.lastAck
        else record.ack
      firstCompletedAt := if storedAfter completed row.firstCompletedAt then
        record.completedAt else row.firstCompletedAt
      lastCompletedAt := if storedAfter completed row.lastCompletedAt then
        row.lastCompletedAt else record.completedAt }

/-- `_increment_daily_summary`, over instants. -/
def incrementDailySummaryAt (completed : Datetime) (record : ProductionRecord)
    (nowText : Text) (db : Database) : Except PyError Database :=
  match db.dailySummary.find? fun row => row.key == record.key with
  | some row =>
      .ok { db with
        dailySummary := db.dailySummary.update (fun other => other.id == row.id)
          (addToSummaryAt completed record nowText) }
  | none =>
      match db.dailySummary.insert (firstSummary record nowText) with
      | some table => .ok { db with dailySummary := table }
      | none => .error .integrityError

/-- Every time that the program compares is stored as the text of an instant. -/
structure StampedTimes (db : Database) : Prop where
  stamped : Stamped db
  attempts : ∀ row ∈ db.mqttMessages.rows, ∀ text, row.lastAttemptAt = some text → IsStamp text
  summaries : ∀ row ∈ db.dailySummary.rows,
    IsStamp row.firstCompletedAt ∧ IsStamp row.lastCompletedAt

/-- With the text of an instant, the program does what it would do with the instant. -/
structure SelectsByInstant (bound : Datetime) (text : Text) (db : Database) : Prop where
  reset : ∀ platform excludeIds now,
    resetStaleProcessing platform text excludeIds now db =
      resetStaleProcessingAt platform bound excludeIds now db
  cleanup : ∀ batchSize, deleteBatch text batchSize db = deleteBatchAt bound batchSize db
  increment : ∀ record nowText, record.completedAt = text →
    incrementDailySummary record nowText db = incrementDailySummaryAt bound record nowText db

section

variable {bound : Datetime} {text : Text} {db : Database}

theorem storedInstant_formatTimestamp (time : Datetime) :
    storedInstant (formatTimestamp time) = some time.truncate :=
  Datetime.ofIsoText_isoformat time

theorem formatTimestamp_lt_iff {first second : Datetime} :
    formatTimestamp first < formatTimestamp second ↔ first.second < second.second :=
  Datetime.isoformat_lt_iff

theorem decide_lt_formatTimestamp (h : IsStamp text) :
    decide (text < formatTimestamp bound) = storedBefore bound text := by
  obtain ⟨time, rfl⟩ := h
  rw [storedBefore, storedInstant_formatTimestamp, Option.any_some, Datetime.truncate_second]
  exact decide_eq_decide.mpr formatTimestamp_lt_iff

theorem formatTimestamp_lt_stamp (h : IsStamp text) :
    formatTimestamp bound < text ↔ storedAfter bound text = true := by
  obtain ⟨time, rfl⟩ := h
  rw [storedAfter, storedInstant_formatTimestamp, Option.any_some, Datetime.truncate_second,
    decide_eq_true_iff]
  exact formatTimestamp_lt_iff

namespace StampedTimes

variable (h : StampedTimes db) (bound : Datetime)

include h

theorem isStale_eq (excludeIds : List Nat) {row : MessageRecord}
    (hrow : row ∈ db.mqttMessages.rows) :
    isStale (formatTimestamp bound) excludeIds row = isStaleAt bound excludeIds row := by
  have hattempts := h.attempts row hrow
  unfold isStale isStaleAt
  cases hattempt : row.lastAttemptAt with
  | none => rfl
  | some attempt => simp [decide_lt_formatTimestamp (hattempts attempt hattempt)]

theorem isCleanableMessage_eq {row : MessageRecord} (hrow : row ∈ db.mqttMessages.rows) :
    isCleanableMessage (formatTimestamp bound) db row = isCleanableMessageAt bound db row := by
  have htimes := h.stamped.messages row hrow
  unfold isCleanableMessage isCleanableMessageAt
  cases htime : row.completedAt with
  | none => rfl
  | some time => simp [decide_lt_formatTimestamp (htimes time htime)]

theorem isCleanableCommand_eq {row : ApiCommandRecord} (hrow : row ∈ db.apiCommands.rows) :
    isCleanableCommand (formatTimestamp bound) row = isCleanableCommandAt bound row := by
  rw [isCleanableCommand, isCleanableCommandAt,
    decide_lt_formatTimestamp (h.stamped.commands row hrow)]

theorem isCleanableProduction_eq {row : ProductionRecord}
    (hrow : row ∈ db.productionRecords.rows) :
    isCleanableProduction (formatTimestamp bound) row = isCleanableProductionAt bound row := by
  obtain ⟨time, htime, -⟩ := h.stamped.records row hrow
  rw [isCleanableProduction, isCleanableProductionAt, decide_lt_formatTimestamp ⟨time, htime⟩]

theorem addToSummary_eq {record : ProductionRecord} (nowText : Text)
    (hrecord : record.completedAt = formatTimestamp bound) {row : DailySummary}
    (hrow : row ∈ db.dailySummary.rows) :
    addToSummary record nowText row = addToSummaryAt bound record nowText row := by
  obtain ⟨hfirst, hlast⟩ := h.summaries row hrow
  have hbefore : record.completedAt < row.firstCompletedAt ↔
      storedAfter bound row.firstCompletedAt = true :=
    hrecord ▸ formatTimestamp_lt_stamp hfirst
  have hafter : row.lastCompletedAt ≤ record.completedAt ↔
      ¬ storedAfter bound row.lastCompletedAt = true := by
    rw [← not_lt]
    exact not_congr (hrecord ▸ formatTimestamp_lt_stamp hlast)
  simp only [addToSummary, addToSummaryAt, hbefore, hafter, ite_not]

theorem selectsByInstant : SelectsByInstant bound (formatTimestamp bound) db where
  reset := by
    intro platform excludeIds now
    have hrows : ∀ row ∈ db.mqttMessages.rows,
        isStale (formatTimestamp bound) excludeIds row = isStaleAt bound excludeIds row :=
      fun row hrow => h.isStale_eq bound excludeIds hrow
    rw [resetStaleProcessing, resetStaleProcessingAt, Table.select_congr hrows,
      Table.update_congr hrows fun _ _ => rfl]
  cleanup := by
    intro batchSize
    have hmessages := Table.select_congr fun row hrow => h.isCleanableMessage_eq bound hrow
    have hcommands := Table.select_congr fun row hrow => h.isCleanableCommand_eq bound hrow
    have hproductions := Table.select_congr fun row hrow =>
      h.isCleanableProduction_eq bound hrow
    simp only [deleteBatch, deleteBatchAt, cleanableIds, hmessages, hcommands, hproductions]
  increment := by
    intro record nowText hrecord
    unfold incrementDailySummary incrementDailySummaryAt
    cases db.dailySummary.find? fun row => row.key == record.key with
    | none => rfl
    | some row =>
        have hrows : ∀ other ∈ db.dailySummary.rows,
            addToSummary record nowText other = addToSummaryAt bound record nowText other :=
          fun other hother => h.addToSummary_eq bound nowText hrecord hother
        exact congrArg (fun table => Except.ok { db with dailySummary := table })
          (Table.update_congr (fun _ _ => rfl) hrows)

end StampedTimes

end

/-! ## One transaction -/

def StampedRow (row : DailySummary) : Prop :=
  IsStamp row.firstCompletedAt ∧ IsStamp row.lastCompletedAt

theorem countedRow_stamped {record : ProductionRecord} {row : Option DailySummary}
    (hrecord : IsStamp record.completedAt) (hrow : ∀ found, row = some found → StampedRow found) :
    StampedRow (countedRow record row) := by
  cases row with
  | none => exact ⟨hrecord, hrecord⟩
  | some found =>
      obtain ⟨hfirst, hlast⟩ := hrow found rfl
      refine ⟨?_, ?_⟩
      · change IsStamp (if record.completedAt < found.firstCompletedAt then _ else _)
        split
        · exact hrecord
        · exact hfirst
      · change IsStamp (if found.lastCompletedAt ≤ record.completedAt then _ else _)
        split
        · exact hrecord
        · exact hlast

theorem foldl_countedRow_stamped {records : List ProductionRecord}
    (hrecords : ∀ record ∈ records, IsStamp record.completedAt) {row : Option DailySummary}
    (hrow : ∀ found, row = some found → StampedRow found) :
    ∀ found, records.foldl (fun row record => some (countedRow record row)) row = some found →
      StampedRow found := by
  induction records generalizing row with
  | nil => exact hrow
  | cons record records ih =>
      refine ih (fun other hother => hrecords other (List.mem_cons_of_mem record hother)) ?_
      rintro found hfound
      cases hfound
      exact countedRow_stamped (hrecords record List.mem_cons_self) hrow

theorem summaryRow_of_mem {db : Database} {row : DailySummary}
    (h : row ∈ db.dailySummary.rows) : summaryRow db row.key = some row.contents := by
  rw [summaryRow, summary_of_mem h]
  rfl

theorem CountedInto.stamped {records : List ProductionRecord} {db after : Database}
    (h : CountedInto records db after)
    (hrecords : ∀ record ∈ records, IsStamp record.completedAt)
    (hbefore : ∀ row ∈ db.dailySummary.rows, StampedRow row) :
    ∀ row ∈ after.dailySummary.rows, StampedRow row := by
  intro row hrow
  have hfound := summaryRow_of_mem hrow
  rw [h row.key] at hfound
  refine foldl_countedRow_stamped (fun record hrecord => ?_) ?_ row.contents hfound
  · exact hrecords record (List.mem_filter.mp hrecord).1
  · intro found hfound
    obtain ⟨old, hold, rfl⟩ := Option.map_eq_some_iff.mp hfound
    exact hbefore old (Table.find?_eq_some hold).1

section

variable {platform : Platform} {now : Datetime} {db after : Database} {answer : Answer}
  {job : Job}

theorem countedRecord_completedAt {source : MessageRecord} {completion : Completion}
    {record : ProductionRecord}
    (h : record ∈ countedRecord platform source completion now db) :
    record.completedAt = completion.completedAt := by
  unfold countedRecord at h
  split at h
  · rw [List.mem_singleton.mp h]
    rfl
  · cases h

theorem rowsCounted_completedAt {machineId : Text} {rows : List MessageRecord}
    {record : ProductionRecord} (h : record ∈ rowsCounted platform machineId now rows db) :
    ∃ row ∈ rows, record.completedAt = row.completedAt.getD [] := by
  induction rows generalizing db with
  | nil => cases h
  | cons row rows ih =>
      obtain hhead | htail := List.mem_append.mp h
      · refine ⟨row, List.mem_cons_self, ?_⟩
        unfold rowCounted at hhead
        split at hhead
        · exact countedRecord_completedAt hhead
        · cases hhead
      · obtain ⟨other, hother, hsame⟩ := ih htail
        exact ⟨other, List.mem_cons_of_mem row hother, hsame⟩

theorem countedRecords_stamped (h : Stamped db)
    (hjob : ∀ id arguments, job = .complete id arguments → IsStamp arguments.completedAt) :
    ∀ record ∈ countedRecords platform db (job, now), IsStamp record.completedAt := by
  intro record hrecord
  unfold countedRecords at hrecord
  split at hrecord
  · cases hrecord
  · cases job with
    | complete id arguments =>
        simp only [completionCounted] at hrecord
        split at hrecord
        · rw [countedRecord_completedAt hrecord]
          exact hjob id arguments rfl
        · cases hrecord
    | reconcile machineId limit =>
        obtain ⟨row, hrow, hsame⟩ := rowsCounted_completedAt hrecord
        obtain ⟨hmem, hneeds⟩ := List.mem_filter.mp (List.mem_of_mem_take hrow)
        simp only [needsReconciliation, Bool.and_eq_true] at hneeds
        obtain ⟨completedAt, htime⟩ := Option.isSome_iff_exists.mp hneeds.1.1.1.2
        rw [hsame, htime]
        exact h.messages row hmem completedAt htime
    | _ => cases hrecord

theorem RowChange.stampedAttempt {seq id : Nat} {before : Option MessageRecord}
    {next : MessageRecord} (h : RowChange now seq id job answer before (some next))
    (hjob : ∀ id failure, job = .fail id failure → IsStamp failure.lastAttemptAt)
    (hbefore : ∀ row, before = some row → ∀ text, row.lastAttemptAt = some text →
      IsStamp text) :
    ∀ text, next.lastAttemptAt = some text → IsStamp text := by
  intro text htext
  cases h with
  | kept => exact hbefore next rfl text htext
  | created _ _ _ _ => cases htext
  | claimed row _ _ =>
      cases htext
      exact ⟨now, rfl⟩
  | completed row _ => exact hbefore row rfl text htext
  | failed row =>
      cases htext
      exact hjob id _ rfl
  | recovered row _ =>
      cases htext
      exact ⟨now, rfl⟩
  | replayed row _ => exact hbefore row rfl text htext

theorem StampedTimes.run (h : StampedTimes db)
    (hcomplete : ∀ id arguments, job = .complete id arguments → IsStamp arguments.completedAt)
    (hfail : ∀ id failure, job = .fail id failure → IsStamp failure.lastAttemptAt)
    (hrun : job.run platform now db = .ok (answer, after)) : StampedTimes after where
  stamped := h.stamped.run hcomplete hrun
  attempts := by
    intro row hrow
    have hchange := Job.rowChange hrun row.id
    rw [message_of_mem hrow] at hchange
    refine hchange.stampedAttempt hfail fun old hold => ?_
    exact h.attempts old (Table.mem_of_byId hold)
  summaries := by
    have hcounted := after_countedInto platform db (job, now)
    have hafter : db.after platform (job, now) = after := by
      rw [Database.after, hrun]
    rw [hafter] at hcounted
    exact hcounted.stamped (countedRecords_stamped h.stamped hcomplete) h.summaries

end

/-! ## Runs -/

/-- The attempt that the worker has begun, and the one that it is about to record. -/
def WorkerState.StampedAttempt : WorkerState → Prop
  | .processing _ lastAttemptAt (.failing failure) _ =>
      IsStamp lastAttemptAt ∧ IsStamp failure.lastAttemptAt
  | .processing _ lastAttemptAt _ _ => IsStamp lastAttemptAt
  | _ => True

theorem workerMove_stampedAttempt {config : Config} {stopping : Bool} {w w' : WorkerState}
    {label : Label} (hmove : WorkerMove config stopping w label w')
    (h : w.StampedAttempt) : w'.StampedAttempt := by
  cases hmove with
  | entered record rest now => exact ⟨now, rfl⟩
  | rejected record rest now message => exact ⟨⟨now, rfl⟩, ⟨now, rfl⟩⟩
  | timedOut record lastAttemptAt startedAt rest file => exact ⟨h, h⟩
  | collected record lastAttemptAt startedAt rest exitcode file =>
      cases file with
      | absent => exact ⟨h, h⟩
      | truncated => trivial
      | complete result =>
          cases result with
          | response response => exact h
          | error error => exact ⟨h, h⟩
  | classified record lastAttemptAt rest response now =>
      unfold classify
      split
      · trivial
      · split
        · exact ⟨h, h⟩
        · split
          · exact ⟨h, h⟩
          · exact h
  | spawned _ _ _ _ => exact h
  | childMoved _ _ _ _ _ _ _ _ _ _ _ => exact h
  | stopKilled _ _ _ _ _ _ _ => exact h
  | _ => trivial

theorem answered_stampedAttempt {w : WorkerState} (answer : Answer) (h : w.StampedAttempt) :
    (w.answered answer).StampedAttempt := by
  unfold WorkerState.answered
  split
  · trivial
  · trivial
  · exact h
  · trivial

theorem failing_stamp {s : Bridge} {thread : Thread} {id : Nat} {failure : Failure}
    (h : s.worker.StampedAttempt) (hjob : s.job thread = some (.fail id failure)) :
    IsStamp failure.lastAttemptAt := by
  have hthread : thread = .worker := by
    by_contra hthread
    exact (job_of_ne_worker hthread hjob).2.2.2.1 _ _ rfl
  subst hthread
  cases workerJob_of_job hjob with
  | failing record lastAttemptAt failure rest hfailing =>
      rw [hfailing] at h
      exact h.2

/-- Under every interleaving of the threads all compared times are stamps. -/
theorem bridge_stampedTimes {platform : Platform} {config : Config}
    {past : List BridgeEvent} {s : Bridge}
    (ran : (bridgeSystem platform config).Ran (bridgeSystem platform config).init past s) :
    StampedTimes s.wal.data := by
  have hempty : StampedTimes .empty := by
    refine ⟨stamped_empty, ?_, ?_⟩
    · intro row hrow
      cases hrow
    · intro row hrow
      cases hrow
  refine ((bridgeSystem platform config).trace_invariant
    (I := fun _ s => s.worker.WellFormed s.config ∧ s.worker.StampedAttempt ∧
      StampedTimes s.wal.data)
    ⟨show WorkerState.WellFormed config .idle from trivial,
      show WorkerState.StampedAttempt .idle from trivial, hempty⟩ ?_ ran).2.2
  rintro past m label t - ⟨hworker, hattempt, hstamped⟩ hstep
  have hnext := worker_step_preserve (P := fun _ w => w.StampedAttempt) (fun _ => trivial)
    (fun hmove h => workerMove_stampedAttempt hmove h)
    (fun answer h => answered_stampedAttempt answer h) hattempt hstep
  refine ⟨wellFormed_step hworker hstep, hnext, data_step_preserve hstamped hstep ?_⟩
  intro thread now job answer _ hjob hrun
  refine hstamped.run ?_ ?_ hrun
  · rintro id arguments rfl
    exact completing_stamp hworker hjob
  · rintro id failure rfl
    exact failing_stamp hattempt hjob

/--
Stored times order like time: for aware datetimes in the years 1 to 9999 both formatters
write the same text, which compares like the UTC second and reads back as the instant cut
to the second.  Where all compared times are stored so, as in every state of every run,
the program selects exactly what the instants select.
-/
theorem stored_times_ordered {a b : PyDatetime} {first second : Datetime} (clock : Clock)
    (ha : a.utcValue = some first) (hb : b.utcValue = some second) :
    ∃ text other, Store.formatTimestamp clock a = .ok text ∧
      Store.formatTimestamp clock b = .ok other ∧
      (text < other ↔ first.second < second.second) ∧
      Store.parseTimestamp clock (some text) = .ok (some first.truncate) ∧
      QueueWorker.parseTimestamp clock (some text) = .ok (some first.truncate) ∧
      QueueWorker.timestamp clock a = .ok text ∧
      (∀ db, StampedTimes db → SelectsByInstant first text db) ∧
      ∀ platform config past s,
        (bridgeSystem platform config).Ran (bridgeSystem platform config).init past s →
        SelectsByInstant first text s.wal.data :=
  ⟨formatTimestamp first, formatTimestamp second, store_formatTimestamp ha,
    store_formatTimestamp hb, formatTimestamp_lt_iff, store_parseTimestamp clock first,
    store_parseTimestamp clock first, queueWorker_timestamp ha,
    fun _ hdb => hdb.selectsByInstant first,
    fun _ _ _ _ ran => (bridge_stampedTimes ran).selectsByInstant first⟩

def sampleClock : Clock where
  localOffset _ := .utc
  otherIsoLayout _ := none

/-- Half a second past noon UTC, on a clock five and a half hours ahead. -/
def aheadOfUtc : PyDatetime where
  wall := ⟨63892949400500000, by decide⟩
  offset := some ⟨19800000000, by decide⟩

/-- One second past noon UTC, on a clock five hours behind. -/
def behindUtc : PyDatetime where
  wall := ⟨63892911601000000, by decide⟩
  offset := some ⟨-18000000000, by decide⟩

theorem stored_times_ordered_sample :
    ∃ text other, Store.formatTimestamp sampleClock aheadOfUtc = .ok text ∧
      Store.formatTimestamp sampleClock behindUtc = .ok other ∧ text < other ∧
      Store.parseTimestamp sampleClock (some text) = .ok (some noon) := by
  have ha : aheadOfUtc.utcValue = some ⟨63892929600500000, by decide⟩ := by decide +kernel
  have hb : behindUtc.utcValue = some afterNoon := by decide +kernel
  obtain ⟨text, other, hformat, hother, hlt, hparse, -, -, -, -⟩ :=
    stored_times_ordered sampleClock ha hb
  have hbefore : text < other := hlt.mpr (by decide)
  have htruncate : Datetime.truncate ⟨63892929600500000, by decide⟩ = noon := by decide +kernel
  rw [htruncate] at hparse
  exact ⟨text, other, hformat, hother, hbefore, hparse⟩

end EdgeBridge
