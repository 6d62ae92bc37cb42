import EdgeBridge.Bridge.Finality
import EdgeBridge.Store.Recovery

/-!
# Production records mirror their messages

`production_records` repeats what a completed row of the queue says.  The two are written
in one transaction, and from then on no thread changes one of them without the other.
-/

namespace EdgeBridge

open Foundation

/-- The record says of the message what its row and its stored response say, and is
counted. -/
structure Mirrors (platform : Platform) (row : MessageRecord) (record : ProductionRecord) :
    Prop where
  mqttMessageId : record.mqttMessageId = row.id
  status : record.status = row.status
  completedAt : row.completedAt = some record.completedAt
  productionDate : productionDate platform record.completedAt = .ok record.productionDate
  messageType : record.messageType = row.messageType
  tableNo : record.tableNo = row.tableNo
  model : record.model = row.model
  serial : record.serial = row.serial
  ack : row.ack = some record.ack
  customerId : record.customerId = row.customerId
  customerName : record.customerName = row.customerName
  operatorId : record.operatorId = row.operatorId
  operatorName : record.operatorName = row.operatorName
  batchNumber : record.batchNumber = row.batchNumber
  rawOdooResponse : row.odooResponse = some record.rawOdooResponse
  metadata : productionMetadataFromResponse record.rawOdooResponse = .ok record.metadata
  summaryApplied : record.summaryApplied = true

section

variable {platform : Platform} {row : MessageRecord} {record : ProductionRecord}

theorem Mirrors.replayed {now : MessageRecord} (h : Mirrors platform row record)
    (hsame : row.SameButReplays now) : Mirrors platform now record := by
  obtain ⟨count, replayedAt, rfl⟩ := hsame
  exact ⟨h.mqttMessageId, h.status, h.completedAt, h.productionDate, h.messageType, h.tableNo,
    h.model, h.serial, h.ack, h.customerId, h.customerName, h.operatorId, h.operatorName,
    h.batchNumber, h.rawOdooResponse, h.metadata, h.summaryApplied⟩

/-- A record that is new but for its id and its time of writing. -/
theorem Mirrors.written {source : MessageRecord} {arguments : CompletionArguments}
    {metadata : ProductionMetadata} {ack date : Text}
    (hack : arguments.ack = some ack)
    (hdate : EdgeBridge.productionDate platform arguments.completedAt = .ok date)
    (hmetadata : productionMetadataFromResponse arguments.odooResponse = .ok metadata)
    (hcontents : record.contents =
      newProductionRecord source (arguments.completion ack metadata) date [] true) :
    Mirrors platform (completeMessage arguments metadata source) record where
  mqttMessageId := congrArg ProductionRecord.mqttMessageId hcontents
  status := congrArg ProductionRecord.status hcontents
  completedAt := congrArg some (congrArg ProductionRecord.completedAt hcontents).symm
  productionDate := by
    have hcompletedAt : record.completedAt = arguments.completedAt :=
      congrArg ProductionRecord.completedAt hcontents
    have hproductionDate : record.productionDate = date :=
      congrArg ProductionRecord.productionDate hcontents
    rw [hcompletedAt, hproductionDate]
    exact hdate
  messageType := congrArg ProductionRecord.messageType hcontents
  tableNo := congrArg ProductionRecord.tableNo hcontents
  model := congrArg ProductionRecord.model hcontents
  serial := congrArg ProductionRecord.serial hcontents
  ack := hack.trans (congrArg some (congrArg ProductionRecord.ack hcontents).symm)
  customerId := congrArg ProductionRecord.customerId hcontents
  customerName := congrArg ProductionRecord.customerName hcontents
  operatorId := congrArg ProductionRecord.operatorId hcontents
  operatorName := congrArg ProductionRecord.operatorName hcontents
  batchNumber := congrArg ProductionRecord.batchNumber hcontents
  rawOdooResponse :=
    congrArg some (congrArg ProductionRecord.rawOdooResponse hcontents).symm
  metadata := by
    have hresponse : record.rawOdooResponse = arguments.odooResponse :=
      congrArg ProductionRecord.rawOdooResponse hcontents
    have hsame : record.metadata = metadata := congrArg ProductionRecord.metadata hcontents
    rw [hresponse, hsame]
    exact hmetadata
  summaryApplied := congrArg ProductionRecord.summaryApplied hcontents

/-- Every completed row has its record. -/
def Mirrored (platform : Platform) (db : Database) : Prop :=
  ∀ id row, db.message id = some row → row.status = .completed →
    ∃ record, db.productionRecord id = some record ∧ Mirrors platform row record

/-- The arguments give no metadata but that of the response text. -/
def CompletionArguments.Answered (arguments : CompletionArguments) : Prop :=
  completionMetadata arguments = productionMetadataFromResponse arguments.odooResponse

theorem answered_of_job {s : Bridge} {thread : Thread} {id : Nat}
    {arguments : CompletionArguments} (h : s.job thread = some (.complete id arguments)) :
    arguments.Answered := by
  by_cases hthread : thread = .worker
  · subst hthread
    cases workerJob_of_job h with
    | completing record lastAttemptAt acknowledged completedAt rest hworker =>
        exact (completionMetadata_acknowledged acknowledged s.config completedAt).trans
          (metadata_of_dumpResponse acknowledged.dumped).symm
  · exact absurd rfl ((job_of_ne_worker hthread h).2.2.1 id arguments)

theorem markCompleted_mirrors {id : Nat} {arguments : CompletionArguments} {now : Datetime}
    {db after : Database} {ack : Text} (hack : truthy arguments.ack = some ack)
    (hanswered : arguments.Answered) (hfresh : summaryApplied db id = false)
    (h : markCompleted platform id arguments now db = .ok after) {row : MessageRecord}
    (hrow : after.message id = some row) :
    ∃ record, after.productionRecord id = some record ∧ Mirrors platform row record := by
  obtain ⟨source, metadata, applied, hsource, hmetadata, hupsert⟩ :=
    markCompleted_upsert hack h
  have hid := id_of_message hsource
  subst hid
  have hmessages : after.mqttMessages = db.mqttMessages.update
      (fun record => record.id == source.id) (completeMessage arguments metadata) :=
    (upsert_eq_ok hupsert).1
  rw [message_updated hmessages, hsource, Option.map_some, Option.some.injEq] at hrow
  subst hrow
  have hparts := hupsert
  unfold upsertProductionRecordAndSummary at hparts
  obtain ⟨date, hdate, hparts⟩ := bind_eq_ok.mp hparts
  obtain ⟨_, hbound, -⟩ := bind_eq_ok.mp hparts
  have hunapplied : summaryApplied (writeCompletion source.id arguments metadata db)
      source.id = false := hfresh
  obtain ⟨final, hfinal, hwritten⟩ := upsert_written now hdate hbound hunapplied
  rw [hfinal] at hupsert
  cases hupsert
  obtain ⟨record, hrecord, hcontents⟩ := Option.map_eq_some_iff.mp hwritten.stored
  exact ⟨record, hrecord, .written (truthy_eq_some.mp hack).1 hdate
    (hanswered.symm.trans hmetadata) hcontents⟩

/-- What the ledger allows keeps every completed row and its record together. -/
theorem Mirrored.run {past : List Completed} {s : Ledger} {job : Job} {now : Datetime}
    {answer : Answer} {after : Database} (h : Mirrored platform s.db)
    (haccounted : Accounted past s) (hallowed : Ledger.allowed s.held job = true)
    (hanswered : ∀ id arguments, job = .complete id arguments → arguments.Answered)
    (hrun : job.run platform now s.db = .ok (answer, after)) : Mirrored platform after := by
  intro id row hrow hstatus
  by_cases hjob : ∃ arguments, job = .complete id arguments
  · obtain ⟨arguments, rfl⟩ := hjob
    obtain ⟨final, hmark, heq⟩ := map_eq_ok.mp hrun
    cases heq
    simp only [Ledger.allowed, Bool.and_eq_true, List.contains_iff_mem] at hallowed
    obtain ⟨ack, hack⟩ := Option.isSome_iff_exists.mp hallowed.2
    exact markCompleted_mirrors hack (hanswered id arguments rfl)
      (haccounted.unapplied hallowed.1) hmark hrow
  · have hchange := Job.rowChange hrun id
    rw [hrow] at hchange
    obtain ⟨old, hold, holdStatus⟩ := hchange.to_completed hstatus fun arguments heq =>
      hjob ⟨arguments, heq⟩
    obtain ⟨record, hrecord, hmirrors⟩ := h id old hold holdStatus
    obtain ⟨found, hfound, -, hfinal⟩ := Final.of_completed haccounted hold holdStatus
    obtain rfl := Option.some.inj (hfound.symm.trans hrecord)
    have hthen := (hfinal.run holdStatus haccounted hallowed hrun).1
    have hid := id_of_message hold
    subst hid
    exact ⟨found, hthen.kept row hrow, hmirrors.replayed (hthen.message row hrow)⟩

end

/--
In every state that the threads reach the completed rows of the queue and the production
records say the same: each completed row has its record, and each record is that of a
completed row or of a message that a cleanup has deleted.  The metadata is the one that
the stored response reads back as.
-/
theorem bridge_mirrored {platform : Platform} {config : Config} {past : List BridgeEvent}
    {s : Bridge}
    (ran : (bridgeSystem platform config).Ran (bridgeSystem platform config).init past s) :
    Mirrored platform s.wal.data ∧
      ∀ id record, s.wal.data.productionRecord id = some record →
        (∃ row, s.wal.data.message id = some row ∧ Mirrors platform row record) ∨
          s.wal.data.message id = none ∧ id ≤ s.wal.data.mqttMessages.seq := by
  have hmirrored : Mirrored platform s.wal.data := by
    refine (bridgeSystem platform config).trace_invariant
      (I := fun _ s => Mirrored platform s.wal.data) ?_ ?_ ran
    · intro id row hrow
      cases hrow
    · intro past m label t hran h hstep
      refine data_step_preserve h hstep fun _ hjob hrun => ?_
      refine Mirrored.run (s := m.ledger) h (bridge_accounted hran)
        (Move.ledger_commit hjob hrun).1 ?_ hrun
      rintro id arguments rfl
      exact answered_of_job hjob
  refine ⟨hmirrored, fun id record hrecord => ?_⟩
  have haccounted := bridge_accounted ran
  obtain ⟨event, hevent, rfl⟩ := haccounted.ofRecord id record hrecord
  cases hrow : s.wal.data.message event.id with
  | none => exact .inr ⟨rfl, haccounted.known event hevent⟩
  | some row =>
      left
      have hstatus := (haccounted.settled event hevent row hrow).status
      obtain ⟨found, hfound, hmirrors⟩ := hmirrored event.id row hrow hstatus
      obtain rfl := Option.some.inj (hfound.symm.trans hrecord)
      exact ⟨row, rfl, hmirrors⟩

theorem bridge_mirrored_sample :
    ∃ s row record, (bridgeSystem samplePlatform sampleConfig).exec
        (.start sampleConfig .empty) completionRecorded = some s ∧
      s.wal.data.message 1 = some row ∧ s.wal.data.productionRecord 1 = some record ∧
      Mirrors samplePlatform row record := by
  have hrun : (((bridgeSystem samplePlatform sampleConfig).exec
      (.start sampleConfig .empty) completionRecorded).bind fun s =>
        (s.wal.data.message 1).map MessageRecord.status) = some .completed := by
    decide +kernel
  obtain ⟨s, hs, hrow⟩ := Option.bind_eq_some_iff.mp hrun
  obtain ⟨row, hrow, hstatus⟩ := Option.map_eq_some_iff.mp hrow
  obtain ⟨record, hrecord, hmirrors⟩ :=
    (bridge_mirrored ⟨completionRecorded, hs, rfl⟩).1 1 row hrow hstatus
  exact ⟨s, row, record, hs, hrow, hrecord, hmirrors⟩

end EdgeBridge
