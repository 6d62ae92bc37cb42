import EdgeBridge.Accounting
import EdgeBridge.ApiCommands

/-!
# The transactions of the program

Every transaction that some thread runs on `bridge.db`, and what it can do to a
single row of the queue.
-/

namespace EdgeBridge

open Foundation

/-- The arguments of `mark_failed`. -/
structure Failure where
  error : Text
  lastAttemptAt : Text
  odooResponse : Option Text
  retryable : Bool
  maxRetries : Int

inductive Job where
  | save (message : IncomingMessage)
  | claim (batchSize maxRetries : Int)
  | complete (id : Nat) (arguments : CompletionArguments)
  | fail (id : Nat) (failure : Failure)
  | recover (staleBefore : Text) (excludeIds : List Nat)
  | replay (messageHash : Text)
  | reconcile (machineId : Text) (limit : Int)
  | cleanup (retentionDays batchSize : Int)
  | audit (write : AuditWrite)

inductive Answer where
  | saved (message : SavedMessage)
  | claimed (records : List MessageRecord)
  | recovered (count : Nat)
  | replayed (attempt : AckReplayAttempt)
  | reconciled (result : ReconciliationResult)
  | cleaned (result : CleanupResult)
  | done

def Job.run (platform : Platform) (now : Datetime) (db : Database) :
    Job → Except PyError (Answer × Database)
  | .save message =>
      (saveMessage platform message now db).map fun r => (.saved r.1, r.2)
  | .claim batchSize maxRetries =>
      (claimPendingMessages platform batchSize maxRetries now db).map
        fun r => (.claimed r.1, r.2)
  | .complete id arguments =>
      (markCompleted platform id arguments now db).map fun after => (.done, after)
  | .fail id failure =>
      (markFailed id failure.error failure.lastAttemptAt failure.odooResponse
        failure.retryable (some failure.maxRetries) db).map fun after => (.done, after)
  | .recover staleBefore excludeIds =>
      (resetStaleProcessing platform staleBefore excludeIds now db).map
        fun r => (.recovered r.1, r.2)
  | .replay messageHash =>
      (recordAckReplayAttempt platform messageHash now db).map
        fun r => (.replayed r.1, r.2)
  | .reconcile machineId limit =>
      (reconcileCompletedProductionRecords platform machineId limit now db).map
        fun r => (.reconciled r.1, r.2)
  | .cleanup retentionDays batchSize =>
      (cleanupRawOperationalData platform retentionDays batchSize now db).map
        fun r => (.cleaned r.1, r.2)
  | .audit write => (write.run platform db).map fun after => (.done, after)

theorem map_eq_ok {ε α β : Type} {f : α → β} {first : Except ε α} {result : β} :
    first.map f = .ok result ↔ ∃ a, first = .ok a ∧ f a = result := by
  cases first with
  | error error => simp [Except.map]
  | ok a => simp [Except.map]

/-! ## One row of the queue -/

/-- What a transaction can do to one row, from the row before to the row after;
`seq` is the largest id given out before. -/
inductive RowChange (now : Datetime) (seq : Nat) (id : Nat) :
    Job → Answer → Option MessageRecord → Option MessageRecord → Prop
  | kept {job answer} (row : Option MessageRecord) :
      RowChange now seq id job answer row row
  | created {message saved} (messageHash : Text) :
      id = seq + 1 → saved.id = id → message.bindable = true →
      RowChange now seq id (.save message) (.saved saved) none
        (some (Row.withId id (newMessage message messageHash (formatTimestamp now))))
  | claimed {batchSize maxRetries records} (row : MessageRecord) :
      isPending maxRetries row = true →
      markProcessing (formatTimestamp now) row ∈ records →
      RowChange now seq id (.claim batchSize maxRetries) (.claimed records) (some row)
        (some (markProcessing (formatTimestamp now) row))
  | completed {arguments} (row : MessageRecord) (metadata : ProductionMetadata) :
      RowChange now seq id (.complete id arguments) .done (some row)
        (some (completeMessage arguments metadata row))
  | failed {failure : Failure} (row : MessageRecord) :
      RowChange now seq id (.fail id failure) .done (some row)
        (some (failMessage failure.error failure.lastAttemptAt failure.odooResponse
          failure.retryable (some failure.maxRetries) row))
  | recovered {staleBefore excludeIds count} (row : MessageRecord) :
      isStale staleBefore excludeIds row = true →
      RowChange now seq id (.recover staleBefore excludeIds) (.recovered count) (some row)
        (some (recoverMessage (formatTimestamp now) row))
  | replayed {messageHash attempt} (row : MessageRecord) (count : Nat) :
      RowChange now seq id (.replay messageHash) (.replayed attempt) (some row)
        (some (replayUpdate count (formatTimestamp now) row))
  | deleted {retentionDays batchSize result} (row : MessageRecord) :
      isExpired retentionDays now row = true →
      RowChange now seq id (.cleanup retentionDays batchSize) (.cleaned result) (some row) none

/-- A row in the hands of a worker, or given back for a retry. -/
def MessageRecord.Open (row : MessageRecord) : Prop :=
  row.status = .processing ∨ row.status = .failed

theorem completed_of_isExpired {retentionDays : Int} {now : Datetime}
    {row : MessageRecord} (h : isExpired retentionDays now row = true) :
    row.status = .completed := by
  unfold isExpired at h
  split at h
  · simp only [Bool.and_eq_true, beq_iff_eq] at h
    exact h.1
  · cases h

namespace RowChange

variable {now : Datetime} {seq id : Nat} {job : Job} {answer : Answer}

theorem of_none {after : MessageRecord}
    (h : RowChange now seq id job answer none (some after)) :
    id = seq + 1 ∧ after.status = .new := by
  cases h with
  | created messageHash hid hsaved hbindable => exact ⟨hid, rfl⟩

/-- Only `save_message` adds a row, and tells its id. -/
theorem saved_of_none {after : MessageRecord}
    (h : RowChange now seq id job answer none (some after)) :
    ∃ message saved, job = .save message ∧ answer = .saved saved ∧ saved.id = id := by
  cases h with
  | created messageHash hid hsaved hbindable => exact ⟨_, _, rfl, rfl, hsaved⟩

/-- An open row stays open until it is completed. -/
theorem of_open {row : MessageRecord} {after : Option MessageRecord}
    (h : RowChange now seq id job answer (some row) after) (hopen : row.Open)
    (hjob : ∀ arguments, job ≠ .complete id arguments) :
    ∃ next, after = some next ∧ next.Open := by
  cases h with
  | kept => exact ⟨row, rfl, hopen⟩
  | claimed _ _ _ => exact ⟨_, rfl, .inl rfl⟩
  | completed _ _ => exact absurd rfl (hjob _)
  | failed _ => exact ⟨_, rfl, .inr rfl⟩
  | recovered _ _ => exact ⟨_, rfl, .inr rfl⟩
  | replayed _ _ => exact ⟨_, rfl, hopen⟩
  | deleted _ hexpired =>
      have hstatus := completed_of_isExpired hexpired
      rcases hopen with hopen | hopen
      · rw [hopen] at hstatus
        cases hstatus
      · rw [hopen] at hstatus
        cases hstatus

/-- A completed row keeps its answer for as long as it is there. -/
theorem of_completed {row : MessageRecord} {after : Option MessageRecord}
    (h : RowChange now seq id job answer (some row) after)
    (hstatus : row.status = .completed)
    (hcomplete : ∀ arguments, job ≠ .complete id arguments)
    (hfail : ∀ failure, job ≠ .fail id failure) :
    after = none ∨ ∃ next, after = some next ∧ next.status = .completed ∧
      next.ack = row.ack ∧ next.odooResponse = row.odooResponse ∧
      next.completedAt = row.completedAt := by
  cases h with
  | kept => exact .inr ⟨row, rfl, hstatus, rfl, rfl, rfl⟩
  | claimed _ hpending _ => simp [isPending, hstatus] at hpending
  | completed _ _ => exact absurd rfl (hcomplete _)
  | failed _ => exact absurd rfl (hfail _)
  | recovered _ hstale => simp [isStale, hstatus] at hstale
  | replayed _ _ => exact .inr ⟨_, rfl, hstatus, rfl, rfl, rfl⟩
  | deleted _ _ => exact .inl rfl

/-- A row becomes completed by its completion only. -/
theorem to_completed {before : Option MessageRecord} {next : MessageRecord}
    (h : RowChange now seq id job answer before (some next))
    (hstatus : next.status = .completed)
    (hjob : ∀ arguments, job ≠ .complete id arguments) :
    ∃ row, before = some row ∧ row.status = .completed := by
  cases h with
  | kept => exact ⟨next, rfl, hstatus⟩
  | created _ _ _ _ => cases hstatus
  | claimed _ _ _ => cases hstatus
  | completed _ _ => exact absurd rfl (hjob _)
  | failed _ => cases hstatus
  | recovered _ _ => cases hstatus
  | replayed row _ => exact ⟨row, rfl, hstatus⟩

/-- The texts of a row stay as they were bound when it was stored. -/
theorem bindable {before : Option MessageRecord} {next : MessageRecord}
    (h : RowChange now seq id job answer before (some next))
    (hbefore : ∀ row, before = some row → row.bindable = true) : next.bindable = true := by
  cases h with
  | kept => exact hbefore next rfl
  | created messageHash hid hsaved hbindable =>
      simp only [IncomingMessage.bindable, Bool.and_eq_true] at hbindable
      simp [MessageRecord.bindable, Row.withId, newMessage, hbindable]
  | claimed row _ _ => exact hbefore row rfl
  | completed row _ => exact hbefore row rfl
  | failed row => exact hbefore row rfl
  | recovered row _ => exact hbefore row rfl
  | replayed row _ => exact hbefore row rfl

end RowChange

section

variable {platform : Platform} {now : Datetime} {db after : Database} {answer : Answer}

private theorem update_cases {which : MessageRecord → Bool}
    {change : Table.Update MessageRecord}
    (h : after.mqttMessages = db.mqttMessages.update which change) (id : Nat) :
    after.message id = db.message id ∨
      ∃ row, db.message id = some row ∧ which row = true ∧
        after.message id = some (change row) := by
  have hview := db.mqttMessages.byId_update which change id
  rw [← h] at hview
  cases hrow : db.message id with
  | none =>
      left
      have hnone : db.mqttMessages.byId id = none := hrow
      rw [hnone] at hview
      exact hview
  | some row =>
      have hsome : db.mqttMessages.byId id = some row := hrow
      rw [hsome, Option.map_some] at hview
      cases hwhich : which row with
      | false =>
          left
          rw [hwhich] at hview
          exact hview
      | true =>
          right
          rw [hwhich, if_pos rfl] at hview
          exact ⟨row, rfl, hwhich, hview⟩

/-- An audit write touches its own table only. -/
theorem auditWrite_eq_ok {write : AuditWrite}
    (h : write.run platform db = .ok after) :
    after.mqttMessages = db.mqttMessages ∧
      after.productionRecords = db.productionRecords ∧
      after.dailySummary = db.dailySummary := by
  have hupdate : ∀ {requestId bindings change},
      updateCommand requestId bindings change db = .ok after →
        after.mqttMessages = db.mqttMessages ∧
          after.productionRecords = db.productionRecords ∧
          after.dailySummary = db.dailySummary := by
    intro requestId bindings change hok
    unfold updateCommand at hok
    obtain ⟨_, -, hbody⟩ := bind_eq_ok.mp hok
    split at hbody
    · cases hbody
    · cases hbody
      exact ⟨rfl, rfl, rfl⟩
  cases write with
  | create arguments receivedAt =>
      simp only [AuditWrite.run, createApiCommandRecord] at h
      split at h
      · cases h
      · obtain ⟨_, -, hbody⟩ := bind_eq_ok.mp h
        split at hbody
        · cases hbody
          exact ⟨rfl, rfl, rfl⟩
        · cases hbody
  | result requestId outcome => exact hupdate h
  | response requestId code body => exact hupdate h

/-- The inversion of a transaction on the queue: everything it can do to a row. -/
theorem Job.rowChange {job : Job} (h : job.run platform now db = .ok (answer, after))
    (id : Nat) :
    RowChange now db.mqttMessages.seq id job answer (db.message id) (after.message id) := by
  cases job with
  | save message =>
      obtain ⟨⟨saved, result⟩, hsave, heq⟩ := map_eq_ok.mp h
      cases heq
      rcases (saveMessage_cases hsave).2 with ⟨rfl, -, -⟩ |
        ⟨hbindable, -, hid, hinsert, hafter⟩
      · exact .kept _
      · have hview := Table.byId_insert hinsert id
        have hmessage : result.message id = result.mqttMessages.byId id := rfl
        rw [hmessage, hview]
        split
        · next hnew =>
          have hfree : db.message id = none := Table.byId_of_seq_lt (by omega)
          rw [hfree, ← hnew]
          exact .created _ hnew (hid.trans hnew.symm) hbindable
        · exact .kept _
  | claim batchSize maxRetries =>
      obtain ⟨⟨records, result⟩, hclaim, heq⟩ := map_eq_ok.mp h
      cases heq
      obtain ⟨-, -, -, hin, hout⟩ := claimPendingMessages_eq_ok hclaim
      by_cases hmem : id ∈ records.map MessageRecord.id
      · obtain ⟨record, hrecord, rfl⟩ := List.mem_map.mp hmem
        obtain ⟨row, hrow, hpending, heq, hnow⟩ := hin record hrecord
        rw [hrow, hnow, heq]
        exact .claimed row hpending (heq ▸ hrecord)
      · rw [hout id hmem]
        exact .kept _
  | complete target arguments =>
      obtain ⟨result, hcomplete, heq⟩ := map_eq_ok.mp h
      cases heq
      rcases markCompleted_mqttMessages hcomplete with ⟨metadata, hmessages⟩
      rcases update_cases hmessages id with hkept | ⟨row, hrow, hwhich, hnow⟩
      · rw [hkept]
        exact .kept _
      · have hid := id_of_message hrow
        rw [hrow, hnow, ← beq_iff_eq.mp hwhich, hid]
        exact .completed row metadata
  | fail target failure =>
      obtain ⟨result, hfail, heq⟩ := map_eq_ok.mp h
      cases heq
      have hmessages := congrArg Database.mqttMessages (markFailed_eq_ok hfail).2
      rcases update_cases hmessages id with hkept | ⟨row, hrow, hwhich, hnow⟩
      · rw [hkept]
        exact .kept _
      · have hid := id_of_message hrow
        rw [hrow, hnow, ← beq_iff_eq.mp hwhich, hid]
        exact .failed row
  | recover staleBefore excludeIds =>
      obtain ⟨⟨count, result⟩, hreset, heq⟩ := map_eq_ok.mp h
      cases heq
      have hmessages := congrArg Database.mqttMessages (resetStaleProcessing_eq_ok hreset)
      rcases update_cases hmessages id with hkept | ⟨row, hrow, hwhich, hnow⟩
      · rw [hkept]
        exact .kept _
      · rw [hrow, hnow]
        exact .recovered row hwhich
  | replay messageHash =>
      obtain ⟨⟨attempt, result⟩, hreplay, heq⟩ := map_eq_ok.mp h
      cases heq
      rcases recordAckReplayAttempt_eq_ok hreplay with rfl | ⟨count, hafter⟩
      · exact .kept _
      · have hmessages := congrArg Database.mqttMessages hafter
        rcases update_cases hmessages id with hkept | ⟨row, hrow, -, hnow⟩
        · rw [hkept]
          exact .kept _
        · rw [hrow, hnow]
          exact .replayed row count
  | reconcile machineId limit =>
      obtain ⟨⟨result, final⟩, hreconcile, heq⟩ := map_eq_ok.mp h
      cases heq
      have hmessage : final.message id = db.message id := by
        unfold Database.message
        rw [(reconcile_eq_ok hreconcile).1]
      rw [hmessage]
      exact .kept _
  | cleanup retentionDays batchSize =>
      obtain ⟨⟨result, final⟩, hcleanup, heq⟩ := map_eq_ok.mp h
      cases heq
      rcases cleanup_eq_ok hcleanup with rfl | ⟨cutoff, hcutoff, rfl⟩
      · exact .kept _
      · rcases deleteBatch_message cutoff batchSize.toNat db id with hkept | hdeleted
        · rw [hkept]
          exact .kept _
        · obtain ⟨hnone, row, hrow, hcleanable⟩ := hdeleted
          rw [hrow, hnone]
          apply RowChange.deleted
          simp only [isCleanableMessage, Bool.and_eq_true] at hcleanable
          simp only [isExpired, hcutoff, Bool.and_eq_true]
          exact hcleanable.1
  | audit write =>
      obtain ⟨result, hwrite, heq⟩ := map_eq_ok.mp h
      cases heq
      have hmessage : after.message id = db.message id := by
        unfold Database.message
        rw [(auditWrite_eq_ok hwrite).1]
      rw [hmessage]
      exact .kept _

theorem Job.fail_row {id : Nat} {failure : Failure}
    (h : (Job.fail id failure).run platform now db = .ok (answer, after)) :
    ∃ row, db.message id = some row ∧ after.message id = some
      (failMessage failure.error failure.lastAttemptAt failure.odooResponse
        failure.retryable (some failure.maxRetries) row) := by
  rcases map_eq_ok.mp h with ⟨result, hfail, heq⟩
  cases heq
  rcases markFailed_eq_ok hfail with ⟨⟨row, hrow⟩, hafter⟩
  refine ⟨row, hrow, ?_⟩
  rw [message_updated (congrArg Database.mqttMessages hafter), hrow, Option.map_some]

theorem Job.complete_row {id : Nat} {arguments : CompletionArguments}
    (h : (Job.complete id arguments).run platform now db = .ok (answer, after)) :
    ∃ row metadata, db.message id = some row ∧
      after.message id = some (completeMessage arguments metadata row) := by
  rcases map_eq_ok.mp h with ⟨result, hcomplete, heq⟩
  cases heq
  rcases markCompleted_mqttMessages hcomplete with ⟨metadata, hmessages⟩
  cases hrow : db.message id with
  | none =>
      unfold markCompleted at hcomplete
      rw [hrow] at hcomplete
      cases hcomplete
  | some row =>
      refine ⟨row, metadata, rfl, ?_⟩
      rw [message_updated hmessages, hrow, Option.map_some]

/-- The jobs whose only table is the queue or the audit table. -/
def Job.isQueueJob : Job → Bool
  | .complete _ _ | .reconcile _ _ | .cleanup _ _ => false
  | _ => true

/-- What a job does to the production tables and to the ids given out. -/
theorem Job.tables {job : Job} (h : job.run platform now db = .ok (answer, after)) :
    db.mqttMessages.seq ≤ after.mqttMessages.seq ∧
      (job.isQueueJob = true → after.productionRecords = db.productionRecords ∧
        after.dailySummary = db.dailySummary) := by
  cases job with
  | save message =>
      rcases map_eq_ok.mp h with ⟨⟨saved, result⟩, hsave, heq⟩
      cases heq
      rcases (saveMessage_cases hsave).2 with ⟨rfl, -, -⟩ | ⟨-, -, -, hinsert, hafter⟩
      · exact ⟨Nat.le_refl _, fun _ => ⟨rfl, rfl⟩⟩
      · rw [hafter]
        have hseq := Table.seq_insert hinsert
        exact ⟨by simp only; omega, fun _ => ⟨rfl, rfl⟩⟩
  | claim batchSize maxRetries =>
      rcases map_eq_ok.mp h with ⟨⟨records, result⟩, hclaim, heq⟩
      cases heq
      rcases claimPendingMessages_eq_ok hclaim with ⟨hafter, hseq, -⟩
      rw [hafter]
      exact ⟨Nat.le_of_eq hseq.symm, fun _ => ⟨rfl, rfl⟩⟩
  | complete target arguments =>
      rcases map_eq_ok.mp h with ⟨result, hcomplete, heq⟩
      cases heq
      rcases markCompleted_mqttMessages hcomplete with ⟨metadata, hmessages⟩
      rw [hmessages]
      exact ⟨Nat.le_refl _, nofun⟩
  | fail target failure =>
      rcases map_eq_ok.mp h with ⟨result, hfail, heq⟩
      cases heq
      rw [(markFailed_eq_ok hfail).2]
      exact ⟨Nat.le_refl _, fun _ => ⟨rfl, rfl⟩⟩
  | recover staleBefore excludeIds =>
      rcases map_eq_ok.mp h with ⟨⟨count, result⟩, hreset, heq⟩
      cases heq
      rw [resetStaleProcessing_eq_ok hreset]
      exact ⟨Nat.le_refl _, fun _ => ⟨rfl, rfl⟩⟩
  | replay messageHash =>
      rcases map_eq_ok.mp h with ⟨⟨attempt, result⟩, hreplay, heq⟩
      cases heq
      rcases recordAckReplayAttempt_eq_ok hreplay with rfl | ⟨count, hafter⟩
      · exact ⟨Nat.le_refl _, fun _ => ⟨rfl, rfl⟩⟩
      · rw [hafter]
        exact ⟨Nat.le_refl _, fun _ => ⟨rfl, rfl⟩⟩
  | reconcile machineId limit =>
      rcases map_eq_ok.mp h with ⟨⟨result, final⟩, hreconcile, heq⟩
      cases heq
      rw [(reconcile_eq_ok hreconcile).1]
      exact ⟨Nat.le_refl _, nofun⟩
  | cleanup retentionDays batchSize =>
      rcases map_eq_ok.mp h with ⟨⟨result, final⟩, hcleanup, heq⟩
      cases heq
      rcases cleanup_eq_ok hcleanup with rfl | ⟨cutoff, -, rfl⟩
      · exact ⟨Nat.le_refl _, nofun⟩
      · exact ⟨Nat.le_refl _, nofun⟩
  | audit write =>
      rcases map_eq_ok.mp h with ⟨result, hwrite, heq⟩
      cases heq
      rcases auditWrite_eq_ok hwrite with ⟨hmessages, hrecords, hsummary⟩
      rw [hmessages]
      exact ⟨Nat.le_refl _, fun _ => ⟨hrecords, hsummary⟩⟩

end

end EdgeBridge
