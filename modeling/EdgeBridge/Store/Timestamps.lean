import EdgeBridge.Api.Runs
import EdgeBridge.Bridge.Hand

/-!
# Stored times

Every time that the program stores is the ISO text of an instant, cut to the
second, and the production date of a record is the day of its completion.
-/

namespace EdgeBridge

open Foundation

def IsStamp (text : Text) : Prop := ∃ time : Datetime, text = formatTimestamp time

/-- The completion time of a record, with its day. -/
def DatedBy (record : ProductionRecord) (time : Datetime) : Prop :=
  record.completedAt = formatTimestamp time ∧
    record.productionDate = Calendar.dateText (time.second / 86400)

structure Stamped (db : Database) : Prop where
  messages : ∀ row ∈ db.mqttMessages.rows, ∀ text, row.completedAt = some text → IsStamp text
  commands : ∀ row ∈ db.apiCommands.rows, IsStamp row.receivedAt
  records : ∀ record ∈ db.productionRecords.rows, ∃ time, DatedBy record time

theorem stamped_empty : Stamped .empty where
  messages := by
    intro row hrow
    cases hrow
  commands := by
    intro row hrow
    cases hrow
  records := by
    intro record hrecord
    cases hrecord

/-! ## One transaction -/

theorem RowChange.stamped {now : Datetime} {seq id : Nat} {job : Job} {answer : Answer}
    {before : Option MessageRecord} {next : MessageRecord}
    (h : RowChange now seq id job answer before (some next))
    (hjob : ∀ id arguments, job = .complete id arguments → IsStamp arguments.completedAt)
    (hbefore : ∀ row, before = some row → ∀ text, row.completedAt = some text → IsStamp text) :
    ∀ text, next.completedAt = some text → IsStamp text := by
  intro text htext
  cases h with
  | kept => exact hbefore next rfl text htext
  | created _ _ _ _ => cases htext
  | claimed row _ _ => exact hbefore row rfl text htext
  | @completed arguments row metadata =>
      simp only [completeMessage, Option.some.injEq] at htext
      exact htext ▸ hjob id arguments rfl
  | failed row => exact hbefore row rfl text htext
  | recovered row _ => exact hbefore row rfl text htext
  | replayed row _ => exact hbefore row rfl text htext

theorem Counted.dated {messageId : Nat} {completedAt : Text} {key : SummaryKey}
    {db after : Database} (h : Counted messageId completedAt key db after) {time : Datetime}
    (htime : completedAt = formatTimestamp time)
    (hdate : key.productionDate = Calendar.dateText (time.second / 86400))
    (hbefore : ∀ record ∈ db.productionRecords.rows, ∃ time, DatedBy record time) :
    ∀ record ∈ after.productionRecords.rows, ∃ time, DatedBy record time := by
  intro record hrecord
  have hfound := productionRecord_of_mem hrecord
  rcases eq_or_ne record.mqttMessageId messageId with hid | hid
  · rcases h.record with ⟨stored, hstored, hcompletedAt, hkey, -⟩
    rw [hid, hstored, Option.some.injEq] at hfound
    subst hfound
    refine ⟨time, hcompletedAt.trans htime, ?_⟩
    rw [← hdate, ← hkey]
    rfl
  · rw [h.others _ hid] at hfound
    exact hbefore record (Table.find?_eq_some hfound).1

section

variable {platform : Platform} {now : Datetime} {db after : Database} {answer : Answer}

theorem auditWrite_stamped {write : AuditWrite}
    (hbefore : ∀ row ∈ db.apiCommands.rows, IsStamp row.receivedAt)
    (h : write.run platform db = .ok after) :
    ∀ row ∈ after.apiCommands.rows, IsStamp row.receivedAt := by
  have hupdate : ∀ {requestId bindings} {change : Table.Update ApiCommandRecord},
      (∀ row, (change row).receivedAt = row.receivedAt) →
      updateCommand requestId bindings change db = .ok after →
        ∀ row ∈ after.apiCommands.rows, IsStamp row.receivedAt := by
    intro requestId bindings change hchange hok
    unfold updateCommand at hok
    rcases bind_eq_ok.mp hok with ⟨_, -, hbody⟩
    split at hbody
    · cases hbody
    · cases hbody
      intro row hrow
      rcases List.mem_map.mp hrow with ⟨old, hold, rfl⟩
      split
      · rw [hchange]
        exact hbefore old hold
      · exact hbefore old hold
  cases write with
  | create arguments receivedAt =>
      have hrows := (Table.insert_eq_some_iff.mp (createApiCommandRecord_eq_ok h).1).2.1
      intro row hrow
      rw [hrows] at hrow
      rcases List.mem_append.mp hrow with hold | hnew
      · exact hbefore row hold
      · rw [List.mem_singleton.mp hnew]
        exact ⟨receivedAt, rfl⟩
  | result requestId outcome => exact hupdate (fun _ => rfl) h
  | response requestId code body => exact hupdate (fun _ => rfl) h

theorem reconcileRow_stamped {machineId : Text} {row : MessageRecord}
    (state : ReconciliationResult × Database) (hrow : ∀ text, row.completedAt = some text →
      IsStamp text) (hsome : row.completedAt.isSome = true)
    (hbefore : ∀ record ∈ state.2.productionRecords.rows, ∃ time, DatedBy record time) :
    ∀ record ∈ (reconcileRow platform machineId now state row).2.productionRecords.rows,
      ∃ time, DatedBy record time := by
  rcases Option.isSome_iff_exists.mp hsome with ⟨completedAt, hcompletedAt⟩
  rcases hrow completedAt hcompletedAt with ⟨time, rfl⟩
  obtain hsame | ⟨metadata, applied, -, hupsert⟩ :=
    reconcileRow_cases platform machineId now state row
  · rw [hsame]
    exact hbefore
  · obtain ⟨-, date, hdate, hcounted⟩ := upsert_eq_ok hupsert
    simp only [hcompletedAt, Option.getD_some] at hdate hcounted
    rw [productionDate_formatTimestamp, Except.ok.injEq] at hdate
    exact hcounted.dated rfl hdate.symm hbefore

theorem reconcileRows_stamped {machineId : Text} {rows : List MessageRecord}
    (hrows : ∀ row ∈ rows, (∀ text, row.completedAt = some text → IsStamp text) ∧
      row.completedAt.isSome = true) (state : ReconciliationResult × Database)
    (hbefore : ∀ record ∈ state.2.productionRecords.rows, ∃ time, DatedBy record time) :
    ∀ record ∈ (rows.foldl (reconcileRow platform machineId now) state).2.productionRecords.rows,
      ∃ time, DatedBy record time :=
  reconcileRows_preserve
    (I := fun after => ∀ record ∈ after.productionRecords.rows, ∃ time, DatedBy record time)
    (fun state row hrow => reconcileRow_stamped state (hrows row hrow).1 (hrows row hrow).2)
    state hbefore

theorem markCompleted_stamped {id : Nat} {arguments : CompletionArguments}
    (htime : IsStamp arguments.completedAt)
    (hbefore : ∀ record ∈ db.productionRecords.rows, ∃ time, DatedBy record time)
    (h : markCompleted platform id arguments now db = .ok after) :
    ∀ record ∈ after.productionRecords.rows, ∃ time, DatedBy record time := by
  cases hack : truthy arguments.ack with
  | some ack =>
      rcases markCompleted_eq_ok hack h with
        ⟨source, metadata, date, -, -, hdate, -, hcounted⟩
      rcases htime with ⟨time, htime⟩
      rw [htime, productionDate_formatTimestamp, Except.ok.injEq] at hdate
      exact hcounted.dated htime hdate.symm hbefore
  | none =>
      obtain ⟨metadata, rfl⟩ := markCompleted_unacked hack h
      exact hbefore

theorem Stamped.run {job : Job} (h : Stamped db)
    (hjob : ∀ id arguments, job = .complete id arguments → IsStamp arguments.completedAt)
    (hrun : job.run platform now db = .ok (answer, after)) : Stamped after := by
  have hmessages : ∀ row ∈ after.mqttMessages.rows, ∀ text, row.completedAt = some text →
      IsStamp text := by
    intro row hrow
    have hchange := Job.rowChange hrun row.id
    rw [message_of_mem hrow] at hchange
    refine hchange.stamped hjob fun old hold => ?_
    exact h.messages old (Table.mem_of_byId hold)
  refine ⟨hmessages, ?_, ?_⟩
  · cases job with
    | audit write =>
        rcases map_eq_ok.mp hrun with ⟨result, hwrite, heq⟩
        cases heq
        exact auditWrite_stamped h.commands hwrite
    | cleanup retentionDays batchSize =>
        intro row hrow
        exact h.commands row ((Job.cleanup_commands hrun).1 row hrow)
    | save | claim | complete | fail | recover | replay | reconcile =>
        rw [Job.apiCommands rfl (by intro _ _ hjob; cases hjob) hrun]
        exact h.commands
  · have htables := (Job.tables hrun).2
    cases job with
    | complete id arguments =>
        rcases map_eq_ok.mp hrun with ⟨result, hcomplete, heq⟩
        cases heq
        exact markCompleted_stamped (hjob id arguments rfl) h.records hcomplete
    | reconcile machineId limit =>
        rcases map_eq_ok.mp hrun with ⟨⟨result, final⟩, hreconcile, heq⟩
        cases heq
        rw [reconcile_eq_foldl hreconcile]
        refine reconcileRows_stamped (fun row hrow => ?_) _ h.records
        have hselect := List.mem_filter.mp (List.mem_of_mem_take hrow)
        have hneeds := hselect.2
        simp only [needsReconciliation, Bool.and_eq_true] at hneeds
        exact ⟨h.messages row hselect.1, hneeds.1.1.1.2⟩
    | cleanup retentionDays batchSize =>
        rcases map_eq_ok.mp hrun with ⟨⟨result, final⟩, hcleanup, heq⟩
        cases heq
        rcases cleanup_eq_ok hcleanup with rfl | ⟨cutoff, -, rfl⟩
        · exact h.records
        · intro record hrecord
          exact h.records record (List.mem_filter.mp hrecord).1
    | save | claim | fail | recover | replay | audit =>
        rw [(htables rfl).1]
        exact h.records

end

/-! ## Runs -/

/-- A completion that the worker is about to record carries a stamp. -/
theorem completing_stamp {s : Bridge} {thread : Thread} {id : Nat}
    {arguments : CompletionArguments} (h : s.worker.WellFormed s.config)
    (hjob : s.job thread = some (.complete id arguments)) : IsStamp arguments.completedAt := by
  have hthread : thread = .worker := by
    by_contra hthread
    exact (job_of_ne_worker hthread hjob).2.2.1 _ _ rfl
  subst hthread
  cases workerJob_of_job hjob with
  | completing record lastAttemptAt acknowledged completedAt rest hcompleting =>
      rw [hcompleting] at h
      exact h

end EdgeBridge
