import EdgeBridge.Ledger
import EdgeBridge.Store.Cleanup

/-!
# The queue counts

`get_queue_counts` and what one transaction does to the numbers that it returns.
-/

namespace EdgeBridge

open Foundation

/-! ## `get_queue_counts` -/

/-- `sorted(VALID_STATUSES)`. -/
def validStatuses : List MessageStatus := [.completed, .failed, .new, .processing]

/-- `SELECT status, COUNT(...) ... GROUP BY status`, for the statuses that occur. -/
def statusGroups (db : Database) : List (MessageStatus × Nat) :=
  (validStatuses.map fun status =>
    (status, (db.mqttMessages.select fun row => row.status == status).length)).filter
      fun group => 0 < group.2

/-- Zero for each status, updated with the groups. -/
def getQueueCounts (db : Database) : List (MessageStatus × Nat) :=
  validStatuses.map fun status => (status, ((statusGroups db).lookup status).getD 0)

/-- `counts.get(status, 0)`. -/
def queueCount (db : Database) (status : MessageStatus) : Nat :=
  ((getQueueCounts db).lookup status).getD 0

def countStatus (db : Database) (status : MessageStatus) : Nat :=
  db.mqttMessages.rows.countP fun row => row.status == status

theorem lookup_filter_pos (f : MessageStatus → Nat) (statuses : List MessageStatus)
    (status : MessageStatus) :
    (((statuses.map fun status => (status, f status)).filter
      fun group => 0 < group.2).lookup status).getD 0 =
        if status ∈ statuses then f status else 0 := by
  induction statuses with
  | nil => rfl
  | cons head tail ih =>
      rw [List.map_cons, List.filter_cons]
      by_cases hhead : status = head
      · subst hhead
        by_cases hpos : 0 < f status
        · simp [hpos]
        · have hzero : f status = 0 := by omega
          simp only [hzero, Nat.lt_irrefl, decide_false, Bool.false_eq_true, if_false,
            ih, List.mem_cons_self, if_true]
          split <;> simp
      · by_cases hpos : 0 < f head
        · simp [hpos, List.lookup_cons, beq_eq_false_iff_ne.mpr hhead, hhead, ih]
        · simp [hpos, hhead, ih]

/-- Every status is counted, also one without rows. -/
theorem queueCount_eq (db : Database) (status : MessageStatus) :
    queueCount db status = countStatus db status := by
  have hgroup : ∀ status, ((statusGroups db).lookup status).getD 0 = countStatus db status := by
    intro status
    unfold statusGroups
    rw [lookup_filter_pos]
    rw [if_pos (by cases status <;> simp [validStatuses])]
    exact List.countP_eq_length_filter.symm
  unfold queueCount getQueueCounts
  simp only [hgroup]
  cases status with
  | completed | failed | new | processing => rfl

/-- The four counts add up to the rows of the queue. -/
theorem countStatus_total (db : Database) :
    countStatus db .completed + countStatus db .failed + countStatus db .new +
      countStatus db .processing = db.mqttMessages.rows.length := by
  unfold countStatus
  generalize db.mqttMessages.rows = rows
  induction rows with
  | nil => rfl
  | cons row rows ih =>
      simp only [List.countP_cons, List.length_cons]
      cases row.status <;> simp <;> omega

/-! ## What one transaction does to the counts -/

/-- The messages that a caller was told are stored. -/
def Answer.inserted : Answer → Nat
  | .saved message => if message.inserted then 1 else 0
  | _ => 0

/-- The messages that a caller was told are deleted. -/
def Answer.deleted : Answer → Nat
  | .cleaned result => result.deletedMqttMessages
  | _ => 0

def Job.completes : Job → Nat
  | .complete _ _ => 1
  | _ => 0

/-- The rows before and after a transaction differ by what its answer says. -/
structure Flow (job : Job) (answer : Answer) (db after : Database) : Prop where
  given : after.mqttMessages.seq = db.mqttMessages.seq + answer.inserted
  rows : after.mqttMessages.rows.length + answer.deleted =
    db.mqttMessages.rows.length + answer.inserted
  completed : countStatus after .completed + answer.deleted =
    countStatus db .completed + job.completes

section

variable {platform : Platform} {now : Datetime} {db after : Database}

/-- An update after which the same rows are completed. -/
theorem Flow.of_update {job : Job} {answer : Answer} {which : MessageRecord → Bool}
    {change : Table.Update MessageRecord} (hinserted : answer.inserted = 0)
    (hdeleted : answer.deleted = 0) (hcompletes : job.completes = 0)
    (hafter : after.mqttMessages = db.mqttMessages.update which change)
    (hstatus : ∀ row ∈ db.mqttMessages.rows, which row = true →
      ((change row).status == MessageStatus.completed) = (row.status == .completed)) :
    Flow job answer db after where
  given := by rw [hafter, hinserted, Table.seq_update, Nat.add_zero]
  rows := by
    rw [hafter, hinserted, hdeleted]
    exact List.length_map _
  completed := by
    unfold countStatus
    rw [hafter, hdeleted, hcompletes, Table.countP_update hstatus]

theorem Flow.of_same {job : Job} {answer : Answer} (hinserted : answer.inserted = 0)
    (hdeleted : answer.deleted = 0) (hcompletes : job.completes = 0)
    (hafter : after.mqttMessages = db.mqttMessages) : Flow job answer db after := by
  refine ⟨?_, ?_, ?_⟩
  · rw [hafter, hinserted, Nat.add_zero]
  · rw [hafter, hinserted, hdeleted]
  · unfold countStatus
    rw [hafter, hdeleted, hcompletes]

/-- As many rows are deleted as were selected. -/
theorem countP_cleanableIds {α : Type} [Row α] (table : Table α) (which : α → Bool)
    (limit : Nat) :
    table.rows.countP (fun row => (cleanableIds table which limit).contains (rowId row)) =
      (cleanableIds table which limit).length := by
  have hnodup : (cleanableIds table which limit).Nodup := by
    rw [cleanableIds_eq]
    exact (selectIds_nodup table which).sublist (List.take_sublist _ _)
  rw [List.countP_eq_length_filter, ← List.length_map (f := rowId)]
  refine List.Perm.length_eq ((List.perm_ext_iff_of_nodup
    (selectIds_nodup table fun row =>
      (cleanableIds table which limit).contains (rowId row)) hnodup).mpr fun id => ?_)
  constructor
  · intro hmem
    obtain ⟨row, hrow, rfl⟩ := List.mem_map.mp hmem
    exact List.contains_iff_mem.mp (List.mem_filter.mp hrow).2
  · intro hmem
    obtain ⟨row, hrow, -⟩ := mem_cleanableIds hmem
    obtain rfl := Table.rowId_of_byId hrow
    exact List.mem_map.mpr ⟨row, List.mem_filter.mpr
      ⟨Table.mem_of_byId hrow, List.contains_iff_mem.mpr hmem⟩, rfl⟩

/-- A cleanup takes completed rows, and says how many. -/
theorem deleteBatch_flow (retentionDays batchSize : Int) (cutoff : Text) (limit : Nat)
    (db : Database) :
    Flow (.cleanup retentionDays batchSize) (.cleaned (deleteBatch cutoff limit db).1) db
      (deleteBatch cutoff limit db).2 := by
  have hids := countP_cleanableIds db.mqttMessages (isCleanableMessage cutoff db) limit
  have hdelete := db.mqttMessages.countP_delete fun row =>
    (cleanableIds db.mqttMessages (isCleanableMessage cutoff db) limit).contains (rowId row)
  refine ⟨rfl, ?_, ?_⟩
  · have hall := hdelete fun _ => true
    simp only [Bool.and_true, hids, List.countP_true] at hall
    exact hall
  · have hcompleted := hdelete fun row => row.status == .completed
    have hsame : db.mqttMessages.rows.countP (fun row =>
        (cleanableIds db.mqttMessages (isCleanableMessage cutoff db) limit).contains
          (rowId row) && row.status == .completed) =
        (cleanableIds db.mqttMessages (isCleanableMessage cutoff db) limit).length := by
      rw [← hids]
      refine List.countP_congr fun row hrow => ?_
      rw [Bool.and_eq_true, and_iff_left_iff_imp]
      intro hmem
      obtain ⟨found, hfound, hcleanable⟩ := mem_cleanableIds (List.contains_iff_mem.mp hmem)
      rw [Table.byId_rowId hrow, Option.some.injEq] at hfound
      simp only [← hfound, isCleanableMessage, Bool.and_eq_true] at hcleanable
      exact hcleanable.1.1
    rw [hsame] at hcompleted
    exact hcompleted

theorem cleanup_flow {retentionDays batchSize : Int} {result : CleanupResult}
    (h : cleanupRawOperationalData platform retentionDays batchSize now db =
      .ok (result, after)) :
    Flow (.cleanup retentionDays batchSize) (.cleaned result) db after := by
  unfold cleanupRawOperationalData at h
  split at h
  · cases h
  · split at h
    · cases h
      exact .of_same rfl rfl rfl rfl
    · obtain ⟨cutoff, -, hbody⟩ := bind_eq_ok.mp h
      simp only at hbody
      split at hbody
      · cases hbody
        exact .of_same rfl rfl rfl rfl
      · split at hbody
        · cases hbody
          exact .of_same rfl rfl rfl rfl
        · cases hbody
          exact deleteBatch_flow _ _ _ _ _

/-- A claim takes no completed row. -/
theorem claim_flow {batchSize maxRetries : Int} {records : List MessageRecord}
    (h : claimPendingMessages platform batchSize maxRetries now db = .ok (records, after)) :
    Flow (.claim batchSize maxRetries) (.claimed records) db after := by
  unfold claimPendingMessages at h
  split at h
  · cases h
    exact .of_same rfl rfl rfl rfl
  · split at h
    · cases h
    · simp only at h
      split at h
      · cases h
        exact .of_same rfl rfl rfl rfl
      · split at h
        · cases h
        · cases h
          refine .of_update rfl rfl rfl rfl fun row hrow hclaimed => ?_
          obtain ⟨found, hfound, hpending⟩ :=
            pendingIds_pending (List.contains_iff_mem.mp hclaimed)
          rw [message_of_mem hrow, Option.some.injEq] at hfound
          subst hfound
          cases hstatus : row.status with
          | completed => simp [isPending, hstatus] at hpending
          | new | processing | failed => rfl

theorem Job.flow {past : List Completed} {s : Ledger} {job : Job} {answer : Answer}
    (h : Accounted past s) (hallowed : Ledger.allowed s.held job = true)
    (hrun : job.run platform now s.db = .ok (answer, after)) : Flow job answer s.db after := by
  cases job with
  | save message =>
      obtain ⟨⟨saved, result⟩, hsave, heq⟩ := map_eq_ok.mp hrun
      cases heq
      rcases (saveMessage_cases hsave).2 with ⟨rfl, hold, -⟩ | ⟨-, hnew, -, hinsert, -⟩
      · exact .of_same (by simp [Answer.inserted, hold]) rfl rfl rfl
      · have hinserted : (Answer.saved saved).inserted = 1 := by simp [Answer.inserted, hnew]
        refine ⟨?_, ?_, ?_⟩
        · rw [hinserted]
          exact Table.seq_insert hinsert
        · rw [hinserted, (Table.insert_eq_some_iff.mp hinsert).2.1, List.length_append]
          rfl
        · unfold countStatus
          rw [Table.countP_insert hinsert]
          rfl
  | claim batchSize maxRetries =>
      obtain ⟨⟨records, result⟩, hclaim, heq⟩ := map_eq_ok.mp hrun
      cases heq
      exact claim_flow hclaim
  | complete id arguments =>
      obtain ⟨result, hcomplete, heq⟩ := map_eq_ok.mp hrun
      cases heq
      obtain ⟨metadata, hmessages⟩ := markCompleted_mqttMessages hcomplete
      simp only [Ledger.allowed, Bool.and_eq_true, List.contains_iff_mem] at hallowed
      obtain ⟨row, hrow, hopen⟩ := h.heldOpen id hallowed.1
      obtain rfl := id_of_message hrow
      refine ⟨by rw [hmessages]; rfl, ?_, ?_⟩
      · rw [hmessages]
        exact List.length_map _
      · unfold countStatus
        rw [hmessages]
        refine Table.countP_update_row (Table.mem_of_byId hrow) ?_ rfl
        rcases hopen with hstatus | hstatus <;> simp [hstatus]
  | fail id failure =>
      obtain ⟨result, hfail, heq⟩ := map_eq_ok.mp hrun
      cases heq
      rw [(markFailed_eq_ok hfail).2]
      refine .of_update rfl rfl rfl rfl fun row hrow hfailed => ?_
      obtain ⟨held, hheld, hopen⟩ := h.heldOpen id (List.contains_iff_mem.mp hallowed)
      rw [← beq_iff_eq.mp hfailed, message_of_mem hrow, Option.some.injEq] at hheld
      subst hheld
      rcases hopen with hstatus | hstatus <;> rw [hstatus] <;> rfl
  | recover staleBefore excludeIds =>
      obtain ⟨⟨count, result⟩, hreset, heq⟩ := map_eq_ok.mp hrun
      cases heq
      rw [resetStaleProcessing_eq_ok hreset]
      refine .of_update rfl rfl rfl rfl fun row _ hstale => ?_
      simp only [isStale, Bool.and_eq_true, beq_iff_eq] at hstale
      rw [hstale.1.1]
      rfl
  | replay messageHash =>
      obtain ⟨⟨attempt, result⟩, hreplay, heq⟩ := map_eq_ok.mp hrun
      cases heq
      rcases recordAckReplayAttempt_eq_ok hreplay with rfl | ⟨count, hafter⟩
      · exact .of_same rfl rfl rfl rfl
      · rw [hafter]
        exact .of_update rfl rfl rfl rfl fun row _ _ => rfl
  | reconcile machineId limit =>
      obtain ⟨⟨result, final⟩, hreconcile, heq⟩ := map_eq_ok.mp hrun
      cases heq
      exact .of_same rfl rfl rfl (reconcile_eq_ok hreconcile).1
  | cleanup retentionDays batchSize =>
      obtain ⟨⟨result, final⟩, hcleanup, heq⟩ := map_eq_ok.mp hrun
      cases heq
      exact cleanup_flow hcleanup
  | audit write =>
      obtain ⟨result, hwrite, heq⟩ := map_eq_ok.mp hrun
      cases heq
      exact .of_same rfl rfl rfl (auditWrite_eq_ok hwrite).1

end

end EdgeBridge
