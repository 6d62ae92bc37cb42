import EdgeBridge.Bridge.Completion
import EdgeBridge.Foundation.Grouping
import EdgeBridge.Store.Recovery
import EdgeBridge.Store.Timestamps

/-!
# The dashboard views

Three queries share one filter builder.  The recent view applies the dates to the
completion time of the production records, the other two to the production date of
the summary rows.
-/

namespace EdgeBridge

open Foundation

/-! ## The queries -/

structure DashboardFilters where
  dateFrom : Option Text
  dateTo : Option Text
  tableNo : Option Text
  model : Option Text
  customerId : Option Int
  batchNumber : Option Text
  operatorId : Option Int

/-- The columns that the filters look at. -/
structure FilteredColumns where
  date : Text
  tableNo : Text
  model : Text
  customerId : Option Int
  batchNumber : Option Text
  operatorId : Option Int

/-- `column = ?`, which `NULL` does not satisfy; without a value there is no clause. -/
def columnIs {α : Type} [DecidableEq α] (wanted column : Option α) : Bool :=
  wanted.all fun value => decide (column = some value)

/-- `date_column >= ?`, unless the date is absent or empty. -/
def notBefore (dateFrom : Option Text) (date : Text) : Bool :=
  (truthy dateFrom).all fun wanted => decide (wanted ≤ date)

/-- `date_column <= ?`. -/
def notAfter (dateTo : Option Text) (date : Text) : Bool :=
  (truthy dateTo).all fun wanted => decide (date ≤ wanted)

/-- The `WHERE` clause of `_dashboard_filters`. -/
def dashboardFilters (filters : DashboardFilters) (columns : FilteredColumns) : Bool :=
  notBefore filters.dateFrom columns.date && notAfter filters.dateTo columns.date &&
    columnIs filters.tableNo (some columns.tableNo) &&
    columnIs filters.model (some columns.model) &&
    columnIs filters.customerId columns.customerId &&
    columnIs filters.batchNumber columns.batchNumber &&
    columnIs filters.operatorId columns.operatorId

/-- The parameters of `_dashboard_filters`; an absent one is bound nowhere. -/
def DashboardFilters.parameters (filters : DashboardFilters) : List Binding :=
  [.text (truthy filters.dateFrom), .text (truthy filters.dateTo), .text filters.tableNo,
    .text filters.model, .int filters.customerId, .text filters.batchNumber,
    .int filters.operatorId]

def ProductionRecord.columns (record : ProductionRecord) (date : Text) : FilteredColumns :=
  ⟨date, record.tableNo, record.model, record.customerId, record.batchNumber,
    record.operatorId⟩

def DailySummary.columns (row : DailySummary) : FilteredColumns :=
  ⟨row.productionDate, row.tableNo, row.model, row.customerId, row.batchNumber,
    row.operatorId⟩

/-- The records that the recent query selects, before its order and its limit. -/
def recentSelection (filters : DashboardFilters) (db : Database) : List ProductionRecord :=
  db.productionRecords.select fun record =>
    dashboardFilters filters (record.columns record.completedAt)

/-- The rows that the daily query selects, before its order and its limit. -/
def dailySelection (filters : DashboardFilters) (db : Database) : List DailySummary :=
  db.dailySummary.select fun row => dashboardFilters filters row.columns

/-- `_bounded_limit` of an integer. -/
def boundedLimit (value : Int) : Nat := (min (max value 1) 500).toNat

/-- `ORDER BY completed_at DESC, id DESC`. -/
def newestFirst (first second : ProductionRecord) : Bool :=
  decide (second.completedAt < first.completedAt) ||
    first.completedAt == second.completedAt && decide (second.id ≤ first.id)

def queryRecentProductionRecords (filters : DashboardFilters) (limit : Int) (db : Database) :
    Except PyError (List ProductionRecord) := do
  bindAll filters.parameters
  .ok (((recentSelection filters db).mergeSort newestFirst).take (boundedLimit limit))

/-- `ORDER BY production_date DESC, table_no, model`. -/
def dailyOrder (first second : DailySummary) : Bool :=
  decide (second.productionDate < first.productionDate) ||
    first.productionDate == second.productionDate &&
      (decide (first.tableNo < second.tableNo) ||
        first.tableNo == second.tableNo && decide (first.model ≤ second.model))

def queryDailyProductionSummary (filters : DashboardFilters) (limit : Int) (db : Database) :
    Except PyError (List DailySummary) := do
  bindAll filters.parameters
  .ok (((dailySelection filters db).mergeSort dailyOrder).take (boundedLimit limit))

structure ProductionTotals where
  productionCount : Nat
  firstCompletedAt : Option Text
  lastCompletedAt : Option Text
  firstProductionDate : Option Text
  lastProductionDate : Option Text

def queryProductionSummaryTotals (filters : DashboardFilters) (db : Database) :
    Except PyError ProductionTotals := do
  bindAll filters.parameters
  let rows := dailySelection filters db
  .ok
    { productionCount := (rows.map DailySummary.productionCount).sum
      firstCompletedAt := (rows.map DailySummary.firstCompletedAt).min?
      lastCompletedAt := (rows.map DailySummary.lastCompletedAt).max?
      firstProductionDate := (rows.map DailySummary.productionDate).min?
      lastProductionDate := (rows.map DailySummary.productionDate).max? }

/-- The three views show the same number of completed productions. -/
def ViewsAgree (filters : DashboardFilters) (db : Database) : Prop :=
  ∀ totals, queryProductionSummaryTotals filters db = .ok totals →
    (recentSelection filters db).length = totals.productionCount ∧
      totals.productionCount =
        ((dailySelection filters db).map DailySummary.productionCount).sum

/-- The recent query returns as many of the selected records as its limit allows. -/
theorem queryRecent_eq_ok {filters : DashboardFilters} {limit : Int} {db : Database}
    {records : List ProductionRecord}
    (h : queryRecentProductionRecords filters limit db = .ok records) :
    records.length = min (boundedLimit limit) (recentSelection filters db).length := by
  rcases bind_eq_ok.mp h with ⟨_, -, hbody⟩
  cases hbody
  rw [List.length_take, List.length_mergeSort]

/-- The daily query returns the selected rows, if its limit leaves none of them out. -/
theorem queryDaily_eq_ok {filters : DashboardFilters} {limit : Int} {db : Database}
    {rows : List DailySummary} (h : queryDailyProductionSummary filters limit db = .ok rows)
    (hall : (dailySelection filters db).length ≤ boundedLimit limit) :
    rows.Perm (dailySelection filters db) := by
  rcases bind_eq_ok.mp h with ⟨_, -, hbody⟩
  cases hbody
  rw [List.take_of_length_le (by rw [List.length_mergeSort]; exact hall)]
  exact List.mergeSort_perm _ _

/-- What the three queries answer where the views agree. -/
theorem ViewsAgree.answers {filters : DashboardFilters} {limit : Int} {db : Database}
    {records : List ProductionRecord} {rows : List DailySummary} {totals : ProductionTotals}
    (h : ViewsAgree filters db)
    (hrecords : queryRecentProductionRecords filters limit db = .ok records)
    (hrows : queryDailyProductionSummary filters limit db = .ok rows)
    (htotals : queryProductionSummaryTotals filters db = .ok totals) :
    records.length = min (boundedLimit limit) totals.productionCount ∧
      ((dailySelection filters db).length ≤ boundedLimit limit →
        (rows.map DailySummary.productionCount).sum = totals.productionCount) := by
  obtain ⟨hrecent, hdaily⟩ := h totals htotals
  refine ⟨by rw [queryRecent_eq_ok hrecords, hrecent], fun hall => ?_⟩
  rw [hdaily]
  exact ((queryDaily_eq_ok hrows hall).map DailySummary.productionCount).sum_eq

/-! ## The tallied tables -/

/-- Every production record is counted once, under its key, and belongs to a message
that stays completed. -/
structure Tallied (db : Database) : Prop where
  counts : ∀ key, summaryCount db key =
    db.productionRecords.rows.countP fun record => record.key == key
  batches : ∀ record ∈ db.productionRecords.rows, record.batchNumber ≠ some []
  labels : ∀ key row, summaryRow db key = some row → row.batchNumber ≠ some []
  applied : ∀ record ∈ db.productionRecords.rows, record.summaryApplied = true
  known : ∀ record ∈ db.productionRecords.rows,
    record.mqttMessageId ≤ db.mqttMessages.seq
  closed : ∀ record ∈ db.productionRecords.rows, ∀ row,
    db.message record.mqttMessageId = some row → row.status = .completed

theorem mem_productionRecords_iff {db : Database} {record : ProductionRecord} :
    record ∈ db.productionRecords.rows ↔
      db.productionRecord record.mqttMessageId = some record :=
  ⟨productionRecord_of_mem, fun h => (Table.find?_eq_some h).1⟩

theorem Counted.records_perm {messageId : Nat} {completedAt : Text} {key : SummaryKey}
    {db after : Database} (h : Counted messageId completedAt key db after)
    (hnone : db.productionRecord messageId = none) {stored : ProductionRecord}
    (hstored : after.productionRecord messageId = some stored) :
    after.productionRecords.rows.Perm (stored :: db.productionRecords.rows) := by
  have hid : stored.mqttMessageId = messageId :=
    beq_iff_eq.mp (Table.find?_eq_some hstored).2
  have hnodup : ∀ table : Table ProductionRecord, table.rows.Nodup := fun table =>
    table.ascending.imp fun hlt heq => Nat.ne_of_lt hlt (congrArg rowId heq)
  have hfresh : stored ∉ db.productionRecords.rows := by
    intro hmem
    rw [mem_productionRecords_iff, hid, hnone] at hmem
    cases hmem
  refine (List.perm_ext_iff_of_nodup (hnodup _)
    (List.nodup_cons.mpr ⟨hfresh, hnodup _⟩)).mpr fun record => ?_
  rw [List.mem_cons, mem_productionRecords_iff, mem_productionRecords_iff]
  by_cases hsame : record.mqttMessageId = messageId
  · rw [hsame, hstored, hnone, Option.some.injEq]
    constructor
    · intro heq
      exact .inl heq.symm
    · rintro (heq | hno)
      · exact heq.symm
      · cases hno
  · rw [h.others _ hsame]
    constructor
    · exact .inr
    · rintro (rfl | hold)
      · exact absurd hid hsame
      · exact hold

theorem upsert_written_of_ok {platform : Platform} {source : MessageRecord}
    {completion : Completion} {now : Datetime} {db after : Database} {applied : Bool}
    (h : upsertProductionRecordAndSummary platform source completion now db =
      .ok (applied, after)) (hnone : db.productionRecord source.id = none) :
    ∃ date, Written (newProductionRecord source completion date [] true) db after := by
  have hcopy := h
  unfold upsertProductionRecordAndSummary at hcopy
  rcases bind_eq_ok.mp hcopy with ⟨date, hdate, hbody⟩
  rcases bind_eq_ok.mp hbody with ⟨_, hbound, -⟩
  have hfresh : summaryApplied db source.id = false := by
    rw [summaryApplied, hnone]
    rfl
  rcases upsert_written now hdate hbound hfresh with ⟨final, hok, hwritten⟩
  rw [hok, Except.ok.injEq, Prod.mk.injEq] at h
  exact ⟨date, h.2 ▸ hwritten⟩

theorem Tallied.upsert {platform : Platform} {source : MessageRecord}
    {completion : Completion} {now : Datetime} {db after : Database} {applied : Bool}
    (h : Tallied db) (hnone : db.productionRecord source.id = none)
    (hbatch : completion.metadata.batchNumber ≠ some [])
    (hmessage : ∃ row, db.message source.id = some row ∧ row.status = .completed)
    (hok : upsertProductionRecordAndSummary platform source completion now db =
      .ok (applied, after)) : Tallied after := by
  rcases upsert_written_of_ok hok hnone with ⟨date, hwritten⟩
  rcases upsert_eq_ok hok with ⟨hmessages, day, -, hcounted⟩
  rcases hcounted.record with ⟨stored, hstored, -, hkey, happlied⟩
  rcases hmessage with ⟨row, hrow, hstatus⟩
  have hperm := hcounted.records_perm hnone hstored
  have hid : stored.mqttMessageId = source.id :=
    beq_iff_eq.mp (Table.find?_eq_some hstored).2
  have hcontents := hwritten.stored
  rw [show (newProductionRecord source completion date [] true).mqttMessageId = source.id
    from rfl, hstored, Option.map_some, Option.some.injEq] at hcontents
  have hrecords : ∀ {P : ProductionRecord → Prop}, P stored →
      (∀ record ∈ db.productionRecords.rows, P record) →
      ∀ record ∈ after.productionRecords.rows, P record := by
    intro P hnew hold record hrecord
    rcases List.mem_cons.mp (hperm.mem_iff.mp hrecord) with rfl | hmem
    · exact hnew
    · exact hold record hmem
  have hview : ∀ id, after.message id = db.message id := by
    intro id
    unfold Database.message
    rw [hmessages]
  refine ⟨?_, hrecords ?_ h.batches, ?_, hrecords happlied h.applied, ?_, ?_⟩
  · intro key
    have hunapplied : summaryApplied db source.id = false := by
      rw [summaryApplied, hnone]
      rfl
    rw [hcounted.counts hunapplied key, hperm.countP_eq, List.countP_cons, h.counts key, hkey]
    rcases eq_or_ne key (completionKey source completion day) with rfl | hne
    · simp
    · simp [hne, hne.symm]
  · have hsame := congrArg ProductionRecord.batchNumber hcontents
    rw [show stored.contents.batchNumber = stored.batchNumber from rfl] at hsame
    rw [hsame]
    exact hbatch
  · intro key label hlabel
    by_cases hkeys : key = (newProductionRecord source completion date [] true).key
    · subst hkeys
      rw [hwritten.summary.counted, Option.some.injEq] at hlabel
      subst hlabel
      cases hbefore : summaryRow db (newProductionRecord source completion date [] true).key with
      | none => exact hbatch
      | some before => exact h.labels _ before hbefore
    · rw [hwritten.summary.others key hkeys] at hlabel
      exact h.labels key label hlabel
  · rw [hmessages]
    exact hrecords (hid ▸ message_le_seq hrow) h.known
  · refine hrecords ?_ ?_
    · intro other hother
      rw [hview, hid, hrow, Option.some.injEq] at hother
      exact hother ▸ hstatus
    · intro record hrecord other hother
      rw [hview] at hother
      exact h.closed record hrecord other hother

/-- The queue may change as long as completed messages stay so. -/
theorem Tallied.of_messages {db after : Database} (h : Tallied db)
    (hrecords : after.productionRecords = db.productionRecords)
    (hsummary : after.dailySummary = db.dailySummary)
    (hseq : db.mqttMessages.seq ≤ after.mqttMessages.seq)
    (hclosed : ∀ record ∈ db.productionRecords.rows, ∀ row,
      after.message record.mqttMessageId = some row → row.status = .completed) :
    Tallied after := by
  refine ⟨?_, ?_, ?_, ?_, ?_, ?_⟩
  · intro key
    rw [hrecords, ← h.counts key]
    unfold summaryCount
    rw [hsummary]
  · rw [hrecords]
    exact h.batches
  · intro key row hrow
    unfold summaryRow at hrow
    rw [hsummary] at hrow
    exact h.labels key row hrow
  · rw [hrecords]
    exact h.applied
  · intro record hrecord
    rw [hrecords] at hrecord
    exact Nat.le_trans (h.known record hrecord) hseq
  · rw [hrecords]
    exact hclosed

theorem Tallied.productionRecord_eq_none {db : Database} (h : Tallied db) {id : Nat}
    (hunapplied : summaryApplied db id = false) : db.productionRecord id = none := by
  cases hrecord : db.productionRecord id with
  | none => rfl
  | some record =>
      rw [summaryApplied, hrecord, Option.any_some,
        h.applied record (Table.find?_eq_some hrecord).1] at hunapplied
      cases hunapplied

/-! ## The steps -/

theorem extractDashboardMetadata_batch (response : PyValue) :
    (extractDashboardMetadata response).batchNumber ≠ some [] := by
  unfold extractDashboardMetadata
  split
  · split
    · exact fun hempty => nonemptyText_ne_nil ((optionalStr_eq _).symm.trans hempty) rfl
    · exact nofun
  · exact nofun

theorem orElse_batch {metadata fallback : ProductionMetadata}
    (h : metadata.batchNumber ≠ some []) (hfallback : fallback.batchNumber ≠ some []) :
    (metadata.orElse fallback).batchNumber ≠ some [] := by
  change metadata.batchNumber.or fallback.batchNumber ≠ some []
  cases hbatch : metadata.batchNumber with
  | none => exact hfallback
  | some batch =>
      rw [Option.some_or, ← hbatch]
      exact h

theorem productionMetadataFromResponse_batch {odooResponse : Text}
    {metadata : ProductionMetadata}
    (h : productionMetadataFromResponse odooResponse = .ok metadata) :
    metadata.batchNumber ≠ some [] := by
  unfold productionMetadataFromResponse at h
  split at h
  · cases h
    rw [storedMetadata_eq]
    exact extractDashboardMetadata_batch _
  · cases h
    exact nofun
  · cases h

theorem reconcileRow_tallied {platform : Platform} {machineId : Text} {now : Datetime}
    {row : MessageRecord} {state : ReconciliationResult × Database}
    (h : Tallied state.2) (hnone : state.2.productionRecord row.id = none)
    (hmessage : ∃ found, state.2.message row.id = some found ∧ found.status = .completed) :
    Tallied (reconcileRow platform machineId now state row).2 := by
  obtain hsame | ⟨metadata, applied, hmetadata, hupsert⟩ :=
    reconcileRow_cases platform machineId now state row
  · rw [hsame]
    exact h
  · exact h.upsert hnone (productionMetadataFromResponse_batch hmetadata) hmessage hupsert

theorem reconcileRows_tallied {platform : Platform} {machineId : Text} {now : Datetime}
    {rows : List MessageRecord} (hdistinct : (rows.map MessageRecord.id).Nodup)
    (state : ReconciliationResult × Database) (h : Tallied state.2)
    (hrows : ∀ row ∈ rows, state.2.productionRecord row.id = none ∧
      ∃ found, state.2.message row.id = some found ∧ found.status = .completed) :
    Tallied (rows.foldl (reconcileRow platform machineId now) state).2 := by
  induction rows generalizing state with
  | nil => exact h
  | cons row rows ih =>
      rcases List.nodup_cons.mp hdistinct with ⟨hfresh, hrest⟩
      rcases hrows row List.mem_cons_self with ⟨hnone, hmessage⟩
      rw [List.foldl_cons]
      refine ih hrest _ (reconcileRow_tallied h hnone hmessage) fun other hother => ?_
      rcases hrows other (List.mem_cons_of_mem row hother) with ⟨hnone, found, hfound, hstatus⟩
      have hne : other.id ≠ row.id := by
        intro heq
        exact hfresh (heq ▸ List.mem_map_of_mem hother)
      refine ⟨(reconcileRow_others hne state).trans hnone, found, ?_, hstatus⟩
      unfold Database.message at hfound ⊢
      rw [reconcileRow_mqttMessages]
      exact hfound

theorem reconcile_tallied {platform : Platform} {machineId : Text} {limit : Int}
    {now : Datetime} {db after : Database} {result : ReconciliationResult}
    (h : Tallied db) (hrun : reconcileCompletedProductionRecords platform machineId limit now
      db = .ok (result, after)) : Tallied after := by
  rw [reconcile_eq_foldl hrun]
  refine reconcileRows_tallied (reconciliationRows_distinct limit db) (⟨0, 0, 0, 0⟩, db) h
    fun row hrow => ?_
  obtain ⟨hmem, hneeds⟩ := List.mem_filter.mp (List.mem_of_mem_take hrow)
  simp only [needsReconciliation, Bool.and_eq_true, beq_iff_eq, Bool.not_eq_true'] at hneeds
  exact ⟨h.productionRecord_eq_none hneeds.2, row, message_of_mem hmem, hneeds.1.1.1.1⟩

/-! ## Runs without a cleanup -/

/-- Everything but a cleanup; a completion carries the worker's own arguments. -/
def Producing : LedgerOp → Prop
  | .run (.cleanup _ _) _ => False
  | .run (.complete _ arguments) _ =>
      ∃ (acknowledged : Acknowledged) (config : Config) (time : Datetime),
        arguments = acknowledged.arguments config (formatTimestamp time)
  | _ => True

/-- A queue of any age, before its first production record. -/
structure Unproduced (db : Database) : Prop where
  stamped : Stamped db
  productionRecords : db.productionRecords = .empty
  dailySummary : db.dailySummary = .empty

structure Produced (s : Ledger) : Prop where
  heldOpen : ∀ id ∈ s.held, ∃ row, s.db.message id = some row ∧ row.Open
  heldNodup : s.held.Nodup
  stamped : Stamped s.db
  tallied : Tallied s.db

theorem Unproduced.produced {db : Database} (h : Unproduced db) : Produced ⟨db, []⟩ := by
  have hnone : ∀ record, record ∉ db.productionRecords.rows := by
    intro record hrecord
    rw [h.productionRecords] at hrecord
    cases hrecord
  refine ⟨by simp, List.nodup_nil, h.stamped, ⟨?_, ?_, ?_, ?_, ?_, ?_⟩⟩
  · intro key
    unfold summaryCount
    rw [h.productionRecords, h.dailySummary]
    rfl
  · exact fun record hrecord => absurd hrecord (hnone record)
  · intro key row hrow
    unfold summaryRow at hrow
    rw [h.dailySummary] at hrow
    cases hrow
  · exact fun record hrecord => absurd hrecord (hnone record)
  · exact fun record hrecord => absurd hrecord (hnone record)
  · exact fun record hrecord => absurd hrecord (hnone record)

section

variable {platform : Platform} {now : Datetime} {s t : Ledger}

theorem Produced.closed_after (h : Produced s) {job : Job} {answer : Answer}
    {after : Database} (hjob : ∀ id arguments, job ≠ .complete id arguments)
    (hallowed : Ledger.allowed s.held job = true)
    (hrun : job.run platform now s.db = .ok (answer, after)) :
    ∀ record ∈ s.db.productionRecords.rows, ∀ row,
      after.message record.mqttMessageId = some row → row.status = .completed := by
  intro record hrecord row hrow
  have hchange := Job.rowChange hrun record.mqttMessageId
  rw [hrow] at hchange
  cases hbefore : s.db.message record.mqttMessageId with
  | none =>
      rw [hbefore] at hchange
      have hnew := hchange.of_none.1
      have hknown := h.tallied.known record hrecord
      omega
  | some old =>
      have hstatus := h.tallied.closed record hrecord old hbefore
      rw [hbefore] at hchange
      have hfail : ∀ failure, job ≠ .fail record.mqttMessageId failure := by
        rintro failure rfl
        rcases h.heldOpen _ (List.contains_iff_mem.mp hallowed) with ⟨held, hheld, hopen⟩
        rw [hbefore, Option.some.injEq] at hheld
        subst hheld
        rcases hopen with hopen | hopen
        · cases hopen.symm.trans hstatus
        · cases hopen.symm.trans hstatus
      rcases hchange.of_completed hstatus (hjob record.mqttMessageId) hfail with
        hgone | ⟨next, hnext, hcompleted, -⟩
      · cases hgone
      · rw [Option.some.injEq] at hnext
        exact hnext ▸ hcompleted

theorem Produced.run_quiet (h : Produced s) {job : Job} {answer : Answer} {after : Database}
    (hjob : ∀ id arguments, job ≠ .complete id arguments)
    (hcleanup : ∀ retentionDays batchSize, job ≠ .cleanup retentionDays batchSize)
    (hallowed : Ledger.allowed s.held job = true)
    (hrun : job.run platform now s.db = .ok (answer, after)) :
    Produced ⟨after, Ledger.heldAfter s.held job answer⟩ := by
  have hheld := heldAfter_open h.heldOpen h.heldNodup hjob hrun
  have hstamped := h.stamped.run (fun id arguments heq => absurd heq (hjob id arguments)) hrun
  refine ⟨hheld.2, hheld.1, hstamped, ?_⟩
  have htables := Job.tables hrun
  have hclosed := h.closed_after hjob hallowed hrun
  cases job with
  | complete id arguments => exact absurd rfl (hjob id arguments)
  | cleanup retentionDays batchSize => exact absurd rfl (hcleanup retentionDays batchSize)
  | reconcile machineId limit =>
      rcases map_eq_ok.mp hrun with ⟨⟨result, final⟩, hreconcile, heq⟩
      cases heq
      exact reconcile_tallied h.tallied hreconcile
  | save | claim | fail | recover | replay | audit =>
      rcases htables.2 rfl with ⟨hrecords, hsummary⟩
      exact h.tallied.of_messages hrecords hsummary htables.1 hclosed

theorem Produced.run_complete (h : Produced s) {id : Nat} {acknowledged : Acknowledged}
    {config : Config} {time : Datetime} {after : Database}
    (hheld : id ∈ s.held)
    (hrun : markCompleted platform id
      (acknowledged.arguments config (formatTimestamp time)) now s.db = .ok after) :
    Produced ⟨after, s.held.erase id⟩ := by
  have hjob : Job.run platform now s.db
      (.complete id (acknowledged.arguments config (formatTimestamp time))) =
        .ok (.done, after) := map_eq_ok.mpr ⟨after, hrun, rfl⟩
  have hackText : acknowledged.ack ≠ [] := by
    rcases extractAck_eq_some.mp acknowledged.extracted with ⟨entries, -, -, hstored⟩
    exact extractStoredAck_ne_nil hstored
  have hack : truthy (acknowledged.arguments config (formatTimestamp time)).ack =
      some acknowledged.ack := truthy_eq_some.mpr ⟨rfl, hackText⟩
  rcases markCompleted_upsert hack hrun with
    ⟨source, metadata, applied, hsource, hmetadata, hupsert⟩
  have hid := id_of_message hsource
  let marked := writeCompletion id
    (acknowledged.arguments config (formatTimestamp time)) metadata s.db
  have hview : ∀ other, marked.message other = (s.db.message other).map fun row =>
      if row.id == id then completeMessage
        (acknowledged.arguments config (formatTimestamp time)) metadata row else row :=
    message_update s.db (fun row => row.id == id) _
  have hnone : s.db.productionRecord id = none := by
    cases hrecord : s.db.productionRecord id with
    | none => rfl
    | some record =>
        have hfound := Table.find?_eq_some hrecord
        rcases h.heldOpen id hheld with ⟨row, hrow, hopen⟩
        have hstatus := h.tallied.closed record hfound.1 row
          ((beq_iff_eq.mp hfound.2).symm ▸ hrow)
        rcases hopen with hopen | hopen
        · cases hopen.symm.trans hstatus
        · cases hopen.symm.trans hstatus
  have hmarked : Tallied marked := by
    refine h.tallied.of_messages rfl rfl (Nat.le_refl _) fun record hrecord row hrow => ?_
    rw [hview] at hrow
    rcases Option.map_eq_some_iff.mp hrow with ⟨old, hold, rfl⟩
    split
    · rfl
    · exact h.tallied.closed record hrecord old hold
  have hbatch : metadata.batchNumber ≠ some [] := by
    rw [completionMetadata, hack] at hmetadata
    rcases map_eq_ok.mp hmetadata with ⟨stored, hstored, rfl⟩
    exact orElse_batch (extractDashboardMetadata_batch acknowledged.response.value)
      (productionMetadataFromResponse_batch hstored)
  refine ⟨?_, h.heldNodup.erase id, ?_, ?_⟩
  · intro other hother
    have hne : other ≠ id := by
      rintro rfl
      exact h.heldNodup.not_mem_erase hother
    rcases h.heldOpen other (List.mem_of_mem_erase hother) with ⟨row, hrow, hopen⟩
    refine ⟨row, ?_, hopen⟩
    rw [message_not_updated (upsert_eq_ok hupsert).1 hne]
    exact hrow
  · refine h.stamped.run ?_ hjob
    rintro other arguments heq
    cases heq
    exact ⟨time, rfl⟩
  · refine hmarked.upsert (hid ▸ hnone) hbatch ?_ hupsert
    refine ⟨completeMessage (acknowledged.arguments config (formatTimestamp time)) metadata
      source, ?_, rfl⟩
    have hmessage : marked.message id = _ := message_updated rfl
    rw [hid, hmessage, hsource, Option.map_some]

theorem Produced.step {op : LedgerOp} (h : Produced s) (hop : Producing op)
    (hstep : Ledger.step platform s op = some t) : Produced t := by
  cases op with
  | drop =>
      cases hstep
      exact ⟨by simp, List.nodup_nil, h.stamped, h.tallied⟩
  | run job now =>
      simp only [Ledger.step] at hstep
      split at hstep
      · next hallowed =>
        cases hrun : job.run platform now s.db with
        | error error =>
            rw [hrun] at hstep
            cases hstep
            have hsub := Ledger.settled_sublist s.held job
            exact ⟨fun id hid => h.heldOpen id (hsub.subset hid), h.heldNodup.sublist hsub,
              h.stamped, h.tallied⟩
        | ok result =>
            rcases result with ⟨answer, after⟩
            rw [hrun] at hstep
            cases hstep
            by_cases hjob : ∃ id arguments, job = .complete id arguments
            · rcases hjob with ⟨id, arguments, rfl⟩
              rcases hop with ⟨acknowledged, config, time, rfl⟩
              rcases map_eq_ok.mp hrun with ⟨final, hcomplete, heq⟩
              cases heq
              simp only [Ledger.allowed, Bool.and_eq_true, List.contains_iff_mem] at hallowed
              exact h.run_complete hallowed.1 hcomplete
            · simp only [not_exists] at hjob
              refine h.run_quiet hjob ?_ hallowed hrun
              rintro retentionDays batchSize rfl
              exact hop
      · cases hstep

/-- What a run without a cleanup reaches from a queue without production records. -/
theorem produced_run {db : Database} (hstart : Unproduced db) {ops : List LedgerOp}
    (hops : ∀ op ∈ ops, Producing op)
    (hrun : (ledgerSystem platform).exec ⟨db, []⟩ ops = some s) : Produced s :=
  (ledgerSystem platform).run_invariant (P := fun _ _ op => Producing op)
    (I := fun _ s => Produced s) hstart.produced
    (fun _ _ _ _ _ hm hop hstep => hm.step hop hstep)
    ((ledgerSystem platform).along_of_mem hops _ _) hrun

end

/-! ## One filter on three views -/

/-- The dates, if given, have the ten characters of YYYY-MM-DD. -/
def DashboardFilters.Dated (filters : DashboardFilters) : Prop :=
  (∀ text, truthy filters.dateFrom = some text → text.length = 10) ∧
    ∀ text, truthy filters.dateTo = some text → text.length = 10

/-- The record passes the filters by its production date. -/
def onDay (filters : DashboardFilters) (record : ProductionRecord) : Bool :=
  dashboardFilters filters (record.columns record.productionDate)

/-- The summary row of the record passes the filters. -/
def counted (filters : DashboardFilters) (db : Database) (record : ProductionRecord) : Bool :=
  inSelected ProductionRecord.key DailySummary.key
    (fun row => dashboardFilters filters row.columns) db.dailySummary.rows record

/-- The record passes, but its summary row bears the other of `NULL` and -1. -/
def mixedOut (filters : DashboardFilters) (db : Database) (record : ProductionRecord) : Bool :=
  onDay filters record && !counted filters db record

/-- The record does not pass, but its summary row does. -/
def mixedIn (filters : DashboardFilters) (db : Database) (record : ProductionRecord) : Bool :=
  counted filters db record && !onDay filters record

/-- The record passes, and was completed on the day `date_to`. -/
def late (filters : DashboardFilters) (record : ProductionRecord) : Bool :=
  onDay filters record && truthy filters.dateTo == some record.productionDate

/-- The dates of a record that has been cut out of its completion time. -/
theorem dashboardFilters_completedAt {filters : DashboardFilters} (hdated : filters.Dated)
    {record : ProductionRecord} {time : Datetime} (h : DatedBy record time) :
    dashboardFilters filters (record.columns record.completedAt) =
      (onDay filters record && !late filters record) := by
  rcases h with ⟨hcompletedAt, hdate⟩
  have hlength : record.productionDate.length = 10 := by
    rw [hdate]
    rfl
  have htext : record.completedAt = record.productionDate ++
      84 :: Calendar.timeText (time.second % 86400) := by
    rw [hcompletedAt, hdate]
    rfl
  have hfrom : notBefore filters.dateFrom record.completedAt =
      notBefore filters.dateFrom record.productionDate := by
    unfold notBefore
    cases hgiven : truthy filters.dateFrom with
    | none => rfl
    | some dateFrom =>
        have hsame := hlength.trans (hdated.1 dateFrom hgiven).symm
        simp only [Option.all_some, decide_eq_decide, ← not_lt, htext]
        rw [Text.append_lt_iff hsame]
  have hto : notAfter filters.dateTo record.completedAt =
      (notAfter filters.dateTo record.productionDate &&
        !(truthy filters.dateTo == some record.productionDate)) := by
    unfold notAfter
    cases hgiven : truthy filters.dateTo with
    | none => rfl
    | some dateTo =>
        have hsame := (hdated.2 dateTo hgiven).trans hlength.symm
        have hle : record.completedAt ≤ dateTo ↔
            record.productionDate ≤ dateTo ∧ dateTo ≠ record.productionDate := by
          rw [← not_lt, ← not_lt, htext, Text.lt_append_iff hsame (by simp)]
          tauto
        rw [Option.all_some, Option.all_some, Bool.eq_iff_iff]
        simp [hle]
  unfold late onDay dashboardFilters
  simp only [ProductionRecord.columns, hfrom, hto]
  cases truthy filters.dateTo == some record.productionDate with
  | false => simp
  | true => simp

/-! ## The rows behind the records -/

theorem Tallied.grouped {db : Database} (h : Tallied db) :
    Grouped ProductionRecord.key DailySummary.key DailySummary.productionCount
      db.productionRecords.rows db.dailySummary.rows where
  distinct := by
    have hnodup : db.dailySummary.rows.Nodup := db.dailySummary.ascending.imp
      fun hlt heq => Nat.ne_of_lt hlt (congrArg rowId heq)
    exact hnodup.map_on fun _ hfirst _ hsecond => summary_unique hfirst hsecond
  sizes := by
    intro row hrow
    rw [← h.counts row.key, summaryCount, summary_of_mem hrow]
    rfl
  complete := by
    intro record hrecord
    have hpositive : 0 < summaryCount db record.key := by
      rw [h.counts record.key]
      exact List.countP_pos_iff.mpr ⟨record, hrecord, beq_self_eq_true _⟩
    unfold summaryCount at hpositive
    cases hfind : db.dailySummary.find? fun row => row.key == record.key with
    | none =>
        rw [hfind] at hpositive
        cases hpositive
    | some row =>
        have hfound := Table.find?_eq_some hfind
        exact ⟨row, hfound.1, beq_iff_eq.mp hfound.2⟩

theorem columnIs_sentinel {wanted first second : Option Int}
    (hwanted : wanted ≠ some summaryIntSentinel)
    (hsame : first.getD summaryIntSentinel = second.getD summaryIntSentinel) :
    columnIs wanted first = columnIs wanted second := by
  cases wanted with
  | none => rfl
  | some value =>
      have hvalue : value ≠ summaryIntSentinel := fun heq => hwanted (congrArg some heq)
      cases first with
      | none =>
          cases second with
          | none => rfl
          | some second =>
              have hne : second ≠ value := fun heq => hvalue (heq ▸ hsame.symm)
              simp [columnIs, hne]
      | some first =>
          cases second with
          | none =>
              have hne : first ≠ value := fun heq => hvalue (heq ▸ hsame)
              simp [columnIs, hne]
          | some second => rw [show first = second from hsame]

theorem batch_of_key {first second : Option Text} (hfirst : first ≠ some [])
    (hsecond : second ≠ some [])
    (hsame : first.getD summaryTextSentinel = second.getD summaryTextSentinel) :
    first = second := by
  cases first with
  | none =>
      cases second with
      | none => rfl
      | some second => exact absurd (congrArg some hsame.symm) hsecond
  | some first =>
      cases second with
      | none => exact absurd (congrArg some hsame) hfirst
      | some second => exact congrArg some hsame

/-- Away from the sentinel a record passes like its row. -/
theorem Tallied.counted_eq_onDay {db : Database} (h : Tallied db)
    {filters : DashboardFilters}
    (hcustomer : filters.customerId ≠ some summaryIntSentinel)
    (hoperator : filters.operatorId ≠ some summaryIntSentinel)
    {record : ProductionRecord} (hrecord : record ∈ db.productionRecords.rows) :
    counted filters db record = onDay filters record := by
  rcases h.grouped.complete record hrecord with ⟨row, hrow, hkey⟩
  have hlabel : row.batchNumber ≠ some [] := by
    refine h.labels row.key row.contents ?_
    rw [summaryRow, summary_of_mem hrow]
    rfl
  have hfields := hkey
  simp only [DailySummary.key, ProductionRecord.key, summaryKey, SummaryKey.mk.injEq] at hfields
  rcases hfields with ⟨hdate, -, htable, hmodel, hcustomerId, hbatch, hoperatorId⟩
  have hbatchNumber := batch_of_key hlabel (h.batches record hrecord) hbatch
  rw [counted, h.grouped.inSelected_iff _ hrow hkey]
  simp only [onDay, dashboardFilters, DailySummary.columns, ProductionRecord.columns, hdate,
    htable, hmodel, hbatchNumber, columnIs_sentinel hcustomer hcustomerId,
    columnIs_sentinel hoperator hoperatorId]

/-! ## Agreement -/

theorem viewsAgree_iff {filters : DashboardFilters} {db : Database} :
    ViewsAgree filters db ↔ (bindAll filters.parameters = .ok () →
      (recentSelection filters db).length =
        ((dailySelection filters db).map DailySummary.productionCount).sum) := by
  unfold ViewsAgree queryProductionSummaryTotals
  cases hbound : bindAll filters.parameters with
  | error error =>
      constructor
      · exact nofun
      · exact nofun
  | ok done =>
      constructor
      · intro hagree _
        exact (hagree _ rfl).1
      · rintro hsame totals hok
        cases hok
        exact ⟨hsame rfl, rfl⟩

/-- What the recent view leaves out and what the rows mislabel must balance. -/
theorem Produced.balance {s : Ledger} (h : Produced s) {filters : DashboardFilters}
    (hdated : filters.Dated) :
    (recentSelection filters s.db).length =
        ((dailySelection filters s.db).map DailySummary.productionCount).sum ↔
      s.db.productionRecords.rows.countP (late filters) +
          s.db.productionRecords.rows.countP (mixedIn filters s.db) =
        s.db.productionRecords.rows.countP (mixedOut filters s.db) := by
  have hrecent : (recentSelection filters s.db).length =
      s.db.productionRecords.rows.countP fun record =>
        onDay filters record && !late filters record := by
    rw [recentSelection, Table.select, ← List.countP_eq_length_filter]
    apply List.countP_congr
    intro record hrecord
    rcases h.stamped.records record hrecord with ⟨time, htime⟩
    rw [dashboardFilters_completedAt hdated htime]
  have hdaily : ((dailySelection filters s.db).map DailySummary.productionCount).sum =
      s.db.productionRecords.rows.countP (counted filters s.db) :=
    h.tallied.grouped.sum_sizes fun row => dashboardFilters filters row.columns
  have hlate : s.db.productionRecords.rows.countP (fun record =>
      onDay filters record && late filters record) =
        s.db.productionRecords.rows.countP (late filters) := by
    apply List.countP_congr
    intro record _
    simp [late]
  have hboth : s.db.productionRecords.rows.countP (fun record =>
      onDay filters record && counted filters s.db record) =
        s.db.productionRecords.rows.countP fun record =>
          counted filters s.db record && onDay filters record := by
    simp only [Bool.and_comm]
  have hday := countP_split (onDay filters) (late filters) s.db.productionRecords.rows
  have hout := countP_split (onDay filters) (counted filters s.db) s.db.productionRecords.rows
  have hin := countP_split (counted filters s.db) (onDay filters) s.db.productionRecords.rows
  rw [hrecent, hdaily]
  unfold mixedIn mixedOut
  omega

/--
When the dashboard views agree, for every state that completions and reconciliation
reach and every filter: exactly when the records that were completed on the day
`date_to` and those that only their row lets in are as many as those that their row
keeps out.  Without a filter for the sentinel this is when no record that passes was
completed on the day `date_to`.  Where they agree, the answers do: the recent query returns
as many records as the totals count, and the daily rows add up to them, up to the limit.
-/
theorem views_agree_iff {platform : Platform} {db : Database} (hstart : Unproduced db)
    {ops : List LedgerOp} (hops : ∀ op ∈ ops, Producing op) {s : Ledger}
    (hrun : (ledgerSystem platform).exec ⟨db, []⟩ ops = some s)
    {filters : DashboardFilters} (hdated : filters.Dated) :
    (ViewsAgree filters s.db ↔ (bindAll filters.parameters = .ok () →
      s.db.productionRecords.rows.countP (late filters) +
          s.db.productionRecords.rows.countP (mixedIn filters s.db) =
        s.db.productionRecords.rows.countP (mixedOut filters s.db))) ∧
    (filters.customerId ≠ some summaryIntSentinel →
      filters.operatorId ≠ some summaryIntSentinel →
      (ViewsAgree filters s.db ↔ (bindAll filters.parameters = .ok () →
        ∀ record ∈ s.db.productionRecords.rows, late filters record = false))) ∧
    (ViewsAgree filters s.db → ∀ {limit records rows totals},
      queryRecentProductionRecords filters limit s.db = .ok records →
      queryDailyProductionSummary filters limit s.db = .ok rows →
      queryProductionSummaryTotals filters s.db = .ok totals →
      records.length = min (boundedLimit limit) totals.productionCount ∧
        ((dailySelection filters s.db).length ≤ boundedLimit limit →
          (rows.map DailySummary.productionCount).sum = totals.productionCount)) := by
  have hproduced := produced_run hstart hops hrun
  have hbalance := hproduced.balance hdated
  refine ⟨by rw [viewsAgree_iff, hbalance], fun hcustomer hoperator => ?_,
    fun hagree => hagree.answers⟩
  have hmixed : ∀ record ∈ s.db.productionRecords.rows,
      counted filters s.db record = onDay filters record :=
    fun record hrecord => hproduced.tallied.counted_eq_onDay hcustomer hoperator hrecord
  have hin : s.db.productionRecords.rows.countP (mixedIn filters s.db) = 0 := by
    refine List.countP_eq_zero.mpr fun record hrecord => ?_
    simp [mixedIn, hmixed record hrecord]
  have hout : s.db.productionRecords.rows.countP (mixedOut filters s.db) = 0 := by
    refine List.countP_eq_zero.mpr fun record hrecord => ?_
    simp [mixedOut, hmixed record hrecord]
  rw [viewsAgree_iff, hbalance, hin, hout, Nat.add_zero, List.countP_eq_zero]
  simp only [Bool.not_eq_true]

theorem unproduced_empty : Unproduced .empty := ⟨stamped_empty, rfl, rfl⟩

def fullAcknowledged : Acknowledged where
  response := fullResponse
  responseText := fullResponseText
  ack := str "A1"
  dumped := dump_fullResponse
  extracted := by decide

/-- One message is received, claimed and completed at noon. -/
def producedOnce : List LedgerOp :=
  [.run (.save sampleMessage) noon, .run (.claim 10 3) noon,
    .run (.complete 1 (fullAcknowledged.arguments sampleConfig (formatTimestamp noon))) noon]

theorem producing_producedOnce : ∀ op ∈ producedOnce, Producing op := by
  simp only [producedOnce, List.forall_mem_cons, List.not_mem_nil, false_implies,
    implies_true, and_true]
  exact ⟨trivial, trivial, fullAcknowledged, sampleConfig, noon, rfl⟩

/-- Everything until the day of noon, or that many days later. -/
def untilDay (later : Nat) : DashboardFilters where
  dateFrom := none
  dateTo := some (Calendar.dateText (noon.second / 86400 + later))
  tableNo := none
  model := none
  customerId := none
  batchNumber := none
  operatorId := none

theorem views_agree_iff_sample :
    ∃ s, (ledgerSystem samplePlatform).exec ⟨.empty, []⟩ producedOnce = some s ∧
      (recentSelection (untilDay 1) s.db).length = 1 ∧ ViewsAgree (untilDay 1) s.db := by
  have hrun : ((ledgerSystem samplePlatform).exec ⟨.empty, []⟩ producedOnce).map (fun s =>
      ((recentSelection (untilDay 1) s.db).length,
        s.db.productionRecords.rows.all fun record => !late (untilDay 1) record)) =
      some (1, true) := by decide +kernel
  rcases Option.map_eq_some_iff.mp hrun with ⟨s, hs, hvalues⟩
  simp only [Prod.mk.injEq, List.all_eq_true, Bool.not_eq_true'] at hvalues
  refine ⟨s, hs, hvalues.1, ?_⟩
  refine ((views_agree_iff unproduced_empty producing_producedOnce hs ?_).2.1 (by decide)
    (by decide)).mpr fun _ => hvalues.2
  refine ⟨nofun, ?_⟩
  intro text htext
  cases (truthy_eq_some.mp htext).1
  rfl

/-- A production that was completed on the day `date_to` is counted in the totals, and is
missing in the recent view. -/
theorem last_day_left_out :
    (∀ op ∈ producedOnce, Producing op) ∧
    ∃ s, (ledgerSystem samplePlatform).exec ⟨.empty, []⟩ producedOnce = some s ∧
      recentSelection (untilDay 0) s.db = [] ∧
      ((dailySelection (untilDay 0) s.db).map DailySummary.productionCount).sum = 1 ∧
      ¬ ViewsAgree (untilDay 0) s.db := by
  refine ⟨producing_producedOnce, ?_⟩
  have hrun : ((ledgerSystem samplePlatform).exec ⟨.empty, []⟩ producedOnce).map (fun s =>
      ((recentSelection (untilDay 0) s.db).isEmpty,
        ((dailySelection (untilDay 0) s.db).map DailySummary.productionCount).sum)) =
      some (true, 1) := by decide +kernel
  rcases Option.map_eq_some_iff.mp hrun with ⟨s, hs, hvalues⟩
  simp only [Prod.mk.injEq, List.isEmpty_iff] at hvalues
  refine ⟨s, hs, hvalues.1, hvalues.2, ?_⟩
  intro hagree
  have hsame := viewsAgree_iff.mp hagree (by decide)
  rw [hvalues.1, hvalues.2] at hsame
  cases hsame

end EdgeBridge
