import EdgeBridge.Production

/-!
# What the production writes do to the counts

One completed message adds one to the count of one summary key; everything else
leaves the counts as they are.
-/

namespace EdgeBridge

open Foundation

def summaryCount (db : Database) (key : SummaryKey) : Nat :=
  ((db.dailySummary.find? fun row => row.key == key).map
    DailySummary.productionCount).getD 0

def summaryTotal (db : Database) : Nat :=
  (db.dailySummary.rows.map DailySummary.productionCount).sum

/-- `idx_daily_summary_unique_key`. -/
theorem summary_unique {db : Database} {first second : DailySummary}
    (hfirst : first ∈ db.dailySummary.rows) (hsecond : second ∈ db.dailySummary.rows)
    (hkey : first.key = second.key) : first = second := by
  apply Table.eq_of_clash hfirst hsecond
  · exact beq_iff_eq.mpr hkey
  · exact beq_iff_eq.mpr hkey.symm

theorem summary_of_mem {db : Database} {row : DailySummary}
    (h : row ∈ db.dailySummary.rows) :
    (db.dailySummary.find? fun other => other.key == row.key) = some row := by
  cases hfind : db.dailySummary.find? fun other => other.key == row.key with
  | none =>
      have hne := Table.find?_eq_none hfind h
      simp at hne
  | some found =>
      have hfound := Table.find?_eq_some hfind
      rw [summary_unique hfound.1 h (beq_iff_eq.mp hfound.2)]

/-- `idx_production_records_mqtt_message_id`. -/
theorem productionRecord_unique {db : Database} {first second : ProductionRecord}
    (hfirst : first ∈ db.productionRecords.rows)
    (hsecond : second ∈ db.productionRecords.rows)
    (hid : first.mqttMessageId = second.mqttMessageId) : first = second := by
  apply Table.eq_of_clash hfirst hsecond
  · exact beq_iff_eq.mpr hid
  · exact beq_iff_eq.mpr hid.symm

theorem productionRecord_of_mem {db : Database} {record : ProductionRecord}
    (h : record ∈ db.productionRecords.rows) :
    db.productionRecord record.mqttMessageId = some record := by
  cases hfind : db.productionRecord record.mqttMessageId with
  | none =>
      have hne := Table.find?_eq_none hfind h
      simp at hne
  | some found =>
      have hfound := Table.find?_eq_some hfind
      rw [productionRecord_unique hfound.1 h (beq_iff_eq.mp hfound.2)]

/-! ## The daily summary -/

theorem key_firstSummary (record : ProductionRecord) (nowText : Text) (id : Nat) :
    (Row.withId id (firstSummary record nowText)).key = record.key := rfl

theorem key_addToSummary (record : ProductionRecord) (nowText : Text)
    (row : DailySummary) : (addToSummary record nowText row).key = row.key := rfl

/-- The values of a summary row apart from its id and its times of writing. -/
def DailySummary.contents (row : DailySummary) : DailySummary :=
  { row with id := 0, createdAt := [], updatedAt := [] }

def summaryRow (db : Database) (key : SummaryKey) : Option DailySummary :=
  (db.dailySummary.find? fun row => row.key == key).map DailySummary.contents

/-- The row that a record leaves under its key. -/
def countedRow (record : ProductionRecord) : Option DailySummary → DailySummary
  | none => (firstSummary record []).contents
  | some row => (addToSummary record [] row).contents

/-- The record is counted in the row of its key, and no other row changes. -/
structure SummaryChange (record : ProductionRecord) (db after : Database) : Prop where
  counted : summaryRow after record.key = some (countedRow record (summaryRow db record.key))
  others : ∀ key, key ≠ record.key → summaryRow after key = summaryRow db key

/-- The increment never fails, and counts the record once, under its key. -/
theorem incrementDailySummary_change (record : ProductionRecord) (nowText : Text)
    (db : Database) :
    ∃ table, incrementDailySummary record nowText db =
        .ok { db with dailySummary := table } ∧
      SummaryChange record db { db with dailySummary := table } ∧
      summaryTotal { db with dailySummary := table } = summaryTotal db + 1 := by
  unfold incrementDailySummary
  cases hfind : db.dailySummary.find? fun row => row.key == record.key with
  | some row =>
      have hrow := Table.find?_eq_some hfind
      have hkey : row.key = record.key := beq_iff_eq.mp hrow.2
      have hupdate : ∀ key, (db.dailySummary.update (fun other => other.id == row.id)
          (addToSummary record nowText)).find? (fun other => other.key == key) =
          (db.dailySummary.find? fun other => other.key == key).map fun other =>
            if other.id == row.id then addToSummary record nowText other else other := by
        intro key
        exact db.dailySummary.find?_update _ _ fun other => by rw [key_addToSummary]
      refine ⟨_, rfl, ⟨?_, ?_⟩, ?_⟩
      · simp only [summaryRow, hupdate, hfind, Option.map_some, beq_self_eq_true, if_true]
        rfl
      · intro key hne
        simp only [summaryRow, hupdate]
        cases hother : db.dailySummary.find? fun other => other.key == key with
        | none => rfl
        | some other =>
            have hmem := Table.find?_eq_some hother
            have hdiff : other.id ≠ row.id := by
              intro hid
              have hsame := Table.eq_of_rowId_eq hmem.1 hrow.1 hid
              rw [hsame, hkey] at hmem
              exact hne (beq_iff_eq.mp hmem.2).symm
            simp [hdiff]
      · exact Table.sum_update_row hrow.1 (f := DailySummary.productionCount) rfl
  | none =>
      have hfree : db.dailySummary.conflicts (firstSummary record nowText) = false := by
        apply List.any_eq_false.mpr
        intro row hrow
        have := Table.find?_eq_none hfind hrow
        simp only [Bool.not_eq_true]
        exact this
      cases hinsert : db.dailySummary.insert (firstSummary record nowText) with
      | none =>
          have hclash := Table.insert_eq_none_iff.mp hinsert
          rw [hfree] at hclash
          cases hclash
      | some table =>
          have hnew := fun key => Table.find?_insert hinsert fun row => row.key == key
          refine ⟨table, rfl, ⟨?_, ?_⟩, ?_⟩
          · simp only [summaryRow, hnew, hfind, Option.none_or, key_firstSummary,
              beq_self_eq_true, if_true, Option.map_some]
            rfl
          · intro key hne
            simp only [summaryRow, hnew, key_firstSummary]
            simp [hne.symm]
          · exact Table.sum_insert hinsert DailySummary.productionCount

theorem summaryCount_summaryRow (db : Database) (key : SummaryKey) :
    summaryCount db key = ((summaryRow db key).map DailySummary.productionCount).getD 0 := by
  rw [summaryRow, Option.map_map]
  rfl

theorem productionCount_countedRow (record : ProductionRecord) (row : Option DailySummary) :
    (countedRow record row).productionCount =
      (row.map DailySummary.productionCount).getD 0 + 1 := by
  cases row with
  | none => rfl
  | some row => rfl

theorem SummaryChange.counts {record : ProductionRecord} {db after : Database}
    (h : SummaryChange record db after) (key : SummaryKey) :
    summaryCount after key = summaryCount db key + if key = record.key then 1 else 0 := by
  rw [summaryCount_summaryRow, summaryCount_summaryRow]
  rcases eq_or_ne key record.key with rfl | hne
  · rw [h.counted, Option.map_some, Option.getD_some, productionCount_countedRow, if_pos rfl]
  · rw [h.others key hne, if_neg hne, Nat.add_zero]

theorem incrementDailySummary_spec (record : ProductionRecord) (nowText : Text)
    (db : Database) :
    ∃ table, incrementDailySummary record nowText db =
        .ok { db with dailySummary := table } ∧
      (∀ key, summaryCount { db with dailySummary := table } key =
        summaryCount db key + if key = record.key then 1 else 0) ∧
      summaryTotal { db with dailySummary := table } = summaryTotal db + 1 := by
  rcases incrementDailySummary_change record nowText db with
    ⟨table, hincrement, hchange, htotal⟩
  exact ⟨table, hincrement, hchange.counts, htotal⟩

/-! ## The production record -/

theorem productionRecord_find (db : Database) (id : Nat) :
    db.productionRecord id =
      db.productionRecords.find? fun record => record.mqttMessageId == id := rfl

/-- What a write keeps of the values of a production record. -/
structure SameProduction (stored record : ProductionRecord) : Prop where
  messageId : stored.mqttMessageId = record.mqttMessageId
  completedAt : stored.completedAt = record.completedAt
  key : stored.key = record.key

/-- A record that is inserted is the first of its message. -/
theorem productionRecord_of_insert {record : ProductionRecord} {db : Database}
    {table : Table ProductionRecord} (h : db.productionRecords.insert record = some table) :
    db.productionRecord record.mqttMessageId = none := by
  cases hold : db.productionRecord record.mqttMessageId with
  | none => rfl
  | some old =>
      have hmem := Table.find?_eq_some hold
      have hfree := (Table.insert_eq_some_iff.mp h).1
      have hclash := List.any_eq_false.mp hfree old hmem.1
      exact absurd hmem.2 hclash

theorem productionRecord_of_clash {record : ProductionRecord} {db : Database}
    (h : db.productionRecords.insert record = none) :
    ∃ old, db.productionRecord record.mqttMessageId = some old ∧
      old.mqttMessageId = record.mqttMessageId := by
  obtain ⟨old, hold, hclash⟩ := List.any_eq_true.mp (Table.insert_eq_none_iff.mp h)
  have hid : old.mqttMessageId = record.mqttMessageId := beq_iff_eq.mp hclash
  have hfound := productionRecord_of_mem hold
  rw [hid] at hfound
  exact ⟨old, hfound, hid⟩

/-- The record of a message is written once, and its flag is kept. -/
theorem writeProductionRecord_spec (record : ProductionRecord) (db : Database) :
    ∃ table, writeProductionRecord record db = { db with productionRecords := table } ∧
      (∃ stored, table.find? (fun row => row.mqttMessageId == record.mqttMessageId) =
          some stored ∧ SameProduction stored record ∧
        (record.summaryApplied = summaryApplied db record.mqttMessageId →
          stored.summaryApplied = record.summaryApplied)) ∧
      ∀ id, id ≠ record.mqttMessageId →
        table.find? (fun row => row.mqttMessageId == id) = db.productionRecord id := by
  unfold writeProductionRecord
  cases hinsert : db.productionRecords.insert record with
  | some table =>
      refine ⟨table, rfl, ?_, ?_⟩
      · have hnew := Table.find?_insert hinsert
          fun row => row.mqttMessageId == record.mqttMessageId
        have hnone := productionRecord_of_insert hinsert
        rw [productionRecord_find] at hnone
        rw [hnone] at hnew
        refine ⟨Row.withId (db.productionRecords.seq + 1) record, ?_, ⟨rfl, rfl, rfl⟩,
          fun _ => rfl⟩
        rw [hnew]
        simp [Row.withId]
      · intro id hid
        have hnew := Table.find?_insert hinsert fun row => row.mqttMessageId == id
        rw [hnew, productionRecord_find]
        simp [Row.withId, hid.symm]
  | none =>
      have hupdate : ∀ id, (db.productionRecords.update
          (fun existing => existing.mqttMessageId == record.mqttMessageId)
          (overwriteRecord record)).skipId.find? (fun row => row.mqttMessageId == id) =
          (db.productionRecord id).map fun existing =>
            if existing.mqttMessageId == record.mqttMessageId then
              overwriteRecord record existing else existing :=
        fun id => db.productionRecords.find?_update _ _ fun _ => rfl
      obtain ⟨old, hold, hsame⟩ := productionRecord_of_clash hinsert
      refine ⟨_, rfl, ⟨overwriteRecord record old, ?_, ⟨hsame, rfl, rfl⟩, ?_⟩, ?_⟩
      · rw [hupdate, hold, Option.map_some, if_pos (beq_iff_eq.mpr hsame)]
      · intro hflag
        rw [hflag]
        simp [summaryApplied, hold, overwriteRecord]
      · intro id hid
        rw [hupdate]
        cases hother : db.productionRecord id with
        | none => rfl
        | some other =>
            have hid' : other.mqttMessageId = id := beq_iff_eq.mp (Table.find?_eq_some hother).2
            simp [hid', hid]

theorem setSummaryApplied_spec (messageId : Nat) (db : Database) (id : Nat) :
    (setSummaryApplied messageId db).productionRecord id =
      (db.productionRecord id).map fun record =>
        if record.mqttMessageId == messageId then markApplied record else record :=
  db.productionRecords.find?_update _ _ fun _ => rfl

theorem setSummaryApplied_own {messageId : Nat} {db : Database} {stored : ProductionRecord}
    (h : db.productionRecord messageId = some stored) :
    (setSummaryApplied messageId db).productionRecord messageId = some (markApplied stored) := by
  rw [setSummaryApplied_spec, h, Option.map_some, if_pos (Table.find?_eq_some h).2]

theorem setSummaryApplied_others {messageId id : Nat} (db : Database) (hid : id ≠ messageId) :
    (setSummaryApplied messageId db).productionRecord id = db.productionRecord id := by
  rw [setSummaryApplied_spec]
  cases hfound : db.productionRecord id with
  | none => rfl
  | some found =>
      have hother : found.mqttMessageId = id := beq_iff_eq.mp (Table.find?_eq_some hfound).2
      simp [hother, hid]

/-! ## The upsert -/

def completionKey (source : MessageRecord) (completion : Completion)
    (productionDate : Text) : SummaryKey :=
  summaryKey productionDate completion.machineId source.tableNo source.model
    completion.metadata.customerId completion.metadata.batchNumber
    completion.metadata.operatorId

/-- The tables after the completion of one message has been counted. -/
structure Counted (messageId : Nat) (completedAt : Text) (key : SummaryKey)
    (db after : Database) : Prop where
  apiCommands : after.apiCommands = db.apiCommands
  record : ∃ stored, after.productionRecord messageId = some stored ∧
    stored.completedAt = completedAt ∧ stored.key = key ∧ stored.summaryApplied = true
  others : ∀ id, id ≠ messageId → after.productionRecord id = db.productionRecord id
  kept : summaryApplied db messageId = true → after.dailySummary = db.dailySummary
  counts : summaryApplied db messageId = false → ∀ other,
    summaryCount after other = summaryCount db other + if other = key then 1 else 0
  total : summaryApplied db messageId = false → summaryTotal after = summaryTotal db + 1

theorem upsert_eq_ok {platform : Platform} {source : MessageRecord}
    {completion : Completion} {now : Datetime} {db after : Database} {applied : Bool}
    (h : upsertProductionRecordAndSummary platform source completion now db =
      .ok (applied, after)) :
    after.mqttMessages = db.mqttMessages ∧
      ∃ date, productionDate platform completion.completedAt = .ok date ∧
        Counted source.id completion.completedAt (completionKey source completion date)
          db after := by
  unfold upsertProductionRecordAndSummary at h
  obtain ⟨date, hdate, hbody⟩ := bind_eq_ok.mp h
  obtain ⟨_, -, hbody⟩ := bind_eq_ok.mp hbody
  simp only at hbody
  let record := newProductionRecord source completion date (formatTimestamp now)
    (summaryApplied db source.id)
  obtain ⟨records, hwrite, ⟨stored, hstored, hsame, hflag⟩, hothers⟩ :=
    writeProductionRecord_spec record db
  have hkey : stored.key = completionKey source completion date := hsame.key
  have happlied := hflag rfl
  rw [hwrite] at hbody
  split at hbody
  · next halready =>
    cases hbody
    refine ⟨rfl, date, hdate, rfl, ⟨stored, hstored, hsame.completedAt, hkey, ?_⟩,
      hothers, fun _ => rfl, ?_, ?_⟩
    · rw [happlied]
      exact halready
    · intro hfresh
      rw [halready] at hfresh
      cases hfresh
    · intro hfresh
      rw [halready] at hfresh
      cases hfresh
  · next hfresh =>
    obtain ⟨summary, hincrement, hcounts, htotal⟩ := incrementDailySummary_spec
      record (formatTimestamp now) { db with productionRecords := records }
    rw [hincrement] at hbody
    cases hbody
    refine ⟨rfl, date, hdate, rfl, ⟨markApplied stored, ?_, hsame.completedAt,
      hkey, rfl⟩, ?_, ?_, ?_, ?_⟩
    · have hfound : Database.productionRecord { db with
          productionRecords := records, dailySummary := summary } source.id =
          some stored := hstored
      exact setSummaryApplied_own hfound
    · intro id hid
      rw [setSummaryApplied_others _ hid]
      exact hothers id hid
    · intro halready
      exact absurd halready hfresh
    · intro _
      exact hcounts
    · intro _
      exact htotal

/-! ## `mark_completed` -/

theorem truthy_eq_some {ack : Option Text} {text : Text} :
    truthy ack = some text ↔ ack = some text ∧ text ≠ [] := by
  unfold truthy
  simp [Option.filter_eq_some_iff]

/-- A completion with an ACK marks the row and then writes its record. -/
theorem markCompleted_upsert {platform : Platform} {messageId : Nat}
    {arguments : CompletionArguments} {now : Datetime} {db after : Database}
    {ack : Text} (hack : truthy arguments.ack = some ack)
    (h : markCompleted platform messageId arguments now db = .ok after) :
    ∃ source metadata applied, db.message messageId = some source ∧
      completionMetadata arguments = .ok metadata ∧
      upsertProductionRecordAndSummary platform source (arguments.completion ack metadata) now
        (writeCompletion messageId arguments metadata db) = .ok (applied, after) := by
  unfold markCompleted at h
  cases hsource : db.message messageId with
  | none =>
      rw [hsource] at h
      cases h
  | some source =>
      rw [hsource] at h
      obtain ⟨metadata, hmetadata, hbody⟩ := bind_eq_ok.mp h
      obtain ⟨_, -, hbody⟩ := bind_eq_ok.mp hbody
      simp only [hack] at hbody
      obtain ⟨⟨applied, counted⟩, hupsert, hafter⟩ := bind_eq_ok.mp hbody
      cases hafter
      exact ⟨source, metadata, applied, rfl, hmetadata, hupsert⟩

/-- The completion counts the message under its own key. -/
theorem markCompleted_eq_ok {platform : Platform} {messageId : Nat}
    {arguments : CompletionArguments} {now : Datetime} {db after : Database}
    {ack : Text} (hack : truthy arguments.ack = some ack)
    (h : markCompleted platform messageId arguments now db = .ok after) :
    ∃ source metadata date, db.message messageId = some source ∧
      completionMetadata arguments = .ok metadata ∧
      productionDate platform arguments.completedAt = .ok date ∧
      after.mqttMessages = db.mqttMessages.update (fun record => record.id == messageId)
        (completeMessage arguments metadata) ∧
      Counted messageId arguments.completedAt
        (completionKey source (arguments.completion ack metadata) date) db after := by
  obtain ⟨source, metadata, applied, hsource, hmetadata, hupsert⟩ :=
    markCompleted_upsert hack h
  have hid := id_of_message hsource
  obtain ⟨hmessages, date, hdate, hcounted⟩ := upsert_eq_ok hupsert
  rw [hid] at hcounted
  refine ⟨source, metadata, date, hsource, hmetadata, hdate, hmessages, ?_⟩
  exact ⟨hcounted.apiCommands, hcounted.record, hcounted.others, hcounted.kept,
    hcounted.counts, hcounted.total⟩

/-- A completion without an ACK marks the row and nothing else. -/
theorem markCompleted_unacked {platform : Platform} {messageId : Nat}
    {arguments : CompletionArguments} {now : Datetime} {db after : Database}
    (hack : truthy arguments.ack = none)
    (h : markCompleted platform messageId arguments now db = .ok after) :
    ∃ metadata, after = writeCompletion messageId arguments metadata db := by
  unfold markCompleted at h
  cases hsource : db.message messageId with
  | none =>
      rw [hsource] at h
      cases h
  | some source =>
      rw [hsource] at h
      obtain ⟨metadata, -, hbody⟩ := bind_eq_ok.mp h
      obtain ⟨_, -, hbody⟩ := bind_eq_ok.mp hbody
      simp only [hack] at hbody
      cases hbody
      exact ⟨metadata, rfl⟩

/-- With or without an ACK, the one row it writes in the queue is its own. -/
theorem markCompleted_mqttMessages {platform : Platform} {messageId : Nat}
    {arguments : CompletionArguments} {now : Datetime} {db after : Database}
    (h : markCompleted platform messageId arguments now db = .ok after) :
    ∃ metadata, after.mqttMessages = db.mqttMessages.update
      (fun record => record.id == messageId) (completeMessage arguments metadata) := by
  cases hack : truthy arguments.ack with
  | some ack =>
      rcases markCompleted_eq_ok hack h with ⟨-, metadata, -, -, -, -, hmessages, -⟩
      exact ⟨metadata, hmessages⟩
  | none =>
      obtain ⟨metadata, rfl⟩ := markCompleted_unacked hack h
      exact ⟨metadata, rfl⟩

theorem markCompleted_apiCommands {platform : Platform} {messageId : Nat}
    {arguments : CompletionArguments} {now : Datetime} {db after : Database}
    (h : markCompleted platform messageId arguments now db = .ok after) :
    after.apiCommands = db.apiCommands := by
  cases hack : truthy arguments.ack with
  | some ack =>
      rcases markCompleted_eq_ok hack h with ⟨_, _, _, -, -, -, -, hcounted⟩
      exact hcounted.apiCommands
  | none =>
      obtain ⟨metadata, rfl⟩ := markCompleted_unacked hack h
      rfl

/-! ## `reconcile_completed_production_records` -/

theorem reconcile_eq_foldl {platform : Platform} {machineId : Text} {limit : Int}
    {now : Datetime} {db after : Database} {result : ReconciliationResult}
    (h : reconcileCompletedProductionRecords platform machineId limit now db =
      .ok (result, after)) :
    after = ((reconciliationRows limit db).foldl (reconcileRow platform machineId now)
      (⟨0, 0, 0, 0⟩, db)).2 := by
  unfold reconcileCompletedProductionRecords at h
  split at h
  · next hlimit =>
    cases h
    simp [reconciliationRows, Int.toNat_of_nonpos hlimit]
  · rcases bind_eq_ok.mp h with ⟨_, -, hbody⟩
    rw [Except.ok.injEq] at hbody
    rw [hbody]

/-- A round of the loop leaves the database, or it is the effect of one upsert. -/
theorem reconcileRow_cases (platform : Platform) (machineId : Text) (now : Datetime)
    (state : ReconciliationResult × Database) (record : MessageRecord) :
    (reconcileRow platform machineId now state record).2 = state.2 ∨
      ∃ metadata applied,
        productionMetadataFromResponse (record.odooResponse.getD []) = .ok metadata ∧
        upsertProductionRecordAndSummary platform record
          ⟨record.completedAt.getD [], machineId, record.ack.getD [], metadata,
            record.odooResponse.getD []⟩ now state.2 =
          .ok (applied, (reconcileRow platform machineId now state record).2) := by
  unfold reconcileRow
  cases hrow : reconcileRecord platform machineId now record state.2 with
  | error error => exact .inl rfl
  | ok result =>
      obtain ⟨metadata, hmetadata, hupsert⟩ := bind_eq_ok.mp hrow
      exact .inr ⟨metadata, result.1, hmetadata, hupsert⟩

/-- What every round keeps, the loop keeps. -/
theorem reconcileRows_preserve {platform : Platform} {machineId : Text} {now : Datetime}
    {I : Database → Prop} {records : List MessageRecord}
    (hrow : ∀ state, ∀ record ∈ records, I state.2 →
      I (reconcileRow platform machineId now state record).2)
    (state : ReconciliationResult × Database) (h : I state.2) :
    I (records.foldl (reconcileRow platform machineId now) state).2 := by
  induction records generalizing state with
  | nil => exact h
  | cons record records ih =>
      have hhead := hrow state record List.mem_cons_self h
      exact ih (fun state other hother => hrow state other (List.mem_cons_of_mem record hother))
        (reconcileRow platform machineId now state record) hhead

theorem reconcileRow_apiCommands {platform : Platform} {machineId : Text}
    {now : Datetime} (state : ReconciliationResult × Database)
    (record : MessageRecord) :
    (reconcileRow platform machineId now state record).2.apiCommands =
      state.2.apiCommands := by
  obtain hsame | ⟨metadata, applied, -, hupsert⟩ :=
    reconcileRow_cases platform machineId now state record
  · rw [hsame]
  · obtain ⟨-, date, -, hcounted⟩ := upsert_eq_ok hupsert
    exact hcounted.apiCommands

theorem reconcile_apiCommands {platform : Platform} {machineId : Text} {limit : Int}
    {now : Datetime} {db after : Database} {result : ReconciliationResult}
    (h : reconcileCompletedProductionRecords platform machineId limit now db =
      .ok (result, after)) : after.apiCommands = db.apiCommands := by
  rw [reconcile_eq_foldl h]
  exact reconcileRows_preserve (I := fun after => after.apiCommands = db.apiCommands)
    (fun state record _ hsame => (reconcileRow_apiCommands state record).trans hsame) _ rfl

theorem reconcileRow_mqttMessages {platform : Platform} {machineId : Text}
    {now : Datetime} (state : ReconciliationResult × Database)
    (record : MessageRecord) :
    (reconcileRow platform machineId now state record).2.mqttMessages =
      state.2.mqttMessages := by
  obtain hsame | ⟨metadata, applied, -, hupsert⟩ :=
    reconcileRow_cases platform machineId now state record
  · rw [hsame]
  · exact (upsert_eq_ok hupsert).1

theorem reconcileRows_mqttMessages (platform : Platform) (machineId : Text)
    (now : Datetime) (records : List MessageRecord)
    (state : ReconciliationResult × Database) :
    (records.foldl (reconcileRow platform machineId now) state).2.mqttMessages =
      state.2.mqttMessages :=
  reconcileRows_preserve (I := fun after => after.mqttMessages = state.2.mqttMessages)
    (fun state record _ hsame => (reconcileRow_mqttMessages state record).trans hsame) state rfl

/-- The rows of a batch come in the order of their ids. -/
theorem reconciliationRows_distinct (limit : Int) (db : Database) :
    ((reconciliationRows limit db).map MessageRecord.id).Nodup := by
  have hascending := (db.mqttMessages.ascending.filter (needsReconciliation db)).take
    (i := limit.toNat)
  exact List.pairwise_map.mpr (hascending.imp fun hlt => Nat.ne_of_lt hlt)

/-- Reconciliation leaves the queue alone, and without open rows everything. -/
theorem reconcile_eq_ok {platform : Platform} {machineId : Text} {limit : Int}
    {now : Datetime} {db after : Database} {result : ReconciliationResult}
    (h : reconcileCompletedProductionRecords platform machineId limit now db =
      .ok (result, after)) :
    after.mqttMessages = db.mqttMessages ∧
      ((∀ record ∈ db.mqttMessages.rows, needsReconciliation db record = false) →
        after = db) := by
  rw [reconcile_eq_foldl h]
  constructor
  · exact reconcileRows_mqttMessages platform machineId now (reconciliationRows limit db)
      (⟨0, 0, 0, 0⟩, db)
  · intro hnone
    have hempty : reconciliationRows limit db = [] := by
      unfold reconciliationRows Table.select
      rw [List.filter_eq_nil_iff.mpr, List.take_nil]
      intro record hrecord
      rw [hnone record hrecord]
      exact Bool.false_ne_true
    rw [hempty]
    rfl

/-! ## `cleanup_raw_operational_data` -/

section Deletion

variable {α : Type} [Row α] {table : Table α} {which : α → Bool} {limit : Nat}

theorem mem_cleanableIds {id : Nat} (h : id ∈ cleanableIds table which limit) :
    ∃ row, table.byId id = some row ∧ which row = true := by
  obtain ⟨row, hrow, rfl⟩ := List.mem_map.mp h
  have hselect := List.mem_filter.mp (List.mem_of_mem_take hrow)
  exact ⟨row, Table.byId_rowId hselect.1, hselect.2⟩

theorem cleanableIds_complete {row : α} (hrow : row ∈ table.rows)
    (hwhich : which row = true) (hroom : (cleanableIds table which limit).length < limit) :
    rowId row ∈ cleanableIds table which limit := by
  unfold cleanableIds at hroom ⊢
  rw [List.length_map, List.length_take] at hroom
  rw [List.take_of_length_le (by omega)]
  exact List.mem_map.mpr ⟨row, List.mem_filter.mpr ⟨hrow, hwhich⟩, rfl⟩

theorem byId_deleteIds (table : Table α) (ids : List Nat) (id : Nat) :
    (deleteIds table ids).byId id = if id ∈ ids then none else table.byId id := by
  unfold deleteIds
  rw [Table.byId_delete]
  cases hrow : table.byId id with
  | none => simp
  | some row =>
      have hid := Table.rowId_of_byId hrow
      rw [Option.filter_some, hid]
      by_cases hmem : id ∈ ids <;> simp [hmem]

end Deletion

theorem cleanup_eq_ok {platform : Platform} {retentionDays batchSize : Int}
    {now : Datetime} {db after : Database} {result : CleanupResult}
    (h : cleanupRawOperationalData platform retentionDays batchSize now db =
      .ok (result, after)) :
    after = db ∨ ∃ cutoff, cleanupCutoff retentionDays now = .ok cutoff ∧
      after = (deleteBatch cutoff batchSize.toNat db).2 := by
  unfold cleanupRawOperationalData at h
  split at h
  · cases h
  · split at h
    · cases h
      exact .inl rfl
    · obtain ⟨cutoff, hcutoff, hbody⟩ := bind_eq_ok.mp h
      simp only at hbody
      split at hbody
      · cases hbody
        exact .inl rfl
      · split at hbody
        · cases hbody
          exact .inl rfl
        · rw [Except.ok.injEq] at hbody
          exact .inr ⟨cutoff, hcutoff, (congrArg Prod.snd hbody).symm⟩

theorem deleteBatch_message (cutoff : Text) (batchSize : Nat) (db : Database)
    (id : Nat) :
    (deleteBatch cutoff batchSize db).2.message id = db.message id ∨
      (deleteBatch cutoff batchSize db).2.message id = none ∧
        ∃ row, db.message id = some row ∧ isCleanableMessage cutoff db row = true := by
  have hview : (deleteBatch cutoff batchSize db).2.message id =
      if id ∈ cleanableIds db.mqttMessages (isCleanableMessage cutoff db) batchSize then
        none else db.message id := byId_deleteIds db.mqttMessages _ id
  rw [hview]
  split
  · next hmem => exact .inr ⟨rfl, mem_cleanableIds hmem⟩
  · exact .inl rfl

/-- A production record goes only after every message that could go has gone. -/
theorem deleteBatch_productionRecord (cutoff : Text) (batchSize : Nat) {db : Database}
    {id : Nat} {record : ProductionRecord} (h : db.productionRecord id = some record) :
    (deleteBatch cutoff batchSize db).2.productionRecord id = some record ∨
      (deleteBatch cutoff batchSize db).2.productionRecord id = none ∧
        record.completedAt < cutoff ∧
        ∀ row ∈ db.mqttMessages.rows, isCleanableMessage cutoff db row = true →
          (deleteBatch cutoff batchSize db).2.message row.id = none := by
  let messageIds := cleanableIds db.mqttMessages (isCleanableMessage cutoff db) batchSize
  let commandIds := cleanableIds db.apiCommands (isCleanableCommand cutoff)
    (batchSize - messageIds.length)
  let recordIds := cleanableIds db.productionRecords (isCleanableProduction cutoff)
    (batchSize - messageIds.length - commandIds.length)
  have hview : (deleteBatch cutoff batchSize db).2.productionRecord id =
      (db.productionRecord id).filter fun row => !recordIds.contains row.id := by
    apply Table.find?_delete
    intro a ha b hb hida hidb
    exact productionRecord_unique ha hb
      ((beq_iff_eq.mp hida).trans (beq_iff_eq.mp hidb).symm)
  rw [hview, h]
  cases hgone : recordIds.contains record.id with
  | false =>
      left
      rw [Option.filter_some, hgone]
      rfl
  | true =>
      have hmem : record.id ∈ recordIds := List.contains_iff_mem.mp hgone
      have hroom : messageIds.length < batchSize := by
        have hlength := List.length_pos_of_mem hmem
        simp only [recordIds, cleanableIds, List.length_map, List.length_take] at hlength
        omega
      obtain ⟨found, hfound, hcleanable⟩ := mem_cleanableIds hmem
      have hsame : found = record :=
        Table.eq_of_rowId_eq (Table.mem_of_byId hfound) (Table.find?_eq_some h).1
          (Table.rowId_of_byId hfound)
      rw [hsame, isCleanableProduction, Bool.and_eq_true, decide_eq_true_eq] at hcleanable
      refine .inr ⟨by simp [hmem], hcleanable.2, ?_⟩
      intro row hrow hold
      have hdeleted := cleanableIds_complete hrow hold hroom
      have hmessage : (deleteBatch cutoff batchSize db).2.message row.id =
          if row.id ∈ messageIds then none else db.message row.id :=
        byId_deleteIds db.mqttMessages messageIds row.id
      rw [hmessage]
      exact if_pos hdeleted

end EdgeBridge
