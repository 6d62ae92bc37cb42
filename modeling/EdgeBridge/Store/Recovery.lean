import EdgeBridge.Bridge.Refinement

/-!
# Recovered production records

The worker records a completion from the live response; reconciliation rebuilds
the record from the text that the row stores.  Both read the same metadata, so
they write the same record and change the daily summary in the same way, up to
the ids and the times of writing.
-/

namespace EdgeBridge

open Foundation

/-! ## What a completion writes -/

/-- The values of a record apart from its id and its time of writing. -/
def ProductionRecord.contents (record : ProductionRecord) : ProductionRecord :=
  { record with id := 0, createdAt := [] }

theorem writeProductionRecord_contents {record : ProductionRecord} {db : Database}
    (h : record.summaryApplied = summaryApplied db record.mqttMessageId) :
    ((writeProductionRecord record db).productionRecord record.mqttMessageId).map
      ProductionRecord.contents = some record.contents := by
  unfold writeProductionRecord
  cases hinsert : db.productionRecords.insert record with
  | some table =>
      have hnew := Table.find?_insert hinsert
        fun row => row.mqttMessageId == record.mqttMessageId
      have hnone := productionRecord_of_insert hinsert
      rw [productionRecord_find] at hnone
      simp only [productionRecord_find, hnew, hnone, Option.none_or]
      rw [if_pos (by simp [Row.withId])]
      rfl
  | none =>
      have hupdate := db.productionRecords.find?_update
        (fun existing => existing.mqttMessageId == record.mqttMessageId)
        (overwriteRecord record) (p := fun row => row.mqttMessageId == record.mqttMessageId)
        fun _ => rfl
      obtain ⟨old, hfound, hid⟩ := productionRecord_of_clash hinsert
      have hflag : record.summaryApplied = old.summaryApplied := by
        rw [h, summaryApplied, hfound, Option.any_some]
      rw [productionRecord_find] at hfound ⊢
      rw [Table.find?_skipId, hupdate, hfound, Option.map_some, Option.map_some,
        if_pos (beq_iff_eq.mpr hid)]
      simp only [ProductionRecord.contents, overwriteRecord, hid, hflag]

/-- What a completed message that was not counted yet leaves in the tables. -/
structure Written (record : ProductionRecord) (db after : Database) : Prop where
  stored : (after.productionRecord record.mqttMessageId).map ProductionRecord.contents =
    some record
  others : ∀ id, id ≠ record.mqttMessageId →
    after.productionRecord id = db.productionRecord id
  summary : SummaryChange record db after

theorem upsert_written {platform : Platform} {source : MessageRecord}
    {completion : Completion} (now : Datetime) {db : Database} {date : Text}
    (hdate : productionDate platform completion.completedAt = .ok date)
    (hbound : bindAll (productionBindings source completion date) = .ok ())
    (hfresh : summaryApplied db source.id = false) :
    ∃ after, upsertProductionRecordAndSummary platform source completion now db =
        .ok (true, after) ∧
      Written (newProductionRecord source completion date [] true) db after := by
  let record := newProductionRecord source completion date (formatTimestamp now) false
  have hwritten : ((writeProductionRecord record db).productionRecord source.id).map
      ProductionRecord.contents = some record.contents :=
    writeProductionRecord_contents hfresh.symm
  rcases writeProductionRecord_spec record db with ⟨records, hwrite, -, hothers⟩
  rw [hwrite] at hwritten
  rcases incrementDailySummary_change record (formatTimestamp now)
    { db with productionRecords := records } with ⟨summary, hincrement, hchange, -⟩
  refine ⟨setSummaryApplied source.id
    { db with productionRecords := records, dailySummary := summary }, ?_, ?_, ?_, ?_⟩
  · unfold upsertProductionRecordAndSummary
    rw [hdate]
    simp only [bind, Except.bind, hbound, hfresh, Bool.false_eq_true, if_false]
    rw [hwrite, hincrement]
  · rcases Option.map_eq_some_iff.mp hwritten with ⟨stored, hstored, hcontents⟩
    have hfound : Database.productionRecord { db with
        productionRecords := records, dailySummary := summary } source.id = some stored :=
      hstored
    have hmark : ∀ found : ProductionRecord, found.contents = record.contents →
        (markApplied found).contents = newProductionRecord source completion date [] true := by
      intro found hsame
      have happlied := congrArg (fun row => { row with summaryApplied := true }) hsame
      exact happlied
    have hmarked := setSummaryApplied_own hfound
    simp only [newProductionRecord, hmarked, Option.map_some]
    rw [hmark stored hcontents]
    rfl
  · intro id hid
    have hne : id ≠ source.id := hid
    rw [setSummaryApplied_others _ hne]
    exact hothers id hid
  · exact ⟨hchange.counted, hchange.others⟩

/-! ## The live path -/

/-- The worker's arguments of `mark_completed`. -/
def liveArguments (response : OdooResponse) (responseText ack completedAt machineId : Text) :
    CompletionArguments where
  odooResponse := responseText
  completedAt := completedAt
  ack := some ack
  metadata := extractDashboardMetadata response.value
  machineId := some machineId

/-- What is written about the message, live or recovered. -/
def sharedCompletion (response : OdooResponse)
    (responseText ack completedAt machineId : Text) : Completion where
  completedAt := completedAt
  machineId := machineId
  ack := ack
  metadata := extractDashboardMetadata response.value
  rawOdooResponse := responseText

section

variable {platform : Platform} {response : OdooResponse}
  {responseText ack completedAt machineId : Text}

theorem liveArguments_completion (hmachine : machineId ≠ []) :
    (liveArguments response responseText ack completedAt machineId).completion ack
      (extractDashboardMetadata response.value) =
    sharedCompletion response responseText ack completedAt machineId := by
  have hname : truthy (some machineId) = some machineId := truthy_eq_some.mpr ⟨rfl, hmachine⟩
  simp [CompletionArguments.completion, liveArguments, sharedCompletion, hname]

/-- Whatever the production record can bind, the row of the queue can bind. -/
theorem completionBindings_bound {source : MessageRecord} {date : Text}
    (h : bindAll (productionBindings source
      (sharedCompletion response responseText ack completedAt machineId) date) = .ok ()) :
    bindAll (completionBindings (liveArguments response responseText ack completedAt
      machineId) (extractDashboardMetadata response.value)) = .ok () := by
  apply bindAll_eq_ok
  intro binding hmem
  apply defect_of_bindAll h
  simp only [completionBindings, liveArguments, List.mem_cons, List.not_mem_nil,
    or_false] at hmem
  simp only [productionBindings, sharedCompletion, List.mem_cons]
  rcases hmem with rfl | rfl | rfl | rfl | rfl | rfl | rfl | rfl
  all_goals simp

theorem live_upsert (hdump : dumpResponse response = .ok responseText)
    (hack : ack ≠ []) (hmachine : machineId ≠ []) {source : MessageRecord} {db : Database}
    (hsource : db.message source.id = some source) (now : Datetime) :
    markCompleted platform source.id
        (liveArguments response responseText ack completedAt machineId) now db =
      (bindAll (completionBindings (liveArguments response responseText ack
        completedAt machineId) (extractDashboardMetadata response.value))).bind fun _ =>
      (upsertProductionRecordAndSummary platform source
        (sharedCompletion response responseText ack completedAt machineId) now
        (writeCompletion source.id
          (liveArguments response responseText ack completedAt machineId)
          (extractDashboardMetadata response.value) db)).map Prod.snd := by
  have htruthy : truthy (some ack) = some ack := truthy_eq_some.mpr ⟨rfl, hack⟩
  have hmetadata : completionMetadata
      (liveArguments response responseText ack completedAt machineId) =
        .ok (extractDashboardMetadata response.value) := by
    simp [completionMetadata, liveArguments, htruthy,
      metadata_of_dumpResponse hdump, Except.map, ProductionMetadata.orElse_self]
  unfold markCompleted
  rw [hsource]
  simp only [hmetadata, bind, Except.bind]
  rw [show (liveArguments response responseText ack completedAt machineId).ack = some ack
    from rfl, htruthy]
  simp only [liveArguments_completion hmachine]
  cases bindAll (completionBindings (liveArguments response responseText ack completedAt
    machineId) (extractDashboardMetadata response.value)) with
  | error error => rfl
  | ok done =>
      cases upsertProductionRecordAndSummary platform source
        (sharedCompletion response responseText ack completedAt machineId) now
        (writeCompletion source.id
          (liveArguments response responseText ack completedAt machineId)
          (extractDashboardMetadata response.value) db) with
      | error error => rfl
      | ok result => rfl

theorem live_refused (hdump : dumpResponse response = .ok responseText) (hack : ack ≠ [])
    (hmachine : machineId ≠ []) {source : MessageRecord} {db : Database}
    (hsource : db.message source.id = some source) {now : Datetime} {refusal : PyError}
    (h : upsertProductionRecordAndSummary platform source
      (sharedCompletion response responseText ack completedAt machineId) now
      (writeCompletion source.id
        (liveArguments response responseText ack completedAt machineId)
        (extractDashboardMetadata response.value) db) = .error refusal) :
    ∃ error, markCompleted platform source.id
      (liveArguments response responseText ack completedAt machineId) now db =
        .error error := by
  rw [live_upsert hdump hack hmachine hsource now]
  cases bindAll (completionBindings (liveArguments response responseText ack
    completedAt machineId) (extractDashboardMetadata response.value)) with
  | error error => exact ⟨error, rfl⟩
  | ok done =>
      simp only [Except.bind]
      rw [h]
      exact ⟨refusal, rfl⟩

/-- Without a date or without bindable values nothing is written, at any time. -/
theorem upsert_refused {source : MessageRecord} {completion : Completion}
    (h : ∀ date, productionDate platform completion.completedAt = .ok date →
      bindAll (productionBindings source completion date) ≠ .ok ())
    (now : Datetime) (db : Database) :
    ∃ error, upsertProductionRecordAndSummary platform source completion now db =
      .error error := by
  unfold upsertProductionRecordAndSummary
  cases hdate : productionDate platform completion.completedAt with
  | error error => exact ⟨error, rfl⟩
  | ok date =>
      cases hbind : bindAll (productionBindings source completion date) with
      | ok done => exact absurd hbind (h date hdate)
      | error error =>
          refine ⟨error, ?_⟩
          simp only [bind, Except.bind, hbind]

/-! ## The recovery path -/

/-- The completed row that `mark_completed` leaves of a message. -/
structure Stores (arguments : CompletionArguments) (source row : MessageRecord) : Prop where
  id : row.id = source.id
  messageType : row.messageType = source.messageType
  tableNo : row.tableNo = source.tableNo
  model : row.model = source.model
  serial : row.serial = source.serial
  status : row.status = .completed
  odooResponse : row.odooResponse = some arguments.odooResponse
  completedAt : row.completedAt = some arguments.completedAt
  ack : row.ack = arguments.ack

theorem completeMessage_stores (arguments : CompletionArguments)
    (metadata : ProductionMetadata) (source : MessageRecord) :
    Stores arguments source (completeMessage arguments metadata source) :=
  ⟨rfl, rfl, rfl, rfl, rfl, rfl, rfl, rfl, rfl⟩

/-- A stored row binds the values of its message. -/
theorem Stores.productionBindings {arguments : CompletionArguments}
    {source row : MessageRecord} (h : Stores arguments source row) (completion : Completion)
    (date : Text) : productionBindings row completion date =
      EdgeBridge.productionBindings source completion date := by
  simp only [EdgeBridge.productionBindings, h.messageType, h.tableNo, h.model, h.serial]

theorem Stores.newProductionRecord {arguments : CompletionArguments}
    {source row : MessageRecord} (h : Stores arguments source row) (completion : Completion)
    (date created : Text) (applied : Bool) :
    newProductionRecord row completion date created applied =
      EdgeBridge.newProductionRecord source completion date created applied := by
  simp only [EdgeBridge.newProductionRecord, h.id, h.messageType, h.tableNo, h.model, h.serial]

theorem recovery_upsert (hdump : dumpResponse response = .ok responseText)
    {source row : MessageRecord} (later : Datetime) (db : Database)
    (hrow : Stores (liveArguments response responseText ack completedAt machineId)
      source row) :
    reconcileRecord platform machineId later row db =
      upsertProductionRecordAndSummary platform row
        (sharedCompletion response responseText ack completedAt machineId) later db := by
  unfold reconcileRecord
  rw [hrow.odooResponse, hrow.completedAt, hrow.ack]
  simp only [liveArguments, Option.getD_some, metadata_of_dumpResponse hdump]
  rfl

theorem recovery_row (hdump : dumpResponse response = .ok responseText)
    {source row : MessageRecord} (later : Datetime) (state : ReconciliationResult × Database)
    (hrow : Stores (liveArguments response responseText ack completedAt machineId)
      source row) :
    (reconcileRow platform machineId later state row).2 =
      match upsertProductionRecordAndSummary platform row
        (sharedCompletion response responseText ack completedAt machineId) later state.2 with
      | .ok (_, db) => db
      | .error _ => state.2 := by
  rw [reconcileRow, recovery_upsert hdump later state.2 hrow]
  cases upsertProductionRecordAndSummary platform row
    (sharedCompletion response responseText ack completedAt machineId) later state.2 with
  | error error => rfl
  | ok outcome => rfl

theorem reconcileRow_others {later : Datetime} {row : MessageRecord} {id : Nat}
    (hid : id ≠ row.id) (state : ReconciliationResult × Database) :
    (reconcileRow platform machineId later state row).2.productionRecord id =
      state.2.productionRecord id := by
  obtain hsame | ⟨metadata, applied, -, hupsert⟩ :=
    reconcileRow_cases platform machineId later state row
  · rw [hsame]
  · obtain ⟨-, date, -, hcounted⟩ := upsert_eq_ok hupsert
    exact hcounted.others id hid

theorem reconcileRows_others {later : Datetime} {rows : List MessageRecord} {id : Nat}
    (hid : ∀ row ∈ rows, id ≠ row.id) (state : ReconciliationResult × Database) :
    (rows.foldl (reconcileRow platform machineId later) state).2.productionRecord id =
      state.2.productionRecord id :=
  reconcileRows_preserve
    (I := fun after => after.productionRecord id = state.2.productionRecord id)
    (fun state row hrow hsame => (reconcileRow_others (hid row hrow) state).trans hsame) state rfl

theorem reconciliationRows_ids {limit : Int} {db : Database}
    {earlier rest : List MessageRecord} {row : MessageRecord}
    (h : reconciliationRows limit db = earlier ++ row :: rest) :
    (∀ other ∈ earlier, row.id ≠ other.id) ∧ ∀ other ∈ rest, row.id ≠ other.id := by
  have hdistinct := reconciliationRows_distinct limit db
  rw [h, List.map_append, List.map_cons, List.nodup_middle, List.nodup_cons,
    List.mem_append, not_or] at hdistinct
  obtain ⟨⟨hearlier, hrest⟩, -⟩ := hdistinct
  refine ⟨fun other hother heq => hearlier ?_, fun other hother heq => hrest ?_⟩
  · exact heq ▸ List.mem_map_of_mem hother
  · exact heq ▸ List.mem_map_of_mem hother

/--
The live path and the reconciliation path build the same record.  One completes a
message from the response, the other finds its completed row without a record, after
the rows `earlier`: both fail and write nothing, or both write the same record and
change the daily summary in the same way.
-/
theorem recovery_builds_same_record (hdump : dumpResponse response = .ok responseText)
    (hack : extractAck response.value = some ack) (hmachine : machineId ≠ [])
    {source row : MessageRecord} {live crashed recovered : Database} (now : Datetime)
    {later : Datetime}
    {limit : Int} {result : ReconciliationResult} {earlier rest : List MessageRecord}
    (hsource : live.message source.id = some source)
    (hfresh : summaryApplied live source.id = false)
    (hrow : Stores (liveArguments response responseText ack completedAt machineId)
      source row)
    (hmissing : crashed.productionRecord row.id = none)
    (hrows : reconciliationRows limit crashed = earlier ++ row :: rest)
    (hrun : reconcileCompletedProductionRecords platform machineId limit later crashed =
      .ok (result, recovered)) :
    let reached := earlier.foldl (reconcileRow platform machineId later)
      (⟨0, 0, 0, 0⟩, crashed)
    let passed := reconcileRow platform machineId later reached row
    (∃ error, markCompleted platform source.id
        (liveArguments response responseText ack completedAt machineId) now live =
          .error error ∧
      recovered.productionRecord row.id = none ∧ passed.2 = reached.2) ∨
    ∃ completed record, markCompleted platform source.id
        (liveArguments response responseText ack completedAt machineId) now live =
          .ok completed ∧
      (completed.productionRecord source.id).map ProductionRecord.contents = some record ∧
      (recovered.productionRecord row.id).map ProductionRecord.contents = some record ∧
      record.summaryApplied = true ∧ SummaryChange record live completed ∧
      SummaryChange record reached.2 passed.2 := by
  intro reached passed
  have hackText : ack ≠ [] := by
    rcases extractAck_eq_some.mp hack with ⟨entries, -, -, hstored⟩
    exact extractStoredAck_ne_nil hstored
  rcases reconciliationRows_ids hrows with ⟨hearlier, hrest⟩
  have hreached : reached.2.productionRecord row.id = none :=
    (reconcileRows_others hearlier _).trans hmissing
  have hunapplied : summaryApplied reached.2 row.id = false := by
    simp [summaryApplied, hreached]
  have hfinal : recovered.productionRecord row.id = passed.2.productionRecord row.id := by
    rw [reconcile_eq_foldl hrun, hrows, List.foldl_append, List.foldl_cons]
    exact reconcileRows_others hrest _
  have hpassed : passed.2 = _ := recovery_row hdump later reached hrow
  let shared := sharedCompletion response responseText ack completedAt machineId
  -- the two upserts bind the same values and differ in their clock only
  by_cases hbound : ∃ date, productionDate platform completedAt = .ok date ∧
      bindAll (productionBindings source shared date) = .ok ()
  · right
    obtain ⟨date, hdate, hbound⟩ := hbound
    have hunwritten : summaryApplied (writeCompletion source.id
        (liveArguments response responseText ack completedAt machineId)
        (extractDashboardMetadata response.value) live) source.id = false := hfresh
    obtain ⟨completed, hlive, hwritten⟩ := upsert_written now hdate hbound hunwritten
    have hboundRow : bindAll (productionBindings row shared date) = .ok () := by
      rw [hrow.productionBindings]
      exact hbound
    obtain ⟨after, hrecover, hrecovered⟩ := upsert_written later hdate hboundRow hunapplied
    rw [hrecover] at hpassed
    rw [hrow.newProductionRecord] at hrecovered
    refine ⟨completed, newProductionRecord source shared date [] true,
      ?_, hwritten.stored, ?_, rfl, ⟨hwritten.summary.counted, hwritten.summary.others⟩, ?_⟩
    · rw [live_upsert hdump hackText hmachine hsource now, completionBindings_bound hbound]
      simp only [Except.bind]
      rw [hlive]
      rfl
    · rw [hfinal, hpassed, hrow.id]
      exact hrecovered.stored
    · rw [hpassed]
      exact hrecovered.summary
  · left
    have hunbound : ∀ date, productionDate platform shared.completedAt = .ok date →
        bindAll (productionBindings source shared date) ≠ .ok () :=
      fun date hdate hbind => hbound ⟨date, hdate, hbind⟩
    have hunboundRow : ∀ date, productionDate platform shared.completedAt = .ok date →
        bindAll (productionBindings row shared date) ≠ .ok () := by
      intro date hdate
      rw [hrow.productionBindings]
      exact hunbound date hdate
    obtain ⟨error, hrecover⟩ := upsert_refused hunboundRow later reached.2
    rw [hrecover] at hpassed
    obtain ⟨refusal, hlive⟩ := upsert_refused hunbound now (writeCompletion source.id
      (liveArguments response responseText ack completedAt machineId)
      (extractDashboardMetadata response.value) live)
    obtain ⟨error, hdead⟩ := live_refused hdump hackText hmachine hsource hlive
    refine ⟨error, hdead, ?_, hpassed⟩
    rw [hfinal]
    exact (congrArg (fun db => db.productionRecord row.id) hpassed).trans hreached

end

/-! ## A completion and its recovery -/

def fullResponse : OdooResponse where
  value := .dict [(str "success", .bool true),
    (str "result", .dict [(str "ACK", .text (str "A1")), (str "customer_id", .int 7),
      (str "customer_name", .text []), (str "operator_id", .bool true),
      (str "batch_number", .text (str "B1"))])]
  unmarshalled := by decide

def fullResponseText : Text :=
  (dumpResponse fullResponse).toOption.getD []

def fullArguments : CompletionArguments :=
  liveArguments fullResponse fullResponseText (str "A1") (formatTimestamp noon) (str "M1")

/-- One message is received and claimed. -/
def claimedMessage : Option Database :=
  ((ledgerSystem samplePlatform).exec (ledgerSystem samplePlatform).init
    [.run (.save sampleMessage) noon, .run (.claim 10 3) noon]).map Ledger.db

/-- The completed row without its record and without its count. -/
def lostRecord (live : Database) : Database :=
  { live with
    mqttMessages := live.mqttMessages.update (fun row => row.id == 1)
      (completeMessage fullArguments .none)
    productionRecords := .empty
    dailySummary := .empty }

theorem dump_fullResponse : dumpResponse fullResponse = .ok fullResponseText := by
  have hok : (dumpResponse fullResponse).isOk = true := by decide +kernel
  cases hdump : dumpResponse fullResponse with
  | error error =>
      rw [hdump] at hok
      cases hok
  | ok text =>
      rw [fullResponseText, hdump]
      rfl

theorem recovery_builds_same_record_sample :
    ∃ live recovered result, claimedMessage = some live ∧
      reconcileCompletedProductionRecords samplePlatform (str "M1") 100 afterNoon
        (lostRecord live) = .ok (result, recovered) ∧
      ∃ completed record, markCompleted samplePlatform 1 fullArguments noon live =
          .ok completed ∧
        (completed.productionRecord 1).map ProductionRecord.contents = some record ∧
        (recovered.productionRecord 1).map ProductionRecord.contents = some record := by
  have hrun : (claimedMessage.map fun live =>
      ((live.message 1).map fun row => summaryApplied live row.id,
        (reconciliationRows 100 (lostRecord live)).map MessageRecord.id,
        (reconcileCompletedProductionRecords samplePlatform (str "M1") 100 afterNoon
          (lostRecord live)).isOk,
        (markCompleted samplePlatform 1 fullArguments noon live).isOk)) =
      some (some false, [1], true, true) := by decide +kernel
  rcases Option.map_eq_some_iff.mp hrun with ⟨live, hlive, hvalues⟩
  simp only [Prod.mk.injEq, Option.map_eq_some_iff, List.map_eq_singleton_iff] at hvalues
  rcases hvalues with ⟨⟨source, hsource, hfresh⟩, ⟨row, hrows, hrow⟩, hreconcile, hmark⟩
  have hid := id_of_message hsource
  have hstores : Stores fullArguments source row := by
    have hmem : row ∈ reconciliationRows 100 (lostRecord live) := by
      rw [hrows]
      exact List.mem_singleton_self row
    have hfound := message_of_mem (List.mem_filter.mp (List.mem_of_mem_take hmem)).1
    rw [hrow, lostRecord] at hfound
    have hview := message_update live (fun row => row.id == 1)
      (completeMessage fullArguments .none) 1
    rw [hsource, Option.map_some, hid, beq_self_eq_true, if_pos rfl] at hview
    have hsame := hfound.symm.trans hview
    rw [Option.some.injEq] at hsame
    rw [hsame]
    exact completeMessage_stores fullArguments .none source
  cases hrecover : reconcileCompletedProductionRecords samplePlatform (str "M1") 100
      afterNoon (lostRecord live) with
  | error error =>
      rw [hrecover] at hreconcile
      cases hreconcile
  | ok outcome =>
      rcases outcome with ⟨result, recovered⟩
      refine ⟨live, recovered, result, hlive, hrecover, ?_⟩
      rcases recovery_builds_same_record dump_fullResponse (by decide) (by decide) noon
        (hid.symm ▸ hsource) hfresh hstores rfl
        (show reconciliationRows 100 (lostRecord live) = [] ++ row :: [] from hrows) hrecover
        with ⟨error, hdead, -⟩ | ⟨completed, record, hlives, hstored, hrecovered, -⟩
      · rw [hid] at hdead
        rw [fullArguments] at hmark
        rw [hdead] at hmark
        cases hmark
      · rw [hid] at hlives hstored
        rw [hrow] at hrecovered
        exact ⟨completed, record, hlives, hstored, hrecovered⟩

end EdgeBridge
