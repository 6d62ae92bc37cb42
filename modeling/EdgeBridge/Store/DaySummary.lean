import EdgeBridge.Foundation.Extremes
import EdgeBridge.Ledger
import EdgeBridge.Store.Transactions

/-!
# The daily summary as a fold

Along any sequence of transactions the row of a summary key is a fold over the
completions counted into it, by `mark_completed` or by a reconciliation, in the order
of their processing.  Its first and last fields are the extremes of that sequence.
-/

namespace EdgeBridge

open Foundation

/-! ## What a transaction counts -/

/-- The record that `_upsert_production_record_and_summary` counts, if it counts one. -/
def countedRecord (platform : Platform) (source : MessageRecord) (completion : Completion)
    (now : Datetime) (db : Database) : List ProductionRecord :=
  match upsertProductionRecordAndSummary platform source completion now db,
    productionDate platform completion.completedAt with
  | .ok (true, _), .ok date =>
      [newProductionRecord source completion date (formatTimestamp now) false]
  | _, _ => []

def completionCounted (platform : Platform) (id : Nat) (arguments : CompletionArguments)
    (now : Datetime) (db : Database) : List ProductionRecord :=
  match db.message id, truthy arguments.ack, completionMetadata arguments with
  | some source, some ack, .ok metadata =>
      countedRecord platform source (arguments.completion ack metadata) now
        (writeCompletion id arguments metadata db)
  | _, _, _ => []

def rowCounted (platform : Platform) (machineId : Text) (now : Datetime)
    (record : MessageRecord) (db : Database) : List ProductionRecord :=
  match productionMetadataFromResponse (record.odooResponse.getD []) with
  | .ok metadata =>
      countedRecord platform record ⟨record.completedAt.getD [], machineId,
        record.ack.getD [], metadata, record.odooResponse.getD []⟩ now db
  | .error _ => []

/-- The rows of a reconciliation, one after the other. -/
def rowsCounted (platform : Platform) (machineId : Text) (now : Datetime) :
    List MessageRecord → Database → List ProductionRecord
  | [], _ => []
  | record :: rest, db =>
      rowCounted platform machineId now record db ++
        rowsCounted platform machineId now rest
          (reconcileRow platform machineId now (⟨0, 0, 0, 0⟩, db) record).2

/-- The production records that a transaction counts, in order. -/
def countedRecords (platform : Platform) (db : Database) (op : Job × Datetime) :
    List ProductionRecord :=
  match op.1.run platform op.2 db with
  | .error _ => []
  | .ok _ =>
      match op.1 with
      | .complete id arguments => completionCounted platform id arguments op.2 db
      | .reconcile machineId limit =>
          rowsCounted platform machineId op.2 (reconciliationRows limit db) db
      | _ => []

def countingSystem (platform : Platform) :
    System Database (Job × Datetime) ProductionRecord :=
  transactions platform (countedRecords platform)

/-! ## The row of a key -/

def recordsOf (key : SummaryKey) (records : List ProductionRecord) : List ProductionRecord :=
  records.filter fun record => record.key == key

/-- The records are counted into the rows of their keys, one after the other. -/
def CountedInto (records : List ProductionRecord) (db after : Database) : Prop :=
  ∀ key, summaryRow after key = (recordsOf key records).foldl
    (fun row record => some (countedRow record row)) (summaryRow db key)

theorem CountedInto.of_dailySummary {db after : Database}
    (h : after.dailySummary = db.dailySummary) : CountedInto [] db after := by
  intro key
  rw [summaryRow, h]
  rfl

theorem CountedInto.append {first second : List ProductionRecord} {db mid after : Database}
    (hfirst : CountedInto first db mid) (hsecond : CountedInto second mid after) :
    CountedInto (first ++ second) db after := by
  intro key
  rw [recordsOf, List.filter_append, List.foldl_append, hsecond key, hfirst key]
  rfl

theorem SummaryChange.countedInto {record : ProductionRecord} {db after : Database}
    (h : SummaryChange record db after) : CountedInto [record] db after := by
  intro key
  by_cases hkey : record.key = key
  · subst hkey
    simp [recordsOf, h.counted]
  · simp [recordsOf, hkey, h.others key (Ne.symm hkey)]

section

variable {platform : Platform} {now : Datetime} {db after : Database}

theorem upsert_countedInto {source : MessageRecord} {completion : Completion}
    {applied : Bool}
    (h : upsertProductionRecordAndSummary platform source completion now db =
      .ok (applied, after)) :
    CountedInto (countedRecord platform source completion now db) db after := by
  have hrun := h
  unfold upsertProductionRecordAndSummary at h
  obtain ⟨date, hdate, hbody⟩ := bind_eq_ok.mp h
  obtain ⟨_, -, hbody⟩ := bind_eq_ok.mp hbody
  simp only at hbody
  split at hbody
  · cases hbody
    obtain ⟨records, hwrite, -, -⟩ := writeProductionRecord_spec
      (newProductionRecord source completion date (formatTimestamp now)
        (summaryApplied db source.id)) db
    have hnone : countedRecord platform source completion now db = [] := by
      rw [countedRecord, hrun]
    rw [hnone, hwrite]
    exact .of_dailySummary rfl
  · next hfresh =>
    obtain ⟨counted, hincrement, hbody⟩ := bind_eq_ok.mp hbody
    cases hbody
    rw [Bool.not_eq_true] at hfresh
    have hone : countedRecord platform source completion now db =
        [newProductionRecord source completion date (formatTimestamp now) false] := by
      rw [countedRecord, hrun, hdate]
    rw [hfresh] at hincrement
    obtain ⟨records, hwrite, -, -⟩ := writeProductionRecord_spec
      (newProductionRecord source completion date (formatTimestamp now) false) db
    rw [hwrite] at hincrement
    obtain ⟨table, hcounted, hchange, -⟩ := incrementDailySummary_change
      (newProductionRecord source completion date (formatTimestamp now) false)
      (formatTimestamp now) { db with productionRecords := records }
    rw [hcounted, Except.ok.injEq] at hincrement
    rw [hone, ← hincrement]
    exact (SummaryChange.mk hchange.counted hchange.others).countedInto

theorem markCompleted_countedInto {id : Nat} {arguments : CompletionArguments}
    (h : markCompleted platform id arguments now db = .ok after) :
    CountedInto (completionCounted platform id arguments now db) db after := by
  cases hack : truthy arguments.ack with
  | none =>
      have hnone : completionCounted platform id arguments now db = [] := by
        simp [completionCounted, hack]
      rw [hnone]
      obtain ⟨metadata, rfl⟩ := markCompleted_unacked hack h
      exact .of_dailySummary rfl
  | some ack =>
      obtain ⟨source, metadata, applied, hsource, hmetadata, hupsert⟩ :=
        markCompleted_upsert hack h
      have hcounted : completionCounted platform id arguments now db =
          countedRecord platform source (arguments.completion ack metadata) now
            (writeCompletion id arguments metadata db) := by
        simp [completionCounted, hsource, hack, hmetadata]
      rw [hcounted]
      -- the update of the message leaves the summary
      have hcounts := upsert_countedInto hupsert
      exact hcounts

theorem reconcileRow_db (platform : Platform) (machineId : Text) (now : Datetime)
    (state : ReconciliationResult × Database) (record : MessageRecord) :
    (reconcileRow platform machineId now state record).2 =
      match reconcileRecord platform machineId now record state.2 with
      | .error _ => state.2
      | .ok result => result.2 := by
  unfold reconcileRow
  cases reconcileRecord platform machineId now record state.2 with
  | error error => rfl
  | ok result => rfl

theorem reconcileRow_countedInto (platform : Platform) (machineId : Text) (now : Datetime)
    (state : ReconciliationResult × Database) (record : MessageRecord) :
    CountedInto (rowCounted platform machineId now record state.2) state.2
      (reconcileRow platform machineId now state record).2 := by
  rw [reconcileRow_db, reconcileRecord, rowCounted]
  cases hmetadata : productionMetadataFromResponse (record.odooResponse.getD []) with
  | error error =>
      simp only [bind, Except.bind]
      exact .of_dailySummary rfl
  | ok metadata =>
      simp only [bind, Except.bind]
      cases hupsert : upsertProductionRecordAndSummary platform record
          ⟨record.completedAt.getD [], machineId, record.ack.getD [], metadata,
            record.odooResponse.getD []⟩ now state.2 with
      | error error =>
          simp only [countedRecord, hupsert]
          exact .of_dailySummary rfl
      | ok result => exact upsert_countedInto hupsert

theorem reconcileRows_countedInto (platform : Platform) (machineId : Text) (now : Datetime)
    (records : List MessageRecord) (state : ReconciliationResult × Database) :
    CountedInto (rowsCounted platform machineId now records state.2) state.2
      (records.foldl (reconcileRow platform machineId now) state).2 := by
  induction records generalizing state with
  | nil => exact .of_dailySummary rfl
  | cons record records ih =>
      have hrow := reconcileRow_countedInto platform machineId now state record
      have hrest := ih (reconcileRow platform machineId now state record)
      have hdb : (reconcileRow platform machineId now (⟨0, 0, 0, 0⟩, state.2) record).2 =
          (reconcileRow platform machineId now state record).2 := by
        rw [reconcileRow_db, reconcileRow_db]
      rw [rowsCounted, List.foldl_cons, hdb]
      exact hrow.append hrest

/-- Everything that a transaction does to the daily summary. -/
theorem after_countedInto (platform : Platform) (db : Database) (op : Job × Datetime) :
    CountedInto (countedRecords platform db op) db (db.after platform op) := by
  obtain ⟨job, now⟩ := op
  cases hrun : job.run platform now db with
  | error error =>
      simp only [countedRecords, Database.after, hrun]
      exact .of_dailySummary rfl
  | ok result =>
      obtain ⟨answer, after⟩ := result
      have htables := (Job.tables hrun).2
      simp only [countedRecords, Database.after, hrun]
      cases job with
      | complete id arguments =>
          obtain ⟨final, hcomplete, heq⟩ := map_eq_ok.mp hrun
          cases heq
          exact markCompleted_countedInto hcomplete
      | reconcile machineId limit =>
          obtain ⟨⟨counts, final⟩, hreconcile, heq⟩ := map_eq_ok.mp hrun
          cases heq
          rw [reconcile_eq_foldl hreconcile]
          exact reconcileRows_countedInto platform machineId now _ (⟨0, 0, 0, 0⟩, db)
      | cleanup retentionDays batchSize =>
          obtain ⟨⟨counts, final⟩, hcleanup, heq⟩ := map_eq_ok.mp hrun
          cases heq
          obtain rfl | ⟨cutoff, -, rfl⟩ := cleanup_eq_ok hcleanup
          · exact .of_dailySummary rfl
          · exact .of_dailySummary rfl
      | save | claim | fail | recover | replay | audit =>
          exact .of_dailySummary (htables rfl).2

end

/-- The daily summary is the fold of the records counted along the run. -/
theorem counted_along {platform : Platform} {db t : Database} {ops : List (Job × Datetime)}
    (run : (countingSystem platform).exec db ops = some t) :
    CountedInto ((countingSystem platform).trace db ops) db t :=
  (countingSystem platform).trace_invariant (I := fun past t => CountedInto past db t)
    (.of_dailySummary rfl)
    (fun _ m op _ _ hm hstep =>
      Option.some.inj hstep ▸ hm.append (after_countedInto platform m op))
    ⟨ops, run, rfl⟩

/-! ## The extremes of a day -/

def DailySummary.extremes (row : DailySummary) : Extremes Text Text where
  count := row.productionCount
  firstLabel := row.firstAck
  firstTime := row.firstCompletedAt
  lastLabel := row.lastAck
  lastTime := row.lastCompletedAt

/-- The count, the first and the last ACK and their times, under a key. -/
def dayExtremes (db : Database) (key : SummaryKey) : Option (Extremes Text Text) :=
  (db.dailySummary.find? fun row => row.key == key).map DailySummary.extremes

def ProductionRecord.event (record : ProductionRecord) : Text × Text :=
  (record.ack, record.completedAt)

/-- The completions counted into a key along a run, in the order of their processing. -/
def dayEvents (platform : Platform) (key : SummaryKey) (db : Database)
    (ops : List (Job × Datetime)) : List (Text × Text) :=
  (recordsOf key ((countingSystem platform).trace db ops)).map ProductionRecord.event

theorem dayExtremes_summaryRow (db : Database) (key : SummaryKey) :
    dayExtremes db key = (summaryRow db key).map DailySummary.extremes := by
  rw [dayExtremes, summaryRow, Option.map_map]
  rfl

theorem extremes_countedRow (record : ProductionRecord) (row : Option DailySummary) :
    (countedRow record row).extremes =
      Extremes.next record.event (row.map DailySummary.extremes) := by
  cases row with
  | none => rfl
  | some row =>
      simp only [countedRow, Extremes.next, Option.map_some, Extremes.add,
        DailySummary.extremes, DailySummary.contents, addToSummary, ProductionRecord.event]
      congr

theorem extremes_foldl (records : List ProductionRecord) (row : Option DailySummary) :
    (records.foldl (fun row record => some (countedRow record row)) row).map
        DailySummary.extremes =
      (records.map ProductionRecord.event).foldl
        (fun extremes event => some (Extremes.next event extremes))
        (row.map DailySummary.extremes) := by
  induction records generalizing row with
  | nil => rfl
  | cons record records ih =>
      rw [List.foldl_cons, ih, List.map_cons, List.foldl_cons, Option.map_some,
        extremes_countedRow]

theorem dayExtremes_eq_ofList {platform : Platform} {key : SummaryKey} {db t : Database}
    {ops : List (Job × Datetime)} (fresh : dayExtremes db key = none)
    (run : (countingSystem platform).exec db ops = some t) :
    dayExtremes t key = Extremes.ofList (dayEvents platform key db ops) := by
  have hcounted := counted_along run key
  rw [dayExtremes_summaryRow] at fresh ⊢
  rw [hcounted, extremes_foldl, fresh]
  rfl

/-- The canonical texts are ordered like their instants, to the second. -/
theorem formatTimestamp_le_iff {first second : Datetime} :
    formatTimestamp first ≤ formatTimestamp second ↔ first.second ≤ second.second := by
  rw [← not_lt, ← not_lt]
  exact not_congr Datetime.isoformat_lt_iff

/--
First and last of the day: after any transactions the row of a new key describes the
completions counted into it.  Canonical times are compared as instants, and for distinct
times the row does not depend on the order of the processing.
-/
theorem day_first_and_last {platform : Platform} {key : SummaryKey} {db t : Database}
    {ops : List (Job × Datetime)} (fresh : dayExtremes db key = none)
    (run : (countingSystem platform).exec db ops = some t) :
    Extremes.Summarizes (dayExtremes t key) (dayEvents platform key db ops) ∧
    (∀ day, dayExtremes t key = some day →
      (∀ event ∈ dayEvents platform key db ops, ∃ time, event.2 = formatTimestamp time) →
      ∃ earliest latest, day.firstTime = formatTimestamp earliest ∧
        day.lastTime = formatTimestamp latest ∧
        ∀ event ∈ dayEvents platform key db ops, ∀ time, event.2 = formatTimestamp time →
          earliest.second ≤ time.second ∧ time.second ≤ latest.second) ∧
    ∀ (other u : Database) (others : List (Job × Datetime)), dayExtremes other key = none →
      (countingSystem platform).exec other others = some u →
      (dayEvents platform key other others).Perm (dayEvents platform key db ops) →
      ((dayEvents platform key db ops).map Prod.snd).Nodup →
      dayExtremes u key = dayExtremes t key := by
  have hfold := dayExtremes_eq_ofList fresh run
  have hsummary := Extremes.ofList_summarizes (dayEvents platform key db ops)
  rw [← hfold] at hsummary
  refine ⟨hsummary, ?_, ?_⟩
  · intro day hday hcanonical
    rw [hday] at hsummary
    have hfirst : FirstLeast (dayEvents platform key db ops) _ := Extremes.Describes.first hsummary
    have hlast : LastGreatest (dayEvents platform key db ops) _ := Extremes.Describes.last hsummary
    obtain ⟨earliest, hearliest⟩ := hcanonical _ hfirst.mem
    obtain ⟨latest, hlatest⟩ := hcanonical _ hlast.mem
    refine ⟨earliest, latest, hearliest, hlatest, ?_⟩
    intro event hevent time htime
    have hafter := hfirst.le hevent
    have hbefore := hlast.le hevent
    rw [hearliest, htime] at hafter
    rw [hlatest, htime] at hbefore
    exact ⟨formatTimestamp_le_iff.mp hafter, formatTimestamp_le_iff.mp hbefore⟩
  · intro other u others hother hrun hperm hnodup
    have hothers := Extremes.ofList_summarizes (dayEvents platform key other others)
    rw [← dayExtremes_eq_ofList hother hrun] at hothers
    exact (hsummary.eq_of_perm hothers hperm hnodup).symm

/-! ## Two completions out of order -/

def sampleKey : SummaryKey :=
  summaryKey (str "2025-09-08") defaultMachineId (str "T01") (str "TESTP001") none none none

/-- The second message is completed first, five seconds after the first one's time. -/
def sampleDay : List (Job × Datetime) :=
  [(.save sampleMessage, noon), (.save { sampleMessage with rawPayload := nextPayload }, noon),
    (.complete 2 { sampleCompletion with
      completedAt := formatTimestamp (atNoon 5), ack := some (str "A2") }, noon),
    (.complete 1 sampleCompletion, noon)]

theorem day_first_and_last_sample :
    ∃ t, (countingSystem samplePlatform).exec .empty sampleDay = some t ∧
      dayEvents samplePlatform sampleKey .empty sampleDay =
        [(str "A2", formatTimestamp (atNoon 5)), (str "A1", formatTimestamp noon)] ∧
      Extremes.Summarizes (dayExtremes t sampleKey)
        (dayEvents samplePlatform sampleKey .empty sampleDay) := by
  obtain ⟨t, hrun⟩ := exec_transactions samplePlatform (countedRecords samplePlatform)
    .empty sampleDay
  have hevents : dayEvents samplePlatform sampleKey .empty sampleDay =
      [(str "A2", formatTimestamp (atNoon 5)), (str "A1", formatTimestamp noon)] := by
    decide +kernel
  have hfresh : dayExtremes .empty sampleKey = none := rfl
  exact ⟨t, hrun, hevents, (day_first_and_last hfresh hrun).1⟩

end EdgeBridge
