import EdgeBridge.Foundation.Effect
import EdgeBridge.Store.DaySummary

/-!
# A row of a reconciliation, statement by statement

Every call of `_upsert_production_record_and_summary` may fail, and undoes only itself.
The outcomes of a row are told apart by the call that fails and by the flag that is left.
-/

namespace EdgeBridge

open Foundation
open Foundation.Effect (Triple)

/-! ## The statements of a row -/

/-- Statements of a transaction that goes on after an exception. -/
abbrev Statements (α : Type) : Type := Foundation.Effect Database PyError α

/-- The calls of `_upsert_production_record_and_summary`, in order; the last of them sets
`summary_applied`. -/
inductive UpsertCall where
  | productionDate
  | timestamp
  | selectApplied
  | writeRecord
  | selectSummary
  | writeSummary
  | markApplied
  deriving DecidableEq

/-- The exceptions of the calls that fail. -/
def UpsertFaults : Type := UpsertCall → Option PyError

namespace UpsertFaults

def none : UpsertFaults := fun _ => .none

/-- A call that fails has no effect. -/
def call {α : Type} (faults : UpsertFaults) (call : UpsertCall)
    (body : Statements α) : Statements α :=
  match faults call with
  | some error => .raise error
  | .none => body

theorem call_triple {α : Type} {faults : UpsertFaults} {call : UpsertCall}
    {body : Statements α} {before : Database → Prop}
    {returns : α → Database → Prop} {raises : PyError → Database → Prop}
    (hgoes : faults call = .none → Triple before body returns raises)
    (hfails : ∀ error db, faults call = some error → before db → raises error db) :
    Triple before (faults.call call body) returns raises := by
  unfold UpsertFaults.call
  cases hfault : faults call with
  | some error => exact .raise fun db hdb => hfails error db hfault hdb
  | none => exact hgoes hfault

end UpsertFaults

/-- `_increment_daily_summary`: a `SELECT`, and an `INSERT` or an `UPDATE`. -/
def incrementStatements (faults : UpsertFaults) (record : ProductionRecord) (nowText : Text) :
    Statements PUnit := do
  let row ← faults.call .selectSummary
    (.readAs fun db => db.dailySummary.find? fun row => row.key == record.key)
  faults.call .writeSummary
    (match row with
    | some row => .change fun db =>
        { db with
          dailySummary := db.dailySummary.update (fun other => other.id == row.id)
            (addToSummary record nowText) }
    | none => do
        let table ← .readAs fun db => db.dailySummary.insert (firstSummary record nowText)
        match table with
        | some table => .change fun db => { db with dailySummary := table }
        | none => .raise .integrityError)

/-- `_upsert_production_record_and_summary`, statement by statement. -/
def upsertStatements (platform : Platform) (faults : UpsertFaults) (source : MessageRecord)
    (completion : Completion) (now : Datetime) : Statements Bool := do
  let date ← faults.call .productionDate
    (.ofExcept (productionDate platform completion.completedAt))
  let nowText ← faults.call .timestamp (.done (formatTimestamp now))
  let alreadyApplied ← faults.call .selectApplied
    (.readAs fun db => summaryApplied db source.id)
  let record := newProductionRecord source completion date nowText alreadyApplied
  faults.call .writeRecord do
    Foundation.Effect.ofExcept (bindAll (productionBindings source completion date))
    .change (writeProductionRecord record)
  if alreadyApplied then .done false
  else do
    incrementStatements faults record nowText
    faults.call .markApplied (.change (setSummaryApplied source.id))
    .done true

/-- One row of the loop, up to its `except`. -/
def reconcileStatements (platform : Platform) (faults : UpsertFaults) (machineId : Text)
    (now : Datetime) (row : MessageRecord) : Statements Bool := do
  let odooResponse := row.odooResponse.getD []
  let metadata ← Foundation.Effect.ofExcept (productionMetadataFromResponse odooResponse)
  upsertStatements platform faults row
    ⟨row.completedAt.getD [], machineId, row.ack.getD [], metadata, odooResponse⟩ now

/-! ## What the statements leave -/

/-- At most the record of the message is written, and it is not flagged. -/
structure Uncounted (messageId : Nat) (db after : Database) : Prop where
  messages : after.mqttMessages = db.mqttMessages
  summary : after.dailySummary = db.dailySummary
  flag : summaryApplied after messageId = false
  others : ∀ id, id ≠ messageId → after.productionRecord id = db.productionRecord id

/-- The record that the upsert writes and counts, when no call fails. -/
def countableRecord (platform : Platform) (source : MessageRecord) (completion : Completion)
    (now : Datetime) : Except PyError ProductionRecord := do
  let date ← productionDate platform completion.completedAt
  bindAll (productionBindings source completion date)
  .ok (newProductionRecord source completion date (formatTimestamp now) false)

/-- No call before the last one fails. -/
def UpsertFaults.Late (faults : UpsertFaults) : Prop :=
  ∀ call, call ≠ .markApplied → faults call = .none

/-- The upsert arrives at its last call. -/
structure Arrives (platform : Platform) (faults : UpsertFaults) (source : MessageRecord)
    (completion : Completion) (now : Datetime) (record : ProductionRecord) : Prop where
  countable : countableRecord platform source completion now = .ok record
  late : faults.Late

/-- An exception of the upsert comes before the summary is written, or from the last call. -/
def Interrupted (platform : Platform) (faults : UpsertFaults) (source : MessageRecord)
    (completion : Completion) (now : Datetime) (db : Database) (error : PyError)
    (after : Database) : Prop :=
  (Uncounted source.id db after ∧
    ∀ record, ¬ Arrives platform faults source completion now record) ∨
    (faults .markApplied = some error ∧
      ∃ record, Arrives platform faults source completion now record ∧
        incrementDailySummary record (formatTimestamp now) (writeProductionRecord record db) =
          .ok after)

section

variable {platform : Platform} {now : Datetime} {db : Database} {faults : UpsertFaults}
  {source : MessageRecord} {completion : Completion}

theorem Uncounted.refl {messageId : Nat} (h : summaryApplied db messageId = false) :
    Uncounted messageId db db := ⟨rfl, rfl, h, fun _ _ => rfl⟩

/-- The record is written with the flag that the row has. -/
theorem uncounted_writeProductionRecord {record : ProductionRecord}
    (hfresh : summaryApplied db record.mqttMessageId = false)
    (hflag : record.summaryApplied = false) :
    Uncounted record.mqttMessageId db (writeProductionRecord record db) := by
  obtain ⟨table, hwrite, ⟨stored, hstored, -, hkept⟩, hothers⟩ :=
    writeProductionRecord_spec record db
  rw [hwrite]
  refine ⟨rfl, rfl, ?_, hothers⟩
  unfold summaryApplied Database.productionRecord
  rw [hstored, Option.any_some, hkept (hflag.trans hfresh.symm)]
  exact hflag

theorem UpsertFaults.call_readAs {α : Type} {call : UpsertCall} {f : Database → α} :
    Triple (· = db) (faults.call call (.readAs f))
      (fun a s => faults call = .none ∧ a = f db ∧ s = db)
      (fun error s => faults call = some error ∧ s = db) := by
  refine call_triple (fun hgoes => .readAs ?_) (fun error s hfault hs => ⟨hfault, hs⟩)
  rintro s rfl
  exact ⟨hgoes, rfl, rfl⟩

theorem UpsertFaults.call_ofExcept {α : Type} {call : UpsertCall}
    {result : Except PyError α} :
    Triple (· = db) (faults.call call (.ofExcept result))
      (fun a s => faults call = .none ∧ result = .ok a ∧ s = db)
      (fun error s => (faults call = some error ∨ result = .error error) ∧ s = db) := by
  refine call_triple (fun hgoes => .ofExcept ?_ ?_)
    (fun error s hfault hs => ⟨.inl hfault, hs⟩)
  · intro a s hresult hs
    exact ⟨hgoes, hresult, hs⟩
  · intro error s hresult hs
    exact ⟨.inr hresult, hs⟩

/-- The summary is incremented, or a statement fails and nothing is written. -/
theorem incrementStatements_triple (record : ProductionRecord) (nowText : Text) :
    Triple (· = db) (incrementStatements faults record nowText)
      (fun _ after => (faults .selectSummary = none ∧ faults .writeSummary = none) ∧
        incrementDailySummary record nowText db = .ok after)
      (fun error after => (faults .selectSummary = some error ∨
        faults .writeSummary = some error) ∧ after = db) := by
  have hselect : Triple (· = db)
      (faults.call .selectSummary
        (.readAs fun db => db.dailySummary.find? fun row => row.key == record.key))
      (fun row s => faults .selectSummary = none ∧
        row = (db.dailySummary.find? fun row => row.key == record.key) ∧ s = db)
      (fun error s => (faults .selectSummary = some error ∨
        faults .writeSummary = some error) ∧ s = db) :=
    UpsertFaults.call_readAs.weaken (fun _ hs => hs) (fun _ _ hs => hs)
      (fun _ _ hs => ⟨.inl hs.1, hs.2⟩)
  refine hselect.bind fun row => UpsertFaults.call_triple (fun hwrites => ?_)
    (fun error s hfault hs => ⟨.inr hfault, hs.2.2⟩)
  rintro s ⟨hgoes, rfl, rfl⟩
  obtain ⟨table, hcounted, -, -⟩ := incrementDailySummary_change record nowText s
  rw [hcounted]
  unfold incrementDailySummary at hcounted
  cases hfound : s.dailySummary.find? fun row => row.key == record.key with
  | some row =>
      rw [hfound] at hcounted
      exact ⟨⟨hgoes, hwrites⟩, hcounted.symm⟩
  | none =>
      rw [hfound] at hcounted
      cases hinsert : s.dailySummary.insert (firstSummary record nowText) with
      | none =>
          simp only [hinsert] at hcounted
          cases hcounted
      | some table =>
          simp only [hinsert] at hcounted
          simp only [Foundation.Effect.readAs_bind, hinsert]
          exact ⟨⟨hgoes, hwrites⟩, hcounted.symm⟩

theorem Interrupted.of_fault {call : UpsertCall} {error : PyError} {after : Database}
    (hfault : faults call = some error) (hcall : call ≠ .markApplied)
    (h : Uncounted source.id db after) :
    Interrupted platform faults source completion now db error after := by
  refine .inl ⟨h, fun record harrives => ?_⟩
  have hgoes := harrives.late call hcall
  rw [hfault] at hgoes
  cases hgoes

theorem countableRecord_eq {date : Text}
    (h : productionDate platform completion.completedAt = .ok date) :
    countableRecord platform source completion now =
      (bindAll (productionBindings source completion date)).map fun _ =>
        newProductionRecord source completion date (formatTimestamp now) false := by
  simp only [countableRecord, h, bind, Except.bind]
  cases bindAll (productionBindings source completion date) with
  | ok _ => rfl
  | error error => rfl

theorem writeStatement_triple {date : Text}
    (hday : productionDate platform completion.completedAt = .ok date)
    (hfresh : summaryApplied db source.id = false) :
    Triple (· = db)
      (faults.call .writeRecord do
        Foundation.Effect.ofExcept (bindAll (productionBindings source completion date))
        .change (writeProductionRecord
          (newProductionRecord source completion date (formatTimestamp now) false)))
      (fun _ s => faults .writeRecord = .none ∧
        countableRecord platform source completion now =
          .ok (newProductionRecord source completion date (formatTimestamp now) false) ∧
        s = writeProductionRecord
          (newProductionRecord source completion date (formatTimestamp now) false) db)
      (Interrupted platform faults source completion now db) := by
  refine UpsertFaults.call_triple (fun hgoes => ?_) ?_
  · have hbinds : Triple (· = db)
        (.ofExcept (bindAll (productionBindings source completion date)))
        (fun _ s => countableRecord platform source completion now =
          .ok (newProductionRecord source completion date (formatTimestamp now) false) ∧ s = db)
        (Interrupted platform faults source completion now db) := by
      refine .ofExcept ?_ ?_
      · rintro _ s hbinds rfl
        refine ⟨?_, rfl⟩
        rw [countableRecord_eq hday, hbinds]
        rfl
      · rintro error s hbinds rfl
        refine .inl ⟨.refl hfresh, fun record harrives => ?_⟩
        have hcountable := harrives.countable
        rw [countableRecord_eq hday, hbinds] at hcountable
        cases hcountable
    refine hbinds.bind fun _ => .change ?_
    rintro s ⟨hcountable, rfl⟩
    exact ⟨hgoes, hcountable, rfl⟩
  · rintro error s hfault rfl
    exact .of_fault hfault nofun (.refl hfresh)

theorem upsertStatements_triple (hfresh : summaryApplied db source.id = false) :
    Triple (· = db) (upsertStatements platform faults source completion now)
      (fun applied after => applied = true ∧ faults .markApplied = .none ∧
        ∃ record counted, Arrives platform faults source completion now record ∧
          incrementDailySummary record (formatTimestamp now)
            (writeProductionRecord record db) = .ok counted ∧
          after = setSummaryApplied source.id counted)
      (Interrupted platform faults source completion now db) := by
  have hdate : Triple (· = db)
      (faults.call .productionDate (.ofExcept (productionDate platform completion.completedAt)))
      (fun date s => faults .productionDate = .none ∧
        productionDate platform completion.completedAt = .ok date ∧ s = db)
      (Interrupted platform faults source completion now db) := by
    refine UpsertFaults.call_ofExcept.weaken (fun _ hs => hs) (fun _ _ hs => hs) ?_
    rintro error s ⟨hfault | hday, rfl⟩
    · exact .of_fault hfault nofun (.refl hfresh)
    · refine .inl ⟨.refl hfresh, fun record harrives => ?_⟩
      have hcountable := harrives.countable
      rw [countableRecord, hday] at hcountable
      cases hcountable
  refine hdate.bind fun date => .of_start ?_
  rintro db ⟨hgoesDate, hday, rfl⟩
  have htime : Triple (· = db)
      (faults.call .timestamp (.done (formatTimestamp now)))
      (fun nowText s => faults .timestamp = .none ∧ nowText = formatTimestamp now ∧ s = db)
      (Interrupted platform faults source completion now db) := by
    refine UpsertFaults.call_triple (fun hgoes => .done fun s hs => ⟨hgoes, rfl, hs⟩) ?_
    rintro error s hfault rfl
    exact .of_fault hfault nofun (.refl hfresh)
  refine htime.bind fun nowText => .of_start ?_
  rintro db ⟨hgoesTime, rfl, rfl⟩
  have happlied : Triple (· = db)
      (faults.call .selectApplied (.readAs fun db => summaryApplied db source.id))
      (fun applied s => faults .selectApplied = .none ∧ applied = false ∧ s = db)
      (Interrupted platform faults source completion now db) := by
    refine UpsertFaults.call_readAs.weaken (fun _ hs => hs) ?_ ?_
    · rintro applied s ⟨hgoes, rfl, rfl⟩
      exact ⟨hgoes, hfresh, rfl⟩
    · rintro error s ⟨hfault, rfl⟩
      exact .of_fault hfault nofun (.refl hfresh)
  refine happlied.bind fun applied => .of_start ?_
  rintro db ⟨hgoesApplied, rfl, rfl⟩
  let record := newProductionRecord source completion date (formatTimestamp now) false
  have huncounted : Uncounted record.mqttMessageId db (writeProductionRecord record db) :=
    uncounted_writeProductionRecord hfresh rfl
  have hwrite : Triple (· = db) _ _ (Interrupted platform faults source completion now db) :=
    writeStatement_triple hday hfresh
  refine hwrite.bind fun _ => .of_start ?_
  rintro written ⟨hgoesRecord, hcountable, rfl⟩
  refine .ite nofun fun _ => ?_
  have hincrement : Triple (· = writeProductionRecord record db)
      (incrementStatements faults record (formatTimestamp now))
      (fun _ counted => Arrives platform faults source completion now record ∧
        incrementDailySummary record (formatTimestamp now)
          (writeProductionRecord record db) = .ok counted)
      (Interrupted platform faults source completion now db) := by
    refine (incrementStatements_triple record (formatTimestamp now)).weaken
      (fun _ hs => hs) ?_ ?_
    · rintro _ counted ⟨⟨hgoesSelect, hgoesWrite⟩, hcounted⟩
      refine ⟨⟨hcountable, fun call hcall => ?_⟩, hcounted⟩
      cases call with
      | markApplied => exact absurd rfl hcall
      | productionDate | timestamp | selectApplied | writeRecord | selectSummary
      | writeSummary => assumption
    · rintro error s ⟨hfault | hfault, rfl⟩
      · exact .of_fault hfault nofun huncounted
      · exact .of_fault hfault nofun huncounted
  refine hincrement.bind fun _ => .of_start ?_
  rintro counted ⟨harrives, hcounted⟩
  have hmark : Triple (· = counted)
      (faults.call .markApplied (.change (setSummaryApplied source.id)))
      (fun _ s => faults .markApplied = .none ∧ s = setSummaryApplied source.id counted)
      (Interrupted platform faults source completion now db) := by
    refine UpsertFaults.call_triple (fun hgoes => .change ?_) ?_
    · rintro s rfl
      exact ⟨hgoes, rfl⟩
    · rintro error s hfault rfl
      exact .inr ⟨hfault, record, harrives, hcounted⟩
  refine hmark.bind fun _ => .done ?_
  rintro s ⟨hgoes, rfl⟩
  exact ⟨rfl, hgoes, record, counted, harrives, hcounted, rfl⟩

end

/-! ## The outcomes of a row -/

/-- The records are counted, each message once, and their flags are set. -/
structure Tally (records : List ProductionRecord) (db after : Database) : Prop where
  messages : after.mqttMessages = db.mqttMessages
  counted : CountedInto records db after
  once : (records.map ProductionRecord.mqttMessageId).Nodup
  flagged : ∀ id, id ∈ records.map ProductionRecord.mqttMessageId ↔
    summaryApplied db id = false ∧ summaryApplied after id = true
  stored : ∀ record ∈ records, ∃ stored,
    after.productionRecord record.mqttMessageId = some stored ∧ SameProduction stored record
  kept : ∀ id, summaryApplied db id = true →
    after.productionRecord id = db.productionRecord id

theorem summaryApplied_congr {db after : Database} {id : Nat}
    (h : after.productionRecord id = db.productionRecord id) :
    summaryApplied after id = summaryApplied db id := by
  rw [summaryApplied, summaryApplied, h]

theorem Tally.refl (db : Database) : Tally [] db db where
  messages := rfl
  counted := .of_dailySummary rfl
  once := List.nodup_nil
  flagged := by
    intro id
    simp +contextual
  stored := by simp
  kept := fun _ _ => rfl

theorem Tally.append {first second : List ProductionRecord} {db mid after : Database}
    (hfirst : Tally first db mid) (hsecond : Tally second mid after) :
    Tally (first ++ second) db after where
  messages := hsecond.messages.trans hfirst.messages
  counted := hfirst.counted.append hsecond.counted
  once := by
    rw [List.map_append]
    refine List.nodup_append.mpr ⟨hfirst.once, hsecond.once, ?_⟩
    rintro id hin _ hin' rfl
    have hset := ((hfirst.flagged id).mp hin).2
    rw [((hsecond.flagged id).mp hin').1] at hset
    cases hset
  flagged := by
    intro id
    rw [List.map_append, List.mem_append, hfirst.flagged, hsecond.flagged]
    cases hmid : summaryApplied mid id with
    | true => simp [summaryApplied_congr (hsecond.kept id hmid), hmid]
    | false =>
        have hdb : summaryApplied db id = false := by
          cases hset : summaryApplied db id with
          | false => rfl
          | true =>
              rw [summaryApplied_congr (hfirst.kept id hset), hset] at hmid
              cases hmid
        simp [hdb]
  stored := by
    intro record hrecord
    obtain hin | hin := List.mem_append.mp hrecord
    · have hset := ((hfirst.flagged _).mp (List.mem_map_of_mem hin)).2
      rw [hsecond.kept _ hset]
      exact hfirst.stored record hin
    · exact hsecond.stored record hin
  kept := by
    intro id hset
    have hmid := hfirst.kept id hset
    rw [hsecond.kept id (summaryApplied_congr hmid ▸ hset), hmid]

theorem Uncounted.tally {messageId : Nat} {db after : Database}
    (h : Uncounted messageId db after) (hfresh : summaryApplied db messageId = false) :
    Tally [] db after where
  messages := h.messages
  counted := .of_dailySummary h.summary
  once := List.nodup_nil
  flagged := by
    intro id
    by_cases hid : id = messageId
    · simp [hid, h.flag]
    · simp +contextual [summaryApplied_congr (h.others id hid)]
  stored := by simp
  kept := by
    intro id hset
    refine h.others id fun hid => ?_
    rw [hid, hfresh] at hset
    cases hset

/-- The record that a row is counted with, when no call fails. -/
def countableRow (platform : Platform) (machineId : Text) (now : Datetime)
    (row : MessageRecord) : Except PyError ProductionRecord := do
  let odooResponse := row.odooResponse.getD []
  let metadata ← productionMetadataFromResponse odooResponse
  countableRecord platform row
    ⟨row.completedAt.getD [], machineId, row.ack.getD [], metadata, odooResponse⟩ now

/-- The record is written and counted; this says nothing about its flag. -/
structure Incremented (record : ProductionRecord) (now : Datetime) (db after : Database) :
    Prop where
  messages : after.mqttMessages = db.mqttMessages
  table : (incrementDailySummary record (formatTimestamp now) db).map
    Database.dailySummary = .ok after.dailySummary
  stored : ∃ stored, after.productionRecord record.mqttMessageId = some stored ∧
    SameProduction stored record
  others : ∀ id, id ≠ record.mqttMessageId →
    after.productionRecord id = db.productionRecord id

/-- What a row leaves whose message has not been counted. -/
inductive RowOutcome (platform : Platform) (machineId : Text) (now : Datetime)
    (faults : UpsertFaults) (row : MessageRecord) (db after : Database) : Prop where
  | uncounted (h : Uncounted row.id db after)
      (hstops : ∀ record, countableRow platform machineId now row = .ok record →
        ¬ faults.Late)
  | counted (record : ProductionRecord)
      (hcountable : countableRow platform machineId now row = .ok record)
      (hlate : faults.Late) (hincremented : Incremented record now db after)
      (hflag : summaryApplied after row.id = true ↔ faults .markApplied = none)

section

variable {platform : Platform} {machineId : Text} {now : Datetime} {faults : UpsertFaults}
  {row source : MessageRecord} {completion : Completion} {record : ProductionRecord}
  {db other after : Database}

theorem incrementDailySummary_table (record : ProductionRecord) (nowText : Text)
    (h : other.dailySummary = db.dailySummary) :
    (incrementDailySummary record nowText other).map Database.dailySummary =
      (incrementDailySummary record nowText db).map Database.dailySummary := by
  unfold incrementDailySummary
  rw [h]
  cases db.dailySummary.find? fun row => row.key == record.key with
  | some row => rfl
  | none => cases db.dailySummary.insert (firstSummary record nowText) <;> rfl

theorem Incremented.change (h : Incremented record now db after) :
    SummaryChange record db after := by
  obtain ⟨table, hcounted, hchange, -⟩ :=
    incrementDailySummary_change record (formatTimestamp now) db
  have htable := h.table
  rw [hcounted, Except.map, Except.ok.injEq] at htable
  subst htable
  exact ⟨hchange.counted, hchange.others⟩

theorem Incremented.tally (h : Incremented record now db after)
    (hfresh : summaryApplied db record.mqttMessageId = false)
    (hflag : summaryApplied after record.mqttMessageId = true) :
    Tally [record] db after where
  messages := h.messages
  counted := h.change.countedInto
  once := by simp
  flagged := by
    intro id
    by_cases hid : id = record.mqttMessageId
    · simp [hid, hfresh, hflag]
    · simp +contextual [hid, summaryApplied_congr (h.others id hid)]
  stored := by simpa using h.stored
  kept := by
    intro id hset
    refine h.others id fun hid => ?_
    rw [hid, hfresh] at hset
    cases hset

theorem countableRecord_eq_ok
    (h : countableRecord platform source completion now = .ok record) :
    record.mqttMessageId = source.id ∧ record.summaryApplied = false := by
  obtain ⟨date, -, hbody⟩ := bind_eq_ok.mp h
  obtain ⟨_, -, hbody⟩ := bind_eq_ok.mp hbody
  cases hbody
  exact ⟨rfl, rfl⟩

theorem countableRow_id (h : countableRow platform machineId now row = .ok record) :
    record.mqttMessageId = row.id := by
  obtain ⟨metadata, -, hbody⟩ := bind_eq_ok.mp h
  exact (countableRecord_eq_ok hbody).1

theorem incremented_of_counted {counted : Database}
    (hfresh : summaryApplied db record.mqttMessageId = false)
    (hflag : record.summaryApplied = false)
    (h : incrementDailySummary record (formatTimestamp now) (writeProductionRecord record db) =
      .ok counted) :
    Incremented record now db counted ∧
      summaryApplied counted record.mqttMessageId = false := by
  obtain ⟨records, hwrite, ⟨stored, hstored, hsame, hkept⟩, hothers⟩ :=
    writeProductionRecord_spec record db
  rw [hwrite] at h
  have hsummary : Database.dailySummary { db with productionRecords := records } =
      db.dailySummary := rfl
  have htable := incrementDailySummary_table record (formatTimestamp now) hsummary
  rw [h] at htable
  obtain ⟨table, hcounted, -, -⟩ := incrementDailySummary_change record (formatTimestamp now)
    { db with productionRecords := records }
  rw [hcounted, Except.ok.injEq] at h
  subst h
  refine ⟨⟨rfl, htable.symm, ⟨stored, hstored, hsame⟩, hothers⟩, ?_⟩
  unfold summaryApplied Database.productionRecord
  rw [hstored, Option.any_some, hkept (hflag.trans hfresh.symm)]
  exact hflag

theorem Incremented.setSummaryApplied (h : Incremented record now db after) :
    Incremented record now db (setSummaryApplied record.mqttMessageId after) ∧
      summaryApplied (EdgeBridge.setSummaryApplied record.mqttMessageId after)
        record.mqttMessageId = true := by
  obtain ⟨stored, hstored, hsame⟩ := h.stored
  have hmarked := setSummaryApplied_own hstored
  refine ⟨⟨h.messages, h.table, ⟨_, hmarked, ⟨hsame.messageId, hsame.completedAt, hsame.key⟩⟩,
    fun id hid => ?_⟩, ?_⟩
  · rw [setSummaryApplied_others _ hid]
    exact h.others id hid
  · rw [summaryApplied, hmarked]
    rfl

theorem reconcileStatements_outcome (hfresh : summaryApplied db row.id = false) :
    RowOutcome platform machineId now faults row db
      (reconcileStatements platform faults machineId now row db).2 := by
  have hrow : Triple (· = db) (reconcileStatements platform faults machineId now row)
      (fun _ after => RowOutcome platform machineId now faults row db after)
      (fun _ after => RowOutcome platform machineId now faults row db after) := by
    have hmetadata : Triple (· = db)
        (.ofExcept (productionMetadataFromResponse (row.odooResponse.getD [])))
        (fun metadata s => productionMetadataFromResponse (row.odooResponse.getD []) =
          .ok metadata ∧ s = db)
        (fun _ after => RowOutcome platform machineId now faults row db after) := by
      refine .ofExcept (fun metadata s hmetadata hs => ⟨hmetadata, hs⟩) ?_
      rintro error s herror rfl
      refine .uncounted (.refl hfresh) fun record hcountable => ?_
      rw [countableRow, herror] at hcountable
      cases hcountable
    refine hmetadata.bind fun metadata => .of_start ?_
    rintro db ⟨hparses, rfl⟩
    have hcountable : ∀ record, countableRow platform machineId now row = .ok record ↔
        countableRecord platform row ⟨row.completedAt.getD [], machineId, row.ack.getD [],
          metadata, row.odooResponse.getD []⟩ now = .ok record := by
      intro record
      rw [countableRow, hparses]
      rfl
    refine (upsertStatements_triple hfresh).weaken (fun _ hs => hs) ?_ ?_
    · rintro applied after ⟨-, hmark, record, counted, harrives, hcounted, rfl⟩
      obtain ⟨hid, hflag⟩ := countableRecord_eq_ok harrives.countable
      rw [← hid] at hfresh
      have hmarked := (incremented_of_counted hfresh hflag hcounted).1.setSummaryApplied
      rw [hid] at hmarked
      exact .counted record ((hcountable record).mpr harrives.countable) harrives.late
        hmarked.1 (by simp [hmarked.2, hmark])
    · rintro error after (⟨huncounted, hstops⟩ | ⟨hmark, record, harrives, hcounted⟩)
      · exact .uncounted huncounted fun record hrecord hlate =>
          hstops record ⟨(hcountable record).mp hrecord, hlate⟩
      · obtain ⟨hid, hflag⟩ := countableRecord_eq_ok harrives.countable
        rw [← hid] at hfresh
        have hincremented := incremented_of_counted hfresh hflag hcounted
        exact .counted record ((hcountable record).mpr harrives.countable) harrives.late
          hincremented.1 (by simp [← hid, hincremented.2, hmark])
  exact (hrow db rfl).state

end

/-! ## Without a fault -/

section

variable {platform : Platform} {now : Datetime} {source : MessageRecord}
  {completion : Completion}

theorem UpsertFaults.call_none {α : Type} (call : UpsertCall)
    (body : Statements α) : UpsertFaults.none.call call body = body := rfl

theorem incrementStatements_none {record : ProductionRecord} {nowText : Text}
    {db after : Database} (h : incrementDailySummary record nowText db = .ok after) :
    incrementStatements .none record nowText db = (.ok ⟨⟩, after) := by
  unfold incrementStatements
  unfold incrementDailySummary at h
  simp only [UpsertFaults.call_none, Foundation.Effect.readAs_bind]
  cases hfound : db.dailySummary.find? fun row => row.key == record.key with
  | some row =>
      rw [hfound] at h
      cases h
      rfl
  | none =>
      rw [hfound] at h
      simp only [Foundation.Effect.readAs_bind]
      cases hinsert : db.dailySummary.insert (firstSummary record nowText) with
      | none =>
          rw [hinsert] at h
          cases h
      | some table =>
          rw [hinsert] at h
          cases h
          rfl

theorem upsertStatements_none :
    upsertStatements platform .none source completion now =
      .atomic (upsertProductionRecordAndSummary platform source completion now) := by
  have hok : ∀ {α β : Type} (a : α) (next : α → Except PyError β),
      (Except.ok a >>= next) = next a := fun _ _ => rfl
  funext db
  unfold upsertStatements Foundation.Effect.atomic upsertProductionRecordAndSummary
  simp only [UpsertFaults.call_none, Foundation.Effect.done_bind]
  cases productionDate platform completion.completedAt with
  | error error => rfl
  | ok date =>
      simp only [Foundation.Effect.ofExcept_ok_bind, Foundation.Effect.readAs_bind, hok]
      cases bindAll (productionBindings source completion date) with
      | error error => rfl
      | ok _ =>
          simp only [Foundation.Effect.ofExcept_ok_bind, Foundation.Effect.change_bind, hok]
          cases summaryApplied db source.id with
          | true => rfl
          | false =>
              simp only [Bool.false_eq_true, if_false]
              obtain ⟨table, hcounted, -, -⟩ := incrementDailySummary_change
                (newProductionRecord source completion date (formatTimestamp now) false)
                (formatTimestamp now)
                (writeProductionRecord
                  (newProductionRecord source completion date (formatTimestamp now) false) db)
              rw [Foundation.Effect.bind_of_ok (incrementStatements_none hcounted), hcounted]
              rfl

theorem reconcileStatements_none {machineId : Text} {row : MessageRecord} :
    reconcileStatements platform .none machineId now row =
      .atomic (reconcileRecord platform machineId now row) := by
  funext db
  simp only [reconcileStatements, Foundation.Effect.atomic, reconcileRecord]
  cases productionMetadataFromResponse (row.odooResponse.getD []) with
  | error error => rfl
  | ok metadata =>
      simp only [Foundation.Effect.ofExcept_ok_bind, upsertStatements_none]
      rfl

end

end EdgeBridge
