import EdgeBridge.Foundation.Backlog
import EdgeBridge.Store.Reconciliation
import EdgeBridge.Store.Recovery

/-!
# Reconciliations past bad rows

A reconciliation takes the first rows by id that are not counted yet.  A row that
raises is skipped and stays such a row, so that later calls take it again.
-/

namespace EdgeBridge

open Foundation

/-! ## The rows that can be counted -/

/-- `COMPLETED` rows with a completion time, a response and an ACK, but no applied record. -/
def candidates (db : Database) : List MessageRecord :=
  db.mqttMessages.select (needsReconciliation db)

/-- The record that the upsert of a row leaves, apart from its id and time of writing. -/
def recoveredRecord (platform : Platform) (machineId : Text) (row : MessageRecord) :
    Except PyError ProductionRecord := do
  let odooResponse := row.odooResponse.getD []
  let metadata ← productionMetadataFromResponse odooResponse
  let completion : Completion :=
    ⟨row.completedAt.getD [], machineId, row.ack.getD [], metadata, odooResponse⟩
  let date ← productionDate platform completion.completedAt
  bindAll (productionBindings row completion date)
  .ok (newProductionRecord row completion date [] true)

def recover (platform : Platform) (machineId : Text) (row : MessageRecord) :
    Option ProductionRecord :=
  (recoveredRecord platform machineId row).toOption

/-- The upsert of the row can succeed. -/
def recoverable (platform : Platform) (machineId : Text) (row : MessageRecord) : Bool :=
  (recover platform machineId row).isSome

/-- The records are written and counted, each message once, and no other record changes. -/
structure Recovered (records : List ProductionRecord) (db after : Database) : Prop where
  tally : Tally records db after
  stored : ∀ record ∈ records,
    (after.productionRecord record.mqttMessageId).map ProductionRecord.contents = some record
  others : ∀ id, id ∉ records.map ProductionRecord.mqttMessageId →
    after.productionRecord id = db.productionRecord id

section

variable {platform : Platform} {machineId : Text} {now : Datetime} {row : MessageRecord}
  {rows : List MessageRecord} {record : ProductionRecord} {db mid after : Database}
  {state : ReconciliationResult × Database}

theorem recover_eq_some : recover platform machineId row = some record ↔
    ∃ metadata date, productionMetadataFromResponse (row.odooResponse.getD []) = .ok metadata ∧
      productionDate platform (row.completedAt.getD []) = .ok date ∧
      bindAll (productionBindings row ⟨row.completedAt.getD [], machineId, row.ack.getD [],
        metadata, row.odooResponse.getD []⟩ date) = .ok () ∧
      newProductionRecord row ⟨row.completedAt.getD [], machineId, row.ack.getD [],
        metadata, row.odooResponse.getD []⟩ date [] true = record := by
  have hok : recover platform machineId row = some record ↔
      recoveredRecord platform machineId row = .ok record := by
    unfold recover
    cases recoveredRecord platform machineId row with
    | ok other => simp [Except.toOption]
    | error error => simp [Except.toOption]
  rw [hok, recoveredRecord]
  simp only [bind_eq_ok, Except.ok.injEq]
  constructor
  · rintro ⟨metadata, hmetadata, date, hdate, _, hbound, hrecord⟩
    exact ⟨metadata, date, hmetadata, hdate, hbound, hrecord⟩
  · rintro ⟨metadata, date, hmetadata, hdate, hbound, hrecord⟩
    exact ⟨metadata, hmetadata, date, hdate, (), hbound, hrecord⟩

theorem recover_messageId (h : recover platform machineId row = some record) :
    record.mqttMessageId = row.id := by
  obtain ⟨metadata, date, -, -, -, rfl⟩ := recover_eq_some.mp h
  rfl

theorem recover_applied (h : recover platform machineId row = some record) :
    record.summaryApplied = true := by
  obtain ⟨metadata, date, -, -, -, rfl⟩ := recover_eq_some.mp h
  rfl

/-! ## One row -/

theorem reconcileRow_recovered (now : Datetime)
    (h : recover platform machineId row = some record)
    (hfresh : summaryApplied state.2 row.id = false) :
    Written record state.2 (reconcileRow platform machineId now state row).2 := by
  obtain ⟨metadata, date, hmetadata, hdate, hbound, rfl⟩ := recover_eq_some.mp h
  obtain ⟨after, hupsert, hwritten⟩ := upsert_written now hdate hbound hfresh
  rw [reconcileRow_db, reconcileRecord]
  simp only [hmetadata, bind, Except.bind, hupsert]
  exact hwritten

/-- A row that raises leaves no trace. -/
theorem reconcileRow_refused (now : Datetime) (state : ReconciliationResult × Database)
    (h : recover platform machineId row = none) :
    (reconcileRow platform machineId now state row).2 = state.2 := by
  obtain hsame | ⟨metadata, applied, hmetadata, hupsert⟩ :=
    reconcileRow_cases platform machineId now state row
  · exact hsame
  · unfold upsertProductionRecordAndSummary at hupsert
    obtain ⟨date, hdate, hbody⟩ := bind_eq_ok.mp hupsert
    obtain ⟨_, hbound, -⟩ := bind_eq_ok.mp hbody
    rw [recover_eq_some.mpr ⟨metadata, date, hmetadata, hdate, hbound, rfl⟩] at h
    cases h

theorem Recovered.refl (db : Database) : Recovered [] db db where
  tally := .refl db
  stored := by simp
  others := fun _ _ => rfl

theorem summaryApplied_of_contents
    (h : (after.productionRecord record.mqttMessageId).map ProductionRecord.contents =
      some record) (happlied : record.summaryApplied = true) :
    summaryApplied after record.mqttMessageId = true := by
  obtain ⟨stored, hstored, hcontents⟩ := Option.map_eq_some_iff.mp h
  rw [summaryApplied, hstored, Option.any_some]
  exact (congrArg ProductionRecord.summaryApplied hcontents).trans happlied

theorem sameProduction_of_contents {stored : ProductionRecord} (h : stored.contents = record) :
    SameProduction stored record := by
  subst h
  exact ⟨rfl, rfl, rfl⟩

theorem Written.recovered (h : Written record db after)
    (hmessages : after.mqttMessages = db.mqttMessages)
    (hfresh : summaryApplied db record.mqttMessageId = false)
    (happlied : record.summaryApplied = true) : Recovered [record] db after where
  tally :=
    { messages := hmessages
      counted := h.summary.countedInto
      once := by simp
      flagged := by
        intro id
        by_cases hid : id = record.mqttMessageId
        · simp [hid, hfresh, summaryApplied_of_contents h.stored happlied]
        · simp +contextual [hid, summaryApplied_congr (h.others id hid)]
      stored := by
        obtain ⟨stored, hstored, hcontents⟩ := Option.map_eq_some_iff.mp h.stored
        simpa using ⟨stored, hstored, sameProduction_of_contents hcontents⟩
      kept := by
        intro id hset
        refine h.others id fun hid => ?_
        rw [hid, hfresh] at hset
        cases hset }
  stored := by simpa using h.stored
  others := by simpa using h.others

theorem Recovered.append {first second : List ProductionRecord}
    (hfirst : Recovered first db mid) (hsecond : Recovered second mid after) :
    Recovered (first ++ second) db after where
  tally := hfirst.tally.append hsecond.tally
  stored := by
    intro record hrecord
    obtain hin | hin := List.mem_append.mp hrecord
    · have hset := ((hfirst.tally.flagged _).mp (List.mem_map_of_mem hin)).2
      rw [hsecond.tally.kept _ hset]
      exact hfirst.stored record hin
    · exact hsecond.stored record hin
  others := by
    intro id hid
    rw [List.map_append, List.mem_append, not_or] at hid
    rw [hsecond.others id hid.2, hfirst.others id hid.1]

/-! ## One call -/

theorem reconcileRows_recovered (platform : Platform) (machineId : Text) (now : Datetime)
    (state : ReconciliationResult × Database) (h : Unapplied rows state.2) :
    Recovered (rows.filterMap (recover platform machineId)) state.2
      (rows.foldl (reconcileRow platform machineId now) state).2 := by
  induction rows generalizing state with
  | nil => exact .refl state.2
  | cons row rows ih =>
      rw [List.foldl_cons]
      have hfresh := h.fresh row List.mem_cons_self
      cases hrow : recover platform machineId row with
      | none =>
          have hsame := reconcileRow_refused now state hrow
          have hrest : Unapplied rows (reconcileRow platform machineId now state row).2 :=
            h.tail_of_others fun id _ => by rw [hsame]
          have hrows := ih (reconcileRow platform machineId now state row) hrest
          rw [hsame] at hrows
          rw [List.filterMap_cons_none hrow]
          exact hrows
      | some record =>
          have hid := recover_messageId hrow
          have hwritten := reconcileRow_recovered now hrow hfresh
          have hrest : Unapplied rows (reconcileRow platform machineId now state row).2 :=
            h.tail_of_others fun id hne => hwritten.others id (hid ▸ hne)
          have hfirst := hwritten.recovered (reconcileRow_mqttMessages state row)
            (hid ▸ hfresh) (recover_applied hrow)
          rw [List.filterMap_cons_some hrow]
          exact hfirst.append (ih (reconcileRow platform machineId now state row) hrest)

theorem reconcileRows_refused (now : Datetime) (state : ReconciliationResult × Database)
    (h : ∀ row ∈ rows, recover platform machineId row = none) :
    (rows.foldl (reconcileRow platform machineId now) state).2 = state.2 :=
  reconcileRows_preserve (I := fun after => after = state.2)
    (fun state row hrow hsame => (reconcileRow_refused now state (h row hrow)).trans hsame)
    state rfl

end

/-- How many rows a call takes; a limit that SQLite cannot store raises. -/
def room (limit : Int) : Nat := if bindableInt limit then limit.toNat else 0

section

variable {platform : Platform} {machineId : Text} {limit : Int} {now : Datetime}
  {row other : MessageRecord} {taken left : List MessageRecord} {db after : Database}

theorem unapplied_candidates (db : Database) : Unapplied (candidates db) db where
  distinct := by
    have hascending := db.mqttMessages.ascending.filter (needsReconciliation db)
    exact List.pairwise_map.mpr (hascending.imp fun hlt => Nat.ne_of_lt hlt)
  fresh := by
    intro row hrow
    have hneeds := (List.mem_filter.mp hrow).2
    simp only [needsReconciliation, Bool.and_eq_true, Bool.not_eq_true'] at hneeds
    exact hneeds.2

theorem candidate_eq_of_id (hrow : row ∈ candidates db) (hother : other ∈ candidates db)
    (hid : row.id = other.id) : row = other :=
  Table.eq_of_rowId_eq (List.mem_filter.mp hrow).1 (List.mem_filter.mp hother).1 hid

theorem not_mem_left (hsplit : candidates db = taken ++ left) (htaken : row ∈ taken) :
    row ∉ left := by
  intro hleft
  have hdistinct := (unapplied_candidates db).distinct
  rw [hsplit, List.map_append] at hdistinct
  exact (List.nodup_append.mp hdistinct).2.2 _ (List.mem_map_of_mem htaken) _
    (List.mem_map_of_mem hleft) rfl

theorem after_reconcile (db : Database) :
    db.after platform (.reconcile machineId limit, now) =
      (((candidates db).take (room limit)).foldl (reconcileRow platform machineId now)
        (⟨0, 0, 0, 0⟩, db)).2 := by
  have hdefect : (Binding.int (some limit)).defect =
      if bindableInt limit then none else some .overflowError := rfl
  unfold Database.after Job.run reconcileCompletedProductionRecords room
  by_cases hlimit : limit ≤ 0
  · have hnone : limit.toNat = 0 := by omega
    simp [hlimit, hnone, Except.map]
  · by_cases hfits : bindableInt limit = true
    · have hbound : bindAll [.int (some limit)] = .ok () := by
        refine bindAll_eq_ok ?_
        simp [hfits, bindableOptInt]
      simp only [if_neg hlimit, hbound, if_pos hfits]
      rfl
    · have hraises : bindAll [.int (some limit)] = .error .overflowError := by
        rw [bindAll, List.findSome?_cons, hdefect, if_neg hfits]
      simp only [if_neg hlimit, hraises, if_neg hfits]
      rfl

/-- A candidate is counted if it was taken and can be counted. -/
theorem Recovered.applied_iff (hsplit : candidates db = taken ++ left)
    (h : Recovered (taken.filterMap (recover platform machineId)) db after)
    (hrow : row ∈ candidates db) :
    summaryApplied after row.id = true ↔
      row ∈ taken ∧ recoverable platform machineId row = true := by
  have hflagged := h.tally.flagged row.id
  rw [(unapplied_candidates db).fresh row hrow, List.mem_map] at hflagged
  simp only [true_and] at hflagged
  rw [← hflagged]
  constructor
  · rintro ⟨record, hrecord, hid⟩
    obtain ⟨other, hother, hrecovers⟩ := List.mem_filterMap.mp hrecord
    have hmem : other ∈ EdgeBridge.candidates db := hsplit ▸ List.mem_append_left left hother
    have hsame := candidate_eq_of_id hmem hrow ((recover_messageId hrecovers).symm.trans hid)
    subst hsame
    exact ⟨hother, by rw [recoverable, hrecovers, Option.isSome_some]⟩
  · rintro ⟨htaken, hrecoverable⟩
    obtain ⟨record, hrecovers⟩ := Option.isSome_iff_exists.mp hrecoverable
    exact ⟨record, List.mem_filterMap.mpr ⟨row, htaken, hrecovers⟩,
      recover_messageId hrecovers⟩

/-- The rows that stay candidates: those that were refused and those that were not taken. -/
theorem Recovered.candidates (hsplit : candidates db = taken ++ left)
    (h : Recovered (taken.filterMap (recover platform machineId)) db after) :
    candidates after = taken.filter (Backlog.refused (recover platform machineId)) ++ left := by
  have hneeds : ∀ row, needsReconciliation after row =
      (!summaryApplied after row.id && needsReconciliation db row) := by
    intro row
    unfold needsReconciliation
    cases hset : summaryApplied db row.id with
    | false => cases summaryApplied after row.id <;> simp
    | true =>
        have hkept := summaryApplied_congr (h.tally.kept row.id hset)
        rw [hset] at hkept
        simp [hkept]
  have hselect : EdgeBridge.candidates after =
      (EdgeBridge.candidates db).filter fun row => !summaryApplied after row.id := by
    unfold EdgeBridge.candidates Table.select
    rw [h.tally.messages, List.filter_filter]
    exact List.filter_congr fun row _ => hneeds row
  rw [hselect, hsplit, List.filter_append]
  congr 1
  · refine List.filter_congr fun row hrow => ?_
    have hmem : row ∈ EdgeBridge.candidates db := hsplit ▸ List.mem_append_left left hrow
    have hflag := h.applied_iff hsplit hmem
    simp only [hrow, true_and] at hflag
    rw [Bool.eq_iff_iff, Bool.not_eq_true', ← Bool.not_eq_true, hflag]
    simp [Backlog.refused, recoverable]
  · rw [List.filter_eq_self]
    intro row hrow
    have hmem : row ∈ EdgeBridge.candidates db := hsplit ▸ List.mem_append_right taken hrow
    rw [Bool.not_eq_true', ← Bool.not_eq_true, h.applied_iff hsplit hmem]
    rintro ⟨htaken, -⟩
    exact not_mem_left hsplit htaken hrow

end

/-! ## Repeated calls -/

/-- Calls of `reconcile_completed_production_records`, each with its limit and time. -/
def reconcileCalls (platform : Platform) (machineId : Text) (calls : List (Int × Datetime))
    (db : Database) : Database :=
  calls.foldl (fun db call => db.after platform (.reconcile machineId call.1, call.2)) db

/-- How many of the candidates the calls take. -/
def reached (platform : Platform) (machineId : Text) (limits : List Int) (db : Database) :
    Nat :=
  Backlog.reaches (recover platform machineId) (candidates db) (limits.map room)

section

variable {platform : Platform} {machineId : Text} {db : Database}
  {calls : List (Int × Datetime)} {row : MessageRecord}

theorem reconcileCalls_snoc (calls : List (Int × Datetime)) (call : Int × Datetime)
    (db : Database) :
    reconcileCalls platform machineId (calls ++ [call]) db =
      (reconcileCalls platform machineId calls db).after platform
        (.reconcile machineId call.1, call.2) := by
  rw [reconcileCalls, List.foldl_append]
  rfl

/-- The calls together do what one call does with all the rows that they reach. -/
theorem reconcileCalls_spec (platform : Platform) (machineId : Text)
    (calls : List (Int × Datetime)) (db : Database) :
    candidates (reconcileCalls platform machineId calls db) =
        Backlog.rest (recover platform machineId) (candidates db)
          (reached platform machineId (calls.map Prod.fst) db) ∧
      Recovered (((candidates db).take (reached platform machineId (calls.map Prod.fst)
        db)).filterMap (recover platform machineId)) db
        (reconcileCalls platform machineId calls db) := by
  induction calls using List.reverseRecOn with
  | nil => exact ⟨rfl, .refl db⟩
  | append_singleton calls call ih =>
      obtain ⟨hleft, hrecovered⟩ := ih
      have hreached : reached platform machineId ((calls ++ [call]).map Prod.fst) db =
          Backlog.reach (recover platform machineId) (candidates db)
            (reached platform machineId (calls.map Prod.fst) db) (room call.1) := by
        rw [reached, List.map_append, List.map_append]
        exact Backlog.reaches_snoc _ _ _
      rw [reconcileCalls_snoc, hreached, after_reconcile, ← Backlog.rest_rest, ← hleft]
      have hcall : Recovered _ (reconcileCalls platform machineId calls db) _ :=
        reconcileRows_recovered platform machineId call.2
          (⟨0, 0, 0, 0⟩, reconcileCalls platform machineId calls db)
          ((unapplied_candidates _).take (room call.1))
      refine ⟨hcall.candidates (List.take_append_drop (room call.1) _).symm, ?_⟩
      have hboth := hrecovered.append hcall
      rw [hleft, Backlog.served_reach] at hboth
      rw [hleft]
      exact hboth

theorem applied_iff_reached (hrow : row ∈ candidates db) :
    summaryApplied (reconcileCalls platform machineId calls db) row.id = true ↔
      row ∈ (candidates db).take (reached platform machineId (calls.map Prod.fst) db) ∧
        recoverable platform machineId row = true :=
  (reconcileCalls_spec platform machineId calls db).2.applied_iff
    (List.take_append_drop _ _).symm hrow

end

/-! ## Progress -/

/-- The calls that have room for every candidate. -/
def callsNeeded (pending limit : Nat) : Nat := (pending + limit - 1) / limit

/-- The same production records and summaries, apart from ids and times of writing. -/
structure SameOutcome (db other : Database) : Prop where
  records : ∀ id, (db.productionRecord id).map ProductionRecord.contents =
    (other.productionRecord id).map ProductionRecord.contents
  summary : ∀ key, summaryRow db key = summaryRow other key

/-- After the calls every recoverable candidate is counted once, later calls change
nothing, and calls with other limits that count them all leave the same. -/
structure MakesProgress (platform : Platform) (machineId : Text) (limit : Int)
    (nows : List Datetime) (db : Database) : Prop where
  counted : ∃ records,
    Tally records db
        (reconcileCalls platform machineId (nows.map fun now => (limit, now)) db) ∧
      records.map ProductionRecord.mqttMessageId =
        ((candidates db).filter (recoverable platform machineId)).map MessageRecord.id
  settled : ∀ later,
    reconcileCalls platform machineId later
        (reconcileCalls platform machineId (nows.map fun now => (limit, now)) db) =
      reconcileCalls platform machineId (nows.map fun now => (limit, now)) db
  independent : ∀ calls,
    (∀ row ∈ candidates db, recoverable platform machineId row = true →
      summaryApplied (reconcileCalls platform machineId calls db) row.id = true) →
    SameOutcome (reconcileCalls platform machineId (nows.map fun now => (limit, now)) db)
      (reconcileCalls platform machineId calls db)

/-- No recoverable candidate stands behind the rows that the calls take: each call begins
with the rows that were refused before. -/
def KeepsUp (platform : Platform) (machineId : Text) (limit : Int) (db : Database) : Prop :=
  ∀ row ∈ (candidates db).drop (reached platform machineId
      (List.replicate (callsNeeded (candidates db).length limit.toNat) limit) db),
    recoverable platform machineId row = false

section

variable {platform : Platform} {machineId : Text} {limit : Int} {nows : List Datetime}
  {calls : List (Int × Datetime)} {records : List ProductionRecord}
  {row : MessageRecord} {front back : List MessageRecord} {db after other : Database}

theorem recoverable_eq_false :
    recoverable platform machineId row = false ↔ recover platform machineId row = none := by
  rw [recoverable, Option.isSome_eq_false_iff, Option.isNone_iff_eq_none]

theorem Recovered.sameOutcome (h : Recovered records db after)
    (hother : Recovered records db other) : SameOutcome after other where
  records := by
    intro id
    by_cases hid : id ∈ records.map ProductionRecord.mqttMessageId
    · obtain ⟨record, hrecord, rfl⟩ := List.mem_map.mp hid
      rw [h.stored record hrecord, hother.stored record hrecord]
    · rw [h.others id hid, hother.others id hid]
  summary := by
    intro key
    rw [h.tally.counted key, hother.tally.counted key]

theorem recovered_messageIds (rows : List MessageRecord) :
    (rows.filterMap (recover platform machineId)).map ProductionRecord.mqttMessageId =
      (rows.filter (recoverable platform machineId)).map MessageRecord.id := by
  induction rows with
  | nil => rfl
  | cons row rows ih =>
      cases hrow : recover platform machineId row with
      | none =>
          have hrefused := recoverable_eq_false.mpr hrow
          rw [List.filterMap_cons_none hrow, List.filter_cons_of_neg (by simp [hrefused]), ih]
      | some record =>
          have htaken : recoverable platform machineId row = true := by
            rw [recoverable, hrow, Option.isSome_some]
          rw [List.filterMap_cons_some hrow, List.filter_cons_of_pos htaken, List.map_cons,
            List.map_cons, ih, recover_messageId hrow]

/-- Nothing that can be counted is left behind the rows that the calls take. -/
theorem recovered_all {tried : Nat} (h : ∀ row ∈ (candidates db).drop tried,
      recoverable platform machineId row = false) :
    ((candidates db).take tried).filterMap (recover platform machineId) =
      (candidates db).filterMap (recover platform machineId) := by
  have hnone : ((candidates db).drop tried).filterMap (recover platform machineId) = [] := by
    rw [List.filterMap_eq_nil_iff]
    intro row hrow
    exact recoverable_eq_false.mp (h row hrow)
  conv_rhs => rw [← List.take_append_drop tried (candidates db), List.filterMap_append, hnone,
    List.append_nil]

/-- Calls that count every recoverable candidate do what the one large call does. -/
theorem recovered_of_applied (h : ∀ row ∈ candidates db,
      recoverable platform machineId row = true →
      summaryApplied (reconcileCalls platform machineId calls db) row.id = true) :
    Recovered ((candidates db).filterMap (recover platform machineId)) db
      (reconcileCalls platform machineId calls db) := by
  have hspec := (reconcileCalls_spec platform machineId calls db).2
  rw [recovered_all] at hspec
  · exact hspec
  · intro row hrow
    rw [← Bool.not_eq_true]
    intro hrecoverable
    have hmem := List.mem_of_mem_drop hrow
    have htaken := ((applied_iff_reached hmem).mp (h row hmem hrecoverable)).1
    exact not_mem_left (List.take_append_drop _ _).symm htaken hrow

theorem reached_calls (limit : Int) (nows : List Datetime) (db : Database) :
    reached platform machineId ((nows.map fun now => (limit, now)).map Prod.fst) db =
      reached platform machineId (List.replicate nows.length limit) db := by
  rw [List.map_map]
  congr 1
  exact List.map_const'

/-- Without a recoverable candidate every call leaves the database as it is. -/
theorem reconcileCalls_settled (calls : List (Int × Datetime))
    (h : ∀ row ∈ candidates db, recoverable platform machineId row = false) :
    reconcileCalls platform machineId calls db = db := by
  induction calls with
  | nil => rfl
  | cons call calls ih =>
      have hcall : db.after platform (.reconcile machineId call.1, call.2) = db := by
        rw [after_reconcile]
        exact reconcileRows_refused call.2 (⟨0, 0, 0, 0⟩, db) fun row hrow =>
          recoverable_eq_false.mp (h row (List.mem_of_mem_take hrow))
      rw [reconcileCalls, List.foldl_cons, hcall]
      exact ih

theorem MakesProgress.applied (h : MakesProgress platform machineId limit nows db)
    (hrow : row ∈ candidates db) (hrecoverable : recoverable platform machineId row = true) :
    summaryApplied (reconcileCalls platform machineId (nows.map fun now => (limit, now)) db)
      row.id = true := by
  obtain ⟨records, htally, hids⟩ := h.counted
  have hid : row.id ∈ records.map ProductionRecord.mqttMessageId := by
    rw [hids]
    exact List.mem_map_of_mem (List.mem_filter.mpr ⟨hrow, hrecoverable⟩)
  exact ((htally.flagged row.id).mp hid).2

theorem MakesProgress.keepsUp
    (hcalls : nows.length = callsNeeded (candidates db).length limit.toNat)
    (h : MakesProgress platform machineId limit nows db) :
    KeepsUp platform machineId limit db := by
  intro row hrow
  rw [← hcalls] at hrow
  have hmem := List.mem_of_mem_drop hrow
  rw [← Bool.not_eq_true]
  intro hrecoverable
  have htaken := ((applied_iff_reached hmem).mp (h.applied hmem hrecoverable)).1
  rw [reached_calls] at htaken
  exact not_mem_left (List.take_append_drop _ _).symm htaken hrow

theorem KeepsUp.makesProgress
    (hcalls : nows.length = callsNeeded (candidates db).length limit.toNat)
    (h : KeepsUp platform machineId limit db) :
    MakesProgress platform machineId limit nows db := by
  unfold KeepsUp at h
  rw [← hcalls, ← reached_calls] at h
  obtain ⟨hleft, hspec⟩ := reconcileCalls_spec platform machineId
    (nows.map fun now => (limit, now)) db
  rw [recovered_all h] at hspec
  refine ⟨⟨_, hspec.tally, recovered_messageIds _⟩, ?_, ?_⟩
  · intro later
    refine reconcileCalls_settled later fun row hrow => ?_
    rw [hleft, Backlog.rest] at hrow
    obtain hrefused | hbehind := List.mem_append.mp hrow
    · exact recoverable_eq_false.mpr
        (Option.isNone_iff_eq_none.mp (List.mem_filter.mp hrefused).2)
    · exact h row hbehind
  · intro calls happlied
    exact hspec.sameOutcome (recovered_of_applied happlied)

theorem le_callsNeeded_mul (pending : Nat) {limit : Nat} (h : 0 < limit) :
    pending ≤ callsNeeded pending limit * limit := by
  have hdiv := Nat.lt_mul_div_succ (pending + limit - 1) h
  rw [Nat.mul_add, Nat.mul_one, Nat.mul_comm] at hdiv
  unfold callsNeeded
  omega

/-- A limit that SQLite can store suffices where no refused row stands before a
recoverable one. -/
theorem keepsUp_of_front (hlimit : 0 < room limit) (hsplit : candidates db = front ++ back)
    (hfront : ∀ row ∈ front, recoverable platform machineId row = true)
    (hback : ∀ row ∈ back, recoverable platform machineId row = false) :
    KeepsUp platform machineId limit db := by
  have hroom : room limit = limit.toNat := by
    unfold room at hlimit ⊢
    split
    · rfl
    · next hfits => simp [hfits] at hlimit
  have hnone : Backlog.refusals (recover platform machineId) front = 0 := by
    refine List.countP_eq_zero.mpr fun row hrow => ?_
    have hsome := hfront row hrow
    rw [recoverable, ← Option.not_isNone, Bool.not_eq_true'] at hsome
    simp [Backlog.refused, hsome]
  have hcalls := le_callsNeeded_mul (candidates db).length (hroom ▸ hlimit)
  have hlength : front.length ≤ (candidates db).length := by simp [hsplit]
  have hreached : front.length ≤ reached platform machineId
      (List.replicate (callsNeeded (candidates db).length limit.toNat) limit) db := by
    have hpace := Backlog.le_reaches (recover platform machineId) front back
      (callsNeeded (candidates db).length limit.toNat) limit.toNat
    rw [hnone, Nat.sub_zero, ← hsplit] at hpace
    rw [reached, List.map_replicate, hroom]
    omega
  intro row hrow
  rw [hsplit] at hrow
  refine hback row ?_
  have hsublist := List.drop_sublist_drop_left (front ++ back) (hsplit ▸ hreached)
  rw [List.drop_left] at hsublist
  exact hsublist.subset hrow

/--
Reconciliations with a limit count all that can be counted, in as many calls as the
candidates fill, if and only if the refused rows, taken again by every call, leave room
for the recoverable rows behind them.  They do so if no refused row stands before a
recoverable one.
-/
theorem bad_rows_passed_iff
    (hcalls : nows.length = callsNeeded (candidates db).length limit.toNat) :
    (MakesProgress platform machineId limit nows db ↔ KeepsUp platform machineId limit db) ∧
    ∀ front back, 0 < room limit → candidates db = front ++ back →
      (∀ row ∈ front, recoverable platform machineId row = true) →
      (∀ row ∈ back, recoverable platform machineId row = false) →
      MakesProgress platform machineId limit nows db := by
  refine ⟨⟨MakesProgress.keepsUp hcalls, KeepsUp.makesProgress hcalls⟩, ?_⟩
  intro front back hlimit hsplit hfront hback
  exact KeepsUp.makesProgress hcalls (keepsUp_of_front hlimit hsplit hfront hback)

/-! ## Rows that are never reached -/

/-- A row is counted sooner or later if a call has room behind the refused rows. -/
theorem counted_eventually_iff (hsplit : candidates db = front ++ row :: back)
    (hrow : recoverable platform machineId row = true) :
    (∃ nows : List Datetime, summaryApplied (reconcileCalls platform machineId
        (nows.map fun now => (limit, now)) db) row.id = true) ↔
      Backlog.refusals (recover platform machineId) front < room limit := by
  have hmem : row ∈ candidates db := by simp [hsplit]
  constructor
  · rintro ⟨nows, happlied⟩
    by_contra hfull
    have htaken := ((applied_iff_reached hmem).mp happlied).1
    rw [reached_calls] at htaken
    have hbound : reached platform machineId (List.replicate nows.length limit) db ≤
        front.length := by
      rw [reached, hsplit]
      refine Backlog.reaches_le fun other hother => ?_
      rw [List.map_replicate] at hother
      rw [List.eq_of_mem_replicate hother]
      omega
    rw [hsplit, List.take_append_of_le_length hbound] at htaken
    exact not_mem_left hsplit (List.mem_of_mem_take htaken) List.mem_cons_self
  · intro hroom
    let nows := List.replicate (front.length + 1) noon
    have hpace : front.length + 1 ≤
        (front.length + 1) * (room limit - Backlog.refusals (recover platform machineId) front) :=
      Nat.le_mul_of_pos_right _ (by omega)
    have hbound : front.length + 1 ≤
        reached platform machineId (List.replicate nows.length limit) db := by
      rw [reached, hsplit, List.map_replicate, List.length_replicate]
      exact Nat.le_trans (by omega) (Backlog.le_reaches _ front (row :: back) _ (room limit))
    refine ⟨nows, (applied_iff_reached hmem).mpr ⟨?_, hrow⟩⟩
    rw [reached_calls]
    refine (List.take_sublist_take_left hbound).subset ?_
    rw [hsplit, List.take_append]
    simp

end

/-! ## A refused row in front -/

/-- The customer id does not fit into an integer of SQLite. -/
def hugeResponse : Text :=
  str "\x7b\"success\": true, \"result\": \x7b\"ACK\": \"A1\", " ++
    str "\"customer_id\": 9223372036854775808\x7d\x7d"

/-- Three messages that were completed without a production record. -/
def threeCompleted : Database :=
  let messages := [compactPayload, nextPayload, spacedPayload].map fun payload =>
    (Job.save { sampleMessage with rawPayload := payload }, noon)
  let completed := [sampleResponse, hugeResponse, sampleResponse].zipIdx 1
  completed.foldl
    (fun db completed => writeCompletion completed.2
      { sampleCompletion with odooResponse := completed.1 } .none db)
    (messages.foldl (Database.after samplePlatform) .empty)

theorem recoverable_threeCompleted :
    (candidates threeCompleted).map (recoverable samplePlatform defaultMachineId) =
      [true, false, true] := by decide +kernel

/-- With a limit of one the second row is taken by every call, and the third by none. -/
theorem refused_row_blocks :
    ∃ row ∈ candidates threeCompleted,
      recoverable samplePlatform defaultMachineId row = true ∧
      (∀ nows : List Datetime, summaryApplied (reconcileCalls samplePlatform defaultMachineId
        (nows.map fun now => (1, now)) threeCompleted) row.id = false) ∧
      ∀ nows : List Datetime, ¬ MakesProgress samplePlatform defaultMachineId 1 nows
        threeCompleted := by
  have hrows := recoverable_threeCompleted
  obtain ⟨first, second, third, hcandidates⟩ : ∃ first second third,
      candidates threeCompleted = [first, second, third] :=
    List.length_eq_three.mp (by simpa using congrArg List.length hrows)
  rw [hcandidates] at hrows
  simp only [List.map_cons, List.map_nil, List.cons.injEq, and_true] at hrows
  obtain ⟨-, hsecond, hthird⟩ := hrows
  have hsplit : candidates threeCompleted = [first, second] ++ third :: [] := hcandidates
  have hfull : ¬ Backlog.refusals (recover samplePlatform defaultMachineId) [first, second] <
      room 1 := by
    have hrefused : Backlog.refused (recover samplePlatform defaultMachineId) second = true := by
      rw [Backlog.refused, recoverable_eq_false.mp hsecond, Option.isNone_none]
    have hone : room 1 = 1 := by decide
    simp [Backlog.refusals, List.countP_cons, hrefused, hone]
  have hnever : ∀ nows : List Datetime, summaryApplied (reconcileCalls samplePlatform
      defaultMachineId (nows.map fun now => (1, now)) threeCompleted) third.id = false := by
    intro nows
    rw [← Bool.not_eq_true]
    intro happlied
    exact hfull ((counted_eventually_iff hsplit hthird).mp ⟨nows, happlied⟩)
  have hmem : third ∈ candidates threeCompleted := by simp [hcandidates]
  refine ⟨third, hmem, hthird, hnever, fun nows hprogress => ?_⟩
  have happlied := hprogress.applied hmem hthird
  rw [hnever nows] at happlied
  cases happlied

/-- With a limit of two the second call takes the refused row and the one behind it. -/
theorem bad_rows_passed_iff_sample :
    callsNeeded (candidates threeCompleted).length 2 = 2 ∧
      MakesProgress samplePlatform defaultMachineId 2 [noon, afterNoon] threeCompleted := by
  have hcalls : callsNeeded (candidates threeCompleted).length 2 = 2 := by decide +kernel
  have hlength : [noon, afterNoon].length =
      callsNeeded (candidates threeCompleted).length (2 : Int).toNat := hcalls.symm
  refine ⟨hcalls, (bad_rows_passed_iff hlength).1.mpr ?_⟩
  unfold KeepsUp
  decide +kernel

end EdgeBridge
