import EdgeBridge.Store.Statements

/-!
# A reconciliation whose statements may fail

`reconcile_completed_production_records` handles its rows in one transaction.  An
exception in a row is caught there, the statements before it stay, and the transaction is
committed.
-/

namespace EdgeBridge

open Foundation

/-! ## A batch -/

def reconcileRowFaulty (platform : Platform) (machineId : Text) (now : Datetime)
    (faults : Nat → UpsertFaults) (state : ReconciliationResult × Database)
    (row : MessageRecord) : ReconciliationResult × Database :=
  let result := { state.1 with scannedRows := state.1.scannedRows + 1 }
  match reconcileStatements platform (faults row.id) machineId now row state.2 with
  | (.error _, db) => ({ result with skippedRows := result.skippedRows + 1 }, db)
  | (.ok applied, db) =>
      ({ result with
        recoveredSummaries := result.recoveredSummaries + if applied then 1 else 0
        recoveredRecords := result.recoveredRecords +
          if summaryApplied state.2 row.id then 0 else 1 }, db)

/-- The reconciliation; `faults` names the calls that fail in the row of a message. -/
def reconcileFaulty (platform : Platform) (machineId : Text) (limit : Int) (now : Datetime)
    (faults : Nat → UpsertFaults) (db : Database) :
    Except PyError (ReconciliationResult × Database) :=
  if limit ≤ 0 then .ok (⟨0, 0, 0, 0⟩, db)
  else do
    bindAll [.int limit]
    .ok ((reconciliationRows limit db).foldl (reconcileRowFaulty platform machineId now faults)
      (⟨0, 0, 0, 0⟩, db))

/-- The rows of a batch, one after the other. -/
def handled (platform : Platform) (machineId : Text) (now : Datetime)
    (faults : Nat → UpsertFaults) (rows : List MessageRecord) (db : Database) : Database :=
  rows.foldl
    (fun db row => (reconcileStatements platform (faults row.id) machineId now row db).2) db

/-- Only the last statement of the row fails. -/
structure MarkFails (platform : Platform) (machineId : Text) (now : Datetime)
    (faults : UpsertFaults) (row : MessageRecord) : Prop where
  countable : ∃ record, countableRow platform machineId now row = .ok record
  late : faults.Late
  fails : faults .markApplied ≠ none

/-- The rows are distinct and not counted yet. -/
structure Unapplied (rows : List MessageRecord) (db : Database) : Prop where
  distinct : (rows.map MessageRecord.id).Nodup
  fresh : ∀ row ∈ rows, summaryApplied db row.id = false

section

variable {platform : Platform} {machineId : Text} {now : Datetime}
  {faults : Nat → UpsertFaults} {row : MessageRecord} {rows front back : List MessageRecord}
  {db other after : Database}

/-- Without a fault a row is handled as the queue's own reconciliation handles it. -/
theorem reconcileRowFaulty_none (machineId : Text)
    (state : ReconciliationResult × Database) (row : MessageRecord) :
    reconcileRowFaulty platform machineId now (fun _ => .none) state row =
      reconcileRow platform machineId now state row := by
  unfold reconcileRowFaulty reconcileRow
  rw [reconcileStatements_none, Foundation.Effect.atomic]
  cases reconcileRecord platform machineId now row state.2 with
  | error error => rfl
  | ok result => rfl

theorem reconcileFaulty_none (machineId : Text) (limit : Int) (db : Database) :
    reconcileFaulty platform machineId limit now (fun _ => .none) db =
      reconcileCompletedProductionRecords platform machineId limit now db := by
  have hrows : reconcileRowFaulty platform machineId now (fun _ => .none) =
      reconcileRow platform machineId now := by
    funext state row
    exact reconcileRowFaulty_none machineId state row
  rw [reconcileFaulty, reconcileCompletedProductionRecords, hrows]

theorem reconcileRowFaulty_db (state : ReconciliationResult × Database)
    (row : MessageRecord) :
    (reconcileRowFaulty platform machineId now faults state row).2 =
      (reconcileStatements platform (faults row.id) machineId now row state.2).2 := by
  unfold reconcileRowFaulty
  generalize reconcileStatements platform (faults row.id) machineId now row state.2 = result
  obtain ⟨answer, after⟩ := result
  cases answer with
  | ok applied => rfl
  | error error => rfl

theorem foldl_reconcileRowFaulty (platform : Platform) (machineId : Text) (now : Datetime)
    (faults : Nat → UpsertFaults) (rows : List MessageRecord)
    (state : ReconciliationResult × Database) :
    (rows.foldl (reconcileRowFaulty platform machineId now faults) state).2 =
      handled platform machineId now faults rows state.2 := by
  induction rows generalizing state with
  | nil => rfl
  | cons row rows ih =>
      rw [List.foldl_cons, ih, reconcileRowFaulty_db]
      rfl

theorem reconcileFaulty_eq_ok {limit : Int} {result : ReconciliationResult}
    (h : reconcileFaulty platform machineId limit now faults db = .ok (result, after)) :
    after = handled platform machineId now faults (reconciliationRows limit db) db := by
  unfold reconcileFaulty at h
  split at h
  · next hlimit =>
    cases h
    simp [reconciliationRows, Int.toNat_of_nonpos hlimit, handled]
  · obtain ⟨_, -, hbody⟩ := bind_eq_ok.mp h
    rw [Except.ok.injEq] at hbody
    have hdb := foldl_reconcileRowFaulty platform machineId now faults
      (reconciliationRows limit db) (⟨0, 0, 0, 0⟩, db)
    rw [hbody] at hdb
    exact hdb

theorem handled_append (front back : List MessageRecord) (db : Database) :
    handled platform machineId now faults (front ++ back) db =
      handled platform machineId now faults back
        (handled platform machineId now faults front db) := by
  simp [handled, List.foldl_append]

theorem unapplied_reconciliationRows (limit : Int) (db : Database) :
    Unapplied (reconciliationRows limit db) db where
  distinct := reconciliationRows_distinct limit db
  fresh := by
    intro row hrow
    obtain ⟨-, hneeds⟩ := List.mem_filter.mp (List.mem_of_mem_take hrow)
    simp only [needsReconciliation, Bool.and_eq_true, Bool.not_eq_true'] at hneeds
    exact hneeds.2

theorem RowOutcome.others
    (h : RowOutcome platform machineId now (faults row.id) row db after) {id : Nat}
    (hid : id ≠ row.id) : after.productionRecord id = db.productionRecord id := by
  cases h with
  | uncounted h => exact h.others id hid
  | counted record hcountable hlate hincremented hflag =>
      exact hincremented.others id (countableRow_id hcountable ▸ hid)

theorem Unapplied.head (h : Unapplied (row :: rows) db) :
    RowOutcome platform machineId now (faults row.id) row db
      (reconcileStatements platform (faults row.id) machineId now row db).2 :=
  reconcileStatements_outcome (h.fresh row List.mem_cons_self)

theorem Unapplied.tail_of_others (h : Unapplied (row :: rows) db)
    (hothers : ∀ id, id ≠ row.id → after.productionRecord id = db.productionRecord id) :
    Unapplied rows after := by
  obtain ⟨hnew, hdistinct⟩ := List.nodup_cons.mp h.distinct
  refine ⟨hdistinct, fun other hother => ?_⟩
  have hne : other.id ≠ row.id := by
    intro heq
    exact hnew (heq ▸ List.mem_map_of_mem hother)
  rw [summaryApplied_congr (hothers other.id hne)]
  exact h.fresh other (List.mem_cons_of_mem row hother)

theorem Unapplied.tail (h : Unapplied (row :: rows) db)
    (houtcome : RowOutcome platform machineId now (faults row.id) row db after) :
    Unapplied rows after :=
  h.tail_of_others fun _ hid => houtcome.others hid

theorem handled_others (h : Unapplied rows db) {id : Nat}
    (hid : id ∉ rows.map MessageRecord.id) :
    (handled platform machineId now faults rows db).productionRecord id =
      db.productionRecord id := by
  induction rows generalizing db with
  | nil => rfl
  | cons row rows ih =>
      rw [List.map_cons, List.mem_cons, not_or] at hid
      exact (ih (h.tail h.head) hid.2).trans (h.head.others hid.1)

theorem markApplied_eq_none {faults : UpsertFaults} {record : ProductionRecord}
    (hmark : ¬ MarkFails platform machineId now faults row) (hlate : faults.Late)
    (hcountable : countableRow platform machineId now row = .ok record) :
    faults .markApplied = none := by
  by_contra hfails
  exact hmark ⟨⟨record, hcountable⟩, hlate, hfails⟩

/-- A row whose last statement does not fail alone is counted and flagged, or neither. -/
theorem RowOutcome.tally
    (h : RowOutcome platform machineId now (faults row.id) row db after)
    (hfresh : summaryApplied db row.id = false)
    (hmark : ¬ MarkFails platform machineId now (faults row.id) row) :
    ∃ records, Tally records db after ∧ ∀ record ∈ records, record.mqttMessageId = row.id := by
  cases h with
  | uncounted h => exact ⟨[], h.tally hfresh, by simp⟩
  | counted record hcountable hlate hincremented hflag =>
      have hid := countableRow_id hcountable
      have happlied := hflag.mpr (markApplied_eq_none hmark hlate hcountable)
      rw [← hid] at hfresh happlied
      exact ⟨[record], hincremented.tally hfresh happlied, by simp [hid]⟩

theorem handled_tally (h : Unapplied rows db)
    (hmarks : ∀ row ∈ rows, ¬ MarkFails platform machineId now (faults row.id) row) :
    ∃ records, Tally records db (handled platform machineId now faults rows db) := by
  induction rows generalizing db with
  | nil => exact ⟨[], .refl db⟩
  | cons row rows ih =>
      obtain ⟨first, hfirst, -⟩ :=
        h.head.tally (h.fresh row List.mem_cons_self) (hmarks row List.mem_cons_self)
      obtain ⟨rest, hrest⟩ := ih (h.tail h.head) fun other hother =>
        hmarks other (List.mem_cons_of_mem row hother)
      exact ⟨first ++ rest, hfirst.append hrest⟩

theorem Unapplied.append (h : Unapplied (front ++ back) db) :
    Unapplied back (handled platform machineId now faults front db) := by
  induction front generalizing db with
  | nil => exact h
  | cons row front ih => exact ih (h.tail h.head)

/-- What the rows count depends on the summary and on which of them are counted. -/
theorem handled_dailySummary (h : Unapplied rows db) (hother : Unapplied rows other)
    (hsummary : other.dailySummary = db.dailySummary) :
    (handled platform machineId now faults rows other).dailySummary =
      (handled platform machineId now faults rows db).dailySummary := by
  induction rows generalizing db other with
  | nil => exact hsummary
  | cons row rows ih =>
      refine ih (h.tail h.head) (hother.tail hother.head) ?_
      have hfirst : RowOutcome platform machineId now (faults row.id) row db _ := h.head
      have hsecond : RowOutcome platform machineId now (faults row.id) row other _ := hother.head
      cases hfirst with
      | uncounted hdb hstops =>
          cases hsecond with
          | uncounted hother => rw [hother.summary, hdb.summary, hsummary]
          | counted record hcountable hlate => exact absurd hlate (hstops record hcountable)
      | counted record hcountable hlate hincremented =>
          cases hsecond with
          | uncounted _ hstops => exact absurd hlate (hstops record hcountable)
          | counted record' hcountable' _ hincremented' =>
              rw [hcountable, Except.ok.injEq] at hcountable'
              subst hcountable'
              have htable := hincremented'.table
              rw [incrementDailySummary_table record (formatTimestamp now) hsummary,
                hincremented.table, Except.ok.injEq] at htable
              exact htable.symm

theorem Unapplied.without (h : Unapplied (front ++ row :: back) db) :
    Unapplied (front ++ back) db where
  distinct := by
    have hsublist : (front ++ back).Sublist (front ++ row :: back) :=
      (List.sublist_cons_self row back).append_left front
    exact h.distinct.sublist (hsublist.map MessageRecord.id)
  fresh := by
    intro other hother
    refine h.fresh other ?_
    obtain hfront | hback := List.mem_append.mp hother
    · exact List.mem_append_left _ hfront
    · exact List.mem_append_right _ (List.mem_cons_of_mem row hback)

theorem Unapplied.take (h : Unapplied rows db) (limit : Nat) : Unapplied (rows.take limit) db where
  distinct := h.distinct.sublist ((List.take_sublist limit rows).map MessageRecord.id)
  fresh := fun row hrow => h.fresh row (List.mem_of_mem_take hrow)

/-- The batch at the turn of one of its rows. -/
structure Turn (platform : Platform) (machineId : Text) (now : Datetime)
    (faults : Nat → UpsertFaults) (front : List MessageRecord) (row : MessageRecord)
    (back : List MessageRecord) (db before after final : Database) : Prop where
  before_eq : handled platform machineId now faults front db = before
  after_eq : handled platform machineId now faults (front ++ [row]) db = after
  outcome : RowOutcome platform machineId now (faults row.id) row before after
  fresh : summaryApplied before row.id = false
  rest : handled platform machineId now faults back after = final
  unapplied : Unapplied back after
  record : final.productionRecord row.id = after.productionRecord row.id

theorem Unapplied.turn (h : Unapplied (front ++ row :: back) db) :
    Turn platform machineId now faults front row back db
      (handled platform machineId now faults front db)
      (handled platform machineId now faults (front ++ [row]) db)
      (handled platform machineId now faults (front ++ row :: back) db) := by
  have hsuffix : Unapplied (row :: back) (handled platform machineId now faults front db) :=
    h.append
  have hafter : handled platform machineId now faults (front ++ [row]) db =
      (reconcileStatements platform (faults row.id) machineId now row
        (handled platform machineId now faults front db)).2 := by
    rw [handled_append]
    rfl
  have hfinal : handled platform machineId now faults back
      (handled platform machineId now faults (front ++ [row]) db) =
        handled platform machineId now faults (front ++ row :: back) db := by
    rw [← handled_append, List.append_assoc]
    rfl
  have htail : Unapplied back (handled platform machineId now faults (front ++ [row]) db) := by
    rw [hafter]
    exact hsuffix.tail hsuffix.head
  refine ⟨rfl, rfl, ?_, hsuffix.fresh row List.mem_cons_self, hfinal, htail, ?_⟩
  · rw [hafter]
    exact hsuffix.head
  · rw [← hfinal]
    exact handled_others htail (List.nodup_cons.mp hsuffix.distinct).1

/-! ## Later reconciliations -/

/-- Reconciliations one after the other, each with its machine, limit and time. -/
def reconciliations (platform : Platform) :
    List (Text × Int × Datetime) → Database → Except PyError Database
  | [], db => .ok db
  | (machineId, limit, now) :: runs, db => do
      let (_, after) ← reconcileCompletedProductionRecords platform machineId limit now db
      reconciliations platform runs after

theorem not_markFails_none : ¬ MarkFails platform machineId now .none row :=
  fun h => h.fails rfl

theorem reconcile_handled {limit : Int} {result : ReconciliationResult}
    (h : reconcileCompletedProductionRecords platform machineId limit now db =
      .ok (result, after)) :
    after = handled platform machineId now (fun _ => .none) (reconciliationRows limit db) db := by
  rw [← reconcileFaulty_none] at h
  exact reconcileFaulty_eq_ok h

theorem reconcile_tally {limit : Int} {result : ReconciliationResult}
    (h : reconcileCompletedProductionRecords platform machineId limit now db =
      .ok (result, after)) : ∃ records, Tally records db after := by
  rw [reconcile_handled h]
  exact handled_tally (unapplied_reconciliationRows limit db) fun _ _ => not_markFails_none

theorem reconciliations_tally {runs : List (Text × Int × Datetime)}
    (h : reconciliations platform runs db = .ok after) : ∃ records, Tally records db after := by
  induction runs generalizing db with
  | nil =>
      cases h
      exact ⟨[], .refl _⟩
  | cons run runs ih =>
      obtain ⟨⟨result, mid⟩, hrun, hrest⟩ := bind_eq_ok.mp h
      obtain ⟨first, hfirst⟩ := reconcile_tally hrun
      obtain ⟨rest, hrest⟩ := ih hrest
      exact ⟨first ++ rest, hfirst.append hrest⟩

/-- A later reconciliation counts every row that it selects and that can be counted. -/
theorem reconcile_applies {limit : Int} {result : ReconciliationResult}
    {record : ProductionRecord}
    (h : reconcileCompletedProductionRecords platform machineId limit now db =
      .ok (result, after)) (hrow : row ∈ reconciliationRows limit db)
    (hcountable : countableRow platform machineId now row = .ok record) :
    summaryApplied after row.id = true := by
  obtain ⟨front, back, hsplit⟩ := List.append_of_mem hrow
  have hunapplied := unapplied_reconciliationRows limit db
  rw [hsplit] at hunapplied
  have hturn : Turn platform machineId now (fun _ => .none) front row back db _ _ _ :=
    hunapplied.turn
  rw [reconcile_handled h, hsplit, summaryApplied_congr hturn.record]
  cases hturn.outcome with
  | uncounted _ hstops => exact absurd (fun _ _ => rfl) (hstops record hcountable)
  | counted _ _ _ _ hflag => exact hflag.mpr rfl

end

/-! ## Atomic rows -/

/-- The record is there, its flag is set, and it is counted once. -/
def FullyApplied (row : MessageRecord) (before after final : Database) : Prop :=
  ∃ record, record.mqttMessageId = row.id ∧ SummaryChange record before after ∧
    ∃ stored, final.productionRecord row.id = some stored ∧
      SameProduction stored record ∧ stored.summaryApplied = true

/-- The row leaves the summary, and the other rows count as without it. -/
structure LeftOut (row : MessageRecord) (before after without final : Database) : Prop where
  summary : after.dailySummary = before.dailySummary
  flag : summaryApplied final row.id = false
  others : final.dailySummary = without.dailySummary

/-- How often the message of a row is counted. -/
def timesCounted (records : List ProductionRecord) (row : MessageRecord) : Nat :=
  (records.map ProductionRecord.mqttMessageId).count row.id

/-- Every row is counted once, or it is not counted and selected again. -/
structure CountedOnce (rows : List MessageRecord) (records : List ProductionRecord)
    (db after : Database) : Prop where
  tally : Tally records db after
  rows : ∀ row ∈ rows,
    summaryApplied after row.id = true ∧ timesCounted records row = 1 ∨
      needsReconciliation after row = true ∧ timesCounted records row = 0

/-- Rows are atomic, and together with any later reconciliations they are counted once. -/
structure Reconciled (platform : Platform) (machineId : Text) (limit : Int) (now : Datetime)
    (faults : Nat → UpsertFaults) (db final : Database) : Prop where
  rows : ∀ front row back, reconciliationRows limit db = front ++ row :: back →
    FullyApplied row (handled platform machineId now faults front db)
        (handled platform machineId now faults (front ++ [row]) db) final ∨
      LeftOut row (handled platform machineId now faults front db)
        (handled platform machineId now faults (front ++ [row]) db)
        (handled platform machineId now faults (front ++ back) db) final
  later : ∀ runs mid, reconciliations platform runs final = .ok mid →
    (∃ records, CountedOnce (reconciliationRows limit db) records db mid) ∧
      ∀ machineId limit now result after row record,
        reconcileCompletedProductionRecords platform machineId limit now mid =
          .ok (result, after) → row ∈ reconciliationRows limit mid →
        countableRow platform machineId now row = .ok record →
        summaryApplied after row.id = true

section

variable {platform : Platform} {machineId : Text} {limit : Int} {now : Datetime}
  {faults : Nat → UpsertFaults} {row : MessageRecord} {rows front back : List MessageRecord}
  {records : List ProductionRecord} {db final before after : Database}
  {result : ReconciliationResult}

theorem Tally.countedOnce (h : Tally records db after) :
    CountedOnce (reconciliationRows limit db) records db after where
  tally := h
  rows := by
    intro row hrow
    obtain ⟨-, hneeds⟩ := List.mem_filter.mp (List.mem_of_mem_take hrow)
    have hfresh := (unapplied_reconciliationRows limit db).fresh row hrow
    cases hflag : summaryApplied after row.id with
    | true =>
        have hmem := (h.flagged row.id).mpr ⟨hfresh, hflag⟩
        exact .inl ⟨rfl, List.count_eq_one_of_mem h.once hmem⟩
    | false =>
        refine .inr ⟨?_, List.count_eq_zero_of_not_mem fun hmem => ?_⟩
        · rw [needsReconciliation, hfresh] at hneeds
          rw [needsReconciliation, hflag]
          exact hneeds
        · rw [((h.flagged row.id).mp hmem).2] at hflag
          cases hflag

theorem Turn.atomic
    (h : Turn platform machineId now faults front row back db before after final)
    (hwithout : Unapplied (front ++ back) db)
    (hmark : ¬ MarkFails platform machineId now (faults row.id) row) :
    FullyApplied row before after final ∨
      LeftOut row before after (handled platform machineId now faults (front ++ back) db)
        final := by
  cases h.outcome with
  | uncounted huncounted _ =>
      refine .inr ⟨huncounted.summary, ?_, ?_⟩
      · rw [summaryApplied_congr h.record]
        exact huncounted.flag
      · rw [← h.rest, handled_append, h.before_eq]
        refine handled_dailySummary ?_ h.unapplied huncounted.summary
        rw [← h.before_eq]
        exact hwithout.append
  | counted record hcountable hlate hincremented hflag =>
      have hid := countableRow_id hcountable
      have happlied := hflag.mpr (markApplied_eq_none hmark hlate hcountable)
      obtain ⟨stored, hstored, hsame⟩ := hincremented.stored
      rw [hid] at hstored
      refine .inl ⟨record, hid, hincremented.change, stored, h.record.trans hstored, hsame, ?_⟩
      rw [summaryApplied, hstored] at happlied
      exact happlied

/-- Only the last statement of a row can fail between the count and the flag. -/
theorem Turn.not_atomic
    (h : Turn platform machineId now faults front row back db before after final)
    (hmark : MarkFails platform machineId now (faults row.id) row) :
    ¬ FullyApplied row before after final ∧ after.dailySummary ≠ before.dailySummary := by
  obtain ⟨⟨record, hcountable⟩, hlate, hfails⟩ := hmark
  cases h.outcome with
  | uncounted _ hstops => exact absurd hlate (hstops record hcountable)
  | counted record _ _ hincremented hflag =>
      constructor
      · rintro ⟨_, -, -, stored, hstored, -, hset⟩
        rw [h.record] at hstored
        refine hfails (hflag.mp ?_)
        rw [summaryApplied, hstored]
        exact hset
      · intro hsame
        have hcount := hincremented.change.counts record.key
        rw [if_pos rfl, summaryCount, summaryCount, hsame] at hcount
        omega

theorem Reconciled.not_markFails (h : Reconciled platform machineId limit now faults db
      (handled platform machineId now faults (reconciliationRows limit db) db))
    (hrow : row ∈ reconciliationRows limit db) :
    ¬ MarkFails platform machineId now (faults row.id) row := by
  intro hmark
  obtain ⟨front, back, hsplit⟩ := List.append_of_mem hrow
  have hunapplied := unapplied_reconciliationRows limit db
  have hrows := h.rows front row back hsplit
  rw [hsplit] at hunapplied hrows
  have hturn := hunapplied.turn.not_atomic hmark
  obtain happlied | hleft := hrows
  · exact hturn.1 happlied
  · exact hturn.2 hleft.summary

/--
A reconciliation handles every row atomically, in any pattern of failing calls, if and
only if no row has counted its message when its last statement fails.
-/
theorem reconciled_iff
    (h : reconcileFaulty platform machineId limit now faults db = .ok (result, final)) :
    Reconciled platform machineId limit now faults db final ↔
      ∀ row ∈ reconciliationRows limit db,
        ¬ MarkFails platform machineId now (faults row.id) row := by
  have hunapplied := unapplied_reconciliationRows limit db
  rw [reconcileFaulty_eq_ok h]
  constructor
  · intro hreconciled row hrow
    exact hreconciled.not_markFails hrow
  · intro hmarks
    refine ⟨?_, ?_⟩
    · intro front row back hsplit
      have hmark := hmarks row (by simp [hsplit])
      rw [hsplit] at hunapplied ⊢
      exact hunapplied.turn.atomic hunapplied.without hmark
    · intro runs mid hruns
      obtain ⟨first, hfirst⟩ := handled_tally hunapplied hmarks
      obtain ⟨rest, hrest⟩ := reconciliations_tally hruns
      refine ⟨⟨first ++ rest, (hfirst.append hrest).countedOnce⟩, ?_⟩
      intro machineId limit now result after row record hrun hrow hcountable
      exact reconcile_applies hrun hrow hcountable

end

/-! ## A message that is counted twice -/

/-- A completed message without a production record. -/
def unsummarized : Database :=
  let jobs : List (Job × Datetime) :=
    [(.save sampleMessage, noon), (.complete 1 sampleCompletion, noon)]
  let db := jobs.foldl (fun db op => Database.after samplePlatform db op) .empty
  { db with productionRecords := .empty, dailySummary := .empty }

/-- One call fails, in every row. -/
def failingAt (call : UpsertCall) : Nat → UpsertFaults := fun _ other =>
  if other = call then some (.operationalError (str "disk I/O error")) else none

/-- A reconciliation with the fault and one without, each with the total after it. -/
def reconciledTwice (call : UpsertCall) :
    Except PyError ((ReconciliationResult × Nat) × ReconciliationResult × Nat) := do
  let (first, mid) ← reconcileFaulty samplePlatform defaultMachineId 100 noon (failingAt call)
    unsummarized
  let (second, after) ← reconcileCompletedProductionRecords samplePlatform defaultMachineId 100
    noon mid
  .ok ((first, summaryTotal mid), second, summaryTotal after)

theorem reconciledTwice_eq_ok {call : UpsertCall} {first second : ReconciliationResult × Nat}
    (h : reconciledTwice call = .ok (first, second)) :
    ∃ mid after,
      reconcileFaulty samplePlatform defaultMachineId 100 noon (failingAt call) unsummarized =
        .ok (first.1, mid) ∧
      reconcileCompletedProductionRecords samplePlatform defaultMachineId 100 noon mid =
        .ok (second.1, after) ∧
      summaryTotal mid = first.2 ∧ summaryTotal after = second.2 := by
  obtain ⟨⟨_, mid⟩, hfirst, hrest⟩ := bind_eq_ok.mp h
  obtain ⟨⟨_, after⟩, hsecond, heq⟩ := bind_eq_ok.mp hrest
  cases heq
  exact ⟨mid, after, hfirst, hsecond, rfl, rfl⟩

/-- The last statement of the row fails: the next reconciliation counts it again. -/
theorem counted_again :
    ∃ mid after,
      reconcileFaulty samplePlatform defaultMachineId 100 noon (failingAt .markApplied)
          unsummarized = .ok (⟨1, 0, 0, 1⟩, mid) ∧
        reconcileCompletedProductionRecords samplePlatform defaultMachineId 100 noon mid =
          .ok (⟨1, 1, 1, 0⟩, after) ∧
        summaryTotal mid = 1 ∧ summaryTotal after = 2 ∧
        ¬ Reconciled samplePlatform defaultMachineId 100 noon (failingAt .markApplied)
          unsummarized mid := by
  have hruns : reconciledTwice .markApplied = .ok ((⟨1, 0, 0, 1⟩, 1), ⟨1, 1, 1, 0⟩, 2) := by
    decide +kernel
  obtain ⟨mid, after, hfirst, hsecond, hmid, hafter⟩ := reconciledTwice_eq_ok hruns
  refine ⟨mid, after, hfirst, hsecond, hmid, hafter, fun hreconciled => ?_⟩
  rw [reconcileFaulty_eq_ok hfirst] at hreconciled
  have hcountable : ((reconciliationRows 100 unsummarized).any fun row =>
      (countableRow samplePlatform defaultMachineId noon row).isOk) = true := by
    decide +kernel
  obtain ⟨row, hrow, hok⟩ := List.any_eq_true.mp hcountable
  refine hreconciled.not_markFails hrow ⟨?_, ?_, nofun⟩
  · cases hrecord : countableRow samplePlatform defaultMachineId noon row with
    | ok record => exact ⟨record, rfl⟩
    | error error =>
        rw [hrecord] at hok
        cases hok
  · intro call hcall
    simp [failingAt, hcall]

/-- The write of the summary fails: the row is left out, and counted later. -/
theorem reconciled_iff_sample :
    ∃ mid after,
      reconcileFaulty samplePlatform defaultMachineId 100 noon (failingAt .writeSummary)
          unsummarized = .ok (⟨1, 0, 0, 1⟩, mid) ∧
        reconcileCompletedProductionRecords samplePlatform defaultMachineId 100 noon mid =
          .ok (⟨1, 1, 1, 0⟩, after) ∧
        summaryTotal mid = 0 ∧ summaryTotal after = 1 ∧
        Reconciled samplePlatform defaultMachineId 100 noon (failingAt .writeSummary)
          unsummarized mid := by
  have hruns : reconciledTwice .writeSummary = .ok ((⟨1, 0, 0, 1⟩, 0), ⟨1, 1, 1, 0⟩, 1) := by
    decide +kernel
  obtain ⟨mid, after, hfirst, hsecond, hmid, hafter⟩ := reconciledTwice_eq_ok hruns
  refine ⟨mid, after, hfirst, hsecond, hmid, hafter, (reconciled_iff hfirst).mpr ?_⟩
  intro row _ hmark
  exact hmark.fails rfl

end EdgeBridge
