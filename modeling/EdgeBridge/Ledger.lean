import EdgeBridge.Foundation.System
import EdgeBridge.Job
import EdgeBridge.Payload
import Mathlib.Data.Finset.Card

/-!
# Runs of atomic transactions

One worker claims a batch, settles or drops every record of it and claims the
next; everybody else runs transactions at any time.  The events of a run are the
completions, and the invariant ties the four tables to them.
-/

namespace EdgeBridge

open Foundation

structure Ledger where
  db : Database
  held : List Nat

inductive LedgerOp where
  | run (job : Job) (now : Datetime)
  | drop

/-- A completed message, with the key it was counted under. -/
structure Completed where
  id : Nat
  arguments : CompletionArguments
  key : SummaryKey

namespace Ledger

/-- The worker claims with empty hands, and settles what it holds. -/
def allowed (held : List Nat) : Job → Bool
  | .claim _ _ => held.isEmpty
  | .complete id arguments => held.contains id && (truthy arguments.ack).isSome
  | .fail id _ => held.contains id
  | _ => true

def heldAfter (held : List Nat) : Job → Answer → List Nat
  | .claim _ _, .claimed records => records.map MessageRecord.id
  | .complete id _, _ => held.erase id
  | .fail id _, _ => held.erase id
  | _, _ => held

def settled (held : List Nat) : Job → List Nat
  | .complete id _ => held.erase id
  | .fail id _ => held.erase id
  | _ => held

def step (platform : Platform) (s : Ledger) : LedgerOp → Option Ledger
  | .drop => some { s with held := [] }
  | .run job now =>
      if allowed s.held job then
        match job.run platform now s.db with
        | .ok (answer, db) => some ⟨db, heldAfter s.held job answer⟩
        | .error _ => some { s with held := settled s.held job }
      else none

/-- The key that the completion of a stored message is counted under. -/
def keyOf (platform : Platform) (db : Database) (id : Nat)
    (arguments : CompletionArguments) : Option SummaryKey := do
  let source ← db.message id
  let ack ← truthy arguments.ack
  let metadata ← (completionMetadata arguments).toOption
  let date ← (productionDate platform arguments.completedAt).toOption
  some (completionKey source (arguments.completion ack metadata) date)

def completions (platform : Platform) (db : Database) (now : Datetime) :
    Job → List Completed
  | .complete id arguments =>
      match markCompleted platform id arguments now db with
      | .ok _ => ((keyOf platform db id arguments).map fun key => ⟨id, arguments, key⟩).toList
      | .error _ => []
  | _ => []

def observe (platform : Platform) (s : Ledger) : LedgerOp → List Completed
  | .drop => []
  | .run job now => completions platform s.db now job

end Ledger

def ledgerSystem (platform : Platform) : System Ledger LedgerOp Completed where
  init := ⟨.empty, []⟩
  step := Ledger.step platform
  observe := Ledger.observe platform

def completedIds (past : List Completed) (key : SummaryKey) : List Nat :=
  (past.filter fun event => event.key == key).map Completed.id

/-! ## The invariant -/

/-- The row and the record of a completed message say what was completed. -/
structure Settled (db : Database) (event : Completed) (row : MessageRecord) : Prop where
  status : row.status = .completed
  ack : row.ack = event.arguments.ack
  odooResponse : row.odooResponse = some event.arguments.odooResponse
  completedAt : row.completedAt = some event.arguments.completedAt
  record : ∃ stored, db.productionRecord event.id = some stored ∧
    stored.completedAt = event.arguments.completedAt ∧ stored.summaryApplied = true

structure Accounted (past : List Completed) (s : Ledger) : Prop where
  heldOpen : ∀ id ∈ s.held, ∃ row, s.db.message id = some row ∧ row.Open
  heldNodup : s.held.Nodup
  once : (past.map Completed.id).Nodup
  known : ∀ event ∈ past, event.id ≤ s.db.mqttMessages.seq
  settled : ∀ event ∈ past, ∀ row, s.db.message event.id = some row →
    Settled s.db event row
  ofRow : ∀ id row, s.db.message id = some row → row.status = .completed →
    ∃ event ∈ past, event.id = id
  ofRecord : ∀ id record, s.db.productionRecord id = some record →
    ∃ event ∈ past, event.id = id
  counts : ∀ key, summaryCount s.db key = (completedIds past key).length
  total : summaryTotal s.db = past.length

theorem accounted_init : Accounted [] ⟨.empty, []⟩ where
  heldOpen := by simp
  heldNodup := List.nodup_nil
  once := List.nodup_nil
  known := by simp
  settled := by simp
  ofRow := by
    intro id row hrow
    simp [Database.message, Database.empty] at hrow
  ofRecord := by
    intro id record hrecord
    cases hrecord
  counts := by intro key; rfl
  total := rfl

/-! ## Jobs that complete nothing -/

/-- A job that does not complete a message adds no production record. -/
structure Quiet (db after : Database) : Prop where
  summary : after.dailySummary = db.dailySummary
  records : ∀ id record, after.productionRecord id = some record →
    db.productionRecord id = some record
  survivors : ∀ id row, after.message id = some row → row.status = .completed →
    after.productionRecord id = db.productionRecord id

theorem Quiet.of_tables {db after : Database}
    (hsummary : after.dailySummary = db.dailySummary)
    (hrecords : after.productionRecords = db.productionRecords) : Quiet db after where
  summary := hsummary
  records := by
    intro id record hrecord
    rw [Database.productionRecord, hrecords] at hrecord
    exact hrecord
  survivors := by
    intro id row _ _
    simp only [Database.productionRecord, hrecords]

/-- A completed row that is still there has its record, with the flag set. -/
theorem Accounted.summaryApplied {past : List Completed} {s : Ledger}
    (h : Accounted past s) {id : Nat} {row : MessageRecord}
    (hrow : s.db.message id = some row) (hstatus : row.status = .completed) :
    ∃ stored, s.db.productionRecord id = some stored ∧
      row.completedAt = some stored.completedAt ∧ stored.summaryApplied = true := by
  rcases h.ofRow id row hrow hstatus with ⟨event, hevent, rfl⟩
  have hsettled := h.settled event hevent row hrow
  rcases hsettled.record with ⟨stored, hstored, hcompletedAt, happlied⟩
  exact ⟨stored, hstored, hcompletedAt ▸ hsettled.completedAt, happlied⟩

/-- A message in the hands of the worker was not completed before. -/
theorem Accounted.fresh {past : List Completed} {s : Ledger} (h : Accounted past s)
    {id : Nat} (hid : id ∈ s.held) : ∀ event ∈ past, event.id ≠ id := by
  rintro event hevent rfl
  rcases h.heldOpen event.id hid with ⟨row, hrow, hopen⟩
  have hstatus := (h.settled event hevent row hrow).status
  rcases hopen with hopen | hopen
  · cases hopen.symm.trans hstatus
  · cases hopen.symm.trans hstatus

theorem Accounted.unapplied {past : List Completed} {s : Ledger} (h : Accounted past s)
    {id : Nat} (hid : id ∈ s.held) : EdgeBridge.summaryApplied s.db id = false := by
  unfold EdgeBridge.summaryApplied
  cases hrecord : s.db.productionRecord id with
  | none => rfl
  | some record =>
      rcases h.ofRecord id record hrecord with ⟨event, hevent, heq⟩
      exact absurd heq (h.fresh hid event hevent)

theorem Accounted.quiet {platform : Platform} {now : Datetime} {past : List Completed}
    {s : Ledger} (h : Accounted past s) {job : Job} {answer : Answer} {after : Database}
    (hjob : ∀ id arguments, job ≠ .complete id arguments)
    (hrun : job.run platform now s.db = .ok (answer, after)) : Quiet s.db after := by
  have htables := (Job.tables hrun).2
  cases job with
  | complete id arguments => exact absurd rfl (hjob id arguments)
  | reconcile machineId limit =>
      rcases map_eq_ok.mp hrun with ⟨⟨result, final⟩, hreconcile, heq⟩
      cases heq
      have hnone : ∀ record ∈ s.db.mqttMessages.rows,
          needsReconciliation s.db record = false := by
        intro record hrecord
        by_contra hneeds
        simp only [needsReconciliation, Bool.and_eq_true, beq_iff_eq,
          Bool.not_eq_true', Bool.not_eq_false] at hneeds
        rcases h.summaryApplied (message_of_mem hrecord) hneeds.1.1.1.1 with
          ⟨stored, hstored, -, happlied⟩
        simp [EdgeBridge.summaryApplied, hstored, happlied] at hneeds
      rw [(reconcile_eq_ok hreconcile).2 hnone]
      exact .of_tables rfl rfl
  | cleanup retentionDays batchSize =>
      rcases map_eq_ok.mp hrun with ⟨⟨result, final⟩, hcleanup, heq⟩
      cases heq
      rcases cleanup_eq_ok hcleanup with rfl | ⟨cutoff, -, rfl⟩
      · exact .of_tables rfl rfl
      · refine ⟨rfl, ?_, ?_⟩
        · intro id record hrecord
          have hfound := Table.find?_eq_some hrecord
          have hmem : record ∈ s.db.productionRecords.rows :=
            (List.mem_filter.mp hfound.1).1
          rw [← beq_iff_eq.mp hfound.2]
          exact productionRecord_of_mem hmem
        · intro id row hrow hstatus
          have hbefore : s.db.message id = some row := by
            rcases deleteBatch_message cutoff batchSize.toNat s.db id with hkept | hdeleted
            · exact hkept ▸ hrow
            · rw [hdeleted.1] at hrow
              cases hrow
          rcases h.summaryApplied hbefore hstatus with
            ⟨stored, hstored, hcompletedAt, happlied⟩
          rcases deleteBatch_productionRecord cutoff batchSize.toNat hstored
            with hkept | ⟨-, hold, hdeleted⟩
          · rw [hkept, hstored]
          · have hid := id_of_message hbefore
            have hcleanable : isCleanableMessage cutoff s.db row = true := by
              simp [isCleanableMessage, hstatus, hcompletedAt, hold,
                EdgeBridge.summaryApplied, hid, hstored, happlied]
            have hgone := hdeleted row (Table.mem_of_byId hbefore) hcleanable
            rw [hid, hrow] at hgone
            cases hgone
  | save | claim | fail | recover | replay | audit =>
      rcases htables rfl with ⟨hrecords, hsummary⟩
      exact .of_tables hsummary hrecords

/-! ## One step -/

theorem heldAfter_open {platform : Platform} {now : Datetime} {s : Ledger}
    (hheld : ∀ id ∈ s.held, ∃ row, s.db.message id = some row ∧ row.Open)
    (hdistinct : s.held.Nodup) {job : Job} {answer : Answer} {after : Database}
    (hjob : ∀ id arguments, job ≠ .complete id arguments)
    (hrun : job.run platform now s.db = .ok (answer, after)) :
    (Ledger.heldAfter s.held job answer).Nodup ∧
      ∀ id ∈ Ledger.heldAfter s.held job answer,
        ∃ row, after.message id = some row ∧ row.Open := by
  have hkeep : ∀ id ∈ s.held, ∃ row, after.message id = some row ∧ row.Open := by
    intro id hid
    rcases hheld id hid with ⟨row, hrow, hopen⟩
    have hchange := Job.rowChange hrun id
    rw [hrow] at hchange
    exact hchange.of_open hopen (hjob id)
  cases job with
  | complete id arguments => exact absurd rfl (hjob id arguments)
  | claim batchSize maxRetries =>
      rcases map_eq_ok.mp hrun with ⟨⟨records, result⟩, hclaim, heq⟩
      cases heq
      rcases claimPendingMessages_eq_ok hclaim with ⟨-, -, hnodup, hin, -⟩
      refine ⟨hnodup, ?_⟩
      intro id hid
      rcases List.mem_map.mp hid with ⟨record, hrecord, rfl⟩
      rcases hin record hrecord with ⟨row, -, -, heq, hnow⟩
      refine ⟨record, hnow, .inl ?_⟩
      rw [heq]
      rfl
  | fail id failure =>
      refine ⟨hdistinct.erase id, ?_⟩
      intro other hother
      exact hkeep other (List.mem_of_mem_erase hother)
  | save | recover | replay | reconcile | cleanup | audit =>
      exact ⟨hdistinct, hkeep⟩

theorem Accounted.run_quiet {platform : Platform} {now : Datetime}
    {past : List Completed} {s : Ledger} (h : Accounted past s) {job : Job}
    {answer : Answer} {after : Database}
    (hjob : ∀ id arguments, job ≠ .complete id arguments)
    (hallowed : Ledger.allowed s.held job = true)
    (hrun : job.run platform now s.db = .ok (answer, after)) :
    Accounted past ⟨after, Ledger.heldAfter s.held job answer⟩ := by
  have hquiet := h.quiet hjob hrun
  have hheld := heldAfter_open h.heldOpen h.heldNodup hjob hrun
  have hseq := (Job.tables hrun).1
  refine ⟨hheld.2, hheld.1, h.once, ?_, ?_, ?_, ?_, ?_, ?_⟩
  · intro event hevent
    exact Nat.le_trans (h.known event hevent) hseq
  · intro event hevent row hrow
    have hchange := Job.rowChange hrun event.id
    rw [hrow] at hchange
    cases hbefore : s.db.message event.id with
    | none =>
        rw [hbefore] at hchange
        have hknown := h.known event hevent
        have hnew := hchange.of_none.1
        omega
    | some old =>
        have hsettled := h.settled event hevent old hbefore
        rw [hbefore] at hchange
        have hfail : ∀ failure, job ≠ .fail event.id failure := by
          rintro failure rfl
          have hmem : event.id ∈ s.held := List.contains_iff_mem.mp hallowed
          rcases h.heldOpen event.id hmem with ⟨row', hrow', hopen⟩
          rw [hbefore, Option.some.injEq] at hrow'
          subst hrow'
          rcases hopen with hopen | hopen
          · cases hopen.symm.trans hsettled.status
          · cases hopen.symm.trans hsettled.status
        rcases hchange.of_completed hsettled.status (hjob event.id) hfail with
          hgone | ⟨next, hnext, hstatus, hack, hresponse, hcompletedAt⟩
        · cases hgone
        · rw [Option.some.injEq] at hnext
          subst hnext
          have hsame := hquiet.survivors event.id row hrow hstatus
          refine ⟨hstatus, hack.trans hsettled.ack, hresponse.trans hsettled.odooResponse,
            hcompletedAt.trans hsettled.completedAt, ?_⟩
          rw [hsame]
          exact hsettled.record
  · intro id row hrow hstatus
    have hchange := Job.rowChange hrun id
    rw [hrow] at hchange
    rcases hchange.to_completed hstatus (hjob id) with ⟨old, hold, holdStatus⟩
    exact h.ofRow id old hold holdStatus
  · intro id record hrecord
    exact h.ofRecord id record (hquiet.records id record hrecord)
  · intro key
    have hcount := h.counts key
    unfold summaryCount at hcount ⊢
    rw [hquiet.summary]
    exact hcount
  · have htotal := h.total
    unfold summaryTotal at htotal ⊢
    rw [hquiet.summary]
    exact htotal

/-- A completion adds one event, and one to the count of its key. -/
theorem Accounted.run_complete {platform : Platform} {now : Datetime}
    {past : List Completed} {s : Ledger} (h : Accounted past s) {id : Nat}
    {arguments : CompletionArguments} {after : Database}
    (hallowed : Ledger.allowed s.held (.complete id arguments) = true)
    (hrun : markCompleted platform id arguments now s.db = .ok after) :
    ∃ key, Ledger.completions platform s.db now (.complete id arguments) =
        [⟨id, arguments, key⟩] ∧
      Accounted (past ++ [⟨id, arguments, key⟩]) ⟨after, s.held.erase id⟩ := by
  simp only [Ledger.allowed, Bool.and_eq_true, List.contains_iff_mem] at hallowed
  rcases hallowed with ⟨hmem, hack⟩
  rcases Option.isSome_iff_exists.mp hack with ⟨ack, hack⟩
  rcases markCompleted_eq_ok hack hrun with
    ⟨source, metadata, date, hsource, hmetadata, hdate, hmessages, hcounted⟩
  have hjob : Job.run platform now s.db (.complete id arguments) = .ok (.done, after) :=
    map_eq_ok.mpr ⟨after, hrun, rfl⟩
  have hseq := (Job.tables hjob).1
  have hfresh := h.fresh hmem
  have hunapplied := h.unapplied hmem
  have hview : after.message id = some (completeMessage arguments metadata source) := by
    rw [message_updated hmessages, hsource, Option.map_some]
  have hothers : ∀ other, other ≠ id → after.message other = s.db.message other :=
    fun other hother => message_not_updated hmessages hother
  refine ⟨completionKey source (arguments.completion ack metadata) date, ?_, ?_⟩
  · have hkey : Ledger.keyOf platform s.db id arguments =
        some (completionKey source (arguments.completion ack metadata) date) := by
      simp [Ledger.keyOf, hsource, hack, hmetadata, hdate, Except.toOption]
    simp [Ledger.completions, hrun, hkey]
  · refine ⟨?_, h.heldNodup.erase id, ?_, ?_, ?_, ?_, ?_, ?_, ?_⟩
    · intro other hother
      have hne : other ≠ id := by
        rintro rfl
        exact h.heldNodup.not_mem_erase hother
      rw [hothers other hne]
      exact h.heldOpen other (List.mem_of_mem_erase hother)
    · rw [List.map_append, List.nodup_append]
      refine ⟨h.once, List.nodup_singleton _, ?_⟩
      intro first hfirst second hsecond
      rcases List.mem_map.mp hfirst with ⟨event, hevent, rfl⟩
      rw [List.map_singleton, List.mem_singleton] at hsecond
      rw [hsecond]
      exact hfresh event hevent
    · intro event hevent
      rcases List.mem_append.mp hevent with hold | hnew
      · exact Nat.le_trans (h.known event hold) hseq
      · rw [List.mem_singleton.mp hnew]
        exact Nat.le_trans (message_le_seq hsource) hseq
    · intro event hevent row hrow
      rcases List.mem_append.mp hevent with hold | hnew
      · have hne := hfresh event hold
        rw [hothers event.id hne] at hrow
        have hsettled := h.settled event hold row hrow
        refine ⟨hsettled.status, hsettled.ack, hsettled.odooResponse,
          hsettled.completedAt, ?_⟩
        rw [hcounted.others event.id hne]
        exact hsettled.record
      · rw [List.mem_singleton] at hnew
        subst hnew
        rw [hview, Option.some.injEq] at hrow
        subst hrow
        rcases hcounted.record with ⟨stored, hstored, hcompletedAt, -, happlied⟩
        exact ⟨rfl, rfl, rfl, rfl, stored, hstored, hcompletedAt, happlied⟩
    · intro other row hrow hstatus
      rcases eq_or_ne other id with rfl | hne
      · exact ⟨_, List.mem_append_right _ (List.mem_singleton_self _), rfl⟩
      · rw [hothers other hne] at hrow
        rcases h.ofRow other row hrow hstatus with ⟨event, hevent, hid⟩
        exact ⟨event, List.mem_append_left _ hevent, hid⟩
    · intro other record hrecord
      rcases eq_or_ne other id with rfl | hne
      · exact ⟨_, List.mem_append_right _ (List.mem_singleton_self _), rfl⟩
      · rw [hcounted.others other hne] at hrecord
        rcases h.ofRecord other record hrecord with ⟨event, hevent, hid⟩
        exact ⟨event, List.mem_append_left _ hevent, hid⟩
    · intro key
      rw [hcounted.counts hunapplied key, h.counts key]
      unfold completedIds
      rw [List.filter_append, List.map_append, List.length_append]
      congr 1
      rcases eq_or_ne key (completionKey source (arguments.completion ack metadata) date)
        with rfl | hne
      · simp
      · simp [hne, hne.symm]
    · rw [hcounted.total hunapplied, h.total, List.length_append, List.length_singleton]

theorem Ledger.settled_sublist (held : List Nat) (job : Job) :
    (Ledger.settled held job).Sublist held := by
  cases job with
  | complete id arguments => exact List.erase_sublist
  | fail id failure => exact List.erase_sublist
  | _ => exact List.Sublist.refl _

theorem Ledger.completions_of_ne {platform : Platform} {db : Database} {now : Datetime}
    {job : Job} (hjob : ∀ id arguments, job ≠ .complete id arguments) :
    Ledger.completions platform db now job = [] := by
  cases job with
  | complete id arguments => exact absurd rfl (hjob id arguments)
  | _ => rfl

theorem Ledger.completions_of_error {platform : Platform} {db : Database} {now : Datetime}
    {job : Job} {error : PyError} (hrun : job.run platform now db = .error error) :
    Ledger.completions platform db now job = [] := by
  cases job with
  | complete id arguments =>
      cases hcomplete : markCompleted platform id arguments now db with
      | ok final => simp [Job.run, hcomplete, Except.map] at hrun
      | error error => simp [Ledger.completions, hcomplete]
  | _ => rfl

theorem Accounted.step {platform : Platform} {past : List Completed} {s t : Ledger}
    (h : Accounted past s) {op : LedgerOp} (hstep : Ledger.step platform s op = some t) :
    Accounted (past ++ Ledger.observe platform s op) t := by
  cases op with
  | drop =>
      cases hstep
      simp only [Ledger.observe, List.append_nil]
      exact ⟨by simp, List.nodup_nil, h.once, h.known, h.settled, h.ofRow, h.ofRecord,
        h.counts, h.total⟩
  | run job now =>
      simp only [Ledger.step] at hstep
      split at hstep
      · next hallowed =>
        simp only [Ledger.observe]
        cases hrun : job.run platform now s.db with
        | ok result =>
            rcases result with ⟨answer, after⟩
            rw [hrun] at hstep
            cases hstep
            by_cases hjob : ∃ id arguments, job = .complete id arguments
            · rcases hjob with ⟨id, arguments, rfl⟩
              rcases map_eq_ok.mp hrun with ⟨final, hcomplete, heq⟩
              cases heq
              rcases h.run_complete hallowed hcomplete with ⟨key, hevents, hnext⟩
              rw [hevents]
              exact hnext
            · simp only [not_exists] at hjob
              rw [Ledger.completions_of_ne hjob, List.append_nil]
              exact h.run_quiet hjob hallowed hrun
        | error error =>
            rw [hrun] at hstep
            cases hstep
            rw [Ledger.completions_of_error hrun, List.append_nil]
            have hsub := Ledger.settled_sublist s.held job
            exact ⟨fun id hid => h.heldOpen id (hsub.subset hid), h.heldNodup.sublist hsub,
              h.once, h.known, h.settled, h.ofRow, h.ofRecord, h.counts, h.total⟩
      · cases hstep

/-! ## Whole runs -/

theorem ledger_accounted (platform : Platform) {past : List Completed} {s : Ledger}
    (ran : (ledgerSystem platform).Ran (ledgerSystem platform).init past s) :
    Accounted past s :=
  (ledgerSystem platform).trace_invariant accounted_init
    (fun _ _ _ _ _ h hstep => h.step hstep) ran

theorem summaryCount_of_mem {db : Database} {row : DailySummary}
    (h : row ∈ db.dailySummary.rows) : summaryCount db row.key = row.productionCount := by
  rw [summaryCount, summary_of_mem h]
  rfl

/--
Exactly-once accounting over whole runs: a key has at most one summary row, which
counts the distinct messages completed with that key, and all rows together count
the distinct messages ever completed.
-/
theorem production_accounting (platform : Platform) {ops : List LedgerOp} {s : Ledger}
    (run : (ledgerSystem platform).exec (ledgerSystem platform).init ops = some s) :
    (∀ first ∈ s.db.dailySummary.rows, ∀ second ∈ s.db.dailySummary.rows,
      first.key = second.key → first = second) ∧
    (∀ row ∈ s.db.dailySummary.rows, row.productionCount = (completedIds
      ((ledgerSystem platform).trace (ledgerSystem platform).init ops)
      row.key).toFinset.card) ∧
    (∀ key, (∀ row ∈ s.db.dailySummary.rows, row.key ≠ key) → completedIds
      ((ledgerSystem platform).trace (ledgerSystem platform).init ops) key = []) ∧
    (s.db.dailySummary.rows.map DailySummary.productionCount).sum =
      (((ledgerSystem platform).trace (ledgerSystem platform).init ops).map
        Completed.id).toFinset.card := by
  have h := ledger_accounted platform ⟨ops, run, rfl⟩
  have hnodup : ∀ key, (completedIds
      ((ledgerSystem platform).trace (ledgerSystem platform).init ops) key).Nodup := by
    intro key
    exact h.once.sublist (List.filter_sublist.map Completed.id)
  refine ⟨?_, ?_, ?_, ?_⟩
  · intro first hfirst second hsecond hkey
    exact summary_unique hfirst hsecond hkey
  · intro row hrow
    rw [List.toFinset_card_of_nodup (hnodup row.key), ← h.counts, summaryCount_of_mem hrow]
  · intro key hnone
    have hcount := h.counts key
    have hfind : s.db.dailySummary.find? (fun row => row.key == key) = none := by
      apply List.find?_eq_none.mpr
      intro row hrow hkey
      exact hnone row hrow (beq_iff_eq.mp hkey)
    rw [summaryCount, hfind] at hcount
    exact List.length_eq_zero_iff.mp hcount.symm
  · rw [List.toFinset_card_of_nodup h.once, List.length_map]
    exact h.total

/-! ## A run through every table -/

def sampleMessage : IncomingMessage where
  topic := plcToOdooTopic
  rawPayload := compactPayload
  messageType := str "MN"
  tableNo := str "T01"
  model := str "TESTP001"
  serial := str "12345"

def sampleResponse : Text := str "\x7b\"success\": true, \"result\": \x7b\"ACK\": \"A1\"\x7d\x7d"

def sampleCompletion : CompletionArguments where
  odooResponse := sampleResponse
  completedAt := formatTimestamp noon
  ack := some (str "A1")
  metadata := .none
  machineId := none

/-- One second later. -/
def afterNoon : Datetime := .ofSecond 63892929601 (by decide)

/-- Receive, claim, complete, reconcile and clean up one message. -/
def sampleOps : List LedgerOp :=
  [.run (.save sampleMessage) noon, .run (.claim 10 3) noon,
    .run (.complete 1 sampleCompletion) noon,
    .run (.reconcile defaultMachineId 100) noon, .run (.cleanup 0 1000) afterNoon]

theorem production_accounting_sample :
    ∃ s, (ledgerSystem samplePlatform).exec (ledgerSystem samplePlatform).init sampleOps =
        some s ∧
      s.db.mqttMessages.rows = [] ∧
      (s.db.dailySummary.rows.map DailySummary.productionCount).sum = 1 ∧
      (s.db.dailySummary.rows.map DailySummary.productionCount).sum =
        (((ledgerSystem samplePlatform).trace (ledgerSystem samplePlatform).init
          sampleOps).map Completed.id).toFinset.card := by
  have hrun : ((ledgerSystem samplePlatform).exec (ledgerSystem samplePlatform).init
      sampleOps).map (fun s => (s.db.mqttMessages.rows,
        (s.db.dailySummary.rows.map DailySummary.productionCount).sum)) = some ([], 1) := by
    decide +kernel
  rcases Option.map_eq_some_iff.mp hrun with ⟨s, hs, hvalues⟩
  rw [Prod.mk.injEq] at hvalues
  exact ⟨s, hs, hvalues.1, hvalues.2, (production_accounting samplePlatform hs).2.2.2⟩

end EdgeBridge
