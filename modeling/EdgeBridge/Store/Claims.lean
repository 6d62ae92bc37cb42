import EdgeBridge.Foundation.Service
import EdgeBridge.Foundation.System
import EdgeBridge.Ledger

/-!
# How often a row is claimed

Any number of workers, watchdogs and other threads run their transactions on one
database, in any order and for any row.  Between two claims of a row its retry
counter grows, on every path, so a row is claimed a bounded number of times; the
rows ahead of a new one can therefore fill only so many batches.
-/

namespace EdgeBridge

open Foundation

/-- A call of `claim_pending_messages`: the ids that were NEW, and the ids that it
returned; `none` is an exception. -/
structure ClaimCall where
  fresh : List Nat
  returned : Option (List Nat)

def ClaimCall.served (call : ClaimCall) : List Nat := call.returned.getD []

/-- The settings `ODOO_WORKER_BATCH_SIZE` and `ODOO_WORKER_MAX_RETRIES` of all workers. -/
def Job.claimsWith (batchSize maxRetries : Int) : Job → Bool
  | .claim size retries => size == batchSize && retries == maxRetries
  | _ => true

def newIds (db : Database) : List Nat :=
  (db.mqttMessages.select fun row => row.status == .new).map MessageRecord.id

namespace Store

def step (platform : Platform) (batchSize maxRetries : Int) (db : Database)
    (op : Job × Datetime) : Option Database :=
  if op.1.claimsWith batchSize maxRetries then
    match op.1.run platform op.2 db with
    | .ok (_, after) => some after
    | .error _ => some db
  else none

def observe (platform : Platform) (db : Database) (op : Job × Datetime) :
    List ClaimCall :=
  match op.1 with
  | .claim batchSize maxRetries =>
      [⟨newIds db, (claimPendingMessages platform batchSize maxRetries op.2 db).toOption.map
        fun result => result.1.map MessageRecord.id⟩]
  | _ => []

end Store

/-- Any thread runs any transaction at any time. -/
def storeSystem (platform : Platform) (batchSize maxRetries : Int) :
    System Database (Job × Datetime) ClaimCall where
  init := .empty
  step := Store.step platform batchSize maxRetries
  observe := Store.observe platform

/-- How often the calls returned the row. -/
def returns (calls : List ClaimCall) (id : Nat) : Nat :=
  timesServed ClaimCall.served calls id

/-- The calls made while the row was NEW. -/
def callsWhileNew (calls : List ClaimCall) (id : Nat) : Nat :=
  calls.countP fun call => call.fresh.contains id

/-- The calls made while the row was NEW that raised no exception. -/
def answeredWhileNew (calls : List ClaimCall) (id : Nat) : Nat :=
  calls.countP fun call => call.fresh.contains id && call.returned.isSome

/-! ## The retry counter pays for the claims -/

structure Charge (claimed : Nat) (row : MessageRecord) : Prop where
  counter : claimed ≤ row.retryCount + 1
  fresh : row.status = .new → claimed = 0
  failed : row.status = .failed → claimed ≤ row.retryCount

theorem lt_failedRetryCount (retryable : Bool) (maxRetries : Option Int)
    (retryCount : Nat) : retryCount < failedRetryCount retryable maxRetries retryCount := by
  unfold failedRetryCount
  split
  · omega
  · omega

/-- No transaction but a claim adds to what the counter has to pay. -/
theorem RowChange.charge {now : Datetime} {seq id claimed : Nat} {job : Job}
    {answer : Answer} {before : Option MessageRecord} {next : MessageRecord}
    (h : RowChange now seq id job answer before (some next))
    (hclaim : ∀ batchSize maxRetries, job ≠ .claim batchSize maxRetries)
    (hunknown : seq < id → claimed = 0)
    (hbefore : ∀ row, before = some row → Charge claimed row) : Charge claimed next := by
  cases h with
  | kept => exact hbefore next rfl
  | created messageHash hid _ _ =>
      have hzero := hunknown (by omega)
      exact ⟨by omega, fun _ => hzero, by rintro ⟨⟩⟩
  | claimed _ _ _ => exact absurd rfl (hclaim _ _)
  | completed row metadata =>
      exact ⟨(hbefore row rfl).counter, by rintro ⟨⟩, by rintro ⟨⟩⟩
  | @failed failure row =>
      have hcounter := (hbefore row rfl).counter
      have hgrown := lt_failedRetryCount failure.retryable (some failure.maxRetries)
        row.retryCount
      exact ⟨by simp only [failMessage]; omega, by rintro ⟨⟩,
        fun _ => by simp only [failMessage]; omega⟩
  | recovered row _ =>
      have hcounter := (hbefore row rfl).counter
      exact ⟨by simp only [recoverMessage]; omega, by rintro ⟨⟩, fun _ => hcounter⟩
  | replayed row count =>
      have hrow := hbefore row rfl
      exact ⟨hrow.counter, hrow.fresh, hrow.failed⟩

/-- What the calls so far have returned of one row. -/
structure ClaimsPaid (maxRetries : Int) (calls : List ClaimCall) (db : Database) (id : Nat) :
    Prop where
  unknown : db.mqttMessages.seq < id → returns calls id = 0
  bounded : returns calls id ≤ max 1 maxRetries.toNat
  charge : ∀ row, db.message id = some row → Charge (returns calls id) row

section

variable {platform : Platform} {batchSize maxRetries : Int} {now : Datetime}
  {db after : Database} {calls : List ClaimCall} {id : Nat}

theorem returns_append (first second : List ClaimCall) (id : Nat) :
    returns (first ++ second) id = returns first id + returns second id :=
  timesServed_append ClaimCall.served first second id

theorem returns_single (call : ClaimCall) (id : Nat) :
    returns [call] id = if id ∈ call.served then 1 else 0 := by
  simp [returns, timesServed, List.countP_cons]

theorem ClaimsPaid.claim {records : List MessageRecord} {fresh : List Nat}
    (h : ClaimsPaid maxRetries calls db id)
    (hclaim : claimPendingMessages platform batchSize maxRetries now db =
      .ok (records, after)) :
    ClaimsPaid maxRetries
      (calls ++ [⟨fresh, some (records.map MessageRecord.id)⟩]) after id := by
  rcases claimPendingMessages_eq_ok hclaim with ⟨-, hseq, -, hin, hout⟩
  have htimes := returns_append calls [⟨fresh, some (records.map MessageRecord.id)⟩] id
  rw [returns_single, show ClaimCall.served ⟨fresh, some (records.map MessageRecord.id)⟩ =
    records.map MessageRecord.id from rfl] at htimes
  by_cases hmem : id ∈ records.map MessageRecord.id
  · rw [if_pos hmem] at htimes
    rcases List.mem_map.mp hmem with ⟨record, hrecord, rfl⟩
    rcases hin record hrecord with ⟨row, hrow, hpending, heq, hnow⟩
    have hcharge := h.charge row hrow
    have hknown := message_le_seq hrow
    have hroom : returns calls record.id ≤ row.retryCount ∧
        returns calls record.id + 1 ≤ max 1 maxRetries.toNat := by
      simp only [isPending, Bool.or_eq_true, Bool.and_eq_true, beq_iff_eq,
        decide_eq_true_eq] at hpending
      rcases hpending with hnew | ⟨hfailed, hless⟩
      · have hzero := hcharge.fresh hnew
        omega
      · have hcounter := hcharge.failed hfailed
        omega
    refine ⟨by omega, by omega, ?_⟩
    intro next hnext
    rw [hnow, Option.some.injEq] at hnext
    rw [← hnext, htimes]
    have hretryCount := congrArg MessageRecord.retryCount heq
    have hstatus := congrArg MessageRecord.status heq
    simp only [markProcessing] at hretryCount hstatus
    refine ⟨by omega, ?_, ?_⟩
    · rw [hstatus]
      rintro ⟨⟩
    · rw [hstatus]
      rintro ⟨⟩
  · rw [if_neg hmem, Nat.add_zero] at htimes
    refine ⟨?_, ?_, ?_⟩
    · rw [htimes, hseq]
      exact h.unknown
    · rw [htimes]
      exact h.bounded
    · rw [htimes, hout id hmem]
      exact h.charge

theorem ClaimsPaid.step {op : Job × Datetime}
    (h : ClaimsPaid maxRetries calls db id)
    (hstep : Store.step platform batchSize maxRetries db op = some after) :
    ClaimsPaid maxRetries (calls ++ Store.observe platform db op) after id := by
  rcases op with ⟨job, now⟩
  simp only [Store.step] at hstep
  split at hstep
  · next hwith =>
    by_cases hclaim : ∃ size retries, job = .claim size retries
    · rcases hclaim with ⟨size, retries, rfl⟩
      simp only [Job.claimsWith, Bool.and_eq_true, beq_iff_eq] at hwith
      rcases hwith with ⟨rfl, rfl⟩
      simp only [Job.run, Store.observe] at hstep ⊢
      cases hrun : claimPendingMessages platform size retries now db with
      | ok result =>
          rw [hrun] at hstep
          cases hstep
          exact h.claim hrun
      | error error =>
          rw [hrun] at hstep
          cases hstep
          have hnone : returns (calls ++ [⟨newIds db, none⟩]) id = returns calls id := by
            rw [returns_append, returns_single]
            rfl
          refine ⟨?_, ?_, ?_⟩
          · exact hnone ▸ h.unknown
          · exact hnone ▸ h.bounded
          · exact hnone ▸ h.charge
    · simp only [not_exists] at hclaim
      have hevents : Store.observe platform db (job, now) = [] := by
        cases job with
        | claim size retries => exact absurd rfl (hclaim size retries)
        | _ => rfl
      rw [hevents, List.append_nil]
      cases hrun : job.run platform now db with
      | error error =>
          rw [hrun] at hstep
          cases hstep
          exact h
      | ok result =>
          rcases result with ⟨answer, final⟩
          rw [hrun] at hstep
          cases hstep
          have hseq := (Job.tables hrun).1
          refine ⟨fun hlt => h.unknown (by omega), h.bounded, ?_⟩
          intro next hnext
          have hchange := Job.rowChange hrun id
          rw [hnext] at hchange
          exact hchange.charge hclaim h.unknown h.charge
  · cases hstep

theorem store_claimsPaid
    (ran : (storeSystem platform batchSize maxRetries).Ran
      (storeSystem platform batchSize maxRetries).init calls db) (id : Nat) :
    ClaimsPaid maxRetries calls db id := by
  refine (storeSystem platform batchSize maxRetries).trace_invariant
    (I := fun calls db => ClaimsPaid maxRetries calls db id) ?_
    (fun _ _ _ _ _ h hstep => h.step hstep) ran
  refine ⟨fun _ => rfl, Nat.zero_le _, ?_⟩
  intro row hrow
  simp [storeSystem, Database.message, Database.empty] at hrow

/-! ## The rows ahead -/

theorem pendingIds_nodup (batchSize maxRetries : Int) (db : Database) :
    (pendingIds batchSize maxRetries db).Nodup := by
  have hascending := (db.mqttMessages.ascending.filter (isPending maxRetries)).take
    (i := batchSize.toNat)
  exact List.pairwise_map.mpr (hascending.imp fun hlt => Nat.ne_of_lt hlt)

theorem claim_ids {records : List MessageRecord}
    (h : claimPendingMessages platform batchSize maxRetries now db = .ok (records, after)) :
    (records.map MessageRecord.id).Perm (pendingIds batchSize maxRetries db) := by
  have hnodup := (claimPendingMessages_eq_ok h).2.2.1
  unfold claimPendingMessages at h
  split at h
  · next hbatch =>
    cases h
    simp [pendingIds, Int.toNat_of_nonpos hbatch]
  · split at h
    · cases h
    · simp only at h
      split at h
      · next hempty =>
        cases h
        rw [List.isEmpty_iff.mp hempty]
        exact .refl _
      · split at h
        · cases h
        · cases h
          refine (List.perm_ext_iff_of_nodup hnodup (pendingIds_nodup _ _ _)).mpr fun id => ?_
          constructor
          · intro hmem
            rcases List.mem_map.mp hmem with ⟨record, hrecord, rfl⟩
            exact List.contains_iff_mem.mp (List.mem_filter.mp hrecord).2
          · intro hmem
            rcases pendingIds_pending hmem with ⟨row, hrow, -⟩
            have hview := message_update db
              (fun record => (pendingIds batchSize maxRetries db).contains record.id)
              (markProcessing (formatTimestamp now)) id
            have hin := List.contains_iff_mem.mpr hmem
            rw [hrow, Option.map_some, id_of_message hrow, if_pos hin] at hview
            refine List.mem_map.mpr ⟨_, List.mem_filter.mpr
              ⟨Table.mem_of_byId hview, ?_⟩, id_of_message hview⟩
            rw [id_of_message hview]
            exact hin

/-- A claim that leaves a new row out has taken a full batch of older rows. -/
theorem claim_serves_older {records : List MessageRecord} {row : MessageRecord}
    (h : claimPendingMessages platform batchSize maxRetries now db = .ok (records, after))
    (hrow : db.message id = some row) (hnew : row.status = .new)
    (hout : id ∉ records.map MessageRecord.id) :
    (records.map MessageRecord.id).length = batchSize.toNat ∧
      ∀ other ∈ records.map MessageRecord.id, other < id ∧
        (db.message other).isSome = true := by
  have hids := claim_ids h
  have hascending : ((db.mqttMessages.select (isPending maxRetries)).map
      MessageRecord.id).Pairwise (· < ·) :=
    List.pairwise_map.mpr (db.mqttMessages.ascending.filter _)
  have hmem : id ∈ (db.mqttMessages.select (isPending maxRetries)).map MessageRecord.id := by
    refine List.mem_map.mpr ⟨row, List.mem_filter.mpr ⟨Table.mem_of_byId hrow, ?_⟩,
      id_of_message hrow⟩
    simp [isPending, hnew]
  have hnot : id ∉ ((db.mqttMessages.select (isPending maxRetries)).map
      MessageRecord.id).take batchSize.toNat := by
    rw [← List.map_take]
    exact fun hin => hout (hids.mem_iff.mpr hin)
  rcases take_full hascending hmem hnot with ⟨hlength, hless⟩
  rw [← List.map_take] at hlength hless
  refine ⟨hids.length_eq.trans hlength, ?_⟩
  intro other hother
  have hpending := hids.mem_iff.mp hother
  rcases pendingIds_pending hpending with ⟨found, hfound, -⟩
  exact ⟨hless other hpending, by rw [hfound]; rfl⟩

/-- The ids of the rows ahead of a row. -/
def ahead (db : Database) (id : Nat) : Finset Nat :=
  ((db.mqttMessages.select fun older => older.id < id).map MessageRecord.id).toFinset

theorem mem_ahead {other : Nat} :
    other ∈ ahead db id ↔ (db.message other).isSome = true ∧ other < id := by
  simp only [ahead, List.mem_toFinset, List.mem_map]
  constructor
  · rintro ⟨row, hrow, rfl⟩
    have hselect := List.mem_filter.mp hrow
    rw [message_of_mem hselect.1]
    exact ⟨rfl, decide_eq_true_eq.mp hselect.2⟩
  · rintro ⟨hsome, hless⟩
    rcases Option.isSome_iff_exists.mp hsome with ⟨row, hrow⟩
    have hid := id_of_message hrow
    exact ⟨row, List.mem_filter.mpr ⟨Table.mem_of_byId hrow, by simpa [hid] using hless⟩, hid⟩

theorem card_ahead (db : Database) (id : Nat) : (ahead db id).card =
    (db.mqttMessages.select fun older => older.id < id).length := by
  have hnodup : ((db.mqttMessages.select fun older => older.id < id).map
      MessageRecord.id).Nodup := by
    have hascending := db.mqttMessages.ascending.filter
      (fun older => decide (MessageRecord.id older < id))
    exact List.pairwise_map.mpr (hascending.imp fun hlt => Nat.ne_of_lt hlt)
  rw [ahead, List.toFinset_card_of_nodup hnodup, List.length_map]

/-- No row appears ahead of a row, and every call that leaves it out is filled with
the rows ahead. -/
structure Queued (start : Database) (id : Nat) (batchSize : Int) (calls : List ClaimCall)
    (db : Database) : Prop where
  seq : start.mqttMessages.seq ≤ db.mqttMessages.seq
  old : ∀ other ≤ start.mqttMessages.seq, (db.message other).isSome = true →
    (start.message other).isSome = true
  filled : ∀ call ∈ calls, id ∈ call.fresh → call.returned.isSome = true →
    id ∉ call.served → batchSize.toNat ≤
      ((ahead start id).filter fun other => other ∈ call.served).card

theorem Store.step_run {op : Job × Datetime}
    (h : Store.step platform batchSize maxRetries db op = some after) :
    after = db ∨ ∃ answer, op.1.run platform op.2 db = .ok (answer, after) := by
  unfold Store.step at h
  split at h
  · split at h
    · next answer final hrun =>
      cases h
      exact .inr ⟨answer, hrun⟩
    · cases h
      exact .inl rfl
  · cases h

theorem mem_newIds : id ∈ newIds db ↔
    ∃ row, db.message id = some row ∧ row.status = .new := by
  unfold newIds
  constructor
  · intro h
    rcases List.mem_map.mp h with ⟨row, hrow, rfl⟩
    have hselect := List.mem_filter.mp hrow
    exact ⟨row, message_of_mem hselect.1, beq_iff_eq.mp hselect.2⟩
  · rintro ⟨row, hrow, hnew⟩
    exact List.mem_map.mpr ⟨row, List.mem_filter.mpr
      ⟨Table.mem_of_byId hrow, beq_iff_eq.mpr hnew⟩, id_of_message hrow⟩

theorem Store.mem_observe {op : Job × Datetime} {call : ClaimCall}
    (hstep : Store.step platform batchSize maxRetries db op = some after)
    (h : call ∈ Store.observe platform db op) :
    call = ⟨newIds db, (claimPendingMessages platform batchSize maxRetries op.2
      db).toOption.map fun result => result.1.map MessageRecord.id⟩ := by
  rcases op with ⟨job, now⟩
  cases job with
  | claim size retries =>
      simp only [Store.step, Job.claimsWith, Option.ite_none_right_eq_some,
        Bool.and_eq_true, beq_iff_eq] at hstep
      rw [← hstep.1.1, ← hstep.1.2]
      exact List.mem_singleton.mp h
  | _ => cases h

theorem Queued.step {start : Database} {op : Job × Datetime}
    (h : Queued start id batchSize calls db) (hid : id ≤ start.mqttMessages.seq)
    (hstep : Store.step platform batchSize maxRetries db op = some after) :
    Queued start id batchSize (calls ++ Store.observe platform db op) after := by
  refine ⟨?_, ?_, ?_⟩
  · rcases Store.step_run hstep with rfl | ⟨answer, hrun⟩
    · exact h.seq
    · exact Nat.le_trans h.seq (Job.tables hrun).1
  · intro other hother hsome
    rcases Store.step_run hstep with rfl | ⟨answer, hrun⟩
    · exact h.old other hother hsome
    · apply h.old other hother
      rcases Option.isSome_iff_exists.mp hsome with ⟨row, hrow⟩
      cases hbefore : db.message other with
      | some old => rfl
      | none =>
          have hchange := Job.rowChange hrun other
          rw [hbefore, hrow] at hchange
          have hnew := hchange.of_none.1
          have hseq := h.seq
          omega
  · intro call hcall hfresh hreturned hout
    rcases List.mem_append.mp hcall with hold | hnow
    · exact h.filled call hold hfresh hreturned hout
    · rw [Store.mem_observe hstep hnow] at hfresh hreturned hout ⊢
      cases hclaim : claimPendingMessages platform batchSize maxRetries op.2 db with
      | error error =>
          rw [hclaim] at hreturned
          cases hreturned
      | ok result =>
          rcases result with ⟨records, final⟩
          rw [hclaim] at hout
          rcases mem_newIds.mp hfresh with ⟨row, hrow, hnew⟩
          rcases claim_serves_older hclaim hrow hnew hout with ⟨hlength, holder⟩
          have hnodup := (claimPendingMessages_eq_ok hclaim).2.2.1
          rw [← hlength, ← List.toFinset_card_of_nodup hnodup]
          apply Finset.card_le_card
          intro other hother
          rcases holder other (List.mem_toFinset.mp hother) with ⟨hless, hthere⟩
          have hahead : other ∈ ahead start id :=
            mem_ahead.mpr ⟨h.old other (by omega) hthere, hless⟩
          exact Finset.mem_filter.mpr ⟨hahead, List.mem_toFinset.mp hother⟩

/-- Within the limits of SQLite a claim raises no exception. -/
theorem claim_isOk (hbatch : bindableInt batchSize = true)
    (hretries : bindableInt maxRetries = true)
    (hvariables : batchSize.toNat + 2 ≤ platform.maxVariables) :
    (claimPendingMessages platform batchSize maxRetries now db).isOk = true := by
  have hlength : (pendingIds batchSize maxRetries db).length ≤ batchSize.toNat := by
    unfold pendingIds
    rw [List.length_map]
    exact List.length_take_le _ _
  unfold claimPendingMessages
  split
  · rfl
  · rw [if_neg (by simp [hbatch, hretries])]
    simp only
    split
    · rfl
    · rw [if_neg (by omega)]
      rfl

end

/-! ## Whole runs -/

/--
Bounded attempts and no starvation: a row is claimed at most `max 1 R` times, so a
new row with `k` rows ahead of it is returned after `k * max 1 R / b + 1` claims made
while it is NEW, not counting claims that raise.
-/
theorem claims_bounded {platform : Platform} {batchSize maxRetries : Int}
    (hbatch : 1 ≤ batchSize) {before after : List (Job × Datetime)} {m t : Database}
    (hbefore : (storeSystem platform batchSize maxRetries).exec
      (storeSystem platform batchSize maxRetries).init before = some m)
    (hafter : (storeSystem platform batchSize maxRetries).exec m after = some t) :
    (∀ id, returns ((storeSystem platform batchSize maxRetries).trace
      (storeSystem platform batchSize maxRetries).init (before ++ after)) id ≤
        max 1 maxRetries.toNat) ∧
    (∀ id row, m.message id = some row → row.status = .new →
      (m.mqttMessages.select fun older => older.id < id).length *
          max 1 maxRetries.toNat / batchSize.toNat + 1 ≤
        answeredWhileNew ((storeSystem platform batchSize maxRetries).trace m after) id →
      0 < returns ((storeSystem platform batchSize maxRetries).trace m after) id) ∧
    (bindableInt batchSize = true → bindableInt maxRetries = true →
      batchSize.toNat + 2 ≤ platform.maxVariables →
      ∀ call ∈ (storeSystem platform batchSize maxRetries).trace m after,
        call.returned.isSome = true) := by
  have hrun := (storeSystem platform batchSize maxRetries).exec_append_eq_some.mpr
    ⟨m, hbefore, hafter⟩
  have hbounded : ∀ id, returns ((storeSystem platform batchSize maxRetries).trace
      (storeSystem platform batchSize maxRetries).init (before ++ after)) id ≤
        max 1 maxRetries.toNat :=
    fun id => (store_claimsPaid ⟨before ++ after, hrun, rfl⟩ id).bounded
  refine ⟨hbounded, ?_, ?_⟩
  · intro id row hrow hnew henough
    have hqueued : Queued m id batchSize
        ((storeSystem platform batchSize maxRetries).trace m after) t := by
      refine (storeSystem platform batchSize maxRetries).trace_invariant (s := m)
        (I := Queued m id batchSize) ⟨Nat.le_refl _, fun _ _ h => h, by simp⟩ ?_
        ⟨after, hafter, rfl⟩
      intro _ _ _ _ _ h hstep
      exact h.step (message_le_seq hrow) hstep
    by_contra hnever
    have hout : ∀ call ∈ (storeSystem platform batchSize maxRetries).trace m after,
        id ∉ call.served := by
      intro call hcall hserved
      exact hnever ((timesServed_pos ClaimCall.served).mpr ⟨call, hcall, hserved⟩)
    have hbound : ∀ other ∈ ahead m id, timesServed ClaimCall.served
        ((storeSystem platform batchSize maxRetries).trace m after) other ≤
          max 1 maxRetries.toNat := by
      intro other _
      have htotal := hbounded other
      rw [(storeSystem platform batchSize maxRetries).trace_append after hbefore,
        returns_append] at htotal
      exact Nat.le_trans (Nat.le_add_left _ _) htotal
    have hfull : ∀ call ∈ (storeSystem platform batchSize maxRetries).trace m after,
        (call.fresh.contains id && call.returned.isSome) = true → batchSize.toNat ≤
          ((ahead m id).filter fun other => other ∈ call.served).card := by
      intro call hcall hcounted
      simp only [Bool.and_eq_true, List.contains_iff_mem] at hcounted
      exact hqueued.filled call hcall hcounted.1 hcounted.2 (hout call hcall)
    have hcalls := calls_bounded ClaimCall.served (by omega) hbound hfull
    rw [card_ahead] at hcalls
    unfold answeredWhileNew at henough
    omega
  · intro hsize hretries hvariables call hcall
    rcases (storeSystem platform batchSize maxRetries).mem_trace hafter hcall with
      ⟨_, op, _, db, db', _, _, hstep, hshown⟩
    rw [Store.mem_observe hstep hshown, Option.isSome_map]
    have hok : (claimPendingMessages platform batchSize maxRetries op.2 db).isOk = true :=
      claim_isOk hsize hretries hvariables
    cases hclaim : claimPendingMessages platform batchSize maxRetries op.2 db with
    | ok result => rfl
    | error error =>
        rw [hclaim] at hok
        cases hok

/-- A batch size that SQLite cannot bind: every claim raises, and the row waits. -/
theorem new_row_never_returned : ¬ ∀ (batchSize maxRetries : Int), 1 ≤ batchSize →
    ∀ (before after : List (Job × Datetime)) (m t : Database),
      (storeSystem samplePlatform batchSize maxRetries).exec
        (storeSystem samplePlatform batchSize maxRetries).init before = some m →
      (storeSystem samplePlatform batchSize maxRetries).exec m after = some t →
      ∀ id row, m.message id = some row → row.status = .new →
        (m.mqttMessages.select fun older => older.id < id).length *
            max 1 maxRetries.toNat / batchSize.toNat + 1 ≤
          callsWhileNew ((storeSystem samplePlatform batchSize maxRetries).trace m after) id →
        0 < returns ((storeSystem samplePlatform batchSize maxRetries).trace m after) id := by
  intro hclaim
  have hrun : (((storeSystem samplePlatform (2 ^ 63) 3).exec
      (storeSystem samplePlatform (2 ^ 63) 3).init [(.save sampleMessage, noon)]).bind
        fun m => ((storeSystem samplePlatform (2 ^ 63) 3).exec m
          [(.claim (2 ^ 63) 3, noon)]).map fun _ =>
            ((m.message 1).map MessageRecord.status,
              (m.mqttMessages.select fun older => older.id < 1).length,
              callsWhileNew ((storeSystem samplePlatform (2 ^ 63) 3).trace m
                [(.claim (2 ^ 63) 3, noon)]) 1,
              returns ((storeSystem samplePlatform (2 ^ 63) 3).trace m
                [(.claim (2 ^ 63) 3, noon)]) 1)) =
      some (some .new, 0, 1, 0) := by decide +kernel
  rcases Option.bind_eq_some_iff.mp hrun with ⟨m, hm, hthen⟩
  rcases Option.map_eq_some_iff.mp hthen with ⟨t, ht, hvalues⟩
  simp only [Prod.mk.injEq, Option.map_eq_some_iff] at hvalues
  rcases hvalues with ⟨⟨row, hrow, hnew⟩, hahead, hcalls, hreturns⟩
  have hreturned := hclaim (2 ^ 63) 3 (by decide) _ _ m t hm ht 1 row hrow hnew
    (by rw [hahead, hcalls]; decide)
  omega

def nextMessage : IncomingMessage := { sampleMessage with rawPayload := nextPayload }

def sampleFailure : Failure := ⟨str "refused", formatTimestamp noon, none, true, 3⟩

/-- The older of two messages is claimed and fails three times. -/
def failsThrice : List (Job × Datetime) :=
  [(.claim 1 3, noon), (.fail 1 sampleFailure, noon), (.claim 1 3, noon),
    (.fail 1 sampleFailure, noon), (.claim 1 3, noon), (.fail 1 sampleFailure, noon),
    (.claim 1 3, noon)]

theorem claims_bounded_sample :
    ∃ m t, (storeSystem samplePlatform 1 3).exec (storeSystem samplePlatform 1 3).init
        [(.save sampleMessage, noon), (.save nextMessage, noon)] = some m ∧
      (storeSystem samplePlatform 1 3).exec m failsThrice = some t ∧
      answeredWhileNew ((storeSystem samplePlatform 1 3).trace m failsThrice) 2 = 4 ∧
      0 < returns ((storeSystem samplePlatform 1 3).trace m failsThrice) 2 := by
  have hrun : (((storeSystem samplePlatform 1 3).exec (storeSystem samplePlatform 1 3).init
      [(.save sampleMessage, noon), (.save nextMessage, noon)]).bind fun m =>
        ((storeSystem samplePlatform 1 3).exec m failsThrice).map fun _ =>
          ((m.message 2).map MessageRecord.status,
            (m.mqttMessages.select fun older => older.id < 2).length,
            answeredWhileNew ((storeSystem samplePlatform 1 3).trace m failsThrice) 2)) =
      some (some .new, 1, 4) := by decide +kernel
  rcases Option.bind_eq_some_iff.mp hrun with ⟨m, hm, hthen⟩
  rcases Option.map_eq_some_iff.mp hthen with ⟨t, ht, hvalues⟩
  simp only [Prod.mk.injEq, Option.map_eq_some_iff] at hvalues
  rcases hvalues with ⟨⟨row, hrow, hnew⟩, hahead, hanswered⟩
  refine ⟨m, t, hm, ht, hanswered, ?_⟩
  exact (claims_bounded (by decide) hm ht).2.1 2 row hrow hnew
    (by rw [hahead, hanswered]; decide)

end EdgeBridge
