import EdgeBridge.Bridge.Threads
import EdgeBridge.Store.Cleanup

/-!
# What an answer says of the database

A transaction that ends before its first write gives the answer of a whole one, and
one that wrote nothing leaves the database as it is.
-/

namespace EdgeBridge

open Foundation

def Job.result (platform : Platform) (now : Datetime) (db : Database) (job : Job) :
    Except PyError Answer :=
  (job.run platform now db).map Prod.fst

section

variable {platform : Platform} {now : Datetime} {db after : Database} {job : Job}
  {answer : Answer}

/-- The rounds that changed something are counted as scanned and not as skipped. -/
theorem reconcileRows_skipped (platform : Platform) (machineId : Text) (now : Datetime)
    (rows : List MessageRecord)
    (state : ReconciliationResult × Database) (db : Database)
    (h : state.1.skippedRows ≤ state.1.scannedRows ∧
      (state.1.skippedRows = state.1.scannedRows → state.2 = db)) :
    (rows.foldl (reconcileRow platform machineId now) state).1.skippedRows ≤
        (rows.foldl (reconcileRow platform machineId now) state).1.scannedRows ∧
      ((rows.foldl (reconcileRow platform machineId now) state).1.skippedRows =
          (rows.foldl (reconcileRow platform machineId now) state).1.scannedRows →
        (rows.foldl (reconcileRow platform machineId now) state).2 = db) := by
  induction rows generalizing state with
  | nil => exact h
  | cons row rows ih =>
      apply ih
      obtain ⟨hle, hsame⟩ := h
      unfold reconcileRow
      split
      · refine ⟨?_, ?_⟩
        · simp only
          omega
        · intro hall
          simp only [Nat.add_right_cancel_iff] at hall
          exact hsame hall
      · refine ⟨?_, ?_⟩
        · simp only
          omega
        · intro hall
          simp only at hall
          omega

theorem claim_of_nil {batchSize maxRetries : Int}
    (h : claimPendingMessages platform batchSize maxRetries now db = .ok ([], after)) :
    after = db := by
  unfold claimPendingMessages at h
  split at h
  · cases h
    rfl
  · split at h
    · cases h
    · simp only at h
      split at h
      · cases h
        rfl
      · split at h
        · cases h
        · rw [Except.ok.injEq, Prod.mk.injEq] at h
          obtain ⟨hnone, rfl⟩ := h
          rw [Table.update_of_none]
          refine List.filter_eq_nil_iff.mpr fun row hrow hwhich => ?_
          have hselected := List.filter_eq_nil_iff.mp hnone
            (markProcessing (formatTimestamp now) row)
            (List.mem_map.mpr ⟨row, hrow, by rw [if_pos hwhich]⟩)
          exact hselected hwhich

theorem replay_of_refused {messageHash : Text} {attempt : AckReplayAttempt}
    (h : recordAckReplayAttempt platform messageHash now db = .ok (attempt, after))
    (hrefused : attempt.allowed = false) : after = db := by
  unfold recordAckReplayAttempt at h
  split at h
  · cases h
  · obtain ⟨last, -, hbody⟩ := bind_eq_ok.mp h
    simp only at hbody
    split at hbody
    · cases hbody
      rfl
    · split at hbody
      · cases hbody
        rfl
      · cases hbody
        cases hrefused

theorem reconcile_of_skipped {machineId : Text} {limit : Int} {result : ReconciliationResult}
    (h : reconcileCompletedProductionRecords platform machineId limit now db =
      .ok (result, after)) (hskipped : result.scannedRows ≤ result.skippedRows) :
    after = db := by
  unfold reconcileCompletedProductionRecords at h
  split at h
  · cases h
    rfl
  · obtain ⟨_, -, hbody⟩ := bind_eq_ok.mp h
    rw [Except.ok.injEq] at hbody
    have hrows := reconcileRows_skipped platform machineId now
      (reconciliationRows limit db) (⟨0, 0, 0, 0⟩, db) db ⟨Nat.le_refl _, fun _ => rfl⟩
    rw [hbody] at hrows
    exact hrows.2 (Nat.le_antisymm hrows.1 hskipped)

theorem cleanup_of_zero {retentionDays batchSize : Int} {result : CleanupResult}
    (h : cleanupRawOperationalData platform retentionDays batchSize now db =
      .ok (result, after))
    (hzero : result.deletedMqttMessages + result.deletedApiCommands +
      result.deletedProductionRecords = 0) : after = db := by
  unfold cleanupRawOperationalData at h
  split at h
  · cases h
  · split at h
    · cases h
      rfl
    · obtain ⟨cutoff, -, hbody⟩ := bind_eq_ok.mp h
      simp only at hbody
      split at hbody
      · cases hbody
        rfl
      · split at hbody
        · cases hbody
          rfl
        · unfold deleteBatch at hbody
          rw [Except.ok.injEq, Prod.mk.injEq] at hbody
          obtain ⟨rfl, rfl⟩ := hbody
          simp only [Nat.add_eq_zero_iff, List.length_eq_zero_iff] at hzero
          obtain ⟨⟨hmessages, hcommands⟩, hrecords⟩ := hzero
          rw [hrecords, hcommands, hmessages]
          simp only [deleteIds_nil]

/-- A transaction that wrote nothing leaves the database as it is. -/
theorem Job.run_of_not_wrote (h : job.run platform now db = .ok (answer, after))
    (hwrote : answer.wrote = false) : after = db := by
  cases job with
  | save message =>
      obtain ⟨⟨saved, result⟩, hsave, heq⟩ := map_eq_ok.mp h
      cases heq
      obtain ⟨hsame, -⟩ | ⟨-, hinserted, -⟩ := (saveMessage_cases hsave).2
      · exact hsame
      · exact absurd (hinserted.symm.trans hwrote) (by simp)
  | claim batchSize maxRetries =>
      obtain ⟨⟨records, result⟩, hclaim, heq⟩ := map_eq_ok.mp h
      cases heq
      simp only [Answer.wrote, Bool.not_eq_false', List.isEmpty_iff] at hwrote
      exact claim_of_nil (hwrote ▸ hclaim)
  | complete id arguments =>
      obtain ⟨result, hcomplete, heq⟩ := map_eq_ok.mp h
      cases heq
      cases hwrote
  | fail id failure =>
      obtain ⟨result, hfail, heq⟩ := map_eq_ok.mp h
      cases heq
      cases hwrote
  | recover staleBefore excludeIds =>
      obtain ⟨⟨count, result⟩, hreset, heq⟩ := map_eq_ok.mp h
      cases heq
      unfold resetStaleProcessing at hreset
      split at hreset
      · cases hreset
      · cases hreset
        simp only [Answer.wrote, decide_eq_false_iff_not, Nat.not_lt, Nat.le_zero,
          List.length_eq_zero_iff] at hwrote
        rw [Table.update_of_none _ hwrote]
  | replay messageHash =>
      obtain ⟨⟨attempt, result⟩, hreplay, heq⟩ := map_eq_ok.mp h
      cases heq
      exact replay_of_refused hreplay hwrote
  | reconcile machineId limit =>
      obtain ⟨⟨result, final⟩, hreconcile, heq⟩ := map_eq_ok.mp h
      cases heq
      simp only [Answer.wrote, decide_eq_false_iff_not, Nat.not_lt] at hwrote
      exact reconcile_of_skipped hreconcile hwrote
  | cleanup retentionDays batchSize =>
      obtain ⟨⟨result, final⟩, hcleanup, heq⟩ := map_eq_ok.mp h
      cases heq
      simp only [Answer.wrote, decide_eq_false_iff_not, Nat.not_lt, Nat.le_zero] at hwrote
      exact cleanup_of_zero hcleanup hwrote
  | audit write =>
      obtain ⟨result, hwrite, heq⟩ := map_eq_ok.mp h
      cases heq
      cases hwrote

/-- A transaction that ends before its first write gives the answer of a whole one. -/
theorem Job.run_of_earlyAnswer {result : Except PyError Answer}
    (hlimit : ∀ machineId limit, job = .reconcile machineId limit → bindableInt limit = true)
    (h : job.earlyAnswer platform now db = some result) :
    job.run platform now db = result.map fun answer => (answer, db) := by
  cases job with
  | save message =>
      simp only [Job.earlyAnswer] at h
      simp only [Job.run, saveMessage]
      cases hhash : generateMessageHash platform message.topic message.rawPayload with
      | error error =>
          rw [hhash] at h
          cases h
          rfl
      | ok messageHash =>
          rw [hhash] at h
          obtain ⟨existing, hexisting, rfl⟩ := Option.map_eq_some_iff.mp h
          simp only [bind, Except.bind, hexisting]
          rfl
  | claim batchSize maxRetries =>
      obtain ⟨hsize, heq⟩ := Option.ite_none_right_eq_some.mp h
      cases heq
      simp only [Job.run, claimPendingMessages, if_pos hsize]
      rfl
  | complete id arguments =>
      obtain ⟨hnone, heq⟩ := Option.ite_none_right_eq_some.mp h
      cases heq
      simp only [Job.run, markCompleted, Option.isNone_iff_eq_none.mp hnone]
      rfl
  | reconcile machineId limit =>
      obtain ⟨hempty, heq⟩ := Option.ite_none_right_eq_some.mp h
      cases heq
      simp only [Job.run, reconcileCompletedProductionRecords]
      split
      · rfl
      · next hpositive =>
        simp only [hpositive, decide_false, Bool.false_or, List.isEmpty_iff] at hempty
        have hbound : bindAll [.int limit] = .ok () := by
          simp [bindAll, Binding.defect, bindableOptInt, hlimit machineId limit rfl]
        rw [hempty, hbound]
        rfl
  | cleanup retentionDays batchSize =>
      simp only [Job.earlyAnswer] at h
      simp only [Job.run, cleanupRawOperationalData]
      split at h
      · next hnegative =>
        cases h
        rw [if_pos hnegative]
        rfl
      · next hdays =>
        split at h
        · next hsize =>
          cases h
          rw [if_neg hdays, if_pos hsize]
          rfl
        · next hsize =>
          split at h
          · next error hcutoff =>
            cases h
            rw [if_neg hdays, if_neg hsize, hcutoff]
            rfl
          · cases h
  | fail | recover | replay | audit => cases h

end

end EdgeBridge
