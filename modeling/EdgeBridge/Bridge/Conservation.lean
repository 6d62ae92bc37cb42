import EdgeBridge.Bridge.Serial
import EdgeBridge.Store.Counts

/-!
# No message is lost

The answers that the callers got add up to the counts of the queue.
-/

namespace EdgeBridge

open Foundation

/-! ## What the callers were told -/

def WalEvent.inserted : WalEvent → Nat
  | .ended _ _ (.ok answer) => answer.inserted
  | _ => 0

def WalEvent.completes : WalEvent → Nat
  | .ended _ (job, _) (.ok _) => job.completes
  | _ => 0

def WalEvent.deleted : WalEvent → Nat
  | .ended _ _ (.ok answer) => answer.deleted
  | _ => 0

/-- The calls of `save_message` that stored a new message. -/
def storedMessages (past : List WalEvent) : Nat := (past.map WalEvent.inserted).sum

/-- The calls of `mark_completed` that returned. -/
def completions (past : List WalEvent) : Nat := (past.map WalEvent.completes).sum

/-- The messages that the cleanups reported as deleted. -/
def deletedMessages (past : List WalEvent) : Nat := (past.map WalEvent.deleted).sum

structure Conserved (past : List WalEvent) (db : Database) : Prop where
  given : db.mqttMessages.seq = storedMessages past
  rows : db.mqttMessages.rows.length + deletedMessages past = storedMessages past
  completed : countStatus db .completed + deletedMessages past = completions past
  summary : summaryTotal db = completions past

section

variable {platform : Platform} {past : List WalEvent} {db after : Database}

theorem conserved_empty : Conserved [] Database.empty := ⟨rfl, rfl, rfl, rfl⟩

/-- Events that tell of nothing. -/
theorem Conserved.quiet {events : List WalEvent} (h : Conserved past db)
    (hquiet : ∀ event ∈ events,
      event.inserted = 0 ∧ event.completes = 0 ∧ event.deleted = 0) :
    Conserved (past ++ events) db := by
  have hzero : ∀ f : WalEvent → Nat, (∀ event ∈ events, f event = 0) →
      ((past ++ events).map f).sum = (past.map f).sum := by
    intro f hf
    rw [List.map_append, List.sum_append, List.map_congr_left hf]
    simp
  obtain ⟨hgiven, hrows, hcompleted, hsummary⟩ := h
  unfold storedMessages completions deletedMessages at *
  rw [← hzero _ fun event hevent => (hquiet event hevent).1] at hgiven hrows
  rw [← hzero _ fun event hevent => (hquiet event hevent).2.1] at hcompleted hsummary
  rw [← hzero _ fun event hevent => (hquiet event hevent).2.2] at hrows hcompleted
  exact ⟨hgiven, hrows, hcompleted, hsummary⟩

/-- A transaction that returned. -/
theorem Conserved.ended {thread : Thread} {job : Job} {now : Datetime} {answer : Answer}
    (h : Conserved past db) (hflow : Flow job answer db after)
    (hsummary : summaryTotal after = summaryTotal db + job.completes) :
    Conserved (past ++ [.ended thread (job, now) (.ok answer)]) after := by
  obtain ⟨hgiven, hrows, hcompleted, htotal⟩ := h
  obtain ⟨hseq, hlength, hcount⟩ := hflow
  unfold storedMessages completions deletedMessages at *
  refine ⟨?_, ?_, ?_, ?_⟩ <;>
    simp only [storedMessages, completions, deletedMessages, List.map_append, List.sum_append,
      List.map_cons, List.map_nil, List.sum_cons, List.sum_nil, WalEvent.inserted,
      WalEvent.completes, WalEvent.deleted] <;>
    omega

/-- A completion adds one to the summaries, and nothing else adds to them. -/
theorem Accounted.summaryTotal_run {past : List Completed} {s : Ledger} {job : Job}
    {now : Datetime} {answer : Answer} (h : Accounted past s)
    (hallowed : Ledger.allowed s.held job = true)
    (hrun : job.run platform now s.db = .ok (answer, after)) :
    summaryTotal after = summaryTotal s.db + job.completes := by
  cases job with
  | complete id arguments =>
      obtain ⟨final, hcomplete, heq⟩ := map_eq_ok.mp hrun
      cases heq
      obtain ⟨key, -, hnext⟩ := h.run_complete hallowed hcomplete
      have htotal := hnext.total
      rw [List.length_append, ← h.total] at htotal
      exact htotal
  | _ =>
      have htotal := (h.run_quiet (by rintro _ _ ⟨⟩) hallowed hrun).total
      rw [← h.total] at htotal
      exact htotal

/-- An answer before the first write tells of no change. -/
theorem earlyAnswer_quiet {job : Job} {now : Datetime} {result : Except PyError Answer}
    {thread : Thread} (h : job.earlyAnswer platform now db = some result) :
    (WalEvent.ended thread (job, now) result).inserted = 0 ∧
      (WalEvent.ended thread (job, now) result).completes = 0 ∧
      (WalEvent.ended thread (job, now) result).deleted = 0 := by
  cases job with
  | save message =>
      simp only [Job.earlyAnswer] at h
      split at h
      · cases h
        exact ⟨rfl, rfl, rfl⟩
      · obtain ⟨existing, hexisting, rfl⟩ := Option.map_eq_some_iff.mp h
        obtain ⟨row, -, rfl⟩ := Option.map_eq_some_iff.mp hexisting
        exact ⟨rfl, rfl, rfl⟩
  | claim | complete | reconcile =>
      obtain ⟨-, heq⟩ := Option.ite_none_right_eq_some.mp h
      cases heq
      exact ⟨rfl, rfl, rfl⟩
  | cleanup retentionDays batchSize =>
      simp only [Job.earlyAnswer] at h
      split at h
      · cases h
        exact ⟨rfl, rfl, rfl⟩
      · split at h
        · cases h
          exact ⟨rfl, rfl, rfl⟩
        · split at h
          · cases h
            exact ⟨rfl, rfl, rfl⟩
          · cases h
  | fail | recover | replay | audit => cases h

theorem conserved_step {s t : Bridge} {label : Label} {events : List Completed}
    (haccounted : Accounted events s.ledger) (h : Conserved past s.wal.data)
    (hstep : s.step platform label = some t) :
    Conserved (past ++ s.walEvents platform label) t.wal.data := by
  have hsame : s.walEvents platform label = [] → t.wal.data = s.wal.data →
      Conserved (past ++ s.walEvents platform label) t.wal.data := by
    intro hevents hdata
    rw [hevents, hdata, List.append_nil]
    exact h
  cases Bridge.step_move hstep with
  | began thread now job hjob hidle hearly hreads =>
      apply h.quiet
      simp only [Bridge.walEvents, hjob, hearly]
      intro event hevent
      cases List.mem_singleton.mp hevent
      exact ⟨rfl, rfl, rfl⟩
  | answered thread now job result hjob hidle hearly =>
      rw [resume_wal]
      apply h.quiet
      simp only [Bridge.walEvents, hjob, hearly]
      intro event hevent
      rcases List.mem_cons.mp hevent with rfl | hended
      · exact ⟨rfl, rfl, rfl⟩
      · obtain rfl := List.mem_singleton.mp hended
        exact earlyAnswer_quiet hearly
  | locked thread job wal hjob hfirst hgranted => exact hsame rfl (Wal.lock_granted hgranted).1
  | refused => exact hsame rfl (by rw [resume_wal]; rfl)
  | gaveUp => exact hsame rfl (by rw [resume_wal])
  | committed thread now job answer db hjob hwriting hrun =>
      have hallowed := (Move.ledger_commit hjob hrun).1
      have hdata : (if answer.wrote then s.wal.commit thread db
          else s.wal.close thread).data = db := by
        cases hwrote : answer.wrote with
        | true => rfl
        | false => exact (Job.run_of_not_wrote hrun hwrote).symm
      have hevents : s.walEvents platform (.commit thread now) =
          [.ended thread (job, now) (.ok answer)] := by
        simp [Bridge.walEvents, hjob, Job.result, hrun, Except.map]
      rw [resume_wal, hevents, hdata]
      exact h.ended (Job.flow haccounted hallowed hrun)
        (haccounted.summaryTotal_run hallowed hrun)
  | failed thread now job error hjob hwriting hrun =>
      rw [resume_wal]
      apply h.quiet
      simp only [Bridge.walEvents, hjob, Job.result, hrun]
      intro event hevent
      cases List.mem_singleton.mp hevent
      exact ⟨rfl, rfl, rfl⟩
  | worker _ _ hlabel | mqtt _ _ hlabel | lifecycle _ _ hlabel =>
      exact hsame (walEvents_local hlabel) rfl
  | watch | audit | stopped | startedAgain | restarted => exact hsame rfl rfl

/--
In every state that the threads reach the counts that `get_queue_counts` returns are what
the callers were told: each stored message is counted once, under the status it has or
among the completions, the completed rows are the completions less the deletions, and the
daily summaries count the completions.
-/
theorem queue_conserved {config : Config} {s : Bridge}
    (ran : (walSystem platform config).Ran (.start config .empty) past s) :
    queueCount s.wal.data .new + queueCount s.wal.data .processing +
        queueCount s.wal.data .failed + completions past = storedMessages past ∧
      queueCount s.wal.data .completed + deletedMessages past = completions past ∧
      summaryTotal s.wal.data = completions past ∧
      s.wal.data.mqttMessages.seq = storedMessages past := by
  have hconserved : Conserved past s.wal.data := by
    refine (walSystem platform config).trace_invariant
      (I := fun past s => Conserved past s.wal.data) conserved_empty ?_ ran
    rintro past m label t ⟨labels, run, -⟩ h hstep
    rw [(walSystem platform config).exec_congr (T := bridgeSystem platform config) rfl] at run
    exact conserved_step (bridge_accounted ⟨labels, run, rfl⟩) h hstep
  have htotal := countStatus_total s.wal.data
  obtain ⟨hgiven, hrows, hcompleted, hsummary⟩ := hconserved
  simp only [queueCount_eq]
  refine ⟨?_, hcompleted, hsummary, hgiven⟩
  omega

end

/-- A message is completed and deleted, and another one is stored. -/
def deletedThenStored : List Label :=
  completionRecorded ++
    [.cleanUp 0 10, .begin .lifecycle afterNoon, .lock .lifecycle,
      .commit .lifecycle afterNoon] ++
    receives nextPayload

theorem queue_conserved_sample :
    ∃ s, (walSystem samplePlatform sampleConfig).exec (.start sampleConfig .empty)
        deletedThenStored = some s ∧
      storedMessages ((walSystem samplePlatform sampleConfig).trace
        (.start sampleConfig .empty) deletedThenStored) = 2 ∧
      deletedMessages ((walSystem samplePlatform sampleConfig).trace
        (.start sampleConfig .empty) deletedThenStored) = 1 ∧
      summaryTotal s.wal.data = 1 ∧ queueCount s.wal.data .completed = 0 ∧
      queueCount s.wal.data .new + queueCount s.wal.data .processing +
        queueCount s.wal.data .failed = 1 := by
  have hrun : ((walSystem samplePlatform sampleConfig).exec (.start sampleConfig .empty)
      deletedThenStored).isSome = true := by decide +kernel
  have hstored : storedMessages ((walSystem samplePlatform sampleConfig).trace
      (.start sampleConfig .empty) deletedThenStored) = 2 := by decide +kernel
  have hdeleted : deletedMessages ((walSystem samplePlatform sampleConfig).trace
      (.start sampleConfig .empty) deletedThenStored) = 1 := by decide +kernel
  have hcompleted : completions ((walSystem samplePlatform sampleConfig).trace
      (.start sampleConfig .empty) deletedThenStored) = 1 := by decide +kernel
  obtain ⟨s, hs⟩ := Option.isSome_iff_exists.mp hrun
  obtain ⟨hopen, hdone, hsummary, -⟩ := queue_conserved ⟨deletedThenStored, hs, rfl⟩
  rw [hstored, hcompleted] at hopen
  rw [hdeleted, hcompleted] at hdone
  rw [hcompleted] at hsummary
  exact ⟨s, hs, hstored, hdeleted, hsummary, by omega, by omega⟩

end EdgeBridge
