import EdgeBridge.Bridge.Batch
import EdgeBridge.Bridge.Serial
import EdgeBridge.Foundation.Leads

/-!
# The worker can go on

Whatever the threads are in the middle of, somebody commits, the worker gets the lock,
and a few of its own steps lead it to the end of its pass.  Nothing is restarted on the
way, and the rows that wait outside of its hands go on waiting.
-/

namespace EdgeBridge

open Foundation

/-- A label of the running process: nobody stops, starts or restarts anything. -/
def Label.goesOn : Label → Bool
  | .stop | .startAgain | .restart _ => false
  | _ => true

/-- Such a label, with no other clock reading than `now`. -/
def Label.GoesOnAt (now : Datetime) : Label → Prop
  | .begin _ reading | .commit _ reading | .next reading | .respond reading
  | .watch reading => reading = now
  | .stop | .startAgain | .restart _ => False
  | _ => True

theorem Label.GoesOnAt.goesOn {now : Datetime} {label : Label} (h : label.GoesOnAt now) :
    label.goesOn = true := by
  cases label with
  | stop | startAgain | restart config => cases h
  | _ => rfl

section

variable {platform : Platform} {config : Config} {s t : Bridge} {now : Datetime}

/-- Some steps of the running process lead from `s` to `t`, all of them at `now`. -/
def Bridge.Leads (platform : Platform) (now : Datetime) (s t : Bridge) : Prop :=
  (bridgeSystem platform s.config).Leads (Label.GoesOnAt now) s t

theorem leads_congr {allowed : Label → Prop} {first second : Config} :
    (bridgeSystem platform first).Leads allowed s t ↔
      (bridgeSystem platform second).Leads allowed s t := by
  unfold System.Leads
  simp only [(bridgeSystem platform first).exec_congr (T := bridgeSystem platform second) rfl]

theorem Bridge.Leads.refl (s : Bridge) : s.Leads platform now s := System.Leads.refl s

theorem Bridge.Leads.single (label : Label) (h : s.step platform label = some t)
    (hlabel : label.GoesOnAt now) : s.Leads platform now t :=
  System.Leads.single (S := bridgeSystem platform s.config) h hlabel

theorem Bridge.Leads.trans {m : Bridge} (first : s.Leads platform now m)
    (second : m.Leads platform now t) : s.Leads platform now t :=
  System.Leads.trans first (leads_congr.mp second)

/-! ## The states of a run -/

/-- A state that the threads reach, whatever the first settings were. -/
def Bridge.Reached (platform : Platform) (s : Bridge) : Prop :=
  ∃ config past, (bridgeSystem platform config).Ran (.start config .empty) past s

theorem Bridge.Reached.leads (h : s.Reached platform) (hleads : s.Leads platform now t) :
    t.Reached platform := by
  obtain ⟨config, past, ls, run, -⟩ := h
  have hsame : (bridgeSystem platform config).Leads (Label.GoesOnAt now) s t :=
    leads_congr.mp hleads
  obtain ⟨ms, -, hrest⟩ := hsame
  exact ⟨config, _, ls ++ ms, (bridgeSystem platform config).exec_append_eq_some.mpr
    ⟨s, run, hrest⟩, rfl⟩

theorem Bridge.Reached.opened (h : s.Reached platform) :
    ∃ past, ∀ thread, Opened past s thread := by
  obtain ⟨config, past, ls, run, -⟩ := h
  rw [(bridgeSystem platform config).exec_congr (T := walSystem platform config) rfl] at run
  have hinvariant := (walSystem platform config).trace_invariant
    (I := fun past s => s.wal.Consistent ∧ ∀ thread, Opened past s thread)
    ⟨Wal.consistent_start _, fun thread => opened_of_idle rfl⟩
    (fun _ _ _ _ _ hm hstep =>
      ⟨walConsistent_step hm.1 hstep, opened_step hm.1 hm.2 hstep⟩) ⟨ls, run, rfl⟩
  exact ⟨_, hinvariant.2⟩

theorem Bridge.Reached.consistent (h : s.Reached platform) : s.wal.Consistent := by
  obtain ⟨config, past, ls, run, -⟩ := h
  have hreachable : (bridgeSystem platform config).Reachable s := ⟨ls, run⟩
  exact bridge_walConsistent hreachable

theorem Bridge.Reached.idle (h : s.Reached platform) {thread : Thread}
    (hjob : s.job thread = none) : s.wal.transaction thread = .idle := by
  obtain ⟨past, hopened⟩ := h.opened
  by_contra hopen
  have hsome := job_of_open (hopened thread) hopen
  rw [hjob] at hsome
  cases hsome

/-! ## Transactions -/

theorem job_wal (wal : Wal Database Thread) (thread : Thread) :
    ({ s with wal := wal } : Bridge).job thread = s.job thread := by
  cases thread <;> rfl

/-- Nobody holds the write lock, or the thread itself does. -/
def Bridge.unblocked (s : Bridge) (thread : Thread) : Prop :=
  s.wal.writer = none ∨ s.wal.writer = some thread

/-- The state after a transaction, with the lock free again. -/
structure Ended (s : Bridge) (thread : Thread) (db : Database)
    (result : Except PyError Answer) (t : Bridge) : Prop where
  data : t.wal.data = db
  writer : t.wal.writer = none
  resumed : ∃ wal, t = ({ s with wal := wal } : Bridge).resume thread result

variable {thread : Thread} {job : Job} {wal : Wal Database Thread}

theorem Ended.of_wal {db : Database} {result : Except PyError Answer}
    (h : Ended { s with wal := wal } thread db result t) : Ended s thread db result t :=
  ⟨h.data, h.writer, h.resumed⟩

theorem writer_close (hwriting : s.wal.writer = some thread) :
    (s.wal.close thread).writer = none := by
  simp [Wal.close, hwriting]

theorem after_of_ok {now : Datetime} {db after : Database} {answer : Answer}
    (h : job.run platform now db = .ok (answer, after)) :
    db.after platform (job, now) = after := by
  simp only [Database.after, h]

/-- A writing transaction can be committed at any time. -/
theorem commit_leads (hreached : s.Reached platform) (hjob : s.job thread = some job)
    (hwriting : s.wal.transaction thread = .writing) (now : Datetime) :
    ∃ t, s.Leads platform now t ∧ Ended s thread (s.wal.data.after platform (job, now))
      (job.result platform now s.wal.data) t := by
  have hwriter := (hreached.consistent.writer_iff thread).mp hwriting
  cases hrun : job.run platform now s.wal.data with
  | ok result =>
      obtain ⟨answer, after⟩ := result
      have hstep : s.step platform (.commit thread now) =
          some (({ s with wal := if answer.wrote then s.wal.commit thread after
            else s.wal.close thread } : Bridge).resume thread (.ok answer)) := by
        simp only [Bridge.step, Label.thread, hjob, Bridge.transactionStep, hwriting, hrun]
      refine ⟨_, .single _ hstep rfl, ?_, ?_, if answer.wrote then s.wal.commit thread after
        else s.wal.close thread, ?_⟩
      · rw [resume_wal, after_of_ok hrun]
        cases hwrote : answer.wrote with
        | true => rfl
        | false => exact (Job.run_of_not_wrote hrun hwrote).symm
      · rw [resume_wal]
        cases answer.wrote with
        | true => rfl
        | false => exact writer_close hwriter
      · simp only [Job.result, hrun]
        rfl
  | error error =>
      have hstep : s.step platform (.commit thread now) =
          some (({ s with wal := s.wal.close thread } : Bridge).resume thread
            (.error error)) := by
        simp only [Bridge.step, Label.thread, hjob, Bridge.transactionStep, hwriting, hrun]
      refine ⟨_, .single _ hstep rfl, ?_, ?_, s.wal.close thread, ?_⟩
      · simp only [resume_wal, Database.after, hrun]
        rfl
      · rw [resume_wal]
        exact writer_close hwriter
      · simp only [Job.result, hrun]
        rfl

/-- With the lock granted the transaction goes on to its commit. -/
theorem granted_leads (hreached : s.Reached platform) (hjob : s.job thread = some job)
    (hstep : s.step platform (.lock thread) = some { s with wal := wal })
    (hgranted : s.wal.lock thread = .granted wal) (now : Datetime) :
    ∃ t, s.Leads platform now t ∧ Ended s thread (s.wal.data.after platform (job, now))
      (job.result platform now s.wal.data) t := by
  obtain ⟨hdata, -, hwriting, -⟩ := Wal.lock_granted hgranted
  have hlocked : s.Leads platform now { s with wal := wal } := .single _ hstep True.intro
  obtain ⟨t, hleads, hended⟩ :=
    commit_leads (hreached.leads hlocked) ((job_wal wal thread).trans hjob) hwriting now
  dsimp only at hended
  rw [hdata] at hended
  exact ⟨t, hlocked.trans hleads, hended.of_wal⟩

/-- A transaction that has not begun runs from its first statement to its end. -/
theorem fresh_leads (thread : Thread) (job : Job) (now : Datetime)
    (hreached : s.Reached platform) (hjob : s.job thread = some job)
    (hidle : s.wal.transaction thread = .idle) (hfree : s.wal.writer = none)
    (hearly : job.readsFirst = true → job.earlyAnswer platform now s.wal.data = none) :
    ∃ t, s.Leads platform now t ∧ Ended s thread (s.wal.data.after platform (job, now))
      (job.result platform now s.wal.data) t := by
  cases hreads : job.readsFirst with
  | false =>
      have hgranted : s.wal.lock thread = .granted { s.wal with
          writer := some thread
          transaction := s.wal.setTransaction thread .writing } := by
        simp [Wal.lock, hidle, hfree]
      refine granted_leads hreached hjob ?_ hgranted now
      simp [Bridge.step, Label.thread, hjob, Bridge.transactionStep, hidle, hreads, hgranted]
  | true =>
      have hread : s.Leads platform now { s with wal := s.wal.read thread } := by
        refine .single (.begin thread now) ?_ rfl
        simp [Bridge.step, Label.thread, hjob, Bridge.transactionStep, hidle, hreads,
          hearly hreads]
      have hreading : (s.wal.read thread).transaction thread =
          .reading s.wal.version s.wal.data := by simp
      have hcurrent : ((s.wal.read thread).writer.isNone &&
          s.wal.version == (s.wal.read thread).version) = true := by
        simp [Wal.read, hfree]
      have hgranted := Wal.lock_of_current hreading hcurrent
      have hjobRead := (job_wal (s := s) (s.wal.read thread) thread).trans hjob
      obtain ⟨t, hleads, hended⟩ := granted_leads (hreached.leads hread) hjobRead (by
        simp [Bridge.step, Label.thread, hjobRead, Bridge.transactionStep, hgranted])
        hgranted now
      exact ⟨t, hread.trans hleads, hended.of_wal⟩

/-- How a transaction ends that may have begun long ago. -/
inductive Finished (platform : Platform) (s : Bridge) (job : Job) (db : Database) :
    Except PyError Answer → Prop
  | raised (error : PyError) : db = s.wal.data → Finished platform s job db (.error error)
  | early (now : Datetime) (result : Except PyError Answer) :
      job.earlyAnswer platform now s.wal.data = some result → db = s.wal.data →
      Finished platform s job db result
  | ran (now : Datetime) (answer : Answer) :
      job.run platform now s.wal.data = .ok (answer, db) →
      Finished platform s job db (.ok answer)

theorem Ended.finished {now : Datetime}
    (h : Ended s thread (s.wal.data.after platform (job, now))
      (job.result platform now s.wal.data) t) :
    Finished platform s job t.wal.data (job.result platform now s.wal.data) := by
  rw [h.data]
  cases hrun : job.run platform now s.wal.data with
  | ok result =>
      simp only [Job.result, Database.after, hrun]
      exact .ran now result.1 hrun
  | error error =>
      simp only [Job.result, Database.after, hrun]
      exact .raised error rfl

/-- Whatever it is in the middle of, a thread ends its transaction. -/
theorem transact_leads (hreached : s.Reached platform) (hjob : s.job thread = some job)
    (hfree : s.unblocked thread) (now : Datetime) :
    ∃ t result, s.Leads platform now t ∧ Ended s thread t.wal.data result t ∧
      Finished platform s job t.wal.data result := by
  have hnone : s.wal.transaction thread ≠ .writing → s.wal.writer = none := by
    intro hreading
    rcases hfree with hnone | hown
    · exact hnone
    · exact absurd ((hreached.consistent.writer_iff thread).mpr hown) hreading
  have hrun : ∀ {t : Bridge}, s.Leads platform now t →
      Ended s thread (s.wal.data.after platform (job, now))
        (job.result platform now s.wal.data) t →
      ∃ t result, s.Leads platform now t ∧ Ended s thread t.wal.data result t ∧
        Finished platform s job t.wal.data result := by
    intro t hleads hended
    exact ⟨t, _, hleads, ⟨rfl, hended.writer, hended.resumed⟩, hended.finished⟩
  cases htransaction : s.wal.transaction thread with
  | writing =>
      obtain ⟨t, hleads, hended⟩ := commit_leads hreached hjob htransaction now
      exact hrun hleads hended
  | idle =>
      have hwriter := hnone (by rw [htransaction]; rintro ⟨⟩)
      cases hearly : job.earlyAnswer platform now s.wal.data with
      | none =>
          obtain ⟨t, hleads, hended⟩ :=
            fresh_leads thread job now hreached hjob htransaction hwriter fun _ => hearly
          exact hrun hleads hended
      | some result =>
          refine ⟨s.resume thread result, result, .single (.begin thread now) ?_ rfl,
            ⟨rfl, ?_, s.wal, rfl⟩, .early now result hearly ?_⟩
          · simp [Bridge.step, Label.thread, hjob, Bridge.transactionStep, htransaction, hearly]
          · rw [resume_wal]
            exact hwriter
          · rw [resume_wal]
  | reading version snapshot =>
      have hwriter := hnone (by rw [htransaction]; rintro ⟨⟩)
      cases hlock : s.wal.lock thread with
      | granted wal =>
          obtain ⟨t, hleads, hended⟩ := granted_leads hreached hjob (by
            simp [Bridge.step, Label.thread, hjob, Bridge.transactionStep, htransaction, hlock])
            hlock now
          exact hrun hleads hended
      | busy | blocked =>
          refine ⟨({ s with wal := s.wal.close thread } : Bridge).resume thread
            (.error databaseIsLocked), .error databaseIsLocked,
            .single (.lock thread) ?_ True.intro, ⟨rfl, ?_, s.wal.close thread, rfl⟩,
            .raised _ ?_⟩
          · simp [Bridge.step, Label.thread, hjob, Bridge.transactionStep, htransaction, hlock]
          · rw [resume_wal]
            simp [Wal.close, hwriter]
          · rw [resume_wal]
            rfl

/-! ## Rows that wait -/

/-- The row can be claimed, and its payload will be submitted. -/
def Waiting (maxRetries : Int) (db : Database) (id : Nat) : Prop :=
  ∃ row, db.message id = some row ∧ isPending maxRetries row = true ∧
    (payloadFromRecord row).isOk = true

def Served (db : Database) (id : Nat) : Prop :=
  ∃ row, db.message id = some row ∧ row.status = .completed

/-- Only a claim, or a transaction on the row itself, ends it. -/
def Lasting (platform : Platform) (P : Database → Nat → Prop) : Prop :=
  ∀ (job : Job) (now : Datetime) (db after : Database) (answer : Answer) (id : Nat), P db id →
    job.run platform now db = .ok (answer, after) →
    (∀ batchSize retries, job ≠ .claim batchSize retries) → job.target ≠ some id → P after id

theorem lasting_waiting (platform : Platform) (maxRetries : Int) :
    Lasting platform (Waiting maxRetries) := by
  rintro job now db after answer id ⟨row, hrow, hpending, hreadable⟩ hrun hclaim htarget
  have hchange := Job.rowChange hrun id
  rw [hrow] at hchange
  generalize hnext : after.message id = next at hchange
  cases hchange with
  | kept => exact ⟨row, hnext, hpending, hreadable⟩
  | claimed => exact absurd rfl (hclaim _ _)
  | completed | failed => exact absurd rfl htarget
  | recovered _ hstale =>
      simp only [isStale, Bool.and_eq_true, beq_iff_eq] at hstale
      simp [isPending, hstale.1.1] at hpending
  | replayed => exact ⟨_, hnext, hpending, hreadable⟩
  | deleted _ hexpired =>
      have hstatus := completed_of_isExpired hexpired
      simp [isPending, hstatus] at hpending

/-! ## The worker gets its hands free -/

/-- A later state, with what lasts of the rows outside of the worker's hands. -/
structure Keeps (platform : Platform) (s t : Bridge) : Prop where
  reached : t.Reached platform
  config : t.config = s.config
  stopping : t.stopping = s.stopping
  unblocked : t.unblocked .worker
  lasting : ∀ P, Lasting platform P → ∀ id, P s.wal.data id → id ∉ s.worker.held →
    P t.wal.data id ∧ id ∉ t.worker.held

/-- Another thread commits, and the lock is free. -/
theorem unblocked_leads (hreached : s.Reached platform) (now : Datetime) :
    ∃ t, s.Leads platform now t ∧ t.worker = s.worker ∧ Keeps platform s t := by
  have hsame : s.unblocked .worker →
      ∃ t, s.Leads platform now t ∧ t.worker = s.worker ∧ Keeps platform s t :=
    fun hfree => ⟨s, .refl s, rfl, hreached, rfl, rfl, hfree, fun _ _ _ h hout => ⟨h, hout⟩⟩
  cases hwriter : s.wal.writer with
  | none => exact hsame (.inl hwriter)
  | some thread =>
      by_cases hthread : thread = .worker
      · exact hsame (.inr (hthread ▸ hwriter))
      · have hwriting := (hreached.consistent.writer_iff thread).mpr hwriter
        cases hjob : s.job thread with
        | none =>
            rw [hreached.idle hjob] at hwriting
            cases hwriting
        | some job =>
            obtain ⟨t, hleads, hended⟩ := commit_leads hreached hjob hwriting now
            obtain ⟨wal, ht⟩ := hended.resumed
            have hworker : t.worker = s.worker := by
              rw [ht]
              exact resume_worker_of_ne _ _ hthread
            refine ⟨t, hleads, hworker, hreached.leads hleads, ?_, ?_, .inl hended.writer, ?_⟩
            · rw [ht, resume_config]
            · rw [ht, resume_stopping]
            · intro P hlasting id hrow hout
              rw [hworker]
              refine ⟨?_, hout⟩
              rw [hended.data]
              cases hrun : job.run platform now s.wal.data with
              | error error =>
                  simp only [Database.after, hrun]
                  exact hrow
              | ok result =>
                  obtain ⟨-, -, hcomplete, hfail, hclaim⟩ :=
                    job_of_ne_worker hthread hjob
                  rw [after_of_ok hrun]
                  refine hlasting _ _ _ _ _ _ hrow hrun hclaim ?_
                  cases job with
                  | complete target arguments => exact absurd rfl (hcomplete _ _)
                  | fail target failure => exact absurd rfl (hfail _ _)
                  | _ => rintro ⟨⟩

/-- How far the worker is from the end of its pass. -/
def RecordStage.rank : RecordStage → Nat
  | .starting _ => 8
  | .submitting _ none _ => 7
  | .submitting _ (some _) _ => 6
  | .responded _ => 5
  | .completing _ _ => 4
  | .failing _ => 3
  | .publishing _ => 2

def WorkerState.rank : WorkerState → Nat
  | .idle | .claiming => 0
  | .batch records => 10 * records.length + 1
  | .processing _ _ stage rest => 10 * rest.length + stage.rank

/-- A step of the worker outside of its transactions. -/
theorem work_leads (s : Bridge) (label : Label) {worker next : WorkerState}
    (hstep : workerStep s.config s.stopping worker label = some next)
    (hlocal : ({ s with worker := worker } : Bridge).step platform label =
      (workerStep s.config s.stopping worker label).map
        fun worker => { s with worker := worker }) (hlabel : label.GoesOnAt now) :
    ({ s with worker := worker } : Bridge).Leads platform now { s with worker := next } := by
  refine .single label ?_ hlabel
  rw [hlocal, hstep]
  rfl

theorem Keeps.worked {m : Bridge} {next : WorkerState} (h : Keeps platform s m)
    (hleads : m.Leads platform now { m with worker := next })
    (hheld : ∀ id ∈ next.held, id ∈ m.worker.held) :
    Keeps platform s { m with worker := next } where
  reached := h.reached.leads hleads
  config := h.config
  stopping := h.stopping
  unblocked := h.unblocked
  lasting P hlasting id hrow hout := by
    obtain ⟨hthere, hnot⟩ := h.lasting P hlasting id hrow hout
    exact ⟨hthere, fun hmem => hnot (hheld id hmem)⟩

theorem Keeps.transacted {m : Bridge} {result : Except PyError Answer} {db : Database}
    (h : Keeps platform s m) (hleads : m.Leads platform now t)
    (hended : Ended m .worker db result t) (hfinished : Finished platform m job db result)
    (hclaim : ∀ batchSize retries, job ≠ .claim batchSize retries)
    (htarget : ∀ id, job.target = some id → id ∈ m.worker.held)
    (hheld : ∀ id ∈ t.worker.held, id ∈ m.worker.held) : Keeps platform s t := by
  obtain ⟨hdata, hwriter, wal, ht⟩ := hended
  refine ⟨h.reached.leads hleads, ?_, ?_, .inl hwriter, ?_⟩
  · rw [ht, resume_config]
    exact h.config
  · rw [ht, resume_stopping]
    exact h.stopping
  · intro P hlasting id hrow hout
    obtain ⟨hthere, hnot⟩ := h.lasting P hlasting id hrow hout
    refine ⟨?_, fun hmem => hnot (hheld id hmem)⟩
    rw [hdata]
    cases hfinished with
    | raised error hsame | early now result hearly hsame =>
        rw [hsame]
        exact hthere
    | ran now answer hrun =>
        exact hlasting _ _ _ _ _ _ hthere hrun hclaim fun heq => hnot (htarget id heq)

theorem nextRecord_rank (config : Config) (stopping : Bool) (now : Datetime)
    (records : List MessageRecord) :
    (nextRecord config stopping now records).rank < (WorkerState.batch records).rank ∧
      ∀ id ∈ (nextRecord config stopping now records).held,
        id ∈ (WorkerState.batch records).held := by
  have hidle : WorkerState.idle.rank < (WorkerState.batch records).rank ∧
      ∀ id ∈ WorkerState.idle.held, id ∈ (WorkerState.batch records).held :=
    ⟨Nat.succ_pos _, fun _ hid => absurd hid List.not_mem_nil⟩
  cases records with
  | nil => exact hidle
  | cons record rest =>
      simp only [nextRecord]
      split
      · exact hidle
      · split
        · refine ⟨?_, fun _ hid => hid⟩
          simp only [WorkerState.rank, RecordStage.rank, List.length_cons]
          omega
        · split
          · refine ⟨?_, fun _ hid => hid⟩
            simp only [WorkerState.rank, RecordStage.rank, List.length_cons]
            omega
          · exact hidle

theorem ofStage_rank (record : MessageRecord) (lastAttemptAt : Text)
    (rest : List MessageRecord) {stage : Option RecordStage} {bound : Nat}
    (h : ∀ next, stage = some next → next.rank < bound) (hbound : 0 < bound) :
    (WorkerState.ofStage record lastAttemptAt rest stage).rank < 10 * rest.length + bound ∧
      ∀ id ∈ (WorkerState.ofStage record lastAttemptAt rest stage).held,
        id ∈ record.id :: rest.map MessageRecord.id := by
  cases stage with
  | none =>
      refine ⟨?_, fun _ hid => absurd hid List.not_mem_nil⟩
      simp only [WorkerState.ofStage, WorkerState.rank]
      omega
  | some next =>
      refine ⟨Nat.add_lt_add_left (h next rfl) _, fun id hid => ?_⟩
      cases next with
      | publishing ack => exact List.mem_cons_of_mem _ hid
      | _ => exact hid

theorem collectResult_rank {config : Config} {lastAttemptAt : Text} {exitcode : Int}
    {file : ResultFile} {next : RecordStage}
    (h : collectResult config lastAttemptAt exitcode file = some next) : next.rank < 6 := by
  unfold collectResult at h
  split at h <;> cases h <;> simp [RecordStage.rank]

theorem classify_rank {config : Config} {lastAttemptAt : Text} {response : OdooResponse}
    {now : Datetime} {next : RecordStage}
    (h : classify config lastAttemptAt response now = some next) : next.rank < 5 := by
  unfold classify at h
  split at h
  · cases h
  · split at h
    · cases h
      simp [RecordStage.rank]
    · split at h <;> cases h <;> simp [RecordStage.rank]

/-- Unless it claims, the worker can go on to the end of its pass. -/
theorem Keeps.progress {m : Bridge} (h : Keeps platform s m) (now : Datetime)
    (hbusy : ¬ (m.worker = .idle ∨ m.worker = .claiming)) :
    ∃ t, m.Leads platform now t ∧ Keeps platform s t ∧ t.worker.rank < m.worker.rank := by
  have hlocal : ∀ (label : Label) (next : WorkerState) {worker : WorkerState},
      m.worker = worker → workerStep m.config m.stopping worker label = some next →
      ({ m with worker := worker } : Bridge).step platform label =
        (workerStep m.config m.stopping worker label).map
          (fun worker => { m with worker := worker }) → label.GoesOnAt now →
      next.rank < worker.rank ∧ (∀ id ∈ next.held, id ∈ worker.held) →
      ∃ t, m.Leads platform now t ∧ Keeps platform s t ∧ t.worker.rank < worker.rank := by
    rintro label next worker rfl hstep hlabel hgoes hnext
    have hleads : m.Leads platform now { m with worker := next } :=
      work_leads _ label hstep hlabel hgoes
    exact ⟨_, hleads, h.worked hleads hnext.2, hnext.1⟩
  have htransact : ∀ (job : Job) {record : MessageRecord} {lastAttemptAt : Text}
      {stage : RecordStage} {rest : List MessageRecord},
      m.worker = .processing record lastAttemptAt stage rest → m.job .worker = some job →
      job.target = some record.id →
      (∀ answer, (m.worker.answered answer).rank < m.worker.rank ∧
        ∀ id ∈ (m.worker.answered answer).held, id ∈ m.worker.held) →
      record.id ∈ m.worker.held → 0 < m.worker.rank →
      ∃ t, m.Leads platform now t ∧ Keeps platform s t ∧ t.worker.rank < m.worker.rank := by
    intro job record lastAttemptAt stage rest hworker hjob htarget hanswered hmem hpositive
    obtain ⟨t, result, hleads, hended, hfinished⟩ :=
      transact_leads h.reached hjob h.unblocked now
    have hnext : t.worker.rank < m.worker.rank ∧ ∀ id ∈ t.worker.held, id ∈ m.worker.held := by
      obtain ⟨wal, ht⟩ := hended.resumed
      rw [ht]
      cases result with
      | ok answer => exact hanswered answer
      | error error => exact ⟨hpositive, fun _ hid => absurd hid List.not_mem_nil⟩
    refine ⟨t, hleads, h.transacted hleads hended hfinished ?_ ?_ hnext.2, hnext.1⟩
    · rintro batchSize retries rfl
      cases htarget
    · intro id heq
      rw [htarget, Option.some.injEq] at heq
      exact heq ▸ hmem
  cases hworker : m.worker with
  | idle => exact absurd (.inl hworker) hbusy
  | claiming => exact absurd (.inr hworker) hbusy
  | batch records =>
      exact hlocal (.next now) _ hworker rfl rfl rfl (nextRecord_rank _ _ _ _)
  | processing record lastAttemptAt stage rest =>
      cases stage with
      | starting startedAt =>
          refine hlocal (.spawn false) .idle hworker rfl rfl True.intro
            ⟨?_, fun _ hid => absurd hid List.not_mem_nil⟩
          simp [WorkerState.rank, RecordStage.rank]
      | submitting startedAt exitcode file =>
          cases exitcode with
          | none =>
              have hstep : workerStep m.config m.stopping (.processing record lastAttemptAt
                  (.submitting startedAt none file) rest) .hardTimeout =
                  some (.processing record lastAttemptAt (.failing
                    (m.config.failure timeoutError lastAttemptAt none false)) rest) := by
                cases file with
                | absent | truncated | complete => rfl
              refine hlocal _ _ hworker hstep rfl True.intro ⟨?_, fun _ hid => hid⟩
              simp [WorkerState.rank, RecordStage.rank]
          | some exitcode =>
              exact hlocal .collect _ hworker rfl rfl True.intro
                (ofStage_rank record lastAttemptAt rest (fun _ => collectResult_rank)
                  (Nat.succ_pos _))
      | responded response =>
          exact hlocal (.respond now) _ hworker rfl rfl rfl
            (ofStage_rank record lastAttemptAt rest (fun _ => classify_rank) (Nat.succ_pos _))
      | failing failure =>
          rw [← hworker]
          refine htransact (.fail record.id failure) hworker ?_ rfl ?_ ?_ ?_
          · simp [Bridge.job, hworker, RecordStage.job]
          · intro answer
            simp only [hworker, WorkerState.answered, WorkerState.rank, RecordStage.rank]
            exact ⟨by omega, fun _ hid => List.mem_cons_of_mem _ hid⟩
          · rw [hworker]
            exact List.mem_cons_self
          · rw [hworker]
            simp [WorkerState.rank, RecordStage.rank]
      | completing acknowledged completedAt =>
          rw [← hworker]
          refine htransact (.complete record.id
            (acknowledged.arguments m.config completedAt)) hworker ?_ rfl ?_ ?_ ?_
          · simp [Bridge.job, hworker, RecordStage.job]
          · intro answer
            simp only [hworker, WorkerState.answered, WorkerState.rank, RecordStage.rank]
            exact ⟨by omega, fun _ hid => List.mem_cons_of_mem _ hid⟩
          · rw [hworker]
            exact List.mem_cons_self
          · rw [hworker]
            simp [WorkerState.rank, RecordStage.rank]
      | publishing ack =>
          refine hlocal .publishAck _ hworker rfl rfl True.intro ⟨?_, fun _ hid => hid⟩
          simp [WorkerState.rank, RecordStage.rank]

theorem free_leads (hreached : s.Reached platform) (now : Datetime) :
    ∃ t, s.Leads platform now t ∧ Keeps platform s t ∧
      (t.worker = .idle ∨ t.worker = .claiming) := by
  obtain ⟨m, hleads, -, hkeeps⟩ := unblocked_leads hreached now
  obtain ⟨t, hrest, hthen, hdone⟩ := System.leads_of_measure
    (bridgeSystem platform s.config) (Label.GoesOnAt now)
    (Keeps platform s) (fun m => m.worker = .idle ∨ m.worker = .claiming)
    (fun m => m.worker.rank) (fun m hm hbusy => by
      obtain ⟨t, hnext, ht, hless⟩ := hm.progress now hbusy
      exact ⟨t, leads_congr.mp hnext, ht, hless⟩) hkeeps
  exact ⟨t, System.Leads.trans hleads hrest, hthen, hdone⟩

end

end EdgeBridge
