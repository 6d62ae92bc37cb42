import EdgeBridge.Bridge.Refinement

/-!
# The record in hand

What one step can do to the data, and how the worker loses the record it has
begun: it settles it by a transaction, or an exception ends `run_once`.
-/

namespace EdgeBridge

open Foundation

/-- The record that the worker has begun and not yet settled. -/
def WorkerState.inHand : WorkerState → Option Nat
  | .processing _ _ (.publishing _) _ => none
  | .processing record _ _ _ => some record.id
  | _ => none

/-- An exception ends `run_once`, and the record in hand stays unsettled. -/
def Bridge.raises (platform : Platform) (s : Bridge) : Label → Bool
  | .spawn started => !started
  | .collect =>
      match s.worker with
      | .processing _ _ (.submitting _ (some _) .truncated) _ => true
      | _ => false
  | .respond _ =>
      match s.worker with
      | .processing _ _ (.responded response) _ => !(dumpResponse response).isOk
      | _ => false
  | .begin .worker now =>
      match s.job .worker with
      | some job => (job.earlyAnswer platform now s.wal.data).any fun result => !result.isOk
      | none => false
  | .lock .worker =>
      match s.wal.transaction .worker, s.wal.lock .worker with
      | .reading _ _, .granted _ => false
      | .reading _ _, _ => true
      | _, _ => false
  | .giveUp .worker => true
  | .commit .worker now =>
      match s.job .worker with
      | some job => !(job.run platform now s.wal.data).isOk
      | none => false
  | _ => false

/-! ## The record in hand -/

theorem held_of_inHand {w : WorkerState} {id : Nat} (h : w.inHand = some id) :
    id ∈ w.held := by
  unfold WorkerState.inHand at h
  split at h
  · cases h
  · next record _ stage _ hstage =>
    cases h
    cases stage with
    | publishing ack => exact absurd rfl (hstage ack)
    | _ => exact List.mem_cons_self
  · cases h

/-- The worker keeps its record in hand, or loses it by an exception. -/
theorem workerMove_inHand (platform : Platform) {s : Bridge} {w : WorkerState}
    {label : Label} (h : WorkerMove s.config s.stopping s.worker label w) {id : Nat}
    (hid : s.worker.inHand = some id) :
    w.inHand = some id ∨ s.raises platform label = true := by
  generalize hworker : s.worker = before at h hid
  cases h with
  | cycle _ => cases hid
  | batchEnded _ _ => cases hid
  | entered _ _ _ _ _ => cases hid
  | rejected _ _ _ _ _ _ => cases hid
  | spawned _ _ _ _ => exact .inl hid
  | spawnFailed _ _ _ _ => exact .inr rfl
  | childMoved _ _ _ _ _ _ _ _ _ _ _ => exact .inl hid
  | stopKilled _ _ _ _ _ _ _ => exact .inl hid
  | timedOut _ _ _ _ _ => exact .inl hid
  | collected record lastAttemptAt startedAt rest exitcode file =>
      cases file with
      | absent => exact .inl hid
      | truncated => exact .inr (by simp [Bridge.raises, hworker])
      | complete result =>
          cases result with
          | response response => exact .inl hid
          | error error => exact .inl hid
  | classified record lastAttemptAt rest response now =>
      unfold classify
      split
      · next error hdump =>
        exact .inr (by simp [Bridge.raises, hworker, hdump, Except.isOk, Except.toBool])
      · split
        · exact .inl hid
        · split
          · exact .inl hid
          · exact .inl hid
  | published _ _ _ _ => cases hid

/-! ## What a step can do -/

/-- A step leaves the data alone, commits one transaction, or restarts the process. -/
inductive Effect (platform : Platform) (s : Bridge) (label : Label) (t : Bridge) : Prop
  | quiet : t.wal.data = s.wal.data → t.config = s.config →
      (∀ id, s.worker.inHand = some id →
        t.worker.inHand = some id ∨ s.raises platform label = true) →
      Effect platform s label t
  | wrote (thread : Thread) (now : Datetime) (job : Job) (answer : Answer) :
      label = .commit thread now → s.job thread = some job →
      job.run platform now s.wal.data = .ok (answer, t.wal.data) →
      t.config = s.config → t.worker = (s.resume thread (.ok answer)).worker →
      Effect platform s label t
  | restarted (config : Config) : label = .restart config →
      t = .start config s.wal.data → Effect platform s label t

theorem inHand_of_claiming {s : Bridge} (h : s.worker = .claiming) :
    s.worker.inHand = none := by
  rw [h]
  rfl

/-- Outside of commits only an exception takes the record out of the hand. -/
theorem resume_inHand {platform : Platform} {s : Bridge} (wal : Wal Database Thread)
    {thread : Thread} {result : Except PyError Answer} {label : Label} {id : Nat}
    (hraises : thread = .worker → s.raises platform label = true)
    (hid : s.worker.inHand = some id) :
    (({ s with wal := wal } : Bridge).resume thread result).worker.inHand = some id ∨
      s.raises platform label = true := by
  by_cases hthread : thread = .worker
  · exact .inr (hraises hthread)
  · rw [resume_worker_of_ne _ _ hthread]
    exact .inl hid

theorem Bridge.step_effect {platform : Platform} {s t : Bridge} {label : Label}
    (hstep : s.step platform label = some t) : Effect platform s label t := by
  cases Bridge.step_move hstep with
  | began thread now job hjob hidle hearly hreads =>
      exact .quiet rfl rfl fun _ hid => .inl hid
  | answered thread now job result hjob hidle hearly =>
      refine .quiet (by rw [resume_wal]) (by rw [resume_config]) fun id hid => ?_
      by_cases hthread : thread = .worker
      · subst hthread
        right
        cases workerJob_of_job hjob with
        | claiming hworker =>
            rw [inHand_of_claiming hworker] at hid
            cases hid
        | failing => cases hearly
        | completing =>
            simp only [Job.earlyAnswer, Option.ite_none_right_eq_some,
              Option.some.injEq] at hearly
            simp [Bridge.raises, hjob, Job.earlyAnswer, hearly.1, Except.isOk,
              Except.toBool]
      · rw [resume_worker_of_ne s result hthread]
        exact .inl hid
  | locked thread job wal hjob hfirst hgranted =>
      exact .quiet (Wal.lock_granted hgranted).1 rfl fun _ hid => .inl hid
  | refused thread job version snapshot hjob hreading hrefused =>
      refine .quiet (by rw [resume_wal]; rfl) (by rw [resume_config]) fun id hid =>
        resume_inHand _ ?_ hid
      rintro rfl
      cases hlock : s.wal.lock .worker with
      | granted wal => exact absurd hlock (hrefused wal)
      | busy => simp [Bridge.raises, hreading, hlock]
      | blocked => simp [Bridge.raises, hreading, hlock]
  | gaveUp thread job hjob hidle hfirst =>
      refine .quiet (by rw [resume_wal]) (by rw [resume_config]) fun id hid =>
        resume_inHand s.wal ?_ hid
      rintro rfl
      rfl
  | committed thread now job answer db hjob hwriting hrun =>
      have hworker : ∀ wal : Wal Database Thread,
          (({ s with wal := wal } : Bridge).resume thread (.ok answer)).worker =
            (s.resume thread (.ok answer)).worker := by
        intro wal
        cases thread <;> rfl
      cases hwrote : answer.wrote with
      | true =>
          refine .wrote thread now job answer rfl hjob ?_ (by rw [resume_config])
            (hworker _)
          rw [resume_wal]
          exact hrun
      | false =>
          refine .quiet (by rw [resume_wal]; rfl) (by rw [resume_config]) fun id hid => ?_
          left
          by_cases hthread : thread = .worker
          · subst hthread
            cases workerJob_of_job hjob with
            | claiming hclaiming =>
                rw [inHand_of_claiming hclaiming] at hid
                cases hid
            | failing =>
                rcases map_eq_ok.mp hrun with ⟨after, -, heq⟩
                cases heq
                cases hwrote
            | completing =>
                rcases map_eq_ok.mp hrun with ⟨after, -, heq⟩
                cases heq
                cases hwrote
          · rw [resume_worker_of_ne _ _ hthread]
            exact hid
  | failed thread now job error hjob hwriting hrun =>
      refine .quiet (by rw [resume_wal]; rfl) (by rw [resume_config]) fun id hid =>
        resume_inHand _ ?_ hid
      rintro rfl
      simp [Bridge.raises, hjob, hrun, Except.isOk, Except.toBool]
  | worker label worker hlabel hworker =>
      exact .quiet rfl rfl fun _ hid =>
        workerMove_inHand platform (workerStep_move hworker) hid
  | watch => exact .quiet rfl rfl fun _ hid => .inl hid
  | mqtt => exact .quiet rfl rfl fun _ hid => .inl hid
  | lifecycle => exact .quiet rfl rfl fun _ hid => .inl hid
  | audit => exact .quiet rfl rfl fun _ hid => .inl hid
  | stopped => exact .quiet rfl rfl fun _ hid => .inl hid
  | startedAgain => exact .quiet rfl rfl fun _ hid => .inl hid
  | restarted config => exact .restarted config rfl rfl

/-- What the transactions keep, every step keeps. -/
theorem data_step_preserve {P : Database → Prop} {platform : Platform} {s t : Bridge}
    {label : Label} (h : P s.wal.data) (hstep : s.step platform label = some t)
    (hrun : ∀ {thread now job answer}, label = .commit thread now → s.job thread = some job →
      job.run platform now s.wal.data = .ok (answer, t.wal.data) → P t.wal.data) :
    P t.wal.data := by
  cases Bridge.step_effect hstep with
  | quiet hdata =>
      rw [hdata]
      exact h
  | restarted config _ ht =>
      rw [ht]
      exact h
  | wrote thread now job answer hlabel hjob hjobRun => exact hrun hlabel hjob hjobRun

/-! ## What the worker is about to record -/

/-- A failure carries the `max_retries` of the worker, and a completion the ISO text of
a clock reading. -/
def WorkerState.WellFormed (config : Config) : WorkerState → Prop
  | .processing _ _ (.failing failure) _ => failure.maxRetries = config.maxRetries
  | .processing _ _ (.completing _ completedAt) _ =>
      ∃ time, completedAt = formatTimestamp time
  | _ => True

theorem workerMove_wellFormed {config : Config} {stopping : Bool} {w w' : WorkerState}
    {label : Label} (h : WorkerMove config stopping w label w') : w'.WellFormed config := by
  cases h with
  | rejected _ _ _ _ _ _ => rfl
  | timedOut _ _ _ _ _ => rfl
  | collected record lastAttemptAt startedAt rest exitcode file =>
      cases file with
      | absent => rfl
      | truncated => trivial
      | complete result =>
          cases result with
          | response response => trivial
          | error error => rfl
  | classified record lastAttemptAt rest response now =>
      unfold classify
      split
      · trivial
      · split
        · rfl
        · split
          · rfl
          · exact ⟨now, rfl⟩
  | _ => trivial

theorem answered_wellFormed (w : WorkerState) (answer : Answer) (config : Config) :
    (w.answered answer).WellFormed config := by
  unfold WorkerState.answered
  split
  · trivial
  · trivial
  · trivial
  · trivial

/-- What the moves of the worker and the answers to it keep, every step keeps. -/
theorem worker_step_preserve {P : Config → WorkerState → Prop}
    (hidle : ∀ config, P config .idle)
    (hmove : ∀ {config stopping w label w'}, WorkerMove config stopping w label w' →
      P config w → P config w')
    (hanswered : ∀ {config w} answer, P config w → P config (w.answered answer))
    {platform : Platform} {s t : Bridge} {label : Label} (h : P s.config s.worker)
    (hstep : s.step platform label = some t) : P t.config t.worker := by
  have hresume : ∀ (wal : Wal Database Thread) (thread : Thread)
      (result : Except PyError Answer),
      P s.config (({ s with wal := wal } : Bridge).resume thread result).worker := by
    intro wal thread result
    by_cases hthread : thread = .worker
    · subst hthread
      cases result with
      | ok answer => exact hanswered answer h
      | error error => exact hidle s.config
    · rw [resume_worker_of_ne _ _ hthread]
      exact h
  cases Bridge.step_move hstep with
  | answered thread now job result =>
      rw [resume_config]
      exact hresume s.wal thread result
  | refused thread =>
      rw [resume_config]
      exact hresume _ thread _
  | gaveUp thread =>
      rw [resume_config]
      exact hresume s.wal thread _
  | committed thread now job answer =>
      rw [resume_config]
      exact hresume _ thread _
  | failed thread now job error =>
      rw [resume_config]
      exact hresume _ thread _
  | worker label worker hlabel hworker => exact hmove (workerStep_move hworker) h
  | restarted config => exact hidle config
  | _ => exact h

theorem wellFormed_step {platform : Platform} {s t : Bridge} {label : Label}
    (h : s.worker.WellFormed s.config) (hstep : s.step platform label = some t) :
    t.worker.WellFormed t.config :=
  worker_step_preserve (P := fun config w => w.WellFormed config) (fun _ => trivial)
    (fun hmove _ => workerMove_wellFormed hmove)
    (fun answer _ => answered_wellFormed _ answer _) h hstep

/-! ## Claims -/

theorem claimed_commit {platform : Platform} {s : Bridge} {label : Label}
    {ids : List Nat} (h : .claimed ids ∈ s.observe platform label) :
    ∃ now records after, label = .commit .worker now ∧ s.worker = .claiming ∧
      claimPendingMessages platform s.config.batchSize s.config.maxRetries now
        s.wal.data = .ok (records, after) ∧ ids = records.map MessageRecord.id := by
  cases Bridge.observe_shown h with
  | claimed thread now job records after hjob hrun =>
      have hclaim : ∃ batchSize maxRetries, job = .claim batchSize maxRetries := by
        cases job with
        | claim batchSize maxRetries => exact ⟨batchSize, maxRetries, rfl⟩
        | _ =>
            obtain ⟨result, -, heq⟩ := map_eq_ok.mp hrun
            cases heq
      obtain ⟨batchSize, maxRetries, rfl⟩ := hclaim
      have hthread : thread = .worker := by
        by_contra hthread
        exact (job_of_ne_worker hthread hjob).2.2.2.2 _ _ rfl
      subst hthread
      cases workerJob_of_job hjob with
      | claiming hclaiming =>
          obtain ⟨⟨records', after'⟩, hrun', heq⟩ := map_eq_ok.mp hrun
          cases heq
          exact ⟨now, _, _, rfl, hclaiming, hrun', rfl⟩

theorem pending_of_claimed {platform : Platform} {s : Bridge} {label : Label}
    {ids : List Nat} (h : .claimed ids ∈ s.observe platform label) {id : Nat}
    (hid : id ∈ ids) :
    s.worker = .claiming ∧ ∃ row, s.wal.data.message id = some row ∧
      isPending s.config.maxRetries row = true := by
  rcases claimed_commit h with ⟨now, records, after, -, hclaiming, hclaim, rfl⟩
  rcases claimPendingMessages_eq_ok hclaim with ⟨-, -, -, hin, -⟩
  rcases List.mem_map.mp hid with ⟨record, hrecord, rfl⟩
  rcases hin record hrecord with ⟨row, hrow, hpending, -⟩
  exact ⟨hclaiming, row, hrow, hpending⟩

def BridgeEvent.claimedIds : BridgeEvent → List Nat
  | .claimed ids => ids
  | _ => []

/-- The later event is no claim of the row that `select` finds in the earlier one. -/
def NotClaimedAfter (select : BridgeEvent → Option Nat)
    (earlier later : BridgeEvent) : Prop :=
  ∀ id ∈ select earlier, id ∉ later.claimedIds

instance (select : BridgeEvent → Option Nat) (earlier later : BridgeEvent) :
    Decidable (NotClaimedAfter select earlier later) :=
  inferInstanceAs (Decidable (∀ id ∈ select earlier, id ∉ later.claimedIds))

theorem notClaimedAfter_append {select : BridgeEvent → Option Nat}
    {past events : List BridgeEvent} (hpast : past.Pairwise (NotClaimedAfter select))
    (hold : ∀ id ∈ past.filterMap select, ∀ ids, .claimed ids ∈ events → id ∉ ids)
    (hnew : ∀ id ∈ events.filterMap select, ∀ ids, .claimed ids ∉ events) :
    (past ++ events).Pairwise (NotClaimedAfter select) := by
  have hclaimed : ∀ e ∈ events, ∀ id, (∀ ids, .claimed ids ∈ events → id ∉ ids) →
      id ∉ e.claimedIds := by
    intro e he id hid
    cases e with
    | claimed ids => exact hid ids he
    | _ => exact List.not_mem_nil
  refine List.pairwise_append.mpr
    ⟨hpast, List.pairwise_of_forall_mem_list ?_, ?_⟩
  · intro e he e' he' id hid
    apply hclaimed e' he'
    intro ids hids
    exact absurd hids (hnew id (List.mem_filterMap.mpr ⟨e, he, hid⟩) ids)
  · intro e he e' he' id hid
    exact hclaimed e' he' id (hold id (List.mem_filterMap.mpr ⟨e, he, hid⟩))

end EdgeBridge
