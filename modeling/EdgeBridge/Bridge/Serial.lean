import EdgeBridge.Bridge.Answers
import EdgeBridge.Bridge.StatusDiagram
import EdgeBridge.Foundation.Justified
import EdgeBridge.Store.Transactions

/-!
# The threads are serialisable

What a thread reads at the begin of its transaction, the answer it gets and the
database at the end are those of one run of the transactions, one after the other,
in the order in which they ended.
-/

namespace EdgeBridge

open Foundation

/-! ## Histories -/

inductive WalEvent where
  /-- The first statement of a transaction, and the database that it reads. -/
  | began (thread : Thread) (snapshot : Database)
  /-- A transaction that returned or raised; a locked database is no answer of one. -/
  | ended (thread : Thread) (op : Job × Datetime) (result : Except PyError Answer)

def Bridge.walEvents (platform : Platform) (s : Bridge) : Label → List WalEvent
  | .begin thread now =>
      match s.job thread with
      | none => []
      | some job => .began thread s.wal.data ::
          ((job.earlyAnswer platform now s.wal.data).map
            fun result => WalEvent.ended thread (job, now) result).toList
  | .commit thread now =>
      match s.job thread with
      | none => []
      | some job => [.ended thread (job, now) (job.result platform now s.wal.data)]
  | _ => []

/-- The steps of `bridgeSystem`, observed at the database. -/
def walSystem (platform : Platform) (config : Config) : System Bridge Label WalEvent where
  init := .start config .empty
  step := Bridge.step platform
  observe := Bridge.walEvents platform

/-- The transactions one after the other, with their answers. -/
def serialSystem (platform : Platform) :
    System Database (Job × Datetime) ((Job × Datetime) × Except PyError Answer) :=
  transactions platform fun db op => [(op, op.1.result platform op.2 db)]

def WalEvent.serial : WalEvent → Option ((Job × Datetime) × Except PyError Answer)
  | .ended _ op result => some (op, result)
  | .began _ _ => none

def WalEvent.snapshotOf (thread : Thread) : WalEvent → Option Database
  | .began other snapshot => if other = thread then some snapshot else none
  | .ended _ _ _ => none

/-- What the thread read at its last begin. -/
def lastSnapshot (thread : Thread) (past : List WalEvent) : Option Database :=
  (past.filterMap (WalEvent.snapshotOf thread)).getLast?

/-- A serial history: the ended transactions, run one after the other, end in `db` and
give the same answers. -/
def Serial (platform : Platform) (past : List WalEvent) (db : Database) : Prop :=
  (serialSystem platform).Ran .empty (past.filterMap WalEvent.serial) db

/-! ## Open transactions -/

/-- A thread in a transaction has a job, and what it has read is still what the job
would read, once it holds the lock. -/
def Opened (past : List WalEvent) (s : Bridge) (thread : Thread) : Prop :=
  match s.wal.transaction thread with
  | .idle => True
  | .reading _ snapshot =>
      (s.job thread).isSome = true ∧ lastSnapshot thread past = some snapshot
  | .writing => ∃ job, s.job thread = some job ∧
      (job.readsFirst = true → lastSnapshot thread past = some s.wal.data)

section

variable {platform : Platform} {past : List WalEvent} {s t : Bridge} {thread : Thread}

theorem opened_of_idle (h : s.wal.transaction thread = .idle) : Opened past s thread := by
  simp [Opened, h]

theorem Opened.frame {events : List WalEvent} (h : Opened past s thread)
    (htransaction : t.wal.transaction thread = s.wal.transaction thread)
    (hjob : t.job thread = s.job thread)
    (hdata : s.wal.transaction thread = .writing → t.wal.data = s.wal.data)
    (hevents : lastSnapshot thread (past ++ events) = lastSnapshot thread past) :
    Opened (past ++ events) t thread := by
  unfold Opened at h ⊢
  rw [htransaction, hjob, hevents]
  split at h
  · trivial
  · exact h
  · next hwriting =>
    rw [hdata hwriting]
    exact h

theorem job_of_open (h : Opened past s thread) (hopen : s.wal.transaction thread ≠ .idle) :
    (s.job thread).isSome = true := by
  unfold Opened at h
  split at h
  · next hidle => exact absurd hidle hopen
  · exact h.1
  · obtain ⟨job, hjob, -⟩ := h
    rw [hjob]
    rfl

theorem job_resume_of_ne {other : Thread} (result : Except PyError Answer)
    (h : thread ≠ other) : (s.resume other result).job thread = s.job thread := by
  cases other with
  | worker =>
      cases thread with
      | worker => exact absurd rfl h
      | watchdog | mqtt | lifecycle | api => cases result <;> rfl
  | mqtt =>
      cases thread with
      | mqtt => exact absurd rfl h
      | worker | watchdog | lifecycle | api => cases result <;> rfl
  | watchdog =>
      cases thread with
      | watchdog => exact absurd rfl h
      | worker | mqtt | lifecycle | api => rfl
  | lifecycle =>
      cases thread with
      | lifecycle => exact absurd rfl h
      | worker | mqtt | watchdog | api => rfl
  | api =>
      cases thread with
      | api => exact absurd rfl h
      | worker | mqtt | watchdog | lifecycle => rfl

/-- In a transaction the worker takes no step of its own. -/
theorem workerStep_of_job {label : Label} (h : (s.job .worker).isSome = true) :
    workerStep s.config s.stopping s.worker label = none := by
  obtain ⟨job, hjob⟩ := Option.isSome_iff_exists.mp h
  cases workerJob_of_job hjob with
  | claiming hworker =>
      rw [hworker]
      rfl
  | failing record lastAttemptAt failure rest hworker =>
      rw [hworker]
      rfl
  | completing record lastAttemptAt acknowledged completedAt rest hworker =>
      rw [hworker]
      rfl

theorem mqttStep_of_job {label : Label} (h : (s.job .mqtt).isSome = true) :
    mqttStep platform s.wal.data s.mqtt label = none := by
  simp only [Bridge.job] at h
  split at h
  · next hmqtt =>
    rw [hmqtt]
    rfl
  · next hmqtt =>
    rw [hmqtt]
    rfl
  · cases h

@[simp] theorem lastSnapshot_nil : lastSnapshot thread [] = none := rfl

theorem lastSnapshot_append {events : List WalEvent}
    (h : events.filterMap (WalEvent.snapshotOf thread) = []) :
    lastSnapshot thread (past ++ events) = lastSnapshot thread past := by
  simp [lastSnapshot, h]

/-- Only its own begin is a read of the thread. -/
theorem walEvents_unread {label : Label} (h : ∀ now, label ≠ .begin thread now) :
    (s.walEvents platform label).filterMap (WalEvent.snapshotOf thread) = [] := by
  cases label with
  | begin other now =>
      have hne : other ≠ thread := by
        rintro rfl
        exact h now rfl
      simp only [Bridge.walEvents]
      split
      · rfl
      · next job _ =>
        cases job.earlyAnswer platform now s.wal.data with
        | none => simp [WalEvent.snapshotOf, hne]
        | some result => simp [WalEvent.snapshotOf, hne]
  | commit other now =>
      simp only [Bridge.walEvents]
      split
      · rfl
      · rfl
  | _ => rfl

theorem closed_frame {events : List WalEvent} {other : Thread} {result : Except PyError Answer}
    (hopened : ∀ thread, Opened past s thread)
    (hevents : ∀ thread, thread ≠ other →
      lastSnapshot thread (past ++ events) = lastSnapshot thread past)
    (thread : Thread) :
    Opened (past ++ events)
      ({ s with wal := s.wal.close other }.resume other result) thread := by
  by_cases hown : thread = other
  · apply opened_of_idle
    rw [resume_wal]
    simp [hown]
  · refine (hopened thread).frame ?_ (job_resume_of_ne result hown) ?_ (hevents thread hown)
    · rw [resume_wal]
      simp [hown]
    · intro _
      rw [resume_wal]
      rfl

/-- A step outside of transactions is one of a thread without a job. -/
theorem local_frame {events : List WalEvent} (own : Thread)
    (hopened : ∀ thread, Opened past s thread) (hfree : (s.job own).isSome = false)
    (hwal : t.wal = s.wal) (hjobs : ∀ other, other ≠ own → t.job other = s.job other)
    (hevents : lastSnapshot thread (past ++ events) = lastSnapshot thread past) :
    Opened (past ++ events) t thread := by
  by_cases hown : thread = own
  · subst hown
    apply opened_of_idle
    rw [hwal]
    by_contra hopen
    rw [job_of_open (hopened thread) hopen] at hfree
    cases hfree
  · exact (hopened thread).frame (by rw [hwal]) (hjobs thread hown) (fun _ => by rw [hwal])
      hevents

theorem opened_step {label : Label} (hconsistent : s.wal.Consistent)
    (hopened : ∀ thread, Opened past s thread) (hstep : s.step platform label = some t)
    (thread : Thread) : Opened (past ++ s.walEvents platform label) t thread := by
  have hunread : (∀ now, label ≠ .begin thread now) →
      (s.walEvents platform label).filterMap (WalEvent.snapshotOf thread) = [] :=
    walEvents_unread
  have hframe := @Opened.frame past s t thread (s.walEvents platform label) (hopened thread)
  cases Bridge.step_move hstep with
  | began other now job hjob hidle hearly hreads =>
      by_cases hown : thread = other
      · subst hown
        simp only [Opened, Wal.transaction_read, if_true]
        refine ⟨Option.isSome_iff_exists.mpr ⟨job, hjob⟩, ?_⟩
        simp [lastSnapshot, Bridge.walEvents, hjob, hearly, WalEvent.snapshotOf]
      · refine hframe (by simp [hown]) rfl (fun _ => rfl) (lastSnapshot_append (hunread ?_))
        rintro _ ⟨⟩
        exact hown rfl
  | answered other now job result hjob hidle hearly =>
      by_cases hown : thread = other
      · apply opened_of_idle
        rw [resume_wal, hown]
        exact hidle
      · refine hframe (by rw [resume_wal]) (job_resume_of_ne result hown)
          (fun _ => by rw [resume_wal]) (lastSnapshot_append (hunread ?_))
        rintro _ ⟨⟩
        exact hown rfl
  | locked other job wal hjob hfirst hgranted =>
      obtain ⟨hdata, -, hown, hothers⟩ := Wal.lock_granted hgranted
      have hsame : lastSnapshot thread (past ++ s.walEvents platform (.lock other)) =
          lastSnapshot thread past := lastSnapshot_append rfl
      by_cases hthread : thread = other
      · subst hthread
        have hwas := hopened thread
        simp only [Opened, hown]
        refine ⟨job, hjob, fun hreads => ?_⟩
        rw [hsame]
        unfold Opened at hwas
        split at hwas
        · next hidle => exact absurd (hfirst hidle) (by simp [hreads])
        · next hreading =>
          rw [hwas.2, (hconsistent.upgrade hreading hgranted).2]
        · obtain ⟨held, hheld, hwas⟩ := hwas
          obtain rfl := Option.some.inj (hheld.symm.trans hjob)
          rw [hwas hreads, hdata]
      · exact hframe (hothers thread hthread) rfl (fun _ => hdata) hsame
  | refused other job version snapshot hjob hreading hrefused =>
      exact closed_frame hopened (fun _ _ => lastSnapshot_append rfl) thread
  | gaveUp other job hjob hidle hfirst =>
      by_cases hown : thread = other
      · apply opened_of_idle
        rw [resume_wal, hown]
        exact hidle
      · exact hframe (by rw [resume_wal]) (job_resume_of_ne _ hown)
          (fun _ => by rw [resume_wal]) (lastSnapshot_append rfl)
  | committed other now job answer db hjob hwriting hrun =>
      have hsame : ∀ thread, lastSnapshot thread
          (past ++ s.walEvents platform (.commit other now)) = lastSnapshot thread past := by
        refine fun thread => lastSnapshot_append (walEvents_unread ?_)
        rintro _ ⟨⟩
      cases answer.wrote with
      | false => exact closed_frame hopened (fun thread _ => hsame thread) thread
      | true =>
          by_cases hown : thread = other
          · apply opened_of_idle
            rw [resume_wal]
            simp [hown]
          · refine (hopened thread).frame ?_ (job_resume_of_ne _ hown) ?_ (hsame thread)
            · rw [resume_wal]
              simp [hown]
            · intro hother
              have hholder := (hconsistent.writer_iff thread).mp hother
              rw [(hconsistent.writer_iff other).mp hwriting] at hholder
              exact absurd (Option.some.inj hholder).symm hown
  | failed other now job error hjob hwriting hrun =>
      refine closed_frame hopened (fun thread _ => lastSnapshot_append
        (walEvents_unread ?_)) thread
      rintro _ ⟨⟩
  | worker _ worker hlabel hworker =>
      refine local_frame .worker hopened ?_ rfl ?_ (lastSnapshot_append (hunread ?_))
      · cases hjob : (s.job .worker).isSome with
        | false => rfl
        | true =>
            rw [workerStep_of_job hjob] at hworker
            cases hworker
      · intro other hne
        cases other with
        | worker => exact absurd rfl hne
        | watchdog | mqtt | lifecycle | api => rfl
      · rintro _ rfl
        cases hlabel
  | mqtt _ mqtt hlabel hmqtt =>
      refine local_frame .mqtt hopened ?_ rfl ?_ (lastSnapshot_append (hunread ?_))
      · cases hjob : (s.job .mqtt).isSome with
        | false => rfl
        | true =>
            rw [mqttStep_of_job hjob] at hmqtt
            cases hmqtt
      · intro other hne
        cases other with
        | mqtt => exact absurd rfl hne
        | worker | watchdog | lifecycle | api => rfl
      · rintro _ rfl
        cases hlabel
  | watch now hidle hgoing =>
      refine local_frame .watchdog hopened ?_ rfl ?_ (lastSnapshot_append rfl)
      · simp [Bridge.job, hidle]
      · intro other hne
        cases other with
        | watchdog => exact absurd rfl hne
        | worker | mqtt | lifecycle | api => rfl
  | lifecycle _ lifecycle hlabel hidle =>
      refine local_frame .lifecycle hopened ?_ rfl ?_
        (lastSnapshot_append (hunread ?_))
      · simp [Bridge.job, hidle]
      · intro other hne
        cases other with
        | lifecycle => exact absurd rfl hne
        | worker | watchdog | mqtt | api => rfl
      · rintro _ rfl
        cases hlabel
  | audit write hnone =>
      refine local_frame .api hopened ?_ rfl ?_ (lastSnapshot_append rfl)
      · simp [Bridge.job, hnone]
      · intro other hne
        cases other with
        | api => exact absurd rfl hne
        | worker | watchdog | mqtt | lifecycle => rfl
  | stopped =>
      exact hframe rfl rfl (fun _ => rfl) (lastSnapshot_append rfl)
  | startedAgain hidle =>
      exact hframe rfl rfl (fun _ => rfl) (lastSnapshot_append rfl)
  | restarted config => exact opened_of_idle rfl

/-! ## The serial history -/

theorem Serial.quiet {events : List WalEvent} {db : Database} (h : Serial platform past db)
    (hquiet : events.filterMap WalEvent.serial = []) : Serial platform (past ++ events) db := by
  unfold Serial
  rw [List.filterMap_append, hquiet, List.append_nil]
  exact h

theorem Serial.ended {events : List WalEvent} {db after : Database}
    (h : Serial platform past db) (op : Job × Datetime) (result : Except PyError Answer)
    (hevents : events.filterMap WalEvent.serial = [(op, result)])
    (hresult : op.1.result platform op.2 db = result) (hafter : db.after platform op = after) :
    Serial platform (past ++ events) after := by
  unfold Serial
  rw [List.filterMap_append, hevents, ← hresult, ← hafter]
  exact System.Ran.snoc h rfl

theorem reconciling_of_job {machineId : Text} {limit : Int}
    (h : s.job thread = some (.reconcile machineId limit)) : s.lifecycle = .reconciling limit := by
  cases thread with
  | lifecycle =>
      simp only [Bridge.job] at h
      split at h
      · cases h
      · next hreconciling =>
        cases h
        exact hreconciling
      · cases h
  | worker => cases workerJob_of_job h
  | watchdog =>
      simp only [Bridge.job] at h
      split at h
      · cases h
      · cases h
  | mqtt =>
      simp only [Bridge.job] at h
      split at h
      · cases h
      · cases h
      · cases h
  | api =>
      obtain ⟨write, -, heq⟩ := Option.map_eq_some_iff.mp h
      cases heq

theorem walEvents_local {label : Label} (h : label.thread = none) :
    s.walEvents platform label = [] := by
  cases label with
  | begin | commit => cases h
  | _ => rfl

/-- One step of the threads is no transaction, or the next one of the serial history. -/
theorem serial_step {label : Label}
    (hlimit : ∀ limit, s.lifecycle = .reconciling limit → bindableInt limit = true)
    (h : Serial platform past s.wal.data) (hstep : s.step platform label = some t) :
    Serial platform (past ++ s.walEvents platform label) t.wal.data := by
  cases Bridge.step_move hstep with
  | began thread now job hjob hidle hearly hreads =>
      apply h.quiet
      simp [Bridge.walEvents, hjob, hearly, WalEvent.serial]
  | answered thread now job result hjob hidle hearly =>
      have hbound : ∀ machineId limit, job = .reconcile machineId limit →
          bindableInt limit = true := by
        rintro machineId limit rfl
        exact hlimit limit (reconciling_of_job hjob)
      have hrun := Job.run_of_earlyAnswer hbound hearly
      rw [resume_wal]
      apply h.ended (job, now) result
      · simp only [Bridge.walEvents, hjob, hearly]
        rfl
      · simp only [Job.result, hrun]
        cases result <;> rfl
      · simp only [Database.after, hrun]
        cases result <;> rfl
  | locked thread job wal hjob hfirst hgranted =>
      apply Serial.quiet (by rw [(Wal.lock_granted hgranted).1]; exact h)
      rfl
  | refused thread job version snapshot hjob hreading hrefused =>
      apply Serial.quiet (by rw [resume_wal]; exact h)
      rfl
  | gaveUp thread job hjob hidle hfirst =>
      apply Serial.quiet (by rw [resume_wal]; exact h)
      rfl
  | committed thread now job answer db hjob hwriting hrun =>
      rw [resume_wal]
      apply h.ended (job, now) (.ok answer)
      · simp [Bridge.walEvents, hjob, WalEvent.serial, Job.result, hrun, Except.map]
      · simp only [Job.result, hrun]
        rfl
      · simp only [Database.after, hrun]
        cases hwrote : answer.wrote with
        | true => rfl
        | false => exact Job.run_of_not_wrote hrun hwrote
  | failed thread now job error hjob hwriting hrun =>
      rw [resume_wal]
      apply h.ended (job, now) (.error error)
      · simp [Bridge.walEvents, hjob, WalEvent.serial, Job.result, hrun, Except.map]
      · simp only [Job.result, hrun]
        rfl
      · simp only [Database.after, hrun]
        rfl
  | worker _ worker hlabel hworker => exact h.quiet (by rw [walEvents_local hlabel]; rfl)
  | watch now hidle hgoing => exact h.quiet rfl
  | mqtt _ mqtt hlabel hmqtt => exact h.quiet (by rw [walEvents_local hlabel]; rfl)
  | lifecycle _ lifecycle hlabel hidle => exact h.quiet (by rw [walEvents_local hlabel]; rfl)
  | audit write hnone => exact h.quiet rfl
  | stopped => exact h.quiet rfl
  | startedAgain hidle => exact h.quiet rfl
  | restarted config => exact h.quiet rfl

/-! ## What the transactions have read -/

/-- A transaction that reads first has read the database on which it runs in the serial
history, although it read it before it held the lock. -/
def HasRead (platform : Platform) (before : List WalEvent) : WalEvent → Prop
  | .ended thread op _ => op.1.readsFirst = true →
      ∃ db, Serial platform before db ∧ lastSnapshot thread before = some db
  | .began _ _ => True

theorem read_of_writing {job : Job} (h : Opened past s thread) (hjob : s.job thread = some job)
    (hwriting : s.wal.transaction thread = .writing) (hreads : job.readsFirst = true) :
    lastSnapshot thread past = some s.wal.data := by
  simp only [Opened, hwriting] at h
  obtain ⟨held, hheld, hread⟩ := h
  obtain rfl := Option.some.inj (hheld.symm.trans hjob)
  exact hread hreads

theorem hasRead_step {label : Label} (hserial : Serial platform past s.wal.data)
    (hopened : ∀ thread, Opened past s thread) (hstep : s.step platform label = some t) :
    Justified (fun between event => HasRead platform (past ++ between) event)
      (s.walEvents platform label) := by
  have hcommit : ∀ {thread now job}, s.job thread = some job →
      s.wal.transaction thread = .writing →
      Justified (fun between event => HasRead platform (past ++ between) event)
        (s.walEvents platform (.commit thread now)) := by
    intro thread now job hjob hwriting
    simp only [Bridge.walEvents, hjob]
    refine justified_singleton fun hreads => ?_
    rw [List.append_nil]
    exact ⟨s.wal.data, hserial, read_of_writing (hopened thread) hjob hwriting hreads⟩
  cases Bridge.step_move hstep with
  | began thread now job hjob hidle hearly hfirst =>
      simp only [Bridge.walEvents, hjob, hearly]
      exact justified_singleton trivial
  | answered thread now job answer hjob hidle hearly =>
      simp only [Bridge.walEvents, hjob, hearly, Option.map_some, Option.toList_some]
      refine Justified.append (justified_singleton trivial) (justified_singleton ?_)
      intro hreads
      refine ⟨s.wal.data, hserial.quiet rfl, ?_⟩
      simp [lastSnapshot, WalEvent.snapshotOf]
  | committed thread now job _ _ hjob hwriting => exact hcommit hjob hwriting
  | failed thread now job _ hjob hwriting => exact hcommit hjob hwriting
  | locked | refused | gaveUp | watch | audit | stopped | startedAgain | restarted =>
      exact justified_nil
  | worker _ _ hlabel | mqtt _ _ hlabel | lifecycle _ _ hlabel =>
      rw [walEvents_local hlabel]
      exact justified_nil

/-! ## The lifecycle thread -/

theorem resume_lifecycle (result : Except PyError Answer) :
    (s.resume thread result).lifecycle = s.lifecycle ∨
      (s.resume thread result).lifecycle = .idle := by
  cases thread with
  | lifecycle => exact .inr rfl
  | worker | watchdog | mqtt | api => cases result <;> exact .inl rfl

/-- What the lifecycle thread is about to run was asked for by a label. -/
theorem lifecycle_step {label : Label} (hstep : s.step platform label = some t) :
    t.lifecycle = s.lifecycle ∨ t.lifecycle = .idle ∨
      (∃ limit, label = .reconcileOnce limit ∧ t.lifecycle = .reconciling limit) ∨
      ∃ retentionDays batchSize, label = .cleanUp retentionDays batchSize ∧
        t.lifecycle = .cleaning retentionDays batchSize := by
  have hresume : ∀ (wal : Wal Database Thread) (thread : Thread) (result : Except PyError Answer),
      (({ s with wal := wal } : Bridge).resume thread result).lifecycle = s.lifecycle ∨
        (({ s with wal := wal } : Bridge).resume thread result).lifecycle = .idle := by
    intro wal thread result
    exact resume_lifecycle (s := { s with wal := wal }) result
  cases hthread : label.thread with
  | some thread =>
      cases Bridge.step_move hstep with
      | began | locked => exact .inl rfl
      | answered _ _ _ result | refused | gaveUp | committed | failed =>
          exact (hresume _ _ _).imp_right .inl
      | worker _ _ hlabel | mqtt _ _ hlabel | lifecycle _ _ hlabel =>
          rw [hlabel] at hthread
          cases hthread
      | watch | audit | stopped | startedAgain | restarted => cases hthread
  | none =>
      simp only [Bridge.step, hthread] at hstep
      cases label with
      | begin | lock | giveUp | commit => cases hthread
      | reconcileOnce limit =>
          simp only [Bridge.localStep] at hstep
          split at hstep
          · cases hstep
            exact .inr (.inr (.inl ⟨limit, rfl, rfl⟩))
          · cases hstep
      | cleanUp retentionDays batchSize =>
          simp only [Bridge.localStep] at hstep
          split at hstep
          · cases hstep
            exact .inr (.inr (.inr ⟨retentionDays, batchSize, rfl, rfl⟩))
          · cases hstep
      | watch now =>
          simp only [Bridge.localStep] at hstep
          split at hstep
          · split at hstep
            · cases hstep
            · cases hstep
              exact .inl rfl
          · cases hstep
      | audit write =>
          simp only [Bridge.localStep] at hstep
          split at hstep
          · cases hstep
            exact .inl rfl
          · cases hstep
      | startAgain =>
          simp only [Bridge.localStep] at hstep
          split at hstep
          · cases hstep
            exact .inl rfl
          · cases hstep
      | stop =>
          cases hstep
          exact .inl rfl
      | restart config =>
          cases hstep
          exact .inr (.inl rfl)
      | _ =>
          obtain ⟨_, -, rfl⟩ := Option.map_eq_some_iff.mp hstep
          exact .inl rfl

/-! ## Every interleaving -/

/-- The limit of a reconciliation is one that SQLite can bind. -/
def Label.limited : Label → Bool
  | .reconcileOnce limit => bindableInt limit
  | _ => true

structure Serialised (platform : Platform) (past : List WalEvent) (s : Bridge) : Prop where
  serial : Serial platform past s.wal.data
  opened : ∀ thread, Opened past s thread
  consistent : s.wal.Consistent
  limit : ∀ limit, s.lifecycle = .reconciling limit → bindableInt limit = true

theorem serialised_start (config : Config) : Serialised platform [] (.start config .empty) where
  serial := ⟨[], rfl, rfl⟩
  opened thread := opened_of_idle rfl
  consistent := Wal.consistent_start _
  limit := by rintro limit ⟨⟩

theorem Serialised.step {label : Label} (h : Serialised platform past s)
    (hlimited : label.limited = true) (hstep : s.step platform label = some t) :
    Serialised platform (past ++ s.walEvents platform label) t where
  serial := serial_step h.limit h.serial hstep
  opened := opened_step h.consistent h.opened hstep
  consistent := walConsistent_step h.consistent hstep
  limit limit hreconciling := by
    obtain hsame | hidle | ⟨requested, rfl, hrequested⟩ | ⟨_, _, -, hcleaning⟩ :=
      lifecycle_step hstep
    · exact h.limit limit (hsame.symm.trans hreconciling)
    · cases hidle.symm.trans hreconciling
    · cases hrequested.symm.trans hreconciling
      exact hlimited
    · cases hcleaning.symm.trans hreconciling

/--
Under every interleaving, with crashes and restarts, the database and the answers of the
transactions are those of the ended transactions, run one after the other in the order of
their ends; and a transaction that reads first has read, at its begin, the database of
its place in that order.
-/
theorem bridge_serialisable {config : Config} {labels : List Label}
    (hlimited : ∀ label ∈ labels, label.limited = true)
    (run : (walSystem platform config).exec (.start config .empty) labels = some s) :
    Serial platform ((walSystem platform config).trace (.start config .empty) labels)
        s.wal.data ∧
      Justified (HasRead platform)
        ((walSystem platform config).trace (.start config .empty) labels) := by
  obtain ⟨hserialised, hread⟩ := System.justified_run (S := walSystem platform config)
    (P := fun _ _ label => label.limited = true) (serialised_start config)
    (fun _ _ _ _ hm hlabel hstep =>
      ⟨hm.step hlabel hstep, hasRead_step hm.serial hm.opened hstep⟩)
    ((walSystem platform config).along_of_mem hlimited _ _) run
  exact ⟨hserialised.serial, hread⟩

end

/-- While the callback has read for its second message, the worker claims the first; the
broker sends the second message again. -/
def claimedBetween : List Label :=
  receives compactPayload ++
    [.deliver plcToOdooTopic (nextPayload.map UInt8.ofNat), .begin .mqtt noon] ++ claims ++
    [.lock .mqtt] ++ receives nextPayload

theorem bridge_serialisable_sample :
    ∃ s, (walSystem samplePlatform sampleConfig).exec (.start sampleConfig .empty)
        claimedBetween = some s ∧
      rowStatus s 1 = some .processing ∧ rowStatus s 2 = some .new ∧
      Serial samplePlatform ((walSystem samplePlatform sampleConfig).trace
        (.start sampleConfig .empty) claimedBetween) s.wal.data ∧
      Justified (HasRead samplePlatform) ((walSystem samplePlatform sampleConfig).trace
        (.start sampleConfig .empty) claimedBetween) := by
  have hrun : ((walSystem samplePlatform sampleConfig).exec (.start sampleConfig .empty)
      claimedBetween).map (fun s => (rowStatus s 1, rowStatus s 2)) =
        some (some .processing, some .new) := by decide +kernel
  have hlimited : ∀ label ∈ claimedBetween, label.limited = true := by decide +kernel
  obtain ⟨s, hs, hrows⟩ := Option.map_eq_some_iff.mp hrun
  rw [Prod.mk.injEq] at hrows
  exact ⟨s, hs, hrows.1, hrows.2, bridge_serialisable hlimited hs⟩

end EdgeBridge
