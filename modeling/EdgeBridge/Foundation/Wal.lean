import EdgeBridge.Foundation.System

/-!
# Transactions of a write-ahead-log database

Many connections share one database.  A deferred transaction takes its snapshot
at its first read; a transaction asks for the write lock at its first write, or
at once when it was begun immediate.  Nobody else commits while the lock is
held, so the statements of a writing transaction act as one at its commit.

A connection that has read nothing waits for the lock.  One that holds a
snapshot does not wait: if somebody writes, or has committed since the snapshot,
its first write fails with `SQLITE_BUSY`, whatever the busy timeout.
-/

namespace EdgeBridge.Foundation

universe u v

inductive Transaction (σ : Type u) where
  | idle
  | reading (version : Nat) (snapshot : σ)
  | writing

structure Wal (σ : Type u) (κ : Type v) where
  data : σ
  version : Nat
  writer : Option κ
  transaction : κ → Transaction σ

/-- The answer to a request for the write lock. -/
inductive Lock (σ : Type u) (κ : Type v) where
  | granted (wal : Wal σ κ)
  | busy
  | blocked

namespace Wal

variable {σ : Type u} {κ : Type v} [DecidableEq κ]

def start (data : σ) : Wal σ κ := ⟨data, 0, none, fun _ => .idle⟩

def setTransaction (wal : Wal σ κ) (c : κ) (transaction : Transaction σ) :
    κ → Transaction σ :=
  fun d => if d = c then transaction else wal.transaction d

/-- The first read of a deferred transaction. -/
def read (wal : Wal σ κ) (c : κ) : Wal σ κ :=
  { wal with transaction := wal.setTransaction c (.reading wal.version wal.data) }

/-- The first write of a transaction, or `BEGIN IMMEDIATE`. -/
def lock (wal : Wal σ κ) (c : κ) : Lock σ κ :=
  match wal.transaction c with
  | .idle =>
      if wal.writer.isNone then
        .granted { wal with
          writer := some c
          transaction := wal.setTransaction c .writing }
      else .blocked
  | .reading version _ =>
      if wal.writer.isNone && version == wal.version then
        .granted { wal with
          writer := some c
          transaction := wal.setTransaction c .writing }
      else .busy
  | .writing => .granted wal

/-- Commit what the connection wrote under its lock. -/
def commit (wal : Wal σ κ) (c : κ) (data : σ) : Wal σ κ where
  data := data
  version := wal.version + 1
  writer := none
  transaction := wal.setTransaction c .idle

/-- Roll back, or end a transaction that only read. -/
def close (wal : Wal σ κ) (c : κ) : Wal σ κ :=
  { wal with
    writer := if wal.writer = some c then none else wal.writer
    transaction := wal.setTransaction c .idle }

@[simp] theorem data_read (wal : Wal σ κ) (c : κ) : (wal.read c).data = wal.data := rfl

@[simp] theorem data_close (wal : Wal σ κ) (c : κ) : (wal.close c).data = wal.data := rfl

@[simp] theorem data_commit (wal : Wal σ κ) (c : κ) (data : σ) :
    (wal.commit c data).data = data := rfl

@[simp] theorem version_commit (wal : Wal σ κ) (c : κ) (data : σ) :
    (wal.commit c data).version = wal.version + 1 := rfl

@[simp] theorem version_close (wal : Wal σ κ) (c : κ) :
    (wal.close c).version = wal.version := rfl

@[simp] theorem transaction_read (wal : Wal σ κ) (c d : κ) :
    (wal.read c).transaction d =
      if d = c then .reading wal.version wal.data else wal.transaction d := rfl

@[simp] theorem transaction_close (wal : Wal σ κ) (c d : κ) :
    (wal.close c).transaction d = if d = c then .idle else wal.transaction d := rfl

@[simp] theorem transaction_commit (wal : Wal σ κ) (c d : κ) (data : σ) :
    (wal.commit c data).transaction d =
      if d = c then .idle else wal.transaction d := rfl

theorem lock_granted {wal after : Wal σ κ} {c : κ}
    (h : wal.lock c = .granted after) :
    after.data = wal.data ∧ after.version = wal.version ∧
      after.transaction c = .writing ∧
      ∀ d, d ≠ c → after.transaction d = wal.transaction d := by
  unfold lock at h
  split at h
  · split at h
    · cases h
      refine ⟨rfl, rfl, by simp [setTransaction], ?_⟩
      intro d hd
      simp [setTransaction, hd]
    · cases h
  · split at h
    · cases h
      refine ⟨rfl, rfl, by simp [setTransaction], ?_⟩
      intro d hd
      simp [setTransaction, hd]
    · cases h
  · next hwriting =>
    cases h
    exact ⟨rfl, rfl, hwriting, fun _ _ => rfl⟩

/-! ## Serialisability -/

/-- Only the holder of the lock writes, and a current snapshot shows the data. -/
structure Consistent (wal : Wal σ κ) : Prop where
  writer_iff : ∀ c, wal.transaction c = .writing ↔ wal.writer = some c
  snapshot_le : ∀ c version snapshot,
    wal.transaction c = .reading version snapshot → version ≤ wal.version
  snapshot_data : ∀ c snapshot,
    wal.transaction c = .reading wal.version snapshot → snapshot = wal.data

omit [DecidableEq κ] in
theorem consistent_start (data : σ) : (start data : Wal σ κ).Consistent where
  writer_iff := by intro c; simp [start]
  snapshot_le := by intro c version snapshot h; simp [start] at h
  snapshot_data := by intro c snapshot h; simp [start] at h

theorem Consistent.read {wal : Wal σ κ} (h : wal.Consistent) {c : κ}
    (hidle : wal.transaction c = .idle) : (wal.read c).Consistent where
  writer_iff := by
    intro d
    by_cases hd : d = c
    · subst hd
      have hno := (h.writer_iff d).not.mp (by simp [hidle])
      simpa [Wal.read, setTransaction] using hno
    · simpa [Wal.read, setTransaction, hd] using h.writer_iff d
  snapshot_le := by
    intro d version snapshot hread
    by_cases hd : d = c
    · simp only [transaction_read, hd, if_true, Transaction.reading.injEq] at hread
      exact Nat.le_of_eq hread.1.symm
    · simp only [transaction_read, hd, if_false] at hread
      exact h.snapshot_le d version snapshot hread
  snapshot_data := by
    intro d snapshot hread
    by_cases hd : d = c
    · simp only [transaction_read, hd, if_true, Transaction.reading.injEq] at hread
      exact hread.2.symm
    · simp only [transaction_read, hd, if_false] at hread
      exact h.snapshot_data d snapshot hread

theorem Consistent.lock {wal after : Wal σ κ} (h : wal.Consistent) {c : κ}
    (hlock : wal.lock c = .granted after) : after.Consistent := by
  have hgrant : ∀ {wal' : Wal σ κ}, wal.writer.isNone = true →
      wal' = { wal with
        writer := some c
        transaction := wal.setTransaction c .writing } → wal'.Consistent := by
    rintro wal' hnone rfl
    rw [Option.isNone_iff_eq_none] at hnone
    refine ⟨?_, ?_, ?_⟩
    · intro d
      by_cases hd : d = c
      · simp [setTransaction, hd]
      · have := h.writer_iff d
        rw [hnone] at this
        simpa [setTransaction, hd, Ne.symm hd] using this
    · intro d version snapshot hread
      by_cases hd : d = c
      · simp [setTransaction, hd] at hread
      · exact h.snapshot_le d version snapshot (by simpa [setTransaction, hd] using hread)
    · intro d snapshot hread
      by_cases hd : d = c
      · simp [setTransaction, hd] at hread
      · exact h.snapshot_data d snapshot (by simpa [setTransaction, hd] using hread)
  unfold Wal.lock at hlock
  split at hlock
  · split at hlock
    · next hnone =>
      cases hlock
      exact hgrant hnone rfl
    · cases hlock
  · split at hlock
    · next hcurrent =>
      cases hlock
      rw [Bool.and_eq_true] at hcurrent
      exact hgrant hcurrent.1 rfl
    · cases hlock
  · cases hlock
    exact h

theorem Consistent.commit {wal : Wal σ κ} (h : wal.Consistent) {c : κ} (data : σ)
    (hwriting : wal.transaction c = .writing) : (wal.commit c data).Consistent where
  writer_iff := by
    intro d
    by_cases hd : d = c
    · simp [Wal.commit, setTransaction, hd]
    · have hother := h.writer_iff d
      rw [(h.writer_iff c).mp hwriting] at hother
      simpa [Wal.commit, setTransaction, hd, Ne.symm hd] using hother
  snapshot_le := by
    intro d version snapshot hread
    by_cases hd : d = c
    · simp [hd] at hread
    · simp only [transaction_commit, hd, if_false] at hread
      exact Nat.le_succ_of_le (h.snapshot_le d version snapshot hread)
  snapshot_data := by
    intro d snapshot hread
    by_cases hd : d = c
    · simp [hd] at hread
    · simp only [transaction_commit, hd, if_false, version_commit] at hread
      have := h.snapshot_le d _ snapshot hread
      omega

theorem Consistent.close {wal : Wal σ κ} (h : wal.Consistent) (c : κ) :
    (wal.close c).Consistent where
  writer_iff := by
    intro d
    by_cases hd : d = c
    · simp only [Wal.close, setTransaction, hd, if_true]
      split <;> simp_all
    · have hother := h.writer_iff d
      simp only [Wal.close, setTransaction, hd, if_false, hother]
      split
      · next hc => simp [hc, Ne.symm hd]
      · rfl
  snapshot_le := by
    intro d version snapshot hread
    by_cases hd : d = c
    · simp [hd] at hread
    · exact h.snapshot_le d version snapshot (by simpa [hd] using hread)
  snapshot_data := by
    intro d snapshot hread
    by_cases hd : d = c
    · simp [hd] at hread
    · exact h.snapshot_data d snapshot (by simpa [hd] using hread)

/--
A reader that is granted the write lock has read the data it now writes to: a
read-then-write transaction is either refused or atomic.
-/
theorem Consistent.upgrade {wal after : Wal σ κ} (h : wal.Consistent) {c : κ}
    {version : Nat} {snapshot : σ}
    (hread : wal.transaction c = .reading version snapshot)
    (hlock : wal.lock c = .granted after) :
    version = wal.version ∧ snapshot = after.data := by
  have hdata := (lock_granted hlock).1
  unfold Wal.lock at hlock
  rw [hread] at hlock
  simp only at hlock
  split at hlock
  · next hcurrent =>
    simp only [Bool.and_eq_true, beq_iff_eq] at hcurrent
    rw [hdata]
    exact ⟨hcurrent.2, h.snapshot_data c snapshot (hcurrent.2 ▸ hread)⟩
  · cases hlock

/-- A reader whose snapshot is current is granted a free lock. -/
theorem lock_of_current {wal : Wal σ κ} {c : κ} {version : Nat} {snapshot : σ}
    (hread : wal.transaction c = .reading version snapshot)
    (hcurrent : (wal.writer.isNone && version == wal.version) = true) :
    wal.lock c = .granted { wal with
      writer := some c
      transaction := wal.setTransaction c .writing } := by
  unfold lock
  rw [hread]
  simp only [hcurrent, if_true]

end Wal

end EdgeBridge.Foundation
