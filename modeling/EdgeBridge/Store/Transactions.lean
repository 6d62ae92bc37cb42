import EdgeBridge.Foundation.System
import EdgeBridge.Job

/-!
# Sequences of transactions

Any transactions of the program, one after the other, on any database.  An
exception rolls its transaction back and the sequence goes on.
-/

namespace EdgeBridge

open Foundation

/-- The database after a transaction that has ended, well or with an exception. -/
def Database.after (platform : Platform) (db : Database) (op : Job × Datetime) : Database :=
  match op.1.run platform op.2 db with
  | .ok (_, after) => after
  | .error _ => db

def transactions {ε : Type} (platform : Platform)
    (observe : Database → Job × Datetime → List ε) :
    System Database (Job × Datetime) ε where
  init := .empty
  step db op := some (db.after platform op)
  observe := observe

/-- Every transaction ends. -/
theorem exec_transactions {ε : Type} (platform : Platform)
    (observe : Database → Job × Datetime → List ε) (db : Database)
    (ops : List (Job × Datetime)) : ∃ t, (transactions platform observe).exec db ops = some t := by
  induction ops generalizing db with
  | nil => exact ⟨db, rfl⟩
  | cons op ops ih => exact ih (db.after platform op)

def Job.isCleanup : Job → Bool
  | .cleanup _ _ => true
  | _ => false

section

variable {platform : Platform} {db : Database} {job : Job} {now : Datetime}

theorem Database.after_cases (platform : Platform) (db : Database) (job : Job)
    (now : Datetime) : db.after platform (job, now) = db ∨
      ∃ answer, job.run platform now db = .ok (answer, db.after platform (job, now)) := by
  unfold Database.after
  cases job.run platform now db with
  | error error => exact .inl rfl
  | ok result => exact .inr ⟨result.1, rfl⟩

/-! ## Rows by their hash -/

/-- `message_hash` is unique. -/
theorem messageByHash_of_mem {row : MessageRecord} (h : row ∈ db.mqttMessages.rows) :
    (db.mqttMessages.find? fun record => record.messageHash == row.messageHash) =
      some row := by
  cases hfind : db.mqttMessages.find? fun record => record.messageHash == row.messageHash with
  | none =>
      have hne := Table.find?_eq_none hfind h
      simp at hne
  | some found =>
      have hfound := Table.find?_eq_some hfind
      rw [Table.eq_of_clash hfound.1 h hfound.2]
      exact beq_iff_eq.mpr (beq_iff_eq.mp hfound.2).symm

/-- Only a cleanup removes a row; a row never changes its identity. -/
theorem RowChange.identity {seq id : Nat} {answer : Answer} {row : MessageRecord}
    {after : Option MessageRecord} (h : RowChange now seq id job answer (some row) after)
    (hjob : job.isCleanup = false) :
    ∃ next, after = some next ∧ next.messageHash = row.messageHash ∧
      next.topic = row.topic ∧ next.rawPayload = row.rawPayload := by
  cases h with
  | kept => exact ⟨row, rfl, rfl, rfl, rfl⟩
  | claimed _ _ _ => exact ⟨_, rfl, rfl, rfl, rfl⟩
  | completed _ _ => exact ⟨_, rfl, rfl, rfl, rfl⟩
  | failed _ => exact ⟨_, rfl, rfl, rfl, rfl⟩
  | recovered _ _ => exact ⟨_, rfl, rfl, rfl, rfl⟩
  | replayed _ _ => exact ⟨_, rfl, rfl, rfl, rfl⟩
  | deleted _ _ => cases hjob

end

end EdgeBridge
