import Mathlib.Algebra.Order.Ring.Nat
import Mathlib.Data.List.Induction
import Mathlib.Data.List.Nodup
import Mathlib.Data.List.Pairwise

/-!
# Tables with an autoincrement key

A table holds its rows in the order of their integer primary key, together with
the largest key ever given out.  A new row gets the next key, even when the rows
with the largest keys were deleted, so a key is never used twice.  The `UNIQUE`
constraints are a relation `clash` between the unique parts of two rows; the
well-formedness of the table is carried by its fields.
-/

namespace EdgeBridge.Foundation

universe u v

class Row (α : Type u) where
  Key : Type v
  rowId : α → Nat
  withId : Nat → α → α
  key : α → Key
  clash : Key → Key → Bool
  rowId_withId : ∀ n row, rowId (withId n row) = n
  key_withId : ∀ n row, key (withId n row) = key row

export Row (rowId)

attribute [simp] Row.rowId_withId Row.key_withId

@[ext] structure Table (α : Type u) [Row α] where
  rows : List α
  seq : Nat
  ascending : rows.Pairwise fun a b => rowId a < rowId b
  bounded : ∀ row ∈ rows, rowId row ≤ seq
  unique : rows.Pairwise fun a b => Row.clash (Row.key a) (Row.key b) = false

namespace Table

variable {α : Type u} [Row α]

def empty : Table α where
  rows := []
  seq := 0
  ascending := .nil
  bounded := by simp
  unique := .nil

/-- Whether a `UNIQUE` constraint forbids to add the row. -/
def conflicts (table : Table α) (row : α) : Bool :=
  table.rows.any fun other => Row.clash (Row.key other) (Row.key row)

/-- `INSERT`; `none` is a constraint violation. -/
def insert (table : Table α) (row : α) : Option (Table α) :=
  if h : table.conflicts row = false then
    some {
      rows := table.rows ++ [Row.withId (table.seq + 1) row]
      seq := table.seq + 1
      ascending := by
        rw [List.pairwise_append]
        refine ⟨table.ascending, List.pairwise_singleton _ _, ?_⟩
        intro a ha b hb
        have := table.bounded a ha
        rw [List.mem_singleton.mp hb, Row.rowId_withId]
        exact Nat.lt_succ_of_le this
      bounded := by
        intro other hother
        rcases List.mem_append.mp hother with hold | hnew
        · exact Nat.le_succ_of_le (table.bounded other hold)
        · exact Nat.le_of_eq (by rw [List.mem_singleton.mp hnew, Row.rowId_withId])
      unique := by
        rw [List.pairwise_append]
        refine ⟨table.unique, List.pairwise_singleton _ _, ?_⟩
        intro a ha b hb
        rw [List.mem_singleton.mp hb, Row.key_withId]
        simpa using List.any_eq_false.mp h a ha }
  else none

/-- A change of a row that keeps its primary key and its unique parts. -/
structure Update (α : Type u) [Row α] where
  apply : α → α
  rowId_apply : ∀ row, rowId (apply row) = rowId row := by intro row; rfl
  key_apply : ∀ row, Row.key (apply row) = Row.key row := by intro row; rfl

instance : CoeFun (Update α) fun _ => α → α := ⟨Update.apply⟩

@[simp] theorem Update.rowId (change : Update α) (row : α) :
    rowId (change row) = rowId row := change.rowId_apply row

@[simp] theorem Update.key (change : Update α) (row : α) :
    Row.key (change row) = Row.key row := change.key_apply row

/-- `UPDATE ... WHERE`. -/
def update (table : Table α) (which : α → Bool) (change : Update α) : Table α where
  rows := table.rows.map fun row => if which row then change row else row
  seq := table.seq
  ascending := by
    rw [List.pairwise_map]
    refine table.ascending.imp ?_
    intro a b h
    split <;> split <;> simpa using h
  bounded := by
    intro row hrow
    obtain ⟨old, hold, rfl⟩ := List.mem_map.mp hrow
    have := table.bounded old hold
    split <;> simpa using this
  unique := by
    rw [List.pairwise_map]
    refine table.unique.imp ?_
    intro a b h
    split <;> split <;> simpa using h

/-- The next id is used up without a row, as by an `INSERT` that becomes an `UPDATE`. -/
def skipId (table : Table α) : Table α where
  rows := table.rows
  seq := table.seq + 1
  ascending := table.ascending
  bounded := fun row hrow => Nat.le_succ_of_le (table.bounded row hrow)
  unique := table.unique

/-- `DELETE ... WHERE`. -/
def delete (table : Table α) (which : α → Bool) : Table α where
  rows := table.rows.filter fun row => !which row
  seq := table.seq
  ascending := table.ascending.filter _
  bounded := fun row hrow => table.bounded row (List.mem_filter.mp hrow).1
  unique := table.unique.filter _

/-- `SELECT ... WHERE ... ORDER BY id ASC`. -/
def select (table : Table α) (which : α → Bool) : List α := table.rows.filter which

/-- `SELECT ... WHERE ... LIMIT 1`. -/
def find? (table : Table α) (which : α → Bool) : Option α := table.rows.find? which

/-- The row with the given primary key. -/
def byId (table : Table α) (id : Nat) : Option α :=
  table.find? fun row => rowId row == id

/-! ## Rows by primary key -/

private theorem pairwise_mem {β : Type u} {R : β → β → Prop} {rows : List β}
    (h : rows.Pairwise R) {a b : β} (ha : a ∈ rows) (hb : b ∈ rows) :
    a = b ∨ R a b ∨ R b a := by
  induction h with
  | nil => simp at ha
  | cons hhead _ ih =>
      rcases List.mem_cons.mp ha with rfl | hatail <;>
        rcases List.mem_cons.mp hb with rfl | hbtail
      · exact .inl rfl
      · exact .inr (.inl (hhead _ hbtail))
      · exact .inr (.inr (hhead _ hatail))
      · exact ih hatail hbtail

theorem eq_of_rowId_eq {table : Table α} {a b : α} (ha : a ∈ table.rows)
    (hb : b ∈ table.rows) (h : rowId a = rowId b) : a = b := by
  rcases pairwise_mem table.ascending ha hb with heq | hlt | hgt
  · exact heq
  · omega
  · omega

theorem byId_eq_some_iff {table : Table α} {id : Nat} {row : α} :
    table.byId id = some row ↔ row ∈ table.rows ∧ rowId row = id := by
  constructor
  · intro h
    exact ⟨List.mem_of_find?_eq_some h, by simpa using List.find?_some h⟩
  · rintro ⟨hmem, rfl⟩
    cases hfind : table.byId (rowId row) with
    | none =>
        have := List.find?_eq_none.mp hfind row hmem
        simp at this
    | some other =>
        have hother : rowId other = rowId row := by simpa using List.find?_some hfind
        rw [eq_of_rowId_eq (List.mem_of_find?_eq_some hfind) hmem hother]

theorem byId_rowId {table : Table α} {row : α} (h : row ∈ table.rows) :
    table.byId (rowId row) = some row :=
  byId_eq_some_iff.mpr ⟨h, rfl⟩

theorem mem_of_byId {table : Table α} {id : Nat} {row : α}
    (h : table.byId id = some row) : row ∈ table.rows :=
  (byId_eq_some_iff.mp h).1

theorem rowId_of_byId {table : Table α} {id : Nat} {row : α}
    (h : table.byId id = some row) : rowId row = id :=
  (byId_eq_some_iff.mp h).2

theorem byId_of_seq_lt {table : Table α} {id : Nat} (h : table.seq < id) :
    table.byId id = none := by
  cases hrow : table.byId id with
  | none => rfl
  | some row =>
      have hmem := byId_eq_some_iff.mp hrow
      have := table.bounded row hmem.1
      omega

@[simp] theorem byId_empty (id : Nat) : (empty : Table α).byId id = none := rfl

@[simp] theorem seq_update (table : Table α) (which : α → Bool) (change : Update α) :
    (table.update which change).seq = table.seq := rfl

@[simp] theorem seq_delete (table : Table α) (which : α → Bool) :
    (table.delete which).seq = table.seq := rfl

/-! ## Rows by a condition -/

theorem find?_skipId (table : Table α) (which : α → Bool) :
    table.skipId.find? which = table.find? which := rfl

theorem find?_eq_some {table : Table α} {p : α → Bool} {row : α}
    (h : table.find? p = some row) : row ∈ table.rows ∧ p row = true :=
  ⟨List.mem_of_find?_eq_some h, List.find?_some h⟩

theorem find?_eq_none {table : Table α} {p : α → Bool} (h : table.find? p = none)
    {row : α} (hrow : row ∈ table.rows) : p row = false := by
  simpa using List.find?_eq_none.mp h row hrow

theorem select_congr {table : Table α} {which which' : α → Bool}
    (h : ∀ row ∈ table.rows, which row = which' row) :
    table.select which = table.select which' :=
  List.filter_congr h

theorem update_congr {table : Table α} {which which' : α → Bool} {change change' : Update α}
    (hwhich : ∀ row ∈ table.rows, which row = which' row)
    (hchange : ∀ row ∈ table.rows, change row = change' row) :
    table.update which change = table.update which' change' := by
  refine Table.ext (List.map_congr_left fun row hrow => ?_) rfl
  rw [hwhich row hrow, hchange row hrow]

/-- An update of no row changes nothing. -/
theorem update_of_none {table : Table α} {which : α → Bool} (change : Update α)
    (h : table.select which = []) : table.update which change = table := by
  have hnone := List.filter_eq_nil_iff.mp h
  apply Table.ext
  · apply (List.map_congr_left ?_).trans (List.map_id _)
    intro row hrow
    simp [hnone row hrow]
  · rfl

theorem find?_update (table : Table α) (which : α → Bool) (change : Update α)
    {p : α → Bool} (hp : ∀ row, p (change row) = p row) :
    (table.update which change).find? p =
      (table.find? p).map fun row => if which row then change row else row := by
  unfold find? update
  rw [List.find?_map]
  congr 2
  funext row
  simp only [Function.comp_apply]
  split
  · exact hp row
  · rfl

/-- For a condition that at most one row meets. -/
theorem find?_delete (table : Table α) (which : α → Bool) {p : α → Bool}
    (hp : ∀ a ∈ table.rows, ∀ b ∈ table.rows, p a = true → p b = true → a = b) :
    (table.delete which).find? p = (table.find? p).filter fun row => !which row := by
  cases hrow : table.find? p with
  | none =>
      rw [Option.filter_none]
      apply List.find?_eq_none.mpr
      intro row hmem
      exact List.find?_eq_none.mp hrow row (List.mem_filter.mp hmem).1
  | some row =>
      have hfound := find?_eq_some hrow
      cases hwhich : which row with
      | false =>
          rw [Option.filter_some, if_pos (by simp [hwhich])]
          have hkept : row ∈ (table.delete which).rows :=
            List.mem_filter.mpr ⟨hfound.1, by simp [hwhich]⟩
          cases hfind : (table.delete which).find? p with
          | none =>
              have := find?_eq_none hfind hkept
              rw [hfound.2] at this
              cases this
          | some other =>
              have hother := find?_eq_some hfind
              have hmem := (List.mem_filter.mp hother.1).1
              rw [hp other hmem row hfound.1 hother.2 hfound.2]
      | true =>
          rw [Option.filter_some, if_neg (by simp [hwhich])]
          apply List.find?_eq_none.mpr
          intro other hother hsame
          obtain ⟨hmem, hkeep⟩ := List.mem_filter.mp hother
          have heq := hp other hmem row hfound.1 hsame hfound.2
          simp [heq, hwhich] at hkeep

theorem byId_update (table : Table α) (which : α → Bool) (change : Update α)
    (id : Nat) :
    (table.update which change).byId id =
      (table.byId id).map fun row => if which row then change row else row :=
  table.find?_update which change fun row => by simp

theorem byId_delete (table : Table α) (which : α → Bool) (id : Nat) :
    (table.delete which).byId id = (table.byId id).filter fun row => !which row := by
  apply find?_delete
  intro a ha b hb hida hidb
  simp only [beq_iff_eq] at hida hidb
  exact eq_of_rowId_eq ha hb (hida.trans hidb.symm)

theorem insert_eq_some_iff {table after : Table α} {row : α} :
    table.insert row = some after ↔ table.conflicts row = false ∧
      after.rows = table.rows ++ [Row.withId (table.seq + 1) row] ∧
      after.seq = table.seq + 1 := by
  unfold insert
  constructor
  · intro h
    split at h
    · next hfree =>
      cases h
      exact ⟨hfree, rfl, rfl⟩
    · cases h
  · rintro ⟨hfree, hrows, hseq⟩
    rw [dif_pos hfree, Option.some.injEq]
    exact Table.ext hrows.symm hseq.symm

theorem insert_eq_none_iff {table : Table α} {row : α} :
    table.insert row = none ↔ table.conflicts row = true := by
  unfold insert
  split
  · next hfree => simp [hfree]
  · next hbusy => simpa using hbusy

theorem find?_insert {table after : Table α} {row : α}
    (h : table.insert row = some after) (p : α → Bool) :
    after.find? p = (table.find? p).or
      (if p (Row.withId (table.seq + 1) row) then
        some (Row.withId (table.seq + 1) row) else none) := by
  obtain ⟨-, hrows, -⟩ := insert_eq_some_iff.mp h
  unfold find?
  rw [hrows, List.find?_append]
  congr 1
  simp only [List.find?_cons, List.find?_nil]
  split <;> simp_all

theorem byId_insert {table after : Table α} {row : α}
    (h : table.insert row = some after) (id : Nat) :
    after.byId id =
      if id = table.seq + 1 then some (Row.withId (table.seq + 1) row)
      else table.byId id := by
  have hfind := find?_insert h fun row => rowId row == id
  simp only [Row.rowId_withId] at hfind
  unfold byId
  rw [hfind]
  rcases eq_or_ne id (table.seq + 1) with rfl | hid
  · have hfree : table.byId (table.seq + 1) = none := byId_of_seq_lt (by omega)
    unfold byId at hfree
    simp [hfree]
  · simp [hid, hid.symm]

theorem seq_insert {table after : Table α} {row : α}
    (h : table.insert row = some after) : after.seq = table.seq + 1 :=
  (insert_eq_some_iff.mp h).2.2

/-- A change of one row changes a sum over the rows by its own difference. -/
theorem sum_update_row {table : Table α} {change : Update α} {row : α}
    (hrow : row ∈ table.rows) {f : α → Nat} {d : Nat} (hf : f (change row) = f row + d) :
    ((table.update (fun other => rowId other == rowId row) change).rows.map f).sum =
      (table.rows.map f).sum + d := by
  have hascending := table.ascending
  simp only [update, List.map_map]
  generalize table.rows = rows at hrow hascending ⊢
  induction rows with
  | nil => cases hrow
  | cons head tail ih =>
      rw [List.pairwise_cons] at hascending
      simp only [List.map_cons, List.sum_cons, Function.comp_apply]
      rcases List.mem_cons.mp hrow with rfl | htail
      · have hsame : tail.map (f ∘ fun other =>
            if rowId other == rowId row then change other else other) = tail.map f := by
          apply List.map_congr_left
          intro other hother
          have hlt := hascending.1 other hother
          simp [Nat.ne_of_gt hlt]
        rw [hsame]
        simp only [beq_self_eq_true, if_true, hf]
        omega
      · have hlt := hascending.1 row htail
        rw [ih htail hascending.2]
        simp only [beq_iff_eq, Nat.ne_of_lt hlt, if_false]
        omega

theorem sum_insert {table after : Table α} {row : α}
    (h : table.insert row = some after) (f : α → Nat) :
    (after.rows.map f).sum =
      (table.rows.map f).sum + f (Row.withId (table.seq + 1) row) := by
  rw [(insert_eq_some_iff.mp h).2.1]
  simp

/-! ### Counting rows -/

theorem countP_eq_sum {β : Type v} (p : β → Bool) (rows : List β) :
    rows.countP p = (rows.map fun row => if p row then 1 else 0).sum := by
  induction rows with
  | nil => rfl
  | cons row rows ih =>
      rw [List.countP_cons, List.map_cons, List.sum_cons, ih]
      omega

/-- An update that no row notices. -/
theorem countP_update {table : Table α} {which p : α → Bool} {change : Update α}
    (h : ∀ row ∈ table.rows, which row = true → p (change row) = p row) :
    (table.update which change).rows.countP p = table.rows.countP p := by
  rw [update, List.countP_map]
  apply List.countP_congr
  intro row hrow
  simp only [Function.comp_apply]
  split
  · next hwhich => rw [h row hrow hwhich]
  · rfl

/-- An update of one row that makes it count. -/
theorem countP_update_row {table : Table α} {p : α → Bool} {change : Update α} {row : α}
    (hrow : row ∈ table.rows) (hbefore : p row = false) (hafter : p (change row) = true) :
    (table.update (fun other => rowId other == rowId row) change).rows.countP p =
      table.rows.countP p + 1 := by
  rw [countP_eq_sum, countP_eq_sum]
  exact sum_update_row hrow (by simp [hbefore, hafter])

theorem countP_insert {table after : Table α} {row : α} (h : table.insert row = some after)
    (p : α → Bool) : after.rows.countP p =
      table.rows.countP p + if p (Row.withId (table.seq + 1) row) then 1 else 0 := by
  rw [countP_eq_sum, countP_eq_sum, sum_insert h]

theorem countP_delete (table : Table α) (which p : α → Bool) :
    (table.delete which).rows.countP p + table.rows.countP (fun row => which row && p row) =
      table.rows.countP p := by
  simp only [delete, List.countP_filter]
  generalize table.rows = rows
  induction rows with
  | nil => rfl
  | cons row rows ih =>
      simp only [List.countP_cons]
      cases which row <;> cases p row <;> simp <;> omega

/-- Two rows whose unique parts clash either way are the same row. -/
theorem eq_of_clash {table : Table α} {a b : α} (ha : a ∈ table.rows)
    (hb : b ∈ table.rows) (hab : Row.clash (Row.key a) (Row.key b) = true)
    (hba : Row.clash (Row.key b) (Row.key a) = true) : a = b := by
  rcases pairwise_mem table.unique ha hb with heq | hfree | hfree
  · exact heq
  · simp [hab] at hfree
  · simp [hba] at hfree

end Table

end EdgeBridge.Foundation
