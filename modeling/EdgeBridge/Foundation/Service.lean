import Mathlib.Algebra.BigOperators.Group.Finset.Piecewise
import Mathlib.Algebra.Group.Action.Defs
import Mathlib.Algebra.Order.BigOperators.Group.Finset
import Mathlib.Algebra.Order.Ring.Nat

/-!
# Bounded service

Calls that each serve some items of a queue.  When no item is served more often
than `bound`, and every call of some kind serves a full batch of the items ahead,
there are no more such calls than the items ahead can fill.
-/

namespace EdgeBridge.Foundation

universe u v

section

variable {κ : Type u} {ι : Type v} [DecidableEq ι] (serves : κ → List ι)

def timesServed (calls : List κ) (item : ι) : Nat :=
  calls.countP fun call => decide (item ∈ serves call)

theorem timesServed_append (first second : List κ) (item : ι) :
    timesServed serves (first ++ second) item =
      timesServed serves first item + timesServed serves second item :=
  List.countP_append

theorem timesServed_pos {calls : List κ} {item : ι} :
    0 < timesServed serves calls item ↔ ∃ call ∈ calls, item ∈ serves call := by
  simp [timesServed, List.countP_pos_iff]

theorem sum_timesServed (ahead : Finset ι) (calls : List κ) :
    ∑ item ∈ ahead, timesServed serves calls item =
      (calls.map fun call => (ahead.filter fun item => item ∈ serves call).card).sum := by
  induction calls with
  | nil => simp [timesServed]
  | cons call calls ih =>
      have hhead : ∀ item, timesServed serves (call :: calls) item =
          timesServed serves calls item + if item ∈ serves call then 1 else 0 := by
        intro item
        simp [timesServed, List.countP_cons]
      simp only [hhead, Finset.sum_add_distrib, ih, List.map_cons, List.sum_cons,
        Finset.card_filter]
      omega

theorem calls_fill {ahead : Finset ι} {calls : List κ} {counted : κ → Bool} {batch : Nat}
    (hfull : ∀ call ∈ calls, counted call = true →
      batch ≤ (ahead.filter fun item => item ∈ serves call).card) :
    batch * calls.countP counted ≤ ∑ item ∈ ahead, timesServed serves calls item := by
  rw [sum_timesServed]
  induction calls with
  | nil => simp
  | cons call calls ih =>
      have hrest := ih fun other hother => hfull other (List.mem_cons_of_mem call hother)
      rw [List.countP_cons, List.map_cons, List.sum_cons]
      cases hcounted : counted call with
      | false =>
          simp only [Bool.false_eq_true, if_false, Nat.add_zero]
          omega
      | true =>
          have hhead := hfull call List.mem_cons_self hcounted
          simp only [if_true, Nat.mul_add, Nat.mul_one]
          omega

theorem calls_bounded {ahead : Finset ι} {calls : List κ} {counted : κ → Bool}
    {batch bound : Nat} (hbatch : 0 < batch)
    (hbound : ∀ item ∈ ahead, timesServed serves calls item ≤ bound)
    (hfull : ∀ call ∈ calls, counted call = true →
      batch ≤ (ahead.filter fun item => item ∈ serves call).card) :
    calls.countP counted ≤ ahead.card * bound / batch := by
  have hfill := calls_fill serves hfull
  have htotal := Finset.sum_le_card_nsmul ahead _ bound hbound
  rw [smul_eq_mul] at htotal
  rw [Nat.le_div_iff_mul_le hbatch, Nat.mul_comm]
  exact Nat.le_trans hfill htotal

end

/-- A member of an ascending list that a prefix has not reached: the prefix is full,
and all of it lies ahead. -/
theorem take_full {items : List Nat} (hascending : items.Pairwise (· < ·)) {item : Nat}
    (hmem : item ∈ items) {batch : Nat} (hnot : item ∉ items.take batch) :
    (items.take batch).length = batch ∧ ∀ other ∈ items.take batch, other < item := by
  have hdrop : item ∈ items.drop batch := by
    rw [← List.take_append_drop batch items, List.mem_append] at hmem
    exact hmem.resolve_left hnot
  constructor
  · have hlength := List.length_pos_of_mem hdrop
    rw [List.length_drop] at hlength
    rw [List.length_take]
    omega
  · intro other hother
    rw [← List.take_append_drop batch items, List.pairwise_append] at hascending
    exact hascending.2.2 other hother item hdrop

end EdgeBridge.Foundation
