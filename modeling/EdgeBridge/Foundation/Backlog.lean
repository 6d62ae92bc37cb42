import Mathlib.Data.List.Induction

/-!
# A backlog served in batches

Every batch takes the first items of a backlog.  The served items leave it and the
refused ones keep their places, so that the next batch begins with them again.
-/

namespace EdgeBridge.Foundation

universe u v

namespace Backlog

variable {α : Type u} {β : Type v} (serve : α → Option β)

/-- An item that is refused by every batch. -/
def refused (item : α) : Bool := (serve item).isNone

def refusals (items : List α) : Nat := items.countP (refused serve)

/-- The backlog once the first `tried` items have been tried. -/
def rest (items : List α) (tried : Nat) : List α :=
  (items.take tried).filter (refused serve) ++ items.drop tried

/-- How many items have been tried after one more batch: it has room for new items only
after those that have been refused. -/
def reach (items : List α) (tried limit : Nat) : Nat :=
  tried + (limit - refusals serve (items.take tried))

/-- How many items batches of these sizes try. -/
def reaches (items : List α) (limits : List Nat) : Nat :=
  limits.foldl (reach serve items) 0

variable {serve} {items front back : List α} {item : α} {tried limit : Nat}

theorem length_filter_refused (items : List α) :
    (items.filter (refused serve)).length = refusals serve items :=
  List.countP_eq_length_filter.symm

theorem refusals_append (front back : List α) :
    refusals serve (front ++ back) = refusals serve front + refusals serve back :=
  List.countP_append

theorem refusals_le_length (serve : α → Option β) (items : List α) :
    refusals serve items ≤ items.length :=
  List.countP_le_length

theorem take_reach (items : List α) (tried limit : Nat) :
    items.take (reach serve items tried limit) =
      items.take tried ++
        (items.drop tried).take (limit - refusals serve (items.take tried)) :=
  List.take_add

/-! ## One batch -/

/-- What a batch takes: refused items first, then new ones. -/
theorem take_rest (items : List α) (tried limit : Nat) :
    (rest serve items tried).take limit =
      ((items.take tried).filter (refused serve)).take limit ++
        (items.drop tried).take (limit - refusals serve (items.take tried)) := by
  rw [rest, List.take_append, length_filter_refused]

/-- What a batch serves are the served ones among the new items. -/
theorem served_reach (items : List α) (tried limit : Nat) :
    (items.take tried).filterMap serve ++
        ((rest serve items tried).take limit).filterMap serve =
      (items.take (reach serve items tried limit)).filterMap serve := by
  have hagain : (((items.take tried).filter (refused serve)).take limit).filterMap serve =
      [] := by
    rw [List.filterMap_eq_nil_iff]
    intro item hitem
    have hrefused := (List.mem_filter.mp (List.mem_of_mem_take hitem)).2
    exact Option.isNone_iff_eq_none.mp hrefused
  rw [take_rest, take_reach, List.filterMap_append, List.filterMap_append, hagain,
    List.nil_append]

theorem rest_rest (items : List α) (tried limit : Nat) :
    rest serve (rest serve items tried) limit =
      rest serve items (reach serve items tried limit) := by
  have hkept : (((items.take tried).filter (refused serve)).take limit).filter
      (refused serve) = ((items.take tried).filter (refused serve)).take limit := by
    rw [List.filter_eq_self]
    intro item hitem
    exact (List.mem_filter.mp (List.mem_of_mem_take hitem)).2
  have hdrop : (rest serve items tried).drop limit =
      ((items.take tried).filter (refused serve)).drop limit ++
        (items.drop tried).drop (limit - refusals serve (items.take tried)) := by
    rw [rest, List.drop_append, length_filter_refused]
  have hdrops : items.drop (reach serve items tried limit) =
      (items.drop tried).drop (limit - refusals serve (items.take tried)) := by
    rw [List.drop_drop, reach]
  rw [rest, take_rest, hdrop, List.filter_append, hkept, rest, take_reach, hdrops,
    List.filter_append, List.append_assoc]
  obtain hfull | hroom := Nat.le_total limit (refusals serve (items.take tried))
  · -- the batch is full of refused items
    have hnone : limit - refusals serve (items.take tried) = 0 := by omega
    simp only [hnone, List.take_zero, List.filter_nil, List.nil_append, List.append_nil]
    rw [← List.append_assoc, List.take_append_drop]
  · have hlength : ((items.take tried).filter (refused serve)).length ≤ limit := by
      rw [length_filter_refused]
      exact hroom
    rw [List.take_of_length_le hlength, List.drop_eq_nil_of_le hlength]
    simp only [List.nil_append, List.append_assoc]

/-! ## Many batches -/

theorem reaches_snoc (items : List α) (limits : List Nat) (limit : Nat) :
    reaches serve items (limits ++ [limit]) =
      reach serve items (reaches serve items limits) limit := by
  rw [reaches, List.foldl_append]
  rfl

theorem reach_le (h : tried ≤ front.length) (hfull : limit ≤ refusals serve front) :
    reach serve (front ++ back) tried limit ≤ front.length := by
  have hsplit : refusals serve front =
      refusals serve (front.take tried) + refusals serve (front.drop tried) := by
    rw [← refusals_append, List.take_append_drop]
  have hlast := refusals_le_length serve (front.drop tried)
  rw [List.length_drop] at hlast
  rw [reach, List.take_append_of_le_length h]
  omega

/-- Behind as many refused items as a batch has places, nothing is ever tried. -/
theorem reaches_le {limits : List Nat} (h : ∀ limit ∈ limits, limit ≤ refusals serve front) :
    reaches serve (front ++ back) limits ≤ front.length := by
  induction limits using List.reverseRecOn with
  | nil => exact Nat.zero_le _
  | append_singleton limits limit ih =>
      rw [reaches_snoc]
      refine reach_le (ih fun other hother => h other (List.mem_append_left _ hother)) ?_
      exact h limit (List.mem_append_right _ (List.mem_singleton_self limit))

theorem add_le_reach (serve : α → Option β) (back : List α) (limit : Nat)
    (htried : tried ≤ front.length) :
    tried + (limit - refusals serve front) ≤ reach serve (front ++ back) tried limit := by
  have hfew : refusals serve (front.take tried) ≤ refusals serve front :=
    (List.take_sublist tried front).countP_le
  rw [reach, List.take_append_of_le_length htried]
  omega

/-- Every batch gets further by the places that the refused items leave free. -/
theorem le_reaches (serve : α → Option β) (front back : List α) (batches limit : Nat) :
    min (batches * (limit - refusals serve front)) (front.length + 1) ≤
      reaches serve (front ++ back) (List.replicate batches limit) := by
  induction batches with
  | zero => simp
  | succ batches ih =>
      rw [List.replicate_succ', reaches_snoc]
      by_cases htried : reaches serve (front ++ back) (List.replicate batches limit) ≤
          front.length
      · have hnext := add_le_reach serve back limit htried
        rw [Nat.succ_mul]
        omega
      · have hkept : reaches serve (front ++ back) (List.replicate batches limit) ≤
            reach serve (front ++ back)
              (reaches serve (front ++ back) (List.replicate batches limit)) limit :=
          Nat.le_add_right _ _
        omega

end Backlog

end EdgeBridge.Foundation
