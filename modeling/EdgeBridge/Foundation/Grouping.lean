import Mathlib.Algebra.Order.Ring.Nat
import Mathlib.Data.List.Nodup

/-!
# Items counted in groups

A table of groups keeps one count for each key of a list of items.  Selecting
groups and adding their counts up counts the items whose group is selected.
-/

namespace EdgeBridge.Foundation

universe u v w

section

variable {ι : Type u} {γ : Type v} {κ : Type w} [DecidableEq κ]

/-- Every item is counted in the one group of its key. -/
structure Grouped (key : ι → κ) (label : γ → κ) (size : γ → Nat) (items : List ι)
    (groups : List γ) : Prop where
  distinct : (groups.map label).Nodup
  sizes : ∀ group ∈ groups, size group = items.countP fun item => key item == label group
  complete : ∀ item ∈ items, ∃ group ∈ groups, label group = key item

/-- Some selected group has the key of the item. -/
def inSelected (key : ι → κ) (label : γ → κ) (selected : γ → Bool) (groups : List γ)
    (item : ι) : Bool :=
  groups.any fun group => selected group && key item == label group

theorem countP_inSelected_cons (key : ι → κ) (label : γ → κ) (selected : γ → Bool)
    {group : γ} {groups : List γ} (hfresh : label group ∉ groups.map label)
    (items : List ι) :
    items.countP (inSelected key label selected (group :: groups)) =
      (if selected group then items.countP fun item => key item == label group else 0) +
        items.countP (inSelected key label selected groups) := by
  induction items with
  | nil => simp
  | cons item items ih =>
      have hapart : key item = label group →
          inSelected key label selected groups item = false := by
        intro hkey
        apply List.any_eq_false.mpr
        intro other hother
        have hne : label group ≠ label other := fun hsame =>
          hfresh (hsame ▸ List.mem_map_of_mem hother)
        simp [hkey, hne]
      have hcons : inSelected key label selected (group :: groups) item =
          (selected group && key item == label group ||
            inSelected key label selected groups item) := List.any_cons
      rw [List.countP_cons, List.countP_cons, List.countP_cons, ih, hcons]
      by_cases hkey : key item = label group
      · rw [hapart hkey, hkey]
        cases selected group with
        | true =>
            simp
            omega
        | false => simp
      · rw [beq_eq_false_iff_ne.mpr hkey]
        cases selected group with
        | true =>
            simp
            omega
        | false => simp

theorem Grouped.sum_sizes {key : ι → κ} {label : γ → κ} {size : γ → Nat} {items : List ι}
    {groups : List γ} (h : Grouped key label size items groups) (selected : γ → Bool) :
    ((groups.filter selected).map size).sum =
      items.countP (inSelected key label selected groups) := by
  rcases h with ⟨hdistinct, hsizes, -⟩
  induction groups with
  | nil => exact (List.countP_eq_zero.mpr fun _ _ => Bool.false_ne_true).symm
  | cons group groups ih =>
      rcases List.nodup_cons.mp hdistinct with ⟨hfresh, hrest⟩
      have htail := ih hrest fun other hother => hsizes other (List.mem_cons_of_mem group hother)
      rw [countP_inSelected_cons key label selected hfresh, ← htail,
        ← hsizes group List.mem_cons_self, List.filter_cons]
      cases selected group with
      | true => rfl
      | false => simp

/-- With distinct labels an item belongs to one group only. -/
theorem Grouped.inSelected_iff {key : ι → κ} {label : γ → κ} {size : γ → Nat}
    {items : List ι} {groups : List γ} (h : Grouped key label size items groups)
    (selected : γ → Bool) {group : γ} (hgroup : group ∈ groups) {item : ι}
    (hkey : label group = key item) :
    inSelected key label selected groups item = selected group := by
  rw [Bool.eq_iff_iff, inSelected, List.any_eq_true]
  constructor
  · rintro ⟨other, hother, hboth⟩
    simp only [Bool.and_eq_true, beq_iff_eq] at hboth
    rw [List.inj_on_of_nodup_map h.distinct hgroup hother (hkey.trans hboth.2)]
    exact hboth.1
  · intro hselected
    exact ⟨group, hgroup, by simp [hselected, hkey]⟩

theorem countP_split (first second : ι → Bool) (items : List ι) :
    items.countP first = items.countP (fun item => first item && second item) +
      items.countP fun item => first item && !second item := by
  induction items with
  | nil => rfl
  | cons item items ih =>
      simp only [List.countP_cons, ih]
      cases first item <;> cases second item <;> simp <;> omega

end

end EdgeBridge.Foundation
