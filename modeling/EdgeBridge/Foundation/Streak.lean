import Mathlib.Data.Nat.Basic

/-!
# Runs of equal values

In a sequence of values, the maximal run of equal values around an index begins at
`runStart`, which one pass over the sequence computes.
-/

namespace EdgeBridge.Foundation

universe u

variable {β : Type u}

/-- `first` begins the maximal run of equal values that contains `i`. -/
structure BeginsRun (values : Nat → β) (first i : Nat) : Prop where
  le : first ≤ i
  equal : ∀ k, first ≤ k → k ≤ i → values k = values i
  maximal : ∀ k, k + 1 = first → values k ≠ values i

theorem BeginsRun.unique {values : Nat → β} {first other i : Nat}
    (h : BeginsRun values first i) (hother : BeginsRun values other i) :
    first = other := by
  have hnotBelow : ∀ {a b : Nat}, BeginsRun values a i → BeginsRun values b i → ¬ a < b := by
    intro a b ha hb hlt
    have hle := hb.le
    exact hb.maximal (b - 1) (by omega) (ha.equal (b - 1) (by omega) (by omega))
  have hforward := hnotBelow h hother
  have hbackward := hnotBelow hother h
  omega

variable [DecidableEq β]

def runStart (values : Nat → β) : Nat → Nat
  | 0 => 0
  | i + 1 => if values (i + 1) = values i then runStart values i else i + 1

theorem runStart_le (values : Nat → β) (i : Nat) : runStart values i ≤ i := by
  induction i with
  | zero => exact Nat.le_refl 0
  | succ i ih =>
      rw [runStart]
      split <;> omega

@[simp] theorem runStart_succ_of_eq {values : Nat → β} {i : Nat}
    (h : values (i + 1) = values i) : runStart values (i + 1) = runStart values i :=
  if_pos h

@[simp] theorem runStart_succ_of_ne {values : Nat → β} {i : Nat}
    (h : values (i + 1) ≠ values i) : runStart values (i + 1) = i + 1 :=
  if_neg h

theorem runStart_begins (values : Nat → β) (i : Nat) :
    BeginsRun values (runStart values i) i := by
  induction i with
  | zero =>
      constructor
      · exact Nat.le_refl 0
      · intro k hfirst hlast
        rw [Nat.le_zero.mp hlast]
      · intro k hk
        cases hk
  | succ i ih =>
      by_cases heq : values (i + 1) = values i
      · rw [runStart_succ_of_eq heq]
        constructor
        · exact Nat.le_succ_of_le ih.le
        · intro k hfirst hlast
          rcases Nat.lt_or_eq_of_le hlast with hbefore | hlast
          · rw [heq]
            exact ih.equal k hfirst (by omega)
          · rw [hlast]
        · intro k hk
          rw [heq]
          exact ih.maximal k hk
      · rw [runStart_succ_of_ne heq]
        constructor
        · exact Nat.le_refl _
        · intro k hfirst hlast
          rw [Nat.le_antisymm hlast hfirst]
        · intro k hk hsame
          rw [Nat.succ.inj hk] at hsame
          exact heq hsame.symm

theorem beginsRun_iff {values : Nat → β} {first i : Nat} :
    BeginsRun values first i ↔ first = runStart values i := by
  constructor
  · intro h
    exact h.unique (runStart_begins values i)
  · rintro rfl
    exact runStart_begins values i

/-- A run that contains the step before `i + 1` started before `i + 1`. -/
theorem runStart_succ_lt_iff {values : Nat → β} {i : Nat} :
    runStart values (i + 1) < i + 1 ↔ values (i + 1) = values i := by
  by_cases heq : values (i + 1) = values i
  · have hle := runStart_le values i
    rw [runStart_succ_of_eq heq]
    simp only [heq, iff_true]
    omega
  · rw [runStart_succ_of_ne heq]
    simp [heq]

end EdgeBridge.Foundation
