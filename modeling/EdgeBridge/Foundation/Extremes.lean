import Mathlib.Data.List.Induction
import Mathlib.Data.List.Nodup
import Mathlib.Order.Lattice

/-!
# First and last of a sequence

A fold over labelled times that keeps their number, the earliest time with its first
label, and the latest time with its last label.  It describes the whole sequence, and
for distinct times it does not depend on the order of the sequence.
-/

namespace EdgeBridge.Foundation

universe u v

variable {α : Type u} {τ : Type v} [LinearOrder τ]

/-- The first event with the least time. -/
def FirstLeast (events : List (α × τ)) (found : α × τ) : Prop :=
  ∃ before after, events = before ++ found :: after ∧
    (∀ event ∈ before, found.2 < event.2) ∧ ∀ event ∈ after, found.2 ≤ event.2

/-- The last event with the greatest time. -/
def LastGreatest (events : List (α × τ)) (found : α × τ) : Prop :=
  ∃ before after, events = before ++ found :: after ∧
    (∀ event ∈ before, event.2 ≤ found.2) ∧ ∀ event ∈ after, event.2 < found.2

section

variable {events : List (α × τ)} {found event : α × τ}

theorem FirstLeast.mem (h : FirstLeast events found) : found ∈ events := by
  obtain ⟨before, after, rfl, -, -⟩ := h
  simp

theorem FirstLeast.le (h : FirstLeast events found) (hevent : event ∈ events) :
    found.2 ≤ event.2 := by
  obtain ⟨before, after, rfl, hbefore, hafter⟩ := h
  simp only [List.mem_append, List.mem_cons] at hevent
  obtain hevent | rfl | hevent := hevent
  · exact (hbefore event hevent).le
  · exact le_rfl
  · exact hafter event hevent

theorem FirstLeast.single (event : α × τ) : FirstLeast [event] event :=
  ⟨[], [], by simp⟩

theorem FirstLeast.snoc_lt (h : FirstLeast events found) (hlt : event.2 < found.2) :
    FirstLeast (events ++ [event]) event :=
  ⟨events, [], rfl, fun _ hother => lt_of_lt_of_le hlt (h.le hother), by simp⟩

theorem FirstLeast.snoc_le (h : FirstLeast events found) (hle : found.2 ≤ event.2) :
    FirstLeast (events ++ [event]) found := by
  obtain ⟨before, after, rfl, hbefore, hafter⟩ := h
  refine ⟨before, after ++ [event], by simp, hbefore, ?_⟩
  intro other hother
  obtain hother | hother := List.mem_append.mp hother
  · exact hafter other hother
  · rw [List.mem_singleton.mp hother]
    exact hle

theorem LastGreatest.mem (h : LastGreatest events found) : found ∈ events := by
  obtain ⟨before, after, rfl, -, -⟩ := h
  simp

theorem LastGreatest.le (h : LastGreatest events found) (hevent : event ∈ events) :
    event.2 ≤ found.2 := by
  obtain ⟨before, after, rfl, hbefore, hafter⟩ := h
  simp only [List.mem_append, List.mem_cons] at hevent
  obtain hevent | rfl | hevent := hevent
  · exact hbefore event hevent
  · exact le_rfl
  · exact (hafter event hevent).le

theorem LastGreatest.single (event : α × τ) : LastGreatest [event] event :=
  ⟨[], [], by simp⟩

theorem LastGreatest.snoc_le (h : LastGreatest events found) (hle : found.2 ≤ event.2) :
    LastGreatest (events ++ [event]) event :=
  ⟨events, [], rfl, fun _ hother => (h.le hother).trans hle, by simp⟩

theorem LastGreatest.snoc_lt (h : LastGreatest events found) (hlt : event.2 < found.2) :
    LastGreatest (events ++ [event]) found := by
  obtain ⟨before, after, rfl, hbefore, hafter⟩ := h
  refine ⟨before, after ++ [event], by simp, hbefore, ?_⟩
  intro other hother
  obtain hother | hother := List.mem_append.mp hother
  · exact hafter other hother
  · rw [List.mem_singleton.mp hother]
    exact hlt

end

/-! ## The fold -/

@[ext] structure Extremes (α : Type u) (τ : Type v) where
  count : Nat
  firstLabel : α
  firstTime : τ
  lastLabel : α
  lastTime : τ

namespace Extremes

def single (event : α × τ) : Extremes α τ :=
  ⟨1, event.1, event.2, event.1, event.2⟩

def add (extremes : Extremes α τ) (event : α × τ) : Extremes α τ where
  count := extremes.count + 1
  firstLabel := if event.2 < extremes.firstTime then event.1 else extremes.firstLabel
  firstTime := if event.2 < extremes.firstTime then event.2 else extremes.firstTime
  lastLabel := if extremes.lastTime ≤ event.2 then event.1 else extremes.lastLabel
  lastTime := if extremes.lastTime ≤ event.2 then event.2 else extremes.lastTime

def next (event : α × τ) : Option (Extremes α τ) → Extremes α τ
  | none => single event
  | some extremes => extremes.add event

/-- The sequence in the order of its processing. -/
def ofList (events : List (α × τ)) : Option (Extremes α τ) :=
  events.foldl (fun extremes event => some (next event extremes)) none

theorem ofList_snoc (events : List (α × τ)) (event : α × τ) :
    ofList (events ++ [event]) = some (next event (ofList events)) := by
  simp [ofList]

/-- What the fold says about the sequence. -/
structure Describes (extremes : Extremes α τ) (events : List (α × τ)) : Prop where
  count : extremes.count = events.length
  first : FirstLeast events (extremes.firstLabel, extremes.firstTime)
  last : LastGreatest events (extremes.lastLabel, extremes.lastTime)

theorem describes_single (event : α × τ) : (single event).Describes [event] :=
  ⟨rfl, .single event, .single event⟩

theorem Describes.add {extremes : Extremes α τ} {events : List (α × τ)}
    (h : extremes.Describes events) (event : α × τ) :
    (extremes.add event).Describes (events ++ [event]) := by
  constructor
  · simp [Extremes.add, h.count]
  · by_cases hlt : event.2 < extremes.firstTime
    · simp only [Extremes.add, if_pos hlt]
      exact h.first.snoc_lt hlt
    · simp only [Extremes.add, if_neg hlt]
      exact h.first.snoc_le (not_lt.mp hlt)
  · by_cases hle : extremes.lastTime ≤ event.2
    · simp only [Extremes.add, if_pos hle]
      exact h.last.snoc_le hle
    · simp only [Extremes.add, if_neg hle]
      exact h.last.snoc_lt (not_le.mp hle)

/-- Nothing for the empty sequence, else its description. -/
def Summarizes : Option (Extremes α τ) → List (α × τ) → Prop
  | none, events => events = []
  | some extremes, events => extremes.Describes events

theorem ofList_summarizes (events : List (α × τ)) :
    Summarizes (ofList events) events := by
  induction events using List.reverseRecOn with
  | nil => rfl
  | append_singleton events event ih =>
      rw [ofList_snoc]
      cases hfold : ofList events with
      | none =>
          rw [hfold] at ih
          cases ih
          exact describes_single event
      | some extremes =>
          rw [hfold] at ih
          exact Describes.add ih event

/-- For distinct times the order of the sequence does not matter. -/
theorem Describes.eq_of_perm {first second : Extremes α τ} {events others : List (α × τ)}
    (hfirst : first.Describes events) (hsecond : second.Describes others)
    (hperm : others.Perm events) (hnodup : (events.map Prod.snd).Nodup) :
    first = second := by
  have hsame : ∀ {found other : α × τ}, found ∈ events → other ∈ others →
      found.2 ≤ other.2 → other.2 ≤ found.2 → found = other := by
    intro found other hfound hother hle hge
    exact List.inj_on_of_nodup_map hnodup hfound (hperm.mem_iff.mp hother)
      (le_antisymm hle hge)
  have hleast := hsame hfirst.first.mem hsecond.first.mem
    (hfirst.first.le (hperm.mem_iff.mp hsecond.first.mem))
    (hsecond.first.le (hperm.mem_iff.mpr hfirst.first.mem))
  have hgreatest := hsame hfirst.last.mem hsecond.last.mem
    (hsecond.last.le (hperm.mem_iff.mpr hfirst.last.mem))
    (hfirst.last.le (hperm.mem_iff.mp hsecond.last.mem))
  have hlength := hperm.length_eq
  rw [← hfirst.count, ← hsecond.count] at hlength
  rw [Prod.mk.injEq] at hleast hgreatest
  ext1
  · exact hlength.symm
  · exact hleast.1
  · exact hleast.2
  · exact hgreatest.1
  · exact hgreatest.2

theorem Summarizes.eq_of_perm {first second : Option (Extremes α τ)}
    {events others : List (α × τ)} (hfirst : Summarizes first events)
    (hsecond : Summarizes second others) (hperm : others.Perm events)
    (hnodup : (events.map Prod.snd).Nodup) : first = second := by
  cases first with
  | none =>
      cases hfirst
      obtain rfl := hperm.eq_nil
      cases second with
      | none => rfl
      | some second => cases List.ne_nil_of_mem (Describes.first hsecond).mem rfl
  | some first =>
      cases second with
      | none =>
          cases hsecond
          obtain rfl := hperm.symm.eq_nil
          cases List.ne_nil_of_mem (Describes.first hfirst).mem rfl
      | some second => rw [Describes.eq_of_perm hfirst hsecond hperm hnodup]

end Extremes

end EdgeBridge.Foundation
