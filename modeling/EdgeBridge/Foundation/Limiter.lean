import Mathlib.Algebra.Order.Ring.Nat
import Mathlib.Data.List.Basic

/-!
# A limiter with a coarse clock

The limiter keeps a counter and the coarse time of its last grant.  A grant needs a
counter below the limit and a gap since the last grant, and the counter starts again
once the last grant has left the window.  A coarse time is early by less than a grain.
-/

namespace EdgeBridge.Foundation

/-! ## Spread times -/

/-- Later times first; each is a window after the one `limit` places before it. -/
def Spread (limit window : Nat) : List Nat → Prop
  | [] => True
  | time :: earlier =>
      (∀ other ∈ earlier.drop (limit - 1), other + window ≤ time) ∧
        Spread limit window earlier

/-- A half-open window holds at most `limit` of the times. -/
theorem Spread.length_filter_le {limit window : Nat} (hlimit : 0 < limit)
    {times : List Nat} (h : Spread limit window times) (start : Int) :
    (times.filter fun time : Nat => decide (start ≤ time ∧ (time : Int) < start + window)).length ≤
      limit := by
  induction times with
  | nil => simp
  | cons time earlier ih =>
      obtain ⟨hfar, hearlier⟩ := h
      by_cases hin : start ≤ time ∧ (time : Int) < start + window
      · have hnone : (earlier.drop (limit - 1)).filter
            (fun time : Nat => decide (start ≤ time ∧ (time : Int) < start + window)) = [] := by
          rw [List.filter_eq_nil_iff]
          intro other hother
          have hother := hfar other hother
          simp only [decide_eq_true_eq]
          omega
        have hfew := List.length_filter_le
          (fun time : Nat => decide (start ≤ time ∧ (time : Int) < start + window))
          (earlier.take (limit - 1))
        rw [List.length_take] at hfew
        rw [List.filter_cons_of_pos (by simpa using hin), List.length_cons,
          ← List.take_append_drop (limit - 1) earlier, List.filter_append, hnone,
          List.append_nil]
        omega
      · rw [List.filter_cons_of_neg (by simpa using hin)]
        exact ih hearlier

/-! ## The limiter -/

structure Limiter where
  limit : Nat
  gap : Nat
  window : Nat
  grain : Nat
  coarse : Nat → Nat
  lt_coarse : ∀ time, time < coarse time + grain

/-- What the limiter keeps; `last` is a coarse time. -/
structure Meter where
  count : Nat
  last : Option Nat
  deriving DecidableEq

namespace Limiter

variable (L : Limiter)

/-- The meter without a grant that has left the window. -/
def expire (now : Nat) (meter : Meter) : Meter :=
  match meter.last with
  | none => ⟨0, none⟩
  | some last => if last + L.window ≤ now then ⟨0, none⟩ else meter

def grants (now : Nat) (meter : Meter) : Bool :=
  decide ((L.expire now meter).count < L.limit) &&
    (L.expire now meter).last.all fun last => decide (last + L.gap ≤ now)

def charge (now : Nat) (meter : Meter) : Meter :=
  ⟨(L.expire now meter).count + 1, some (L.coarse now)⟩

/-- The least distance of two grants in a row. -/
def pace : Nat := L.gap + 1 - L.grain

/-- The least distance of two grants between which the counter started again. -/
def rest : Nat := L.window + 1 - L.grain

/-- The grain is small enough for the gap, for the window and for a full count. -/
structure Fits : Prop where
  limit : 0 < L.limit
  gap : L.grain ≤ L.gap
  window : L.gap + L.grain ≤ L.window
  full : L.grain ≤ (L.limit - 1) * L.pace + 1

/-- The meter after the grants `newest :: earlier`, the latest first. -/
structure Metered (newest : Nat) (earlier : List Nat) (meter : Meter) : Prop where
  last : meter.last = some (L.coarse newest)
  count_pos : 0 < meter.count
  count_le : meter.count ≤ L.limit
  paced : ∀ (k old : Nat), earlier[k]? = some old → old + (k + 1) * L.pace ≤ newest
  rested : ∀ (k old : Nat), earlier[k]? = some old → meter.count ≤ k + 1 →
    old + L.rest + k * L.pace ≤ newest
  decreasing : (newest :: earlier).Pairwise (· > ·)
  spread : Spread L.limit L.window (newest :: earlier)

variable {L} {now newest : Nat} {earlier : List Nat} {meter : Meter}

/-- The first grant, whatever the meter was. -/
theorem metered_first (h : L.grants now meter = true) :
    L.Metered now [] (L.charge now meter) where
  last := rfl
  count_pos := Nat.succ_pos _
  count_le := by
    simp only [grants, Bool.and_eq_true, decide_eq_true_eq] at h
    exact h.1
  paced := by simp
  rested := by simp
  decreasing := by simp
  spread := by simp [Spread]

namespace Metered

/-- What a grant needs of the last one: the gap, and a counter below the limit or a
window without a grant. -/
theorem grants_iff (h : L.Metered newest earlier meter) (hfits : L.Fits) :
    L.grants now meter = true ↔ L.coarse newest + L.gap ≤ now ∧
      (meter.count < L.limit ∨ L.coarse newest + L.window ≤ now) := by
  have hlimit := hfits.limit
  have hwindow := hfits.window
  unfold grants expire
  rw [h.last]
  by_cases hexpired : L.coarse newest + L.window ≤ now
  · simp only [hexpired, if_true, Option.all_none, Bool.and_true, decide_eq_true_eq,
      or_true, and_true, hlimit, true_iff]
    omega
  · simp only [hexpired, if_false, h.last, Option.all_some, Bool.and_eq_true,
      decide_eq_true_eq, or_false, and_comm]

variable (now) in
theorem count_charge (h : L.Metered newest earlier meter) :
    (L.charge now meter).count =
      if L.coarse newest + L.window ≤ now then 1 else meter.count + 1 := by
  unfold charge expire
  rw [h.last]
  by_cases hexpired : L.coarse newest + L.window ≤ now
  · simp [hexpired]
  · simp [hexpired]

theorem paced_next (h : L.Metered newest earlier meter) (hfits : L.Fits)
    (hgrants : L.grants now meter = true) : newest + L.pace ≤ now := by
  have hgap := ((h.grants_iff hfits).mp hgrants).1
  have hcoarse := L.lt_coarse newest
  have hgrain := hfits.gap
  unfold pace
  omega

theorem rested_next (_h : L.Metered newest earlier meter) (hfits : L.Fits)
    (hexpired : L.coarse newest + L.window ≤ now) : newest + L.rest ≤ now := by
  have hcoarse := L.lt_coarse newest
  have hgap := hfits.gap
  have hwindow := hfits.window
  unfold rest
  omega

/-- A full count takes up the rest of a window. -/
theorem window_le (hfits : L.Fits) {k : Nat} (hk : L.limit ≤ k + 1) :
    L.window ≤ L.rest + k * L.pace := by
  have hfull := hfits.full
  have hwindow := hfits.window
  have hmul : (L.limit - 1) * L.pace ≤ k * L.pace := Nat.mul_le_mul_right _ (by omega)
  unfold rest
  omega

theorem next (h : L.Metered newest earlier meter) (hfits : L.Fits)
    (hgrants : L.grants now meter = true) :
    L.Metered now (newest :: earlier) (L.charge now meter) := by
  have hpaced := h.paced_next hfits hgrants
  have hcount := h.count_charge now
  have hpositive := h.count_pos
  have hrestedAll : ∀ (k old : Nat), (newest :: earlier)[k]? = some old →
      (L.charge now meter).count ≤ k + 1 → old + L.rest + k * L.pace ≤ now := by
    intro k old hold hk
    rw [hcount] at hk
    cases k with
    | zero =>
        obtain rfl : newest = old := by simpa using hold
        split at hk
        · next hexpired =>
          have hrested := h.rested_next hfits hexpired
          omega
        · omega
    | succ k =>
        rw [List.getElem?_cons_succ] at hold
        rw [Nat.succ_mul]
        split at hk
        · next hexpired =>
          have hold := h.paced k old hold
          have hrested := h.rested_next hfits hexpired
          rw [Nat.succ_mul] at hold
          omega
        · have hold := h.rested k old hold (by omega)
          omega
  have hcharged : (L.charge now meter).count ≤ L.limit := by
    rw [hcount]
    have hlimit := hfits.limit
    have hallowed := ((h.grants_iff hfits).mp hgrants).2
    split <;> omega
  refine ⟨rfl, Nat.succ_pos _, hcharged, ?_, hrestedAll, ?_, ?_, h.spread⟩
  · intro k old hold
    cases k with
    | zero =>
        obtain rfl : newest = old := by simpa using hold
        omega
    | succ k =>
        have hold := h.paced k old (by simpa using hold)
        rw [Nat.succ_mul]
        omega
  · refine List.pairwise_cons.mpr ⟨?_, h.decreasing⟩
    have hgap := hfits.gap
    have hlt : newest < now := by
      unfold pace at hpaced
      omega
    intro other hother
    obtain rfl | hearlier := List.mem_cons.mp hother
    · exact hlt
    · exact lt_trans ((List.pairwise_cons.mp h.decreasing).1 other hearlier) hlt
  · intro other hother
    obtain ⟨k, hk⟩ := List.mem_iff_getElem?.mp hother
    rw [List.getElem?_drop] at hk
    have hlimit := hfits.limit
    have hrested := hrestedAll _ other hk (by omega)
    have hwindow := window_le hfits (k := L.limit - 1 + k) (by omega)
    omega

variable (now) in
/-- A grant comes before the gap is over exactly when the coarse time hides it. -/
theorem early_iff (h : L.Metered newest earlier meter) (hfits : L.Fits) :
    (L.grants now meter = true ∧ now < newest + L.gap) ↔
      meter.count < L.limit ∧ L.coarse newest + L.gap ≤ now ∧ now < newest + L.gap := by
  have hwindow := hfits.window
  have hcoarse := L.lt_coarse newest
  rw [h.grants_iff hfits]
  constructor
  · rintro ⟨⟨hgap, hcount⟩, hearly⟩
    exact ⟨by omega, hgap, hearly⟩
  · rintro ⟨hcount, hgap, hearly⟩
    exact ⟨⟨hgap, .inl hcount⟩, hearly⟩

end Metered

end Limiter

end EdgeBridge.Foundation
