import EdgeBridge.Foundation.Calendar
import EdgeBridge.Foundation.PyValue

/-!
# Aware datetimes

An aware `datetime` denotes a UTC instant in the years 1 to 9999 with
microsecond precision.  Stored timestamps are its ISO text to the second;
reading that text gives the instant back, cut to the second.
-/

namespace EdgeBridge.Foundation

/-- The number of seconds in the years 1 to 9999. -/
def maxSecond : Nat := 315537897600

@[ext] structure Datetime where
  micro : Nat
  inRange : micro < maxSecond * 1000000
  deriving DecidableEq

namespace Datetime

def second (time : Datetime) : Nat := time.micro / 1000000

theorem second_lt (time : Datetime) : time.second < maxSecond := by
  have := time.inRange
  unfold second
  omega

def ofSecond (second : Nat) (h : second < maxSecond) : Datetime :=
  ⟨second * 1000000, by omega⟩

/-- The instant cut to the whole second. -/
def truncate (time : Datetime) : Datetime := ofSecond time.second time.second_lt

@[simp] theorem truncate_second (time : Datetime) :
    time.truncate.second = time.second := by
  simp only [truncate, ofSecond, second]
  omega

/-- `time + timedelta(seconds=delta)`; leaving the years 1 to 9999 overflows. -/
def shift (time : Datetime) (delta : Int) : Except PyError Datetime :=
  if h : 0 ≤ (time.micro : Int) + delta * 1000000 ∧
      (time.micro : Int) + delta * 1000000 < maxSecond * 1000000 then
    .ok ⟨((time.micro : Int) + delta * 1000000).toNat, by omega⟩
  else .error .overflowError

theorem shift_micro {time moved : Datetime} {delta : Int}
    (h : time.shift delta = .ok moved) :
    (moved.micro : Int) = time.micro + delta * 1000000 := by
  unfold shift at h
  split at h
  · next hrange =>
    cases h
    simp only
    omega
  · cases h

/-- `time.astimezone(timezone.utc).isoformat(timespec="seconds")`. -/
def isoformat (time : Datetime) : Text := Calendar.isoText time.second

theorem isAscii_isoformat (time : Datetime) : time.isoformat.IsAscii :=
  Calendar.isAscii_isoText time.second_lt

theorem isoformat_lt_iff {first second : Datetime} :
    first.isoformat < second.isoformat ↔ first.second < second.second :=
  Calendar.isoText_lt_iff

/-! ## Reading -/

def digit2 (a b : Nat) : Nat := (a - 48) * 10 + (b - 48)

def digit4 (a b c d : Nat) : Nat := digit2 a b * 100 + digit2 c d

def allDigits (text : Text) : Bool := text.all fun c => 48 ≤ c && c ≤ 57

/-- The instant of the given calendar fields, if they are in range. -/
def ofFields (year month day hour minute second : Nat) : Option Datetime :=
  if h : 1 ≤ year ∧ 1 ≤ month ∧ 1 ≤ day ∧
      day ≤ (Calendar.monthLengths year).getD (month - 1) 0 ∧ hour < 24 ∧
      minute < 60 ∧ second < 60 ∧
      Calendar.ordinal year month day * 86400 + hour * 3600 + minute * 60 +
        second < maxSecond then
    some (ofSecond _ h.2.2.2.2.2.2.2)
  else none

/-- `datetime.fromisoformat` on the layout that `isoformat` writes. -/
def ofIsoText : Text → Option Datetime
  | [y, y', y'', y''', 45, m, m', 45, d, d', 84, h, h', 58, n, n', 58, s, s',
      43, 48, 48, 58, 48, 48] =>
      if allDigits [y, y', y'', y''', m, m', d, d', h, h', n, n', s, s'] then
        ofFields (digit4 y y' y'' y''') (digit2 m m') (digit2 d d') (digit2 h h')
          (digit2 n n') (digit2 s s')
      else none
  | _ => none

private theorem digit2_pad2 {n : Nat} (_h : n < 100) :
    digit2 (48 + n / 10) (48 + n % 10) = n := by
  unfold digit2
  omega

private theorem digit4_pad4 {n : Nat} (_h : n < 10000) :
    digit4 (48 + n / 1000) (48 + n / 100 % 10) (48 + n / 10 % 10) (48 + n % 10) = n := by
  unfold digit4 digit2
  omega

theorem ofFields_of_second {second : Nat} (h : second < maxSecond) :
    ofFields (Calendar.yearOf (second / 86400)) (Calendar.monthOf (second / 86400))
        (Calendar.dayOf (second / 86400)) (second % 86400 / 3600)
        (second % 86400 / 60 % 60) (second % 86400 % 60) =
      some (ofSecond second h) := by
  have hordinal := Calendar.ordinal_dateOf (second / 86400)
  have htotal : Calendar.ordinal (Calendar.yearOf (second / 86400))
        (Calendar.monthOf (second / 86400)) (Calendar.dayOf (second / 86400)) * 86400 +
        second % 86400 / 3600 * 3600 + second % 86400 / 60 % 60 * 60 +
        second % 86400 % 60 = second := by
    rw [hordinal]
    omega
  unfold ofFields
  rw [dif_pos]
  · congr 2
  · refine ⟨Calendar.yearOf_pos _, Calendar.monthOf_pos _, Calendar.dayOf_pos _,
      Calendar.dayOf_le_monthLength _, by omega, by omega, by omega, ?_⟩
    rw [htotal]
    exact h

/-- The text of an instant reads back as the instant cut to the second. -/
theorem ofIsoText_isoformat (time : Datetime) :
    ofIsoText time.isoformat = some time.truncate := by
  have hsecond := time.second_lt
  unfold maxSecond at hsecond
  have hyear := Calendar.yearOf_le (show time.second / 86400 < 3652059 by omega)
  have hmonth := Calendar.monthOf_le (time.second / 86400)
  have hday := Calendar.dayOf_le (time.second / 86400)
  have hdigits : ∀ n : Nat, n < 100 →
      (48 ≤ 48 + n / 10 ∧ 48 + n / 10 ≤ 57) ∧ (48 ≤ 48 + n % 10 ∧ 48 + n % 10 ≤ 57) := by
    omega
  have hfields := ofFields_of_second time.second_lt
  simp only [isoformat, Calendar.isoText, Calendar.dateText, Calendar.timeText,
    Calendar.pad2, Calendar.pad4, List.cons_append, List.nil_append,
    show str "+00:00" = [43, 48, 48, 58, 48, 48] from rfl, ofIsoText]
  rw [if_pos]
  · rw [digit4_pad4 (by omega), digit2_pad2 (by omega), digit2_pad2 (by omega),
      digit2_pad2 (by omega), digit2_pad2 (by omega), digit2_pad2 (by omega)]
    exact hfields
  · simp only [allDigits, List.all_cons, List.all_nil, Bool.and_true,
      Bool.and_eq_true, decide_eq_true_eq]
    omega

end Datetime

end EdgeBridge.Foundation
