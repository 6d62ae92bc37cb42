import EdgeBridge.Foundation.Text

/-!
# UTC instants and their ISO texts

A datetime is the number of microseconds since the start of year 1 in the
proleptic Gregorian calendar.  `isoformat(timespec="seconds")` writes the whole
seconds in fields of fixed width, most significant first, so that texts compare
like instants, and the text determines the second.
-/

namespace EdgeBridge.Foundation.Calendar

/-! ## Days, months and years -/

def isLeap (year : Nat) : Bool :=
  year % 4 == 0 && (year % 100 != 0 || year % 400 == 0)

/-- Days before January 1st of the year (`_days_before_year`). -/
def daysBeforeYear (year : Nat) : Nat :=
  (year - 1) * 365 + (year - 1) / 4 - (year - 1) / 100 + (year - 1) / 400

def monthLengths (year : Nat) : List Nat :=
  [31, if isLeap year then 29 else 28, 31, 30, 31, 30, 31, 31, 30, 31, 30, 31]

def yearLength (year : Nat) : Nat := if isLeap year then 366 else 365

/-- The year of a day counted from the start of year 1 (`_ord2ymd`). -/
def yearOf (day : Nat) : Nat :=
  let n400 := day / 146097
  let rest := day % 146097
  let n100 := rest / 36524
  let rest := rest % 36524
  let n4 := rest / 1461
  let rest := rest % 1461
  let n1 := rest / 365
  let year := n400 * 400 + n100 * 100 + n4 * 4 + n1 + 1
  if n1 = 4 ∨ n100 = 4 then year - 1 else year

/-- Split a day of the year into whole months and the day of the month. -/
def splitMonth : List Nat → Nat → Nat × Nat
  | [], day => (0, day)
  | length :: lengths, day =>
      if day < length then (0, day)
      else ((splitMonth lengths (day - length)).1 + 1,
        (splitMonth lengths (day - length)).2)

def dayOfYear (day : Nat) : Nat := day - daysBeforeYear (yearOf day)

def monthOf (day : Nat) : Nat :=
  (splitMonth (monthLengths (yearOf day)) (dayOfYear day)).1 + 1

def dayOf (day : Nat) : Nat :=
  (splitMonth (monthLengths (yearOf day)) (dayOfYear day)).2 + 1

/-- The day of a date (`_ymd2ord`, counted from 0). -/
def ordinal (year month day : Nat) : Nat :=
  daysBeforeYear year + ((monthLengths year).take (month - 1)).sum + (day - 1)

theorem sum_monthLengths (year : Nat) :
    (monthLengths year).sum = yearLength year := by
  unfold monthLengths yearLength
  split <;> rfl

private theorem div_succ (n k : Nat) :
    (n + 1) / k = n / k + if (n + 1) % k = 0 then 1 else 0 := by
  rw [Nat.succ_div]
  simp [Nat.dvd_iff_mod_eq_zero]

theorem daysBeforeYear_succ (year : Nat) (h : 0 < year) :
    daysBeforeYear (year + 1) = daysBeforeYear year + yearLength year := by
  obtain ⟨past, rfl⟩ := Nat.exists_eq_succ_of_ne_zero (Nat.ne_of_gt h)
  have h100 : past / 100 ≤ past := Nat.div_le_self _ _
  have h400 : (past + 1) % 400 = 0 → (past + 1) % 100 = 0 := by omega
  have h4 : (past + 1) % 100 = 0 → (past + 1) % 4 = 0 := by omega
  simp only [daysBeforeYear, yearLength, isLeap, Nat.add_sub_cancel,
    Nat.succ_eq_add_one, div_succ past 4,
    div_succ past 100, div_succ past 400]
  by_cases h1 : (past + 1) % 4 = 0
  · by_cases h2 : (past + 1) % 100 = 0
    · by_cases h3 : (past + 1) % 400 = 0
      · simp [h1, h2, h3]
        omega
      · simp [h1, h2, h3]
        omega
    · have h3 : ¬ (past + 1) % 400 = 0 := fun h3 => h2 (h400 h3)
      simp [h1, h2, h3]
      omega
  · have h2 : ¬ (past + 1) % 100 = 0 := fun h2 => h1 (h4 h2)
    have h3 : ¬ (past + 1) % 400 = 0 := fun h3 => h2 (h400 h3)
    simp [h1, h2, h3]
    omega

theorem daysBeforeYear_mono {first second : Nat} (h : first ≤ second) :
    daysBeforeYear first ≤ daysBeforeYear second := by
  induction h with
  | refl => exact Nat.le_refl _
  | @step second _ ih =>
      refine Nat.le_trans ih ?_
      cases second with
      | zero => exact Nat.le_refl _
      | succ second =>
          rw [Nat.succ_eq_add_one, daysBeforeYear_succ _ (Nat.succ_pos _)]
          exact Nat.le_add_right _ _

/-- Days before a year given by its place in the 400, 100, 4 and 1 year cycles. -/
private theorem daysBefore_cycles (n400 n100 n4 n1 : Nat) (h100 : n100 ≤ 3)
    (h4 : n4 ≤ 24) (h1 : n1 ≤ 3) :
    daysBeforeYear (n400 * 400 + n100 * 100 + n4 * 4 + n1 + 1) =
      146097 * n400 + 36524 * n100 + 1461 * n4 + 365 * n1 := by
  have e4 : (n400 * 400 + n100 * 100 + n4 * 4 + n1) / 4 =
      n400 * 100 + n100 * 25 + n4 := by omega
  have e100 : (n400 * 400 + n100 * 100 + n4 * 4 + n1) / 100 =
      n400 * 4 + n100 := by omega
  have e400 : (n400 * 400 + n100 * 100 + n4 * 4 + n1) / 400 = n400 := by omega
  rw [daysBeforeYear, Nat.add_sub_cancel, e4, e100, e400]
  omega

theorem yearOf_pos (day : Nat) : 0 < yearOf day := by
  simp only [yearOf]
  split <;> omega

/-- The year that `_ord2ymd` finds is the one that contains the day. -/
theorem yearOf_spec (day : Nat) :
    daysBeforeYear (yearOf day) ≤ day ∧ day < daysBeforeYear (yearOf day + 1) := by
  have h400 := Nat.div_add_mod day 146097
  have h100 := Nat.div_add_mod (day % 146097) 36524
  have h4 := Nat.div_add_mod (day % 146097 % 36524) 1461
  have h1 := Nat.div_add_mod (day % 146097 % 36524 % 1461) 365
  have l400 := Nat.mod_lt day (by norm_num : 146097 > 0)
  have l100 := Nat.mod_lt (day % 146097) (by norm_num : 36524 > 0)
  have l4 := Nat.mod_lt (day % 146097 % 36524) (by norm_num : 1461 > 0)
  have l1 := Nat.mod_lt (day % 146097 % 36524 % 1461) (by norm_num : 365 > 0)
  have hyear := daysBeforeYear_succ (yearOf day) (yearOf_pos day)
  simp only [yearOf] at hyear ⊢
  generalize day / 146097 = n400 at *
  generalize day % 146097 = r400 at *
  generalize r400 / 36524 = n100 at *
  generalize r400 % 36524 = r100 at *
  generalize r100 / 1461 = n4 at *
  generalize r100 % 1461 = r4 at *
  generalize r4 / 365 = n1 at *
  generalize r4 % 365 = r1 at *
  by_cases hlast : n1 = 4 ∨ n100 = 4
  · -- the last day of a leap cycle falls past the common years before it
    rw [if_pos hlast] at hyear ⊢
    obtain rfl | rfl := hlast
    · have hbefore := daysBefore_cycles n400 n100 n4 3 (by omega) (by omega) (by omega)
      have hleap : isLeap (n400 * 400 + n100 * 100 + n4 * 4 + 3 + 1) = true := by
        simp only [isLeap, Bool.and_eq_true, beq_iff_eq, Bool.or_eq_true, bne_iff_ne]
        omega
      rw [show n400 * 400 + n100 * 100 + n4 * 4 + 4 + 1 - 1 =
        n400 * 400 + n100 * 100 + n4 * 4 + 3 + 1 by omega] at hyear ⊢
      rw [yearLength, if_pos hleap] at hyear
      omega
    · have hzero : n4 = 0 ∧ n1 = 0 := by omega
      have hbefore := daysBefore_cycles n400 3 24 3 (by omega) (by omega) (by omega)
      have hleap : isLeap (n400 * 400 + 3 * 100 + 24 * 4 + 3 + 1) = true := by
        simp only [isLeap, Bool.and_eq_true, beq_iff_eq, Bool.or_eq_true, bne_iff_ne]
        omega
      rw [show n400 * 400 + 4 * 100 + n4 * 4 + n1 + 1 - 1 =
        n400 * 400 + 3 * 100 + 24 * 4 + 3 + 1 by omega] at hyear ⊢
      rw [yearLength, if_pos hleap] at hyear
      omega
  · rw [if_neg hlast] at hyear ⊢
    have hbefore := daysBefore_cycles n400 n100 n4 n1 (by omega) (by omega) (by omega)
    have hlength : 365 ≤ yearLength (n400 * 400 + n100 * 100 + n4 * 4 + n1 + 1) := by
      unfold yearLength
      split <;> omega
    omega

theorem dayOfYear_lt (day : Nat) : dayOfYear day < yearLength (yearOf day) := by
  have hspec := yearOf_spec day
  have hsucc := daysBeforeYear_succ (yearOf day) (yearOf_pos day)
  unfold dayOfYear
  omega

theorem splitMonth_spec (lengths : List Nat) (day : Nat) (h : day < lengths.sum) :
    (lengths.take (splitMonth lengths day).1).sum + (splitMonth lengths day).2 = day ∧
      (splitMonth lengths day).2 < lengths.getD (splitMonth lengths day).1 0 := by
  induction lengths generalizing day with
  | nil => simp at h
  | cons length lengths ih =>
      rw [List.sum_cons] at h
      simp only [splitMonth]
      split
      · next hlt => exact ⟨by simp, by simpa using hlt⟩
      · next hge =>
        obtain ⟨hsum, hbound⟩ := ih (day - length) (by omega)
        constructor
        · simp only [List.take_succ_cons, List.sum_cons]
          omega
        · simpa using hbound

theorem splitMonth_mono (lengths : List Nat) {first second : Nat}
    (h : first < second) :
    (splitMonth lengths first).1 < (splitMonth lengths second).1 ∨
      ((splitMonth lengths first).1 = (splitMonth lengths second).1 ∧
        (splitMonth lengths first).2 < (splitMonth lengths second).2) := by
  induction lengths generalizing first second with
  | nil => exact .inr ⟨rfl, h⟩
  | cons length lengths ih =>
      simp only [splitMonth]
      split
      · split
        · exact .inr ⟨rfl, h⟩
        · exact .inl (Nat.succ_pos _)
      · rw [if_neg (by omega)]
        have := ih (show first - length < second - length by omega)
        simpa using this

private theorem splitMonth_dayOfYear (day : Nat) :
    ((monthLengths (yearOf day)).take (monthOf day - 1)).sum + (dayOf day - 1) =
        dayOfYear day ∧
      dayOf day ≤ (monthLengths (yearOf day)).getD (monthOf day - 1) 0 := by
  have hlt : dayOfYear day < (monthLengths (yearOf day)).sum := by
    rw [sum_monthLengths]
    exact dayOfYear_lt day
  exact splitMonth_spec _ _ hlt

theorem dayOf_pos (day : Nat) : 1 ≤ dayOf day := Nat.succ_pos _

theorem dayOf_le_monthLength (day : Nat) :
    dayOf day ≤ (monthLengths (yearOf day)).getD (monthOf day - 1) 0 :=
  (splitMonth_dayOfYear day).2

theorem monthOf_pos (day : Nat) : 1 ≤ monthOf day := Nat.succ_pos _

theorem monthOf_le (day : Nat) : monthOf day ≤ 12 := by
  have hpos := dayOf_pos day
  have hle := dayOf_le_monthLength day
  by_contra hlarge
  have : (monthLengths (yearOf day)).getD (monthOf day - 1) 0 = 0 := by
    rw [List.getD_eq_getElem?_getD, List.getElem?_eq_none]
    · rfl
    · simp only [monthLengths, List.length_cons, List.length_nil]
      omega
  omega

theorem dayOf_le (day : Nat) : dayOf day ≤ 31 := by
  refine Nat.le_trans (dayOf_le_monthLength day) ?_
  have hbound : ∀ length ∈ monthLengths (yearOf day), length ≤ 31 := by
    intro length hlength
    simp only [monthLengths, List.mem_cons, List.not_mem_nil, or_false] at hlength
    split at hlength <;> omega
  rw [List.getD_eq_getElem?_getD]
  cases hget : (monthLengths (yearOf day))[monthOf day - 1]? with
  | none => simp
  | some length => exact hbound length (List.mem_of_getElem? hget)

theorem yearOf_le {day : Nat} (h : day < 3652059) : yearOf day ≤ 9999 := by
  by_contra hlarge
  have hmono := daysBeforeYear_mono (show 10000 ≤ yearOf day by omega)
  have hspec := (yearOf_spec day).1
  have : daysBeforeYear 10000 = 3652059 := by decide
  omega

/-- `_ymd2ord` inverts `_ord2ymd`. -/
theorem ordinal_dateOf (day : Nat) :
    ordinal (yearOf day) (monthOf day) (dayOf day) = day := by
  have hsum := (splitMonth_dayOfYear day).1
  have hyear := (yearOf_spec day).1
  unfold ordinal
  unfold dayOfYear at hsum
  omega

/-- A later day has a lexicographically later date. -/
theorem dateOf_mono {first second : Nat} (h : first < second) :
    yearOf first < yearOf second ∨ (yearOf first = yearOf second ∧
      (monthOf first < monthOf second ∨
        (monthOf first = monthOf second ∧ dayOf first < dayOf second))) := by
  have hfirst := yearOf_spec first
  have hsecond := yearOf_spec second
  rcases Nat.lt_trichotomy (yearOf first) (yearOf second) with hlt | heq | hgt
  · exact .inl hlt
  · right
    refine ⟨heq, ?_⟩
    have hday : dayOfYear first < dayOfYear second := by
      unfold dayOfYear
      rw [heq] at hfirst ⊢
      omega
    have := splitMonth_mono (monthLengths (yearOf first)) hday
    unfold monthOf dayOf
    rw [← heq]
    omega
  · have := daysBeforeYear_mono (show yearOf second + 1 ≤ yearOf first from hgt)
    omega

/-! ## Fields of fixed width -/

def pad2 (n : Nat) : Text := [48 + n / 10, 48 + n % 10]

def pad4 (n : Nat) : Text :=
  [48 + n / 1000, 48 + n / 100 % 10, 48 + n / 10 % 10, 48 + n % 10]

private theorem pad2_lt {first second : Nat} (h : first < second) (u v : Text) :
    pad2 first ++ u < pad2 second ++ v := by
  simp only [pad2, List.cons_append, List.nil_append, List.cons_lt_cons_iff]
  omega

private theorem pad4_lt {first second : Nat} (h : first < second) (u v : Text) :
    pad4 first ++ u < pad4 second ++ v := by
  simp only [pad4, List.cons_append, List.nil_append, List.cons_lt_cons_iff]
  omega

private theorem append_lt_append (front : Text) {u v : Text} (h : u < v) :
    front ++ u < front ++ v :=
  List.append_left_lt h

def timeText (second : Nat) : Text :=
  pad2 (second / 3600) ++ (58 :: (pad2 (second / 60 % 60) ++
    (58 :: (pad2 (second % 60) ++ str "+00:00"))))

def dateText (day : Nat) : Text :=
  pad4 (yearOf day) ++ (45 :: (pad2 (monthOf day) ++ (45 :: pad2 (dayOf day))))

/-- The ISO text of a second counted from the start of year 1. -/
def isoText (second : Nat) : Text :=
  dateText (second / 86400) ++ (84 :: timeText (second % 86400))

theorem isAscii_pad2 {n : Nat} (h : n < 100) : (pad2 n).IsAscii := by
  simp only [pad2, Text.isAscii_cons, Text.isAscii_nil, and_true]
  omega

theorem isAscii_pad4 {n : Nat} (h : n < 10000) : (pad4 n).IsAscii := by
  simp only [pad4, Text.isAscii_cons, Text.isAscii_nil, and_true]
  omega

theorem isAscii_dateText {day : Nat} (h : day < 3652059) : (dateText day).IsAscii := by
  have hyear := yearOf_le h
  have hmonth := monthOf_le day
  have hday := dayOf_le day
  simp [dateText, isAscii_pad4 (show yearOf day < 10000 by omega),
    isAscii_pad2 (show monthOf day < 100 by omega),
    isAscii_pad2 (show dayOf day < 100 by omega)]

theorem isAscii_isoText {second : Nat} (h : second < 315537897600) :
    (isoText second).IsAscii := by
  have hdate := isAscii_dateText (show second / 86400 < 3652059 by omega)
  have hhour : second % 86400 / 3600 < 100 := by omega
  have hminute : second % 86400 / 60 % 60 < 100 := by omega
  have hsecond : second % 60 < 100 := by omega
  simp [isoText, timeText, hdate, isAscii_pad2 hhour, isAscii_pad2 hminute,
    isAscii_pad2 hsecond, str]

theorem timeText_lt {first second : Nat} (h : first < second) :
    timeText first < timeText second := by
  unfold timeText
  by_cases hhour : first / 3600 < second / 3600
  · exact pad2_lt hhour _ _
  · have : first / 3600 = second / 3600 := by omega
    rw [this]
    refine append_lt_append _ (List.cons_lt_cons_iff.mpr (.inr ⟨rfl, ?_⟩))
    by_cases hminute : first / 60 % 60 < second / 60 % 60
    · exact pad2_lt hminute _ _
    · have : first / 60 % 60 = second / 60 % 60 := by omega
      rw [this]
      refine append_lt_append _ (List.cons_lt_cons_iff.mpr (.inr ⟨rfl, ?_⟩))
      exact pad2_lt (by omega) _ _

theorem dateText_lt {first second : Nat} (h : first < second) (u v : Text) :
    dateText first ++ u < dateText second ++ v := by
  unfold dateText
  rw [List.append_assoc, List.append_assoc]
  obtain hyear | ⟨hyear, hmonth | ⟨hmonth, hday⟩⟩ := dateOf_mono h
  · exact pad4_lt hyear _ _
  · rw [hyear, List.cons_append, List.cons_append, List.append_assoc,
      List.append_assoc]
    refine append_lt_append _ (List.cons_lt_cons_iff.mpr (.inr ⟨rfl, ?_⟩))
    exact pad2_lt hmonth _ _
  · rw [hyear, hmonth, List.cons_append, List.cons_append, List.append_assoc,
      List.append_assoc, List.cons_append, List.cons_append]
    refine append_lt_append _ (List.cons_lt_cons_iff.mpr (.inr ⟨rfl, ?_⟩))
    refine append_lt_append _ (List.cons_lt_cons_iff.mpr (.inr ⟨rfl, ?_⟩))
    exact pad2_lt hday _ _

theorem isoText_lt {first second : Nat} (h : first < second) :
    isoText first < isoText second := by
  unfold isoText
  by_cases hday : first / 86400 < second / 86400
  · exact dateText_lt hday _ _
  · have : first / 86400 = second / 86400 := by omega
    rw [this]
    refine append_lt_append _ (List.cons_lt_cons_iff.mpr (.inr ⟨rfl, ?_⟩))
    exact timeText_lt (by omega)

/-- ISO texts of fixed width compare like the seconds they denote. -/
theorem isoText_lt_iff {first second : Nat} :
    isoText first < isoText second ↔ first < second := by
  constructor
  · intro h
    rcases Nat.lt_trichotomy first second with hlt | heq | hgt
    · exact hlt
    · subst heq
      exact absurd h (List.lt_irrefl _)
    · exact absurd h (List.lt_asymm (isoText_lt hgt))
  · exact isoText_lt

end EdgeBridge.Foundation.Calendar
