import EdgeBridge.Foundation.Datetime

/-!
# Datetimes with an offset

A `datetime` is the reading of a clock, with the offset of the clock from UTC if the
datetime is aware.  The offset of a naive one is that of the local clock.
-/

namespace EdgeBridge.Foundation

/-- `utcoffset()`, in microseconds. -/
structure UtcOffset where
  micro : Int
  inDay : -86400000000 < micro ∧ micro < 86400000000
  deriving DecidableEq

/-- `wall` is the instant at which a clock in UTC has the same reading. -/
structure PyDatetime where
  wall : Datetime
  offset : Option UtcOffset
  deriving DecidableEq

/-- What `datetime` takes from its platform: the offset of the local clock, and
`fromisoformat` on layouts other than `isoformat`'s own. -/
structure Clock where
  localOffset : Datetime → UtcOffset
  otherIsoLayout : Text → Option PyDatetime

def UtcOffset.utc : UtcOffset := ⟨0, by decide⟩

/-- `time - offset`; leaving the years 1 to 9999 overflows. -/
def Datetime.minus (time : Datetime) (offset : UtcOffset) : Except PyError Datetime :=
  if h : 0 ≤ (time.micro : Int) - offset.micro ∧
      (time.micro : Int) - offset.micro < maxSecond * 1000000 then
    .ok ⟨((time.micro : Int) - offset.micro).toNat, by omega⟩
  else .error .overflowError

namespace PyDatetime

def ofInstant (time : Datetime) : PyDatetime := ⟨time, some .utc⟩

/-- `value.replace(tzinfo=timezone.utc)` of a naive value. -/
def naiveAsUtc (value : PyDatetime) : PyDatetime :=
  if value.offset.isNone then ofInstant value.wall else value

/-- `value.astimezone(timezone.utc)`. -/
def astimezone (clock : Clock) (value : PyDatetime) : Except PyError Datetime :=
  value.wall.minus (value.offset.getD (clock.localOffset value.wall))

/-- The UTC value of an aware datetime, if it lies in the years 1 to 9999. -/
def utcValue (value : PyDatetime) : Option Datetime :=
  value.offset.bind fun offset => (value.wall.minus offset).toOption

variable {clock : Clock} {value : PyDatetime} {time : Datetime}

theorem minus_utc (time : Datetime) : time.minus .utc = .ok time := by
  have hrange := time.inRange
  unfold Datetime.minus
  rw [dif_pos (by simp only [UtcOffset.utc]; omega)]
  simp [UtcOffset.utc]

theorem utcValue_ofInstant (time : Datetime) : (ofInstant time).utcValue = some time := by
  rw [utcValue, ofInstant, Option.bind_some, minus_utc]
  rfl

/-- The conversion of an aware datetime does not ask the local clock. -/
theorem astimezone_of_utcValue (clock : Clock) (h : value.utcValue = some time) :
    value.naiveAsUtc = value ∧ value.astimezone clock = .ok time := by
  obtain ⟨offset, hoffset, htime⟩ := Option.bind_eq_some_iff.mp h
  have hminus : value.wall.minus offset = .ok time := by
    cases hminus : value.wall.minus offset with
    | ok other =>
        rw [hminus] at htime
        exact congrArg Except.ok (Option.some.inj htime)
    | error error =>
        rw [hminus] at htime
        cases htime
  exact ⟨by simp [naiveAsUtc, hoffset], by simp [astimezone, hoffset, hminus]⟩

/-- `datetime.fromisoformat`. -/
def fromisoformat (clock : Clock) (text : Text) : Option PyDatetime :=
  ((Datetime.ofIsoText text).map ofInstant).or (clock.otherIsoLayout text)

theorem fromisoformat_isoformat (clock : Clock) (time : Datetime) :
    fromisoformat clock time.isoformat = some (ofInstant time.truncate) := by
  rw [fromisoformat, Datetime.ofIsoText_isoformat]
  rfl

end PyDatetime

end EdgeBridge.Foundation
