import Rsap.Library.Calendar
import Rsap.Library.OrderKeys

/-!
# `Rsap.Desktop.Timestamps`: the stored timestamps

`iso` of `repositories.py`: the datetime in UTC, in the format of `isoformat`. SQLite compares the
stored texts byte by byte. The `datetime` module of Python is part of the model. A `timedelta` is
the number of its microseconds.
-/

set_option autoImplicit false

namespace Rsap.Desktop

open Rsap.Library

/-- The microseconds of a day. -/
abbrev dayLength : Nat := 86400000000

/-- A `datetime`, whose fields are in the ranges that its constructor checks. -/
structure Datetime extends Date where
  hour : Nat
  minute : Nat
  second : Nat
  microsecond : Nat
  hour_lt : hour < 24
  minute_lt : minute < 60
  second_lt : second < 60
  microsecond_lt : microsecond < 1000000

/-- A `datetime` with a time zone, which enters only with the `utcoffset()` of the datetime. It is
less than a day in either direction. -/
structure AwareDatetime extends Datetime where
  utcoffset : Int
  offset_gt : -dayLength < utcoffset
  offset_lt : utcoffset < dayLength

/-- `timedelta(self.toordinal(), hours=…, minutes=…, seconds=…, microseconds=…)`. -/
def Datetime.delta (d : Datetime) : Nat :=
  d.toOrdinal * dayLength + (d.hour * 3600 + d.minute * 60 + d.second) * 1000000 + d.microsecond

/-- The seconds of a day make at most 23 full hours. -/
theorem hours_lt (n : Nat) : n % dayLength / 1000000 / 3600 < 24 := by
  unfold dayLength
  omega

/-- The datetime of such a `timedelta`, as `datetime + timedelta` computes it. There is none when
the days are not an ordinal, as for a negative `timedelta`, whose days are negative too. -/
def Datetime.ofDelta (delta : Int) : Option Datetime :=
  let days := delta.toNat / dayLength
  let seconds := delta.toNat % dayLength / 1000000
  if hdays : 1 ≤ days ∧ days ≤ maxOrdinal then
    some
      { Date.ofOrdinal days hdays with
        hour := seconds / 3600
        minute := seconds % 3600 / 60
        second := seconds % 3600 % 60
        microsecond := delta.toNat % 1000000
        hour_lt := hours_lt _
        minute_lt := by omega
        second_lt := by omega
        microsecond_lt := by omega }
  else none

/-- `astimezone(UTC)`, where `none` is `OverflowError`. -/
def AwareDatetime.astimezone (d : AwareDatetime) : Option Datetime :=
  Datetime.ofDelta (d.delta - d.utcoffset)

/-- `"%0*d" % (width, n)` of a number that fits in the width. -/
def pad (width n : Nat) : List Char := digits (fun d => [Char.ofNat (48 + d)]) width n

/-- `isoformat()` of a datetime in UTC. Without microseconds the fraction is left out. -/
def Datetime.isoformat (d : Datetime) : List Char :=
  pad 4 d.year ++ '-' :: pad 2 d.month ++ '-' :: pad 2 d.day ++
    'T' :: pad 2 d.hour ++ ':' :: pad 2 d.minute ++ ':' :: pad 2 d.second ++
    (if d.microsecond = 0 then [] else '.' :: pad 6 d.microsecond) ++ "+00:00".toList

/-- `iso`. The first argument is what `utc_now` returns. -/
def iso (utcNow : AwareDatetime) (value : Option AwareDatetime) : Option String :=
  (value.getD utcNow).astimezone.map fun d => String.ofList d.isoformat

/-- The bytes that SQLite compares, the first one first and a prefix before what it is a prefix
of. -/
def sqliteBytes (s : String) : List UInt8 := s.toList.flatMap String.utf8EncodeChar

end Rsap.Desktop
