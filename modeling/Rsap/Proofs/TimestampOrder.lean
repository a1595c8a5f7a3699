import Rsap.Desktop.Timestamps

/-!
# `Rsap.Proofs.TimestampOrder`: stored timestamps sort like instants

A stored timestamp is a chain of keys (`Library.OrderKeys`) for the microseconds since the first
day began: the date, the hour, the minute and the second, all of a fixed width, and then the rest
of the text, which is a key of the microseconds although its width varies (`restBytes_key`): the
sign of the time zone sorts before the point of a fraction. `stampBytes_key` puts them together,
and `sqliteBytes_iso` says that `iso` writes this key.
-/

set_option autoImplicit false

namespace Rsap.Desktop

open Rsap.Library

/-- The instant, in microseconds of UTC. -/
def AwareDatetime.instant (d : AwareDatetime) : Int := d.delta - d.utcoffset

end Rsap.Desktop

namespace Rsap.Proofs

open Rsap.Desktop Rsap.Library

/-- The UTF-8 encoding. -/
abbrev utf8 (text : List Char) : List UInt8 := text.flatMap String.utf8EncodeChar

/-! ### Numbers -/

/-- The byte of a digit. -/
def digitByte (d : Nat) : List UInt8 := utf8 [Char.ofNat (48 + d)]

/-- The bytes of the digits ascend. -/
theorem digitByte_key : OrderKey 10 digitByte := by
  have hall : ∀ m < 10, ∀ n < 10, (digitByte m < digitByte n ↔ m < n) := by decide +kernel
  exact fun m n hm hn => hall m hm n hn

/-- A digit is one byte. -/
theorem digitByte_width : FixedWidth 10 1 digitByte := by
  unfold FixedWidth
  decide +kernel

/-- A padded number is written digit by digit, one byte each. -/
theorem utf8_pad (width n : Nat) : utf8 (pad width n) = digits digitByte width n := by
  induction width generalizing n with
  | zero => rfl
  | succ width ih =>
    show utf8 (pad width (n / 10) ++ [Char.ofNat (48 + n % 10)]) = _
    rw [utf8, List.flatMap_append]
    exact congrArg (· ++ digitByte (n % 10)) (ih (n / 10))

/-- Padded numbers sort like the numbers. -/
theorem pad_key (width : Nat) : OrderKey (10 ^ width) fun n => utf8 (pad width n) := by
  simp only [utf8_pad]
  exact digits_key digitByte_key digitByte_width width

/-- A number padded to a width has this width. -/
theorem pad_width (width : Nat) : FixedWidth (10 ^ width) width fun n => utf8 (pad width n) := by
  simp only [utf8_pad]
  exact digits_width digitByte_width width

/-- A field of two digits behind its separator. -/
def fieldBytes (separator : Char) (n : Nat) : List UInt8 := utf8 [separator] ++ utf8 (pad 2 n)

/-- Two-digit fields behind one separator sort like their numbers. -/
theorem fieldBytes_key (separator : Char) {bound : Nat} (hbound : bound ≤ 100) :
    OrderKey bound (fieldBytes separator) := fun m n hm hn =>
  (pad_key 2).cons (utf8 [separator]) m n (Nat.lt_of_lt_of_le hm hbound)
    (Nat.lt_of_lt_of_le hn hbound)

/-- Such a field is three bytes. -/
theorem fieldBytes_width (separator : Char) (hascii : (utf8 [separator]).length = 1) {bound : Nat}
    (hbound : bound ≤ 100) : FixedWidth bound 3 (fieldBytes separator) := by
  intro n hn
  have hwidth := (pad_width 2).cons (utf8 [separator]) n (Nat.lt_of_lt_of_le hn hbound)
  rw [hascii] at hwidth
  exact hwidth

/-! ### The date -/

/-- The number of the date of an ordinal. -/
def numberOf (ordinal : Nat) : Nat :=
  (ymdOfOrdinal ordinal).1 * 10000 + (ymdOfOrdinal ordinal).2.1 * 100 + (ymdOfOrdinal ordinal).2.2

/-- The numbers of the dates ascend with the ordinals. -/
theorem numberOf_lt_iff {j k : Nat} (hj : 1 ≤ j ∧ j ≤ maxOrdinal) (hk : 1 ≤ k ∧ k ≤ maxOrdinal) :
    numberOf j < numberOf k ↔ j < k := by
  have hiff := number_lt_iff (Date.ofOrdinal j hj) (Date.ofOrdinal k hk)
  rw [toOrdinal_ofOrdinal, toOrdinal_ofOrdinal] at hiff
  exact hiff

/-- The text of a date, by the number of the date. -/
def dateBytes (number : Nat) : List UInt8 :=
  (utf8 (pad 4 (number / 100 / 100)) ++ fieldBytes '-' (number / 100 % 100)) ++
    fieldBytes '-' (number % 100)

/-- Dates are written so that they sort like their numbers: year, month and day, each of fixed
width. -/
theorem dateBytes_key : OrderKey (10 ^ 4 * 100 * 100) dateBytes :=
  ((pad_key 4).append (pad_width 4) (fieldBytes_key '-' (Nat.le_refl 100))).append
    ((pad_width 4).append (fieldBytes_width '-' rfl (Nat.le_refl 100)))
    (fieldBytes_key '-' (Nat.le_refl 100))

/-- A date is ten bytes. -/
theorem dateBytes_width : FixedWidth (10 ^ 4 * 100 * 100) 10 dateBytes :=
  ((pad_width 4).append (fieldBytes_width '-' rfl (Nat.le_refl 100))).append
    (fieldBytes_width '-' rfl (Nat.le_refl 100))

/-- The number of a date fits its three fields. -/
theorem numberOf_lt {k : Nat} (hk : 1 ≤ k ∧ k ≤ maxOrdinal) : numberOf k < 10 ^ 4 * 100 * 100 := by
  have hyear := (Date.ofOrdinal k hk).year_le
  have hmonth := (Date.ofOrdinal k hk).month_le
  have hday := (Date.ofOrdinal k hk).day_le_31
  simp only [Date.ofOrdinal] at hyear hmonth hday
  unfold numberOf
  omega

/-- The text of the date of a day. The first day has the number zero. -/
def dayBytes (day : Nat) : List UInt8 := dateBytes (numberOf (day + 1))

/-- The dates of the days sort like the days. -/
theorem dayBytes_key : OrderKey maxOrdinal dayBytes :=
  dateBytes_key.comp (fun n hn => numberOf_lt ⟨by omega, hn⟩) fun m n hm hn => by
    rw [numberOf_lt_iff ⟨by omega, hm⟩ ⟨by omega, hn⟩]
    omega

/-- The date of a day is ten bytes. -/
theorem dayBytes_width : FixedWidth maxOrdinal 10 dayBytes :=
  dateBytes_width.comp fun n hn => numberOf_lt ⟨by omega, hn⟩

/-! ### The whole text -/

/-- The text behind the seconds. -/
def restBytes (microsecond : Nat) : List UInt8 :=
  utf8 (if microsecond = 0 then [] else '.' :: pad 6 microsecond) ++ utf8 "+00:00".toList

/-- Without microseconds the offset follows the seconds at once. -/
theorem restBytes_zero : restBytes 0 = 43 :: utf8 "00:00".toList := rfl

/-- Otherwise a dot and six digits come between. -/
theorem restBytes_of_ne (n : Nat) (h : n ≠ 0) :
    restBytes n = ([46] ++ utf8 (pad 6 n)) ++ utf8 "+00:00".toList := by
  rw [restBytes, if_neg h]
  rfl

/-- A point sorts after the sign of the time zone, so no fraction sorts first. -/
theorem restBytes_key : OrderKey 1000000 restBytes := by
  intro m n hm hn
  by_cases hm0 : m = 0
  · by_cases hn0 : n = 0
    · rw [hm0, hn0]
      simp [List.lt_irrefl]
    · rw [hm0, restBytes_zero, restBytes_of_ne n hn0]
      have hlt : (43 : UInt8) < 46 := by decide
      simp only [List.cons_append, List.cons_lt_cons_iff, hlt, true_or, true_iff]
      omega
  · by_cases hn0 : n = 0
    · rw [hn0, restBytes_zero, restBytes_of_ne m hm0]
      have hlt : ¬(46 : UInt8) < 43 := by decide
      have hne : (46 : UInt8) ≠ 43 := by decide
      simp [List.cons_lt_cons_iff, hlt, hne]
    · -- two fractions: six digits between the same texts
      have hfraction := (((pad_key 6).cons [46]).concat ((pad_width 6).cons [46])
        (utf8 "+00:00".toList)) m n hm hn
      rw [restBytes_of_ne m hm0, restBytes_of_ne n hn0]
      exact hfraction

/-- The text up to the seconds, by the seconds since the first day began. -/
def secondBytes (seconds : Nat) : List UInt8 :=
  ((dayBytes (seconds / 60 / 60 / 24) ++ fieldBytes 'T' (seconds / 60 / 60 % 24)) ++
    fieldBytes ':' (seconds / 60 % 60)) ++ fieldBytes ':' (seconds % 60)

/-- Timestamps without microseconds sort like their seconds. -/
theorem secondBytes_key : OrderKey (maxOrdinal * 24 * 60 * 60) secondBytes := by
  have hday := dayBytes_width.append (fieldBytes_width 'T' rfl (by omega : 24 ≤ 100))
  have hminute := hday.append (fieldBytes_width ':' rfl (by omega : 60 ≤ 100))
  exact ((dayBytes_key.append dayBytes_width (fieldBytes_key 'T' (by omega))).append hday
    (fieldBytes_key ':' (by omega))).append hminute (fieldBytes_key ':' (by omega))

/-- The text up to the seconds is nineteen bytes. -/
theorem secondBytes_width : FixedWidth (maxOrdinal * 24 * 60 * 60) 19 secondBytes :=
  ((dayBytes_width.append (fieldBytes_width 'T' rfl (by omega))).append
    (fieldBytes_width ':' rfl (by omega))).append (fieldBytes_width ':' rfl (by omega))

/-- The whole text, by the microseconds since the first day began. -/
def stampBytes (n : Nat) : List UInt8 := secondBytes (n / 1000000) ++ restBytes (n % 1000000)

/-- Whole timestamps sort like their microseconds. The two shapes differ behind the seconds, where
`+` sorts before the dot. -/
theorem stampBytes_key : OrderKey (maxOrdinal * 24 * 60 * 60 * 1000000) stampBytes :=
  secondBytes_key.append secondBytes_width restBytes_key

/-! ### `iso` -/

/-- SQLite compares the UTF-8 bytes of the text. -/
theorem sqliteBytes_ofList (text : List Char) : sqliteBytes (String.ofList text) = utf8 text := by
  rw [sqliteBytes, String.toList_ofList]

/-- The date of an ordinal is written as its year, month and day. -/
theorem dateBytes_numberOf (ordinal : Nat) (h : 1 ≤ ordinal ∧ ordinal ≤ maxOrdinal) :
    dateBytes (numberOf ordinal) = utf8 (pad 4 (ymdOfOrdinal ordinal).1) ++
      fieldBytes '-' (ymdOfOrdinal ordinal).2.1 ++ fieldBytes '-' (ymdOfOrdinal ordinal).2.2 := by
  have hmonth := (Date.ofOrdinal ordinal h).month_le
  have hday := (Date.ofOrdinal ordinal h).day_le_31
  simp only [Date.ofOrdinal] at hmonth hday
  have hyearOf : numberOf ordinal / 100 / 100 = (ymdOfOrdinal ordinal).1 := by
    unfold numberOf
    omega
  have hmonthOf : numberOf ordinal / 100 % 100 = (ymdOfOrdinal ordinal).2.1 := by
    unfold numberOf
    omega
  have hdayOf : numberOf ordinal % 100 = (ymdOfOrdinal ordinal).2.2 := by
    unfold numberOf
    omega
  rw [dateBytes, hyearOf, hmonthOf, hdayOf]

/-- The fields of a datetime are the digits of the time since the first day began. -/
theorem stamp_fields (n : Nat) (h : 1 ≤ n / dayLength) :
    (n - dayLength) / 1000000 / 60 / 60 / 24 + 1 = n / dayLength ∧
    (n - dayLength) / 1000000 / 60 / 60 % 24 = n % dayLength / 1000000 / 3600 ∧
    (n - dayLength) / 1000000 / 60 % 60 = n % dayLength / 1000000 % 3600 / 60 ∧
    (n - dayLength) / 1000000 % 60 = n % dayLength / 1000000 % 3600 % 60 ∧
    (n - dayLength) % 1000000 = n % 1000000 := by
  unfold dayLength at h ⊢
  omega

/-- The text of a datetime is the key of the time since the first day began. -/
theorem utf8_isoformat {delta : Int} {d : Datetime} (h : Datetime.ofDelta delta = some d) :
    (dayLength : Int) ≤ delta ∧ delta.toNat - dayLength < maxOrdinal * 24 * 60 * 60 * 1000000 ∧
    utf8 d.isoformat = stampBytes (delta.toNat - dayLength) := by
  unfold Datetime.ofDelta at h
  simp only at h
  split at h
  case isFalse => cases h
  case isTrue hdays =>
    obtain ⟨hday, hhour, hminute, hsecond, hmicro⟩ := stamp_fields delta.toNat hdays.1
    refine ⟨?_, ?_, ?_⟩
    · unfold dayLength at hdays ⊢
      omega
    · unfold dayLength maxOrdinal at hdays
      unfold dayLength maxOrdinal
      omega
    · cases h
      rw [stampBytes, secondBytes, dayBytes, hday, hhour, hminute, hsecond, hmicro,
        dateBytes_numberOf _ hdays]
      simp [Datetime.isoformat, Date.ofOrdinal, utf8, fieldBytes, restBytes]

/-- What `iso` returns is a key of the instant. -/
theorem sqliteBytes_iso {utcNow a : AwareDatetime} {s : String} (h : iso utcNow (some a) = some s) :
    (dayLength : Int) ≤ a.instant ∧
    a.instant.toNat - dayLength < maxOrdinal * 24 * 60 * 60 * 1000000 ∧
    sqliteBytes s = stampBytes (a.instant.toNat - dayLength) := by
  obtain ⟨d, hd, rfl⟩ := Option.map_eq_some_iff.mp h
  obtain ⟨hlow, hhigh, htext⟩ := utf8_isoformat hd
  exact ⟨hlow, hhigh, (sqliteBytes_ofList _).trans htext⟩

/-- `iso` fails exactly on the datetimes that have no date in UTC. -/
theorem iso_isSome_iff (utcNow a : AwareDatetime) : (iso utcNow (some a)).isSome ↔
    dayLength ≤ a.instant ∧ a.instant < (maxOrdinal + 1) * dayLength := by
  show (Option.map _ (Datetime.ofDelta a.instant)).isSome ↔ _
  rw [Option.isSome_map, Datetime.ofDelta]
  unfold dayLength maxOrdinal
  split
  case isTrue hdays =>
    simp only [Option.isSome_some, true_iff]
    omega
  case isFalse hdays =>
    simp only [Option.isSome_none, Bool.false_eq_true, false_iff]
    omega

/-- Stored timestamps sort like instants. -/
theorem timestamps_sort_like_instants (utcNow a b : AwareDatetime) (s t : String)
    (ha : iso utcNow (some a) = some s) (hb : iso utcNow (some b) = some t) :
    (sqliteBytes s < sqliteBytes t ↔ a.instant < b.instant) ∧
    (s = t ↔ a.instant = b.instant) := by
  obtain ⟨hlowA, hhighA, htextA⟩ := sqliteBytes_iso ha
  obtain ⟨hlowB, hhighB, htextB⟩ := sqliteBytes_iso hb
  constructor
  · rw [htextA, htextB, stampBytes_key _ _ hhighA hhighB]
    omega
  · constructor
    · rintro rfl
      have hkeys := htextA.symm.trans htextB
      rw [stampBytes_key.eq_iff hhighA hhighB] at hkeys
      omega
    · intro heq
      have hsame : iso utcNow (some a) = iso utcNow (some b) := by
        show Option.map _ (Datetime.ofDelta a.instant) = Option.map _ (Datetime.ofDelta b.instant)
        rw [heq]
      rw [ha, hb] at hsame
      exact Option.some.inj hsame

/-- A datetime of the first of March 2024, on the full hour but for the microseconds. -/
def marchFirst (hour microsecond : Nat) (utcoffset : Int) (hhour : hour < 24)
    (hmicrosecond : microsecond < 1000000) (hoffset : -dayLength < utcoffset ∧
    utcoffset < dayLength) : AwareDatetime where
  year := 2024
  month := 3
  day := 1
  hour := hour
  minute := 0
  second := 0
  microsecond := microsecond
  utcoffset := utcoffset
  year_pos := by omega
  year_le := by omega
  month_pos := by omega
  month_le := by omega
  day_pos := by omega
  day_le := by decide
  hour_lt := hhour
  minute_lt := by omega
  second_lt := by omega
  microsecond_lt := hmicrosecond
  offset_gt := hoffset.1
  offset_lt := hoffset.2

/-- Noon in UTC has no fraction. Half a second later, on a clock that is one hour ahead, it has
one. -/
theorem timestamps_sort_like_instants_fraction :
    sqliteBytes "2024-03-01T12:00:00+00:00" < sqliteBytes "2024-03-01T12:00:00.500000+00:00" :=
  ((timestamps_sort_like_instants
    (marchFirst 12 0 0 (by omega) (by omega) (by decide))
    (marchFirst 12 0 0 (by omega) (by omega) (by decide))
    (marchFirst 13 500000 3600000000 (by omega) (by omega) (by decide))
    "2024-03-01T12:00:00+00:00" "2024-03-01T12:00:00.500000+00:00"
    (by decide +kernel) (by decide +kernel)).1).mpr (by decide +kernel)

end Rsap.Proofs
