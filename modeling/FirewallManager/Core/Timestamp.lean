import FirewallManager.Lib.Text

/-!
# Wall-clock times and their RFC 3339 text

A time is a UTC date and time of day with nanoseconds. Its text has as many digits after the
second as the nanoseconds need, in groups of three. No two times have one text
(`toRfc3339_injective`).

A `TIMESTAMPTZ` column keeps microseconds. How it gets rid of the rest is up to the database
(`TimestampColumn`).
-/

namespace FirewallManager

open List

/-- A date and time in UTC. -/
structure Timestamp where
  year : Int
  month : Nat
  day : Nat
  hour : Nat
  minute : Nat
  second : Nat
  nanos : Nat
  month_le : month ≤ 12
  day_le : day ≤ 31
  hour_lt : hour < 24
  minute_lt : minute < 60
  second_lt : second < 60
  nanos_lt : nanos < 10 ^ 9
  deriving DecidableEq

namespace Timestamp

/-- The year: four digits, or a sign and at least four digits outside the years 0 to 9999. -/
def yearText (year : Int) : List Char :=
  if 0 ≤ year ∧ year ≤ 9999 then Text.padDecimal 4 year.natAbs
  else (if 0 ≤ year then '+' else '-') :: Text.padDecimal 4 year.natAbs

/-- The fraction of the second: nothing, milliseconds, microseconds or nanoseconds, whichever
is the first that is exact. -/
def fractionText (nanos : Nat) : List Char :=
  if nanos = 0 then []
  else if nanos % 1000000 = 0 then '.' :: Text.padDecimal 3 (nanos / 1000000)
  else if nanos % 1000 = 0 then '.' :: Text.padDecimal 6 (nanos / 1000)
  else '.' :: Text.padDecimal 9 nanos

/-- The date, up to the letter in front of the time. -/
def dateText (time : Timestamp) : List Char :=
  yearText time.year ++ ('-' :: Text.padDecimal 2 time.month ++
    '-' :: Text.padDecimal 2 time.day)

/-- The time of day to the second. -/
def clockText (time : Timestamp) : List Char :=
  Text.padDecimal 2 time.hour ++ ':' :: Text.padDecimal 2 time.minute ++
    ':' :: Text.padDecimal 2 time.second

/-- `DateTime::<Utc>::to_rfc3339`. -/
def toRfc3339 (time : Timestamp) : String :=
  String.ofList (time.dateText ++ 'T' :: (time.clockText ++
    (fractionText time.nanos ++ "+00:00".toList)))

theorem yearText_injective : Function.Injective yearText := by
  have hsign (year year' : Int) (hout : ¬ (0 ≤ year ∧ year ≤ 9999))
      (hin : 0 ≤ year' ∧ year' ≤ 9999) : yearText year ≠ yearText year' := by
    intro h
    rw [yearText, if_neg hout, yearText, if_pos hin] at h
    have hdigit := Text.isDigit_of_mem_padDecimal (h ▸ mem_cons_self)
    split at hdigit
    · exact absurd hdigit (by decide)
    · exact absurd hdigit (by decide)
  intro year year' h
  by_cases hin : 0 ≤ year ∧ year ≤ 9999
  · by_cases hin' : 0 ≤ year' ∧ year' ≤ 9999
    · rw [yearText, if_pos hin, yearText, if_pos hin'] at h
      have habs := Text.padDecimal_injective 4 h
      omega
    · exact absurd h.symm (hsign _ _ hin' hin)
  · by_cases hin' : 0 ≤ year' ∧ year' ≤ 9999
    · exact absurd h (hsign _ _ hin hin')
    · rw [yearText, if_neg hin, yearText, if_neg hin', List.cons.injEq] at h
      have habs := Text.padDecimal_injective 4 h.2
      have hchars : ('+' : Char) ≠ '-' := by decide
      by_cases hpos : 0 ≤ year
      · by_cases hpos' : 0 ≤ year'
        · omega
        · rw [if_pos hpos, if_neg hpos'] at h
          exact absurd h.1 hchars
      · by_cases hpos' : 0 ≤ year'
        · rw [if_neg hpos, if_pos hpos'] at h
          exact absurd h.1.symm hchars
        · omega

/-- The number of digits tells which unit the fraction counts, and the digits tell how many. -/
theorem fractionText_inj {nanos nanos' : Nat} (hnanos : nanos < 10 ^ 9)
    (hnanos' : nanos' < 10 ^ 9) (h : fractionText nanos = fractionText nanos') :
    nanos = nanos' := by
  have hlength := congrArg List.length h
  have hmilli (n : Nat) (hn : n < 10 ^ 9) : (Text.padDecimal 3 (n / 1000000)).length = 3 :=
    Text.length_padDecimal (by omega) (by omega)
  have hmicro (n : Nat) (hn : n < 10 ^ 9) : (Text.padDecimal 6 (n / 1000)).length = 6 :=
    Text.length_padDecimal (by omega) (by omega)
  have hnano (n : Nat) (hn : n < 10 ^ 9) : (Text.padDecimal 9 n).length = 9 :=
    Text.length_padDecimal (by omega) hn
  unfold fractionText at h hlength
  split_ifs at h hlength <;>
    simp only [length_cons, length_nil, hmilli _ hnanos, hmilli _ hnanos',
      hmicro _ hnanos, hmicro _ hnanos', hnano _ hnanos, hnano _ hnanos'] at hlength <;>
    try omega
  · have hdigits := Text.padDecimal_injective 3 (List.cons.inj h).2
    omega
  · have hdigits := Text.padDecimal_injective 6 (List.cons.inj h).2
    omega
  · exact Text.padDecimal_injective 9 (List.cons.inj h).2

theorem length_pair {n : Nat} (h : n < 100) : (Text.padDecimal 2 n).length = 2 :=
  Text.length_padDecimal (by omega) h

theorem cancel_pair {m n : Nat} {rest rest' : List Char} (hm : m < 100) (hn : n < 100)
    (h : Text.padDecimal 2 m ++ rest = Text.padDecimal 2 n ++ rest') : m = n ∧ rest = rest' := by
  obtain ⟨hpair, hrest⟩ := List.append_inj h ((length_pair hm).trans (length_pair hn).symm)
  exact ⟨Text.padDecimal_injective 2 hpair, hrest⟩

theorem isDigit_or_sign_of_mem_dateText {time : Timestamp} {c : Char} (h : c ∈ time.dateText) :
    c.isDigit = true ∨ c = '+' ∨ c = '-' := by
  rw [dateText, yearText] at h
  split_ifs at h <;>
    simp only [cons_append, mem_append, mem_cons] at h <;>
    grind [Text.isDigit_of_mem_padDecimal]

theorem separator_not_mem_dateText (time : Timestamp) : 'T' ∉ time.dateText := fun h =>
  absurd (isDigit_or_sign_of_mem_dateText h) (by decide)

theorem dateText_inj {time time' : Timestamp} (h : time.dateText = time'.dateText) :
    time.year = time'.year ∧ time.month = time'.month ∧ time.day = time'.day := by
  have hmonth := time.month_le
  have hmonth' := time'.month_le
  have hday := time.day_le
  have hday' := time'.day_le
  -- Only the year varies in length, so the rest is cut off from the end.
  obtain ⟨hyear, hrest⟩ := append_inj' h (by
    simp only [cons_append, length_cons, length_append]
    rw [length_pair (by omega), length_pair (by omega), length_pair (by omega),
      length_pair (by omega)])
  obtain ⟨hmonths, hrest⟩ := cancel_pair (by omega) (by omega) (List.cons.inj hrest).2
  exact ⟨yearText_injective hyear, hmonths, Text.padDecimal_injective 2 (List.cons.inj hrest).2⟩

theorem clockText_append_inj {time time' : Timestamp} {rest rest' : List Char}
    (h : time.clockText ++ rest = time'.clockText ++ rest') :
    (time.hour = time'.hour ∧ time.minute = time'.minute ∧ time.second = time'.second) ∧
      rest = rest' := by
  have hhour := time.hour_lt
  have hhour' := time'.hour_lt
  have hminute := time.minute_lt
  have hminute' := time'.minute_lt
  have hsecond := time.second_lt
  have hsecond' := time'.second_lt
  simp only [clockText, append_assoc, cons_append] at h
  obtain ⟨hhours, h⟩ := cancel_pair (by omega) (by omega) h
  obtain ⟨hminutes, h⟩ := cancel_pair (by omega) (by omega) (List.cons.inj h).2
  obtain ⟨hseconds, h⟩ := cancel_pair (by omega) (by omega) (List.cons.inj h).2
  exact ⟨⟨hhours, hminutes, hseconds⟩, h⟩

theorem toRfc3339_injective : Function.Injective toRfc3339 := by
  intro time time' h
  rw [toRfc3339, toRfc3339, String.ofList_inj] at h
  obtain ⟨hdate, htime⟩ := Text.cancel_field (separator_not_mem_dateText time)
    (separator_not_mem_dateText time') (Or.inr rfl) (Or.inr rfl) h
  obtain ⟨hclock, hfraction⟩ := clockText_append_inj (List.cons.inj htime).2
  have hnanos := fractionText_inj time.nanos_lt time'.nanos_lt
    (append_cancel_right hfraction)
  obtain ⟨hyear, hmonth, hday⟩ := dateText_inj hdate
  cases time
  cases time'
  simp only [mk.injEq]
  exact ⟨hyear, hmonth, hday, hclock.1, hclock.2.1, hclock.2.2, hnanos⟩

/-- The time has no part below the microsecond. -/
def WholeMicros (time : Timestamp) : Prop :=
  time.nanos % 1000 = 0

/-- The part below the microsecond is a number. -/
instance (time : Timestamp) : Decidable time.WholeMicros :=
  inferInstanceAs (Decidable (_ = _))

/-- The time without its part below the microsecond. -/
def truncMicros (time : Timestamp) : Timestamp :=
  { time with
    nanos := time.nanos / 1000 * 1000
    nanos_lt := by
      have h := time.nanos_lt
      omega }

end Timestamp

/-- How a `TIMESTAMPTZ` column stores a time: it keeps whole microseconds as they are, and makes
some time of whole microseconds of every other. -/
structure TimestampColumn where
  store : Timestamp → Timestamp
  store_whole : ∀ time, (store time).WholeMicros
  store_of_whole : ∀ time, time.WholeMicros → store time = time

/-- The column that cuts the rest off. -/
def TimestampColumn.truncating : TimestampColumn where
  store := Timestamp.truncMicros
  store_whole := fun time => Nat.mul_mod_left (time.nanos / 1000) 1000
  store_of_whole := by
    intro time h
    have hnanos : time.nanos / 1000 * 1000 = time.nanos :=
      Nat.div_mul_cancel (Nat.dvd_of_mod_eq_zero h)
    cases time
    simpa [Timestamp.truncMicros] using hnanos

/-- The text of a time survives storage exactly when it has no part below the microsecond. -/
theorem TimestampColumn.toRfc3339_store_eq_iff (column : TimestampColumn) (time : Timestamp) :
    (column.store time).toRfc3339 = time.toRfc3339 ↔ time.WholeMicros := by
  rw [Timestamp.toRfc3339_injective.eq_iff]
  constructor
  · intro h
    exact h ▸ column.store_whole time
  · exact column.store_of_whole time

end FirewallManager
