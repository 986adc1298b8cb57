import RecordFilter.Proofs.BoundValues

/-!
# The grammar of dates and timestamps

Which texts are dates is said here by their shape: a date with all numbers at full width, a
timestamp of RFC 3339, and the loose dates, in which numbers may be shorter, the year may have a
sign, and blanks may stand before month and day. `isTimestampText_iff` and `isDateText_iff` say that
the readers accept exactly these texts.

A date property is documented to accept full dates and timestamps. It accepts loose dates as well,
and for the sign of an offset also U+2212 (`Condition.compile_date`).
-/
namespace RecordFilter.Calendar

open Decimal (AreDigits)

/-- Years divisible by 4 and not by 100, or by 400. -/
def IsLeap (year : Int) : Prop := 4 ∣ year ∧ ¬100 ∣ year ∨ 400 ∣ year

/-- The day exists in the proleptic Gregorian calendar. -/
def DayExists (year : Int) (month day : Nat) : Prop :=
  1 ≤ day ∧ (month ∈ [1, 3, 5, 7, 8, 10, 12] ∧ day ≤ 31 ∨ month ∈ [4, 6, 9, 11] ∧ day ≤ 30 ∨
    month = 2 ∧ (day ≤ 28 ∨ day = 29 ∧ IsLeap year))

/-- The number that digits spell. -/
abbrev number (ds : List Char) : Nat := Nat.ofDigitChars 10 ds 0

/-- The text is two digits, and the number that they spell is no greater than `limit`. -/
def TwoDigits (limit : Nat) (ds : List Char) : Prop :=
  AreDigits ds ∧ ds.length = 2 ∧ number ds ≤ limit

/-- An existing date with all numbers at full width. -/
def IsFullDate (cs : List Char) : Prop :=
  ∃ y m d, AreDigits y ∧ y.length = 4 ∧ AreDigits m ∧ m.length = 2 ∧ AreDigits d ∧ d.length = 2 ∧
    DayExists (number y) (number m) (number d) ∧ cs = y ++ '-' :: (m ++ '-' :: d)

/-- A fraction of a second: nothing, or a point and digits. -/
inductive IsFraction : List Char → Prop
  | absent : IsFraction []
  | point {ds : List Char} (nonempty : ds ≠ []) (digits : AreDigits ds) : IsFraction ('.' :: ds)

/-- A time of day. The second may be 60. -/
def IsTime (cs : List Char) : Prop :=
  ∃ h m s fraction, TwoDigits 23 h ∧ TwoDigits 59 m ∧ TwoDigits 60 s ∧ IsFraction fraction ∧
    cs = h ++ ':' :: (m ++ ':' :: (s ++ fraction))

/-- An offset from universal time, with one of the signs. -/
inductive IsOffset (signs : List Char) : List Char → Prop
  | zero {c : Char} (letter : c = 'Z' ∨ c = 'z') : IsOffset signs [c]
  | shift {sign : Char} {h m : List Char} (sign_mem : sign ∈ signs) (hour : TwoDigits 23 h)
      (minute : TwoDigits 59 m) : IsOffset signs (sign :: (h ++ ':' :: m))

/-- A timestamp: a full date, a separator, a time of day and an offset. -/
def IsTimestamp (signs cs : List Char) : Prop :=
  ∃ date separator time offset, IsFullDate date ∧ separator ∈ ['T', 't', ' '] ∧ IsTime time ∧
    IsOffset signs offset ∧ cs = date ++ separator :: (time ++ offset)

/-- The year of a loose date: one to four digits, or a sign and any number of digits. -/
inductive SpellsYear : List Char → Int → Prop
  | plain {ds : List Char} (digits : AreDigits ds) (nonempty : ds ≠ []) (short : ds.length ≤ 4) :
      SpellsYear ds (number ds)
  | plus {ds : List Char} (digits : AreDigits ds) (nonempty : ds ≠ []) :
      SpellsYear ('+' :: ds) (number ds)
  | minus {ds : List Char} (digits : AreDigits ds) (nonempty : ds ≠ []) :
      SpellsYear ('-' :: ds) (-(number ds : Int))

/-- The month or the day of a loose date: blanks, and one or two digits. -/
def SpellsShort (cs : List Char) (n : Nat) : Prop :=
  ∃ blanks ds, (∀ c ∈ blanks, Text.isBlank c = true) ∧ AreDigits ds ∧ ds ≠ [] ∧ ds.length ≤ 2 ∧
    n = number ds ∧ cs = blanks ++ ds

/-- An existing date, loosely written. -/
def IsLooseDate (cs : List Char) : Prop :=
  ∃ y m d year month day, SpellsYear y year ∧ SpellsShort m month ∧ SpellsShort d day ∧
    -262143 ≤ year ∧ year ≤ 262142 ∧ DayExists year month day ∧ cs = y ++ '-' :: (m ++ '-' :: d)

/-- The texts that a date property is documented to accept. -/
def IsStrict (cs : List Char) : Prop := IsTimestamp ['+', '-'] cs ∨ IsFullDate cs

/-- The texts that a date property accepts. -/
def IsAccepted (cs : List Char) : Prop := IsTimestamp ['+', '-', '\u2212'] cs ∨ IsLooseDate cs

theorem isLeapYear_iff {year : Int} : isLeapYear year = true ↔ IsLeap year := by
  simp only [isLeapYear, IsLeap, Bool.and_eq_true, Bool.or_eq_true, beq_iff_eq, bne_iff_ne]
  omega

theorem isDay_iff {year : Int} {month day : Nat} :
    isDay year month day = true ↔ DayExists year month day := by
  rw [isDay, DayExists, Bool.and_eq_true, decide_eq_true_eq, decide_eq_true_eq, daysInMonth.eq_def]
  refine and_congr_right fun positive => ?_
  split
  case h_1 =>
    by_cases leap : IsLeap year
    · simp [isLeapYear_iff.mpr leap, leap]
      omega
    · simp [mt isLeapYear_iff.mp leap, leap]
  case h_13 =>
    have none : ¬day ≤ 0 := by omega
    simp_all
  all_goals simp

variable {cs rest ds : List Char} {c : Char} {n width : Nat}

theorem skip?_eq_some_iff : skip? c cs = some rest ↔ cs = c :: rest := by
  cases cs with
  | nil => simp [skip?]
  | cons d cs => simp [skip?]

theorem takeFixed_eq_some_iff : takeFixed width cs = some (n, rest) ↔
    ∃ ds, AreDigits ds ∧ ds.length = width ∧ n = number ds ∧ cs = ds ++ rest := by
  simp only [takeFixed, List.all_eq_true]
  constructor
  · intro h
    split at h
    · next fits =>
      cases h
      exact ⟨cs.take width, fits.2, fits.1, rfl, (List.take_append_drop width cs).symm⟩
    · cases h
  · rintro ⟨ds, digits, rfl, rfl, rfl⟩
    rw [List.take_left, List.drop_left, if_pos ⟨rfl, digits⟩]

/-- A number of at most `width` digits is read to its end, where no digit follows. -/
theorem takeUpTo_append (digits : AreDigits ds) (nonempty : ds ≠ []) (short : ds.length ≤ width)
    (stop : ∀ c ∈ rest.head?, c.isDigit = false) :
    takeUpTo width (ds ++ rest) = some (number ds, rest) := by
  have stop' : ∀ c ∈ (rest.take (width - ds.length)).head?, c.isDigit = false := by
    intro c hc
    rw [List.head?_take] at hc
    split at hc
    · cases hc
    · exact stop c hc
  have read : ((ds ++ rest).take width).takeWhile Char.isDigit = ds := by
    rw [List.take_append, List.take_of_length_le short]
    exact congrArg Prod.fst (Decimal.takeDigits_of_areDigits digits stop')
  obtain ⟨d, ds, rfl⟩ := List.exists_cons_of_ne_nil nonempty
  rw [takeUpTo]
  simp only [read, List.drop_left]

theorem exists_of_takeUpTo (h : takeUpTo width cs = some (n, rest)) :
    ∃ ds, AreDigits ds ∧ ds ≠ [] ∧ ds.length ≤ width ∧ n = number ds ∧ cs = ds ++ rest := by
  rw [takeUpTo] at h
  split at h
  · cases h
  · next ds nonempty =>
    cases h
    have front : (cs.take width).takeWhile Char.isDigit <+: cs :=
      (List.takeWhile_prefix _).trans (List.take_prefix width cs)
    refine ⟨_, List.all_eq_true.mp List.all_takeWhile, nonempty, ?_, rfl, ?_⟩
    · exact (List.takeWhile_prefix _).length_le.trans (List.length_take_le width cs)
    · exact (List.prefix_iff_eq_append.mp front).symm

theorem takeFullDate_eq_some_iff :
    takeFullDate cs = some rest ↔ ∃ date, IsFullDate date ∧ cs = date ++ rest := by
  simp only [takeFullDate, Option.bind_eq_bind, Option.bind_eq_some_iff, Prod.exists,
    takeFixed_eq_some_iff, skip?_eq_some_iff, Option.guard_eq_some', isDay_iff, Option.pure_def,
    Option.some_inj]
  constructor
  · rintro ⟨_, _, ⟨y, hy, ly, rfl, rfl⟩, _, rfl, _, _, ⟨m, hm, lm, rfl, rfl⟩, _, rfl, _, _,
      ⟨d, hd, ld, rfl, rfl⟩, _, real, rfl⟩
    exact ⟨_, ⟨y, m, d, hy, ly, hm, lm, hd, ld, real, rfl⟩, by simp⟩
  · rintro ⟨_, ⟨y, m, d, hy, ly, hm, lm, hd, ld, real, rfl⟩, rfl⟩
    exact ⟨_, _, ⟨y, hy, ly, rfl, by simp⟩, _, rfl, _, _, ⟨m, hm, lm, rfl, rfl⟩, _, rfl, _, _,
      ⟨d, hd, ld, rfl, rfl⟩, (), real, rfl⟩

/-- A fraction is read to its end, where no digit and no point follows. -/
theorem takeFraction_append {fraction : List Char} (h : IsFraction fraction)
    (stop : ∀ c ∈ rest.head?, c.isDigit = false ∧ c ≠ '.') :
    takeFraction (fraction ++ rest) = some rest := by
  cases h with
  | absent =>
    rw [List.nil_append, takeFraction.eq_def]
    split
    · exact absurd rfl (stop '.' rfl).2
    · rfl
  | @point ds nonempty digits =>
    have read := Decimal.takeDigits_of_areDigits digits fun c hc => (stop c hc).1
    obtain ⟨d, ds, rfl⟩ := List.exists_cons_of_ne_nil nonempty
    have front : '.' :: (d :: ds) ++ rest = '.' :: (d :: ds ++ rest) := rfl
    rw [front, takeFraction]
    simp only [read]

theorem exists_of_takeFraction (h : takeFraction cs = some rest) :
    ∃ fraction, IsFraction fraction ∧ cs = fraction ++ rest := by
  rw [takeFraction.eq_def] at h
  split at h
  · next cs =>
    split at h
    · cases h
    · next ds rest' nonempty read =>
      obtain ⟨digits, rfl⟩ := Decimal.areDigits_of_takeDigits read
      cases h
      exact ⟨'.' :: ds, .point nonempty digits, rfl⟩
  · cases h
    exact ⟨[], .absent, rfl⟩

/-- A time of day is read to its end, where its fraction cannot go on. -/
theorem takeTime_append {time : List Char} (h : IsTime time)
    (stop : ∀ c ∈ rest.head?, c.isDigit = false ∧ c ≠ '.') :
    takeTime (time ++ rest) = some rest := by
  obtain ⟨h, m, s, fraction, ⟨hh, lh, vh⟩, ⟨hm, lm, vm⟩, ⟨hs, ls, vs⟩, hf, rfl⟩ := h
  simp only [takeTime, Option.bind_eq_bind, Option.bind_eq_some_iff, Prod.exists,
    takeFixed_eq_some_iff, skip?_eq_some_iff, Option.guard_eq_some', Bool.and_eq_true,
    decide_eq_true_eq]
  exact ⟨_, _, ⟨h, hh, lh, rfl, by simp⟩, _, rfl, _, _, ⟨m, hm, lm, rfl, rfl⟩, _, rfl, _, _,
    ⟨s, hs, ls, rfl, rfl⟩, (), ⟨⟨vh, vm⟩, vs⟩, takeFraction_append hf stop⟩

theorem exists_of_takeTime (h : takeTime cs = some rest) :
    ∃ time, IsTime time ∧ cs = time ++ rest := by
  simp only [takeTime, Option.bind_eq_bind, Option.bind_eq_some_iff, Prod.exists,
    takeFixed_eq_some_iff, skip?_eq_some_iff, Option.guard_eq_some', Bool.and_eq_true,
    decide_eq_true_eq] at h
  obtain ⟨_, _, ⟨h, hh, lh, rfl, rfl⟩, _, rfl, _, _, ⟨m, hm, lm, rfl, rfl⟩, _, rfl, _, _,
    ⟨s, hs, ls, rfl, rfl⟩, _, ⟨⟨vh, vm⟩, vs⟩, read⟩ := h
  obtain ⟨fraction, hf, rfl⟩ := exists_of_takeFraction read
  exact ⟨_, ⟨h, m, s, fraction, ⟨hh, lh, vh⟩, ⟨hm, lm, vm⟩, ⟨hs, ls, vs⟩, hf, rfl⟩, by simp⟩

theorem exists_isOffset_cons_iff {signs : List Char} :
    (∃ offset, IsOffset signs offset ∧ c :: cs = offset ++ rest) ↔
      (c = 'Z' ∨ c = 'z') ∧ cs = rest ∨ c ∈ signs ∧
        ∃ h m, TwoDigits 23 h ∧ TwoDigits 59 m ∧ cs = h ++ ':' :: (m ++ rest) := by
  constructor
  · rintro ⟨_, letter | ⟨sign, hour, minute⟩, same⟩
    · cases same
      exact .inl ⟨letter, rfl⟩
    · cases same
      exact .inr ⟨sign, _, _, hour, minute, by simp⟩
  · rintro (⟨letter, rfl⟩ | ⟨sign, h, m, hour, minute, rfl⟩)
    · exact ⟨[c], .zero letter, rfl⟩
    · exact ⟨_, .shift sign hour minute, by simp⟩

theorem takeOffset_eq_some_iff : takeOffset cs = some rest ↔
    ∃ offset, IsOffset ['+', '-', '\u2212'] offset ∧ cs = offset ++ rest := by
  cases cs with
  | nil =>
    refine ⟨nofun, ?_⟩
    rintro ⟨_, _ | _, none⟩ <;> cases none
  | cons c cs =>
    rw [exists_isOffset_cons_iff, takeOffset]
    split_ifs with letter sign
    · have other : c ∉ ['+', '-', '\u2212'] := by rcases letter with rfl | rfl <;> decide
      simp [letter, other]
    · simp only [Option.bind_eq_bind, Option.bind_eq_some_iff, Prod.exists, Option.pure_def,
        takeFixed_eq_some_iff, skip?_eq_some_iff, Option.guard_eq_some', Bool.and_eq_true,
        decide_eq_true_eq, Option.some_inj]
      have member : c ∈ ['+', '-', '\u2212'] := by simpa using sign
      constructor
      · rintro ⟨_, _, ⟨h, hh, lh, rfl, rfl⟩, _, rfl, _, _, ⟨m, hm, lm, rfl, rfl⟩, _, ⟨vh, vm⟩, rfl⟩
        exact .inr ⟨member, h, m, ⟨hh, lh, vh⟩, ⟨hm, lm, vm⟩, rfl⟩
      · rintro (⟨wrong, -⟩ | ⟨-, h, m, ⟨hh, lh, vh⟩, ⟨hm, lm, vm⟩, rfl⟩)
        · exact absurd wrong letter
        · exact ⟨_, _, ⟨h, hh, lh, rfl, rfl⟩, _, rfl, _, _, ⟨m, hm, lm, rfl, rfl⟩, (), ⟨vh, vm⟩,
            rfl⟩
    · have other : c ∉ ['+', '-', '\u2212'] := by simpa using sign
      simp [letter, other]

/-- No offset goes on with a fraction of a second. -/
theorem IsOffset.head? {offset : List Char} (h : IsOffset ['+', '-', '\u2212'] offset) :
    ∀ c ∈ offset.head?, c.isDigit = false ∧ c ≠ '.' := by
  cases h with
  | zero letter =>
    rintro _ ⟨rfl⟩
    rcases letter with rfl | rfl <;> decide
  | shift sign hour minute =>
    rintro _ ⟨rfl⟩
    simp only [List.mem_cons, List.not_mem_nil, or_false] at sign
    rcases sign with rfl | rfl | rfl <;> decide

/-- The reader of timestamps accepts the grammar. -/
theorem isTimestampText_iff :
    isTimestampText cs = true ↔ IsTimestamp ['+', '-', '\u2212'] cs := by
  simp only [isTimestampText, Option.isSome_iff_exists, Option.bind_eq_bind,
    Option.bind_eq_some_iff, takeFullDate_eq_some_iff]
  constructor
  · rintro ⟨_, rest, ⟨date, hdate, rfl⟩, h⟩
    cases rest with
    | nil => cases h
    | cons separator rest =>
      simp only [Option.bind_eq_some_iff, Option.guard_eq_some', Bool.or_eq_true, decide_eq_true_eq,
        takeOffset_eq_some_iff, List.isEmpty_iff] at h
      obtain ⟨_, hsep, _, read, _, ⟨offset, hoffset, rfl⟩, rfl⟩ := h
      obtain ⟨time, htime, rfl⟩ := exists_of_takeTime read
      have member : separator ∈ ['T', 't', ' '] := by simpa [or_assoc] using hsep
      exact ⟨date, separator, time, offset, hdate, member, htime, hoffset, by simp⟩
  · rintro ⟨date, separator, time, offset, hdate, member, htime, hoffset, rfl⟩
    refine ⟨(), _, ⟨date, hdate, rfl⟩, ?_⟩
    simp only [Option.bind_eq_some_iff, Option.guard_eq_some', Bool.or_eq_true, decide_eq_true_eq,
      takeOffset_eq_some_iff, List.isEmpty_iff]
    have hsep : (separator = 'T' ∨ separator = 't') ∨ separator = ' ' := by
      simpa [or_assoc] using member
    exact ⟨(), hsep, offset, takeTime_append htime hoffset.head?, [], ⟨offset, hoffset, by simp⟩,
      rfl⟩

theorem isBlank_of_isDigit (h : c.isDigit = true) : Text.isBlank c = false := by
  rw [Char.isDigit, Bool.and_eq_true, decide_eq_true_eq, decide_eq_true_eq] at h
  have low : 48 ≤ c.toNat := UInt32.le_iff_toNat_le.mp h.1
  have high : c.toNat ≤ 57 := UInt32.le_iff_toNat_le.mp h.2
  simp only [Text.isBlank, Bool.or_eq_false_iff, Bool.and_eq_false_iff, decide_eq_false_iff_not,
    beq_eq_false_iff_ne]
  omega

/-- A year is read to its end, where no digit follows. -/
theorem SpellsYear.takeYear_append {y : List Char} {year : Int} (h : SpellsYear y year)
    (stop : ∀ c ∈ rest.head?, c.isDigit = false) : takeYear (y ++ rest) = some (year, rest) := by
  cases h with
  | @plain ds digits nonempty short =>
    have read := takeUpTo_append digits nonempty short stop
    obtain ⟨d, ds, rfl⟩ := List.exists_cons_of_ne_nil nonempty
    have unsigned := Decimal.not_sign_of_areDigits digits d rfl
    rw [takeYear.eq_def]
    split
    · next same => exact absurd (List.cons.inj same).1 unsigned.1
    · next same => exact absurd (List.cons.inj same).1 unsigned.2
    · rw [read, Option.map_some]
  | @plus ds digits nonempty =>
    have read := takeUpTo_append digits nonempty (ds.sublist_append_left rest).length_le stop
    rw [List.cons_append, takeYear, read, Option.map_some]
  | @minus ds digits nonempty =>
    have read := takeUpTo_append digits nonempty (ds.sublist_append_left rest).length_le stop
    rw [List.cons_append, takeYear, read, Option.map_some]

theorem exists_of_takeYear {year : Int} (h : takeYear cs = some (year, rest)) :
    ∃ y, SpellsYear y year ∧ cs = y ++ rest := by
  rw [takeYear.eq_def] at h
  split at h <;> obtain ⟨⟨n, behind⟩, read, same⟩ := Option.map_eq_some_iff.mp h <;>
    cases same <;> obtain ⟨ds, digits, nonempty, short, rfl, rfl⟩ := exists_of_takeUpTo read
  · exact ⟨'+' :: ds, .plus digits nonempty, rfl⟩
  · exact ⟨'-' :: ds, .minus digits nonempty, rfl⟩
  · exact ⟨ds, .plain digits nonempty short, rfl⟩

theorem SpellsShort.takeUpTo_append (h : SpellsShort ds n)
    (stop : ∀ c ∈ rest.head?, c.isDigit = false) :
    takeUpTo 2 ((ds ++ rest).dropWhile Text.isBlank) = some (n, rest) := by
  obtain ⟨blanks, ds, blank, digits, nonempty, short, rfl, rfl⟩ := h
  obtain ⟨d, ds, rfl⟩ := List.exists_cons_of_ne_nil nonempty
  have plain := isBlank_of_isDigit (digits d List.mem_cons_self)
  rw [List.append_assoc, List.dropWhile_append_of_pos blank, List.cons_append,
    List.dropWhile_cons_of_neg (by simp [plain]), ← List.cons_append]
  exact Calendar.takeUpTo_append digits nonempty short stop

theorem exists_of_takeUpTo_dropWhile (h : takeUpTo 2 (cs.dropWhile Text.isBlank) = some (n, rest)) :
    ∃ ds, SpellsShort ds n ∧ cs = ds ++ rest := by
  obtain ⟨ds, digits, nonempty, short, rfl, behind⟩ := exists_of_takeUpTo h
  refine ⟨cs.takeWhile Text.isBlank ++ ds, ⟨_, ds, ?_, digits, nonempty, short, rfl, rfl⟩, ?_⟩
  · exact List.all_eq_true.mp List.all_takeWhile
  · rw [List.append_assoc, ← behind, List.takeWhile_append_dropWhile]

/-- The reader of dates passes over blanks and accepts the loose dates. -/
theorem isDateText_iff : isDateText cs = true ↔ IsLooseDate (cs.dropWhile Text.isBlank) := by
  simp only [isDateText, Option.isSome_iff_exists, Option.bind_eq_bind, Option.bind_eq_some_iff,
    Prod.exists, Option.guard_eq_some', Bool.and_eq_true, List.isEmpty_iff, isYear,
    decide_eq_true_eq]
  simp only [isDay_iff, skip?_eq_some_iff]
  constructor
  · rintro ⟨_, year, _, ready, _, rfl, month, _, readm, _, rfl, day, _, readd,
      ⟨⟨rfl, low, high⟩, real⟩⟩
    obtain ⟨y, hy, same⟩ := exists_of_takeYear ready
    obtain ⟨m, hm, rfl⟩ := exists_of_takeUpTo_dropWhile readm
    obtain ⟨d, hd, rfl⟩ := exists_of_takeUpTo_dropWhile readd
    rw [List.append_nil] at same
    exact ⟨y, m, d, year, month, day, hy, hm, hd, low, high, real, same⟩
  · rintro ⟨y, m, d, year, month, day, hy, hm, hd, low, high, real, same⟩
    rw [same]
    have dash : ∀ {cs : List Char}, ∀ c ∈ ('-' :: cs).head?, c.isDigit = false := by
      rintro _ _ ⟨rfl⟩
      decide
    have readd : takeUpTo 2 ((d ++ []).dropWhile Text.isBlank) = some (day, []) :=
      hd.takeUpTo_append nofun
    rw [List.append_nil] at readd
    exact ⟨(), year, _, hy.takeYear_append dash, _, rfl, month, _, hm.takeUpTo_append dash, _, rfl,
      day, _, readd, ⟨rfl, low, high⟩, real⟩

/-- The year of a full date is one that a date can have. -/
theorem IsFullDate.isLooseDate (h : IsFullDate cs) : IsLooseDate cs := by
  obtain ⟨y, m, d, hy, ly, hm, lm, hd, ld, real, rfl⟩ := h
  have bound : number y < (0 + 1) * 10 ^ y.length := Decimal.ofDigitChars_lt hy 0
  rw [ly] at bound
  have year : SpellsYear y (number y) := .plain hy (List.ne_nil_of_length_pos (by omega)) ly.le
  have short {ds : List Char} (digits : AreDigits ds) (two : ds.length = 2) :
      SpellsShort ds (number ds) :=
    ⟨[], ds, by simp, digits, List.ne_nil_of_length_pos (by omega), two.le, rfl, rfl⟩
  exact ⟨y, m, d, _, _, _, year, short hm lm, short hd ld, by omega, by omega, real, rfl⟩

theorem AreDigits.not_isBlank (digits : AreDigits ds) : ∀ c ∈ ds, Text.isBlank c = false :=
  fun c hc => isBlank_of_isDigit (digits c hc)

/-- Blanks of which none is blank. -/
theorem eq_nil_of_blanks {blanks : List Char} (blank : ∀ c ∈ blanks, Text.isBlank c = true)
    (plain : ∀ c ∈ blanks, Text.isBlank c = false) : blanks = [] := by
  refine List.eq_nil_iff_forall_not_mem.mpr fun c hc => ?_
  simpa [blank c hc] using plain c hc

/-- A loose date is a full one if it is as long, starts with a digit and has no blanks. -/
theorem isFullDate_iff : IsFullDate cs ↔ IsLooseDate cs ∧ cs.length = 10 ∧
    (∀ c ∈ cs.head?, c.isDigit = true) ∧ ∀ c ∈ cs, Text.isBlank c = false := by
  have dash : Text.isBlank '-' = false := by decide
  constructor
  · intro h
    refine ⟨h.isLooseDate, ?_⟩
    obtain ⟨y, m, d, hy, ly, hm, lm, hd, ld, -, rfl⟩ := h
    refine ⟨by simp [ly, lm, ld], fun c hc => ?_, ?_⟩
    · rw [List.head?_append_of_ne_nil _ (List.ne_nil_of_length_pos (by omega))] at hc
      exact hy c (List.mem_of_mem_head? hc)
    · simp only [List.forall_mem_append, List.forall_mem_cons, dash, true_and]
      exact ⟨AreDigits.not_isBlank hy, AreDigits.not_isBlank hm, AreDigits.not_isBlank hd⟩
  · rintro ⟨⟨y, m, d, _, _, _, hy, ⟨blanks, m, blankm, hm, -, lm, rfl, rfl⟩,
      ⟨blanks', d, blankd, hd, -, ld, rfl, rfl⟩, -, -, real, rfl⟩, size, first, plain⟩
    simp only [List.forall_mem_append, List.forall_mem_cons] at plain
    obtain ⟨-, -, ⟨plainm, -⟩, -, plaind, -⟩ := plain
    obtain rfl := eq_nil_of_blanks blankm plainm
    obtain rfl := eq_nil_of_blanks blankd plaind
    cases hy with
    | plus => exact absurd (first '+' rfl) (by decide)
    | minus => exact absurd (first '-' rfl) (by decide)
    | plain digits nonempty ly =>
      simp only [List.length_append, List.length_cons, List.nil_append] at size
      exact ⟨y, m, d, digits, by omega, hm, by omega, hd, by omega, real, rfl⟩

theorem not_mem_of_areDigits (digits : AreDigits ds) : '\u2212' ∉ ds :=
  fun hc => absurd (digits _ hc) (by decide)

theorem IsFullDate.not_mem {date : List Char} (h : IsFullDate date) : '\u2212' ∉ date := by
  obtain ⟨y, m, d, hy, -, hm, -, hd, -, -, rfl⟩ := h
  simp [not_mem_of_areDigits hy, not_mem_of_areDigits hm, not_mem_of_areDigits hd]

theorem IsFraction.not_mem {fraction : List Char} (h : IsFraction fraction) :
    '\u2212' ∉ fraction := by
  cases h with
  | absent => exact List.not_mem_nil
  | point nonempty digits => simp [not_mem_of_areDigits digits]

theorem IsTime.not_mem {time : List Char} (h : IsTime time) : '\u2212' ∉ time := by
  obtain ⟨h, m, s, fraction, ⟨hh, -⟩, ⟨hm, -⟩, ⟨hs, -⟩, hf, rfl⟩ := h
  simp [not_mem_of_areDigits hh, not_mem_of_areDigits hm, not_mem_of_areDigits hs, hf.not_mem]

theorem isOffset_iff {offset : List Char} : IsOffset ['+', '-'] offset ↔
    IsOffset ['+', '-', '\u2212'] offset ∧ '\u2212' ∉ offset := by
  constructor
  · intro h
    cases h with
    | zero letter =>
      refine ⟨.zero letter, ?_⟩
      rcases letter with rfl | rfl <;> decide
    | @shift sign _ _ member hour minute =>
      have other : '\u2212' ≠ sign := fun same => absurd (same ▸ member) (by decide)
      refine ⟨.shift (List.mem_append_left ['\u2212'] member) hour minute, ?_⟩
      simp [other, not_mem_of_areDigits hour.1, not_mem_of_areDigits minute.1]
  · rintro ⟨h, absent⟩
    cases h with
    | zero letter => exact .zero letter
    | @shift sign _ _ member hour minute =>
      refine .shift ?_ hour minute
      obtain plain | last : sign ∈ ['+', '-'] ∨ sign ∈ ['\u2212'] := List.mem_append.mp member
      · exact plain
      · exact absurd (List.mem_singleton.mp last ▸ List.mem_cons_self) absent

/-- The sign U+2212 can stand in a timestamp only before the offset. -/
theorem isTimestamp_iff : IsTimestamp ['+', '-'] cs ↔
    IsTimestamp ['+', '-', '\u2212'] cs ∧ '\u2212' ∉ cs := by
  constructor
  · rintro ⟨date, separator, time, offset, hdate, member, htime, hoffset, rfl⟩
    obtain ⟨hoffset, absent⟩ := isOffset_iff.mp hoffset
    have other : '\u2212' ≠ separator := fun same => absurd (same ▸ member) (by decide)
    refine ⟨⟨date, separator, time, offset, hdate, member, htime, hoffset, rfl⟩, ?_⟩
    simp [hdate.not_mem, other, htime.not_mem, absent]
  · rintro ⟨⟨date, separator, time, offset, hdate, member, htime, hoffset, rfl⟩, absent⟩
    simp only [List.mem_append, List.mem_cons, not_or] at absent
    have hoffset := isOffset_iff.mpr ⟨hoffset, absent.2.2.2⟩
    exact ⟨date, separator, time, offset, hdate, member, htime, hoffset, rfl⟩

/-- A documented text is at least as long as a full date. -/
theorem IsStrict.ten_le_length (h : IsStrict cs) : 10 ≤ cs.length := by
  obtain ⟨date, _, _, _, hdate, -, -, -, rfl⟩ | hdate := h
  · have size := (isFullDate_iff.mp hdate).2.1
    rw [List.length_append]
    omega
  · exact (isFullDate_iff.mp hdate).2.1.ge

theorem isDateValue_trim_iff {s : String} :
    isDateValue (Text.trim s) = true ↔ IsAccepted (Text.trim s).toList := by
  rw [isDateValue, Bool.or_eq_true, isTimestampText_iff, isDateText_iff, Text.toList_trim,
    Text.dropWhile_trimChars, IsAccepted]

end RecordFilter.Calendar

namespace RecordFilter

section Texts

variable {s : String}

theorem PropertyType.coerce_of_isAccepted (h : Calendar.IsAccepted (Text.trim s).toList) :
    date.coerce (.text s) = .ok (.text (Text.trim s)) := by
  simp [coerce, ofText?, dateOf?, Calendar.isDateValue_trim_iff.mpr h]

theorem PropertyType.coerce_of_not_isAccepted (h : ¬Calendar.IsAccepted (Text.trim s).toList) :
    date.coerce (.text s) = .error (.unreadable .date s) := by
  simp [coerce, ofText?, dateOf?, mt Calendar.isDateValue_trim_iff.mp h]

end Texts

section Bind

variable {type : PropertyType} {op : Operator} {v w : Value}

/-- An operator of one value without wildcards binds what the text is coerced to. -/
theorem Operator.bind_of_scalar (scalar : op.arity = .scalar) (plain : op.wildcard = none) :
    op.bind type v = (type.coerce v).map fun w => [w] := by
  simp only [bind, scalar, patterned_of_plain plain]
  cases type.coerce v <;> rfl

/-- The other operators bind what two values are coerced to. -/
theorem Operator.bind_two (several : op.arity ≠ .scalar) : op.bind type (.list [v, w]) =
    (type.coerce v).bind fun v => (type.coerce w).map fun w => [v, w] := by
  have both : [v, w].mapM type.coerce =
      (type.coerce v).bind fun v => (type.coerce w).map fun w => [v, w] := by
    cases hv : type.coerce v <;> cases hw : type.coerce w <;> simp [hv, hw] <;> rfl
  rw [← both, bind]
  cases arity : op.arity with
  | scalar => exact absurd arity several
  | pair | list => rfl

end Bind

/-- What a condition on a date property is given and how. A single text is bound, trimmed, if it is
accepted, and is refused otherwise; of two texts each must be accepted. The documented texts are
those accepted without U+2212 in a timestamp, and in a date without a sign, a blank, or a number
that is shorter than its full width. -/
theorem Condition.compile_date {rt : RecordType} {r : Resolver} {path : Path} {c : Condition}
    {p : ResolvedProperty} {op : Operator} (complete : c.isComplete = true)
    (known : c.Resolves rt r p) (named : c.Names p.type op) (dated : p.type = .date) :
    (op.arity = .scalar → ∀ s, c.value = .text s →
      (Calendar.IsAccepted (Text.trim s).toList →
        c.compile rt r path = .ok (some ⟨rt, p.column, op.sql, [.text (Text.trim s)], path⟩)) ∧
      (¬Calendar.IsAccepted (Text.trim s).toList →
        c.compile rt r path =
          .error (.invalidValue path (Text.trim c.property) (.unreadable .date s)))) ∧
    (op.arity ≠ .scalar → ∀ s t, c.value = .list [.text s, .text t] →
      (Calendar.IsAccepted (Text.trim s).toList → Calendar.IsAccepted (Text.trim t).toList →
        c.compile rt r path = .ok (some
          ⟨rt, p.column, op.sql, [.text (Text.trim s), .text (Text.trim t)], path⟩)) ∧
      (¬Calendar.IsAccepted (Text.trim s).toList →
        c.compile rt r path =
          .error (.invalidValue path (Text.trim c.property) (.unreadable .date s))) ∧
      (Calendar.IsAccepted (Text.trim s).toList → ¬Calendar.IsAccepted (Text.trim t).toList →
        c.compile rt r path =
          .error (.invalidValue path (Text.trim c.property) (.unreadable .date t)))) ∧
    ∀ cs, Calendar.IsStrict cs ↔
      Calendar.IsTimestamp ['+', '-', '\u2212'] cs ∧ '\u2212' ∉ cs ∨
        Calendar.IsLooseDate cs ∧ cs.length = 10 ∧ (∀ c ∈ cs.head?, c.isDigit = true) ∧
          ∀ c ∈ cs, Text.isBlank c = false := by
  have plain : op.wildcard = none := by
    obtain plain | text := Operator.wildcard_eq_none_or named.1
    · exact plain
    · cases dated.symm.trans text
  rw [compile_eq_bind complete known named, dated]
  refine ⟨fun scalar s value => ?_, fun several s t value => ?_,
    fun cs => or_congr Calendar.isTimestamp_iff Calendar.isFullDate_iff⟩
  · rw [value, Operator.bind_of_scalar scalar plain]
    refine ⟨fun accepted => ?_, fun refused => ?_⟩
    · rw [PropertyType.coerce_of_isAccepted accepted]
      rfl
    · rw [PropertyType.coerce_of_not_isAccepted refused]
      rfl
  · rw [value, Operator.bind_two several]
    refine ⟨fun first second => ?_, fun refused => ?_, fun first refused => ?_⟩
    · rw [PropertyType.coerce_of_isAccepted first, PropertyType.coerce_of_isAccepted second]
      rfl
    · rw [PropertyType.coerce_of_not_isAccepted refused]
      rfl
    · rw [PropertyType.coerce_of_isAccepted first, PropertyType.coerce_of_not_isAccepted refused]
      rfl

/-- Contacts have a date on which they were created. -/
def Resolver.creation : Resolver :=
  .ofTypes fun _ key => if key = "created_at" then some .date else none

theorem Condition.compile_date_short :
    Condition.compile .contact .creation ⟨0, 0, 0⟩ ⟨"created_at", "before", .text " 2020-1- 1 "⟩ =
      .ok (some ⟨.contact, "created_at", .lt, [.text "2020-1- 1"], ⟨0, 0, 0⟩⟩) ∧
    ¬Calendar.IsStrict "2020-1- 1".toList := by
  have known : Condition.Resolves .contact .creation
      ⟨"created_at", "before", .text " 2020-1- 1 "⟩ ⟨"created_at", .date⟩ :=
    safe?_eq_some_iff.mp rfl
  have named : Condition.Names ⟨"created_at", "before", .text " 2020-1- 1 "⟩ .date
      ⟨"before", "Before", .scalar, .lt, none⟩ :=
    ⟨by decide, rfl⟩
  obtain ⟨single, -, -⟩ := @compile_date _ _ ⟨0, 0, 0⟩ _ _ _ (by decide) known named rfl
  have accepted : Calendar.IsAccepted (Text.trim " 2020-1- 1 ").toList :=
    Calendar.isDateValue_trim_iff.mp (by decide)
  refine ⟨(single rfl _ rfl).1 accepted, fun strict => ?_⟩
  exact absurd strict.ten_le_length (by decide)

/-- More is accepted than is documented, for which `2020-1-1` is an example. -/
theorem PropertyType.not_coerce_iff_isStrict :
    ¬∀ s w, date.coerce (.text s) = .ok w ↔
      Calendar.IsStrict (Text.trim s).toList ∧ w = .text (Text.trim s) := by
  intro h
  have accepted : Calendar.IsAccepted (Text.trim "2020-1-1").toList :=
    Calendar.isDateValue_trim_iff.mp (by decide)
  have strict := ((h _ _).mp (coerce_of_isAccepted accepted)).1
  exact absurd strict.ten_le_length (by decide)

end RecordFilter
