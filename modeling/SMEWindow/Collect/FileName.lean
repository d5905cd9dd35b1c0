import SMEWindow.Collect.Information

/-!
# The name of a report file

`DateToFileName` names a report after its project and the second in which it was
collected. Everything finer than a second is dropped, so the name is the same for
all reports of one project within that second.

## Main definitions

* `Collect.DateTime` — a moment, down to a tick
* `Collect.dateToFileName`, `Collect.xmlFilePath` — the name of a report, and where
  it is saved
* `Collect.stamp` — what the name keeps of a moment

## Main results

* `fileName_eq_iff` — two reports of one project have the same name exactly when
  their moments have the same stamp
* `dateToFileName_eq_iff` — a name determines the project and the second
-/

set_option autoImplicit false

namespace SMEWindow.Collect

open Lib.Text

/-- `DateTime.DaysInMonth`. -/
def daysInMonth (year month : ℕ) : ℕ :=
  if month = 2 then
    if year % 4 = 0 ∧ (year % 100 ≠ 0 ∨ year % 400 = 0) then 29 else 28
  else if month = 4 ∨ month = 6 ∨ month = 9 ∨ month = 11 then 30
  else 31

/-- A day of the years 1 to 9999. -/
structure Date where
  year : ℕ
  month : ℕ
  day : ℕ
  year_range : 1 ≤ year ∧ year ≤ 9999
  month_range : 1 ≤ month ∧ month ≤ 12
  day_range : 1 ≤ day ∧ day ≤ daysInMonth year month
  deriving DecidableEq, Repr

/-- An ordinary day. -/
def sampleDate : Date := ⟨2015, 5, 1, by decide, by decide, by decide⟩

theorem Date.day_lt (date : Date) : date.day < 100 := by
  have hdays : daysInMonth date.year date.month ≤ 31 := by
    unfold daysInMonth
    split_ifs <;> omega
  have hday := date.day_range
  omega

/-- A `DateTime`. -/
structure DateTime where
  date : Date
  Hour : Fin 24
  Minute : Fin 60
  Second : Fin 60
  /-- The ticks of 100 ns since the last full second. -/
  ticks : Fin 10000000
  deriving DecidableEq, Repr

/-- A number with a zero in front of a single digit. -/
def twoDigits (n : ℕ) : String := if n < 10 then "0" ++ n.repr else n.repr

/-- The short date of the Korean culture, `yyyy-MM-dd`. -/
def koreanShortDate (date : Date) : String :=
  twoDigits (date.year / 100) ++ twoDigits (date.year % 100) ++ "-" ++ twoDigits date.month ++
    "-" ++ twoDigits date.day

/-- The end of a name: the time of day and the extension. -/
def clockText (time : DateTime) : String :=
  twoDigits time.Hour ++ "-" ++ (twoDigits time.Minute ++ "-" ++ (twoDigits time.Second ++ ".xml"))

/-- `XMLFileName`. How a day is printed depends on the culture of the process. -/
def fileName (toShortDateString : Date → String) (name : String) (version : Version)
    (time : DateTime) : String :=
  trimWhiteSpace name ++ "-" ++ (version.toText ++ "-" ++
    (toShortDateString time.date ++ "-" ++ clockText time))

/-- A project without a name or a version throws. -/
def dateToFileName (toShortDateString : Date → String) (info : ProjectInformation)
    (time : DateTime) : Except RuntimeException String :=
  match info.Name, info.m_Version with
  | some name, some version => .ok (fileName toShortDateString name version time)
  | _, _ => .error .nullReference

/-- `XMLFolderPath`, which has no separator at its end. -/
def xmlFolderPath : String := "C:\\Dumps\\CS"

/-- `XMLFilePath`. -/
def xmlFilePath (XMLFileName : String) : String := xmlFolderPath ++ XMLFileName

/-- What a name keeps of a moment: its day as printed, and the time of day down
to the second. -/
def stamp (toShortDateString : Date → String) (time : DateTime) :
    String × Fin 24 × Fin 60 × Fin 60 :=
  (toShortDateString time.date, time.Hour, time.Minute, time.Second)

/-! ### Names and moments -/

variable {toShortDateString : Date → String} {name : String} {version : Version}
  {time time' : DateTime} {n m : ℕ}

theorem length_twoDigits (hn : n < 100) : (twoDigits n).toList.length = 2 := by
  have hall : ∀ n : Fin 100, (twoDigits n).toList.length = 2 := by decide
  exact hall ⟨n, hn⟩

theorem ofDigitChars_twoDigits (hn : n < 100) :
    Nat.ofDigitChars 10 (twoDigits n).toList 0 = n := by
  have hall : ∀ n : Fin 100, Nat.ofDigitChars 10 (twoDigits n).toList 0 = n := by decide
  exact hall ⟨n, hn⟩

theorem twoDigits_inj (hn : n < 100) (hm : m < 100) (h : twoDigits n = twoDigits m) : n = m := by
  rw [← ofDigitChars_twoDigits hn, h, ofDigitChars_twoDigits hm]

/-- A two-digit number in front of something else can be read off. -/
theorem twoDigits_append_inj {s t : List Char} (hn : n < 100) (hm : m < 100)
    (h : (twoDigits n).toList ++ s = (twoDigits m).toList ++ t) : n = m ∧ s = t := by
  have hlength : (twoDigits n).toList.length = (twoDigits m).toList.length := by
    rw [length_twoDigits hn, length_twoDigits hm]
  obtain ⟨hdigits, hrest⟩ := List.append_inj h hlength
  exact ⟨twoDigits_inj hn hm (String.toList_inj.mp hdigits), hrest⟩

theorem length_clockText (time : DateTime) : (clockText time).toList.length = 12 := by
  have hhour := length_twoDigits (show (time.Hour : ℕ) < 100 by omega)
  have hminute := length_twoDigits (show (time.Minute : ℕ) < 100 by omega)
  have hsecond := length_twoDigits (show (time.Second : ℕ) < 100 by omega)
  simp only [clockText, String.toList_append, List.length_append, hhour, hminute, hsecond]
  rfl

theorem clockText_inj (h : clockText time = clockText time') :
    time.Hour = time'.Hour ∧ time.Minute = time'.Minute ∧ time.Second = time'.Second := by
  have hlist := congrArg String.toList h
  simp only [clockText, String.toList_append, List.append_assoc] at hlist
  obtain ⟨hhour, hlist⟩ := twoDigits_append_inj (by omega) (by omega) hlist
  obtain ⟨hminute, hlist⟩ := twoDigits_append_inj (by omega) (by omega)
    (List.append_cancel_left hlist)
  obtain ⟨hsecond, -⟩ := twoDigits_append_inj (by omega) (by omega)
    (List.append_cancel_left hlist)
  exact ⟨Fin.ext hhour, Fin.ext hminute, Fin.ext hsecond⟩

/-- Two reports of one project have the same name exactly when their moments have
the same stamp. -/
theorem fileName_eq_iff :
    fileName toShortDateString name version time =
        fileName toShortDateString name version time' ↔
      stamp toShortDateString time = stamp toShortDateString time' := by
  constructor
  · intro h
    have hlist := congrArg String.toList h
    simp only [fileName, String.toList_append, List.append_assoc] at hlist
    -- the project comes first, and the time of day takes the same room in both names
    replace hlist := List.append_cancel_left (List.append_cancel_left
      (List.append_cancel_left (List.append_cancel_left hlist)))
    rw [← List.append_assoc, ← List.append_assoc] at hlist
    obtain ⟨hday, hclock⟩ := List.append_inj' hlist (by rw [length_clockText, length_clockText])
    obtain ⟨hhour, hminute, hsecond⟩ := clockText_inj (String.toList_inj.mp hclock)
    have hday' := String.toList_inj.mp (List.append_cancel_right hday)
    rw [stamp, stamp, hday', hhour, hminute, hsecond]
  · intro h
    obtain ⟨hday, hhour, hminute, hsecond⟩ : toShortDateString time.date =
        toShortDateString time'.date ∧ time.Hour = time'.Hour ∧ time.Minute = time'.Minute ∧
          time.Second = time'.Second := by
      simpa only [stamp, Prod.mk.injEq] using h
    rw [fileName, fileName, clockText, clockText, hday, hhour, hminute, hsecond]

/-! ### Names of any two reports -/

theorem length_koreanShortDate (date : Date) : (koreanShortDate date).toList.length = 10 := by
  have hyear := date.year_range
  have hmonth := date.month_range
  have hday : date.day < 100 := date.day_lt
  have hcentury := length_twoDigits (show date.year / 100 < 100 by omega)
  have hrest := length_twoDigits (show date.year % 100 < 100 by omega)
  simp only [koreanShortDate, String.toList_append, List.length_append, hcentury, hrest,
    length_twoDigits (show date.month < 100 by omega), length_twoDigits hday]
  rfl

theorem koreanShortDate_inj {date date' : Date} (h : koreanShortDate date = koreanShortDate date') :
    date = date' := by
  have hyear := date.year_range
  have hyear' := date'.year_range
  have hmonth := date.month_range
  have hmonth' := date'.month_range
  have hlist := congrArg String.toList h
  simp only [koreanShortDate, String.toList_append, List.append_assoc] at hlist
  obtain ⟨hcentury, hlist⟩ := twoDigits_append_inj (by omega) (by omega) hlist
  obtain ⟨hrest, hlist⟩ := twoDigits_append_inj (by omega) (by omega) hlist
  obtain ⟨hsame, hlist⟩ := twoDigits_append_inj (by omega) (by omega)
    (List.append_cancel_left hlist)
  have hday := twoDigits_inj date.day_lt date'.day_lt
    (String.toList_inj.mp (List.append_cancel_left hlist))
  have hsameYear : date.year = date'.year := by omega
  cases date
  cases date'
  simp only [Date.mk.injEq]
  exact ⟨hsameYear, hsame, hday⟩

theorem hyphen_notMem_toText (version : Version) : '-' ∉ version.toText.toList := by
  intro h
  rcases Version.isDigit_or_eq_of_mem_toText h with hdigit | hdot
  · exact absurd hdigit (by decide)
  · exact absurd hdot (by decide)

/-- The last place of an element divides a list in one way only. -/
theorem append_cons_inj_of_notMem_right {α : Type*} {x : α} {a b c d : List α} (hb : x ∉ b)
    (hd : x ∉ d) (h : a ++ x :: b = c ++ x :: d) : a = c ∧ b = d := by
  rcases List.append_eq_append_iff.mp h with ⟨e, rfl, hrest⟩ | ⟨e, rfl, hrest⟩
  · cases e with
    | nil => exact ⟨(List.append_nil a).symm, (List.cons.inj hrest).2⟩
    | cons y e =>
      refine absurd ?_ hb
      rw [(List.cons.inj hrest).2]
      exact List.mem_append_right e List.mem_cons_self
  · cases e with
    | nil => exact ⟨List.append_nil c, ((List.cons.inj hrest).2).symm⟩
    | cons y e =>
      refine absurd ?_ hd
      rw [(List.cons.inj hrest).2]
      exact List.mem_append_right e List.mem_cons_self

theorem toList_fileName (name : String) (version : Version) (time : DateTime) :
    (fileName toShortDateString name version time).toList =
      ((trimWhiteSpace name).toList ++ '-' :: version.toText.toList) ++
        '-' :: ((toShortDateString time.date).toList ++ '-' :: (clockText time).toList) := by
  simp [fileName]

/-- Two reports have the same name exactly when their projects have the same name but
for the blanks around it, the same version, and they were collected in the same second:
from the right, the time of day and the day have a fixed length, and the version has no
hyphen, so that the name of the project is what is left. -/
theorem dateToFileName_eq_iff (name name' : String) (version version' : Version)
    (time time' : DateTime) :
    dateToFileName koreanShortDate ⟨some name, some version⟩ time =
        dateToFileName koreanShortDate ⟨some name', some version'⟩ time' ↔
      trimWhiteSpace name = trimWhiteSpace name' ∧ version = version' ∧
        time.date = time'.date ∧ time.Hour = time'.Hour ∧ time.Minute = time'.Minute ∧
          time.Second = time'.Second := by
  rw [dateToFileName, dateToFileName, Except.ok.injEq]
  constructor
  · intro h
    have hlist := congrArg String.toList h
    rw [toList_fileName, toList_fileName] at hlist
    -- the end of a name, from the hyphen in front of the day on, has a fixed length
    have hlength : ∀ time : DateTime, ('-' :: ((koreanShortDate time.date).toList ++
        '-' :: (clockText time).toList)).length = 24 := fun time => by
      rw [List.length_cons, List.length_append, List.length_cons, length_koreanShortDate,
        length_clockText]
    obtain ⟨hproject, hmoment⟩ := List.append_inj' hlist (by rw [hlength, hlength])
    obtain ⟨hname, hversion⟩ := append_cons_inj_of_notMem_right (hyphen_notMem_toText version)
      (hyphen_notMem_toText version') hproject
    obtain ⟨hdate, hclock⟩ := List.append_inj (List.cons.inj hmoment).2
      (by rw [length_koreanShortDate, length_koreanShortDate])
    refine ⟨String.toList_inj.mp hname, Version.toText_inj (String.toList_inj.mp hversion),
      koreanShortDate_inj (String.toList_inj.mp hdate), ?_⟩
    exact clockText_inj (String.toList_inj.mp (List.cons.inj hclock).2)
  · rintro ⟨hname, rfl, hdate, hhour, hminute, hsecond⟩
    rw [fileName, fileName, clockText, clockText, hname, hdate, hhour, hminute, hsecond]

end SMEWindow.Collect
