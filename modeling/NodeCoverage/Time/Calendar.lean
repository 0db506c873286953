import NodeCoverage.Text.Blank
import NodeCoverage.Text.Digits
/-!
# Calendar time

Moments of the world's clock, counted in seconds since the beginning of 1970, and their date in the
Gregorian calendar extended to all years. The supported years are `-262143` to `262142`. A minute
may end with a leap second, which is not counted: its moments are moments of the second before it
with a thousand million nanoseconds more. Timestamps are written in one form and read in many.
-/

namespace NodeCoverage

/-- A moment of the world's clock: seconds since 1970 began and nanoseconds after them, fewer than a
thousand million, or than twice as many where a leap second follows. -/
structure WorldTime where
  seconds : Int
  nanos : Nat
deriving DecidableEq

structure Date where
  year : Int
  month : Nat
  day : Nat
deriving DecidableEq

namespace Date

/-- The date of the day that is `n` days after the first of January 1970. Years are counted from
March within eras of 400 years, which all have the same length. -/
def ofDays (n : Int) : Date :=
  let z := n + 719468
  let era := Int.fdiv z 146097
  let doe := (Int.fmod z 146097).toNat
  let yoe := (doe - doe / 1460 + doe / 36524 - doe / 146096) / 365
  let doy := doe - (365 * yoe + yoe / 4 - yoe / 100)
  let mp := (5 * doy + 2) / 153
  let day := doy - (153 * mp + 2) / 5 + 1
  let month := if mp < 10 then mp + 3 else mp - 9
  let year := era * 400 + yoe
  ⟨if month ≤ 2 then year + 1 else year, month, day⟩

/-- How many days the date comes after the first of January 1970. -/
def toDays (d : Date) : Int :=
  let y := if d.month ≤ 2 then d.year - 1 else d.year
  let era := Int.fdiv y 400
  let yoe := (Int.fmod y 400).toNat
  let doy := (153 * (if d.month > 2 then d.month - 3 else d.month + 9) + 2) / 5 + d.day - 1
  let doe := yoe * 365 + yoe / 4 - yoe / 100 + doy
  era * 146097 + doe - 719468

def daysOfMonth (year : Int) (month : Nat) : Nat :=
  if month = 2 then
    if year % 4 = 0 ∧ (year % 100 ≠ 0 ∨ year % 400 = 0) then 29 else 28
  else if month = 4 ∨ month = 6 ∨ month = 9 ∨ month = 11 then 30
  else 31

end Date

namespace WorldTime

/-- Digits with zeros in front up to a width. -/
def padded (width n : Nat) : String :=
  let ds := toString n
  String.ofList (List.replicate (width - ds.length) '0') ++ ds

/-- The year with at least four digits, and a sign if it is not one of the years 0 to 9999. -/
def yearText (y : Int) : String :=
  if 0 ≤ y ∧ y ≤ 9999 then padded 4 y.toNat
  else (if y < 0 then "-" else "+") ++ padded 4 y.natAbs

def date (t : WorldTime) : Date :=
  Date.ofDays (Int.fdiv t.seconds 86400)

def secondOfDay (t : WorldTime) : Nat :=
  (Int.fmod t.seconds 86400).toNat

def dateText (t : WorldTime) : String :=
  yearText t.date.year ++ "-" ++ padded 2 t.date.month ++ "-" ++ padded 2 t.date.day

/-- How many leap seconds the moment has begun since the last counted second: one or none. -/
def leap (t : WorldTime) : Nat :=
  t.nanos / 1000000000

/-- The time of day in whole seconds; a leap second is the sixtieth of its minute. -/
def clockText (t : WorldTime) : String :=
  padded 2 (t.secondOfDay / 3600) ++ ":" ++ padded 2 (t.secondOfDay % 3600 / 60) ++ ":" ++
    padded 2 (t.secondOfDay % 60 + t.leap)

/-- The moment as a reader sees it. -/
def render (t : WorldTime) : String :=
  t.dateText ++ " " ++ t.clockText ++ " UTC"

def timestamp (t : WorldTime) : String :=
  t.dateText ++ "T" ++ t.clockText ++ "Z"

/-- The moment so many seconds after 1970 began, if its year is supported. -/
def ofSeconds? (n : Int) : Option WorldTime :=
  if -8334601228800 ≤ n ∧ n ≤ 8210266876799 then some ⟨n, 0⟩ else none

/-- The leap second that one of two moments lies in, as it counts for the seconds between their
times of day. -/
def leapBetween (t s : WorldTime) : Int :=
  if s.secondOfDay < t.secondOfDay then s.leap
  else if t.secondOfDay < s.secondOfDay then -Int.ofNat t.leap
  else 0

/-- Nanoseconds from `s` to `t`. -/
def since (t s : WorldTime) : Int :=
  (t.seconds - s.seconds + leapBetween t s) * 1000000000 + (Int.ofNat t.nanos - Int.ofNat s.nanos)

/-! ### Reading a timestamp -/

/-- A number of one to `most` digits in front of a text. -/
def digits? (most : Nat) (s : List Char) : Option (Nat × List Char) :=
  let ds := (s.take most).takeWhile Char.isDigit
  if ds = [] then none else some (Text.ofDigits ds, s.drop ds.length)

/-- A number of two digits in front of a text. -/
def twoDigits? : List Char → Option (Nat × List Char)
  | a :: b :: s => if a.isDigit && b.isDigit then some (Text.ofDigits [a, b], s) else none
  | _ => none

/-- A number of one or two digits behind blanks. -/
def part? (s : List Char) : Option (Nat × List Char) :=
  digits? 2 (s.dropWhile Text.isBlank)

/-- The text behind blanks and the character `c`. -/
def skip? (c : Char) (s : List Char) : Option (List Char) :=
  match s.dropWhile Text.isBlank with
  | d :: s => if d = c then some s else none
  | [] => none

/-- A year behind blanks: up to four digits, or a sign and any number of digits. -/
def year? (s : List Char) : Option (Int × List Char) :=
  match s.dropWhile Text.isBlank with
  | '-' :: s => (fun (n, s) => (-Int.ofNat n, s)) <$> digits? s.length s
  | '+' :: s => (fun (n, s) => (Int.ofNat n, s)) <$> digits? s.length s
  | s => (fun (n, s) => (Int.ofNat n, s)) <$> digits? 4 s

/-- Nanoseconds of the decimals in front of a text; decimals beyond the ninth do not count. -/
def fraction? : List Char → Option (Nat × List Char)
  | '.' :: s =>
    let ds := s.takeWhile Char.isDigit
    if ds = [] then none
    else some (Text.ofDigits ((ds ++ List.replicate 9 '0').take 9), s.dropWhile Char.isDigit)
  | s => some (0, s)

/-- The date in front of a text. -/
def date? (s : List Char) : Option (Date × List Char) := do
  let (year, s) ← year? s
  let (month, s) ← part? (← skip? '-' s)
  let (day, s) ← part? (← skip? '-' s)
  if year < -262143 ∨ 262142 < year ∨ month = 0 ∨ 12 < month ∨ day = 0 ∨
      Date.daysOfMonth year month < day then none
  else some (⟨year, month, day⟩, s)

/-- The time of day in front of a text: seconds since the day began, and nanoseconds. -/
def clock? (s : List Char) : Option (Nat × Nat × List Char) := do
  let (hour, s) ← part? s
  let (minute, s) ← part? (← skip? ':' s)
  let (second, s) ← part? (← skip? ':' s)
  let (nanos, s) ← fraction? s
  if 24 ≤ hour ∨ 60 ≤ minute ∨ 60 < second then none
  else
    let began := hour * 3600 + minute * 60
    if second = 60 then some (began + 59, 1000000000 + nanos, s)
    else some (began + second, nanos, s)

/-- The sign of the difference to the world's clock, in front of a text. -/
def zoneSign? : List Char → Option (Int × List Char)
  | '+' :: s => some (1, s)
  | '-' :: s | '\u2212' :: s => some (-1, s)
  | _ => none

/-- How many seconds a time zone is ahead of the world's clock, always less than a day. Hours and
minutes may be apart. -/
def zone? (s : List Char) : Option (Int × List Char) :=
  match s with
  | 'Z' :: s | 'z' :: s => some (0, s)
  | s =>
    if (s.take 3).map Char.toUpper = ['U', 'T', 'C'] then some (0, s.drop 3)
    else do
      let (sign, s) ← zoneSign? s
      let (hours, s) ← twoDigits? s
      let (minutes, s) ← twoDigits? (s.dropWhile fun c => c = ':' || Text.isBlank c)
      if 24 ≤ hours ∨ 60 ≤ minutes then none
      else some (sign * Int.ofNat (hours * 3600 + minutes * 60), s)

/-- Reads a date, the letter `T` or a blank, a time of day and a time zone. -/
def ofTimestamp? (text : String) : Option WorldTime := do
  let (date, s) ← date? text.toList
  let s ← match s with
    | 'T' :: s | 't' :: s | ' ' :: s => some s
    | _ => none
  let (second, nanos, s) ← clock? s
  let (ahead, s) ← zone? (s.dropWhile Text.isBlank)
  if s.all Text.isBlank then
    let t ← ofSeconds? (date.toDays * 86400 + Int.ofNat second - ahead)
    some { t with nanos := nanos }
  else none

end WorldTime
end NodeCoverage
