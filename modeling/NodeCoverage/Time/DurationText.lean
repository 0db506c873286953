import NodeCoverage.Fault
import NodeCoverage.Text.Blank
import NodeCoverage.Text.Digits
import NodeCoverage.Time.Duration
/-!
# Durations in words

A duration is written as numbers with units, such as `1h 30m`, and the parts are added up. Reading
allows many spellings of the units, blanks inside a number, and a fraction as long as it is a whole
number of nanoseconds or, from an hour on, of seconds. Writing uses one spelling of each unit, the
larger ones first, and leaves out the units that do not occur.
-/

namespace NodeCoverage
namespace DurationText

/-- Why a text is not a duration. Offsets count the bytes of the text. -/
inductive Fault where
  | invalidCharacter (offset : Nat)
  | numberExpected (offset : Nat)
  | unknownUnit (unit : String) (value : Nat)
  | overflow
  /-- Carrying the nanoseconds over takes the seconds beyond 64 bits. -/
  | carry
  | empty
deriving DecidableEq

def Fault.message : Fault → String
  | .invalidCharacter offset => s!"invalid character at {offset}"
  | .numberExpected offset => s!"expected number at {offset}"
  | .unknownUnit unit value =>
    if unit = "" then s!"time unit needed, for example {value}sec or {value}ms"
    else "unknown time unit \"" ++ unit ++ "\", supported units: " ++
      "ns, us/µs, ms, sec, min, hours, days, weeks, months, years (and few variations)"
  | .overflow => "number is too large or cannot be represented without a lack of precision " ++
      "(values below 1ns are not supported)"
  | .carry => NodeCoverage.Fault.longDuration.message
  | .empty => "value was empty"

inductive Scale where
  | nanosecond
  | microsecond
  | millisecond
  | second
  | minute
  | hour
  | day
  | week
  | month
  | year
deriving DecidableEq

namespace Scale

/-- Nanoseconds in one unit. A month is 30.44 days and a year 365.25 days. -/
def nanos : Scale → Nat
  | nanosecond => 1
  | microsecond => 1000
  | millisecond => 1000000
  | second => 1000000000
  | minute => 60 * 1000000000
  | hour => 3600 * 1000000000
  | day => 86400 * 1000000000
  | week => 604800 * 1000000000
  | month => 2630016 * 1000000000
  | year => 31557600 * 1000000000

/-- The unit in which whole numbers are counted: nanoseconds below a second, else seconds. -/
def grain : Scale → Nat
  | nanosecond | microsecond | millisecond => 1
  | _ => 1000000000

/-- The unit in which fractions are counted: nanoseconds up to a minute, else seconds. -/
def fractionGrain : Scale → Nat
  | nanosecond | microsecond | millisecond | second | minute => 1
  | _ => 1000000000

def spellings : List (Scale × List String) :=
  [(nanosecond, ["nanos", "nsec", "ns"]),
   (microsecond, ["usec", "us", "µs"]),
   (millisecond, ["millis", "msec", "ms"]),
   (second, ["seconds", "second", "secs", "sec", "s"]),
   (minute, ["minutes", "minute", "min", "mins", "m"]),
   (hour, ["hours", "hour", "hrs", "hr", "h"]),
   (day, ["days", "day", "d"]),
   (week, ["weeks", "week", "wks", "wk", "w"]),
   (month, ["months", "month", "M"]),
   (year, ["years", "year", "yrs", "yr", "y"])]

def ofString? (s : String) : Option Scale :=
  (spellings.find? fun entry => entry.2.contains s).map Prod.fst

end Scale

/-- Numbers are held in words of 64 bits. -/
def wordLimit : Nat := Nat.pow 2 64

def word (n : Nat) : Except Fault Nat :=
  if n < wordLimit then .ok n else .error .overflow

/-- The part of a number behind its point, `numerator / denominator`. -/
structure Fraction where
  numerator : Nat
  denominator : Nat

/-- The duration of so many seconds and nanoseconds. A full second among the latter is carried over
last. -/
def assemble (seconds nanos : Nat) : Except Fault Nat :=
  let total := seconds * 1000000000 + nanos
  if total < wordLimit * 1000000000 then .ok total else .error .carry

/-- Adds `count` grains to what was read so far, in nanoseconds. Seconds and nanoseconds are added
up apart and must each fit into a word, and more than a full second of the latter is carried
over. -/
def addPart (total grain count : Nat) : Except Fault Nat := do
  let (seconds, nanos) := if grain = 1 then (0, count) else (count, 0)
  let nanos ← word (total % 1000000000 + nanos)
  let (seconds, nanos) ←
    if 1000000000 < nanos then do
      pure (← word (seconds + nanos / 1000000000), nanos % 1000000000)
    else pure (seconds, nanos)
  assemble (← word (total / 1000000000 + seconds)) nanos

/-- Adds `n` units and the fraction `f` of a unit to what was read so far. -/
def addUnits (total n : Nat) (f : Option Fraction) (unit : String) : Except Fault Nat :=
  match Scale.ofString? unit with
  | none => .error (.unknownUnit unit n)
  | some scale => do
    let total ← addPart total scale.grain (← word (n * (scale.nanos / scale.grain)))
    match f with
    | none => pure total
    | some f =>
      if scale = .nanosecond then .error .overflow
      else
        let scaled ← word (f.numerator * (scale.nanos / scale.fractionGrain))
        if scaled % f.denominator = 0 then
          addPart total scale.fractionGrain (scaled / f.denominator)
        else .error .overflow

def isUnitChar (c : Char) : Bool :=
  ('a' ≤ c && c ≤ 'z') || ('A' ≤ c && c ≤ 'Z') || c = 'µ'

inductive Mode where
  /-- Before a number; the search for its first digit began at `start`. -/
  | before (start : Nat)
  | whole (value : Nat)
  /-- Behind the point; `last` is the offset of the character before the next one. -/
  | fraction (value : Nat) (f : Fraction) (last : Nat)
  | unit (value : Nat) (f : Option Fraction) (letters : List Char)

/-- How far the reading has come: the bytes and parts behind it, and the mode. -/
structure State where
  offset : Nat
  total : Nat
  mode : Mode

def pushDigit (n : Nat) (c : Char) : Except Fault Nat :=
  word (10 * n + Text.digitValue c)

/-- The number that begins with the digit `c`. -/
def firstDigit (c : Char) : Mode :=
  .whole (Text.digitValue c)

/-- The part that ends here is added up. -/
def endUnit (total value : Nat) (f : Option Fraction) (letters : List Char) : Except Fault Nat :=
  addUnits total value f (String.ofList letters.reverse)

/-- What one character makes of the mode, and what it adds. -/
def stepMode (offset total : Nat) (mode : Mode) (c : Char) : Except Fault (Nat × Mode) :=
  match mode with
  | .before start =>
    if c.isDigit then .ok (total, firstDigit c)
    else if Text.isBlank c then .ok (total, mode)
    else .error (.numberExpected start)
  | .whole n =>
    if c.isDigit then (fun n => (total, .whole n)) <$> pushDigit n c
    else if Text.isBlank c then .ok (total, mode)
    else if isUnitChar c then .ok (total, .unit n none [c])
    else if c = '.' then .ok (total, .fraction n ⟨0, 1⟩ offset)
    else .error (.invalidCharacter offset)
  | .fraction n f last =>
    if c.isDigit then do
      let denominator ← word (10 * f.denominator)
      let numerator ← pushDigit f.numerator c
      pure (total, .fraction n ⟨numerator, denominator⟩ (offset + c.utf8Size))
    else if Text.isBlank c then .ok (total, .fraction n f (offset + c.utf8Size))
    else if isUnitChar c ∧ f.denominator ≠ 1 then .ok (total, .unit n (some f) [c])
    else .error (.invalidCharacter last)
  | .unit n f letters =>
    if c.isDigit then do
      pure (← endUnit total n f letters, firstDigit c)
    else if Text.isBlank c then do
      pure (← endUnit total n f letters, .before (offset + c.utf8Size))
    else if isUnitChar c then .ok (total, .unit n f (c :: letters))
    else .error (.invalidCharacter offset)

def step (s : State) (c : Char) : Except Fault State := do
  let (total, mode) ← stepMode s.offset s.total s.mode c
  pure ⟨s.offset + c.utf8Size, total, mode⟩

/-- The end of the text; `noNumber` says that it held nothing but blanks. -/
def finish (s : State) (noNumber : Bool) : Except Fault Nat :=
  match s.mode with
  | .before _ => if noNumber then .error .empty else .ok s.total
  | .whole n => endUnit s.total n none []
  | .fraction n f last =>
    if f.denominator = 1 then .error (.invalidCharacter last) else endUnit s.total n (some f) []
  | .unit n f letters => endUnit s.total n f letters

/-- The duration that a text denotes. The single digit `0` needs no unit. -/
def parse (text : String) : Except Fault Duration :=
  if text = "0" then .ok .zero
  else do
    let s ← text.toList.foldlM step ⟨0, 0, .before 0⟩
    let nanos ← finish s (Text.blank text)
    pure ⟨nanos⟩

/-! ### Writing -/

/-- A count with its unit; nothing for zero. -/
def part (n : Nat) (unit : String) : List String :=
  if n = 0 then [] else [toString n ++ unit]

/-- A count with a unit that has a plural. -/
def pluralPart (n : Nat) (unit : String) : List String :=
  part n (if n = 1 then unit else unit ++ "s")

/-- The parts of a duration, larger units first. -/
def parts (d : Duration) : List String :=
  let secs := d.seconds
  let nanos := d.subsecond
  let yearDays := secs % 31557600
  let monthDays := yearDays % 2630016
  let daySecs := monthDays % 86400
  pluralPart (secs / 31557600) "year" ++ pluralPart (yearDays / 2630016) "month" ++
    pluralPart (monthDays / 86400) "day" ++ part (daySecs / 3600) "h" ++
    part (daySecs % 3600 / 60) "m" ++ part (daySecs % 60) "s" ++ part (nanos / 1000000) "ms" ++
    part (nanos / 1000 % 1000) "us" ++ part (nanos % 1000) "ns"

def render (d : Duration) : String :=
  if d.nanos = 0 then "0s" else String.intercalate " " (parts d)

end DurationText
end NodeCoverage
