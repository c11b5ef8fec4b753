import Federation.Json.Schema
import Federation.Text.Digits
/-!
# Points in time

A point in time counts the seconds since the beginning of 1970 in universal time. It is written as
date and time of day in the form of RFC 3339, with as many groups of three fractional digits as it
needs. A leap second is the last second of its minute with more than a second of fraction.
-/

namespace Federation

structure Timestamp where
  secs : Int
  -- The fraction; a second or more within a leap second.
  nanos : Nat
  deriving DecidableEq

namespace Timestamp

/-- Whether a year has a 29th of February. -/
def isLeap (year : Int) : Bool := year % 4 = 0 && (year % 100 ≠ 0 || year % 400 = 0)

def monthLength (year : Int) (month : Nat) : Nat :=
  if month = 2 then (if isLeap year then 29 else 28)
  else if month = 4 ∨ month = 6 ∨ month = 9 ∨ month = 11 then 30 else 31

/-- The days from the beginning of 1970 to a date. Years are counted from March. -/
def daysOfDate (year : Int) (month day : Nat) : Int :=
  let y := if month ≤ 2 then year - 1 else year
  let era := y / 400
  let yearOfEra := y % 400
  let dayOfYear : Int := ((153 * ((month + 9) % 12) + 2) / 5 + day - 1 : Nat)
  era * 146097 + (yearOfEra * 365 + yearOfEra / 4 - yearOfEra / 100 + dayOfYear) - 719468

/-- The date that lies a number of days after the beginning of 1970. -/
def dateOfDays (days : Int) : Int × Nat × Nat :=
  let z := days + 719468
  let era := z / 146097
  let dayOfEra := (z % 146097).toNat
  let yearOfEra := (dayOfEra - dayOfEra / 1460 + dayOfEra / 36524 - dayOfEra / 146096) / 365
  let dayOfYear := dayOfEra - (365 * yearOfEra + yearOfEra / 4 - yearOfEra / 100)
  let m := (5 * dayOfYear + 2) / 153
  let day := dayOfYear - (153 * m + 2) / 5 + 1
  let month := if m < 10 then m + 3 else m - 9
  (era * 400 + yearOfEra + (if month ≤ 2 then 1 else 0), month, day)

/-! ## Writing -/

/-- Four digits; beyond, or before the year zero, a sign as well. -/
def yearText (year : Int) : String :=
  if 0 ≤ year ∧ year ≤ 9999 then Text.padded 4 year.natAbs
  else (if year < 0 then "-" else "+") ++ Text.padded 4 year.natAbs

/-- The fraction of a second in groups of three digits, without groups that end it with zeros. -/
def fractionText (nanos : Nat) : String :=
  if nanos = 0 then ""
  else if nanos % 1000000 = 0 then "." ++ Text.padded 3 (nanos / 1000000)
  else if nanos % 1000 = 0 then "." ++ Text.padded 6 (nanos / 1000)
  else "." ++ Text.padded 9 nanos

def parts (t : Timestamp) : String × String :=
  let (year, month, day) := dateOfDays (t.secs / 86400)
  let rest := (t.secs % 86400).toNat
  let second := rest % 60 + (if 1000000000 ≤ t.nanos then 1 else 0)
  (yearText year ++ "-" ++ Text.padded 2 month ++ "-" ++ Text.padded 2 day,
    Text.padded 2 (rest / 3600) ++ ":" ++ Text.padded 2 (rest / 60 % 60) ++ ":" ++
      Text.padded 2 second ++ fractionText (t.nanos % 1000000000))

def text (t : Timestamp) : String := t.parts.1 ++ "T" ++ t.parts.2 ++ "Z"

def display (t : Timestamp) : String := t.parts.1 ++ " " ++ t.parts.2 ++ " UTC"

/-! ## Reading -/

/-- A number of one to `width` digits, after blanks. -/
def readField (width : Nat) (cs : List Char) : Option (Nat × List Char) :=
  let cs := cs.dropWhile Char.isWhitespace
  let ds := (cs.take width).takeWhile Char.isDigit
  if ds.isEmpty then none else some (Text.decimalValue ds, cs.drop ds.length)

/-- A year: up to four digits, or a sign and any number of digits. -/
def readYear (cs : List Char) : Option (Int × List Char) :=
  match cs.dropWhile Char.isWhitespace with
  | '-' :: rest => (readField rest.length rest).map fun (n, rest) => (-n, rest)
  | '+' :: rest => (readField rest.length rest).map fun (n, rest) => (n, rest)
  | cs => (readField 4 cs).map fun (n, rest) => (n, rest)

/-- The rest after a character, which blanks may precede. -/
def expect (c : Char) (cs : List Char) : Option (List Char) :=
  match cs.dropWhile Char.isWhitespace with
  | d :: rest => if d = c then some rest else none
  | [] => none

/-- The fraction of a second in nanoseconds. Digits beyond the ninth are dropped. -/
def readFraction (cs : List Char) : Option (Nat × List Char) :=
  match cs with
  | '.' :: rest =>
    let (ds, rest) := Text.digits rest
    if ds.isEmpty then none
    else
      let ds := ds.take 9
      some (Text.decimalValue ds * Nat.pow 10 (9 - ds.length), rest)
  | cs => some (0, cs)

/-- The offset from universal time in seconds: a letter for none, or a sign, hours and minutes. -/
def readOffset (cs : List Char) : Option (Int × List Char) :=
  match cs with
  | [] => none
  | c :: rest =>
    if c = 'Z' ∨ c = 'z' then some (0, rest)
    else if (cs.take 3).map Char.toUpper = ['U', 'T', 'C'] then some (0, cs.drop 3)
    else if c = '+' ∨ c = '-' ∨ c = '−' then
      match rest with
      | h1 :: h2 :: rest =>
        match rest.dropWhile fun c => c = ':' || c.isWhitespace with
        | m1 :: m2 :: rest =>
          if [h1, h2, m1, m2].all Char.isDigit then
            let minutes := Text.decimalValue [m1, m2]
            let total : Int := Text.decimalValue [h1, h2] * 3600 + minutes * 60
            if minutes < 60 ∧ total < 86400 then some (if c = '+' then total else -total, rest)
            else none
          else none
        | _ => none
      | _ => none
    else none

def read (s : String) : Option Timestamp := do
  let (year, cs) ← readYear s.toList
  let (month, cs) ← readField 2 (← expect '-' cs)
  let (day, cs) ← readField 2 (← expect '-' cs)
  let cs ← match cs with
    | c :: rest => if c = 'T' ∨ c = 't' ∨ c = ' ' then some rest else none
    | [] => none
  let (hour, cs) ← readField 2 cs
  let (minute, cs) ← readField 2 (← expect ':' cs)
  let (second, cs) ← readField 2 (← expect ':' cs)
  let (nanos, cs) ← readFraction cs
  let (offset, cs) ← readOffset (cs.dropWhile Char.isWhitespace)
  if !(cs.dropWhile Char.isWhitespace).isEmpty then none
  if month < 1 ∨ 12 < month ∨ day < 1 ∨ monthLength year month < day then none
  if 23 < hour ∨ 59 < minute ∨ 60 < second ∨ 262142 < year.natAbs then none
  let leap := second = 60
  let clock : Int := (hour * 3600 + minute * 60 + (if leap then 59 else second) : Nat)
  return ⟨daysOfDate year month day * 86400 + clock - offset, if leap then nanos + 1000000000 else nanos⟩

def toJson (t : Timestamp) : Json := .str t.text

def ofJson? (j : Json) : Option Timestamp := j.asString?.bind read

end Timestamp

end Federation
