import Federation.Text.Digits
/-!
# Dates and times of configuration documents

A moment is a day, a time of the day, or both with the distance from universal time. No setting holds
a moment, so it counts as a text. There is one such text for each moment: capital letters stand between
its parts and for universal time, and the fraction of a second has at most nine digits, the last of
which is not zero.
-/

namespace Federation.Toml

/-- A number of exactly `n` digits in a range. -/
def readFixed (n least most : Nat) (cs : List Char) : Option (String × List Char) :=
  let ds := cs.take n
  let value := Text.decimalValue ds
  if ds.length = n ∧ ds.all Char.isDigit ∧ least ≤ value ∧ value ≤ most then
    some (String.ofList ds, cs.drop n)
  else none

/-- The rest after a character, if the text starts with it. -/
def after? (c : Char) : List Char → Option (List Char)
  | d :: rest => if c = d then some rest else none
  | [] => none

def readDay (cs : List Char) : Option (String × List Char) := do
  let (year, cs) ← readFixed 4 0 9999 cs
  let (month, cs) ← readFixed 2 1 12 (← after? '-' cs)
  let (day, cs) ← readFixed 2 1 31 (← after? '-' cs)
  return (year ++ "-" ++ month ++ "-" ++ day, cs)

def fractionText (ds : List Char) : String :=
  let ds := ((ds.take 9).reverse.dropWhile (· = '0')).reverse
  if ds.isEmpty then "" else "." ++ String.ofList ds

def readClock (cs : List Char) : Option (String × List Char) := do
  let (hour, cs) ← readFixed 2 0 24 cs
  let (minute, cs) ← readFixed 2 0 59 (← after? ':' cs)
  let (second, cs) ← readFixed 2 0 59 (← after? ':' cs)
  let clock := hour ++ ":" ++ minute ++ ":" ++ second
  match cs with
  | '.' :: rest =>
    let (ds, rest) := Text.digits rest
    if ds.isEmpty then none else some (clock ++ fractionText ds, rest)
  | cs => some (clock, cs)

/-- The distance from universal time. A distance of less than an hour has no sign of its own. -/
def readOffset? : List Char → Option (String × List Char)
  | [] => none
  | c :: rest =>
    if c = 'Z' ∨ c = 'z' then some ("Z", rest)
    else if c = '+' ∨ c = '-' then do
      let (hours, rest) ← readFixed 2 0 99 rest
      let (minutes, rest) ← readFixed 2 0 99 (← after? ':' rest)
      let sign := if c = '-' ∧ hours ≠ "00" then "-" else "+"
      return (sign ++ hours ++ ":" ++ minutes, rest)
    else none

/-- A day with the time that follows it, if one does. -/
def withClock (day : String) (cs : List Char) : String × List Char :=
  match cs with
  | c :: rest =>
    if c = 'T' ∨ c = 't' ∨ c = ' ' then
      match readClock rest with
      | none => (day, cs)
      | some (clock, rest) =>
        let (offset, rest) := (readOffset? rest).getD ("", rest)
        (day ++ "T" ++ clock ++ offset, rest)
    else (day, cs)
  | [] => (day, [])

/-- A date, a time or both. -/
def readMoment (cs : List Char) : Option (String × List Char) :=
  match readDay cs with
  | some (day, rest) => some (withClock day rest)
  | none => readClock cs

end Federation.Toml
