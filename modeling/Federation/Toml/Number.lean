import Federation.Binary64.Rounding
import Federation.Settings.Value
import Federation.Toml.Lexical
/-!
# Numbers of configuration documents

A number may have single underscores between its digits. Whole numbers are limited to the range of
signed 64 bit words and may be given in the bases 2, 8 and 16; other numbers have to be finite unless
they are given by name.
-/

namespace Federation.Toml

/-- The digits of a base at the start, without the underscores between them. Leading zeros are refused
unless they are wanted. -/
def digitRun (base : Nat) (zeros : Bool) (cs : List Char) : Option (List Char × List Char) :=
  let isDigit (c : Char) : Bool := (Text.digitValue? c).any (· < base)
  let run := cs.takeWhile fun c => isDigit c || c = '_'
  let ds := run.filter (· ≠ '_')
  let parts := (String.ofList run).splitOn "_"
  if parts.any (·.isEmpty) || (!zeros && ds.length > 1 && ds.head? == some '0') then none
  else some (ds, cs.drop run.length)

def splitMinus : List Char → Bool × List Char
  | '-' :: rest => (true, rest)
  | cs => (false, cs)

def wholeSetting (base : Nat) (negative : Bool) (ds : List Char) : Option Setting := do
  let n ← Text.readBase base ds
  let i : Int := if negative then -n else n
  if Word.represents i then some (.whole i) else none

/-- The exponent at the end of a number: the letter, an optional sign and digits. -/
def readExponent : List Char → Option (Int × List Char)
  | [] => some (0, [])
  | c :: rest =>
    if c = 'e' ∨ c = 'E' then
      let (negative, rest) := match rest with
        | '+' :: rest => (false, rest)
        | rest => splitMinus rest
      (digitRun 10 true rest).map fun (ds, rest) =>
        let n : Int := Text.decimalValue ds
        (if negative then -n else n, rest)
    else some (0, c :: rest)

/-- A finite number, of its digits before and after the point and its exponent. -/
def realSetting (negative : Bool) (whole fraction : List Char) (exponent : Int) : Option Setting :=
  let x := Binary64.ofDecimal negative (Text.decimalValue (whole ++ fraction)) (exponent - fraction.length)
  if x.isFinite then some (.real x) else none

def readDecimal (cs : List Char) : Option (Setting × List Char) := do
  let (negative, cs) := splitMinus cs
  let (whole, rest) ← digitRun 10 false cs
  match rest with
  | '.' :: rest =>
    let (fraction, rest) ← digitRun 10 true rest
    let (exponent, rest) ← readExponent rest
    (realSetting negative whole fraction exponent).map (·, rest)
  | c :: _ =>
    if c = 'e' ∨ c = 'E' then
      let (exponent, rest) ← readExponent rest
      (realSetting negative whole [] exponent).map (·, rest)
    else (wholeSetting 10 negative whole).map (·, rest)
  | [] => (wholeSetting 10 negative whole).map (·, rest)

/-- The base that a number names by its first two characters. -/
def basePrefix? : List Char → Option (Nat × List Char)
  | '0' :: 'x' :: rest => some (16, rest)
  | '0' :: 'o' :: rest => some (8, rest)
  | '0' :: 'b' :: rest => some (2, rest)
  | _ => none

def namedReal? (name : String) : Option Float :=
  if name = "inf" then some (Float.ofBits 0x7ff0000000000000)
  else if name = "-inf" then some (Float.ofBits 0xfff0000000000000)
  else if name = "nan" ∨ name = "-nan" then some (Float.ofBits 0x7ff8000000000000)
  else none

/-- A number without a plus. -/
def readUnsigned (cs : List Char) : Option (Setting × List Char) :=
  let (name, rest) := word cs
  match namedReal? (String.ofList name), basePrefix? cs with
  | some x, _ => some (.real x, rest)
  | none, some (base, cs) => do
    let (ds, rest) ← digitRun base true cs
    (wholeSetting base false ds).map (·, rest)
  | none, none => readDecimal cs

/-- A number, which no key character follows. -/
def readNumber (cs : List Char) : Option (Setting × List Char) := do
  let (s, rest) ← readUnsigned (match cs with
    | '+' :: rest => rest
    | cs => cs)
  if (rest.head?.any fun c => isKeyChar c || c = '.') then none else some (s, rest)

end Federation.Toml
