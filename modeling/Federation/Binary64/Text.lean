import Federation.Binary64.Shortest
import Federation.Text.Digits
/-!
# Texts of doubles

A double is written with its shortest digits. Where positional notation ends and how whole numbers
look differs between the places that show a number; a `Layout` record holds these choices.
-/

namespace Federation.Binary64

/-- How a number is laid out once its digits are known. -/
structure Layout where
  -- The number is written positionally if its decimal order, the exponent of its first digit, is at
  -- least this.
  fixedFrom : Option Int
  -- The number is written positionally if its decimal order is below this.
  fixedBelow : Option Int
  -- Whether a positional number without fraction ends in `.0`.
  pointZero : Bool
  -- Whether a positive exponent has a plus sign.
  plusSign : Bool

/-- Messages write numbers positionally, whole ones without point. -/
def Layout.plain : Layout := ⟨none, none, false, false⟩

/-- Listings of settings write very large and very small numbers with an exponent. -/
def Layout.listing : Layout := ⟨some (-4), some 16, true, false⟩

def Layout.json : Layout := ⟨some (-5), some 16, true, true⟩

def fixedText (l : Layout) (d : Decimal) : String :=
  let text := toString d.digits
  if 0 ≤ d.exponent then
    text ++ String.ofList (List.replicate d.exponent.natAbs '0') ++ (if l.pointZero then ".0" else "")
  else
    let text := Text.padded (d.exponent.natAbs + 1) d.digits
    let whole := text.length - d.exponent.natAbs
    (text.take whole).toString ++ "." ++ (text.drop whole).toString

/-- One digit, the further digits after a point, and the exponent. -/
def scientificText (l : Layout) (d : Decimal) (order : Int) : String :=
  let text := toString d.digits
  let fraction := if text.length = 1 then "" else "." ++ (text.drop 1).toString
  let sign := if l.plusSign ∧ 0 ≤ order then "+" else ""
  (text.take 1).toString ++ fraction ++ "e" ++ sign ++ toString order

def text (l : Layout) (x : Float) : String :=
  if x.isNaN then "NaN"
  else
    let sign := if isNegative x then "-" else ""
    if !x.isFinite then sign ++ "inf"
    else
      let d := shortest x
      let order : Int := d.exponent + digitCount d.digits - 1
      let fixed := d.digits = 0 ∨ (l.fixedFrom.all (· ≤ order) ∧ l.fixedBelow.all (order < ·))
      sign ++ if fixed then fixedText l d else scientificText l d order

/-- The exponent after the letter `e`: an optional sign and at least one digit, and nothing else. -/
def readExponent (cs : List Char) : Option Int :=
  let (negative, cs) := match cs with
    | '-' :: rest => (true, rest)
    | '+' :: rest => (false, rest)
    | cs => (false, cs)
  (Text.readBase 10 cs).map fun n => if negative then -n else n

/-- An unsigned decimal number with an optional point and an optional exponent. There is a digit
before or after the point. -/
def readUnsigned (negative : Bool) (cs : List Char) : Option Float :=
  let (whole, rest) := Text.digits cs
  let (fraction, rest) := match rest with
    | '.' :: rest => Text.digits rest
    | rest => ([], rest)
  if whole.isEmpty && fraction.isEmpty then none
  else
    let value (e : Int) :=
      ofDecimal negative (Text.decimalValue (whole ++ fraction)) (e - fraction.length)
    match rest with
    | [] => some (value 0)
    | c :: rest => if c = 'e' ∨ c = 'E' then (readExponent rest).map value else none

/-- Reads a text as a double. Besides decimal numbers it takes the names of infinity and of the
undefined number, in any case. -/
def read (text : String) : Option Float :=
  let (negative, cs) := match text.toList with
    | '-' :: rest => (true, rest)
    | '+' :: rest => (false, rest)
    | cs => (false, cs)
  let name := Text.lower (String.ofList cs)
  if name = "nan" then some (Float.ofBits (if negative then 0xfff8000000000000 else 0x7ff8000000000000))
  else if name = "inf" ∨ name = "infinity" then
    some (Float.ofBits (if negative then 0xfff0000000000000 else 0x7ff0000000000000))
  else readUnsigned negative cs

end Federation.Binary64
