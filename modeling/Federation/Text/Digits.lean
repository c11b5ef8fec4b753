import Federation.Word
/-!
# Runs of digits

Reading and writing whole numbers in positional notation. `digits` splits a text after its leading
digits; nothing is lost, the first part holds digits only and the rest starts with none.
-/

namespace Federation.Text

/-- The leading decimal digits of a text, and what follows them. -/
def digits (cs : List Char) : List Char × List Char :=
  (cs.takeWhile Char.isDigit, cs.dropWhile Char.isDigit)

/-- The value of a digit in a base up to sixteen, in either case. -/
def digitValue? (c : Char) : Option Nat :=
  if c.isDigit then some (c.toNat - '0'.toNat)
  else if 'a' ≤ c ∧ c ≤ 'f' then some (c.toNat - 'a'.toNat + 10)
  else if 'A' ≤ c ∧ c ≤ 'F' then some (c.toNat - 'A'.toNat + 10)
  else none

def decimalValue (cs : List Char) : Nat := cs.foldl (fun n c => 10 * n + (c.toNat - '0'.toNat)) 0

/-- The number that a text of digits in the given base stands for, unless another character occurs
or there is none. -/
def readBase (base : Nat) (cs : List Char) : Option Nat :=
  if cs.isEmpty then none
  else cs.foldlM (fun n c => (digitValue? c).bind fun d => if d < base then some (base * n + d) else none) 0

/-- A decimal text without sign that stands for a number below `2^64`. A leading plus is allowed. -/
def readWord (text : String) : Option UInt64 :=
  let cs := match text.toList with
    | '+' :: rest => rest
    | cs => cs
  (readBase 10 cs).bind fun n => if n < UInt64.size then some (UInt64.ofNat n) else none

/-- A decimal text with an optional sign that stands for a whole number between `-2^63` and
`2^63 - 1`. -/
def readInt64 (text : String) : Option Int :=
  let (negative, cs) := match text.toList with
    | '-' :: rest => (true, rest)
    | '+' :: rest => (false, rest)
    | cs => (false, cs)
  (readBase 10 cs).bind fun n =>
    let i : Int := if negative then -n else n
    if Word.represents i then some i else none

/-- The lower-case hexadecimal digit of a number below sixteen. -/
def hexDigit (n : Nat) : Char := Nat.digitChar n

/-- The lower-case hexadecimal text of a number, with the given number of digits. -/
def hex (width n : Nat) : String :=
  String.ofList ((List.range width).reverse.map fun i => hexDigit (n / Nat.pow 16 i % 16))

/-- The decimal text of a number, filled up with leading zeros. -/
def padded (width n : Nat) : String :=
  let text := toString n
  String.ofList (List.replicate (width - text.length) '0') ++ text

/-- The text, preceded by spaces up to the given width. -/
def alignRight (width : Nat) (text : String) : String :=
  String.ofList (List.replicate (width - text.length) ' ') ++ text

/-- The text, followed by spaces up to the given width. -/
def alignLeft (width : Nat) (text : String) : String :=
  text ++ String.ofList (List.replicate (width - text.length) ' ')

/-- The characters of a text in lower case, as far as they are ASCII letters. -/
def lower (text : String) : String := text.map Char.toLower

end Federation.Text
