import Federation.Json.Basic
import Federation.Binary64.Text
/-!
# Reading JSON

`Json.parse` reads a whole text as one document. Blanks may surround every part; anything else after
the document is refused. The reader follows the grammar on the list of characters; its fuel is the
number of characters, and each nested call is made on fewer of them.
-/

namespace Federation.Json

def isBlank (c : Char) : Bool := c = ' ' || c = '\n' || c = '\t' || c = '\r'

def skip (cs : List Char) : List Char := cs.dropWhile isBlank

def readHex4 : List Char → Option (Nat × List Char)
  | a :: b :: c :: d :: rest => (Text.readBase 16 [a, b, c, d]).map (·, rest)
  | _ => none

/-- A code point written with one or two escapes, after `\u`. Half of a surrogate pair is a code point
by itself. -/
def readCodePoint (cs : List Char) : Option (Nat × List Char) := do
  let (high, rest) ← readHex4 cs
  if 0xD800 ≤ high ∧ high ≤ 0xDBFF then
    match rest with
    | '\\' :: 'u' :: after =>
      match readHex4 after with
      | some (low, after) =>
        if 0xDC00 ≤ low ∧ low ≤ 0xDFFF then
          some (0x10000 + (high - 0xD800) * 0x400 + (low - 0xDC00), after)
        else some (high, rest)
      | none => none
    | _ => some (high, rest)
  else some (high, rest)

/-- The character after a backslash, unless it starts a code point. -/
def unescape (c : Char) : Option Char :=
  if c = '"' ∨ c = '\\' ∨ c = '/' then some c
  else if c = 'b' then some (Char.ofNat 8)
  else if c = 'f' then some (Char.ofNat 12)
  else if c = 'n' then some '\n'
  else if c = 'r' then some '\r'
  else if c = 't' then some '\t'
  else none

/-- The code points up to the closing quote, in reverse. -/
def readChars : Nat → List Nat → List Char → Option (List Nat × List Char)
  | 0, _, _ => none
  | _ + 1, _, [] => none
  | fuel + 1, acc, c :: rest =>
    if c = '"' then some (acc, rest)
    else if c = '\\' then
      match rest with
      | [] => none
      | 'u' :: rest =>
        match readCodePoint rest with
        | none => none
        | some (n, rest) => readChars fuel (n :: acc) rest
      | c :: rest =>
        match unescape c with
        | none => none
        | some c => readChars fuel (c.toNat :: acc) rest
    else if c.toNat < 32 then none
    else readChars fuel (c.toNat :: acc) rest

/-- The code points of a text, after the opening quote. -/
def readText (cs : List Char) : Option (List Nat × List Char) :=
  (readChars (cs.length + 1) [] cs).map fun (points, rest) => (points.reverse, rest)

/-- The text of some code points, unless half of a surrogate pair is among them. -/
def textOf? (points : List Nat) : Option String :=
  if points.all fun n => decide n.isValidChar then some (String.ofList (points.map Char.ofNat)) else none

/-- The bytes of a code point. Half of a surrogate pair has three, like the characters next to it. -/
def pointBytes (n : Nat) : List UInt8 :=
  if n.isValidChar then String.utf8EncodeChar (Char.ofNat n)
  else [.ofNat (0xE0 + n / 0x1000), .ofNat (0x80 + n / 0x40 % 0x40), .ofNat (0x80 + n % 0x40)]

def ofPoints (points : List Nat) : Json :=
  (textOf? points).elim (.halved (points.flatMap pointBytes)) .str

def floatNumber (x : Float) : Json := if x.isFinite then .num (.float x) else .unreadable

/-- The value of a whole number. Beyond the range of 64 bit words it is read as a float, and so is
the negative zero. -/
def wholeNumber (negative : Bool) (n : Nat) : Json :=
  if negative then
    if n = 0 then .num (.float (-0.0))
    else if n ≤ Word.signBit then .num (.negative (-n))
    else floatNumber (Binary64.ofDecimal true n 0)
  else if n < UInt64.size then word (UInt64.ofNat n)
  else floatNumber (Binary64.ofDecimal false n 0)

/-- The exponent of a number, if there is one: the letter, a sign and at least one digit. -/
def readExponent (cs : List Char) : Option (Option Int × List Char) :=
  match cs with
  | c :: rest =>
    if c = 'e' ∨ c = 'E' then
      let (negative, rest) := match rest with
        | '-' :: rest => (true, rest)
        | '+' :: rest => (false, rest)
        | rest => (false, rest)
      let (ds, rest) := Text.digits rest
      if ds.isEmpty then none
      else
        let n : Int := Text.decimalValue ds
        some (some (if negative then -n else n), rest)
    else some (none, cs)
  | [] => some (none, [])

/-- A number: an optional minus, a whole part without leading zeros, an optional fraction and an
optional exponent. -/
def readNumber (cs : List Char) : Option (Json × List Char) := do
  let (negative, cs) := match cs with
    | '-' :: rest => (true, rest)
    | cs => (false, cs)
  let (whole, rest) := Text.digits cs
  if whole.isEmpty || (whole.length > 1 && whole.head? == some '0') then none
  let (fraction, rest) ← match rest with
    | '.' :: rest =>
      let (ds, rest) := Text.digits rest
      if ds.isEmpty then none else some (ds, rest)
    | rest => some ([], rest)
  let (exponent, rest) ← readExponent rest
  let n := Text.decimalValue (whole ++ fraction)
  if fraction.isEmpty && exponent.isNone then some (wholeNumber negative n, rest)
  else
    some (floatNumber (Binary64.ofDecimal negative n (exponent.getD 0 - fraction.length)), rest)

/-- The rest after a word, if the text starts with it. -/
def after? : List Char → List Char → Option (List Char)
  | [], cs => some cs
  | w :: ws, c :: cs => if w = c then after? ws cs else none
  | _ :: _, [] => none

mutual

/-- A value, after blanks. -/
def readValue : Nat → List Char → Option (Json × List Char)
  | 0, _ => none
  | fuel + 1, cs =>
    match skip cs with
    | [] => none
    | '"' :: rest => (readText rest).map fun (points, rest) => (ofPoints points, rest)
    | '[' :: rest =>
      match skip rest with
      | ']' :: rest => some (.arr [], rest)
      | rest => (readItems fuel rest).map fun (items, rest) => (.arr items, rest)
    | '\x7b' :: rest =>
      match skip rest with
      | '\x7d' :: rest => some (.obj [], rest)
      | rest =>
        (readFields fuel rest).map fun (fields, rest) => ((fields.map .obj).getD .unreadable, rest)
    | 'n' :: rest => (after? "ull".toList rest).map (.null, ·)
    | 't' :: rest => (after? "rue".toList rest).map (.bool true, ·)
    | 'f' :: rest => (after? "alse".toList rest).map (.bool false, ·)
    | cs => readNumber cs

/-- At least one item, and the closing bracket. -/
def readItems : Nat → List Char → Option (List Json × List Char)
  | 0, _ => none
  | fuel + 1, cs =>
    match readValue fuel cs with
    | none => none
    | some (j, rest) =>
      match skip rest with
      | ',' :: rest => (readItems fuel rest).map fun (items, rest) => (j :: items, rest)
      | ']' :: rest => some ([j], rest)
      | _ => none

/-- At least one field, and the closing brace. Without meaning if a name is. -/
def readFields : Nat → List Char → Option (Option (List (String × Json)) × List Char)
  | 0, _ => none
  | fuel + 1, cs =>
    match skip cs with
    | '"' :: rest =>
      match readText rest with
      | none => none
      | some (name, rest) =>
        match skip rest with
        | ':' :: rest =>
          match readValue fuel rest with
          | none => none
          | some (j, rest) =>
            match skip rest with
            | ',' :: rest =>
              (readFields fuel rest).map fun (fields, rest) =>
                ((textOf? name).bind fun k => fields.map ((k, j) :: ·), rest)
            | '\x7d' :: rest => some ((textOf? name).map fun k => [(k, j)], rest)
            | _ => none
        | _ => none
    | _ => none

end

/-- Reads a text that holds one document and nothing else but blanks. -/
def parse (text : String) : Option Json :=
  let cs := text.toList
  match readValue (2 * cs.length + 2) cs with
  | some (j, rest) => if (skip rest).isEmpty then some j else none
  | none => none

end Federation.Json
