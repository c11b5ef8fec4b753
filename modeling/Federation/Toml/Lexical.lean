import Federation.Text.Digits
/-!
# Words of configuration documents

The parts that lines of a TOML document are made of: blanks, comments, keys and quoted texts. A
reader takes a list of characters and gives what it read with the characters that follow.
-/

namespace Federation.Toml

def skip (cs : List Char) : List Char := cs.dropWhile fun c => c = ' ' || c = '\t'

def isCommentChar (c : Char) : Bool := c = '\t' || 32 ≤ c.toNat

/-- The rest after the end of a line, before which blanks and a comment may stand. -/
def endLine? (cs : List Char) : Option (List Char) :=
  let rest := match skip cs with
    | '#' :: rest => rest.dropWhile isCommentChar
    | rest => rest
  match rest with
  | [] => some []
  | '\n' :: rest => some rest
  | _ => none

/-- Drops blanks, line breaks and comments. The flag says whether the start is inside a comment. -/
def skipLines (commented : Bool) : List Char → List Char
  | [] => []
  | c :: rest =>
    if c = '\n' then skipLines false rest
    else if commented then if isCommentChar c then skipLines true rest else c :: rest
    else if c = ' ' ∨ c = '\t' then skipLines false rest
    else if c = '#' then skipLines true rest
    else c :: rest

/-- Whether a character may stand in a key without quotes. -/
def isKeyChar (c : Char) : Bool := c.isAlphanum || c = '-' || c = '_'

/-- The word of key characters at the start, and what follows. -/
def word (cs : List Char) : List Char × List Char := (cs.takeWhile isKeyChar, cs.dropWhile isKeyChar)

def isTextChar (c : Char) : Bool := c = '\t' || (32 ≤ c.toNat && c.toNat != 127)

/-- The character with the code that the first `n` hexadecimal digits give. -/
def readCode (n : Nat) (cs : List Char) : Option (Char × List Char) := do
  let ds := cs.take n
  if ds.length < n then none
  let code ← Text.readBase 16 ds
  if h : code.isValidChar then some (Char.ofNatAux code h, cs.drop n) else none

/-- What follows a backslash. In a text of several lines a backslash at the end of a line hides the
line break and the blanks and line breaks after it. -/
def readEscape (multiline : Bool) : List Char → Option (Option Char × List Char)
  | [] => none
  | c :: rest =>
    if c = '"' ∨ c = '\\' then some (some c, rest)
    else if c = 'b' then some (some (Char.ofNat 8), rest)
    else if c = 'f' then some (some (Char.ofNat 12), rest)
    else if c = 'n' then some (some '\n', rest)
    else if c = 'r' then some (some '\r', rest)
    else if c = 't' then some (some '\t', rest)
    else if c = 'u' then (readCode 4 rest).map fun (c, rest) => (some c, rest)
    else if c = 'U' then (readCode 8 rest).map fun (c, rest) => (some c, rest)
    else if multiline then
      match skip (c :: rest) with
      | '\n' :: rest => some (none, rest.dropWhile fun c => c = ' ' || c = '\t' || c = '\n')
      | [] => some (none, [])
      | _ => none
    else none

/-- The characters up to the closing quotes, in reverse. Double quotes have escapes. A text of several
lines ends with three quotes, right before which up to two more belong to the text. -/
def readChars (quote : Char) (multiline : Bool) :
    Nat → List Char → List Char → Option (List Char × List Char)
  | 0, _, _ => none
  | _ + 1, _, [] => none
  | fuel + 1, acc, c :: rest =>
    if c = quote then
      if multiline then
        let more := (rest.takeWhile (· = quote)).length
        if more < 2 then
          readChars quote multiline fuel (List.replicate (more + 1) quote ++ acc) (rest.drop more)
        else
          let extra := min (more - 2) 2
          some (List.replicate extra quote ++ acc, rest.drop (2 + extra))
      else some (acc, rest)
    else if c = '\n' then if multiline then readChars quote multiline fuel (c :: acc) rest else none
    else if c = '\\' ∧ quote = '"' then
      match readEscape multiline rest with
      | none => none
      | some (c, rest) => readChars quote multiline fuel (c.toList ++ acc) rest
    else if isTextChar c then readChars quote multiline fuel (c :: acc) rest
    else none

/-- A quoted text after its first quote, and whether it may have several lines. A line break right
after the opening quotes does not belong to the text. -/
def readText (quote : Char) (cs : List Char) : Option (Bool × String × List Char) :=
  let (multiline, body) := match cs with
    | a :: b :: rest => if a = quote ∧ b = quote then (true, rest) else (false, cs)
    | _ => (false, cs)
  let body := match multiline, body with
    | true, '\n' :: rest => rest
    | _, _ => body
  (readChars quote multiline (body.length + 1) [] body).map fun (acc, rest) =>
    (multiline, String.ofList acc.reverse, rest)

/-- A key: a word, or a quoted text of one line. -/
def readKey (cs : List Char) : Option (String × List Char) :=
  match cs with
  | c :: rest =>
    if c = '"' ∨ c = '\'' then
      match readText c rest with
      | some (false, s, rest) => some (s, rest)
      | _ => none
    else
      let (key, rest) := word cs
      if key.isEmpty then none else some (String.ofList key, rest)
  | [] => none

/-- Keys with dots between them. Blanks may surround the dots and the whole. -/
def readPath : Nat → List Char → Option (List String × List Char)
  | 0, _ => none
  | fuel + 1, cs =>
    match readKey (skip cs) with
    | none => none
    | some (key, rest) =>
      match skip rest with
      | '.' :: rest => (readPath fuel rest).map fun (keys, rest) => (key :: keys, rest)
      | rest => some ([key], rest)

end Federation.Toml
