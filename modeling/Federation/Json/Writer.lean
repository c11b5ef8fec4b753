import Federation.Json.Basic
import Federation.Binary64.Text
/-!
# Writing JSON

`Json.compress` writes a document without blanks, `Json.pretty` with a line per item, indented by two
blanks per level. Both keep the order of the fields.
-/

namespace Federation.Json

/-- The escaped form of a character of a text. Only quotes, backslashes and control characters are
escaped. -/
def escapeChar (c : Char) : String :=
  if c = '"' then "\\\""
  else if c = '\\' then "\\\\"
  else if c = '\n' then "\\n"
  else if c = '\r' then "\\r"
  else if c = '\t' then "\\t"
  else if c.toNat = 8 then "\\b"
  else if c.toNat = 12 then "\\f"
  else if c.toNat < 32 then "\\u" ++ Text.hex 4 c.toNat
  else String.singleton c

def quote (s : String) : String :=
  s.toList.foldl (fun acc c => acc ++ escapeChar c) "\"" ++ "\""

/-- The text of a number. A float which is not finite has none and is written as `null`. -/
def Number.text : Number → String
  | .word n => toString n
  | .negative i => toString i
  | .float x => if x.isFinite then Binary64.text .json x else "null"

/-- The text of a value that holds no other values. -/
def leafText : Json → String
  | .bool true => "true"
  | .bool false => "false"
  | .num n => n.text
  | .str s => quote s
  | _ => "null"

mutual

/-- Appends a document without blanks. -/
def compressTo (out : String) : Json → String
  | .arr items => compressItems (out ++ "[") true items ++ "]"
  | .obj fields => compressFields (out ++ "\x7b") true fields ++ "\x7d"
  | j => out ++ leafText j

def compressItems (out : String) (first : Bool) : List Json → String
  | [] => out
  | j :: rest => compressItems (compressTo (if first then out else out ++ ",") j) false rest

def compressFields (out : String) (first : Bool) : List (String × Json) → String
  | [] => out
  | e :: rest => compressFields (compressField (if first then out else out ++ ",") e) false rest

def compressField (out : String) : String × Json → String
  | (k, j) => compressTo (out ++ quote k ++ ":") j

end

/-- The text of a document without blanks. -/
def compress (j : Json) : String := compressTo "" j

def newline (level : Nat) : String := "\n" ++ String.ofList (List.replicate (2 * level) ' ')

mutual

/-- Appends a document at the given level, a line per item. -/
def prettyTo (out : String) (level : Nat) : Json → String
  | .arr [] => out ++ "[]"
  | .obj [] => out ++ "\x7b\x7d"
  | .arr items => prettyItems (out ++ "[") (level + 1) true items ++ newline level ++ "]"
  | .obj fields => prettyFields (out ++ "\x7b") (level + 1) true fields ++ newline level ++ "\x7d"
  | j => out ++ leafText j

/-- Appends items, a line each. -/
def prettyItems (out : String) (level : Nat) (first : Bool) : List Json → String
  | [] => out
  | j :: rest =>
    prettyItems (prettyTo ((if first then out else out ++ ",") ++ newline level) level j) level false rest

/-- Appends fields, a line each. -/
def prettyFields (out : String) (level : Nat) (first : Bool) : List (String × Json) → String
  | [] => out
  | e :: rest =>
    prettyFields (prettyField ((if first then out else out ++ ",") ++ newline level) level e) level false rest

def prettyField (out : String) (level : Nat) : String × Json → String
  | (k, j) => prettyTo (out ++ quote k ++ ": ") level j

end

/-- The text of a document, a line per item. -/
def pretty (j : Json) : String := prettyTo "" 0 j

end Federation.Json
