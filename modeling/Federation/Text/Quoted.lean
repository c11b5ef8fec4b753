import Federation.Text.Digits
import Federation.Text.Printable
/-!
# Quoted texts

Messages put texts of foreign origin between quotes. What would break the line or would not show is
escaped, so that two different texts never look alike.
-/

namespace Federation.Text

def quotedChar (c : Char) : String :=
  if c = '"' then "\\\""
  else if c = '\\' then "\\\\"
  else if c = '\n' then "\\n"
  else if c = '\r' then "\\r"
  else if c = '\t' then "\\t"
  else if c.toNat = 0 then "\\0"
  else if isPrintable c then String.singleton c
  else "\\u\x7b" ++ String.ofList (Nat.toDigits 16 c.toNat) ++ "\x7d"

def quoted (s : String) : String := "\"" ++ String.join (s.toList.map quotedChar) ++ "\""

/-- Items between brackets, separated by commas. -/
def bracketed (l : List String) : String := "[" ++ ", ".intercalate l ++ "]"

def nodeList (l : List String) : String :=
  bracketed (l.map fun node => "NodeId(" ++ quoted node ++ ")")

def maybe (s : Option String) : String := s.elim "None" fun s => "Some(" ++ s ++ ")"

end Federation.Text
