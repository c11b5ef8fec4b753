/-!
# Failures

Every error of the library is a value that says what went wrong. `Failure` gives each kind of error a
name, by which reports and callers tell errors apart, and a wording.
-/

namespace Federation

class Failure (ε : Type) where
  -- The name of the kind of error. The name of an error inside another one follows a slash.
  kind : ε → String
  -- The wording, unless it is left to the operating system or to a reader of documents.
  message? : ε → Option String

/-- The wording of an error, empty if it has none. -/
def Failure.message {ε : Type} [Failure ε] (e : ε) : String := (Failure.message? e).getD ""

end Federation
