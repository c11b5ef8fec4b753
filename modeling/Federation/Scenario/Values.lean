import Federation.Message.Codec
/-!
# Values of scenarios

A scenario is a document that describes inputs of the controller and what happens around it; playing
it gives a document of the outcomes. Scenarios are written by tools, so they are read leniently: what
is missing takes its default.

Outcomes show every float by its bits, so two outcomes agree exactly if the floats do. Scenarios may
give floats by their bits as well.
-/

namespace Federation.Scenario

/-! ## Parts of a document -/

/-- A field, `null` if it is missing. -/
def get (j : Json) (name : String) : Json :=
  match j with
  | .obj fields => (fields.lookup name).getD .null
  | _ => .null

/-- Whether a field is there and not `null`. -/
def has (j : Json) (name : String) : Bool :=
  match get j name with
  | .null => false
  | _ => true

/-- What a field holds, unless it is missing or `null`. -/
def optional {α : Type} (j : Json) (name : String) (read : Json → α) : Option α :=
  match get j name with
  | .null => none
  | v => some (read v)

/-- The text of a document, empty for any other one. -/
def text (j : Json) : String := j.asString?.getD ""

/-- The text of a field, or a default. -/
def textOr (default : String) (j : Json) (name : String) : String :=
  (get j name).asString?.getD default

def textAt (j : Json) (name : String) : String := textOr "" j name

/-- The number of a document, zero for any other one. -/
def word (j : Json) : UInt64 := j.asWord?.getD 0

/-- The number of a field, or a default. -/
def wordOr (default : UInt64) (j : Json) (name : String) : UInt64 :=
  (get j name).asWord?.getD default

def wordAt (j : Json) (name : String) : UInt64 := wordOr 0 j name

/-- The truth value of a field, or a default. -/
def flagOr (default : Bool) (j : Json) (name : String) : Bool := (get j name).asBool?.getD default

def flagAt (j : Json) (name : String) : Bool := flagOr false j name

def items : Json → List Json
  | .arr l => l
  | _ => []

def listAt (j : Json) (name : String) : List Json := items (get j name)

def fields : Json → List (String × Json)
  | .obj l => l
  | _ => []

def map {α : Type} (read : Json → α) (j : Json) : NameMap α :=
  .ofList ((fields j).map fun e => (e.1, read e.2))

def texts (j : Json) : List String := (items j).map text

/-! ## Exact values -/

/-- A float given as a number, by name or by its bits. -/
def float (j : Json) : Float :=
  match j with
  | .str "nan" => Float.ofBits 0x7ff8000000000000
  | .str "inf" => Float.ofBits 0x7ff0000000000000
  | .str "-inf" => Float.ofBits 0xfff0000000000000
  | .str s => Float.ofBits (UInt64.ofNat ((Text.readBase 16 (s.toList.drop 2)).getD 0))
  | j => j.asFloat?.getD 0.0

/-- The float of a field, or a default. -/
def floatOr (default : Float) (j : Json) (name : String) : Float :=
  (optional j name float).getD default

def floatAt (j : Json) (name : String) : Float := floatOr 0.0 j name

def bits (x : Float) : Json := .str (if x.isNaN then "nan" else Text.hex 16 x.toBits.toNat)

def bytes (j : Json) : List UInt8 := (Crypto.readHex (text j).toList).getD []

def key (j : Json) : Crypto.Key := .ofNat (Crypto.ofLittleEndian (bytes j))

def keyText (k : Crypto.Key) : Json := .str (Crypto.hexText k.bytes)

/-- Parameters, given as an object or as a list of layers. -/
def params (j : Json) : Parameters Float :=
  let values (v : Json) : List Float := (items v).map float
  match j with
  | .arr l => .ofLayers (l.map fun e => ((items e).head?.elim "" text, values ((items e).getD 1 .null)))
  | j => .ofLayers ((fields j).map fun e => (e.1, values e.2))

def paramsBits (p : Parameters Float) : Json := .map (.list bits) p.layers

def auxVars (j : Json) : AuxVars Float := map params j

def auxVarsBits (v : AuxVars Float) : Json := .map paramsBits v

def maskConfig (j : Json) : MaskConfig Float :=
  ⟨floatAt j "clipping_range", (wordAt j "fixed_point_bits").toUInt8⟩

def maskConfigBits (c : MaskConfig Float) : Json :=
  .obj [("clipping_range", bits c.clippingRange), ("fixed_point_bits", .word c.fixedPointBits.toUInt64)]

def keyPair (j : Json) : KeyPair := ⟨key (get j "secret"), key (get j "public")⟩

def trainingArgs (j : Json) : TrainingArgs Float where
  numUpdates := optional j "num_updates" word
  epochs := optional j "epochs" word
  learningRate := optional j "learning_rate" float
  batchSize := optional j "batch_size" word

def trainingArgsBits (a : TrainingArgs Float) : Json :=
  .obj [("num_updates", .option .word a.numUpdates), ("epochs", .option .word a.epochs),
    ("learning_rate", .option bits a.learningRate), ("batch_size", .option .word a.batchSize)]

def modelArgs (j : Json) : ModelArgs :=
  .ofList ((fields j).filterMap fun e => (FreeForm.ofJson? e.2).map fun v => (e.1, v))

def secaggArguments (j : Json) : SecaggArguments Float :=
  let config := maskConfig (get j "config")
  { sessionId := textAt j "session_id"
    parties := texts (get j "parties")
    publicKeys := map key (get j "public_keys")
    nonce := wordAt j "nonce"
    random := floatAt j "random"
    clippingRange := config.clippingRange
    fixedPointBits := config.fixedPointBits }

/-! ## Outcomes -/

def failure {ε : Type} [Failure ε] (e : ε) : Json :=
  .obj (("error", .str (Failure.kind e)) ::
    ((Failure.message? e).map fun m => ("message", Json.str m)).toList)

def outcome {ε α : Type} [Failure ε] (f : α → Json) : Except ε α → Json
  | .ok a => f a
  | .error e => failure e

def verdict {ε : Type} [Failure ε] (r : Except ε Unit) : Json := outcome (fun _ => .null) r

/-- The report of a text that is no document of the wanted kind. -/
def unreadable : Json := .obj [("error", .str "Json")]

/-- Plays steps one after the other. A step gives its outcome and the state for the next one. -/
def play {σ : Type} (step : σ → Json → Json × σ) : σ → List Json → List Json
  | _, [] => []
  | s, j :: rest =>
    let (r, s) := step s j
    r :: play step s rest

def steps {σ : Type} (step : σ → Json → Json × σ) (start : σ) (j : Json) : Json :=
  .obj [("steps", .arr (play step start (listAt j "steps")))]

end Federation.Scenario
