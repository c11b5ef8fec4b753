import Federation.Duration
import Federation.Message.Basic
import Federation.Text.Quoted
/-!
# Secure aggregation

In secure aggregation the controller learns the weighted mean of the parameters of all parties and
nothing else of them. A session fixes the parties and their public keys; it serves as long as the
parties stay the same. For each round the controller draws a nonce and a random value, which every
party encodes as its verification element.
-/

namespace Federation

inductive SecaggError (R : Type) where
  | config (e : MaskConfigError R)
  | setupDispatch (node : NodeId) (reason : String)
  | setupTimeout (missing : List NodeId)
  | setupRefused (node : NodeId) (message : String)
  | missingPublicKey (node : NodeId)
  | quorumNotMet (missing : List NodeId)
  | unexpectedParty (node : NodeId)
  | invalidMaskedParameters (node : NodeId) (e : MaskLengthError)
  | unmasking (e : UnmaskingError)
  | maskMismatch (expected actual : R)
  | layout (e : ShapeError)
  | replyChannel

instance : Failure (SecaggError Float) where
  kind
    | .config _ => "Config"
    | .setupDispatch .. => "SetupDispatch"
    | .setupTimeout _ => "SetupTimeout"
    | .setupRefused .. => "SetupRefused"
    | .missingPublicKey _ => "MissingPublicKey"
    | .quorumNotMet _ => "QuorumNotMet"
    | .unexpectedParty _ => "UnexpectedParty"
    | .invalidMaskedParameters .. => "InvalidMaskedParameters"
    | .unmasking _ => "Unmasking"
    | .maskMismatch .. => "MaskMismatch"
    | .layout _ => "Layout"
    | .replyChannel => "ReplyChannel"
  message?
    | .config e => s!"The masking configuration is invalid: {Failure.message e}."
    | .setupDispatch node reason => s!"The setup request to {node} could not be sent: {reason}."
    | .setupTimeout missing =>
      s!"The parties {Text.nodeList missing} did not join the session before the setup timeout."
    | .setupRefused node message => s!"{node} refused to join the session: {message}."
    | .missingPublicKey node => s!"{node} joined the session without a public key."
    | .quorumNotMet missing =>
      s!"The parties {Text.nodeList missing} sent no masked parameters, the masks can't cancel."
    | .unexpectedParty node => s!"{node} is not a party of the session."
    | .invalidMaskedParameters node e =>
      s!"The masked parameters of {node} are invalid: {Failure.message e}."
    | .unmasking e => s!"Unmasking failed: {Failure.message e}."
    | .maskMismatch expected actual =>
      "The unmasked verification element " ++ Binary64.text .plain actual ++
        " differs from the expected " ++ Binary64.text .plain expected ++ "."
    | .layout e =>
      s!"The unmasked parameters don't match the global parameters: {Failure.message e}."
    | .replyChannel => "The reply channel is closed."

structure SecaggSession where
  sessionId : String
  -- The parties in ascending order.
  parties : List NodeId
  publicKeys : NameMap Crypto.Key
  deriving DecidableEq

structure SecureAggregation (R : Type) where
  enabled : Bool
  config : MaskConfig R
  -- How long a setup waits for the parties.
  timeout : Duration
  session : Option SecaggSession := none

namespace SecureAggregation

variable {R : Type}

/-- Secure aggregation without session, with a valid configuration. -/
def create [Scalar R] (enabled : Bool) (config : MaskConfig R) (timeout : Duration) :
    Except (SecaggError R) (SecureAggregation R) := do
  config.validate.mapError .config
  return { enabled, config, timeout }

def clear (s : SecureAggregation R) : SecureAggregation R := { s with session := none }

/-- Switches secure aggregation on or off. Without it there is no session. -/
def setEnabled (s : SecureAggregation R) (enabled : Bool) : SecureAggregation R :=
  if enabled then { s with enabled } else { s.clear with enabled }

/-- The session, if it has exactly the given parties. -/
def reusable? (s : SecureAggregation R) (parties : NameSet) : Option SecaggSession :=
  s.session.filter fun session => session.parties == parties.keys

end SecureAggregation

structure SecaggRound (R : Type) where
  session : SecaggSession
  config : MaskConfig R
  -- The nonce for which the parties derive their masks.
  nonce : UInt64
  -- The expected verification element.
  random : R

namespace SecaggRound

variable {R : Type}

/-- What every party receives with its request. -/
def arguments (r : SecaggRound R) : SecaggArguments R where
  sessionId := r.session.sessionId
  parties := r.session.parties
  publicKeys := r.session.publicKeys
  nonce := r.nonce
  random := r.random
  clippingRange := r.config.clippingRange
  fixedPointBits := r.config.fixedPointBits

variable [Scalar R]

/-- Adds up masked vectors and their weights, one node after the other. -/
def total : List (NodeId × MaskedVector × UInt64) → MaskedSum → UInt64 →
    Except (SecaggError R) (MaskedSum × UInt64)
  | [], sum, weight => .ok (sum, weight)
  | (node, v, w) :: rest, sum, weight =>
    match sum.add v with
    | .error e => .error (.invalidMaskedParameters node e)
    | .ok sum =>
      if UInt64.size ≤ weight.toNat + w.toNat then
        .error (.unmasking (.tooMuchWeight (UInt64.ofNat (UInt64.size - 1))))
      else total rest sum (weight + w)

/-- How far the verification element may be off: each party rounds its own once. -/
def tolerance (r : SecaggRound R) : R :=
  (Scalar.ofInt r.session.parties.length + 1) * r.config.resolution

/-- The weighted mean of the parameters of all parties, in the given layout. Exactly the parties of
the session must have contributed, and the verification element must be the expected one. -/
def aggregate (r : SecaggRound R) (masked : NameMap (MaskedVector × UInt64)) (layout : Parameters R) :
    Except (SecaggError R) (Parameters R) :=
  match masked.keys.find? fun node => !r.session.parties.contains node with
  | some node => .error (.unexpectedParty node)
  | none =>
    let missing := r.session.parties.filter fun node => !masked.contains node
    if !missing.isEmpty then .error (.quorumNotMet missing)
    else do
      let (sum, weight) ← total masked.toList (.zero layout.length) 0
      let u ← (sum.unmask r.config weight).mapError .unmasking
      if r.tolerance < Scalar.magnitude (u.verification - r.random) then
        throw (.maskMismatch r.random u.verification)
      (layout.unflatten u.values).mapError .layout

end SecaggRound

end Federation
