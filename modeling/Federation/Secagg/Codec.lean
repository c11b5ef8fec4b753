import Federation.Message.Codec
import Federation.Secagg.Basic
/-!
# Secure aggregation as JSON

The state of secure aggregation with its session, as checkpoints keep it.
-/

namespace Federation

namespace MaskConfig

def toJson (c : MaskConfig Float) : Json :=
  .obj [("clipping_range", .float c.clippingRange), ("fixed_point_bits", .word c.fixedPointBits.toUInt64)]

def ofJson? (j : Json) : Option (MaskConfig Float) := do
  let r ← j.asRecord? ["clipping_range", "fixed_point_bits"] false
  return ⟨← r.required "clipping_range" Json.asFloat?, ← r.required "fixed_point_bits" Json.asByte?⟩

end MaskConfig

namespace SecaggSession

def toJson (s : SecaggSession) : Json :=
  .obj [("session_id", .str s.sessionId), ("parties", .list .str s.parties),
    ("public_keys", .map .key s.publicKeys)]

def ofJson? (j : Json) : Option SecaggSession := do
  let r ← j.asRecord? ["session_id", "parties", "public_keys"] false
  return {
    sessionId := ← r.required "session_id" Json.asString?
    parties := ← r.required "parties" (Json.asList? Json.asString?)
    publicKeys := ← r.required "public_keys" (Json.asMap? (Json.asKey? .direct)) }

end SecaggSession

namespace SecureAggregation

def toJson (s : SecureAggregation Float) : Json :=
  .obj [("enabled", .bool s.enabled), ("config", s.config.toJson), ("timeout", s.timeout.toJson),
    ("session", .option SecaggSession.toJson s.session)]

def ofJson? (j : Json) : Option (SecureAggregation Float) := do
  let r ← j.asRecord? ["enabled", "config", "timeout", "session"] false
  return {
    enabled := ← r.required "enabled" Json.asBool?
    config := ← r.required "config" MaskConfig.ofJson?
    timeout := ← r.required "timeout" Duration.ofJson?
    session := ← r.nullable "session" SecaggSession.ofJson? }

end SecureAggregation

end Federation
