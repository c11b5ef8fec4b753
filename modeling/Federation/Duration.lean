import Federation.Json.Schema
import Federation.Scalar
/-!
# Spans of time

A span of time in whole seconds and nanoseconds, as timeouts are kept and written in documents.
-/

namespace Federation

structure Duration where
  secs : UInt64
  nanos : Nat
  nanos_lt : nanos < 1000000000
  deriving DecidableEq

namespace Duration

def zero : Duration := ⟨0, 0, by decide⟩

def ofSeconds (n : UInt64) : Duration := ⟨n, 0, by decide⟩

def ofMillis (n : Nat) : Duration :=
  ⟨UInt64.ofNat (n / 1000), n % 1000 * 1000000, by omega⟩

def toNanos (d : Duration) : Nat := d.secs.toNat * 1000000000 + d.nanos

/-- The length in milliseconds, rounded up. Timers run in steps of milliseconds. -/
def ceilMillis (d : Duration) : Nat := (d.toNanos + 999999) / 1000000

def toSeconds {R : Type} [Scalar R] (d : Duration) : R :=
  Scalar.ofCount d.secs + Scalar.ofInt d.nanos / Scalar.ofInt 1000000000

def toJson (d : Duration) : Json := .obj [("secs", .word d.secs), ("nanos", .count d.nanos)]

/-- Reads a span of time, which has no other fields. Nanoseconds beyond a second count as seconds. -/
def ofJson? (j : Json) : Option Duration := do
  let r ← j.asRecord? ["secs", "nanos"] true
  let secs ← r.required "secs" Json.asWord?
  let nanos := (← r.required "nanos" Json.asWord32?).toNat
  let total := secs.toNat + nanos / 1000000000
  if total < UInt64.size then
    some ⟨UInt64.ofNat total, nanos % 1000000000, Nat.mod_lt _ (by decide)⟩
  else none

end Duration

end Federation
