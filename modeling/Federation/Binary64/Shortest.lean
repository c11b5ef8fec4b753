import Federation.Binary64.Rounding
/-!
# Shortest decimal digits

`Binary64.shortest` finds the fewest decimal digits that read back as a given double, and of the
candidates with that many digits the nearest one. The numbers that round to a double fill an interval
around it, and a grid of decimal numbers meets the interval exactly if one of the double's two
neighbours on the grid lies in it; so it is enough to try these two for one digit, two digits, and so
on. Seventeen digits always suffice.
-/

namespace Federation.Binary64

/-- A decimal number `digits * 10^exponent`. -/
structure Decimal where
  digits : Nat
  exponent : Int
  deriving DecidableEq, Repr

/-- A positive double together with the interval of numbers that round to it, all scaled to whole
numbers over `den`. The ends belong to the interval if `closed` holds. -/
structure Interval where
  low : Nat
  value : Nat
  high : Nat
  den : Nat
  closed : Bool

/-- The interval of a positive magnitude. Below a power of two the doubles lie twice as close. -/
def Magnitude.interval (x : Magnitude) : Interval :=
  let (up, den) := if x.q - 2 < 0 then (1, Nat.pow 2 (x.q - 2).natAbs) else (Nat.pow 2 (x.q - 2).natAbs, 1)
  let below := if x.m = hiddenBit ∧ x.q > minExponent then 1 else 2
  { low := (4 * x.m - below) * up, value := 4 * x.m * up, high := (4 * x.m + 2) * up,
    den, closed := x.m % 2 = 0 }

/-- Whether `digits * 10^exponent` lies in the interval. -/
def Interval.holds (i : Interval) (d : Decimal) : Bool :=
  let (n, s) :=
    if d.exponent < 0 then (d.digits, Nat.pow 10 d.exponent.natAbs)
    else (d.digits * Nat.pow 10 d.exponent.natAbs, 1)
  let n := n * i.den
  if i.closed then i.low * s ≤ n && n ≤ i.high * s else i.low * s < n && n < i.high * s

/-- The greatest `e` with `10^e` not above the value, starting the search at an estimate. -/
def Interval.decade (i : Interval) : Int :=
  let notAbove (e : Int) : Bool :=
    if e < 0 then i.den ≤ i.value * Nat.pow 10 e.natAbs else Nat.pow 10 e.natAbs * i.den ≤ i.value
  let bits : Int := (i.value.log2 : Int) - i.den.log2
  let start := (bits - 1) * 30103 / 100000 - 1
  let rec climb : Nat → Int → Int
    | 0, e => e
    | n + 1, e => if notAbove (e + 1) then climb n (e + 1) else e
  climb 5 start

/-- The decimal numbers with the given last place that lie next to the value, and which of them is
nearer: `lt` for the lower one, `eq` for neither. -/
def Interval.neighbours (i : Interval) (exponent : Int) : Decimal × Decimal × Ordering :=
  let (n, d) :=
    if exponent < 0 then (i.value * Nat.pow 10 exponent.natAbs, i.den)
    else (i.value, i.den * Nat.pow 10 exponent.natAbs)
  let low := n / d
  (⟨low, exponent⟩, ⟨low + 1, exponent⟩, compare (2 * (n % d)) d)

/-- The hit of the grid with a given last place, if there is one. Of two the nearer one is taken, at a
tie the even one. -/
def Interval.hit? (i : Interval) (exponent : Int) : Option Decimal :=
  let (low, high, nearer) := i.neighbours exponent
  match i.holds low && low.digits != 0, i.holds high, nearer with
  | false, false, _ => none
  | true, false, _ => some low
  | false, true, _ => some high
  | true, true, .lt => some low
  | true, true, .gt => some high
  | true, true, .eq => some (if low.digits % 2 = 0 then low else high)

def Decimal.trim (d : Decimal) : Decimal := go (digitCount d.digits) d
where
  -- Drops at most `n` zeros.
  go : Nat → Decimal → Decimal
    | 0, d => d
    | n + 1, d =>
      if d.digits ≠ 0 ∧ d.digits % 10 = 0 then go n ⟨d.digits / 10, d.exponent + 1⟩ else d

def Magnitude.shortest (x : Magnitude) : Decimal :=
  let i := x.interval
  let top := i.decade
  let found := (List.range 17).findSome? fun n => i.hit? (top - (n : Nat))
  (found.getD ⟨0, 0⟩).trim

/-- The shortest decimal number which reads back as the absolute value of a finite double. -/
def shortest (x : Float) : Decimal :=
  let x := magnitude x
  if x.m = 0 then ⟨0, 0⟩ else x.shortest

end Federation.Binary64
