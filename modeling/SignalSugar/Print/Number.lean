import SignalSugar.Decimal.Shortest
/-!
# How numbers are written

A number in printed code is written by `Double.text`:

* a whole value below `9 · 10^15` in magnitude is written as an integer, and `-0` as `0`;
* any other finite value is written with the fewest digits that read back as it, never with
  an exponent: `1e21` is `1000000000000000000000` and `1e-7` is `0.0000001`;
* infinity is `inf` or `-inf`, and NaN is `NaN`.
-/

namespace SignalSugar.Double

/-- Whether the finite value `m · 2^q` is a whole number. -/
def isWhole (m : Nat) (q : Int) : Bool :=
  0 ≤ q || m % Nat.pow 2 (-q).toNat == 0

/-- Whether the magnitude `m · 2^q` is below `9 · 10^15`. -/
def belowIntegerLimit (m : Nat) (q : Int) : Bool :=
  m * Nat.pow 2 q.toNat < 9 * Nat.pow 10 15 * Nat.pow 2 (-q).toNat

/-- The text of a number in printed code. -/
def text (d : Double) : String :=
  match d.shape with
  | .nan => "NaN"
  | .infinite negative => if negative then "-inf" else "inf"
  | .finite negative m q =>
    if isWhole m q && belowIntegerLimit m q then
      let n := m * Nat.pow 2 q.toNat / Nat.pow 2 (-q).toNat
      if n = 0 then "0" else (if negative then "-" else "") ++ toString n
    else if m = 0 then (if negative then "-0" else "0")
    else (if negative then "-" else "") ++ (shortestOf m q).positional

end SignalSugar.Double
