/-!
# Shortest decimal digits of a double

A finite double is `m · 2^q` for a natural `m`. The reals that read back as it form an
interval around it, whose ends are the midpoints to its two neighbours; an end belongs to
the interval exactly when `m` is even, since a tie reads as the even mantissa.

`Double.shortest` finds the fewest significant decimal digits whose value lies in that
interval: for 1, 2, … 17 digits it tries the value's two neighbours on that decimal grid, in
exact `Nat` arithmetic. The first grid with a hit wins; of two hits the nearer is taken, and
an exact tie goes to the even digit string. Seventeen digits always suffice for a double.

`Double.positional` writes such digits without an exponent, as `0.000123` or
`1230000`.
-/

namespace SignalSugar

/-- The 64 bits of a double: sign, 11 exponent bits, 52 fraction bits. -/
structure Double where
  bits : UInt64
deriving BEq, DecidableEq, Inhabited, Repr

/-- What a double denotes, split by case. -/
inductive Double.Shape where
  | nan
  | infinite (negative : Bool)
  /-- The value `(-1)^negative · mantissa · 2^exponent`. -/
  | finite (negative : Bool) (mantissa : Nat) (exponent : Int)
deriving Repr, BEq

namespace Double

/-- The sign bit. -/
def negative (d : Double) : Bool := d.bits >>> 63 == 1

/-- The biased exponent field. -/
def exponentField (d : Double) : Nat := ((d.bits >>> 52) &&& 0x7FF).toNat

/-- The fraction field. -/
def fraction (d : Double) : Nat := (d.bits &&& 0xFFFFFFFFFFFFF).toNat

/-- The value of the bits. Subnormals have exponent `-1074` and no hidden bit. -/
def shape (d : Double) : Shape :=
  if d.exponentField = 0x7FF then
    if d.fraction = 0 then .infinite d.negative else .nan
  else if d.exponentField = 0 then .finite d.negative d.fraction (-1074)
  else .finite d.negative (d.fraction + Nat.pow 2 52) ((d.exponentField : Int) - 1075)

/-- The double of a Lean float. -/
def ofFloat (f : Float) : Double := ⟨f.toBits⟩

/-- A decimal digit string with the exponent of its last digit: `digits · 10^exponent`. -/
structure Decimal where
  digits : Nat
  exponent : Int
deriving Repr, BEq

/-- `num / den` as a fraction of naturals scaled by `10^k`: the pair `(num', den')` with
`num' / den' = num / den / 10^k`. -/
def scaleDown (num den : Nat) (k : Int) : Nat × Nat :=
  if 0 ≤ k then (num, den * Nat.pow 10 k.toNat) else (num * Nat.pow 10 (-k).toNat, den)

/-- The least `j ≥ 1` (below the fuel) with `num · 10^j ≥ den`. -/
def digitsBelowOne (num den : Nat) : Nat → Nat → Nat
  | 0, j => j
  | fuel + 1, j => if num * Nat.pow 10 j ≥ den then j else digitsBelowOne num den fuel (j + 1)

/-- The exponent `e` of the leading digit of a positive `num / den`:
`10^e ≤ num / den < 10^(e+1)`. -/
def leadExponent (num den : Nat) : Int :=
  if den ≤ num then ((Nat.toDigits 10 (num / den)).length : Int) - 1
  else -(digitsBelowOne num den 1100 1 : Int)

/-- Drop trailing zero digits, raising the exponent. -/
def Decimal.trim : Nat → Decimal → Decimal
  | 0, d => d
  | fuel + 1, d =>
    if d.digits ≠ 0 ∧ d.digits % 10 = 0 then Decimal.trim fuel ⟨d.digits / 10, d.exponent + 1⟩
    else d

/-- The nearer of two candidate digit strings to `target` (all on the same grid, scaled by
`den`): the distance `|d · den - target|` decides, a tie goes to the even one. -/
def nearer (den target a b : Nat) : Nat :=
  let da := if a * den ≥ target then a * den - target else target - a * den
  let db := if b * den ≥ target then b * den - target else target - b * den
  if da < db then a else if db < da then b else if a % 2 = 0 then a else b

/-- The shortest digits of `m · 2^q` (with `m > 0`) that read back as it, trying grids of
`p, p + 1, … ` significant digits with `fuel` grids left. The interval ends are
`(4m - lowGap) · 2^(q-2)` and `(4m + 2) · 2^(q-2)`; the value and the ends are compared over
one common denominator. -/
def searchDigits (m : Nat) (q : Int) (lowGap : Nat) (lead : Int) : Nat → Nat → Option Decimal
  | 0, _ => none
  | fuel + 1, p =>
    let k := lead - (p : Int) + 1
    let num := m * 4 * Nat.pow 2 q.toNat
    let den := 4 * Nat.pow 2 (-q).toNat
    let (n, dn) := scaleDown num den k
    let lowN := (4 * m - lowGap) * Nat.pow 2 q.toNat
    let highN := (4 * m + 2) * Nat.pow 2 q.toNat
    let (lo, _) := scaleDown lowN den k
    let (hi, _) := scaleDown highN den k
    let inside (d : Nat) : Bool :=
      if m % 2 = 0 then lo ≤ d * dn && d * dn ≤ hi else lo < d * dn && d * dn < hi
    let below := n / dn
    let above := if n % dn = 0 then below else below + 1
    match inside below, inside above with
    | true, true => some ⟨nearer dn n below above, k⟩
    | true, false => some ⟨below, k⟩
    | false, true => some ⟨above, k⟩
    | false, false => searchDigits m q lowGap lead fuel (p + 1)

/-- The shortest decimal that reads back as the positive value `m · 2^q`. The lower gap is
half as wide when `m` is the least mantissa of a binade above the subnormals. -/
def shortestOf (m : Nat) (q : Int) : Decimal :=
  let lowGap := if m = Nat.pow 2 52 ∧ q > -1074 then 1 else 2
  let lead := leadExponent (m * Nat.pow 2 q.toNat) (Nat.pow 2 (-q).toNat)
  match searchDigits m q lowGap lead 17 1 with
  | some d => Decimal.trim 400 d
  | none => Decimal.trim 400 ⟨m * Nat.pow 2 q.toNat, 0⟩

/-- `n` zeros. -/
def zeros (n : Nat) : String := String.ofList (List.replicate n '0')

/-- A digit string with the exponent of its last digit, written without an exponent. -/
def Decimal.positional (d : Decimal) : String :=
  let s := String.ofList (Nat.toDigits 10 d.digits)
  if d.digits = 0 then "0"
  else if 0 ≤ d.exponent then s ++ zeros d.exponent.toNat
  else
    let point : Int := (s.length : Int) + d.exponent
    if 0 < point then
      String.ofList (s.toList.take point.toNat) ++ "." ++ String.ofList (s.toList.drop point.toNat)
    else "0." ++ zeros (-point).toNat ++ s

end Double

end SignalSugar
