import SignalSugar.Decimal.Shortest
/-!
# Reading a decimal as the nearest double

`Double.nearest num den` is the double nearest to the positive rational `num / den`, ties to
the even mantissa; values beyond the largest finite double give infinity and values below
half the least subnormal give zero. The computation is exact: it finds the binary exponent of
the leading bit, divides once with the remainder, and rounds by the remainder.
-/

namespace SignalSugar.Double

/-- `n / d` rounded to the nearest natural, a tie to the even one. -/
def roundHalfEven (n d : Nat) : Nat :=
  let r := n / d
  let rem := n % d
  if 2 * rem > d ∨ (2 * rem = d ∧ r % 2 = 1) then r + 1 else r

/-- `num / den / 2^q` rounded to the nearest natural, a tie to the even one. -/
def roundShifted (num den : Nat) (q : Int) : Nat :=
  if 0 ≤ q then roundHalfEven num (den * (1 <<< q.toNat)) else roundHalfEven (num * (1 <<< (-q).toNat)) den

/-- Whether `num / den ≥ 2^e`. -/
def atLeastPow2 (num den : Nat) (e : Int) : Bool :=
  if 0 ≤ e then num ≥ den * (1 <<< e.toNat) else num * (1 <<< (-e).toNat) ≥ den

/-- The bits of a finite value `negative, mantissa · 2^q` with `mantissa < 2^53`, or of
infinity when the exponent is too large. -/
def encode (negative : Bool) (mantissa : Nat) (q : Int) : Double :=
  let sign : Nat := if negative then 1 <<< 63 else 0
  if mantissa < 1 <<< 52 then ⟨UInt64.ofNat (sign + mantissa)⟩
  else if q > 971 then ⟨UInt64.ofNat (sign + 0x7FF * (1 <<< 52))⟩
  else ⟨UInt64.ofNat (sign + (q + 1075).toNat * (1 <<< 52) + (mantissa - (1 <<< 52)))⟩

/-- The double nearest to `num / den` (with the given sign). -/
def nearest (negative : Bool) (num den : Nat) : Double :=
  if num = 0 then encode negative 0 0
  else
    let guess : Int := (Nat.log2 num : Int) - Nat.log2 den
    let lead : Int := if atLeastPow2 num den guess then guess else guess - 1
    let q := max (lead - 52) (-1074)
    let m := roundShifted num den q
    if m = 1 <<< 53 then encode negative (1 <<< 52) (q + 1) else encode negative m q

/-- The double nearest to `mantissa · 10^exponent`. Values whose leading digit lies beyond
`10^400` are infinite and those below `10^-400` are zero, without computing the power. -/
def ofDecimal (negative : Bool) (mantissa : Nat) (exponent : Int) : Double :=
  let lead := exponent + (Nat.toDigits 10 mantissa).length
  if mantissa = 0 then encode negative 0 0
  else if lead > 400 then encode negative (1 <<< 52) 972
  else if lead < -400 then encode negative 0 0
  else if 0 ≤ exponent then nearest negative (mantissa * Nat.pow 10 exponent.toNat) 1
  else nearest negative mantissa (Nat.pow 10 (-exponent).toNat)

/-- The digits of a run of decimal digits, as a number. -/
def digitValue (cs : List Char) : Nat :=
  cs.foldl (fun acc c => acc * 10 + (c.toNat - 48)) 0

/-- Reads an exponent part `[+-]digits`. -/
def readExponent (cs : List Char) : Option Int :=
  let (negative, rest) := match cs with
    | '+' :: r => (false, r)
    | '-' :: r => (true, r)
    | r => (false, r)
  if !rest.isEmpty && rest.all Char.isDigit then
    some (if negative then -(digitValue rest : Int) else digitValue rest)
  else none

/-- Reads an unsigned decimal: digits with an optional point (a digit on at least one side),
then an optional exponent after `e` or `E`. -/
def readUnsigned (negative : Bool) (cs : List Char) : Option Double :=
  let whole := cs.takeWhile Char.isDigit
  let afterWhole := cs.dropWhile Char.isDigit
  let (frac, afterFrac) := match afterWhole with
    | '.' :: r => (r.takeWhile Char.isDigit, r.dropWhile Char.isDigit)
    | r => ([], r)
  if whole.isEmpty && frac.isEmpty then none
  else
    let exponent : Option Int := match afterFrac with
      | [] => some 0
      | c :: r => if c = 'e' || c = 'E' then readExponent r else none
    exponent.map fun e => ofDecimal negative (digitValue (whole ++ frac)) (e - frac.length)

/-- Reads the text of a number in the general form of decimal number texts: an optional
sign, then `inf`, `infinity` or `nan` in any case, or an unsigned decimal. Nothing else may
stand around it. -/
def readDecimal? (s : String) : Option Double :=
  let (negative, rest) := match s.toList with
    | '+' :: r => (false, r)
    | '-' :: r => (true, r)
    | r => (false, r)
  let word := String.ofList (rest.map Char.toLower)
  if word = "inf" || word = "infinity" then some (encode negative (1 <<< 52) 972)
  else if word = "nan" then some ⟨0x7FF8000000000000⟩
  else readUnsigned negative rest

end SignalSugar.Double
