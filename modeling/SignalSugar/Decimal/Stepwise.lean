import SignalSugar.Decimal.Read
/-!
# Reading a JSON number step by step

Requests carry numbers as JSON text, and the value a request means is the one a reader
that does not round exactly gets from that text:

* the leading digits that fit in 64 bits form the significand; further digits are dropped,
  an integer digit still raising the decimal exponent by one;
* an integer without fraction or exponent is converted to the nearest double at once;
* otherwise the significand is converted to the nearest double and scaled by one
  multiplication or division by `10^|e|` in double arithmetic, after dividing by `10^308`
  while `|e|` is beyond 308.

Each double operation rounds to nearest, so the result can be one step away from the
nearest double to the decimal value. A value that overflows to infinity is out of range; an
exponent beyond 32 bits gives zero (or is out of range, for a positive exponent and a
nonzero significand).
-/

namespace SignalSugar.Double

/-- The largest 64-bit natural. -/
def u64Max : Nat := Nat.pow 2 64 - 1

/-- The largest 32-bit integer. -/
def i32Max : Nat := Nat.pow 2 31 - 1

/-- Whether `acc * 10 + digit` goes beyond `bound`. -/
def overflows (acc digit bound : Nat) : Bool :=
  acc > bound / 10 || (acc == bound / 10 && digit > bound % 10)

/-- The value of a digit character. -/
def digitOf (c : Char) : Nat := c.toNat - 48

/-- The double nearest to a natural. -/
def ofNat (n : Nat) : Double := nearest false n 1

/-- The double with the sign flipped. -/
def negate (d : Double) : Double := ⟨d.bits ^^^ 0x8000000000000000⟩

/-- Whether a double is zero. -/
def isZero (d : Double) : Bool := (d.bits &&& 0x7FFFFFFFFFFFFFFF) == 0

/-- Whether a double is infinite. -/
def isInfinite (d : Double) : Bool := d.shape matches .infinite _

/-- The product of two finite nonnegative doubles, rounded to nearest. -/
def mulPos (a b : Double) : Double :=
  match a.shape, b.shape with
  | .finite _ m1 q1, .finite _ m2 q2 =>
    let q := q1 + q2
    if 0 ≤ q then nearest false (m1 * m2 * Nat.pow 2 q.toNat) 1 else nearest false (m1 * m2) (Nat.pow 2 (-q).toNat)
  | _, _ => a

/-- The quotient of two finite positive doubles, rounded to nearest. -/
def divPos (a b : Double) : Double :=
  match a.shape, b.shape with
  | .finite _ m1 q1, .finite _ m2 q2 =>
    let q := q1 - q2
    if 0 ≤ q then nearest false (m1 * Nat.pow 2 q.toNat) m2 else nearest false m1 (m2 * Nat.pow 2 (-q).toNat)
  | _, _ => a

/-- `10^k` as the nearest double. -/
def pow10 (k : Nat) : Double := nearest false (Nat.pow 10 k) 1

/-- `significand · 10^exponent` scaled in double arithmetic; none when it overflows. The
fuel bounds the divisions by `10^308`, of which three bring any significand to zero. -/
def scale (f : Double) : Int → Nat → Option Double
  | _, 0 => some f
  | e, fuel + 1 =>
    if e.natAbs ≤ 308 then
      if 0 ≤ e then
        let g := mulPos f (pow10 e.toNat)
        if g.isInfinite then none else some g
      else some (divPos f (pow10 (-e).toNat))
    else if f.isZero then some f
    else if 0 ≤ e then none
    else scale (divPos f (pow10 308)) (e + 308) fuel

/-- The value of a significand and a decimal exponent, with its sign. -/
def fromParts (positive : Bool) (sig : Nat) (e : Int) : Option Double :=
  (scale (ofNat sig) e 8).map fun f => if positive then f else negate f

/-- Clamps to the 32-bit integers. -/
def saturate (e : Int) : Int := max (-(i32Max : Int) - 1) (min e i32Max)

/-- Reads the digits of an exponent, accumulated in `acc`; the answer is none on an
overflow of 32 bits. -/
def exponentDigits : List Char → Nat → Option Nat
  | [], acc => some acc
  | c :: rest, acc =>
    if c.isDigit then
      if overflows acc (digitOf c) i32Max then none
      else exponentDigits rest (acc * 10 + digitOf c)
    else some acc

/-- Reads an exponent part after `e`, for a significand read with exponent `start`. -/
def readExponentPart (positive : Bool) (sig : Nat) (start : Int) (cs : List Char) :
    Option Double :=
  let (positiveExp, cs) := match cs with
    | '+' :: r => (true, r)
    | '-' :: r => (false, r)
    | r => (true, r)
  match cs with
  | c :: _ =>
    if !c.isDigit then none
    else
      match exponentDigits cs 0 with
      | some e =>
        fromParts positive sig (saturate (if positiveExp then start + e else start - e))
      | none =>
        if sig != 0 && positiveExp then none
        else some (if positive then ofNat 0 else negate (ofNat 0))
  | [] => none

/-- Reads what follows the digits of a mantissa: an exponent part or nothing. -/
def readTail (positive : Bool) (sig : Nat) (e : Int) (cs : List Char) : Option Double :=
  match cs with
  | 'e' :: r | 'E' :: r => readExponentPart positive sig e r
  | _ => fromParts positive sig e

/-- Reads fraction digits after the point into the significand `sig`; `taken` counts the
ones taken. A digit that would overflow ends the reading: it and the digits after it are
dropped. -/
def readFraction (positive : Bool) (sig : Nat) (before : Int) (taken : Nat) :
    List Char → Option Double
  | c :: rest =>
    if c.isDigit then
      if overflows sig (digitOf c) u64Max then
        readTail positive sig (before - taken) (rest.dropWhile Char.isDigit)
      else readFraction positive (sig * 10 + digitOf c) before (taken + 1) rest
    else if taken == 0 then none
    else readTail positive sig (before - taken) (c :: rest)
  | [] => if taken == 0 then none else fromParts positive sig (before - taken)

/-- Reads the rest of an integer part whose leading digits filled the significand: each
further integer digit raises the exponent. -/
def readLongInteger (positive : Bool) (sig : Nat) (cs : List Char) : Option Double :=
  let ds := cs.takeWhile Char.isDigit
  let rest := cs.dropWhile Char.isDigit
  match rest with
  | '.' :: r => readFraction positive sig ds.length 0 r
  | _ => readTail positive sig ds.length rest

/-- Reads the integer digits after the first, into the significand `sig`. -/
def readInteger (positive : Bool) (sig : Nat) : List Char → Option Double
  | c :: rest =>
    if c.isDigit then
      if overflows sig (digitOf c) u64Max then readLongInteger positive sig (c :: rest)
      else readInteger positive (sig * 10 + digitOf c) rest
    else
      match c with
      | '.' => readFraction positive sig 0 0 rest
      | 'e' | 'E' => readExponentPart positive sig 0 rest
      | _ => some (if positive then ofNat sig else negate (ofNat sig))
  | [] => some (if positive then ofNat sig else negate (ofNat sig))

/-- Reads a JSON number as written; none when it is malformed or out of range. -/
def readStepwise? (text : String) : Option Double :=
  let (positive, cs) := match text.toList with
    | '-' :: r => (false, r)
    | r => (true, r)
  match cs with
  | '0' :: rest =>
    match rest with
    | c :: _ => if c.isDigit then none else readInteger positive 0 rest
    | [] => readInteger positive 0 rest
  | c :: rest => if c.isDigit then readInteger positive (digitOf c) rest else none
  | [] => none

end SignalSugar.Double
