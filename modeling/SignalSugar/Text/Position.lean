/-!
# Positions in source text

Errors carry byte offsets into the source; reports show them as a 1-based line and column,
and quote the line they fall on.

* `lineColumn s o`: the offset is first cut to the text's length and moved back to the start
  of the character it falls in; the line is one more than the number of LF characters before
  it, the column one more than the number of characters between the last LF and it.
* `sourceLine s n`: the `n`-th line, where lines are split at LF, a CR before the LF belongs
  to the break, and a final LF ends the last line rather than opening an empty one. Trailing
  white space (the Unicode `White_Space` property) is cut; an empty or missing line is none.
-/

namespace SignalSugar

/-- A 1-based line and column. -/
structure LineColumn where
  line : Nat
  column : Nat
deriving Repr, BEq, DecidableEq

/-- The characters that end before byte `b`, starting from the front. -/
def charsBefore : List Char → Nat → List Char
  | [], _ => []
  | c :: cs, b => if c.utf8Size ≤ b then c :: charsBefore cs (b - c.utf8Size) else []

/-- Line and column of the characters read so far: the LFs counted, and the characters
after the last one. -/
def lineColumnOf (cs : List Char) : LineColumn :=
  cs.foldl (fun lc c => if c = '\n' then ⟨lc.line + 1, 1⟩ else ⟨lc.line, lc.column + 1⟩) ⟨1, 1⟩

/-- Line and column of byte offset `offset` in `s`. -/
def lineColumn (s : String) (offset : Nat) : LineColumn :=
  lineColumnOf (charsBefore s.toList offset)

/-- The Unicode `White_Space` property. -/
def isBlank (c : Char) : Bool :=
  let n := c.toNat
  (9 ≤ n && n ≤ 13) || n == 32 || n == 0x85 || n == 0xA0 || n == 0x1680 ||
    (0x2000 ≤ n && n ≤ 0x200A) || n == 0x2028 || n == 0x2029 || n == 0x202F ||
    n == 0x205F || n == 0x3000

/-- The lines of a text: split at LF, with no empty line after a final LF. -/
def lines (s : String) : List String :=
  match (s.splitOn "\n").reverse with
  | "" :: rest => rest.reverse
  | all => all.reverse

/-- The `n`-th line (1-based) without trailing white space, if it is there and not empty. -/
def sourceLine (s : String) (n : Nat) : Option String :=
  match (lines s)[n - 1]? with
  | some l =>
    let t := String.ofList (l.toList.reverse.dropWhile isBlank).reverse
    if t.isEmpty then none else some t
  | none => none

end SignalSugar

namespace SignalSugar

/-- A range of bytes `[start, stop)` in the source. Built nodes have the range `[0, 0)`. -/
structure Span where
  start : Nat
  stop : Nat
deriving Repr, BEq, DecidableEq, Inhabited

end SignalSugar
