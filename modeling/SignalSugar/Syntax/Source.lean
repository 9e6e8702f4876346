import SignalSugar.Text.Position
import SignalSugar.Syntax.Unicode
/-!
# Source text

The scanner and parser read a module as an array of characters. Positions are character
indices; `Source.spanOf` turns a range of them into the byte span the tree records, through
the table of byte offsets that `Source.ofString` computes once.

## Character classes

* line terminators: LF, CR, U+2028 and U+2029;
* white space: tab, vertical tab, form feed, space, U+0085, U+00A0, U+FEFF, U+1680, U+2000
  to U+200B, U+202F, U+205F and U+3000;
* identifier characters: ASCII letters, digits (not first), `$`, `_`, and beyond ASCII the
  characters of ID_Start (first) or ID_Continue (after the first, see `Unicode`).
-/

namespace SignalSugar

/-- A module's text, as characters with the byte offset of each. -/
structure Source where
  chars : Array Char
  /-- `offsets[i]` is the byte offset of character `i`; one more entry holds the length. -/
  offsets : Array Nat
  text : String

/-- Byte offsets of each character of a list, starting at `base`, then the end. -/
def byteOffsets : List Char → Nat → List Nat
  | [], base => [base]
  | c :: cs, base => base :: byteOffsets cs (base + c.utf8Size)

namespace Source

/-- The source of a text. -/
def ofString (s : String) : Source :=
  ⟨s.toList.toArray, (byteOffsets s.toList 0).toArray, s⟩

/-- The number of characters. -/
def size (src : Source) : Nat := src.chars.size

/-- The character at a position, or NUL past the end. -/
def get (src : Source) (i : Nat) : Char := src.chars[i]?.getD '\x00'

/-- Whether a position holds a character. -/
def has (src : Source) (i : Nat) : Bool := i < src.chars.size

/-- The byte offset of a character position. -/
def byteAt (src : Source) (i : Nat) : Nat := src.offsets[i]?.getD src.text.utf8ByteSize

/-- The byte span of the characters `[a, b)`. -/
def spanOf (src : Source) (a b : Nat) : Span := ⟨src.byteAt a, src.byteAt b⟩

/-- The text of the characters `[a, b)`. -/
def slice (src : Source) (a b : Nat) : String :=
  String.ofList ((src.chars.extract a b).toList)

/-- Whether the characters from `i` spell `word`. -/
def startsWithAt (src : Source) (i : Nat) (word : String) : Bool :=
  (word.toList.zipIdx.all fun (c, k) => src.get (i + k) == c) &&
    i + word.length ≤ src.size

end Source

namespace CharClass

/-- Line terminators: LF, CR, U+2028, U+2029. -/
def isLineTerminator (c : Char) : Bool :=
  c == '\n' || c == '\r' || c == '\u2028' || c == '\u2029'

/-- White space other than line terminators. -/
def isSpace (c : Char) : Bool :=
  let n := c.toNat
  n == 9 || n == 11 || n == 12 || n == 32 || n == 0x85 || n == 0xA0 || n == 0xFEFF ||
    n == 0x1680 || (0x2000 ≤ n && n ≤ 0x200B) || n == 0x202F || n == 0x205F || n == 0x3000

/-- Characters that may start an identifier. -/
def isIdStart (c : Char) : Bool :=
  c.isAlpha || c == '$' || c == '_' || (c.toNat ≥ 0x80 && Unicode.isIdStart c.toNat)

/-- Characters that may continue an identifier. -/
def isIdPart (c : Char) : Bool :=
  c.isAlpha || c.isDigit || c == '$' || c == '_' ||
    (c.toNat ≥ 0x80 && Unicode.isIdContinue c.toNat)

/-- The value of a hexadecimal digit. -/
def hexValue? (c : Char) : Option Nat :=
  if c.isDigit then some (c.toNat - 48)
  else if 'a' ≤ c && c ≤ 'f' then some (c.toNat - 87)
  else if 'A' ≤ c && c ≤ 'F' then some (c.toNat - 55)
  else none

end CharClass

end SignalSugar
