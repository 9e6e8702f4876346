/-!
# Double-quoted string literals

The printer writes every string value as a double-quoted literal. `Quoted.encode` escapes
exactly what a double-quoted literal cannot hold raw: the quote, the backslash, the line
terminators LF, CR, U+2028 and U+2029, the tab, and the remaining control characters below
U+0020 (as `\xHH`). Every other character is written as itself, so text beyond ASCII stays
readable.

The encoding works on `List Char`, which is what statements about it are stated over;
`quote` is the same function on `String`.
-/

namespace SignalSugar.Quoted

/-- The lowercase hexadecimal digit of `d < 16`. -/
def hexDigit (d : Nat) : Char :=
  if d < 10 then Char.ofNat (48 + d) else Char.ofNat (87 + d)

/-- How one character is written inside a double-quoted literal. -/
def escapeChar (c : Char) : List Char :=
  if c = '"' then ['\\', '"']
  else if c = '\\' then ['\\', '\\']
  else if c = '\n' then ['\\', 'n']
  else if c = '\r' then ['\\', 'r']
  else if c = '\t' then ['\\', 't']
  else if c = '\u2028' then ['\\', 'u', '2', '0', '2', '8']
  else if c = '\u2029' then ['\\', 'u', '2', '0', '2', '9']
  else if c.toNat < 32 then ['\\', 'x', hexDigit (c.toNat / 16), hexDigit (c.toNat % 16)]
  else [c]

/-- The characters of the literal: the quote, each character escaped, the quote. -/
def encode (cs : List Char) : List Char :=
  '"' :: (cs.flatMap escapeChar ++ ['"'])

end SignalSugar.Quoted

namespace SignalSugar

/-- A string value written as a double-quoted literal. -/
def quote (s : String) : String :=
  String.ofList (Quoted.encode s.toList)

end SignalSugar
