import SignalSugar.Syntax.Source
import SignalSugar.Decimal.Read
/-!
# Tokens and the scanner

The scanner turns the characters at a position into one token. It is called by the parser
one token at a time, because what a character starts depends on where the parser stands: a
`/` is division after an operand and starts a regular expression elsewhere, a `}` may close a
template substitution, and inside JSX text runs to the next `<` or `{`.

Each scan first skips white space, line terminators and comments, and records whether a line
terminator was among them, since automatic semicolon insertion and some restricted
productions depend on it. A `>` is always scanned alone; the parser joins `>` characters
into shift and comparison operators where an operator can stand, so that `>>` can also close
two type argument lists.

A token carries the errors met while scanning it, with the character ranges they concern.
Some leave the token usable (a numeric separator that no digit follows, a bad escape in a
string); a token that cannot be used at all is `invalid`. A character that may not stand
where it does is reported as an empty range at its position.

Numbers keep the form they were written in (decimal, float, binary, octal, hex), since
messages name it. A binary, octal or hexadecimal literal of more digits than fit in 64 bits
is rounded to a double after every digit, as it is read.
-/

namespace SignalSugar

/-- A reason the scanner could not read a token, over a range of character positions. -/
structure ScanError where
  message : String
  start : Nat
  stop : Nat
deriving Repr, BEq, Inhabited

/-- How a numeric literal is written. -/
inductive NumberForm where
  | decimal
  /-- With a point or an exponent. -/
  | float
  | binary
  /-- With `0o`, or the legacy form: a `0` then octal digits. -/
  | octal
  | hex
deriving Repr, BEq, DecidableEq, Inhabited

/-- What a token is. Raw texts (numbers, regular expressions, templates, JSX text) are read
from the source by the token's range. -/
inductive TokenKind where
  | eof
  /-- An identifier name or keyword, with escapes decoded. -/
  | word (text : String) (escaped : Bool)
  /-- A private name `#text`. -/
  | hash (text : String)
  | number (value : Double) (form : NumberForm)
  | bigint (form : NumberForm)
  /-- A string literal with its escapes decoded. -/
  | string (value : String)
  /-- A piece of a template: from a backtick or `}` up to `${` or, for the last piece, a
  backtick. -/
  | template (tail : Bool)
  | regex
  | punct (text : String)
  | jsxText
  /-- A token the scanner could not read. -/
  | invalid
deriving Repr, BEq, Inhabited

/-- A token: its kind, its character range, whether a line terminator precedes it, and the
errors met while scanning it, oldest first. -/
structure Token where
  kind : TokenKind
  start : Nat
  stop : Nat
  newlineBefore : Bool
  errors : List ScanError := []
deriving Repr, Inhabited

namespace Scan

open CharClass

/-- Where the trivia scanner stands: in code, in a line comment, or in a block comment that
started at a position. -/
inductive Trivia where
  | code
  | line
  | block (start : Nat)

/-- Skips white space and comments from `pos`: the position after them, whether a line
terminator was skipped, and the error of an unterminated block comment. -/
def skipTrivia (src : Source) (pos : Nat) (nl : Bool) (mode : Trivia) :
    Nat × Bool × Option ScanError :=
  if pos < src.size then
    let c := src.get pos
    match mode with
    | .line =>
      if isLineTerminator c then skipTrivia src (pos + 1) true .code
      else skipTrivia src (pos + 1) nl .line
    | .block s =>
      if c == '*' && src.get (pos + 1) == '/' then skipTrivia src (pos + 2) nl .code
      else skipTrivia src (pos + 1) (nl || isLineTerminator c) (.block s)
    | .code =>
      if isLineTerminator c then skipTrivia src (pos + 1) true .code
      else if isSpace c then skipTrivia src (pos + 1) nl .code
      else if c == '/' && src.get (pos + 1) == '/' then skipTrivia src (pos + 2) nl .line
      else if c == '/' && src.get (pos + 1) == '*' then skipTrivia src (pos + 2) nl (.block pos)
      else (pos, nl, none)
  else
    match mode with
    | .block s => (pos, nl, some ⟨"Unterminated multiline comment", s, pos⟩)
    | _ => (pos, nl, none)
termination_by src.size - pos

/-- The end of a run of characters satisfying `p` from `pos`. -/
def skipWhile (src : Source) (p : Char → Bool) (pos : Nat) : Nat :=
  if pos < src.size then
    if p (src.get pos) then skipWhile src p (pos + 1) else pos
  else pos
termination_by src.size - pos

/-- The end of a block comment whose body starts at `pos`: the position after its closing
delimiter, if it has one. -/
def blockCommentEnd (src : Source) (pos : Nat) : Option Nat :=
  if pos < src.size then
    if src.get pos == '*' && src.get (pos + 1) == '/' then some (pos + 2)
    else blockCommentEnd src (pos + 1)
  else none
termination_by src.size - pos

/-- The first complete comment in the trivia `[pos, stop)`: its range, delimiters included;
a line comment ends before its line terminator. -/
def firstComment (src : Source) (pos stop : Nat) : Option (Nat × Nat) :=
  if pos < stop then
    if src.get pos == '/' && src.get (pos + 1) == '/' then
      some (pos, skipWhile src (fun c => !isLineTerminator c) (pos + 2))
    else if src.get pos == '/' && src.get (pos + 1) == '*' then
      (blockCommentEnd src (pos + 2)).map fun e => (pos, e)
    else firstComment src (pos + 1) stop
  else none
termination_by stop - pos

/-- The value of the hexadecimal digits `[a, b)`, if all are hexadecimal digits. -/
def hexRun (src : Source) (a b : Nat) : Option Nat :=
  ((List.range (b - a)).map fun k => hexValue? (src.get (a + k))).foldl
    (fun acc d => do let v ← acc; let d ← d; pure (v * 16 + d)) (some 0)

/-- The lowercase hexadecimal text of a code unit, four digits. -/
def hex4 (n : Nat) : List Char :=
  let digit (d : Nat) : Char := if d < 10 then Char.ofNat (48 + d) else Char.ofNat (87 + d)
  [digit (n / 4096 % 16), digit (n / 256 % 16), digit (n / 16 % 16), digit (n % 16)]

/-- The characters a decoded code point adds to a string: the character itself, or for a
surrogate standing alone U+FFFD followed by its four hexadecimal digits. U+FFFD itself is
written the same way, as U+FFFD and `fffd`, so that the two stay apart; a string without a
surrogate standing alone takes that back (`plainReplacement`). -/
def codePointChars (v : Nat) : List Char :=
  if (0xD800 ≤ v && v ≤ 0xDFFF) || v == 0xFFFD then '�' :: hex4 v else [Char.ofNat v]

/-- Writes every U+FFFD followed by `fffd` as U+FFFD alone: the text of a string that holds
no surrogate standing alone. -/
def plainReplacement : List Char → List Char
  | '�' :: 'f' :: 'f' :: 'f' :: 'd' :: rest => '�' :: plainReplacement rest
  | c :: rest => c :: plainReplacement rest
  | [] => []

/-- Whether `v` is a leading surrogate. -/
def isHighSurrogate (v : Nat) : Bool := 0xD800 ≤ v && v ≤ 0xDBFF

/-- Whether `v` is a trailing surrogate. -/
def isLowSurrogate (v : Nat) : Bool := 0xDC00 ≤ v && v ≤ 0xDFFF

/-- Reads the digits of `\u{…}` from `pos`, `value` being those read so far: the code point
and the position after the closing brace, or the position where reading stopped. At least
one digit is needed, and a value beyond U+10FFFF stops right after the digit that makes it
so. -/
def bracedCodePoint (src : Source) (pos value : Nat) (first : Bool) : Except Nat (Nat × Nat) :=
  if pos < src.size then
    match hexValue? (src.get pos) with
    | some d =>
      if value * 16 + d > 0x10FFFF then .error (pos + 1)
      else bracedCodePoint src (pos + 1) (value * 16 + d) false
    | none =>
      if !first && src.get pos == '\x7d' then .ok (value, pos + 1) else .error pos
  else .error pos
termination_by src.size - pos

/-- Reads four hexadecimal digits from `pos`: their value, or the position of the first
character that is not one. -/
def hex4At (src : Source) (pos : Nat) : Except Nat Nat :=
  (List.range 4).foldlM (fun acc k =>
    match hexValue? (src.get (pos + k)) with
    | some d => .ok (acc * 16 + d)
    | none => .error (pos + k)) 0

/-- What a `\u` escape reads. -/
inductive UnicodeEscape where
  /-- A code point, from `\u{…}` or from four digits, and the position after the escape. -/
  | point (value next : Nat)
  /-- A leading and a trailing surrogate written `\uXXXX\uXXXX`, as the code point they
  make, and the position after them. -/
  | pair (value next : Nat)
  /-- A malformed escape: the position where reading stopped. -/
  | bad (stop : Nat)

/-- Reads a `\u` escape from the position after the `u`. Four digits that give a leading
surrogate pair with a trailing one only in the four-digit form; otherwise each stands
alone. -/
def unicodeEscapeAt (src : Source) (pos : Nat) : UnicodeEscape :=
  if src.get pos == '\x7b' then
    match bracedCodePoint src (pos + 1) 0 true with
    | .ok (v, next) => .point v next
    | .error p => .bad p
  else
    match hex4At src pos with
    | .error p => .bad p
    | .ok high =>
      if isHighSurrogate high && src.get (pos + 4) == '\\' && src.get (pos + 5) == 'u' then
        match hex4At src (pos + 6) with
        | .ok low =>
          if isLowSurrogate low then
            .pair (0x10000 + (high - 0xD800) * 1024 + (low - 0xDC00)) (pos + 10)
          else .point high (pos + 4)
        | .error _ => .point high (pos + 4)
      else .point high (pos + 4)

/-- The position after a `\u` escape read from `pos`, when it is well formed. -/
def UnicodeEscape.next? : UnicodeEscape → Option Nat
  | .point _ n | .pair _ n => some n
  | .bad _ => none

/-- Whether a character is an octal digit. -/
def isOctalDigit (c : Char) : Bool := '0' ≤ c && c ≤ '7'

/-- A legacy octal escape in a string, after its first digit `d`: up to two more octal
digits after `0` to `3`, up to one more after `4` to `7`, so the value stays below 256. The
value and the position after the escape. -/
def legacyOctalEscape (src : Source) (d : Char) (pos : Nat) : Nat × Nat :=
  let first := d.toNat - 48
  let c1 := src.get pos
  if pos < src.size && isOctalDigit c1 then
    let two := first * 8 + (c1.toNat - 48)
    let c2 := src.get (pos + 1)
    if d ≤ '3' && pos + 1 < src.size && isOctalDigit c2 then (two * 8 + (c2.toNat - 48), pos + 2)
    else (two, pos + 1)
  else (first, pos)

theorem legacyOctalEscape_advances (src : Source) (d : Char) (pos : Nat) :
    (legacyOctalEscape src d pos).2 ≥ pos := by
  unfold legacyOctalEscape
  dsimp only
  split
  · split <;> simp
  · simp

/-- A string literal's body as scanned: the decoded characters in reverse and the position
after the closing quote, or none when the string does not end; and the errors met, newest
first. -/
structure StringScan where
  body : Option (List Char × Nat)
  errors : List ScanError

/-- Scans the body of a string literal from `pos` (after the opening quote). An escape that
has no value is an error, and scanning goes on after what the escape consumed; a line break
or the end of the text before the closing quote ends the string unterminated. A `\x` escape
takes two hexadecimal digits; when one is not, the escape consumes the digits that stand. -/
def stringBody (src : Source) (q : Char) (start pos : Nat) (acc : List Char)
    (errs : List ScanError) : StringScan :=
  if pos < src.size then
    let c := src.get pos
    if c == q then ⟨some (acc, pos + 1), errs⟩
    else if c == '\n' || c == '\r' then ⟨none, ⟨"Unterminated string", start, pos⟩ :: errs⟩
    else if c == '\\' then
      let e := src.get (pos + 1)
      let bad (stop : Nat) : List ScanError := ⟨"Invalid escape sequence", pos, stop⟩ :: errs
      if e == '\r' && src.get (pos + 2) == '\n' then stringBody src q start (pos + 3) acc errs
      else if isLineTerminator e then stringBody src q start (pos + 2) acc errs
      else if e == 'n' then stringBody src q start (pos + 2) ('\n' :: acc) errs
      else if e == 't' then stringBody src q start (pos + 2) ('\t' :: acc) errs
      else if e == 'r' then stringBody src q start (pos + 2) ('\r' :: acc) errs
      else if e == 'b' then stringBody src q start (pos + 2) ('\x08' :: acc) errs
      else if e == 'f' then stringBody src q start (pos + 2) ('\x0c' :: acc) errs
      else if e == 'v' then stringBody src q start (pos + 2) ('\x0b' :: acc) errs
      else if e == '0' && !(src.get (pos + 2)).isDigit then
        stringBody src q start (pos + 2) ('\x00' :: acc) errs
      else if e == 'x' then
        match hexValue? (src.get (pos + 2)), hexValue? (src.get (pos + 3)) with
        | some a, some b => stringBody src q start (pos + 4) (Char.ofNat (a * 16 + b) :: acc) errs
        | some _, none => stringBody src q start (pos + 3) acc (bad (pos + 3))
        | none, _ => stringBody src q start (pos + 2) acc (bad (pos + 2))
      else if e == 'u' then
        match unicodeEscapeAt src (pos + 2) with
        | .point v next =>
          if next > pos then stringBody src q start next ((codePointChars v).reverse ++ acc) errs
          else ⟨none, bad next⟩
        | .pair v next =>
          if next > pos then stringBody src q start next (Char.ofNat v :: acc) errs
          else ⟨none, bad next⟩
        | .bad stop =>
          if stop > pos then stringBody src q start stop acc (bad stop)
          else ⟨none, bad stop⟩
      else if isOctalDigit e then
        have : (legacyOctalEscape src (src.get (pos + 1)) (pos + 2)).2 ≥ pos + 2 :=
          legacyOctalEscape_advances src (src.get (pos + 1)) (pos + 2)
        stringBody src q start (legacyOctalEscape src e (pos + 2)).2
          (Char.ofNat (legacyOctalEscape src e (pos + 2)).1 :: acc) errs
      else if pos + 1 < src.size then stringBody src q start (pos + 2) (e :: acc) errs
      else ⟨none, ⟨"Unterminated string", start, pos + 1⟩ :: errs⟩
    else stringBody src q start (pos + 1) ((codePointChars c.toNat).reverse ++ acc) errs
  else ⟨none, ⟨"Unterminated string", start, pos⟩ :: errs⟩
termination_by src.size - pos

/-- Whether the string text `[pos, stop)` writes, with a `\u` escape, a surrogate that does
not pair up. -/
def hasLoneSurrogate (src : Source) (pos stop : Nat) : Bool :=
  if pos < stop then
    if src.get pos == '\\' then
      if src.get (pos + 1) == 'u' then
        match unicodeEscapeAt src (pos + 2) with
        | .point v next =>
          if 0xD800 ≤ v && v ≤ 0xDFFF then true
          else if next > pos then hasLoneSurrogate src next stop else false
        | .pair _ next => if next > pos then hasLoneSurrogate src next stop else false
        | .bad _ => false
      else hasLoneSurrogate src (pos + 2) stop
    else hasLoneSurrogate src (pos + 1) stop
  else false
termination_by stop - pos

/-- Scans a string literal starting at its quote. Its value writes a surrogate standing
alone, and then also U+FFFD, as U+FFFD followed by four hexadecimal digits. -/
def string (src : Source) (start : Nat) (nl : Bool) : Token :=
  let r := stringBody src (src.get start) start (start + 1) [] []
  match r.body with
  | some (acc, stop) =>
    let chars := acc.reverse
    let chars := if hasLoneSurrogate src (start + 1) (stop - 1) then chars
      else plainReplacement chars
    ⟨.string (String.ofList chars), start, stop, nl, r.errors.reverse⟩
  | none => ⟨.invalid, start, src.size, nl, r.errors.reverse⟩

/-- Whether every escape of the template text `[pos, stop)` has a value: `\x` and `\u`
need their digits, and no digit may follow a backslash except a `0` that no digit follows.
A template that is not tagged may not hold an escape without a value. -/
def templateEscapesValid (src : Source) (pos stop : Nat) : Bool :=
  if pos < stop then
    if src.get pos == '\\' then
      let e := src.get (pos + 1)
      if e == 'x' then
        (hexRun src (pos + 2) (pos + 4)).isSome && templateEscapesValid src (pos + 4) stop
      else if e == 'u' then
        match (unicodeEscapeAt src (pos + 2)).next? with
        | some next => if _ : next > pos then templateEscapesValid src next stop else false
        | none => false
      else if e == '0' then
        !(src.get (pos + 2)).isDigit && templateEscapesValid src (pos + 2) stop
      else if e.isDigit then false
      else templateEscapesValid src (pos + 2) stop
    else templateEscapesValid src (pos + 1) stop
  else true
termination_by stop - pos

/-- Scans a piece of a template from `pos` (after a backtick or the `}` of a substitution)
up to `${` or the closing backtick. A template that the input ends in is reported over the
piece read. -/
def templateEnd (src : Source) (start pos : Nat) : Except ScanError (Nat × Bool) :=
  if pos < src.size then
    let c := src.get pos
    if c == '`' then .ok (pos + 1, true)
    else if c == '$' && src.get (pos + 1) == '{' then .ok (pos + 2, false)
    else if c == '\\' then templateEnd src start (pos + 2)
    else templateEnd src start (pos + 1)
  else .error ⟨"Unterminated string", start, src.size⟩
termination_by src.size - pos

/-- Scans a template piece whose opening delimiter is at `start`. -/
def template (src : Source) (start : Nat) (nl : Bool) : Token :=
  match templateEnd src start (start + 1) with
  | .ok (stop, tail) => ⟨.template tail, start, stop, nl, []⟩
  | .error e => ⟨.invalid, start, src.size, nl, [e]⟩

/-- Scans the body of a regular expression from `pos`: the position of the closing `/`. -/
def regexBody (src : Source) (start pos : Nat) (inClass : Bool) : Except ScanError Nat :=
  if pos < src.size then
    let c := src.get pos
    if isLineTerminator c then .error ⟨"Unterminated regular expression", start, pos⟩
    else if c == '\\' then
      if isLineTerminator (src.get (pos + 1)) then
        .error ⟨"Unterminated regular expression", start, pos⟩
      else regexBody src start (pos + 2) inClass
    else if c == '[' then regexBody src start (pos + 1) true
    else if c == ']' then regexBody src start (pos + 1) false
    else if c == '/' && !inClass then .ok pos
    else regexBody src start (pos + 1) inClass
  else .error ⟨"Unterminated regular expression", start, pos⟩
termination_by src.size - pos

/-- Whether a character may stand among the flags of a regular expression. -/
def isFlagChar (c : Char) : Bool := c.isAlphanum || c == '$' || c == '_'

/-- The errors of the flags `[pos, stop)` of a regular expression: each unknown or repeated
flag is reported over itself. -/
def flagErrors (src : Source) (pos stop : Nat) (seen : List Char) : List ScanError :=
  if pos < stop then
    let f := src.get pos
    if !"dgimsuyv".toList.contains f then
      ⟨"Unexpected flag " ++ f.toString ++ " in regular expression literal", pos, pos + 1⟩ ::
        flagErrors src (pos + 1) stop seen
    else if seen.contains f then
      ⟨"Flag " ++ f.toString ++ " is mentioned twice in regular expression literal", pos,
        pos + 1⟩ :: flagErrors src (pos + 1) stop seen
    else flagErrors src (pos + 1) stop (f :: seen)
  else []
termination_by stop - pos

/-- Scans a regular expression starting at its `/`. -/
def regex (src : Source) (start : Nat) (nl : Bool) : Token :=
  match regexBody src start (start + 1) false with
  | .ok close =>
    let stop := skipWhile src isFlagChar (close + 1)
    ⟨.regex, start, stop, nl, flagErrors src (close + 1) stop []⟩
  | .error e => ⟨.invalid, start, src.size, nl, [e]⟩

/-- The error for what stands at `pos` where a digit was needed: the character, as an empty
range at its position, or the end of the input. -/
def unexpectedAt (src : Source) (pos : Nat) : ScanError :=
  if src.has pos then ⟨"Invalid Character `" ++ (src.get pos).toString ++ "`", pos, pos⟩
  else ⟨"Unexpected end of file", pos, pos⟩

/-- Reads digits after a first one from `pos`; a separator `_` must be followed by a digit.
The end, and the error of a separator that no digit follows, which ends the digits. -/
def digitsAfterFirst (src : Source) (isDigit : Char → Bool) (pos : Nat) :
    Nat × List ScanError :=
  if pos < src.size then
    let c := src.get pos
    if c == '_' then
      if isDigit (src.get (pos + 1)) then digitsAfterFirst src isDigit (pos + 2)
      else (pos + 1, [unexpectedAt src (pos + 1)])
    else if isDigit c then digitsAfterFirst src isDigit (pos + 1)
    else (pos, [])
  else (pos, [])
termination_by src.size - pos

/-- Reads decimal digits from `pos`, of which there must be one. -/
def digitsFrom (src : Source) (pos : Nat) : Nat × List ScanError :=
  if (src.get pos).isDigit then digitsAfterFirst src Char.isDigit (pos + 1)
  else (pos, [unexpectedAt src pos])

/-- Reads decimal digits from `pos`, if there are any. -/
def optionalDigits (src : Source) (pos : Nat) : Nat × List ScanError :=
  if (src.get pos).isDigit then digitsAfterFirst src Char.isDigit (pos + 1) else (pos, [])

/-- Reads an exponent after its `e`: an optional sign, then digits. -/
def exponentFrom (src : Source) (pos : Nat) : Nat × List ScanError :=
  let c := src.get pos
  digitsFrom src (if c == '+' || c == '-' then pos + 1 else pos)

/-- Reads an exponent from `pos`, if an `e` or `E` stands there. -/
def optionalExponent (src : Source) (pos : Nat) : Nat × List ScanError :=
  let c := src.get pos
  if c == 'e' || c == 'E' then exponentFrom src (pos + 1) else (pos, [])

/-- What follows a number ending at `stop`: a digit or a character that may start an
identifier may not, and such a character with the identifier-start characters after it is
reported. The end of that run and the error. -/
def afterNumber (src : Source) (stop : Nat) : Option (Nat × ScanError) :=
  let c := src.get stop
  if src.has stop && (c.isDigit || isIdStart c) then
    let e := skipWhile src isIdStart (stop + 1)
    some (e, ⟨"Invalid characters after number", stop, e⟩)
  else none

/-- The value of a decimal literal over `[a, b)`, separators left out. -/
def decimalValue (src : Source) (a b : Nat) : Double :=
  (Double.readDecimal? (String.ofList ((src.slice a b).toList.filter (· != '_')))).getD (Double.nearest false 0 1)

/-- `n` rounded to the nearest double, a tie to the even mantissa. -/
def roundToDouble (n : Nat) : Nat :=
  let bits := Nat.log2 n + 1
  if bits ≤ 53 then n
  else
    let e := bits - 53
    Double.roundHalfEven n (Nat.pow 2 e) * Nat.pow 2 e

/-- The value of the digits of a binary, octal or hexadecimal literal, written as `text`
after its prefix, separators included. A text that fits in 64 bits by its length (64, 21 or
16 characters, separators counted) is read exactly and then rounded; a longer one is read into
a double one digit at a time, rounding after each. -/
def radixValue (radix : Nat) (text : List Char) : Double :=
  let exactDigits := if radix == 2 then 64 else if radix == 8 then 21 else 16
  let digit (c : Char) : Nat := (hexValue? c).getD 0
  let ds := text.filter (· != '_')
  let n := if text.length ≤ exactDigits then ds.foldl (fun acc c => acc * radix + digit c) 0
    else ds.foldl (fun acc c => roundToDouble (acc * radix + digit c)) 0
  Double.nearest false n 1

/-- Whether a character is a digit of a radix. -/
def isRadixDigit (radix : Nat) (c : Char) : Bool :=
  match hexValue? c with
  | some v => v < radix
  | none => false

/-- Finishes a number token over `[start, stop)` with the errors met reading it: what
follows is checked, and a bad character there makes the token unusable. -/
def finishNumber (src : Source) (start stop : Nat) (nl : Bool) (kind : TokenKind)
    (errors : List ScanError) : Token :=
  match afterNumber src stop with
  | some (e, err) => ⟨.invalid, start, e, nl, errors ++ [err]⟩
  | none => ⟨kind, start, stop, nl, errors⟩

/-- Finishes a number with a point or an exponent, read up to `stop`. -/
def finishFloat (src : Source) (start stop : Nat) (nl : Bool) (errors : List ScanError) :
    Token :=
  finishNumber src start stop nl (.number (decimalValue src start stop) .float) errors

/-- Reads the fraction and exponent of a number after its point, at `pos`. -/
def afterPoint (src : Source) (start pos : Nat) (nl : Bool) (errors : List ScanError) :
    Token :=
  let (p, e1) := optionalDigits src pos
  let (q, e2) := optionalExponent src p
  finishFloat src start q nl (errors ++ e1 ++ e2)

/-- Scans a binary, octal or hexadecimal literal at its `0`: the prefix must be followed by
a digit, and a separator that no digit follows makes the token unusable. -/
def radixNumber (src : Source) (start : Nat) (nl : Bool) (radix : Nat) (form : NumberForm) :
    Token :=
  if isRadixDigit radix (src.get (start + 2)) then
    match digitsAfterFirst src (isRadixDigit radix) (start + 3) with
    | (p, []) =>
      if src.get p == 'n' then finishNumber src start (p + 1) nl (.bigint form) []
      else
        let text := (src.slice (start + 2) p).toList
        finishNumber src start p nl (.number (radixValue radix text) form) []
    | (p, errors) => ⟨.invalid, start, p, nl, errors⟩
  else ⟨.invalid, start, start + 2, nl, [unexpectedAt src (start + 2)]⟩

/-- Scans a number that starts with `0` and another digit: octal when every digit is, and
otherwise decimal, which may go on with a point or a lowercase exponent. -/
def legacyNumber (src : Source) (start : Nat) (nl : Bool) : Token :=
  let stop := skipWhile src Char.isDigit (start + 1)
  let decimal := (src.slice start stop).any fun c => c == '8' || c == '9'
  if decimal && src.get stop == '.' then afterPoint src start (stop + 1) nl []
  else if decimal && src.get stop == 'e' then
    let (q, errors) := exponentFrom src (stop + 1)
    finishFloat src start q nl errors
  else if decimal then
    finishNumber src start stop nl (.number (decimalValue src start stop) .decimal) []
  else
    finishNumber src start stop nl
      (.number (radixValue 8 (src.slice (start + 1) stop).toList) .octal) []

/-- Scans a numeric literal starting at `start`: a digit, or a `.` before a digit. -/
def number (src : Source) (start : Nat) (nl : Bool) : Token :=
  let c0 := src.get start
  let c1 := src.get (start + 1)
  if c0 == '.' then afterPoint src start (start + 1) nl []
  else if c0 == '0' then
    if c1 == 'b' || c1 == 'B' then radixNumber src start nl 2 .binary
    else if c1 == 'o' || c1 == 'O' then radixNumber src start nl 8 .octal
    else if c1 == 'x' || c1 == 'X' then radixNumber src start nl 16 .hex
    else if c1 == 'e' || c1 == 'E' then
      let (q, errors) := exponentFrom src (start + 2)
      finishFloat src start q nl errors
    else if c1 == '.' then afterPoint src start (start + 2) nl []
    else if c1 == 'n' then finishNumber src start (start + 2) nl (.bigint .decimal) []
    else if c1.isDigit then legacyNumber src start nl
    else finishNumber src start (start + 1) nl (.number (Double.nearest false 0 1) .decimal) []
  else
    let (p, e1) := digitsAfterFirst src Char.isDigit (start + 1)
    if src.get p == '.' then afterPoint src start (p + 1) nl e1
    else if src.get p == 'n' then finishNumber src start (p + 1) nl (.bigint .decimal) e1
    else
      let c := src.get p
      if c == 'e' || c == 'E' then
        let (q, e2) := exponentFrom src (p + 1)
        finishFloat src start q nl (e1 ++ e2)
      else finishNumber src start p nl (.number (decimalValue src start p) .decimal) e1

/-- The error of a `\u` escape in an identifier over `[a, b)`. -/
def escapeError (a b : Nat) : ScanError := ⟨"Invalid Unicode escape sequence", a, b⟩

/-- Scans an identifier name from `pos`, decoding `\u` escapes; `first` tells whether the
next character starts the name. The name in reverse, the end, whether a backslash was met,
and the errors met, newest first.

A malformed escape, or one that names a surrogate, is reported over the escape; a decoded
character that may not stand in the name is reported as an empty range after the escape.
Either way the character is left out and the name goes on. -/
def identBody (src : Source) (pos : Nat) (first : Bool) (acc : List Char) (escaped : Bool)
    (errors : List ScanError) : List Char × Nat × Bool × List ScanError :=
  if pos < src.size then
    let c := src.get pos
    if c == '\\' then
      if src.get (pos + 1) == 'u' then
        match unicodeEscapeAt src (pos + 2) with
        | .point v next =>
          if next > pos then
            if 0xD800 ≤ v && v ≤ 0xDFFF then
              identBody src next false acc true (escapeError pos next :: errors)
            else
              let ch := Char.ofNat v
              if (if first then isIdStart ch else isIdPart ch) then
                identBody src next false (ch :: acc) true errors
              else
                identBody src next false acc true
                  (⟨"Invalid Character `" ++ ch.toString ++ "`", next, next⟩ :: errors)
          else (acc, pos, escaped, errors)
        | .pair _ next =>
          if next > pos then identBody src next false acc true (escapeError pos next :: errors)
          else (acc, pos, escaped, errors)
        | .bad stop =>
          if stop > pos then identBody src stop false acc true (escapeError pos stop :: errors)
          else (acc, pos, escaped, errors)
      else
        let stop := min (pos + 2) src.size
        if stop > pos then identBody src stop false acc true (escapeError pos stop :: errors)
        else (acc, pos, escaped, errors)
    else if (if first then isIdStart c else isIdPart c) then
      identBody src (pos + 1) false (c :: acc) escaped errors
    else (acc, pos, escaped, errors)
  else (acc, pos, escaped, errors)
termination_by src.size - pos

/-- Scans an identifier name or keyword starting at `start`. -/
def word (src : Source) (start : Nat) (nl : Bool) : Token :=
  let (acc, stop, escaped, errors) := identBody src start true [] false []
  ⟨.word (String.ofList acc.reverse) escaped, start, stop, nl, errors.reverse⟩

/-- Scans a private name at its `#`. What follows the `#` must start an identifier: another
character is reported over itself. -/
def privateName (src : Source) (start : Nat) (nl : Bool) : Token :=
  let c := src.get (start + 1)
  if !src.has (start + 1) then
    ⟨.invalid, start, start + 1, nl, [⟨"Unexpected end of file", start + 1, start + 1⟩]⟩
  else if isIdStart c || c == '\\' then
    let (acc, stop, _, errors) := identBody src (start + 1) true [] false []
    ⟨.hash (String.ofList acc.reverse), start, stop, nl, errors.reverse⟩
  else
    ⟨.invalid, start, start + 2, nl,
      [⟨"Invalid Character `" ++ c.toString ++ "`", start + 1, start + 2⟩]⟩

/-- Punctuators by length, longest first; `>` is always scanned alone. -/
def punctuators : List String :=
  ["...", "===", "!==", "**=", "<<=", "&&=", "||=", "??=",
   "=>", "==", "!=", "<=", "<<", "++", "--", "+=", "-=", "*=", "/=", "%=", "&=", "|=", "^=",
   "&&", "||", "??", "?.", "**",
   "\x7b", "\x7d", "(", ")", "[", "]", ";", ",", "~", "@", ":", "?", ".", "<", ">", "=", "!", "+",
   "-", "*", "/", "%", "&", "|", "^"]

/-- The punctuator at a position: the longest that matches. `?.` before a digit is `?`. -/
def punctAt (src : Source) (pos : Nat) : Option String :=
  match punctuators.find? (src.startsWithAt pos ·) with
  | some "?." => if (src.get (pos + 2)).isDigit then some "?" else some "?."
  | p => p

/-- The operator made of `>` characters at a position, with what may follow: `>>>=`,
`>>>`, `>>=`, `>>`, `>=` or `>`. -/
def greaterAt (src : Source) (pos : Nat) : String :=
  match ([">>>=", ">>>", ">>=", ">>", ">="].find? (src.startsWithAt pos ·)) with
  | some p => p
  | none => ">"

/-- Scans the token at `pos` after the trivia before it. -/
def tokenAt (src : Source) (pos : Nat) (nl : Bool) : Token :=
  if pos ≥ src.size then ⟨.eof, pos, pos, nl, []⟩
  else
    let c := src.get pos
    if isIdStart c || c == '\\' then word src pos nl
    else if c.isDigit || (c == '.' && (src.get (pos + 1)).isDigit) then number src pos nl
    else if c == '"' || c == '\'' then string src pos nl
    else if c == '`' then template src pos nl
    else if c == '#' then privateName src pos nl
    else
      match punctAt src pos with
      | some p => ⟨.punct p, pos, pos + p.length, nl, []⟩
      | none =>
        ⟨.invalid, pos, pos + 1, nl, [⟨"Invalid Character `" ++ c.toString ++ "`", pos, pos + 1⟩]⟩

/-- The next token from `pos`: trivia skipped, then one token. A block comment that the
input ends in leaves the end of the input, with its error. -/
def next (src : Source) (pos : Nat) : Token :=
  match skipTrivia src pos false .code with
  | (p, nl, none) => tokenAt src p nl
  | (p, nl, some e) => ⟨.eof, p, p, nl, [e]⟩

/-- The next token from `pos`, reading a `/` or `/=` as the start of a regular expression. -/
def nextRegex (src : Source) (pos : Nat) : Token :=
  match skipTrivia src pos false .code with
  | (p, nl, none) => if src.get p == '/' then regex src p nl else tokenAt src p nl
  | (p, nl, some e) => ⟨.eof, p, p, nl, [e]⟩

/-- The error for a `>` or `}` at `pos` in JSX text, where neither may stand. -/
def jsxTextError (c : Char) (pos : Nat) : ScanError :=
  let message := if c == '>' then "Unexpected token. Did you mean `\x7b'>'\x7d` or `&gt;`?"
    else "Unexpected token. Did you mean `\x7b'\x7d'\x7d` or `&rbrace;`?"
  ⟨message, pos, pos + 1⟩

/-- Text of JSX children from `pos`, up to the next `<` or `{` or the end: its end, and
`errs` with an error for each `>` or `}` in it put in front. -/
def jsxTextEnd (src : Source) (pos : Nat) (errs : List ScanError) : Nat × List ScanError :=
  if pos < src.size then
    let c := src.get pos
    if c == '<' || c == '{' then (pos, errs)
    else if c == '>' || c == '}' then jsxTextEnd src (pos + 1) (jsxTextError c pos :: errs)
    else jsxTextEnd src (pos + 1) errs
  else (pos, errs)
termination_by src.size - pos

/-- The next token among JSX children: `<`, `{`, text, or the end of the input. Text that
runs to the end of the input is read as the end, over the text. A `>` or `}` in the text is
an error, and the text goes on past it. -/
def nextJsxChild (src : Source) (pos : Nat) : Token :=
  if pos ≥ src.size then ⟨.eof, pos, pos, false, []⟩
  else
    let c := src.get pos
    if c == '<' || c == '{' then ⟨.punct c.toString, pos, pos + 1, false, []⟩
    else
      let (stop, errs) := jsxTextEnd src pos []
      if stop ≥ src.size then ⟨.eof, pos, stop, false, errs.reverse⟩
      else ⟨.jsxText, pos, stop, false, errs.reverse⟩

/-- The end of a JSX name part from `pos`: identifier characters and `-`. -/
def jsxNameEnd (src : Source) (pos : Nat) : Nat :=
  skipWhile src (fun c => isIdPart c || c == '-') pos

/-- The end of a JSX attribute string opened by the quote at `start`. -/
def jsxStringEnd (src : Source) (q : Char) (pos : Nat) : Option Nat :=
  if pos < src.size then
    if src.get pos == q then some (pos + 1) else jsxStringEnd src q (pos + 1)
  else none
termination_by src.size - pos

end Scan

/-- Words that can never name a binding or a reference. -/
def reservedWords : List String :=
  ["break", "case", "catch", "class", "const", "continue", "debugger", "default", "delete", "do",
   "else", "enum", "export", "extends", "false", "finally", "for", "function", "if", "import",
   "in", "instanceof", "new", "null", "return", "super", "switch", "this", "throw", "true", "try",
   "typeof", "var", "void", "while", "with"]

/-- Words with a meaning somewhere in the grammar, besides the reserved ones: those reserved in
strict code or by types, and the contextual ones. Such a word may not be written with
escapes where it is read, and messages name it by its text. -/
def contextualWords : List String :=
  ["await", "yield", "let", "static", "implements", "interface", "package", "private",
   "protected", "public", "async", "from", "get", "meta", "of", "set", "target", "accessor",
   "source", "defer", "abstract", "as", "asserts", "assert", "any", "boolean", "constructor",
   "declare", "infer", "intrinsic", "is", "keyof", "module", "namespace", "never", "out",
   "readonly", "require", "number", "object", "satisfies", "string", "symbol", "type",
   "undefined", "unique", "unknown", "using", "global", "bigint", "override"]

/-- Whether a word is a keyword of any kind. -/
def isKeyword (w : String) : Bool := reservedWords.contains w || contextualWords.contains w

/-- The text of a number's form in messages. -/
def NumberForm.describe : NumberForm → String
  | .decimal => "decimal"
  | .float => "float"
  | .binary => "binary"
  | .octal => "octal"
  | .hex => "hex"

/-- The text of a token kind in messages such as "Expected `)` but found `EOF`". A keyword is
named by its text, escaped or not, except that `namespace` is spelled `namaespace`. -/
def TokenKind.describe : TokenKind → String
  | .eof => "EOF"
  | .word w _ =>
    if w == "namespace" then "namaespace"
    else if isKeyword w then w
    else "Identifier"
  | .hash _ => "#identifier"
  | .number _ f => f.describe
  | .bigint f => f.describe ++ " bigint"
  | .string _ => "string"
  | .template true => "$\x7b\x7d"
  | .template false => "$\x7b"
  | .regex => "/regexp/"
  | .punct p => p
  | .jsxText => "JSXText"
  | .invalid => "Unknown"

/-- Whether a token is the punctuator `p`. -/
def Token.isPunct (t : Token) (p : String) : Bool := t.kind == .punct p

/-- Whether a token is the word `w`, escaped or not. -/
def Token.isWord (t : Token) (w : String) : Bool :=
  match t.kind with
  | .word x _ => x == w
  | _ => false

/-- Whether a token is a keyword written with an escape. -/
def Token.isEscapedKeyword (t : Token) : Bool :=
  match t.kind with
  | .word w true => isKeyword w
  | _ => false

/-- The name of a token that is an identifier name (keywords included). -/
def Token.name? (t : Token) : Option String :=
  match t.kind with
  | .word w _ => some w
  | _ => none

/-- Whether a token is an identifier name, keywords included. -/
def Token.isName (t : Token) : Bool :=
  match t.kind with
  | .word .. => true
  | _ => false

/-- Whether a token may name a binding or a reference. -/
def Token.isIdentifier (t : Token) : Bool :=
  match t.kind with
  | .word w _ => !reservedWords.contains w
  | _ => false

end SignalSugar
