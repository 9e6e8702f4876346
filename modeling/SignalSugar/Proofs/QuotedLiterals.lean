import SignalSugar.Text.Quoted
import Mathlib.Tactic.SplitIfs

/-!
# Quoted literals read back

The printer writes every string value through `quote`. This module states how JavaScript reads
a double-quoted string literal of module code, and proves that it reads `quote s` back as `s`.

## The reading

`readLiteral` follows the string literal grammar of JavaScript. Between the quotes stand
characters other than `"`, `\`, LF and CR (U+2028 and U+2029 may stand raw), escape sequences
and line continuations. The escapes are the single-character ones (`\' \" \\ \b \f \n \r \t \v`),
`\0` before a non-digit, `\xHH`, `\uHHHH` and `\u{H…}` up to U+10FFFF, and any other character
that is not a digit, `x`, `u` or a line terminator, which stands for itself. A backslash before a
line terminator (CR LF counting as one) is a line continuation and stands for nothing. Module
code is strict, so the legacy octal escapes and `\8`, `\9` are refused.

The value of a literal is a JavaScript string: a list of UTF-16 code units (`utf16`). A raw
character stands for its code units, `\xHH` and `\uHHHH` for one code unit each, `\u{H…}` for the
code units of its code point.

## The result

`quote_reads_back`: for every string `s` and whatever text follows it, reading `quote s` stops
exactly at its last character and answers the UTF-16 code units of `s`, and no character of
`quote s` is a line terminator. The reading stops at the first quote that no backslash escapes,
so stopping at the end, whatever follows, says that no quote between the delimiters stands
unescaped; that it succeeds says that every backslash there begins an escape sequence.
-/

namespace SignalSugar.Quoted

/-- The UTF-16 code units of the code point `v`: itself below U+10000, else a surrogate pair. -/
def codeUnits (v : Nat) : List Nat :=
  if v < 0x10000 then [v]
  else [0xD800 + (v - 0x10000) / 0x400, 0xDC00 + (v - 0x10000) % 0x400]

/-- The UTF-16 code units of a text: its value as a JavaScript string. -/
def utf16 (cs : List Char) : List Nat :=
  cs.flatMap fun c => codeUnits c.toNat

/-- LF, CR, U+2028 and U+2029, the characters that end a line. -/
def isLineTerminator (c : Char) : Bool :=
  c = '\n' || c = '\r' || c = '\u2028' || c = '\u2029'

/-- The value of a hexadecimal digit, in either case. -/
def hexValue (c : Char) : Option Nat :=
  if '0' ≤ c ∧ c ≤ '9' then some (c.toNat - 48)
  else if 'a' ≤ c ∧ c ≤ 'f' then some (c.toNat - 87)
  else if 'A' ≤ c ∧ c ≤ 'F' then some (c.toNat - 55)
  else none

/-- The code unit that a single-character escape `\c` stands for. -/
def singleEscape : Char → Option Nat
  | '\x27' => some 0x27
  | '"' => some 0x22
  | '\\' => some 0x5C
  | 'b' => some 0x08
  | 'f' => some 0x0C
  | 'n' => some 0x0A
  | 'r' => some 0x0D
  | 't' => some 0x09
  | 'v' => some 0x0B
  | _ => none

/-- Puts the code units `us` before the value of a reading that goes on. -/
def prepend (us : List Nat) : Option (List Nat × List Char) → Option (List Nat × List Char)
  | some (v, rest) => some (us ++ v, rest)
  | none => none

mutual

/-- Reads the characters of a double-quoted literal after its opening quote, up to and with its
closing quote: the value, and the text after the literal. `none` when the text is no literal. -/
def readChars : List Char → Option (List Nat × List Char)
  | [] => none
  | '"' :: rest => some ([], rest)
  | '\\' :: rest => readEscape rest
  | c :: rest =>
    if c = '\n' ∨ c = '\r' then none else prepend (codeUnits c.toNat) (readChars rest)

/-- Reads what follows a backslash, an escape sequence or a line continuation, and then the rest
of the literal. `\0` before a digit would be a legacy octal escape, and reads as nothing. -/
def readEscape : List Char → Option (List Nat × List Char)
  | [] => none
  | 'x' :: h :: l :: rest =>
    match hexValue h, hexValue l with
    | some a, some b => prepend [16 * a + b] (readChars rest)
    | _, _ => none
  | 'u' :: '{' :: rest => readBraced 0 false rest
  | 'u' :: a :: b :: c :: d :: rest =>
    match hexValue a, hexValue b, hexValue c, hexValue d with
    | some a, some b, some c, some d => prepend [4096 * a + 256 * b + 16 * c + d] (readChars rest)
    | _, _, _, _ => none
  | '\r' :: '\n' :: rest => readChars rest
  | '0' :: rest =>
    if rest.head?.map Char.isDigit = some true then none else prepend [0] (readChars rest)
  | c :: rest =>
    if isLineTerminator c then readChars rest
    else match singleEscape c with
      | some u => prepend [u] (readChars rest)
      | none =>
        if c.isDigit ∨ c = 'x' ∨ c = 'u' then none
        else prepend (codeUnits c.toNat) (readChars rest)

/-- Reads the hexadecimal digits of `\u{…}` up to its closing brace; `acc` is the value of the
digits read so far and `seen` whether there was one. -/
def readBraced (acc : Nat) (seen : Bool) : List Char → Option (List Nat × List Char)
  | [] => none
  | '}' :: rest =>
    if seen ∧ acc ≤ 0x10FFFF then prepend (codeUnits acc) (readChars rest) else none
  | c :: rest =>
    match hexValue c with
    | some d => readBraced (16 * acc + d) true rest
    | none => none

end

/-- Reads a double-quoted literal at the start of a text: its value and the text after it. -/
def readLiteral : List Char → Option (List Nat × List Char)
  | '"' :: rest => readChars rest
  | _ => none

example : readLiteral ['"', 'a', '\\', 'u', '{', '1', 'F', '6', '0', '0', '}', '\\', '\r', '\n',
    '\\', 'q', '"', 'z'] = some ([0x61, 0xD83D, 0xDE00, 0x71], ['z']) := by decide

example : readLiteral ['"', '\\', '0', '1', '"'] = none := by decide

@[simp] theorem prepend_some (us v : List Nat) (rest : List Char) :
    prepend us (some (v, rest)) = some (us ++ v, rest) := rfl

/-- The digits `quote` writes in `\xHH` read back as their values. -/
theorem hexValue_hexDigit {d : Nat} (h : d < 16) : hexValue (hexDigit d) = some d := by
  have hall : ∀ k : Fin 16, hexValue (hexDigit k) = some k := by decide
  exact hall ⟨d, h⟩

theorem isLineTerminator_hexDigit {d : Nat} (h : d < 16) : isLineTerminator (hexDigit d) = false := by
  have hall : ∀ k : Fin 16, isLineTerminator (hexDigit k) = false := by decide
  exact hall ⟨d, h⟩

/-- A character that is neither a quote nor a backslash nor LF nor CR is read as itself. -/
theorem readChars_plain {c : Char} (hq : c ≠ '"') (hb : c ≠ '\\') (hn : c ≠ '\n')
    (hr : c ≠ '\r') (rest : List Char) :
    readChars (c :: rest) = prepend (codeUnits c.toNat) (readChars rest) := by
  rw [readChars.eq_4 c rest hq hb, if_neg (not_or.2 ⟨hn, hr⟩)]

/-- Each character as `quote` writes it reads back as the character's code units, and the
reading goes on right after it. -/
theorem readChars_escapeChar (c : Char) (rest : List Char) :
    readChars (escapeChar c ++ rest) = prepend (codeUnits c.toNat) (readChars rest) := by
  unfold escapeChar
  split_ifs with hq hb hn hr ht hl hp hc
  · subst hq; rfl
  · subst hb; rfl
  · subst hn; rfl
  · subst hr; rfl
  · subst ht; rfl
  · subst hl; rfl
  · subst hp; rfl
  · have hdigits : 16 * (c.toNat / 16) + c.toNat % 16 = c.toNat := Nat.div_add_mod _ _
    have hunit : codeUnits c.toNat = [c.toNat] := if_pos (by omega)
    show readEscape ('x' :: hexDigit _ :: hexDigit _ :: rest) = _
    rw [readEscape.eq_2, hexValue_hexDigit (by omega), hexValue_hexDigit (by omega)]
    dsimp only
    rw [hdigits, hunit]
  · exact readChars_plain hq hb hn hr rest

/-- The body of a quoted text and its closing quote read back as the text's code units. -/
theorem readChars_encoded (cs rest : List Char) :
    readChars (cs.flatMap escapeChar ++ '"' :: rest) = some (utf16 cs, rest) := by
  induction cs with
  | nil => rfl
  | cons c cs ih =>
    rw [List.flatMap_cons, List.append_assoc, readChars_escapeChar, ih, prepend_some]
    rfl

/-- `quote` writes no line terminator raw: an escape is ASCII letters and digits after a
backslash, and a character written as itself is no line terminator. -/
theorem escapeChar_no_lineTerminator (c : Char) :
    ∀ d ∈ escapeChar c, isLineTerminator d = false := by
  unfold escapeChar
  split_ifs with hq hb hn hr ht hl hp hc
  iterate 7 simp [isLineTerminator]
  · intro d hd
    simp only [List.mem_cons, List.not_mem_nil, or_false] at hd
    rcases hd with rfl | rfl | rfl | rfl
    · rfl
    · rfl
    · exact isLineTerminator_hexDigit (by omega)
    · exact isLineTerminator_hexDigit (by omega)
  · simp [isLineTerminator, hn, hr, hl, hp]

end SignalSugar.Quoted

namespace SignalSugar

open Quoted

/-- A string written by `quote` reads back as itself: reading the literal stops right after
its closing quote, whatever follows, and answers the string's UTF-16 code units; and the literal
holds no raw line terminator. -/
theorem quote_reads_back (s : String) (rest : List Char) :
    (∀ c ∈ (quote s).toList, isLineTerminator c = false) ∧
      readLiteral ((quote s).toList ++ rest) = some (utf16 s.toList, rest) := by
  have hquote : (quote s).toList = '"' :: (s.toList.flatMap escapeChar ++ ['"']) :=
    String.toList_ofList
  rw [hquote]
  constructor
  · intro c hc
    simp only [List.mem_cons, List.mem_append, List.mem_flatMap, List.not_mem_nil,
      or_false] at hc
    rcases hc with rfl | ⟨d, -, hd⟩ | rfl
    · rfl
    · exact escapeChar_no_lineTerminator d c hd
    · rfl
  · rw [List.cons_append, List.append_assoc, List.singleton_append]
    exact readChars_encoded _ _

end SignalSugar
