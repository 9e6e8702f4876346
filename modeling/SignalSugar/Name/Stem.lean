/-!
# Stems of generated names

Every name the rewriter invents is `_` followed by a stem and, from the second try on, the
number of the try. The stem comes from a hint (the name of the binding it stands for, or a
role such as `value`):

* the hint is cut into words, the maximal runs of ASCII letters, digits, `_` and `$`;
* the first word is kept, each later word gets an uppercase first letter, and the words are
  joined (`set-count` gives `setCount`);
* leading digits and underscores, and trailing digits, are dropped; what is left, or `temp`
  if nothing is, is the stem.

Identifier names here are the ASCII ones: a letter, `_` or `$`, then letters, digits, `_`
or `$`.
-/

namespace SignalSugar.Name

/-- A character that may stand in a word of a hint. -/
def isWordChar (c : Char) : Bool := c.isAlphanum || c = '_' || c = '$'

/-- The words of a hint: the maximal runs of word characters. -/
def words (cs : List Char) : List (List Char) :=
  (cs.splitOnP (fun c => !isWordChar c)).filter (fun w => !w.isEmpty)

/-- A later word of a hint, with its first letter in uppercase. -/
def capitalWord : List Char → List Char
  | [] => []
  | c :: cs => c.toUpper :: cs

/-- The words joined: the first as it is, the others with an uppercase first letter. -/
def joinWords : List (List Char) → List Char
  | [] => []
  | w :: ws => w ++ (ws.map capitalWord).flatten

/-- The stem of a hint. -/
def sanitize (hint : String) : String :=
  let joined := joinWords (words hint.toList)
  let noLead := joined.dropWhile (fun c => c.isDigit || c = '_')
  let stem := (noLead.reverse.dropWhile Char.isDigit).reverse
  bif stem.isEmpty then "temp" else String.ofList stem

/-- The name tried on the `attempt`-th try for a stem: `_stem`, then `_stem2`, `_stem3`, … -/
def candidate (stem : String) (attempt : Nat) : String :=
  if attempt > 1 then "_" ++ stem ++ toString attempt else "_" ++ stem

/-- A character that may start an identifier name. -/
def isIdentStart (c : Char) : Bool := c.isAlpha || c = '_' || c = '$'

/-- Whether a string is an ASCII identifier name. -/
def isIdentifier (s : String) : Bool :=
  match s.toList with
  | [] => false
  | c :: cs => isIdentStart c && cs.all isWordChar

/-- The full uppercase of a character, where it yields ASCII letters from a character beyond
ASCII (`ß` is `SS`, the ligature `ﬁ` is `FI`); an ASCII letter is raised as usual. Every
other character is kept: its uppercase holds no word character either, so a stem made from
it is the same. -/
def upperFirst (c : Char) : List Char :=
  match c.toNat with
  | 0xDF => ['S', 'S']
  | 0x131 => ['I']
  | 0x17F => ['S']
  | 0x149 => ['ʼ', 'N']
  | 0x1F0 => ['J', '̌']
  | 0x1E96 => ['H', '̱']
  | 0x1E97 => ['T', '̈']
  | 0x1E98 => ['W', '̊']
  | 0x1E99 => ['Y', '̊']
  | 0x1E9A => ['A', 'ʾ']
  | 0xFB00 => ['F', 'F']
  | 0xFB01 => ['F', 'I']
  | 0xFB02 => ['F', 'L']
  | 0xFB03 => ['F', 'F', 'I']
  | 0xFB04 => ['F', 'F', 'L']
  | 0xFB05 => ['S', 'T']
  | 0xFB06 => ['S', 'T']
  | _ => [c.toUpper]

/-- A name with its first character in uppercase. -/
def capitalize (s : String) : String :=
  match s.toList with
  | [] => ""
  | c :: cs => String.ofList (upperFirst c ++ cs)

end SignalSugar.Name
