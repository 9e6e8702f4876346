import SignalSugar.Syntax.Parse.State
/-!
# Modifiers

Words such as `public`, `static`, `readonly` or `async` stand before declarations, class
members, parameters, type members and type parameters. They are read the same way wherever
they stand, by `parseModifierList`: a word is a modifier only when what follows it can follow
a modifier, so that `static() {}` or `{ async: 1 }` keep their words as names. A modifier
written twice is reported as it is read.

Which modifiers a construct may carry depends on the construct: `ModifierSite` names the
constructs, and `ModifierSite.complaint` gives, for a modifier at a site, the message that
refuses it, or none when the site takes it. `verifyModifiers` reports every refused modifier
over the word, in the order they are written.
-/

namespace SignalSugar.Parse

/-- A modifier as read: its word and where it stands. -/
structure Modifier where
  word : String
  start : Nat
  stop : Nat
deriving Inhabited

/-- The words that may be read as modifiers. -/
def modifierWords : List String :=
  ["abstract", "accessor", "async", "const", "declare", "default", "export", "in", "out",
   "override", "private", "protected", "public", "readonly", "static"]

/-- Whether a word is an accessibility modifier. -/
def isAccessibility (w : String) : Bool :=
  w == "public" || w == "private" || w == "protected"

/-- Whether a token is a literal property name: a name (keywords included), a string, a
number or a private name. -/
def isLiteralPropertyName (t : Token) : Bool :=
  t.isName || (t.kind matches .string _ | .number .. | .bigint _ | .hash _)

/-- Whether a token can follow a modifier: a literal property name, or `[`, `{`, `*` or `...`. -/
def canFollowModifier (t : Token) : Bool :=
  isLiteralPropertyName t || t.isPunct "[" || t.isPunct "\x7b" || t.isPunct "*" ||
    t.isPunct "..."

/-- Whether the word `w` is a modifier when the token `n` follows it. `static` and `export`
may have their name on a later line, the others not; `const` is a modifier only where the
caller allows it, and otherwise only before `enum`; `export` cannot stand before `*`, `as`
or `{`, which begin an export list. -/
def modifierBefore (w : String) (n : Token) (permitConst : Bool) : Bool :=
  match w with
  | "const" => if permitConst then !n.newlineBefore && canFollowModifier n else n.isWord "enum"
  | "export" =>
    n.isPunct "@" || (!n.isPunct "*" && !n.isWord "as" && !n.isPunct "\x7b" && canFollowModifier n)
  | "static" => canFollowModifier n
  | _ => !n.newlineBefore && canFollowModifier n

/-- Reads the modifiers at the current token. A second `static` is not a modifier, nor, when
`stopAtStaticBlock` holds, a `static` that opens a static block. A second accessibility
modifier, or any modifier written twice, is reported over the later one. -/
def parseModifierList (permitConst stopAtStaticBlock : Bool) : P (List Modifier) :=
  loop ([] : List Modifier) fun acc => do
    let t ← cur
    let n ← peek
    match t.kind with
    | .word w _ =>
      if !modifierWords.contains w || !modifierBefore w n permitConst then
        return .done acc.reverse
      if w == "static" &&
          (acc.any (·.word == "static") || (stopAtStaticBlock && n.isPunct "\x7b")) then
        return .done acc.reverse
      if isAccessibility w && acc.any (fun m => isAccessibility m.word) then
        report "Accessibility modifier already seen." t.start t.stop
      else if acc.any (·.word == w) then
        report ("'" ++ w ++ "' modifier already seen.") t.start t.stop
      advance
      return .more (⟨w, t.start, t.stop⟩ :: acc)
    | _ => return .done acc.reverse

/-- Whether a modifier list holds a word. -/
def hasModifier (mods : List Modifier) (w : String) : Bool := mods.any (·.word == w)

/-- The constructs that carry modifiers, each with what it takes. -/
inductive ModifierSite where
  /-- A property of an object literal; a method there may be `async`. -/
  | objectMember (asyncAllowed : Bool)
  /-- A field of a class. -/
  | field
  /-- A method of a class. -/
  | method
  /-- A `get` or `set` accessor of a class. -/
  | accessor
  /-- A class constructor. -/
  | constructor
  /-- An index signature, in a class body or among type members. -/
  | indexSignature (inClass : Bool)
  /-- A member of an interface or an object type: a property or a method signature. -/
  | typeMember (isProperty : Bool)
  /-- A parameter of a function; a constructor's parameters may be class properties. -/
  | parameter (inConstructor : Bool)
  /-- A type parameter, which takes `in`, `out` and `const`. -/
  | typeParameter

/-- The message for `in` or `out` anywhere but on the type parameter of a class, an interface
or a type alias. -/
def varianceMessage (w : String) : String :=
  "'" ++ w ++ "' modifier can only appear on a type parameter of a class, interface or type alias."

/-- The message for `readonly` on something that is neither a property nor an index
signature. -/
def readonlyMessage : String :=
  "'readonly' modifier can only appear on a property declaration or index signature."

/-- What refuses the modifier word `w` at a site; none when the site takes it. -/
def ModifierSite.complaint : ModifierSite → String → Option String
  | .objectMember asyncAllowed, w =>
    if asyncAllowed && w == "async" then none
    else some ("'" ++ w ++ "' modifier cannot be used here.")
  | .field, w =>
    if w == "in" || w == "out" then some (varianceMessage w)
    else if w == "export" || w == "default" then
      some ("'" ++ w ++ "' modifier cannot appear on class elements of this kind.")
    else if w == "const" then some "A class member cannot have the 'const' keyword."
    else none
  | .method, w => classRoutine w
  | .accessor, w =>
    if w == "async" then some "'async' modifier cannot be used here." else classRoutine w
  | .constructor, w =>
    if isAccessibility w || w == "async" then none
    else if w == "in" || w == "out" then some (varianceMessage w)
    else if w == "const" then some "A class member cannot have the 'const' keyword."
    else some ("'" ++ w ++ "' modifier cannot appear on a constructor declaration.")
  | .indexSignature inClass, w =>
    if w == "readonly" || (inClass && w == "static") then none
    else some ("'" ++ w ++ "' modifier cannot appear on an index signature.")
  | .typeMember isProperty, w =>
    if w == "readonly" then (if isProperty then none else some readonlyMessage)
    else some ("'" ++ w ++ "' modifier cannot appear on a type member.")
  | .parameter inConstructor, w =>
    if inConstructor && (isAccessibility w || w == "readonly" || w == "override") then none
    else some ("'" ++ w ++ "' modifier cannot appear on a parameter.")
  | .typeParameter, w =>
    if w == "in" || w == "out" || w == "const" then none
    else some ("'" ++ w ++ "' modifier cannot be used on a type parameter.")
where
  /-- What refuses a modifier on a class method or accessor. -/
  classRoutine (w : String) : Option String :=
    if w == "in" || w == "out" then some (varianceMessage w)
    else if w == "readonly" then some readonlyMessage
    else if w == "accessor" then some "'accessor' modifier can only appear on a property declaration."
    else if w == "const" then some "A class member cannot have the 'const' keyword."
    else if w == "export" || w == "default" || w == "declare" then
      some ("'" ++ w ++ "' modifier cannot appear on class elements of this kind.")
    else none

/-- Reports each modifier that the site refuses, over its word. -/
def verifyModifiers (site : ModifierSite) (mods : List Modifier) : P Unit := do
  for m in mods do
    if let some message := site.complaint m.word then report message m.start m.stop

end SignalSugar.Parse
