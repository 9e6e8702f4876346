import SignalSugar.Syntax.Parse.Class
import SignalSugar.Syntax.Parse.Jsx
/-!
# Expressions

One level of the expression grammar, from primary expressions up to comma sequences:

* primary expressions: literals, templates, array and object literals, functions, classes,
  arrow functions, JSX, parenthesized expressions;
* member access, calls and optional chains; an optional chain is closed by a `chain` node,
  so `(a?.b).c` keeps its meaning;
* `new`, prefix and postfix operators;
* binary and short-circuiting operators by binding strength (read with an operator stack);
* conditional expressions, assignments and `yield`.

TypeScript wrappers (`as`, `satisfies`, `!`, `<T>x`, type arguments) are read and erased:
the expression inside stands in their place. A plain script reads `as` and `satisfies` too,
and refuses them.

Arrow functions are found by reading a parameter list speculatively: when `(…)` is not
followed by `=>`, it is read again as a parenthesized expression.

A call whose callee is written as the bare name `$signal` or `$destructure` marks the module
as holding labels.
-/

namespace SignalSugar.Parse

variable (g : Grammar)

/-- Clears `noIn` for a part in brackets, where `in` is an operator again. -/
def bracketed {α : Type} (p : P α) : P α := withContext (fun c => { c with noIn := false }) p

/-- Runs the parser of a template substitution. When it fails at a `}`, that brace is left
to close the substitution, and the rest of the template is scanned from the end of the input,
where it is unterminated. -/
def inSubstitution {α : Type} (p : P α) : P α := fun cfg s =>
  match p cfg s with
  | .error f =>
    if f.atBrace then
      let n := cfg.src.size
      .error { f with scanned := f.scanned ++ [⟨"Unterminated string", n - 1, n⟩],
                      atBrace := false }
    else .error f
  | r => r

/-- Runs a function body's parser: inside a function, with its own `async` and generator
flags, and with `in` an operator again. -/
def inBody {α : Type} (isAsync generator : Bool) (p : P α) : P α :=
  withContext (fun c => { c with inFunction := true, isAsync := isAsync, generator := generator, noIn := false }) p

/-- Runs a parameter list's parser with a function's own `async` and generator flags: the
parameters belong to the function, where `await` and `yield` mean what they mean in its
body. -/
def inParams {α : Type} (isAsync generator : Bool) (p : P α) : P α :=
  withContext (fun c => { c with inFunction := true, isAsync := isAsync, generator := generator,
                                 inClass := false }) p

/-- The raw text of a template piece over `[a, b)`. Where every escape has a value, line
breaks are normalized: `\r\n` and a lone `\r` are read as `\n`. An untagged template whose
escapes do not all have a value is an error. -/
def templatePiece (tagged : Bool) (a b : Nat) : P String := do
  let src ← source
  let raw := src.slice a b
  if Scan.templateEscapesValid src a b then
    return (raw.replace "\r\n" "\n").replace "\r" "\n"
  if !tagged then report "Bad escape sequence in untagged template literal" a b
  return raw

/-- Reads a template literal at its first piece; `tagged` when it follows a tag. -/
def parseTemplate (tagged : Bool) : P Node := do
  let start := (← cur).start
  let (quasis, exprs) ← loop (([] : List String), ([] : List Node)) fun (qs, es) => do
    let t ← cur
    match t.kind with
    | .template true =>
      let raw ← templatePiece tagged (t.start + 1) (t.stop - 1)
      advance
      return .done ((raw :: qs).reverse, es.reverse)
    | .template false =>
      let raw ← templatePiece tagged (t.start + 1) (t.stop - 2)
      advance
      let e ← inSubstitution (bracketed g.expression)
      if !(← atPunct "\x7d") then expectPunct "\x7d"
      rescanTemplate
      return .more (raw :: qs, e :: es)
    | _ => unexpected
  finish start (.template quasis exprs)

/-- Reads an argument list `( ... )`. -/
def parseArguments : P (List Node) := do
  expectPunct "("
  loop ([] : List Node) fun acc => do
    if ← listEnds ")" then return .done acc.reverse
    let t ← cur
    let arg ← if t.isPunct "..." then do
        advance
        let a ← bracketed g.assignment
        finish t.start (.spread a)
      else bracketed g.assignment
    if ← afterListItem ")" then return .done (arg :: acc).reverse
    return .more (arg :: acc)

/-- A function as read after its `function` keyword. -/
structure FunctionParts where
  name : Option Node
  params : List Node
  /-- The end of the parameter list's closing parenthesis. -/
  paramsEnd : Nat
  /-- None for a signature without a body. -/
  body : Option Node
  flags : FunctionFlags

/-- Reads the rest of a function after `function` (and `*`): name, parameters, return type
and body. A declaration, which started at `declStart`, may lack its body in TypeScript (an
overload signature); in a plain script that is reported over the declaration. An expression
must have its body. -/
def parseFunctionTail (isAsync : Bool) (needsName : Bool) (declStart : Option Nat) :
    P FunctionParts := do
  let generator ← eatPunct "*"
  let t ← cur
  let name ← if t.isIdentifier then some <$> parseBindingName
    else pure none
  if needsName && name.isNone then
    if t.isPunct "(" then report "Expected function name" t.start t.stop
    else if reservedWords.contains (t.name?.getD "") then
      failAt ("Expected `Identifier` but found `" ++ t.kind.describe ++ "`") t.start t.stop
  let ts := (← config).typescript
  if ts && (← atPunct "<") then skipTypeParams g
  let params ← inParams isAsync generator g.params
  let paramsEnd := (← get).prevEnd
  skipReturnAnnotation g
  let flags : FunctionFlags := { isAsync := isAsync, generator := generator }
  if ← atPunct "\x7b" then
    let body ← inBody isAsync generator g.functionBody
    return ⟨name, params, paramsEnd, some body, flags⟩
  match declStart with
  | none =>
    expectPunct "\x7b"
    return ⟨name, params, paramsEnd, none, flags⟩
  | some start =>
    if ts then semicolon
    else report "Expected function body" start (← get).prevEnd
    return ⟨name, params, paramsEnd, none, flags⟩

/-- Reads a function expression at `function`, which started at `start`. -/
def parseFunctionExpr (start : Nat) (isAsync : Bool) : P Node := do
  expectWord "function"
  let f ← parseFunctionTail g isAsync false none
  let body ← match f.body with
    | some b => pure b
    | none => node start start (.block [])
  finish start (.funcExpr f.name f.params body f.flags)

/-- Reads an arrow function's body after its parameters, at `=>`. -/
def parseArrowRest (start : Nat) (params : List Node) (isAsync : Bool) : P Node := do
  let t ← cur
  if t.newlineBefore then report "Line terminator not permitted before arrow" t.start t.stop
  expectPunct "=>"
  if ← atPunct "\x7b" then
    let body ← inBody isAsync false g.functionBody
    finish start (.arrow params body false isAsync)
  else
    let body ← withContext (fun c => { c with inFunction := true, isAsync := isAsync, generator := false }) g.assignment
    finish start (.arrow params body true isAsync)

/-- Reads the parameters of an arrow function and stops at its `=>`; fails when what stands
there is not an arrow function's head. The parameters are read where the arrow stands, so an
enclosing async function keeps `await` an operator there, and an `async` arrow makes it one. -/
def arrowHead (isAsync : Bool) : P (List Node) := do
  let ts := (← config).typescript
  if ts && (← atPunct "<") then skipTypeParams g
  let params ← withContext (fun c => { c with isAsync := c.isAsync || isAsync, inClass := false })
    g.params
  if let some (a, b) := (← get).thisParam then
    report "An arrow function cannot have a `this` parameter." a b
  if ts && (← atPunct ":") then
    advance
    withContext (fun c => { c with checkedType := false }) (skipReturnType g)
  if !(← atPunct "=>") then expectPunct "=>"
  return params

/-- Reads the members of an object literal's method after its key. -/
def parseObjectMethod (start : Nat) (kind : MethodKind) (key : Key) (isAsync generator : Bool) :
    P Node := do
  let ts := (← config).typescript
  let funcStart := (← cur).start
  if ts && (← atPunct "<") then skipTypeParams g
  let paramsStart := (← cur).start
  let params ← inParams isAsync generator g.params
  checkAccessorParams kind params paramsStart (← get).prevEnd
  skipReturnAnnotation g
  let body ← if ← atPunct "\x7b" then inBody isAsync generator g.functionBody
    else if !ts then do
      report "Expected function body" funcStart (← get).prevEnd
      node funcStart funcStart (.block [])
    else do
      semicolon
      unsupported "function without body" funcStart (← get).prevEnd
      node funcStart funcStart (.block [])
  finish start (.objMethod kind key params body { isAsync := isAsync, generator := generator })

/-- Whether a token can start a property key. -/
def startsKey (t : Token) : Bool :=
  t.isName || (t.kind matches .string _ | .number .. | .bigint _) || t.isPunct "["

/-- Refuses a number key of an object literal whose exponent has no digits: it is no float,
and that is the error, in place of the scanner's complaint about what follows the exponent. -/
def checkNumberKey (t : Token) : P Unit := do
  if t.kind matches .number _ .float && !t.errors.isEmpty then
    let text ← slice t.start t.stop
    let last := text.back
    if last == 'e' || last == 'E' || last == '+' || last == '-' then
      modify fun s => { s with scanErrors := s.scanErrors.drop t.errors.length }
      failAt "Invalid Number invalid float" t.start t.stop

/-- Reads one member of an object literal. -/
def parseObjectMember : P Node := do
  let t ← cur
  if t.isPunct "..." then
    advance
    let a ← bracketed g.assignment
    return ← finish t.start (.spread a)
  checkNumberKey t
  let mods ← parseModifierList false false
  let isAsync := hasModifier mods "async"
  let a ← cur
  if (a.isWord "get" || a.isWord "set") && startsKey (← peek) then
    advance
    verifyModifiers (.objectMember false) mods
    let k ← parseKey g false
    return ← parseObjectMethod g t.start (if a.isWord "get" then .get else .set) k.key false false
  if ← eatPunct "*" then
    verifyModifiers (.objectMember true) mods
    let k ← parseKey g false
    return ← parseObjectMethod g t.start .method k.key isAsync true
  let k ← parseKey g false
  let t2 ← cur
  if t2.isPunct "(" || t2.isPunct "<" then
    verifyModifiers (.objectMember true) mods
    return ← parseObjectMethod g t.start .method k.key isAsync false
  verifyModifiers (.objectMember false) mods
  if t2.isPunct ":" then
    advance
    let v ← bracketed g.assignment
    finish t.start (.property k.key v false)
  else
    match k.plainName with
    | some name =>
      if !k.first.isIdentifier then failAt "Unexpected token" k.first.start k.first.stop
      checkNameWord k.first
      let ident ← node k.first.start k.first.stop (.ident name)
      if ← atPunct "=" then
        advance
        let d ← bracketed g.assignment
        let value ← finish t.start (.assign .plain ident d)
        let p ← finish t.start (.property k.key value true)
        let stop := (← get).prevEnd
        modify fun s => { s with coverInits := (p.id, t.start, stop) :: s.coverInits }
        return p
      else finish t.start (.property k.key ident true)
    | none =>
      let t3 ← cur
      failAt ("Expected `:` but found `" ++ t3.kind.describe ++ "`") t3.start t3.stop

/-- Records the comma after the spread that ends the literal `n`, if there is one: a
pattern made of the literal may not have it. -/
def noteRestComma (n : Node) (comma : Option (Nat × Nat)) : P Unit :=
  match comma with
  | some (a, b) => modify fun s => { s with restCommas := (n.id, a, b) :: s.restCommas }
  | none => pure ()

/-- Reads an object literal at its `{`. -/
def parseObjectLiteral : P Node := do
  let start := (← cur).start
  advance
  let (members, comma) ← closedByBrace <|
    loop (([] : List Node), (none : Option (Nat × Nat))) fun (acc, comma) => do
      if ← listEnds "\x7d" then return .done (acc.reverse, comma)
      let m ← parseObjectMember g
      let c ← cur
      if ← afterListItem "\x7d" then return .done ((m :: acc).reverse, none)
      let comma := if m.kind matches .spread _ then some (c.start, c.stop) else none
      return .more (m :: acc, comma)
  let n ← finish start (.object members)
  noteRestComma n comma
  return n

/-- Reads an array literal at its `[`. -/
def parseArrayLiteral : P Node := do
  let start := (← cur).start
  advance
  let (elements, comma) ← loop (([] : List (Option Node)), (none : Option (Nat × Nat)))
    fun (acc, comma) => do
      if ← listEnds "]" then return .done (acc.reverse, comma)
      let t ← cur
      if t.isPunct "," then advance; return .more (none :: acc, none)
      let e ← if t.isPunct "..." then do
          advance
          let a ← bracketed g.assignment
          finish t.start (.spread a)
        else bracketed g.assignment
      let c ← cur
      if ← afterListItem "]" then return .done ((some e :: acc).reverse, none)
      let comma := if e.kind matches .spread _ then some (c.start, c.stop) else none
      return .more (some e :: acc, comma)
  let n ← finish start (.array elements)
  noteRestComma n comma
  return n

/-- Whether `await` is an operator here: in an async function, or outside every function. -/
def awaitAllowed : P Bool := do
  let c ← context
  return c.isAsync || !c.inFunction

/-- Reads a class expression at `class` (after its decorators, if any). -/
def parseClassExpr (start : Nat) (decorator : Option (Nat × Nat)) : P Node := do
  claiming do
    expectWord "class"
    let parts ← parseClassTail g
    let n ← finish start (.classExpr parts.name parts.superClass parts.members)
    let own ← match decorator with
      | some (a, b) => some <$> unsupportedError "decorator" a b
      | none => pure none
    return (n, own)

/-- Reads the arguments of a dynamic import at its `(`, the import having started at
`start`: a specifier and optional attributes, with an optional comma after them. -/
def parseImportCall (start : Nat) : P Node := do
  expectPunct "("
  if ← eatPunct ")" then failAt "import() requires a specifier." start (← get).prevEnd
  let src ← bracketed g.assignment
  let options ← if ← eatPunct "," then
      if ← atPunct ")" then pure none else some <$> bracketed g.assignment
    else pure none
  discard <| eatPunct ","
  if !(← eatPunct ")") then
    failAt ("Dynamic imports can only accept a module specifier and an optional set of " ++
      "attributes as arguments") start (← get).prevEnd
  finish start (.importCall src options)

/-- Reads a parenthesized expression at its `(`: assignment expressions separated by
commas, a sequence when there are several. The node is recorded as written in parentheses. -/
def parseParenthesized : P Node := do
  let opening ← cur
  advance
  let (items, comma, first, last) ← bracketed <|
    loop (([] : List Node), (none : Option Token), (← cur).start, (← cur).start)
      fun (acc, _, first, last) => do
        let t ← cur
        if t.isPunct ")" || t.kind == .eof then return .done (acc.reverse, none, first, last)
        if !acc.isEmpty then
          if !t.isPunct "," then failAt (expectedSeparator ")" t) t.start t.stop
          advance
          if (← cur).isPunct ")" then return .done (acc.reverse, some t, first, last)
        let e ← g.assignment
        return .more (e :: acc, none, first, (← get).prevEnd)
  if let some c := comma then
    failAt "Parenthesized expressions may not have a trailing comma." c.start c.stop
  let e ← match items with
    | [] =>
      expectPunct ")"
      failAt "Empty parenthesized expression" opening.start (← get).prevEnd
    | [e] => pure e
    | _ => node first last (.seq items)
  expectPunct ")"
  noteParens e.id opening.start (← get).prevEnd
  return e

/-- How surely a `(` starts the parameters of an arrow function, judged from the tokens
after it. -/
inductive ArrowShape where
  /-- An arrow function: it is read as one, and a failure is an error. -/
  | yes
  /-- Perhaps: it is read as one speculatively, and as a parenthesized expression when that
  fails. -/
  | maybe
  /-- A parenthesized expression. -/
  | no

/-- Whether a token is a literal: a number, a string, or `null`, `true` or `false`. -/
def isLiteralToken (t : Token) : Bool :=
  (t.kind matches .number .. | .bigint _ | .string _ | .regex) || t.isWord "null" ||
    t.isWord "true" || t.isWord "false"

/-- The shape of what follows the `(` token `paren`. A modifier and a name, as in `(private x)`,
are read as parameters, so that the modifier is refused there. -/
def arrowShape (paren : Token) : P ArrowShape := do
  let src ← source
  let ts := (← config).typescript
  let second := Scan.next src paren.stop
  let third := Scan.next src second.stop
  if second.isPunct ")" then
    if third.isPunct "=>" || third.isPunct "\x7b" then return .yes
    if ts && third.isPunct ":" then return .maybe
    return .no
  if second.isPunct "[" || second.isPunct "\x7b" then return .maybe
  if second.isPunct "..." then
    if third.name?.any (fun w => !isKeyword w) then return .yes
    if isLiteralToken third then return .no
    return .maybe
  if modifierWords.contains (second.name?.getD "") && !second.isWord "async" &&
      third.isIdentifier then
    return if third.isWord "as" then .no else .yes
  if !(second.isIdentifier || second.isWord "this") then return .no
  if third.isPunct ":" then return .yes
  if third.isPunct "?" then
    let fourth := Scan.next src third.stop
    if fourth.isPunct ":" || fourth.isPunct "," || fourth.isPunct "=" || fourth.isPunct ")" then
      return .yes
    return .no
  if third.isPunct "," || third.isPunct "=" || third.isPunct ")" then return .maybe
  return .no

/-- Reads an arrow function whose parameters open with the current `(`, the function
starting at `start` (at `async` when `isAsync`). Answers none, having read nothing, when the
`(` does not start one. -/
def parenArrow (start : Nat) (isAsync : Bool) : P (Option Node) := do
  match ← arrowShape (← cur) with
  | .yes =>
    let params ← arrowHead g isAsync
    return some (← parseArrowRest g start params isAsync)
  | .maybe =>
    match ← attempt (arrowHead g isAsync) with
    | some params => return some (← parseArrowRest g start params isAsync)
    | none => return none
  | .no => return none

/-- Where JSX is on, whether the `<` token `t` opens the type parameters of an arrow
function rather than an element: a name (after an optional `const`) followed by `,` or
`=`, or by `extends` that is not itself followed by `=`, `>` or `/`. -/
def genericArrowAhead (t : Token) : P Bool := do
  let src ← source
  let second := Scan.next src t.stop
  let second := if second.isWord "const" then Scan.next src second.stop else second
  let third := Scan.next src second.stop
  if third.isWord "extends" then
    let fourth := Scan.next src third.stop
    return !(fourth.isPunct "=" || fourth.isPunct ">" || fourth.isPunct "/")
  return third.isPunct "," || third.isPunct "="

/-- Reads a primary expression. The flag tells whether it is a name written bare, not in
parentheses. -/
def parsePrimary : P (Node × Bool) := do
  let t ← cur
  let cfg ← config
  match t.kind with
  | .word w _ =>
    match w with
    | "function" => return (← parseFunctionExpr g t.start false, false)
    | "class" => return (← parseClassExpr g t.start none, false)
    | "this" => advance; return (← node t.start t.stop .thisExpr, false)
    | "super" =>
      advance
      let n ← cur
      if !(n.isPunct "." || n.isPunct "[" || n.isPunct "(") then
        report "'super' can only be used with function calls or in property accesses" t.start
          t.stop
      return (← node t.start t.stop .superExpr, false)
    | "null" => advance; return (← node t.start t.stop .nullLit, false)
    | "true" => advance; return (← node t.start t.stop (.bool true), false)
    | "false" => advance; return (← node t.start t.stop (.bool false), false)
    | "import" =>
      let n ← peek
      if n.isPunct "." then
        advance; advance
        let p ← cur
        if p.isWord "meta" then
          advance
          return (← finish t.start (.metaProp "import" "meta"), false)
        if p.isWord "source" || p.isWord "defer" then
          advance
          let n ← parseImportCall g t.start
          unsupported "import phase" t.start (← get).prevEnd
          return (n, false)
        advance
        failAt "The only valid meta property for import is import.meta" t.start p.stop
      else if n.isPunct "(" then
        advance
        return (← parseImportCall g t.start, false)
      else
        advance
        unexpected
    | "async" =>
      let n ← peek
      if n.isWord "function" && !n.newlineBefore then
        advance
        return (← parseFunctionExpr g t.start true, false)
      advanceName
      return (← node t.start t.stop (.ident w), true)
    | _ =>
      if !t.isIdentifier then unexpected
      checkNameWord t
      advanceName
      return (← node t.start t.stop (.ident w), true)
  | .number v _ => advance; return (← node t.start t.stop (.num v), false)
  | .string v => advance; return (← node t.start t.stop (.str v), false)
  | .bigint _ => advance; return (← node t.start t.stop (.bigint (← slice t.start t.stop)), false)
  | .template _ => return (← parseTemplate g false, false)
  | .punct "/" | .punct "/=" =>
    rescanRegex
    let r ← cur
    match r.kind with
    | .regex =>
      let text ← slice r.start r.stop
      let flags := (text.splitOn "/").getLastD ""
      if flags.contains 'u' && flags.contains 'v' then
        report "The 'u' and 'v' regular expression flags cannot be enabled at the same time"
          r.start r.stop
      advance
      return (← node r.start r.stop (.regex text), false)
    | _ => unexpected
  | .punct "(" => return (← parseParenthesized g, false)
  | .punct "[" => return (← parseArrayLiteral g, false)
  | .punct "\x7b" => return (← parseObjectLiteral g, false)
  | .punct "<" => if cfg.jsx then return (← g.jsx, false) else unexpected
  | .hash _ => failAt "Unexpected private identifier" t.start t.stop
  | .punct "@" =>
    let first ← loop (none : Option (Nat × Nat)) fun first => do
      if ← atPunct "@" then
        let d ← cur
        parseDecorator g
        let stop := (← get).prevEnd
        return .more (first.orElse fun _ => some (d.start, stop))
      return .done first
    if !(← atWord "class") then unexpected
    return (← parseClassExpr g t.start first, false)
  | _ => unexpected

/-- Whether a token can start an expression. -/
def startsExpression (t : Token) : Bool :=
  match t.kind with
  | .word .. | .number .. | .string _ | .bigint _ | .template _ | .regex | .hash _ => true
  | .punct p => ["(", "[", "\x7b", "/", "/=", "!", "~", "+", "-", "++", "--", "<", "@", "..."].contains p
  | _ => false

/-- Whether a token is a binary operator. -/
def isBinaryToken (t : Token) : Bool :=
  match t.kind with
  | .punct p => ["==", "!=", "===", "!==", "<", ">", "<=", "+", "-", "*", "/", "%", "**", "<<",
      "&", "|", "^", "&&", "||", "??", "?", "=", ","].contains p
  | .word w _ => w == "in" || w == "instanceof" || w == "as" || w == "satisfies"
  | _ => false

/-- Type arguments after an expression, when they are type arguments: the answer tells
whether a call, a tagged template or nothing follows. -/
def typeArgsAfterExpression : P Unit := do
  skipTypeArgs g
  let t ← cur
  if t.isPunct "(" || (t.kind matches .template _) then return
  if t.isPunct "<" || t.isPunct ">" || t.isPunct "+" || t.isPunct "-" then unexpected
  if t.newlineBefore || isBinaryToken t || !startsExpression t then return
  unexpected

/-- The state of a member and call chain: the expression so far, whether it is a bare name,
and whether an optional link was met. -/
structure Chain where
  expr : Node
  bare : Bool
  optional : Bool

/-- Reads the member accesses, calls and tagged templates after an expression that started
at `start`. In a `new` callee (`inNew`) calls and optional links end the chain; in a
decorator (`inDecorator`) a `[` that no `?.` opens ends it, since a decorated class member
may have a computed key. -/
def parseChainRest (start : Nat) (base : Node) (bare : Bool) (inNew : Bool)
    (inDecorator : Bool := false) : P Node := do
  let ts := (← config).typescript
  let ch ← loop (⟨base, bare, false⟩ : Chain) fun ch => do
    let t ← cur
    if t.isPunct "." then
      advance
      let p ← cur
      match p.kind with
      | .word w _ =>
        advanceName
        return .more ⟨← finish start (.member ch.expr (.named w) false), false, ch.optional⟩
      | .hash w =>
        advance
        return .more ⟨← finish start (.member ch.expr (.privateName w) false), false, ch.optional⟩
      | _ => unexpected
    else if t.isPunct "?." then
      if inNew then failAt "Invalid optional chain from new expression." t.start t.stop
      advance
      let p ← cur
      match p.kind with
      | .punct "(" =>
        if ch.bare then
          match ch.expr.kind with
          | .ident n => if isLabelName n then noteLabel
          | _ => pure ()
        let args ← parseArguments g
        return .more ⟨← finish start (.call ch.expr args true), false, true⟩
      | .punct "[" =>
        advance
        let e ← bracketed g.expression
        expectPunct "]"
        return .more ⟨← finish start (.member ch.expr (.computed e) true), false, true⟩
      | .word w _ =>
        advanceName
        return .more ⟨← finish start (.member ch.expr (.named w) true), false, true⟩
      | .hash w =>
        advance
        return .more ⟨← finish start (.member ch.expr (.privateName w) true), false, true⟩
      | .template _ =>
        failAt "Tagged template expressions are not permitted in an optional chain" p.start p.stop
      | .punct "<" =>
        if !(← config).typescript then failAt "Identifier expected after '?.'" t.start t.stop
        skipTypeArgs g
        let args ← parseArguments g
        return .more ⟨← finish start (.call ch.expr args true), false, true⟩
      | _ => failAt "Identifier expected after '?.'" t.start t.stop
    else if t.isPunct "[" && !inDecorator then
      advance
      let e ← bracketed g.expression
      expectPunct "]"
      return .more ⟨← finish start (.member ch.expr (.computed e) false), false, ch.optional⟩
    else if t.isPunct "(" && !inNew then
      if ch.bare then
        match ch.expr.kind with
        | .ident n => if isLabelName n then noteLabel
        | _ => pure ()
      let args ← parseArguments g
      return .more ⟨← finish start (.call ch.expr args false), false, ch.optional⟩
    else if t.kind matches .template _ then
      if ch.optional then
        failAt "Tagged template expressions are not permitted in an optional chain" t.start t.stop
      let q ← parseTemplate g true
      return .more ⟨← finish start (.tagged ch.expr q), false, ch.optional⟩
    else if ts && t.isPunct "!" && !t.newlineBefore then
      advance
      return .more ⟨ch.expr, false, ch.optional⟩
    else if ts && t.isPunct "<" then
      match ← attempt (typeArgsAfterExpression g) with
      | some _ =>
        if (← atPunct "(") && !inNew then
          if ch.bare then
            match ch.expr.kind with
            | .ident n => if isLabelName n then noteLabel
            | _ => pure ()
          let args ← parseArguments g
          return .more ⟨← finish start (.call ch.expr args false), false, ch.optional⟩
        let stop := (← get).prevEnd
        modify fun s => { s with instantiations := (ch.expr.id, start, stop) :: s.instantiations }
        return .more ⟨ch.expr, false, ch.optional⟩
      | none => return .done ch
    else return .done ch
  if ch.optional then finish start (.chain ch.expr) else return ch.expr

/-- Reads a `new` expression at `new`, with all the `new`s that directly follow it. -/
def parseNew : P Node := do
  let starts ← loop ([] : List Nat) fun acc => do
    let t ← cur
    if t.isWord "new" && !(← peek).isPunct "." then advance; return .more (t.start :: acc)
    return .done acc
  let baseStart := (← cur).start
  let base ← do
    let t ← cur
    if t.isWord "new" then
      advance; advance
      let p ← cur
      advance
      if !p.isWord "target" then
        failAt "The only valid meta property for new is new.target" t.start p.stop
      finish t.start (.metaProp "new" "target")
    else if t.isWord "import" && (← peek).isPunct "(" then
      discard (parsePrimary g)
      failAt "Cannot use new with dynamic import" t.start (← get).prevEnd
    else
      let (b, _) ← parsePrimary g
      pure b
  let (result, _, _) ← loop (base, baseStart, starts) fun (callee, calleeStart, rest) => do
    match rest with
    | [] => return .done (callee, calleeStart, rest)
    | s :: more =>
      let c ← parseChainRest g calleeStart callee false true
      let args ← if ← atPunct "(" then parseArguments g else pure []
      let n ← finish s (.newExpr c args)
      return .more (n, s, more)
  return result

/-- Reads a member or call expression. -/
def parseLeftHandSide : P Node := do
  let t ← cur
  if t.isWord "new" then
    let n ← parseNew g
    parseChainRest g t.start n false false
  else
    let (base, bare) ← parsePrimary g
    parseChainRest g t.start base bare false

/-- Reads the expression of a decorator: a left-hand-side expression whose chain a `[` does
not continue. -/
def parseDecoratorExpression : P Node := do
  let t ← cur
  if t.isWord "new" then
    let n ← parseNew g
    parseChainRest g t.start n false false true
  else
    let (base, bare) ← parsePrimary g
    parseChainRest g t.start base bare false true

/-- Checks that an expression is a name or a member access, the only targets of `++` and
`--`. An array or object literal in parentheses is reported with its parentheses. -/
def checkSimpleTarget (n : Node) : P Unit := do
  if n.kind matches .ident _ | .member .. then
    checkNotInstantiated n
    return
  match ← parensOf n with
  | some (a, b) =>
    if n.kind matches .array _ | .object _ then failAt "Cannot assign to this expression" a b
    else notAssignable n
  | none => notAssignable n

/-- Whether the next token is a name or a literal on the same line: then an `await` where it
is no operator is still read as one, and reported. -/
def operandOnSameLine : P Bool := do
  let n ← peek
  return !n.newlineBefore && (n.isName || n.kind matches .number .. | .bigint _ | .string _)

/-- Reads a unary expression. -/
def parseUnary : P Node := do
  let t ← cur
  let cfg ← config
  let unaryOp : Option UnaryOp := match t.kind with
    | .punct "!" => some .not
    | .punct "~" => some .bitNot
    | .punct "+" => some .plus
    | .punct "-" => some .neg
    | .word "typeof" _ => some .typeof
    | .word "void" _ => some .void
    | .word "delete" _ => some .delete
    | _ => none
  match unaryOp with
  | some op =>
    advance
    let a ← g.unary
    finish t.start (.unary op a)
  | none =>
    if t.isPunct "++" || t.isPunct "--" then
      advance
      let a ← g.unary
      checkSimpleTarget a
      finish t.start (.update (if t.isPunct "++" then .incr else .decr) true a)
    else if t.isWord "await" && ((← awaitAllowed) || (← operandOnSameLine)) then
      if !(← awaitAllowed) then
        report "`await` is only allowed within async functions and at the top levels of modules"
          t.start t.stop
      advance
      let a ← g.unary
      finish t.start (.awaitExpr a)
    else if cfg.typescript && !cfg.jsx && t.isPunct "<" then
      advance
      g.type
      expectPunct ">"
      g.unary
    else
      let e ← parseLeftHandSide g
      let t2 ← cur
      if (t2.isPunct "++" || t2.isPunct "--") && !t2.newlineBefore then
        checkSimpleTarget e
        advance
        finish t.start (.update (if t2.isPunct "++" then .incr else .decr) false e)
      else return e

/-- A binary operator: ordinary or short-circuiting. -/
inductive AnyOp where
  | binary (op : BinaryOp)
  | logical (op : LogicalOp)

/-- Binding strength of an operator while reading: twice its printed strength, with `??`
binding more loosely than `||`, so that a mix of the two is seen as written. -/
def AnyOp.strength : AnyOp → Nat
  | .binary op => 2 * op.strength
  | .logical .nullish => 2 * LogicalOp.or.strength - 1
  | .logical op => 2 * op.strength

/-- The reading strength of relational operators, `in` among them. -/
def relationalStrength : Nat := 2 * BinaryOp.lt.strength

/-- An operand on the operator stack: an expression with its character range, or a private
name waiting for `in`. -/
inductive Operand where
  | expr (n : Node) (start stop : Nat)
  | privateName (name : String) (start stop : Nat)

/-- The operator at the current token, with its length in characters; `as` and `satisfies`
are answered as `none` with the flag set. -/
def operatorHere : P (Option (AnyOp × Nat) × Bool) := do
  let t ← cur
  let ctx ← context
  let some' (op : AnyOp) (len : Nat) : P (Option (AnyOp × Nat) × Bool) := pure (some (op, len), false)
  match t.kind with
  | .punct p =>
    match p with
    | "==" => some' (.binary .eq) 2
    | "!=" => some' (.binary .ne) 2
    | "===" => some' (.binary .strictEq) 3
    | "!==" => some' (.binary .strictNe) 3
    | "<" => some' (.binary .lt) 1
    | "<=" => some' (.binary .le) 2
    | "<<" => some' (.binary .shl) 2
    | "+" => some' (.binary .add) 1
    | "-" => some' (.binary .sub) 1
    | "*" => some' (.binary .mul) 1
    | "/" => some' (.binary .div) 1
    | "%" => some' (.binary .rem) 1
    | "**" => some' (.binary .pow) 2
    | "&" => some' (.binary .bitAnd) 1
    | "|" => some' (.binary .bitOr) 1
    | "^" => some' (.binary .bitXor) 1
    | "&&" => some' (.logical .and) 2
    | "||" => some' (.logical .or) 2
    | "??" => some' (.logical .nullish) 2
    | ">" =>
      match Scan.greaterAt (← source) t.start with
      | ">>>" => some' (.binary .ushr) 3
      | ">>" => some' (.binary .shr) 2
      | ">=" => some' (.binary .ge) 2
      | ">" => some' (.binary .gt) 1
      | _ => pure (none, false)
    | _ => pure (none, false)
  | .word "in" _ => if ctx.noIn then pure (none, false) else some' (.binary .isIn) 2
  | .word "instanceof" _ => some' (.binary .instanceOf) 10
  | .word "as" _ | .word "satisfies" _ =>
    pure (none, !t.newlineBefore)
  | _ => pure (none, false)

/-- Combines two operands with an operator. Of the two operands, the right one is looked at
when the operator short-circuits, the left one otherwise. -/
def combine (l : Operand) (op : AnyOp) (r : Operand) : P Operand := do
  let (rn, rstop) ← match r with
    | .expr n _ stop => pure (n, stop)
    | .privateName _ s e => failAt "Unexpected token" s e
  match l, op with
  | .privateName name s _, .binary .isIn =>
    return .expr (← node s rstop (.privateIn name rn)) s rstop
  | .privateName _ s e, _ => failAt "Unexpected token" s e
  | .expr ln s _, .binary b => return .expr (← node s rstop (.binary b ln rn)) s rstop
  | .expr ln s _, .logical o =>
    let n ← node s rstop (.logical o ln rn)
    if o == .nullish then
      let x := if rn.kind matches .logical .. then rn else ln
      if (x.kind matches .logical .or _ _ || x.kind matches .logical .and _ _) &&
          (← parensOf x).isNone then
        report "Logical expressions and coalesce expressions cannot be mixed" s rstop
    return .expr n s rstop

/-- Reduces the operator stack while its top binds at least as tightly as `strength`
(more tightly for a right-associative operator). -/
def reduceStack (stack : List (Operand × AnyOp)) (right : Operand) (strength : Nat)
    (rightAssoc : Bool) : P (List (Operand × AnyOp) × Operand) :=
  loop (stack, right) fun (st, r) => do
    match st with
    | (l, op) :: rest =>
      if op.strength > strength || (op.strength == strength && !rightAssoc) then
        return .more (rest, ← combine l op r)
      return .done (st, r)
    | [] => return .done (st, r)

/-- Reads one operand of a binary expression, after an operator of strength `strength` (0
for the first operand). Below relational strength, where `in` may follow, a private name
must be the left operand of `in`; elsewhere it cannot stand. -/
def parseOperand (strength : Nat) : P Operand := do
  let t ← cur
  match t.kind with
  | .hash name =>
    if strength < relationalStrength && !(← context).noIn then
      advance
      let n ← cur
      if !n.isWord "in" then
        failAt ("Expected `in` but found `" ++ n.kind.describe ++ "`") n.start n.stop
      return .privateName name t.start t.stop
    let n ← parseUnary g
    return .expr n t.start (← get).prevEnd
  | _ =>
    let n ← parseUnary g
    return .expr n t.start (← get).prevEnd

/-- A unary or `await` expression may not stand left of `**` without parentheses: whether
`-a ** b` means `(-a) ** b` or `-(a ** b)` is not settled by the grammar. -/
def checkPowerOperand (operand : Operand) : P Unit := do
  match operand with
  | .expr n s stop =>
    let src ← source
    if (n.kind matches .unary .. || n.kind matches .awaitExpr _) && src.get s != '(' then
      report "Unexpected exponentiation expression" s stop
  | .privateName .. => pure ()

/-- Reads a binary expression: operands and operators, by binding strength. -/
def parseBinary : P Node := do
  let first ← parseOperand g 0
  let result ← loop (([] : List (Operand × AnyOp)), first) fun (stack, operand) => do
    let (op, isAs) ← operatorHere
    if isAs then
      let (stack, operand) ← reduceStack stack operand relationalStrength false
      let t ← cur
      advance
      if t.isWord "as" && (← atWord "const") then advance else g.type
      let operand := match operand with
        | .expr n s _ => Operand.expr n s 0
        | o => o
      let stop := (← get).prevEnd
      let operand := match operand with
        | .expr n s _ => Operand.expr n s stop
        | o => o
      if !(← config).typescript then
        if let .expr _ s _ := operand then
          report (if t.isWord "as" then
              "Type assertion expressions can only be used in TypeScript files."
            else "Type satisfaction expressions can only be used in TypeScript files.") s stop
      return .more (stack, operand)
    match op with
    | none =>
      let (_, r) ← reduceStack stack operand 0 false
      return .done r
    | some (o, len) =>
      if o matches .binary .pow then checkPowerOperand operand
      let (stack, operand) ← reduceStack stack operand o.strength (o matches .binary .pow)
      let t ← cur
      if len == 1 || !t.isPunct ">" then advance
      else
        let src ← source
        setToken (Scan.next src (t.start + len)) (t.start + len)
      let next ← parseOperand g o.strength
      return .more ((operand, o) :: stack, next)
  match result with
  | .expr n _ _ => return n
  | .privateName _ s e => failAt "Unexpected token" s e

/-- Reads the rest of a conditional expression whose test, started at `start`, was read. -/
def conditionalRest (start : Nat) (test : Node) : P Node := do
  if ← atPunct "?" then
    advance
    let c ← bracketed g.assignment
    expectPunct ":"
    let a ← g.assignment
    finish start (.cond test c a)
  else return test

/-- Whether the token after the current one can begin a type parameter: a name or `const`.
Only then can `<` begin the type parameters of an arrow function. -/
def typeParamStartsNext : P Bool := do
  let n ← peek
  return n.isIdentifier || n.isWord "const"

/-- Reads an arrow function at the start of an assignment expression when one stands there:
parameters in parentheses, after `async` on the same line or not, or after type parameters;
or `async` and a single name. Answers none, having read nothing, otherwise. A single name
without `async` is only known to be a parameter once it is read. -/
def arrowHere : P (Option Node) := do
  let t ← cur
  let cfg ← config
  if t.isPunct "(" then return ← parenArrow g t.start false
  if t.isPunct "<" && cfg.typescript && (← typeParamStartsNext) &&
      (!cfg.jsx || (← genericArrowAhead t)) then
    match ← attempt (arrowHead g false) with
    | some params => return some (← parseArrowRest g t.start params false)
    | none => return none
  if t.isWord "async" then
    let n ← peek
    if n.newlineBefore then return none
    if n.isPunct "(" then
      let saved ← get
      advance
      match ← parenArrow g t.start true with
      | some f => return some f
      | none => set saved; return none
    if n.isPunct "<" && cfg.typescript && ((← peek2).isIdentifier || (← peek2).isWord "const") then
      match ← attempt (do advance; arrowHead g true) with
      | some params => return some (← parseArrowRest g t.start params true)
      | none => return none
    let n2 ← peek2
    if n.isIdentifier && n2.isPunct "=>" then
      advance
      let p ← parseBindingName
      return some (← parseArrowRest g t.start [p] true)
  return none

/-- The assignment operator at the current token, with its length. -/
def assignOpHere : P (Option (AssignOp × Nat)) := do
  let t ← cur
  match t.kind with
  | .punct p =>
    match p with
    | "=" => return some (.plain, 1)
    | "+=" => return some (.binary .add, 2)
    | "-=" => return some (.binary .sub, 2)
    | "*=" => return some (.binary .mul, 2)
    | "/=" => return some (.binary .div, 2)
    | "%=" => return some (.binary .rem, 2)
    | "**=" => return some (.binary .pow, 3)
    | "<<=" => return some (.binary .shl, 3)
    | "&=" => return some (.binary .bitAnd, 2)
    | "|=" => return some (.binary .bitOr, 2)
    | "^=" => return some (.binary .bitXor, 2)
    | "&&=" => return some (.logical .and, 3)
    | "||=" => return some (.logical .or, 3)
    | "??=" => return some (.logical .nullish, 3)
    | ">" =>
      match Scan.greaterAt (← source) t.start with
      | ">>=" => return some (.binary .shr, 3)
      | ">>>=" => return some (.binary .ushr, 4)
      | _ => return none
    | _ => return none
  | _ => return none

/-- Reads an assignment expression (or `yield`). Outside a generator, `yield` followed on its
line by a name, a keyword, a number or a string can only have been meant as a `yield`
expression: it is read as one and reported. -/
def parseAssignment : P Node := do
  let t ← cur
  let ctx ← context
  let n ← peek
  let strayYield := t.isWord "yield" && !ctx.generator && !n.newlineBefore &&
    (n.isName || n.kind matches .number .. | .bigint _ | .string _)
  if t.isWord "yield" && (ctx.generator || strayYield) then
    if strayYield then
      report "A 'yield' expression is only allowed in a generator body." t.start t.stop
    advance
    let n ← cur
    let delegate ← if n.isPunct "*" && !n.newlineBefore then advance; pure true else pure false
    let n ← cur
    let ends := n.isPunct ")" || n.isPunct "]" || n.isPunct "\x7d" || n.isPunct "," ||
      n.isPunct ";" || n.isPunct ":" || n.kind == .eof
    let arg ← if delegate || (!n.newlineBefore && !ends) then some <$> g.assignment
      else pure none
    return ← finish t.start (.yieldExpr arg delegate)
  if let some f ← arrowHere g then return f
  let left ← parseBinary g
  if (← atPunct "=>") && (← get).prevEnd == t.stop then
    if let .ident w := left.kind then
      let p ← node t.start t.stop (.bindingIdent w)
      return ← parseArrowRest g t.start [p] false
  let left ← conditionalRest g t.start left
  match ← assignOpHere with
  | some (op, len) =>
    let target ← targetOf left
    let o ← cur
    if len == 1 || !o.isPunct ">" then advance
    else setToken (Scan.next (← source) (o.start + len)) (o.start + len)
    let right ← g.assignment
    finish t.start (.assign op target right)
  | none => return left

/-- Reads an expression, commas included. -/
def parseExpression : P Node := do
  let start := (← cur).start
  let first ← parseAssignment g
  if !(← atPunct ",") then return first
  let rest ← loop ([] : List Node) fun acc => do
    if ← eatPunct "," then
      let e ← parseAssignment g
      return .more (e :: acc)
    return .done acc.reverse
  finish start (.seq (first :: rest))

end SignalSugar.Parse
