import SignalSugar.Syntax.Scan
import SignalSugar.Syntax.Node
import SignalSugar.Error
/-!
# The parser's state and its steps

The parser reads one token at a time (`State.tok`) and builds the tree directly. Besides the
position it keeps what later stages need to know about the whole module:

* whether some call has a bare `$signal` or `$destructure` callee (`sawLabel`), which lets a
  module without labels pass through untouched;
* the first construct the rewriter does not take (`deferred`), in source order: it is only
  reported when the module parses;
* recoverable syntax errors and scanner errors, in the order found;
* the names the module exports, so that a name exported twice is reported.

A failure that ends parsing is a `Failure`. Speculative parses (`attempt`) restore the whole
state when they fail.

## Nesting

Constructs nest through a `Grammar`: a record of the parsers that may recurse (expressions,
statements, function bodies, patterns, JSX, types). Each parser module takes the grammar of
the level below and builds one level; `Grammar.atDepth` ties them together under a depth that
grows with the input, so all parsing is total. Repetition inside one level (statement lists,
argument lists, operator chains) runs under `loop`, bounded by the characters left.
-/

namespace SignalSugar.Parse

/-- What is being read: the text, and whether types and JSX are on. -/
structure Config where
  src : Source
  typescript : Bool
  jsx : Bool

/-- A syntax error over a range of character positions. -/
structure Diagnostic where
  message : String
  start : Nat
  stop : Nat
deriving Repr, Inhabited

/-- A syntax error that ends parsing, with the errors found before it. -/
structure Failure where
  error : Diagnostic
  /-- The scanner's errors, oldest first. -/
  scanned : List Diagnostic
  /-- The recoverable errors, oldest first. -/
  recovered : List Diagnostic
  /-- Whether the parser stood at a `}` when it failed. -/
  atBrace : Bool
  /-- The range of the first comment read before the failure. -/
  comment : Option (Nat × Nat)
deriving Repr, Inhabited

/-- The error a failure reports: the scanner's first, then the recoverable ones, then the one
that ended parsing. -/
def Failure.first (f : Failure) : Diagnostic := (f.scanned ++ f.recovered).headD f.error

/-- Where the parser stands, for the constructs whose meaning depends on it. -/
structure Context where
  inFunction : Bool := false
  isAsync : Bool := false
  generator : Bool := false
  /-- `in` is not an operator here (the head of a `for` loop). -/
  noIn : Bool := false
  /-- Inside a class body or a method, where `super` and private names may stand. -/
  inClass : Bool := false
  /-- Inside an ambient (`declare`) context. -/
  ambient : Bool := false
  /-- In the tested type of a conditional type, where `extends` ends the type. -/
  checkedType : Bool := false
  /-- The statement about to be read stands alone: it is the body of an `if`, a loop, a
  `with` or a label. -/
  single : Bool := false
  /-- Inside a JSX expression container, where a regular expression that does not scan is
  refused as a token rather than for what is wrong in it. -/
  inJsxContainer : Bool := false
  /-- Reading the parameters of a class constructor, which modifiers may make properties. -/
  constructorParams : Bool := false
deriving Inhabited

/-- The parser's state. -/
structure State where
  tok : Token
  prevEnd : Nat
  nextId : Nat
  ctx : Context
  sawLabel : Bool
  deferred : Option RewriteError
  errors : List Diagnostic
  scanErrors : List ScanError
  exports : List (String × Span)
  /-- Expressions written in parentheses: the node's id and the range of the parentheses. -/
  parens : List (Nat × Nat × Nat)
  /-- Array and object literals whose last element is a spread followed by a comma: the
  literal's id and the comma's range. -/
  restCommas : List (Nat × Nat × Nat)
  /-- Shorthand properties with a default, `{ a = 1 }`, which only a pattern may hold:
  the property's id and its range. -/
  coverInits : List (Nat × Nat × Nat)
  /-- The range of the first comment read so far. -/
  firstComment : Option (Nat × Nat)
  /-- The range of the TypeScript `this` parameter of the last parameter list read. -/
  thisParam : Option (Nat × Nat) := none
  /-- Expressions given type arguments without a call, `f<T>`: the expression's id and the
  range with the type arguments. -/
  instantiations : List (Nat × Nat × Nat) := []

/-- The parser monad. -/
abbrev P := ReaderT Config (StateT State (Except Failure))

/-- A statement as read: a node, or a type-level construct that leaves nothing, with its
character range. -/
inductive Item where
  | node (n : Node)
  | dropped (start stop : Nat)

/-- One step of a loop: go on with a new state, or finish with a result. -/
inductive Step (σ β : Type) where
  | more (s : σ)
  | done (b : β)

section Steps

variable {α β σ : Type}

/-- The configuration. -/
def config : P Config := read

/-- The source. -/
def source : P Source := return (← read).src

/-- The current token. -/
def cur : P Token := return (← get).tok

/-- Fails with a message over a character range. -/
def failAt (message : String) (a b : Nat) : P α := do
  let s ← get
  let scanned := s.scanErrors.reverse.map fun e => (⟨e.message, e.start, e.stop⟩ : Diagnostic)
  throw ⟨⟨message, a, b⟩, scanned, s.errors.reverse, s.tok.isPunct "\x7d", s.firstComment⟩

/-- Records a syntax error that does not stop parsing. -/
def report (message : String) (a b : Nat) : P Unit :=
  modify fun s => { s with errors := ⟨message, a, b⟩ :: s.errors }

/-- Records the scanner's errors of a token. -/
def noteScan (t : Token) : P Unit :=
  modify fun s => { s with scanErrors := t.errors.reverse ++ s.scanErrors }

/-- Notes the first comment of the trivia `[a, b)`, unless a comment was met before. -/
def noteComment (a b : Nat) : P Unit := do
  if (← get).firstComment.isNone then
    let c := Scan.firstComment (← read).src a b
    modify fun s => { s with firstComment := c }

/-- Makes `t` the current token, after the token that ended at `prevEnd`, where scanning
for it began. -/
def setToken (t : Token) (prevEnd : Nat) : P Unit := do
  modify fun s => { s with tok := t, prevEnd := prevEnd }
  noteScan t
  noteComment prevEnd t.start

/-- Moves to the next token, the current one read as a name: a keyword written with escapes
is then just a name. -/
def advanceName : P Unit := do
  let s ← get
  setToken (Scan.next (← source) s.tok.stop) s.tok.stop

/-- Moves to the next token. A keyword written with escapes is reported as it is passed, for
a keyword must be written as it is. -/
def advance : P Unit := do
  let s ← get
  if s.tok.isEscapedKeyword then
    report "Keywords cannot contain escape characters" s.tok.start s.tok.stop
  advanceName

/-- Scans the current token again from its start, as a regular expression if it is a `/`.
Inside a JSX expression container a regular expression with a scanning error is refused as
an unexpected token, and what is wrong in it is not told. -/
def rescanRegex : P Unit := do
  let s ← get
  let t := Scan.nextRegex (← source) s.prevEnd
  modify fun st => { st with tok := t }
  if s.ctx.inJsxContainer && !t.errors.isEmpty && !(t.kind matches .eof) then
    failAt "Unexpected token" t.start t.stop
  noteScan t

/-- Scans the current `}` again as the piece of a template that continues after a
substitution. -/
def rescanTemplate : P Unit := do
  let s ← get
  let t := Scan.template (← source) s.tok.start s.tok.newlineBefore
  modify fun st => { st with tok := t }
  noteScan t

/-- The token after the current one, without moving. -/
def peek : P Token := do
  return Scan.next (← source) (← get).tok.stop

/-- The token after the next one, without moving. -/
def peek2 : P Token := do
  let src ← source
  return Scan.next src (Scan.next src (← get).tok.stop).stop

/-- Whether the current token is the punctuator `p`. -/
def atPunct (p : String) : P Bool := return (← cur).kind == .punct p

/-- Whether the current token is the word `w`. -/
def atWord (w : String) : P Bool := return (← cur).isWord w

/-- Whether a conflict marker left by a merge starts at `pos`: seven times one of the
characters `<`, `=`, `>` and `|`. -/
def diffMarkerAt (src : Source) (pos : Nat) : Bool :=
  let c := src.get pos
  (c == '<' || c == '=' || c == '>' || c == '|') &&
    (List.range 7).all fun i => src.has (pos + i) && src.get (pos + i) == c

/-- Fails at the current token as unexpected. At a token the scanner could not read, or at
the end, the scanner's last error is the reason: it is taken from the scanner's errors and
becomes the one that ends parsing. A token that begins a merge's conflict marker is named
as one, over the marker. -/
def unexpected : P α := do
  let t ← cur
  let s ← get
  let plain : P α := do
    if diffMarkerAt (← source) t.start then failAt "Encountered diff marker" t.start (t.start + 7)
    failAt "Unexpected token" t.start t.stop
  match s.scanErrors with
  | e :: rest =>
    if t.kind == .invalid || t.kind == .eof then
      set { s with scanErrors := rest }
      failAt e.message e.start e.stop
    else plain
  | [] => plain

/-- Consumes the punctuator `p`, or fails naming what was found instead. -/
def expectPunct (p : String) : P Unit := do
  let t ← cur
  if t.isPunct p then advance
  else failAt ("Expected `" ++ p ++ "` but found `" ++ t.kind.describe ++ "`") t.start t.stop

/-- Consumes the word `w`, or fails naming what was found instead. -/
def expectWord (w : String) : P Unit := do
  let t ← cur
  if t.isWord w then advance
  else failAt ("Expected `" ++ w ++ "` but found `" ++ t.kind.describe ++ "`") t.start t.stop

/-- The message of a list that goes on with neither its separator nor its end. -/
def expectedSeparator (close : String) (t : Token) : String :=
  "Expected `,` or `" ++ close ++ "` but found `" ++ t.kind.describe ++ "`"

/-- Consumes the punctuator `p` if it is next. -/
def eatPunct (p : String) : P Bool := do
  if ← atPunct p then advance; return true else return false

/-- Consumes the word `w` if it is next. -/
def eatWord (w : String) : P Bool := do
  if ← atWord w then advance; return true else return false

/-- After an element of a list closed by `close`: answers true and consumes the close when
the list ends here; consumes a comma and answers false when it goes on. At the end of the
input the close is missing. -/
def afterListItem (close : String) : P Bool := do
  if ← eatPunct "," then return false
  let t ← cur
  if t.isPunct close then advance; return true
  if t.kind == .eof then expectPunct close
  failAt (expectedSeparator close t) t.start t.stop

/-- Before an element of a list closed by `close`: answers true and consumes the close when
the list ends here. At the end of the input the close is missing. -/
def listEnds (close : String) : P Bool := do
  let t ← cur
  if t.isPunct close then advance; return true
  if t.kind == .eof then expectPunct close
  return false

/-- Ends a statement: a `;`, or a place where one may be left out (before `}`, at the end, or
after a line break). -/
def semicolon : P Unit := do
  let t ← cur
  if t.isPunct ";" then advance
  else if t.isPunct "\x7d" || t.kind == .eof || t.newlineBefore then pure ()
  else
    let e := (← get).prevEnd
    failAt "Expected a semicolon or an implicit semicolon after a statement, but found none" e e

/-- Whether a statement may end here without a `;`. -/
def canEndStatement : P Bool := do
  let t ← cur
  return t.isPunct ";" || t.isPunct "\x7d" || t.kind == .eof || t.newlineBefore

/-- A new node over the characters `[a, b)`. -/
def node (a b : Nat) (k : Kind) : P Node := do
  let s ← get
  set { s with nextId := s.nextId + 1 }
  return .mk s.nextId ((← source).spanOf a b) none k

/-- A new node from character `a` to the end of the last token read. -/
def finish (a : Nat) (k : Kind) : P Node := do
  node a (← get).prevEnd k

/-- The source text of the characters `[a, b)`. -/
def slice (a b : Nat) : P String := return (← source).slice a b

/-- Records a construct the rewriter does not take, unless one came earlier. -/
def unsupported (what : String) (a b : Nat) : P Unit := do
  let span := (← source).spanOf a b
  modify fun s => if s.deferred.isSome then s
    else { s with deferred := some (.unsupported what span) }

/-- Runs `p`; what it reports about itself (`own`) comes before what was found inside it,
and anything found before it comes first. -/
def claiming (p : P (α × Option RewriteError)) : P α := do
  let saved := (← get).deferred
  let (a, own) ← p
  match saved, own with
  | some _, _ => modify fun s => { s with deferred := saved }
  | none, some e => modify fun s => { s with deferred := some e }
  | none, none => pure ()
  return a

/-- Runs `p` for a construct that leaves nothing in the tree: what it found is forgotten. -/
def forgetting (p : P α) : P α := do
  let saved := (← get).deferred
  let a ← p
  modify fun s => { s with deferred := saved }
  return a

/-- The error of an unsupported construct over `[a, b)`. -/
def unsupportedError (what : String) (a b : Nat) : P RewriteError :=
  return .unsupported what ((← source).spanOf a b)

/-- Runs the inside of a construct that a `}` closes. When it fails at a `}`, the
construct takes that brace as its end, so no construct around it stands at the brace. -/
def closedByBrace (p : P α) : P α := fun cfg s =>
  match p cfg s with
  | .error f => .error { f with atBrace := false }
  | r => r

/-- Runs `p` in a changed context, then restores the context. -/
def withContext (f : Context → Context) (p : P α) : P α := do
  let saved := (← get).ctx
  modify fun s => { s with ctx := f saved }
  let a ← p
  modify fun s => { s with ctx := saved }
  return a

/-- The current context. -/
def context : P Context := return (← get).ctx

/-- Runs `p`; if it fails, the state is as before and the answer is none. -/
def attempt (p : P α) : P (Option α) := fun cfg s =>
  match p cfg s with
  | .ok (a, s') => .ok (some a, s')
  | .error _ => .ok (none, s)

/-- Runs `p` and restores the state whatever it answers. -/
def lookahead (p : P α) : P (Option α) := fun cfg s =>
  match p cfg s with
  | .ok (a, _) => .ok (some a, s)
  | .error _ => .ok (none, s)

/-- Repeats `step` at most `bound` times. -/
def iterate : Nat → σ → (σ → P (Step σ β)) → P β
  | 0, _, _ => do
    let t ← cur
    failAt "Unexpected token" t.start t.stop
  | n + 1, s, f => do
    match ← f s with
    | .more s' => iterate n s' f
    | .done b => pure b

/-- Repeats `step` until it finishes. Each round reads at least one character, so the rounds
are bounded by the characters left. -/
def loop (s : σ) (f : σ → P (Step σ β)) : P β := do
  let src ← source
  iterate (src.size - (← cur).start + 2) s f

/-- Records an exported name with its span. -/
def noteExport (name : String) (span : Span) : P Unit :=
  modify fun s => { s with exports := (name, span) :: s.exports }

/-- The range of the parentheses around the node with id `x`, if it was written in
parentheses. -/
def parenthesized (x : Nat) : P (Option (Nat × Nat)) := do
  return ((← get).parens.find? (·.1 == x)).map (·.2)

/-- Records that the node with id `x` was written in the parentheses `[a, b)`. -/
def noteParens (x a b : Nat) : P Unit :=
  modify fun s => { s with parens := (x, a, b) :: s.parens }

/-- The names that mark a declaration as a label. -/
def isLabelName (n : String) : Bool := n == "$signal" || n == "$destructure"

/-- Records that a call has a bare label callee. -/
def noteLabel : P Unit := modify fun s => { s with sawLabel := true }

end Steps

/-- What the checks on a type need to know of it: the only shapes that `readonly` and tuple
elements look at. -/
inductive TypeShape where
  /-- An array type `T[]`. -/
  | array
  /-- A tuple type `[A, B]`. -/
  | tuple
  /-- A type with a postfix `?`, which only a tuple element may be. -/
  | optional
  /-- Any other type, parenthesized ones included. -/
  | other
deriving DecidableEq, Inhabited

/-- The kind of an element of a tuple type. -/
inductive TupleElement where
  /-- An element that must be given. -/
  | required
  /-- An element marked with `?`, after its label or its type. -/
  | optional
  /-- A rest element, marked with `...`. -/
  | rest
deriving DecidableEq, Inhabited

/-- The parsers that may recurse, one nesting level down. -/
structure Grammar where
  /-- An expression, commas included. -/
  expression : P Node
  /-- An assignment expression: no top-level comma. -/
  assignment : P Node
  /-- A unary expression. -/
  unary : P Node
  /-- A left-hand-side expression: a member access, a call or a `new` expression. -/
  leftHandSide : P Node
  /-- The expression of a decorator, a left-hand-side expression that `[` does not index. -/
  decorator : P Node
  /-- A statement or declaration. -/
  statement : P Item
  /-- A function body `{ ... }` with its directives; the caller sets the context. -/
  functionBody : P Node
  /-- A parameter list `( ... )`. -/
  params : P (List Node)
  /-- A binding target: a name or a pattern, without a default. -/
  target : P Node
  /-- A JSX element or fragment, at its `<`. -/
  jsx : P Node
  /-- A type, read and dropped. -/
  type : P Unit
  /-- A type, read and dropped, answering its shape. -/
  shapedType : P TypeShape

/-- The grammar beyond the last level: every parser fails. -/
def Grammar.exhausted : Grammar :=
  let deep {α : Type} : P α := do
    let t ← cur
    failAt "Unexpected token" t.start t.stop
  ⟨deep, deep, deep, deep, deep, deep, deep, deep, deep, deep, deep, deep⟩

end SignalSugar.Parse
