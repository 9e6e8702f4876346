import SignalSugar.Syntax.Parse.Statement
/-!
# Reading a module

`Grammar.step` builds one nesting level of the grammar from the level below, and
`Grammar.atDepth` stacks as many levels as the input can need: every level of nesting
consumes at least one token, and a token is at least one character, so a few levels per
character are always enough.

`parseModule` reads a whole module. The answer is the program, whether some call has a bare
label callee, and the first construct the rewriter does not take. A syntax error wins over
all of that: the first of the scanner's errors, then the recoverable ones, then the one that
stopped parsing; but outside TypeScript, when the first comment mentions "@flow", the error
is that Flow is not supported, over that comment. A module that parses may still hold a
shorthand default `{ a = 1 }` that no pattern took, and last (outside TypeScript) a name
exported twice, reported where it was first exported.
-/

namespace SignalSugar.Parse

/-- One more nesting level on top of `g`. -/
def Grammar.step (g : Grammar) : Grammar where
  expression := parseExpression g
  assignment := parseAssignment g
  unary := parseUnary g
  leftHandSide := parseLeftHandSide g
  decorator := parseDecoratorExpression g
  statement := parseStatement g
  functionBody := parseFunctionBody g
  params := parseParams g
  target := parseTarget g
  jsx := parseJsx g
  type := do discard (skipType g)
  shapedType := skipType g

/-- `n` nesting levels. -/
def Grammar.atDepth (n : Nat) : Grammar := go n Grammar.exhausted
where
  /-- Adds `k` levels on top of `g`. -/
  go : Nat → Grammar → Grammar
    | 0, g => g
    | k + 1, g => go k g.step

/-- Reads the whole program. -/
def parseProgramBody (g : Grammar) : P (List Node) := do
  let body ← parseStatements g true
  if (← cur).kind != .eof then unexpected
  return body

/-- The first name exported twice, with the span of its first export. -/
def firstDuplicate : List (String × Span) → List (String × Span) → Option (String × Span)
  | _, [] => none
  | seen, (x, s) :: rest =>
    match seen.find? (fun e => e.1 == x) with
    | some first => some (x, first.2)
    | none => firstDuplicate (seen ++ [(x, s)]) rest

/-- The first, in source order, of the shorthand defaults that no pattern took. -/
def firstCoverInit (entries : List (Nat × Nat × Nat)) : Option (Nat × Nat) :=
  entries.foldl (fun best (_, a, b) =>
    match best with
    | some (a', _) => if a < a' then some (a, b) else best
    | none => some (a, b)) none

/-- Where the code starts after a leading `#!` line. -/
def afterHashbang (src : Source) : Nat :=
  if src.startsWithAt 0 "#!" then
    ((List.range src.size).find? fun i => CharClass.isLineTerminator (src.get i)).getD src.size
  else 0

/-- The first comment of a module that does not parse, when it marks the module as written
for the Flow type checker, whose syntax is not read: outside TypeScript, a first comment
that mentions "@flow". -/
def flowComment (src : Source) (typescript : Bool) (comment : Option (Nat × Nat)) :
    Option (Nat × Nat) :=
  match comment with
  | some (a, b) =>
    if !typescript && (List.range (b - a)).any (fun k => src.startsWithAt (a + k) "@flow") then
      some (a, b)
    else none
  | none => none

end SignalSugar.Parse

namespace SignalSugar

/-- A module as read. -/
structure Parsed where
  /-- The program node. -/
  root : Node
  /-- Whether some call has `$signal` or `$destructure` as its bare callee. -/
  sawLabel : Bool
  /-- The first construct, in source order, that the rewriter does not take. -/
  unsupported : Option RewriteError

open Parse in
/-- Reads a module as TypeScript or not, with JSX or not. -/
def parseModule (text : String) (typescript jsx : Bool) : Except RewriteError Parsed :=
  let src := Source.ofString text
  let cfg : Config := { src := src, typescript := typescript, jsx := jsx }
  let begin := afterHashbang src
  let tok := Scan.next src begin
  let init : State :=
    { tok := tok, prevEnd := begin, nextId := 1, ctx := {}, sawLabel := false,
      deferred := none, errors := [], scanErrors := tok.errors.reverse, exports := [],
      parens := [], restCommas := [], coverInits := [],
      firstComment := Scan.firstComment src begin tok.start }
  let g := Grammar.atDepth (4 * (src.size + 2))
  let toError (comment : Option (Nat × Nat)) (d : Diagnostic) : RewriteError :=
    match flowComment src typescript comment with
    | some (a, b) => .parse "Flow is not supported" (src.spanOf a b)
    | none => .parse d.message (src.spanOf d.start d.stop)
  match ((parseProgramBody g).run cfg).run init with
  | .error f => .error (toError f.comment f.first)
  | .ok (body, s) =>
    let scanned := s.scanErrors.reverse.map fun e => (⟨e.message, e.start, e.stop⟩ : Diagnostic)
    let leftover := (firstCoverInit s.coverInits).toList.map fun (a, b) =>
      (⟨"Invalid assignment in object literal", a, b⟩ : Diagnostic)
    match scanned ++ s.errors.reverse ++ leftover with
    | d :: _ => .error (toError s.firstComment d)
    | [] =>
      let dup := if typescript then none else firstDuplicate [] s.exports.reverse
      match dup with
      | some ("default", span) => .error (.parse "A module cannot have multiple default exports." span)
      | some (x, span) => .error (.parse ("Duplicated export '" ++ x ++ "'") span)
      | none =>
        let root := Node.mk s.nextId ⟨0, text.utf8ByteSize⟩ none (.program body)
        .ok { root := root, sawLabel := s.sawLabel, unsupported := s.deferred }

end SignalSugar
