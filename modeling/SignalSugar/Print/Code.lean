import SignalSugar.Syntax.Node
import SignalSugar.Print.Number
import SignalSugar.Decimal.Read
import SignalSugar.Text.Quoted
import SignalSugar.Name.Stem
/-!
# Printing a module

`Node.print` writes a module back as code in one fixed layout: two spaces of indentation per
block level, one statement per line and a line break after every top-level statement,
strings in double quotes (`quote`), numbers by `Double.text`.

Parentheses are written only where binding strength asks for them: a subexpression whose
strength (`Node.strength`, 1 for a comma sequence up to 19 for a primary expression) is
below what its place asks for is put in parentheses. A few places ask for more:

* a statement that would start with `{`, `function` or `class` is put in parentheses, and
  so is an arrow body that would start with `{`;
* a finished optional chain in the place of an object, callee or tag keeps its parentheses,
  so `(a?.b).c` does not become `a?.b.c`;
* `??` never stands unparenthesized beside `||` or `&&`;
* a number literal as the object of a member access is put in parentheses.

Objects that hold a method are written over several lines, one member per line; a
declaration with more than one declarator puts each one after the first on its own
indented line.
-/

namespace SignalSugar

/-- Binding strength of an expression, from 1 (comma sequence) to 19 (primary). A chain has
the strength of the expression it bounds. -/
def Node.strength (n : Node) : Nat :=
  match n with
  | .mk _ _ _ k =>
    match k with
    | .seq .. => 1
    | .assign .. | .arrow .. | .yieldExpr .. => 2
    | .cond .. => 3
    | .logical op .. => op.strength
    | .binary op .. => op.strength
    | .privateIn .. => 10
    | .unary .. | .awaitExpr .. => 15
    | .update _ leading _ => if leading then 15 else 16
    | .call .. | .newExpr .. | .importCall .. | .tagged .. => 17
    | .member .. => 18
    | .chain e => e.strength
    | _ => 19
termination_by sizeOf n
decreasing_by simp; omega

/-- The node whose text starts the printed expression. -/
def Node.leftmost (n : Node) : Node :=
  match n with
  | .mk _ _ _ k =>
    match k with
    | .call c .. => c.leftmost
    | .member o .. => o.leftmost
    | .tagged t _ => t.leftmost
    | .chain e => e.leftmost
    | .binary _ l _ | .logical _ l _ | .assign _ l _ => l.leftmost
    | .cond t .. => t.leftmost
    | .update _ false a => a.leftmost
    | .seq (e :: _) => e.leftmost
    | _ => n
termination_by sizeOf n
decreasing_by all_goals (simp; omega)

/-- Whether the printed expression starts with `{`. -/
def Node.startsWithBrace (n : Node) : Bool :=
  match n.leftmost.kind with
  | .object .. | .objectPattern .. => true
  | _ => false

/-- Whether the printed expression starts with `{`, `function` or `class`, which cannot
open an expression statement. -/
def Node.startsLikeDeclaration (n : Node) : Bool :=
  n.startsWithBrace ||
    match n.leftmost.kind with
    | .funcExpr .. | .classExpr .. => true
    | _ => false

/-- Whether an operand starts with a prefix operator whose text starts with `sign`. -/
def Node.startsWithSign (n : Node) (sign : Char) : Bool :=
  match n.kind with
  | .unary op _ => op.text.startsWith (String.singleton sign)
  | .update op true _ => op.text.startsWith (String.singleton sign)
  | _ => false

/-- Whether a key text is the canonical text of a number: it reads as a number whose printed
text is the key itself (`1`, `0.5`, `-1`; not `01`, `1e3` or `.5`). -/
def isCanonicalNumber (key : String) : Bool :=
  match Double.readDecimal? key with
  | some d => d.text == key
  | none => false

/-- A module name: as it is if it is an identifier name, else quoted. -/
def moduleName (name : String) : String :=
  if Name.isIdentifier name then name else quote name

namespace Layout

/-- The line break and indentation of block level `ind`. -/
def newline (ind : Nat) : String := "\n" ++ String.ofList (List.replicate (2 * ind) ' ')

/-- A block at level `ind` of statements already printed at level `ind + 1`. -/
def block (ind : Nat) (items : List String) : String :=
  if items.isEmpty then "\x7b\x7d"
  else "\x7b" ++ String.join (items.map (newline (ind + 1) ++ ·)) ++ newline ind ++ "\x7d"

/-- Printed items joined by `sep`. -/
def joinWith (sep : String) (items : List String) : String := sep.intercalate items

/-- The text of an optional part, or nothing. -/
def opt (o : Option String) : String := o.getD ""

/-- Quasis with the printed expressions between them; expressions past the last quasi are
not written. -/
def interleave : List String → List String → String
  | [], _ => ""
  | q :: qs, e :: es => q ++ "$\x7b" ++ e ++ "\x7d" ++ interleave qs es
  | q :: qs, [] => q ++ interleave qs []

/-- An array or array pattern from its printed elements (`none` for a hole) and rest. -/
def array (elements : List (Option String)) (rest : Option String) : String :=
  let body := joinWith ", " (elements.map opt)
  let tail := match rest with
    | some r => (if elements.isEmpty then "" else ", ") ++ r
    | none => if elements.getLast? == some none then "," else ""
  "[" ++ body ++ tail ++ "]"

/-- An object or object pattern from its printed members at level `ind`. -/
def object (ind : Nat) (members : List String) (multiline : Bool) : String :=
  if members.isEmpty then "\x7b\x7d"
  else if multiline then
    "\x7b" ++ joinWith "," (members.map (newline (ind + 1) ++ ·)) ++ newline ind ++ "\x7d"
  else "\x7b " ++ joinWith ", " members ++ " \x7d"

/-- `async function* name(params) body`. -/
def function (flags : FunctionFlags) (name : Option String) (params : List String)
    (body : String) : String :=
  (if flags.isAsync then "async " else "") ++ "function" ++ (if flags.generator then "*" else "") ++
    opt (name.map (" " ++ ·)) ++ "(" ++ joinWith ", " params ++ ") " ++ body

/-- `async *get key(params) body`. -/
def method (flags : FunctionFlags) (kind : MethodKind) (key : String) (params : List String)
    (body : String) : String :=
  (if flags.isAsync then "async " else "") ++ (if flags.generator then "*" else "") ++
    (match kind with
      | .get => "get "
      | .set => "set "
      | _ => "") ++
    key ++ "(" ++ joinWith ", " params ++ ") " ++ body

/-- `class name extends super { members }` at level `ind`. -/
def classText (ind : Nat) (name superClass : Option String) (members : List String) : String :=
  "class" ++ opt (name.map (" " ++ ·)) ++ opt (superClass.map (" extends " ++ ·)) ++ " " ++
    block ind members

/-- An import declaration. -/
def importText (specs : List ImportSpec) (source : String) : String :=
  let parts := specs.filterMap fun
    | .default l => some l
    | .star l => some ("* as " ++ l)
    | .named .. => none
  let named := specs.filterMap fun
    | .named i l => some (if i == l then l else moduleName i ++ " as " ++ l)
    | _ => none
  let parts := if named.isEmpty then parts else parts ++ ["\x7b " ++ joinWith ", " named ++ " \x7d"]
  "import " ++ (if parts.isEmpty then "" else joinWith ", " parts ++ " from ") ++ quote source ++ ";"

/-- An export list. -/
def exportListText (specs : List ExportSpec) (source : Option String) : String :=
  let names := specs.map fun s =>
    if s.localName == s.exported then moduleName s.localName
    else moduleName s.localName ++ " as " ++ moduleName s.exported
  (if names.isEmpty then "export \x7b\x7d" else "export \x7b " ++ joinWith ", " names ++ " \x7d") ++
    opt (source.map (" from " ++ quote ·)) ++ ";"

end Layout

/-- Whether an object literal holds a method, which puts it over several lines. -/
def hasMethod (props : List Node) : Bool :=
  props.any fun p => match p.kind with
    | .objMethod .. => true
    | _ => false

/-- Whether a binding property's value binds the key's own name. -/
def bindsKey (key : Key) (value : Node) : Bool :=
  let target := match value.kind with
    | .assignPattern l _ => l
    | _ => value
  match key, target.kind with
  | .named k, .bindingIdent n | .named k, .ident n => k == n
  | _, _ => false

/-- Whether `??` and `||`/`&&` would mix unparenthesized. -/
def mixesNullish (parent : LogicalOp) (operand : Node) : Bool :=
  match operand.kind with
  | .logical op .. => (parent == .nullish) != (op == .nullish)
  | _ => false

/-- Whether a node is a finished optional chain. -/
def Node.isChain (n : Node) : Bool :=
  match n.kind with
  | .chain .. => true
  | _ => false

/-- Whether a node is a number literal. -/
def Node.isNumber (n : Node) : Bool :=
  match n.kind with
  | .num .. => true
  | _ => false

/-- Whether a unary operator is written as a word. -/
def UnaryOp.isWord (op : UnaryOp) : Bool := op.text.all Char.isAlpha

mutual

/-- The text of a node at block level `ind`, without parentheses around it. Statements and
expressions share it: a construct is written the same way wherever it stands. -/
def printNode (ind : Nat) (n : Node) : String :=
  match n with
  | .mk _ _ _ k =>
    match k with
    | .program body => String.join (body.attach.map fun ⟨c, _⟩ => printNode ind c ++ "\n")
    | .varDecl kind ds =>
      if ds.length > 1 then
        kind.text ++ " " ++
          Layout.joinWith ("," ++ Layout.newline (ind + 1))
            (ds.attach.map fun ⟨c, _⟩ => printNode (ind + 1) c) ++ ";"
      else kind.text ++ " " ++ Layout.joinWith ", " (ds.attach.map fun ⟨c, _⟩ => printNode ind c) ++ ";"
    | .declarator t i =>
      printExpr ind t 0 ++ Layout.opt (i.attach.map fun ⟨c, _⟩ => " = " ++ printExpr ind c 2)
    | .exprStmt e =>
      if e.startsLikeDeclaration then "(" ++ printExpr ind e 0 ++ ");" else printExpr ind e 0 ++ ";"
    | .returnStmt a =>
      "return" ++ Layout.opt (a.attach.map fun ⟨c, _⟩ => " " ++ printExpr ind c 0) ++ ";"
    | .block body => Layout.block ind (body.attach.map fun ⟨c, _⟩ => printNode (ind + 1) c)
    | .ifStmt t c a =>
      "if (" ++ printExpr ind t 0 ++ ") " ++ printNode ind c ++
        Layout.opt (a.attach.map fun ⟨x, _⟩ => " else " ++ printNode ind x)
    | .forStmt i t u b =>
      "for (" ++ Layout.opt (i.attach.map fun ⟨c, _⟩ => printLoopHead ind c) ++ ";" ++
        Layout.opt (t.attach.map fun ⟨c, _⟩ => " " ++ printExpr ind c 0) ++ ";" ++
        Layout.opt (u.attach.map fun ⟨c, _⟩ => " " ++ printExpr ind c 0) ++ ") " ++
        printNode ind b
    | .forIn l r b =>
      "for (" ++ printLoopHead ind l ++ " in " ++ printExpr ind r 0 ++ ") " ++ printNode ind b
    | .forOf l r b isAwait =>
      (if isAwait then "for await (" else "for (") ++ printLoopHead ind l ++ " of " ++
        printExpr ind r 2 ++ ") " ++ printNode ind b
    | .whileStmt t b => "while (" ++ printExpr ind t 0 ++ ") " ++ printNode ind b
    | .doWhile b t => "do " ++ printNode ind b ++ " while (" ++ printExpr ind t 0 ++ ");"
    | .breakStmt l => "break" ++ Layout.opt (l.map (" " ++ ·)) ++ ";"
    | .continueStmt l => "continue" ++ Layout.opt (l.map (" " ++ ·)) ++ ";"
    | .labeled l b => l ++ ": " ++ printNode ind b
    | .throwStmt a => "throw " ++ printExpr ind a 0 ++ ";"
    | .tryStmt b h f =>
      "try " ++ printNode ind b ++ Layout.opt (h.attach.map fun ⟨c, _⟩ => " " ++ printNode ind c) ++
        Layout.opt (f.attach.map fun ⟨c, _⟩ => " finally " ++ printNode ind c)
    | .catchClause p b =>
      "catch " ++ Layout.opt (p.attach.map fun ⟨c, _⟩ => "(" ++ printExpr ind c 0 ++ ") ") ++
        printNode ind b
    | .switchStmt d cs =>
      "switch (" ++ printExpr ind d 0 ++ ") " ++
        Layout.block ind (cs.attach.map fun ⟨c, _⟩ => printNode (ind + 1) c)
    | .switchCase t cs =>
      (match t.attach with
        | some ⟨c, _⟩ => "case " ++ printExpr ind c 0 ++ ":"
        | none => "default:") ++
        String.join (cs.attach.map fun ⟨c, _⟩ => Layout.newline (ind + 1) ++ printNode (ind + 1) c)
    | .debugger => "debugger;"
    | .empty => ";"
    | .funcDecl i ps b flags =>
      Layout.function flags (i.attach.map fun ⟨c, _⟩ => printExpr ind c 0)
        (ps.attach.map fun ⟨c, _⟩ => printExpr ind c 2) (printNode ind b)
    | .classDecl i s b =>
      Layout.classText ind (i.attach.map fun ⟨c, _⟩ => printExpr ind c 0)
        (s.attach.map fun ⟨c, _⟩ => printExpr ind c 17)
        (b.attach.map fun ⟨c, _⟩ => printNode (ind + 1) c)
    | .importDecl specs source => Layout.importText specs source
    | .exportDecl d => "export " ++ printNode ind d
    | .exportList specs source => Layout.exportListText specs source
    | .exportAll e source =>
      "export *" ++ Layout.opt (e.map (" as " ++ moduleName ·)) ++ " from " ++ quote source ++ ";"
    | .exportDefault d =>
      match d.kind with
      | .funcDecl .. | .classDecl .. => "export default " ++ printNode ind d
      | .funcExpr .. | .classExpr .. => "export default " ++ printExpr ind d 2 ++ ";"
      | _ =>
        if d.startsLikeDeclaration then "export default (" ++ printExpr ind d 2 ++ ");"
        else "export default " ++ printExpr ind d 2 ++ ";"
    | .classMethod kind key isStatic ps b flags =>
      (if isStatic then "static " else "") ++
        Layout.method flags kind (printKey ind key) (ps.attach.map fun ⟨c, _⟩ => printExpr ind c 2)
          (printNode ind b)
    | .classProperty key v isStatic accessor =>
      (if isStatic then "static " else "") ++ (if accessor then "accessor " else "") ++
        printKey ind key ++ Layout.opt (v.attach.map fun ⟨c, _⟩ => " = " ++ printExpr ind c 2) ++ ";"
    | .staticBlock body =>
      "static " ++ Layout.block ind (body.attach.map fun ⟨c, _⟩ => printNode (ind + 1) c)
    | .ident name | .bindingIdent name => name
    | .num v => v.text
    | .str v => quote v
    | .bool v => if v then "true" else "false"
    | .nullLit => "null"
    | .regex raw | .bigint raw | .jsxText raw => raw
    | .thisExpr => "this"
    | .superExpr => "super"
    | .metaProp o p => o ++ "." ++ p
    | .template quasis es =>
      "`" ++ Layout.interleave quasis (es.attach.map fun ⟨c, _⟩ => printExpr ind c 0) ++ "`"
    | .tagged t q =>
      (if t.isChain then "(" ++ printExpr ind t 0 ++ ")" else printExpr ind t 17) ++
        printExpr ind q 0
    | .array es =>
      Layout.array (es.attach.map fun ⟨o, _⟩ => match o with
        | some c => some (printExpr ind c 2)
        | none => none) none
    | .object ps =>
      if hasMethod ps then
        Layout.object ind (ps.attach.map fun ⟨c, _⟩ => printExpr (ind + 1) c 2) true
      else Layout.object ind (ps.attach.map fun ⟨c, _⟩ => printExpr ind c 2) false
    | .property key v shorthand =>
      let short := shorthand && match key, v.kind with
        | .named k, .ident name => k == name
        | _, _ => false
      if short then printExpr ind v 0 else printKey ind key ++ ": " ++ printExpr ind v 2
    | .objMethod kind key ps b flags =>
      Layout.method flags kind (printKey ind key) (ps.attach.map fun ⟨c, _⟩ => printExpr ind c 2)
        (printNode ind b)
    | .spread a | .rest a => "..." ++ printExpr ind a 2
    | .call c args optional =>
      (if c.isChain then "(" ++ printExpr ind c 0 ++ ")" else printExpr ind c 17) ++
        (if optional then "?." else "") ++ "(" ++
        Layout.joinWith ", " (args.attach.map fun ⟨x, _⟩ => printExpr ind x 2) ++ ")"
    | .newExpr c args =>
      "new " ++ (if c.isChain then "(" ++ printExpr ind c 0 ++ ")" else printExpr ind c 18) ++ "(" ++
        Layout.joinWith ", " (args.attach.map fun ⟨x, _⟩ => printExpr ind x 2) ++ ")"
    | .importCall s o =>
      "import(" ++ printExpr ind s 2 ++ Layout.opt (o.attach.map fun ⟨c, _⟩ => ", " ++ printExpr ind c 2) ++
        ")"
    | .member o p optional =>
      let objectText :=
        if o.isNumber then "(" ++ printExpr ind o 0 ++ ")"
        else if o.isChain then "(" ++ printExpr ind o 0 ++ ")"
        else printExpr ind o 17
      let dot := if optional then "" else "."
      objectText ++ (if optional then "?." else "") ++
        match p with
        | .named name => if Name.isIdentifier name then dot ++ name else "[" ++ quote name ++ "]"
        | .computed e => "[" ++ printExpr ind e 0 ++ "]"
        | .privateName name => dot ++ "#" ++ name
    | .chain e => printNode ind e
    | .arrow ps b expression isAsync =>
      let paramsText := match ps.attach with
        | [⟨single, _⟩] =>
          match single.kind with
          | .bindingIdent _ => printExpr ind single 0
          | _ => "(" ++ printExpr ind single 2 ++ ")"
        | all => "(" ++ Layout.joinWith ", " (all.map fun ⟨c, _⟩ => printExpr ind c 2) ++ ")"
      (if isAsync then "async " else "") ++ paramsText ++ " => " ++
        if !expression then printNode ind b
        else if b.startsWithBrace then "(" ++ printExpr ind b 0 ++ ")"
        else printExpr ind b 2
    | .funcExpr i ps b flags =>
      Layout.function flags (i.attach.map fun ⟨c, _⟩ => printExpr ind c 0)
        (ps.attach.map fun ⟨c, _⟩ => printExpr ind c 2) (printNode ind b)
    | .classExpr i s b =>
      Layout.classText ind (i.attach.map fun ⟨c, _⟩ => printExpr ind c 0)
        (s.attach.map fun ⟨c, _⟩ => printExpr ind c 17)
        (b.attach.map fun ⟨c, _⟩ => printNode (ind + 1) c)
    | .unary op a =>
      let space := op.isWord || match op.text.toList with
        | sign :: _ => a.startsWithSign sign
        | [] => false
      op.text ++ (if space then " " else "") ++ printExpr ind a 15
    | .awaitExpr a => "await " ++ printExpr ind a 15
    | .yieldExpr a delegate =>
      (if delegate then "yield*" else "yield") ++
        Layout.opt (a.attach.map fun ⟨c, _⟩ => " " ++ printExpr ind c 2)
    | .update op leading a =>
      if leading then op.text ++ printExpr ind a 15 else printExpr ind a 16 ++ op.text
    | .binary op l r =>
      let s := op.strength
      let leftMin := if op == .pow then 16 else s
      let rightMin := if op == .pow then s else s + 1
      printExpr ind l leftMin ++ " " ++ op.text ++ " " ++ printExpr ind r rightMin
    | .privateIn name r => "#" ++ name ++ " in " ++ printExpr ind r 11
    | .logical op l r =>
      let s := op.strength
      (if mixesNullish op l then "(" ++ printExpr ind l 0 ++ ")" else printExpr ind l s) ++ " " ++
        op.text ++ " " ++
        (if mixesNullish op r then "(" ++ printExpr ind r 0 ++ ")" else printExpr ind r (s + 1))
    | .assign op l r => printExpr ind l 18 ++ " " ++ op.text ++ " " ++ printExpr ind r 2
    | .assignPattern l r => printExpr ind l 0 ++ " = " ++ printExpr ind r 2
    | .cond t c a =>
      printExpr ind t 4 ++ " ? " ++ printExpr ind c 2 ++ " : " ++ printExpr ind a 2
    | .seq es => Layout.joinWith ", " (es.attach.map fun ⟨c, _⟩ => printExpr ind c 2)
    | .jsxElement name attrs children selfClosing =>
      "<" ++ name ++ String.join (attrs.attach.map fun ⟨c, _⟩ => " " ++ printNode ind c) ++
        if selfClosing then " />"
        else ">" ++ String.join (children.attach.map fun ⟨c, _⟩ => printNode ind c) ++ "</" ++
          name ++ ">"
    | .jsxFragment children =>
      "<>" ++ String.join (children.attach.map fun ⟨c, _⟩ => printNode ind c) ++ "</>"
    | .jsxAttr name v => name ++ Layout.opt (v.attach.map fun ⟨c, _⟩ => "=" ++ printNode ind c)
    | .jsxSpreadAttr a => "\x7b..." ++ printExpr ind a 2 ++ "\x7d"
    | .jsxContainer e => "\x7b" ++ Layout.opt (e.attach.map fun ⟨c, _⟩ => printExpr ind c 0) ++ "\x7d"
    | .jsxSpreadChild e => "\x7b..." ++ printExpr ind e 2 ++ "\x7d"
    | .objectPattern ps r =>
      Layout.object ind (ps.attach.map (fun ⟨c, _⟩ => printExpr ind c 2) ++
        (r.attach.map fun ⟨c, _⟩ => printExpr ind c 2).toList) false
    | .bindingProperty key v shorthand =>
      if shorthand && bindsKey key v then printExpr ind v 2
      else printKey ind key ++ ": " ++ printExpr ind v 2
    | .arrayPattern es r =>
      Layout.array (es.attach.map fun ⟨o, _⟩ => match o with
        | some c => some (printExpr ind c 2)
        | none => none) (r.attach.map fun ⟨c, _⟩ => printExpr ind c 2)
termination_by (sizeOf n, 0)
decreasing_by
  all_goals first
    | (apply Prod.Lex.left; simp; omega)
    | (apply Prod.Lex.left; have := List.sizeOf_lt_of_mem ‹_›; simp at *; omega)
    | (apply Prod.Lex.left; simp at *; omega)
    | (apply Prod.Lex.left; subst_vars; simp at *; omega)

/-- The text of an expression in a place that asks for binding strength `min` at least. -/
def printExpr (ind : Nat) (n : Node) (min : Nat) : String :=
  if n.strength < min then "(" ++ printNode ind n ++ ")" else printNode ind n
termination_by (sizeOf n, 1)
decreasing_by all_goals (apply Prod.Lex.right; omega)

/-- The head of a `for` loop: a declaration with its declarators on one line, or an
expression. -/
def printLoopHead (ind : Nat) (n : Node) : String :=
  match n with
  | .mk i s o k =>
    match k with
    | .varDecl kind ds =>
      kind.text ++ " " ++ Layout.joinWith ", " (ds.attach.map fun ⟨c, _⟩ => printNode ind c)
    | k => printExpr ind (.mk i s o k) 2
termination_by (sizeOf n, 2)
decreasing_by
  all_goals first
    | (apply Prod.Lex.left; have := List.sizeOf_lt_of_mem ‹_›; simp at *; omega)
    | (apply Prod.Lex.right; all_goals omega)

/-- The text of a key: a plain name or canonical number as it is, other names quoted,
computed keys in brackets, private names with `#`. -/
def printKey (ind : Nat) (key : Key) : String :=
  match key with
  | .named name =>
    if Name.isIdentifier name || isCanonicalNumber name then name else quote name
  | .computed e => "[" ++ printExpr ind e 2 ++ "]"
  | .privateName name => "#" ++ name
termination_by (sizeOf key, 3)
decreasing_by apply Prod.Lex.left; simp

end

/-- The code of a module. -/
def Node.print (root : Node) : String :=
  match root.kind with
  | .program _ => printNode 0 root
  | _ => printNode 0 root ++ "\n"

end SignalSugar
