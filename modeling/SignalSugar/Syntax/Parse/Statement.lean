import SignalSugar.Syntax.Parse.Expression
/-!
# Statements and module items

One level of the statement grammar: blocks, control flow, declarations, imports and
exports.

A statement is read as an `Item`: a node, or a construct that exists only at the type level
(type aliases, interfaces, overload signatures, `declare` forms, type-only imports and
exports) and leaves nothing behind. A dropped statement in a nested position (the body of an
`if`, say) leaves an empty statement over its characters. Whatever a dropped construct held
is forgotten, errors included.

Enums, namespaces, `import x = …`, `export = …` and `with` statements are read in full and
then refused as unsupported constructs; their own error takes the place of anything found
inside them.

At the head of a program or function body, expression statements that are exactly a string
literal form the directive prologue; a directive keeps its text as written between the
quotes.
-/

namespace SignalSugar.Parse

variable (g : Grammar)

/-- Runs a statement reader; a statement that leaves nothing forgets what it found. -/
def droppingErrors (p : P Item) : P Item := do
  let saved := (← get).deferred
  let item ← p
  match item with
  | .dropped .. => modify fun s => { s with deferred := saved }
  | .node _ => pure ()
  return item

/-- Reads a statement that stands alone (the body of an `if`, a loop, a `with` or a label): a
dropped one leaves an empty statement. -/
def parseNested : P Node := do
  match ← withContext (fun c => { c with single := true }) g.statement with
  | .node n => return n
  | .dropped a b => node a b .empty

/-- A directive read from the statement that started with token `t`, if it is one. -/
def directiveOf (t : Token) (n : Node) : P (Option Node) := do
  match t.kind, n.kind with
  | .string _, .exprStmt e =>
    match e.kind with
    | .str _ =>
      let raw ← slice (t.start + 1) (t.stop - 1)
      return some (n.withKind (.exprStmt (e.withKind (.str raw))))
    | _ => return none
  | _, _ => return none

/-- Reads statements up to a `}` or the end of the input. With `directives`, the leading
string statements are read as directives. -/
def parseStatements (directives : Bool) : P (List Node) :=
  loop (([] : List Node), directives) fun (acc, expecting) => do
    let t ← cur
    if t.isPunct "\x7d" || t.kind == .eof then return .done acc.reverse
    match ← g.statement with
    | .dropped _ _ => return .more (acc, false)
    | .node n =>
      if expecting then
        match ← directiveOf t n with
        | some d => return .more (d :: acc, true)
        | none => return .more (n :: acc, false)
      else return .more (n :: acc, false)

/-- Reads a block `{ … }`. -/
def parseBlock : P Node := do
  let start := (← cur).start
  expectPunct "\x7b"
  let body ← closedByBrace do
    let body ← parseStatements g false
    expectPunct "\x7d"
    pure body
  finish start (.block body)

/-- Reads a function body `{ … }`, directives included. -/
def parseFunctionBody : P Node := do
  let start := (← cur).start
  expectPunct "\x7b"
  let body ← closedByBrace do
    let body ← parseStatements g true
    expectPunct "\x7d"
    pure body
  finish start (.block body)

/-- A declarator as read: the node, the characters of its target, and whether it was
marked definite (`x!: T`). -/
structure ReadDeclarator where
  node : Node
  start : Nat
  stop : Nat
  definite : Bool

/-- Reads the declarators of a declaration after its keyword. -/
def parseDeclarators : P (List ReadDeclarator) :=
  loop ([] : List ReadDeclarator) fun acc => do
    let t ← cur
    let target ← g.target
    let stop := (← get).prevEnd
    let ts := (← config).typescript
    let bang ← cur
    let definite ← if ts && target.kind matches .bindingIdent _ && bang.isPunct "!" &&
        !bang.newlineBefore then advance; pure true
      else pure false
    let q ← cur
    if ts && q.isPunct "?" then
      report "Optional declaration is not allowed here" q.start q.stop
      advance
    let typed ← atPunct ":"
    if ts then skipAnnotation g
    let init ← if ← eatPunct "=" then some <$> g.assignment else pure none
    if definite && init.isSome then
      report "Declarations with initializers cannot also have definite assignment assertions."
        bang.start bang.stop
    else if definite && !typed then
      report "Declarations with definite assignment assertions must also have type annotations."
        bang.start bang.stop
    let d ← finish t.start (.declarator target init)
    let acc := ⟨d, t.start, stop, definite⟩ :: acc
    if ← eatPunct "," then return .more acc
    return .done acc.reverse

/-- Reports a declarator without an initializer where one is required: a `const` name, or
any destructuring pattern. -/
def checkInitializer (isConst : Bool) (d : ReadDeclarator) : P Unit := do
  if (← context).ambient || d.definite then return
  match d.node.kind with
  | .declarator target none =>
    match target.kind with
    | .bindingIdent _ =>
      if isConst then report "Missing initializer in const declaration" d.start d.stop
    | _ => report "Missing initializer in destructuring declaration" d.start d.stop
  | _ => pure ()

/-- The kind of a declaration keyword at the current token, with the number of tokens it
takes (`await using` takes two); `using` declarations have no kind. -/
def declarationHere : P (Option (Option DeclKind × Nat)) := do
  let t ← cur
  let n ← peek
  if t.isWord "var" then return some (some .var, 1)
  if t.isWord "const" then return some (some .const, 1)
  if t.isWord "let" && (n.isIdentifier || n.isPunct "[" || n.isPunct "\x7b") then
    return some (some .let, 1)
  if t.isWord "using" && n.isIdentifier && !n.newlineBefore && !n.isWord "in" &&
      !n.isWord "of" then
    return some (none, 1)
  if t.isWord "await" && n.isWord "using" && !n.newlineBefore then
    let n2 ← peek2
    if n2.isIdentifier && !n2.newlineBefore then return some (none, 2)
  return none

/-- Reads a declaration whose keyword is at the current token; in a `for` head no
semicolon ends it and its initializers are checked by the caller. -/
def parseDeclaration (kind : Option DeclKind) (keywords : Nat) (forHead : Bool) :
    P (Node × List ReadDeclarator) := do
  let start := (← cur).start
  claiming do
    for _ in List.range keywords do advance
    let ds ← parseDeclarators g
    for d in ds do
      if kind.isNone then
        if let .declarator target _ := d.node.kind then
          if !(target.kind matches .bindingIdent _) then
            report "Using declarations may not have binding patterns." d.start d.stop
      if !forHead then
        if kind.isSome then checkInitializer (kind matches some .const) d
        else if d.node.kind matches .declarator _ none then
          report "Using declarations must have an initializer." d.start d.stop
    if !forHead then semicolon
    let n ← finish start (.varDecl (kind.getD .const) (ds.map ReadDeclarator.node))
    match kind with
    | some _ => return ((n, ds), none)
    | none => return ((n, ds), some (← unsupportedError "using declaration" start (← get).prevEnd))

/-- Reports `for await` heading a loop other than `for...of`, which started at `start`. -/
def forAwaitError (start : Nat) : P Unit := do
  report "await can only be used in conjunction with `for...of` statements" start
    (← get).prevEnd

/-- Reads the rest of a `for` statement after `for`. -/
def parseFor (start : Nat) : P Node := do
  advance
  let awaitTok ← cur
  let isAwait ← eatWord "await"
  if isAwait && !(← awaitAllowed) then
    report "`await` is only allowed within async functions and at the top levels of modules"
      awaitTok.start awaitTok.stop
  expectPunct "("
  let headToken ← cur
  let asyncOf := !isAwait && headToken.kind == .word "async" false && (← peek).isWord "of"
  let head ← do
    if ← atPunct ";" then pure none
    else
      match ← declarationHere with
      | some (kind, n) =>
        let (d, ds) ← withContext (fun c => { c with noIn := true }) (parseDeclaration g kind n true)
        pure (some (Sum.inl (d, kind, ds)))
      | none =>
        let e ← withContext (fun c => { c with noIn := true }) g.expression
        pure (some (Sum.inr e))
  let headEnd := (← get).prevEnd
  let t ← cur
  if t.isWord "of" || t.isWord "in" then
    let left ← match head with
      | some (.inl (d, kind, _)) =>
        if t.isWord "in" && kind.isNone then
          let w := if headToken.isWord "await" then "an await using" else "an using"
          report ("The left-hand side of a for...in statement cannot be " ++ w ++ " declaration.")
            headToken.start headEnd
        pure d
      | some (.inr e) =>
        if t.isWord "of" && asyncOf then
          report "The left-hand side of a `for...of` statement may not be `async`"
            headToken.start headEnd
        if t.isWord "of" && headToken.isWord "let" then
          report "The left-hand side of a `for...of` statement may not start with `let`"
            headToken.start headEnd
        targetOf e
      | none => unexpected
    advance
    let right ← if t.isWord "of" then bracketed g.assignment else bracketed g.expression
    expectPunct ")"
    if isAwait && !t.isWord "of" then forAwaitError start
    let body ← parseNested g
    if t.isWord "of" then finish start (.forOf left right body isAwait)
    else finish start (.forIn left right body)
  else
    let init ← match head with
      | some (.inl (d, kind, ds)) =>
        for r in ds do checkInitializer (kind matches some .const) r
        pure (some d)
      | some (.inr e) => pure (some e)
      | none => pure none
    expectPunct ";"
    let test ← if ← atPunct ";" then pure none else some <$> bracketed g.expression
    expectPunct ";"
    let update ← if ← atPunct ")" then pure none else some <$> bracketed g.expression
    expectPunct ")"
    if isAwait then forAwaitError start
    let body ← parseNested g
    finish start (.forStmt init test update body)

/-- Reads a parenthesized condition `( expression )`. -/
def parseCondition : P Node := do
  expectPunct "("
  let e ← bracketed g.expression
  expectPunct ")"
  return e

/-- Reads the optional label of `break` or `continue`. -/
def parseJumpLabel : P (Option String) := do
  let t ← cur
  if !t.newlineBefore && t.isIdentifier then
    advanceName
    return t.name?
  return none

/-- Reads a `try` statement after `try`. -/
def parseTry (start : Nat) : P Node := do
  advance
  let block ← parseBlock g
  let handler ← if ← atWord "catch" then do
      let c ← cur
      advance
      let param ← if ← eatPunct "(" then do
          let p ← g.target
          if (← config).typescript then skipAnnotation g
          expectPunct ")"
          pure (some p)
        else pure none
      let body ← parseBlock g
      some <$> finish c.start (.catchClause param body)
    else pure none
  let finalizer ← if ← eatWord "finally" then some <$> parseBlock g else pure none
  if handler.isNone && finalizer.isNone then
    let e := (← get).prevEnd
    failAt "Missing catch or finally clause" e e
  finish start (.tryStmt block handler finalizer)

/-- Reads a `switch` statement after `switch`. A `using` declaration may not stand directly
in a clause, outside a block. -/
def parseSwitch (start : Nat) : P Node := do
  advance
  let disc ← parseCondition g
  expectPunct "\x7b"
  let cases ← loop ([] : List Node) fun acc => do
    let c ← cur
    if ← listEnds "\x7d" then return .done acc.reverse
    let test ← if ← eatWord "case" then some <$> bracketed g.expression
      else if ← eatWord "default" then pure none
      else failAt "Expected switch clause" c.start c.stop
    expectPunct ":"
    let body ← loop ([] : List Node) fun body => do
      let t ← cur
      if t.isPunct "\x7d" || t.isWord "case" || t.isWord "default" || t.kind == .eof then
        return .done body.reverse
      let isUsing := (← declarationHere) matches some (none, _)
      let item ← g.statement
      if isUsing then
        report "Using declaration cannot appear in the bare case statement." t.start
          (← get).prevEnd
      match item with
      | .node n => return .more (n :: body)
      | .dropped _ _ => return .more body
    let n ← finish c.start (.switchCase test body)
    return .more (n :: acc)
  finish start (.switchStmt disc cases)

/-- Reads a function declaration at `function` (its `async` started at `start`). A
signature without a body is dropped. -/
def parseFunctionDecl (start : Nat) (isAsync needsName single : Bool) : P Item := do
  expectWord "function"
  let f ← parseFunctionTail g isAsync needsName (some start)
  if single then
    if f.flags.isAsync then
      report "Async functions can only be declared at the top level or inside a block" start
        f.paramsEnd
    else if f.flags.generator then
      report "Generators can only be declared at the top level or inside a block" start
        f.paramsEnd
  match f.body with
  | some b => return .node (← finish start (.funcDecl f.name f.params b f.flags))
  | none => return .dropped start (← get).prevEnd

/-- Reads a class declaration at `class`; `decorator` is the range of its first decorator. A
class declaration standing alone (`single`) is an error. -/
def parseClassDecl (start : Nat) (decorator : Option (Nat × Nat)) (single : Bool) :
    P Node :=
  claiming do
    expectWord "class"
    let parts ← parseClassTail g
    let n ← finish start (.classDecl parts.name parts.superClass parts.members)
    if single then report "Invalid class declaration" start parts.bodyStart
    let own ← match decorator with
      | some (a, b) => some <$> unsupportedError "decorator" a b
      | none => pure none
    return (n, own)

/-- Reads decorators, answering the range of the first. -/
def parseDecorators : P (Option (Nat × Nat)) :=
  loop (none : Option (Nat × Nat)) fun first => do
    if ← atPunct "@" then
      let d ← cur
      parseDecorator g
      let stop := (← get).prevEnd
      return .more (first.orElse fun _ => some (d.start, stop))
    return .done first

/-- Reads a type alias after `type`. -/
def parseTypeAlias : P Unit := do
  advance
  discard parseBindingName
  if ← atPunct "<" then skipTypeParams g
  expectPunct "="
  g.type
  semicolon

/-- Reads an interface after `interface`. What it extends is read as an expression with type
arguments, and must be a name or a qualified name. -/
def parseInterface : P Unit := do
  advance
  discard parseBindingName
  if ← atPunct "<" then skipTypeParams g
  discard (forgetting (parseHeritageClauses g true))
  expectPunct "\x7b"
  skipTypeMembers g

/-- Reads an enum after `enum`. A member is named by a name or a string; a computed name must
be a string or a template without substitutions, and a number cannot name a member. -/
def parseEnumBody : P Unit := do
  advance
  discard parseBindingName
  expectPunct "\x7b"
  loop () fun _ => do
    if ← listEnds "\x7d" then return .done ()
    let t ← cur
    match t.kind with
    | .word .. | .string _ => advance
    | .number .. | .bigint _ =>
      report "An enum member cannot have a numeric name." t.start t.stop
      advance
    | .punct "[" =>
      advance
      let inner ← cur
      let e ← bracketed g.assignment
      if !(e.kind matches .str _ | .template [_] []) then
        report "Computed property names are not allowed in enums." inner.start (← get).prevEnd
      expectPunct "]"
    | _ => unexpected
    if ← eatPunct "=" then discard (bracketed g.assignment)
    if ← afterListItem "\x7d" then return .done ()
    return .more ()

/-- Reads a namespace or module declaration after its keyword. -/
def parseNamespaceBody : P Unit := do
  advance
  let t ← cur
  match t.kind with
  | .string _ => advance
  | _ =>
    discard parseBindingName
    loop () fun _ => do
      if ← eatPunct "." then
        discard parseBindingName
        return .more ()
      return .done ()
  if ← atPunct "\x7b" then
    advance
    discard (parseStatements g false)
    expectPunct "\x7d"
  else semicolon

/-- Reads `import x = …` after the name, at `=`. -/
def parseImportEquals : P Unit := do
  expectPunct "="
  let t ← cur
  if t.isWord "require" && (← peek).isPunct "(" then
    advance; advance
    let s ← cur
    match s.kind with
    | .string _ => advance
    | _ => unexpected
    expectPunct ")"
  else skipEntityName
  semicolon

/-- Reads a module name: a string literal. -/
def parseModuleName : P String := do
  let t ← cur
  match t.kind with
  | .string v => advance; return v
  | _ => unexpected

/-- Reads import attributes `with { … }`, if present. -/
def skipAttributes : P Unit := do
  let t ← cur
  if (t.isWord "with" || (t.isWord "assert" && !t.newlineBefore)) then
    advance
    expectPunct "\x7b"
    discard <| loop ([] : List (String × Nat × Nat)) fun seen => do
      if ← listEnds "\x7d" then return .done ()
      let k ← cur
      let key ← match k.kind with
        | .word w _ => advance; pure w
        | .string v => advance; pure v
        | _ => unexpected
      expectPunct ":"
      let v ← cur
      if !(v.kind matches .string _) then
        failAt "Only string literals are allowed as module attribute values." v.start v.stop
      advance
      if let some (_, a, b) := seen.find? (·.1 == key) then
        report ("Identifier `" ++ key ++ "` has already been declared") a b
      if ← afterListItem "\x7d" then return .done ()
      return .more ((key, k.start, k.stop) :: seen)

/-- Whether a string value spells, after a backslash, `u` and four hexadecimal digits that
name a surrogate: an export name holding such text counts as one that holds a surrogate
standing alone. A backslash and the character after it are passed over together. -/
def spellsSurrogateEscape : List Char → Bool
  | '\\' :: 'u' :: rest =>
    let named := match rest.take 4 with
      | [a, b, c, d] =>
        match CharClass.hexValue? a, CharClass.hexValue? b, CharClass.hexValue? c,
            CharClass.hexValue? d with
        | some w, some x, some y, some z =>
          let v := ((w * 16 + x) * 16 + y) * 16 + z
          0xD800 ≤ v && v ≤ 0xDFFF
        | _, _, _, _ => false
      | _ => false
    named || spellsSurrogateEscape rest
  | '\\' :: _ :: rest => spellsSurrogateEscape rest
  | _ :: rest => spellsSurrogateEscape rest
  | [] => false

/-- Reads an exported or imported name: an identifier name or a string, which may not hold
a surrogate standing alone, nor spell the escape of one. -/
def parseModuleExportName : P (String × Nat × Nat) := do
  let t ← cur
  match t.kind with
  | .word w _ => advanceName; return (w, t.start, t.stop)
  | .string v =>
    if Scan.hasLoneSurrogate (← source) (t.start + 1) (t.stop - 1) ||
        spellsSurrogateEscape v.toList then
      report "An export name cannot include a unicode lone surrogate" t.start t.stop
    advance
    return (v, t.start, t.stop)
  | _ => unexpected

/-- Whether `type` at the current token begins a type-only specifier: `type as` names `as`,
`type as x` and `type as as` rename `type`, and `type as as x` names `as`, renamed. -/
def typeModifierHere : P Bool := do
  let t ← cur
  if !(← config).typescript || !t.isWord "type" then return false
  let n ← peek
  if n.isPunct "," || n.isPunct "\x7d" then return false
  if n.isWord "as" then
    let n2 ← peek2
    if n2.isWord "as" then return (Scan.next (← source) n2.stop).isName
    return !n2.isName
  return n.isName || (n.kind matches .string _)

/-- Reads the named specifiers of an import `{ … }`; type-only ones are left out. In an
`import type` declaration (`typeOnly`) a specifier may not be marked `type` again. -/
def parseImportSpecifiers (typeOnly : Bool) : P (List ImportSpec × Nat) := do
  expectPunct "\x7b"
  loop (([] : List ImportSpec), 0) fun (acc, count) => do
    if ← listEnds "\x7d" then return .done (acc.reverse, count)
    let specStart := (← cur).start
    let isType ← typeModifierHere
    if isType then advance
    let first ← cur
    let (imported, a, b) ← parseModuleExportName
    let localName ← if ← eatWord "as" then do
        let n ← parseBindingName
        match n.kind with
        | .bindingIdent x => pure x
        | _ => pure imported
      else do
        let t ← slice a b
        if t.startsWith "\"" || t.startsWith "'" then failAt "Unexpected token" a b
        if reservedWords.contains imported then failAt (reservedWordMessage imported) a b
        checkNameWord first
        pure imported
    if isType && typeOnly then
      report ("The 'type' modifier cannot be used on a named import when 'import type' " ++
        "is used on its import statement.") specStart (← get).prevEnd
    let acc := if isType then acc else .named imported localName :: acc
    if ← afterListItem "\x7d" then return .done (acc.reverse, count + 1)
    return .more (acc, count + 1)

/-- Reads an import declaration after `import`. -/
def parseImport (start : Nat) : P Item := do
  advance
  let ts := (← config).typescript
  let t ← cur
  let n ← peek
  let n2 ← peek2
  let isPhase := (t.isWord "defer" || t.isWord "source") &&
    (n.isPunct "*" || n.isPunct "\x7b" ||
      (n.isIdentifier && !(n.isWord "from" && (n2.kind matches .string _))))
  let isType := ts && t.isWord "type" &&
    (n.isPunct "\x7b" || n.isPunct "*" ||
      (n.isIdentifier && !(n.isWord "from" && (n2.kind matches .string _))))
  let phase := t
  if isPhase || isType then advance
  let t ← cur
  match t.kind with
  | .string v =>
    advance
    skipAttributes
    semicolon
    return .node (← finish start (.importDecl [] v))
  | _ => pure ()
  let defaultTok ← cur
  let (defaultSpec, more) ← do
    let t ← cur
    if t.isIdentifier then
      let d ← parseBindingName
      if ← atPunct "=" then
        return ← claiming do
          parseImportEquals
          if !ts then
            report "'import ... =' can only be used in TypeScript files." start (← get).prevEnd
          let n ← finish start .empty
          return (.node n, some (← unsupportedError "import equals declaration" start (← get).prevEnd))
      let name := match d.kind with
        | .bindingIdent x => x
        | _ => ""
      let more ← eatPunct ","
      pure ([ImportSpec.default name], more)
    else pure ([], true)
  if isType && more then
    if let ImportSpec.default _ :: _ := defaultSpec then
      report "A type-only import can specify a default import or named bindings, but not both."
        defaultTok.start defaultTok.stop
  let (rest, count) ← if more then do
      let t ← cur
      if t.isPunct "*" then
        advance
        expectWord "as"
        let d ← parseBindingName
        let name := match d.kind with
          | .bindingIdent x => x
          | _ => ""
        pure ([ImportSpec.star name], 1)
      else parseImportSpecifiers isType
    else pure ([], 0)
  if isPhase then
    let specs := defaultSpec ++ rest
    if phase.isWord "source" && !(specs.length == 1 && defaultSpec.length == 1 && count == 0) then
      report "Only a single default import is allowed in a source phase import."
        phase.start phase.stop
    if phase.isWord "defer" && !(specs matches [ImportSpec.star _]) then
      report "Only a single namespace import is allowed in a defer phase import."
        phase.start phase.stop
  expectWord "from"
  let source ← parseModuleName
  skipAttributes
  semicolon
  let specs := defaultSpec ++ rest
  if isType then return .dropped start (← get).prevEnd
  if isPhase then
    return ← claiming do
      let n ← finish start .empty
      return (.node n, some (← unsupportedError "import phase" start (← get).prevEnd))
  if specs.isEmpty && count > 0 then return .dropped start (← get).prevEnd
  return .node (← finish start (.importDecl specs source))

/-- The names a declaration binds, with their spans, for the export record. -/
def boundNames (n : Node) : List (String × Span) :=
  match n.kind with
  | .varDecl _ ds => ds.flatMap fun d =>
      match d.kind with
      | .declarator t _ => patternNames t
      | _ => []
  | .funcDecl (some id) .. | .classDecl (some id) .. =>
    match id.kind with
    | .bindingIdent x => [(x, id.span)]
    | _ => []
  | _ => []
where
  /-- The names bound by a pattern, in order. -/
  patternNames (p : Node) : List (String × Span) :=
    match p with
    | .mk _ span _ (.bindingIdent x) => [(x, span)]
    | .mk _ _ _ (.assignPattern l _) => patternNames l
    | .mk _ _ _ (.rest a) => patternNames a
    | .mk _ _ _ (.bindingProperty _ v _) => patternNames v
    | .mk _ _ _ (.arrayPattern es r) =>
      (es.attach.flatMap fun ⟨e, _⟩ =>
        match e with
        | some x => patternNames x
        | none => []) ++
      (match r with
        | some x => patternNames x
        | none => [])
    | .mk _ _ _ (.objectPattern ps r) =>
      (ps.attach.flatMap fun ⟨x, _⟩ => patternNames x) ++
      (match r with
        | some x => patternNames x
        | none => [])
    | _ => []
  termination_by p
  decreasing_by
    all_goals simp_wf
    all_goals
      first
      | (have h := List.sizeOf_lt_of_mem ‹_›; simp at *; omega)
      | omega
      | skip

/-- An export specifier as read: the local and exported names, the exported name's
characters, and whether it is type-only. -/
structure ReadExport where
  localName : String
  exported : String
  start : Nat
  stop : Nat
  isType : Bool
  /-- The local name's characters, and whether it is written as a string. -/
  localStart : Nat
  localStop : Nat
  localQuoted : Bool

/-- Words reserved in strict code besides the reserved words, with `await` and `yield`:
none may be exported without `from`. -/
def strictReservedWords : List String :=
  ["await", "yield", "implements", "interface", "let", "package", "private", "protected",
   "public", "static"]

/-- Reads the specifiers of an export `{ … }`. In an `export type` declaration
(`typeOnly`) a specifier may not be marked `type` again. -/
def parseExportSpecifiers (typeOnly : Bool) : P (List ReadExport) := do
  expectPunct "\x7b"
  loop ([] : List ReadExport) fun acc => do
    if ← listEnds "\x7d" then return .done acc.reverse
    let specStart := (← cur).start
    let isType ← typeModifierHere
    if isType then advance
    let quoted := (← cur).kind matches .string _
    let (localName, la, lb) ← parseModuleExportName
    let (exported, a, b) ← if ← eatWord "as" then parseModuleExportName
      else pure (localName, la, lb)
    if isType && typeOnly then
      report ("The 'type' modifier cannot be used on a named export when 'export type' " ++
        "is used on its export statement.") specStart (← get).prevEnd
    let acc := ⟨localName, exported, a, b, isType, la, lb, quoted⟩ :: acc
    if ← afterListItem "\x7d" then return .done acc.reverse
    return .more acc

/-- Whether the current token starts a declaration that `export` may carry. -/
def startsDeclaration : P Bool := do
  let t ← cur
  let n ← peek
  let ts := (← config).typescript
  if t.isWord "var" || t.isWord "let" || t.isWord "const" || t.isWord "function" ||
      t.isWord "class" || t.isPunct "@" then return true
  if t.isWord "async" && n.isWord "function" && !n.newlineBefore then return true
  if (← declarationHere).isSome then return true
  if ts && !n.newlineBefore then
    if t.isWord "type" || t.isWord "interface" || t.isWord "enum" || t.isWord "declare" ||
        t.isWord "namespace" || t.isWord "module" || t.isWord "abstract" || t.isWord "global" then
      return true
  return false

/-- The words that may stand as modifiers before a TypeScript declaration. -/
def declarationModifierWords : List String :=
  ["abstract", "accessor", "async", "declare", "export", "private", "protected", "public",
   "readonly", "static"]

/-- Whether a run of modifiers followed by a declaration starts here: modifier words, each but
`export` and `static` on the line of what follows it, then a keyword that begins a
declaration. -/
def modifiedDeclarationAhead : P Bool := do
  let r ← lookahead <| loop (0 : Nat) fun count => do
    let t ← cur
    let n ← peek
    let some w := t.name? | return .done false
    if declarationModifierWords.contains w then
      if w == "export" && (n.isPunct "=" || n.isPunct "*" || n.isPunct "\x7b" ||
          n.isWord "default" || n.isWord "as" || n.isPunct "@") then
        return .done (count != 0)
      if w != "export" && w != "static" && n.newlineBefore then return .done false
      advance
      return .more (count + 1)
    if count == 0 then return .done false
    if ["var", "let", "const", "function", "class", "enum"].contains w then return .done true
    if w == "interface" || w == "type" then return .done (n.isIdentifier && !n.newlineBefore)
    if w == "module" || w == "namespace" then
      return .done (!n.newlineBefore && (n.isIdentifier || n.kind matches .string _))
    if w == "global" then
      return .done (n.isIdentifier || n.isPunct "\x7b" || n.isWord "export")
    return .done false
  return r.getD false

/-- Reads the modifiers before a TypeScript declaration, reporting one written twice and an
`export` written after another modifier; `exported` says that an `export` stands before
them, so that another one is written twice. -/
def parseDeclarationModifiers (exported : Bool) : P (List Modifier) :=
  loop ([] : List Modifier) fun acc => do
    let t ← cur
    let n ← peek
    let some w := t.name? | return .done acc.reverse
    if !declarationModifierWords.contains w || !modifierBefore w n false then
      return .done acc.reverse
    if acc.any (·.word == w) || (exported && w == "export") then
      report ("'" ++ w ++ "' modifier already seen.") t.start t.stop
    else if w == "export" && !acc.isEmpty then
      report "'export' modifier must precede 'declare' modifier." t.start t.stop
    advance
    return .more (⟨w, t.start, t.stop⟩ :: acc)

/-- Whether the modifiers before a declaration call for reading them as a list: all but a
lone `declare`, `abstract` before `class` and `async` before `function`, which the
declaration forms read themselves. -/
def modifierListHere : P Bool := do
  let t ← cur
  let n ← peek
  let some w := t.name? | return false
  if declarationModifierWords.contains (n.name?.getD "") then return true
  return !(w == "declare" || (w == "abstract" && n.isWord "class") ||
    (w == "async" && n.isWord "function"))

/-- Reads a TypeScript declaration with its modifiers, which the kind of declaration may
refuse: every kind takes `declare`, a function also `async` and a class also `abstract`.
A `declare` declaration leaves nothing. -/
def parseModifiedDeclaration (exported : Bool) : P Item := do
  let start := (← cur).start
  let mods ← parseDeclarationModifiers exported
  let t ← cur
  let own := if t.isWord "function" then "async" else if t.isWord "class" then "abstract" else ""
  for m in mods do
    if m.word != "declare" && m.word != "export" && m.word != own then
      report ("'" ++ m.word ++ "' modifier cannot be used here.") m.start m.stop
  if !(← startsDeclaration) then unexpected
  let declaration : P Item :=
    if t.isWord "function" then parseFunctionDecl g start (hasModifier mods "async") true false
    else if t.isWord "class" then return .node (← parseClassDecl g start none false)
    else g.statement
  if hasModifier mods "declare" then
    discard (withContext (fun c => { c with ambient := true }) declaration)
    return .dropped start (← get).prevEnd
  declaration

/-- Reads a class declaration after its decorators, at `class` or `abstract class`. -/
def parseClassAfterDecorators (start : Nat) (first : Option (Nat × Nat)) : P Node := do
  if ← atWord "abstract" then advance
  parseClassDecl g start first false

/-- Reports decorators written after `export` (the first of them at `after`) when others
stand before it. -/
def decoratorsOnBothSides (before after : Option (Nat × Nat)) : P Unit := do
  if let (some _, some (a, b)) := (before, after) then
    report ("Decorators may not appear after 'export' or 'export default' if they also " ++
      "appear before 'export'.") a b

/-- Reads what follows `export default`. -/
def parseExportDefault (decorator : Option (Nat × Nat)) : P Item := do
  let ts := (← config).typescript
  let d ← cur
  let n ← peek
  if d.isWord "function" then parseFunctionDecl g d.start false false false
  else if d.isWord "async" && n.isWord "function" && !n.newlineBefore then
    advance
    parseFunctionDecl g d.start true false false
  else if d.isWord "class" || (d.isWord "abstract" && n.isWord "class") then
    return .node (← parseClassAfterDecorators g d.start decorator)
  else if d.isPunct "@" then
    let first ← parseDecorators g
    decoratorsOnBothSides decorator first
    return .node (← parseClassAfterDecorators g d.start (decorator.orElse fun _ => first))
  else if ts && d.isWord "interface" && !n.newlineBefore then
    parseInterface g
    return .dropped d.start (← get).prevEnd
  else
    let e ← g.assignment
    semicolon
    return .node e

/-- Reads an export after `export`; `decorator` is the range of decorators written before
`export`. -/
def parseExport (start : Nat) (decorator : Option (Nat × Nat)) : P Item := do
  advance
  let ts := (← config).typescript
  let src ← source
  let t ← cur
  let n ← peek
  if ts && t.isPunct "=" then
    return ← claiming do
      advance
      discard (bracketed g.expression)
      semicolon
      let nd ← finish start .empty
      return (.node nd, some (← unsupportedError "statement" start (← get).prevEnd))
  if ts && t.isWord "as" && n.isWord "namespace" then
    advance; advance
    discard parseBindingName
    semicolon
    return .dropped start (← get).prevEnd
  if t.isWord "import" then
    match ← parseImport t.start with
    | .node nd =>
      if nd.kind matches .empty then return .node nd
      failAt "Unexpected export." t.start (← get).prevEnd
    | .dropped .. => failAt "Unexpected export." t.start (← get).prevEnd
  if t.isWord "default" then
    advance
    noteExport "default" (src.spanOf t.start t.stop)
    match ← parseExportDefault g decorator with
    | .dropped .. => return .dropped start (← get).prevEnd
    | .node x => return .node (← finish start (.exportDefault x))
  let typeOnly := ts && t.isWord "type" && (n.isPunct "\x7b" || n.isPunct "*")
  if typeOnly then advance
  if ← atPunct "*" then
    advance
    let exported ← if ← eatWord "as" then some <$> parseModuleExportName else pure none
    expectWord "from"
    let source ← parseModuleName
    skipAttributes
    semicolon
    if typeOnly then return .dropped start (← get).prevEnd
    match exported with
    | some (x, a, b) => noteExport x (src.spanOf a b)
    | none => pure ()
    return .node (← finish start (.exportAll (exported.map (·.1)) source))
  if ← atPunct "\x7b" then
    let specs ← parseExportSpecifiers typeOnly
    let source ← if ← eatWord "from" then some <$> parseModuleName else pure none
    if source.isSome then skipAttributes
    if source.isNone then
      for r in specs do
        if r.localQuoted then
          report "A string literal cannot be used as an exported binding without `from`"
            r.localStart r.localStop
        else if reservedWords.contains r.localName || strictReservedWords.contains r.localName then
          report "A reserved word cannot be used as an exported binding without `from`"
            r.localStart r.localStop
    semicolon
    if typeOnly then return .dropped start (← get).prevEnd
    let kept := specs.filter fun r => !r.isType
    if kept.isEmpty && !specs.isEmpty then return .dropped start (← get).prevEnd
    for r in kept do noteExport r.exported (src.spanOf r.start r.stop)
    let list := kept.map fun r => ({ localName := r.localName, exported := r.exported } : ExportSpec)
    return .node (← finish start (.exportList list source))
  if ts && (← modifierListHere) then
    let w := (t.name?.getD "")
    if declarationModifierWords.contains w && modifierBefore w n false then
      return ← match ← parseModifiedDeclaration g true with
        | .dropped .. => pure (.dropped start (← get).prevEnd)
        | .node d => do
          for (x, span) in boundNames d do noteExport x span
          return .node (← finish start (.exportDecl d))
  if !(← startsDeclaration) then unexpected
  if let some (none, keywords) ← declarationHere then
    let name ← if keywords == 1 then peek else peek2
    report "Using declarations cannot be exported directly." t.start name.stop
  let item ← if ← atPunct "@" then do
      let first ← parseDecorators g
      decoratorsOnBothSides decorator first
      let c ← cur
      pure (.node (← parseClassAfterDecorators g c.start (decorator.orElse fun _ => first)))
    else if decorator.isSome && ((← atWord "class") || (← atWord "abstract")) then
      pure (.node (← parseClassAfterDecorators g (← cur).start decorator))
    else g.statement
  match item with
  | .dropped .. => return .dropped start (← get).prevEnd
  | .node d =>
    for (x, span) in boundNames d do noteExport x span
    return .node (← finish start (.exportDecl d))

/-- Reads a statement that is a TypeScript declaration form, if one starts here. -/
def parseTypeScriptDeclaration (start : Nat) : P (Option Item) := do
  let t ← cur
  let n ← peek
  if !t.isWord "export" && (← modifierListHere) && (← modifiedDeclarationAhead) then
    return some (← parseModifiedDeclaration g false)
  if n.newlineBefore then return none
  match t.kind with
  | .word "type" _ =>
    if !n.isIdentifier then return none
    parseTypeAlias g
    return some (.dropped start (← get).prevEnd)
  | .word "interface" _ =>
    if !n.isIdentifier then return none
    parseInterface g
    return some (.dropped start (← get).prevEnd)
  | .word "enum" _ =>
    if !n.isIdentifier then return none
    some <$> claiming do
      parseEnumBody g
      let nd ← finish start .empty
      return (.node nd, some (← unsupportedError "enum" start (← get).prevEnd))
  | .word "const" _ =>
    if !n.isWord "enum" then return none
    advance
    some <$> claiming do
      parseEnumBody g
      let nd ← finish start .empty
      return (.node nd, some (← unsupportedError "enum" start (← get).prevEnd))
  | .word "namespace" _ | .word "module" _ =>
    if !(n.isIdentifier || (t.isWord "module" && (n.kind matches .string _))) then return none
    some <$> claiming do
      parseNamespaceBody g
      let nd ← finish start .empty
      return (.node nd, some (← unsupportedError "namespace" start (← get).prevEnd))
  | .word "global" _ =>
    if !n.isPunct "\x7b" then return none
    advance
    discard (parseBlock g)
    return some (.dropped start (← get).prevEnd)
  | .word "abstract" _ =>
    if !n.isWord "class" then return none
    advance
    return some (.node (← parseClassDecl g start none false))
  | .word "declare" _ =>
    if !(n.isName) then return none
    advance
    discard (withContext (fun c => { c with ambient := true }) g.statement)
    return some (.dropped start (← get).prevEnd)
  | _ => return none

/-- Reads an expression statement, or a labeled statement. -/
def parseExpressionStatement (start : Nat) : P Item := do
  let t ← cur
  let ctx ← context
  let operator := (t.isWord "await" && (ctx.isAsync || !ctx.inFunction)) ||
    (t.isWord "yield" && ctx.generator)
  if t.isIdentifier && !operator && (← peek).isPunct ":" then
    checkNameWord t
    advanceName; advance
    let body ← parseNested g
    return .node (← finish start (.labeled (t.name?.getD "") body))
  let e ← g.expression
  semicolon
  return .node (← finish start (.exprStmt e))

/-- Reads one statement; `single` tells that it stands alone. There `let` starts a
declaration only before `[`, and a lexical declaration, an async or generator function or a
class is an error; imports and exports are read wherever a statement stands, as placing them
is not the parser's concern. -/
def parseStatementAs (single : Bool) : P Item := do
  let t ← cur
  let n ← peek
  let start := t.start
  if (← config).typescript then
    if let some item ← parseTypeScriptDeclaration g start then return item
  match ← declarationHere with
  | some (kind, count) =>
    if single && t.isWord "let" && !n.isPunct "[" then return ← parseExpressionStatement g start
    let d := (← parseDeclaration g kind count false).1
    if single && (kind matches some .let || kind matches some .const) then
      report "Lexical declaration cannot appear in a single-statement context" start
        (← get).prevEnd
    return .node d
  | none => pure ()
  match t.kind with
  | .punct "\x7b" => return .node (← parseBlock g)
  | .punct ";" =>
    advance
    return .node (← node t.start t.stop .empty)
  | .punct "@" =>
    let first ← parseDecorators g
    if ← atWord "export" then return ← parseExport g (← cur).start first
    return .node (← parseClassAfterDecorators g start first)
  | .word w _ =>
    match w with
    | "function" => parseFunctionDecl g start false true single
    | "async" =>
      if n.isWord "function" && !n.newlineBefore then
        advance
        parseFunctionDecl g start true true single
      else parseExpressionStatement g start
    | "class" => return .node (← parseClassDecl g start none single)
    | "if" =>
      advance
      let test ← parseCondition g
      let cons ← parseNested g
      let alt ← if ← eatWord "else" then some <$> parseNested g else pure none
      return .node (← finish start (.ifStmt test cons alt))
    | "for" => return .node (← parseFor g start)
    | "with" =>
      claiming do
        advance
        discard (parseCondition g)
        discard (parseNested g)
        let nd ← finish start .empty
        return (.node nd, some (← unsupportedError "statement" start (← get).prevEnd))
    | "while" =>
      advance
      let test ← parseCondition g
      let body ← parseNested g
      return .node (← finish start (.whileStmt test body))
    | "do" =>
      advance
      let body ← parseNested g
      expectWord "while"
      let test ← parseCondition g
      discard (eatPunct ";")
      return .node (← finish start (.doWhile body test))
    | "return" =>
      advance
      let arg ← if ← canEndStatement then pure none else some <$> g.expression
      semicolon
      let nd ← finish start (.returnStmt arg)
      if !(← context).inFunction then
        report "A 'return' statement can only be used within a function body." t.start t.stop
      return .node nd
    | "break" =>
      advance
      let label ← parseJumpLabel
      semicolon
      return .node (← finish start (.breakStmt label))
    | "continue" =>
      advance
      let label ← parseJumpLabel
      semicolon
      return .node (← finish start (.continueStmt label))
    | "throw" =>
      advance
      let a ← cur
      if a.newlineBefore then failAt "Illegal newline after throw" t.start t.stop
      let e ← g.expression
      semicolon
      return .node (← finish start (.throwStmt e))
    | "try" => return .node (← parseTry g start)
    | "switch" => return .node (← parseSwitch g start)
    | "debugger" =>
      advance
      semicolon
      return .node (← finish start .debugger)
    | "import" =>
      if n.isPunct "(" || n.isPunct "." then parseExpressionStatement g start
      else parseImport start
    | "export" => parseExport g start none
    | _ => parseExpressionStatement g start
  | _ => parseExpressionStatement g start

/-- Reads one statement, standing alone when the context says so. -/
def parseStatement : P Item := droppingErrors do
  let single := (← context).single
  withContext (fun c => { c with single := false }) (parseStatementAs g single)

end SignalSugar.Parse
