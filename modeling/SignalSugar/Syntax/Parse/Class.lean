import SignalSugar.Syntax.Parse.Pattern
/-!
# Classes

`parseClassTail` reads a class after its `class` keyword: the name, type parameters, the
superclass, `implements` clauses and the body. Members are methods (with `get`, `set`,
`static`, `async` and `*`), fields (plain or `accessor`), and static blocks.

Members that only exist for the type checker leave nothing: abstract members, methods
without a body (overload signatures), `declare` fields and index signatures. Decorators on a
class or on a kept member are outside the rewriter's subset.
-/

namespace SignalSugar.Parse

variable (g : Grammar)

/-- What stands before a class member's key: its modifiers, then `get` or `set` when it is an
accessor, then `*` when it is a generator. -/
structure MemberHead where
  mods : List Modifier
  accessor : Option MethodKind
  generator : Bool

/-- Reads what stands before a class member's key. `get` or `set` makes an accessor when a
property name follows it, on any line. -/
def parseMemberHead : P MemberHead := do
  let mods ← parseModifierList true true
  let t ← cur
  let n ← peek
  let accessor ← if (t.isWord "get" || t.isWord "set") &&
      (isLiteralPropertyName n || n.isPunct "[") then do
      advance
      pure (some (if t.isWord "get" then MethodKind.get else .set))
    else pure none
  let generator ← eatPunct "*"
  return ⟨mods, accessor, generator⟩

/-- Ends a class field or index signature: a `;`, or a place where one may be left out
(before `}`, at the end of the input or after a line break). Anything else stands where the
`;` was expected. -/
def fieldEnd : P Unit := do
  let t ← cur
  if t.isPunct "\x7d" || t.kind == .eof || (t.newlineBefore && !t.isPunct ";") then pure ()
  else expectPunct ";"

/-- How a class member's key is named in messages, and where it stands: a name or a string by
its text, a number as written, a private name with its `#`, and a computed key by the
expression inside the brackets. -/
def keyLabel (k : ReadKey) (keyEnd : Nat) : P (String × Nat × Nat) := do
  match k.key, k.first.kind, k.inner with
  | .computed _, _, some (a, b) => return (← slice a b, a, b)
  | .privateName name, _, _ => return ("#" ++ name, k.start, keyEnd)
  | _, .string v, _ => return (v, k.start, keyEnd)
  | .named w, .word .., _ => return (w, k.start, keyEnd)
  | _, _, _ => return (← slice k.start keyEnd, k.start, keyEnd)

/-- Reports the checks on a class member's modifiers that look at the member itself: those its
kind refuses, and in TypeScript an accessibility modifier on a member with a private name. -/
def checkMemberModifiers (site : ModifierSite) (mods : List Modifier) (k : ReadKey) : P Unit := do
  verifyModifiers site mods
  if (← config).typescript && k.key matches .privateName _ then
    for m in mods do
      if isAccessibility m.word then
        report "An accessibility modifier cannot be used with a private identifier." m.start m.stop

/-- Reads a method of kind `kind` after its key: parameters, return type and body. The
node is none when there is no body (an overload signature or an abstract method). -/
def parseMethodRest (kind : MethodKind) (isAsync generator : Bool) :
    P (List Node × Option Node) := do
  if (← config).typescript && (← atPunct "<") then
    let a := (← cur).start
    skipTypeParams g
    if kind matches .ctor then
      report "Type parameters cannot appear on a constructor declaration" a (← get).prevEnd
  let paramsStart := (← cur).start
  let params ← withContext
    (fun c => { c with inFunction := true, inClass := true, isAsync := isAsync,
                       generator := generator, constructorParams := kind matches .ctor }) g.params
  let this := (← get).thisParam
  checkAccessorParams kind params paramsStart (← get).prevEnd
  let annotationAt := (← cur).start
  skipReturnAnnotation g
  if kind matches .ctor then
    let b := (← get).prevEnd
    if annotationAt < b && (← config).typescript then
      report "Type annotation cannot appear on a constructor declaration." annotationAt b
  let body ← if ← atPunct "\x7b" then
      some <$> withContext
        (fun c => { c with inFunction := true, isAsync := isAsync, generator := generator,
                           inClass := true, noIn := false }) g.functionBody
    else if !(← config).typescript then do
      report "Expected function body" paramsStart (← get).prevEnd
      pure none
    else do semicolon; pure none
  if kind matches .ctor then
    if let some (a, b) := this then
      report "A constructor cannot have a `this` parameter." a b
  return (params, body)

/-- Reads one class member; none for a member that leaves nothing. After its decorators, a member
is a static block, an index signature, a method or a field. A constructor is a method whatever
follows its name; a string key spells one only when a parameter list follows. -/
def parseClassMember : P (Option Node) := do
  let start := (← cur).start
  let ts := (← config).typescript
  let decorator ← loop (none : Option (Nat × Nat)) fun first => do
    if ← atPunct "@" then
      let d ← cur
      parseDecorator g
      let stop := (← get).prevEnd
      return .more (first.orElse fun _ => some (d.start, stop))
    return .done first
  let head ← parseMemberHead
  let mods := head.mods
  let t ← cur
  let plain := head.accessor.isNone && !head.generator
  if plain && t.isWord "static" && (← peek).isPunct "\x7b" then
    if let (some a, some b) := (mods.head?, mods.getLast?) then
      report "Modifiers cannot appear here." a.start b.stop
    advance; advance
    let body ← withContext
      (fun c => { c with inFunction := false, isAsync := false, generator := false,
                         inClass := true }) <| loop ([] : List Node) fun acc => do
        if ← eatPunct "\x7d" then return .done acc.reverse
        match ← g.statement with
        | .node n => return .more (n :: acc)
        | .dropped .. => return .more acc
    return some (← finish start (.staticBlock body))
  if ts && plain && t.isPunct "[" && (← indexSignatureAhead) then
    verifyModifiers (.indexSignature true) mods
    forgetting (skipIndexSignature g start)
    fieldEnd
    return none
  let saved := (← get).deferred
  let decoratorError ← match decorator with
    | some (a, b) => some <$> unsupportedError "decorator" a b
    | none => pure none
  let k ← parseKey g true
  let keyEnd := (← get).prevEnd
  let isStatic := hasModifier mods "static"
  let isAbstract := hasModifier mods "abstract"
  let isAsync := hasModifier mods "async"
  if k.key matches .privateName "constructor" then
    report "Classes can't have an element named '#constructor'" k.start keyEnd
  if isStatic && k.key matches .named "prototype" then
    report "Classes may not have a static property named 'prototype'" k.start keyEnd
  let isCtor := !isStatic && k.key matches .named "constructor" &&
    (!(k.first.kind matches .string _) || (← cur).isPunct "(")
  if isCtor then
    if head.accessor.isSome then
      report "Constructor can't have get/set modifier" k.start keyEnd
    if isAsync then report "Constructor can't be an async method" k.start keyEnd
    if head.generator then report "Constructor can't be a generator" k.start keyEnd
  let question ← cur
  let optional ← eatPunct "?"
  let t2 ← cur
  if t2.isPunct "(" || t2.isPunct "<" || isCtor || head.accessor.isSome || head.generator then
    let kind : MethodKind := head.accessor.getD (if isCtor then .ctor else .method)
    let site : ModifierSite :=
      if head.accessor.isSome then .accessor else if isCtor then .constructor else .method
    checkMemberModifiers site mods k
    let (params, body) ← parseMethodRest g kind isAsync head.generator
    match body with
    | none =>
      if let some (a, b) := decorator then
        report "A decorator can only decorate a method implementation, not an overload." a b
      modify fun s => { s with deferred := saved }
      return none
    | some body =>
      if isAbstract then
        let (name, a, b) ← keyLabel k keyEnd
        report ("Method '" ++ name ++ "' cannot have an implementation because it is marked " ++
          "abstract.") a b
        modify fun s => { s with deferred := saved }
        return none
      let n ← finish start (.classMethod kind k.key isStatic params body
        { isAsync := isAsync, generator := head.generator })
      match saved, decoratorError with
      | none, some e => modify fun s => { s with deferred := some e }
      | _, _ => pure ()
      return some n
  checkMemberModifiers .field mods k
  let isAccessor := hasModifier mods "accessor"
  if isAccessor then
    for m in mods do
      if m.word == "async" || m.word == "declare" || m.word == "readonly" then
        report ("'accessor' modifier cannot be used with '" ++ m.word ++ "' modifier.")
          m.start m.stop
    if optional then
      report "An 'accessor' property cannot be declared optional." question.start question.stop
  if k.key matches .named "constructor" then
    report "Classes can't have a field named 'constructor'" k.start keyEnd
  let bang ← cur
  if ← eatPunct "!" then
    if optional then
      report "A property cannot be both optional and definite." keyEnd bang.stop
  if ts then skipAnnotation g
  let value ← if ← eatPunct "=" then
      some <$> withContext
        (fun c => { c with inFunction := false, isAsync := false, generator := false,
                           inClass := true, noIn := false }) g.expression
    else pure none
  if isAbstract && value.isSome then
    let (name, a, b) ← keyLabel k keyEnd
    report ("Property '" ++ name ++ "' cannot have an initializer because it is marked " ++
      "abstract.") a b
  fieldEnd
  if hasModifier mods "declare" || isAbstract then
    modify fun s => { s with deferred := saved }
    return none
  let n ← finish start (.classProperty k.key value isStatic isAccessor)
  match saved, decoratorError with
  | none, some e => modify fun s => { s with deferred := some e }
  | _, _ => pure ()
  return some n

/-- A class as read: name, superclass and members. -/
structure ClassParts where
  name : Option Node
  superClass : Option Node
  /-- Where the body's opening brace stands. -/
  bodyStart : Nat
  members : List Node

/-- Reads one entry of an `extends` clause: a left-hand-side expression with its type
arguments; answers it with its range. -/
def parseHeritage : P (Node × Nat × Nat) := do
  let start := (← cur).start
  let e ← g.leftHandSide
  if (← config).typescript && (← atPunct "<") then skipTypeArgs g
  return (e, start, (← get).prevEnd)

/-- Whether an expression is a name or a chain of property accesses by name on one. -/
def isEntityName : Node → Bool
  | .mk _ _ _ (.ident _) => true
  | .mk _ _ _ (.member o (.named _) false) => isEntityName o
  | _ => false

/-- Reads the heritage clauses of a class or, when `ofInterface` holds, of an interface:
`extends` with a list, and `implements` with a list of type names, each clause at most
once and `extends` first. A second `extends` is reported over itself, a second `implements`
over the first. A class extends one class only; an interface extends names or qualified
names, and has no `implements` clause. The answer is the superclass of a class. -/
def parseHeritageClauses (ofInterface : Bool) : P (Option Node) := do
  let (superClass, _, implementsAt) ← loop ((none : Option Node), false, (none : Option Token))
      fun (sup, seenExtends, implementsAt) => do
    let t ← cur
    if t.isWord "extends" then
      if seenExtends then report "'extends' clause already seen" t.start t.stop
      else if implementsAt.isSome then
        report "'extends' clause must precede 'implements' clause" t.start t.stop
      advance
      let entries ← loop ([] : List (Node × Nat × Nat)) fun acc => do
        let entry ← parseHeritage g
        if ofInterface then
          let (e, a, b) := entry
          if !isEntityName e || (← parensOf e).isSome then
            report ("An interface can only extend an identifier/qualified-name with optional " ++
              "type arguments.") a b
        if ← eatPunct "," then return .more (entry :: acc)
        return .done (entry :: acc).reverse
      if !ofInterface then
        if let _ :: (_, a, b) :: _ := entries then
          report "Classes can only extend a single class." a b
      return .more ((entries.head?.map (·.1)).orElse fun _ => sup, true, implementsAt)
    if t.isWord "implements" then
      if let some i := implementsAt then report "'implements' clause already seen" i.start i.stop
      advance
      loop () fun _ => do
        skipEntityName
        if ← atPunct "<" then skipTypeArgs g
        if ← eatPunct "," then return .more ()
        return .done ()
      return .more (sup, seenExtends, implementsAt.orElse fun _ => some t)
    return .done (sup, seenExtends, implementsAt)
  if ofInterface then
    if let some i := implementsAt then
      report "Interface declaration cannot have 'implements' clause." i.start i.stop
  return superClass

/-- Reads a class after its `class` keyword. The name may be left out, also in a declaration:
a declaration without one is only refused by the checks that follow parsing. The word
`implements` where the name would stand begins a clause. -/
def parseClassTail : P ClassParts := do
  let ts := (← config).typescript
  let t ← cur
  let name ← if t.isIdentifier && !t.isWord "extends" && !t.isWord "implements" then
      some <$> parseBindingName
    else pure none
  if ts && (← atPunct "<") then skipTypeParams g
  let superClass ← parseHeritageClauses g false
  let bodyStart := (← cur).start
  expectPunct "\x7b"
  let members ← withContext (fun c => { c with inClass := true }) <|
    loop ([] : List Node) fun acc => do
      if ← eatPunct "\x7d" then return .done acc.reverse
      if ← eatPunct ";" then return .more acc
      match ← parseClassMember g with
      | some n => return .more (n :: acc)
      | none => return .more acc
  return ⟨name, superClass, bodyStart, members⟩

end SignalSugar.Parse
