import SignalSugar.Syntax.Parse.Modifier
/-!
# Types, read and dropped

Type annotations, type arguments and type declarations leave nothing in the tree: the parser
reads them only to find where they end. Reading follows the TypeScript grammar closely
enough to find that end for every well-formed type: function and constructor types, unions
and intersections, conditional types, type operators, indexed and array types, tuples,
object and mapped types, literal and template literal types, `typeof` queries, import types
and type predicates. It reads by the grammar's levels, since they decide what may stand
where: a function type only at the top of a type, and not as the operand of `|`, `&` or a
type operator; a conditional type not in the checked part of another. The few shapes that
the grammar's checks look at (array, tuple and optional types) are answered.

Computed keys and parameter lists inside types are read with the expression and parameter
parsers, and whatever they would report about the rewriter's subset is forgotten, since the
type is dropped.
-/

namespace SignalSugar.Parse

variable (g : Grammar)

/-- Reads an entity name `a.b.c`. -/
def skipEntityName : P Unit := do
  if !(← cur).isName then unexpected
  advanceName
  loop () fun _ => do
    if ← atPunct "." then
      advance
      if !(← cur).isName then unexpected
      advanceName
      return .more ()
    return .done ()

/-- Reads type arguments `<A, B>`. An empty list is reported. -/
def skipTypeArgs : P Unit := do
  let start := (← cur).start
  expectPunct "<"
  let count ← loop 0 fun n => do
    if ← listEnds ">" then return .done n
    g.type
    if ← afterListItem ">" then return .done (n + 1)
    return .more (n + 1)
  if count == 0 then report "Type argument list cannot be empty." start (← get).prevEnd

/-- The message for a reserved word where a binding name is needed. -/
def reservedWordMessage (w : String) : String :=
  "Identifier expected. '" ++ w ++ "' is a reserved word that cannot be used here."

/-- Reads type parameters `<const T extends U = V, ...>`. Of the modifiers only `in`, `out`
and `const` may stand on a type parameter. An empty list is reported, and a reserved word
cannot name a parameter. -/
def skipTypeParams : P Unit := do
  let start := (← cur).start
  expectPunct "<"
  let count ← loop 0 fun n => do
    if ← listEnds ">" then return .done n
    let mods ← parseModifierList true false
    verifyModifiers .typeParameter mods
    let t ← cur
    match t.kind with
    | .word w _ =>
      if reservedWords.contains w then failAt (reservedWordMessage w) t.start t.stop
      advance
    | _ => unexpected
    if ← eatWord "extends" then g.type
    if ← eatPunct "=" then g.type
    if ← afterListItem ">" then return .done (n + 1)
    return .more (n + 1)
  if count == 0 then report "Type parameter list cannot be empty." start (← get).prevEnd

/-- Reads a return type: a type, or a type predicate `x is T` whose name is not a reserved
word (the predicates `this is T` and `asserts x` are types of their own). -/
def skipReturnType : P Unit := do
  let t ← cur
  let n ← peek
  if t.isName && !reservedWords.contains (t.name?.getD "") && n.isWord "is" &&
      !n.newlineBefore then
    advance; advance
  g.type

/-- Reads a template literal type from its first piece. -/
def skipTemplateType : P Unit := do
  loop () fun _ => do
    let t ← cur
    match t.kind with
    | .template true => advance; return .done ()
    | .template false =>
      advance
      g.type
      if !(← atPunct "\x7d") then unexpected
      rescanTemplate
      return .more ()
    | _ => unexpected

/-- Whether an index signature starts at the current `[`: the bracket is followed by `...` or
`]`, by a modifier and a name, by a name and `:` or `,`, or by a name, `?` and `:`, `,` or
`]`. Otherwise the bracket opens a computed key. -/
def indexSignatureAhead : P Bool := do
  let r ← lookahead do
    advance
    let t ← cur
    if t.isPunct "..." || t.isPunct "]" then return true
    if modifierWords.contains (t.name?.getD "") then
      advance
      if (← cur).isIdentifier then return true
    else if !t.isIdentifier then return false
    else advance
    let t ← cur
    if t.isPunct ":" || t.isPunct "," then return true
    if !t.isPunct "?" then return false
    advance
    let t ← cur
    return t.isPunct ":" || t.isPunct "," || t.isPunct "]"
  return r.getD false

/-- Reads an index signature from its `[`, the member having started at `start`: exactly one
parameter, which may not be optional, and a type annotation, which it must have. -/
def skipIndexSignature (start : Nat) : P Unit := do
  advance
  let count ← loop 0 fun n => do
    if ← eatPunct "]" then return .done n
    discard <| parseModifierList false false
    discard <| eatPunct "..."
    if !(← cur).isName then unexpected
    advance
    let q ← cur
    if q.isPunct "?" then
      report "An index signature parameter cannot have a question mark." q.start q.stop
      advance
    if ← eatPunct ":" then g.type
    if ← eatPunct "," then return .more (n + 1)
    expectPunct "]"
    return .done (n + 1)
  if count != 1 then
    report "An index signature must have exactly one parameter." start (← get).prevEnd
  if ← eatPunct ":" then g.type
  else report "An index signature must have a type annotation." start (← get).prevEnd

/-- Reads the rest of a signature after its name: type parameters, parameters and an optional
return type. Answers the range of the return type annotation, colon included, when there is
one. -/
def skipSignature : P (Option (Nat × Nat)) := do
  if ← atPunct "<" then skipTypeParams g
  discard <| forgetting g.params
  let colon ← cur
  if ← eatPunct ":" then
    skipReturnType g
    return some (colon.start, (← get).prevEnd)
  return none

/-- Reads the key of a type member: a name (keywords included), a string, a number, or a
computed key. -/
def skipTypeMemberKey : P Unit := do
  let t ← cur
  match t.kind with
  | .word .. | .string _ | .number .. | .bigint _ => advance
  | .punct "[" =>
    advance
    discard <| forgetting g.assignment
    expectPunct "]"
  | _ => unexpected

/-- Reads the members of an interface or an object type up to and with the closing `}`. A
member is a call or construct signature, a `get` or `set` accessor, an index signature, or a
property or method signature; of the modifiers, only `readonly` stands on a property or an
index signature. Members are separated by `,` or `;`, which may be left out. -/
def skipTypeMembers : P Unit := do
  loop () fun _ => do
    if ← eatPunct "\x7d" then return .done ()
    let start := (← cur).start
    let t ← cur
    let n ← peek
    if t.isPunct "(" || t.isPunct "<" then discard (skipSignature g)
    else if t.isWord "new" && (n.isPunct "(" || n.isPunct "<") then
      advance
      discard (skipSignature g)
    else
      let mods ← parseModifierList false false
      let t ← cur
      let n ← peek
      if (t.isWord "get" || t.isWord "set") && (isLiteralPropertyName n || n.isPunct "[") then
        advance
        verifyModifiers (.typeMember false) mods
        skipTypeMemberKey g
        if let some (a, b) ← skipSignature g then
          if t.isWord "set" then
            report "A 'set' accessor cannot have a return type annotation." a b
      else if t.isPunct "[" && (← indexSignatureAhead) then
        verifyModifiers (.indexSignature false) mods
        skipIndexSignature g start
      else
        skipTypeMemberKey g
        discard <| eatPunct "?"
        if (← atPunct "(") || (← atPunct "<") then
          verifyModifiers (.typeMember false) mods
          discard (skipSignature g)
        else
          verifyModifiers (.typeMember true) mods
          if ← eatPunct ":" then g.type
    if ← eatPunct "," then return .more ()
    discard <| eatPunct ";"
    return .more ()

/-- Whether a mapped type starts at the current `{`: the brace is followed by `readonly` (or
`+readonly`, `-readonly`), or directly, by `[`, a name and `in`. -/
def mappedTypeAhead : P Bool := do
  let r ← lookahead do
    advance
    let t ← cur
    if t.isPunct "+" || t.isPunct "-" then
      advance
      return (← cur).isWord "readonly"
    if t.isWord "readonly" then advance
    if !(← cur).isPunct "[" then return false
    advance
    if !(← cur).isIdentifier then return false
    advance
    return (← cur).isWord "in"
  return r.getD false

/-- Reads a mapped type from its `{`: `[K in T as N]` with its optional `readonly` and `?`
marks (each may carry `+` or `-`) and its type, then any further members up to the `}`. -/
def skipMappedType : P Unit := do
  advance
  let t ← cur
  if t.isPunct "+" || t.isPunct "-" then
    advance
    expectWord "readonly"
  else discard <| eatWord "readonly"
  expectPunct "["
  advance
  expectWord "in"
  g.type
  if ← eatWord "as" then g.type
  expectPunct "]"
  let t ← cur
  if t.isPunct "+" || t.isPunct "-" then
    advance
    expectPunct "?"
  else discard <| eatPunct "?"
  if ← eatPunct ":" then g.type
  discard <| eatPunct ";"
  skipTypeMembers g

/-- Reads a parenthesized parameter list and `=> type`. -/
def skipFunctionType : P Unit := do
  if ← atPunct "<" then skipTypeParams g
  discard <| forgetting g.params
  expectPunct "=>"
  skipReturnType g

/-- Words that may stand as modifiers before a parameter's name. -/
def parameterModifierWords : List String :=
  ["public", "private", "protected", "readonly", "override", "static", "abstract", "async",
   "accessor", "const", "declare", "default", "export", "in", "out"]

/-- Whether the `(` here surely opens the parameters of a function type rather than a
parenthesized type: it is followed by `)` or `...`, or by a parameter name or pattern (after
modifiers) and then `:`, `,`, `?`, `=`, or `)` and `=>`. -/
def startsFunctionParams : P Bool := do
  let r ← lookahead do
    advance
    let t ← cur
    if t.isPunct ")" || t.isPunct "..." then return true
    loop () fun _ => do
      let t ← cur
      let n ← peek
      if parameterModifierWords.contains (t.name?.getD "") && !n.newlineBefore &&
          (n.isName || n.isPunct "[" || n.isPunct "\x7b") then
        advance; return .more ()
      return .done ()
    let t ← cur
    let named ← if t.isIdentifier || t.isWord "this" then do advance; pure true
      else if t.isPunct "[" || t.isPunct "\x7b" then do
        let before := (← get).errors.length
        discard <| forgetting g.target
        pure ((← get).errors.length == before)
      else pure false
    if !named then return false
    let t ← cur
    if t.isPunct ":" || t.isPunct "," || t.isPunct "?" || t.isPunct "=" then return true
    if t.isPunct ")" then
      advance
      return (← cur).isPunct "=>"
    return false
  return r.getD false

/-- Whether a function or constructor type starts here: at `<`, at a `(` that surely opens
parameters, at `new`, or at `abstract new`. -/
def startsFunctionType : P Bool := do
  let t ← cur
  if t.isPunct "<" || t.isWord "new" then return true
  if t.isWord "abstract" then return (← peek).isWord "new"
  if t.isPunct "(" then startsFunctionParams g
  else return false

/-- Whether a type may start at `t`, with `n` after it. A `?` after a type is the question of
a conditional type when a type follows it, and marks the type optional otherwise. -/
def startsType (t n : Token) : Bool :=
  match t.kind with
  | .punct p =>
    ["\x7b", "[", "<", "|", "&", "*", "?", "!", "...", "("].contains p ||
      (p == "-" && (n.kind matches .number .. | .bigint _))
  | .string _ | .number .. | .bigint _ | .template _ => true
  | .word w _ =>
    t.isIdentifier || ["void", "null", "this", "typeof", "new", "true", "false", "import",
      "function"].contains w
  | _ => false

/-- The first element of a tuple out of place, with the message that says why: a rest
element after a rest element, an optional one after a rest element, or a required one after
an optional one. The elements come with their character ranges. -/
def misplacedTupleElement (elements : List (TupleElement × Nat × Nat)) :
    Option (String × Nat × Nat) :=
  go false false elements
where
  /-- Looks through the elements, knowing whether a rest and an optional element were seen. -/
  go (seenRest seenOptional : Bool) : List (TupleElement × Nat × Nat) → Option (String × Nat × Nat)
    | [] => none
    | (.rest, a, b) :: more =>
      if seenRest then some ("A rest element cannot follow another rest element.", a, b)
      else go true seenOptional more
    | (.optional, a, b) :: more =>
      if seenRest then some ("An optional element cannot follow a rest element.", a, b)
      else go seenRest true more
    | (.required, a, b) :: more =>
      if seenOptional then some ("A required element cannot follow an optional element.", a, b)
      else go seenRest seenOptional more

/-- The elements of a tuple type, read from after its `[` up to and with its `]`. A labeled
element is named before a colon: `...` before the name makes it a rest element and `?` after
it an optional one; these marks belong there and not on the type. An element that is neither
rest nor optional cannot follow an optional one, and neither a rest nor an optional element
can follow a rest element; the first element out of place is reported once the list is
read. -/
def skipTupleElements : P Unit := do
  let elements ← loop ([] : List (TupleElement × Nat × Nat)) fun acc => do
    if ← listEnds "]" then return .done acc.reverse
    let start := (← cur).start
    let labeled := (← lookahead do
      discard <| eatPunct "..."
      if !(← cur).isName then return false
      advanceName
      if ← eatPunct ":" then return true
      if ← eatPunct "?" then return (← cur).isPunct ":"
      return false).getD false
    let kind ← if labeled then do
        let rest ← eatPunct "..."
        advanceName
        let optional ← eatPunct "?"
        expectPunct ":"
        let typeStart := (← cur).start
        let inner ← skipTupleElementType
        let stop := (← get).prevEnd
        match inner with
        | .optional =>
          report ("A labeled tuple element is declared as optional with a question mark " ++
            "after the name and before the colon, rather than after the type.") typeStart stop
        | .rest =>
          report ("A labeled tuple element is declared as rest with a '...' before the " ++
            "name, rather than before the type.") typeStart stop
        | .required => pure ()
        if rest then
          if optional then report "A tuple member cannot be both optional and rest." start stop
          pure TupleElement.rest
        else pure (if optional then TupleElement.optional else .required)
      else skipTupleElementType
    let acc := (kind, start, (← get).prevEnd) :: acc
    if ← afterListItem "]" then return .done acc.reverse
    return .more acc
  if let some (message, a, b) := misplacedTupleElement elements then report message a b
where
  /-- Reads the type of a tuple element: `...` and a type for a rest element, or a type,
  which makes an optional element when it ends in a postfix `?`. -/
  skipTupleElementType : P TupleElement := do
    if ← eatPunct "..." then
      discard g.shapedType
      return .rest
    if (← g.shapedType) == .optional then return .optional
    return .required

/-- Reads what an import type takes in parentheses: a module name, which must be a string
literal although any type is read there, and after a comma an object of options. -/
def skipImportTypeArguments : P Unit := do
  expectPunct "("
  let t ← cur
  g.type
  let stop := (← get).prevEnd
  if !(t.kind matches .string _ && stop == t.stop) then
    report "String literal expected." t.start stop
  if ← eatPunct "," then
    if !(← atPunct "\x7b") then expectPunct "\x7b"
    discard (forgetting g.assignment)
  expectPunct ")"

/-- Reads a type that no operator applies to, before its postfix parts. A parenthesized type
is only a parenthesized type here: function types stand at the top of a type. -/
def skipNonArrayType : P TypeShape := do
  let t ← cur
  match t.kind with
  | .punct "(" =>
    advance
    g.type
    expectPunct ")"
    return .other
  | .punct "[" =>
    advance
    skipTupleElements g
    return .tuple
  | .punct "\x7b" =>
    if ← mappedTypeAhead then skipMappedType g
    else
      advance
      skipTypeMembers g
    return .other
  | .template _ => skipTemplateType g; return .other
  | .string _ | .number .. | .bigint _ => advance; return .other
  | .punct "-" =>
    advance
    match (← cur).kind with
    | .number .. | .bigint _ => advance
    | _ => unexpected
    return .other
  | .word "typeof" _ =>
    advance
    if ← atWord "import" then
      advance
      skipImportTypeArguments g
      if ← eatPunct "." then skipEntityName
    else skipEntityName
    let n ← cur
    if n.isPunct "<" && !n.newlineBefore then skipTypeArgs g
    return .other
  | .word "import" _ =>
    advance
    skipImportTypeArguments g
    if ← eatPunct "." then skipEntityName
    if (← atPunct "<") then skipTypeArgs g
    return .other
  | .word "asserts" _ =>
    let n ← peek
    if !n.newlineBefore && n.isName then
      advance; advance
      if ← eatWord "is" then g.type
    else advance
    return .other
  | .word .. =>
    skipEntityName
    let n ← cur
    if n.isPunct "<" && !n.newlineBefore then skipTypeArgs g
    else if t.isWord "this" && (← get).prevEnd == t.stop && n.isWord "is" &&
        !n.newlineBefore then
      advance; g.type
    return .other
  | _ => unexpected

/-- Reads a type with its postfix parts on the same line: `[]` makes an array type, `[K]` an
indexed access, `!` a non-null type and `?` an optional type, unless a type follows the `?`,
which then belongs to a conditional type. Conditional types may stand anywhere inside. -/
def skipPostfixType : P TypeShape :=
  withContext (fun c => { c with checkedType := false }) do
    let shape ← skipNonArrayType g
    loop shape fun shape => do
      let t ← cur
      if t.newlineBefore then return .done shape
      if t.isPunct "[" then
        advance
        if ← eatPunct "]" then return .more .array
        g.type
        expectPunct "]"
        return .more .other
      if t.isPunct "!" then advance; return .more .other
      if t.isPunct "?" then
        let n ← peek
        if startsType n (← peek2) then return .done shape
        advance
        return .more .optional
      return .done shape

/-- Reads `infer` and the name it binds, with a constraint `extends C` when one follows.
Where a conditional type may stand, a constraint followed by `?` is the checked part of a
conditional type instead, and is left unread. -/
def skipInferType : P Unit := do
  advance
  if !(← cur).isName then unexpected
  advance
  if ← atWord "extends" then
    let checked := (← context).checkedType
    discard <| attempt do
      advance
      withContext (fun c => { c with checkedType := true }) g.type
      if !checked && (← atPunct "?") then unexpected

/-- Reads a type under the operators `keyof`, `unique` and `readonly`, or an `infer` type.
`readonly` applies only to array and tuple types; anything else under it is reported over
the word, the innermost first. -/
def skipOperatorType : P TypeShape := do
  let ops ← loop ([] : List Token) fun ops => do
    let t ← cur
    if t.isWord "keyof" || t.isWord "unique" || t.isWord "readonly" then
      advance
      return .more (t :: ops)
    return .done ops
  let shape ← if ← atWord "infer" then do skipInferType g; pure TypeShape.other
    else skipPostfixType g
  ops.foldlM (fun operand op => do
    if op.isWord "readonly" && !(operand matches .array | .tuple) then
      report "'readonly' type modifier is only permitted on array and tuple literal types."
        op.start op.stop
    return TypeShape.other) shape

/-- Reads operands joined by the operator `op`, which may also stand first; `operand`
reads one operand. A single operand with no operator keeps its shape. -/
def skipJoined (op : String) (operand : P TypeShape) : P TypeShape := do
  let leading ← eatPunct op
  let first ← operand
  loop (if leading then TypeShape.other else first) fun shape => do
    if ← eatPunct op then
      discard operand
      return .more .other
    return .done shape

/-- Reads a type: a function or constructor type, or a union of intersections with an
optional conditional part. Function types stand only here, not as the operands of unions,
intersections or type operators. -/
def skipType : P TypeShape := do
  if ← startsFunctionType g then
    if ← atWord "abstract" then advance
    if ← atWord "new" then advance
    skipFunctionType g
    return .other
  let shape ← skipJoined "|" (skipJoined "&" (skipOperatorType g))
  let t ← cur
  if t.isWord "extends" && !t.newlineBefore && !(← context).checkedType then
    advance
    withContext (fun c => { c with checkedType := true }) g.type
    expectPunct "?"
    withContext (fun c => { c with checkedType := false }) g.type
    expectPunct ":"
    withContext (fun c => { c with checkedType := false }) g.type
    return .other
  return shape

/-- Reads an optional return type annotation `: type`. -/
def skipReturnAnnotation : P Unit := do
  if (← config).typescript then
    if ← eatPunct ":" then skipReturnType g

/-- Reads an optional annotation `: type`. -/
def skipAnnotation : P Unit := do
  if (← config).typescript then
    if ← eatPunct ":" then g.type

end SignalSugar.Parse
