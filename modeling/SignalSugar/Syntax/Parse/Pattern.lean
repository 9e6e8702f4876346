import SignalSugar.Syntax.Parse.Types
import SignalSugar.Print.Number
/-!
# Keys, patterns and parameters

* `parseKey` reads the key of a property, method or class member: a name (keywords
  included), a string, a number (kept as its printed text, so `0x10` and `16` are the same
  key), a computed `[expression]`, or a private `#name` where the caller allows one.
* `parseTarget` reads a binding target: a name, or an array or object pattern whose elements
  may carry defaults and end with a rest element.
* `parseParams` reads a parameter list. TypeScript's `this` parameter is dropped; parameter
  properties and decorated parameters are outside the rewriter's subset.
* `targetOf` turns an expression read before an `=` (or as the head of a `for … of`)
  into the assignment target it stands for: array and object literals become patterns whose
  leaves are references.
-/

namespace SignalSugar.Parse

variable (g : Grammar)

/-- A key as read, with the token it started with, for shorthand properties. -/
structure ReadKey where
  key : Key
  start : Nat
  /-- The name when the key is written as a plain identifier name. -/
  plainName : Option String
  first : Token
  /-- For a computed key, the range of the expression inside the brackets. -/
  inner : Option (Nat × Nat) := none

/-- Reads a property key. Private names are taken only when `allowPrivate` holds. -/
def parseKey (allowPrivate : Bool) : P ReadKey := do
  let t ← cur
  match t.kind with
  | .word w _ => advanceName; return ⟨.named w, t.start, some w, t, none⟩
  | .string v => advance; return ⟨.named v, t.start, none, t, none⟩
  | .number v _ => advance; return ⟨.named v.text, t.start, none, t, none⟩
  | .bigint _ =>
    advance
    unsupported "property key" t.start t.stop
    return ⟨.named (← slice t.start t.stop), t.start, none, t, none⟩
  | .hash name =>
    if allowPrivate then advance; return ⟨.privateName name, t.start, none, t, none⟩
    else unexpected
  | .punct "[" =>
    advance
    let a := (← cur).start
    let e ← withContext (fun c => { c with noIn := false }) g.assignment
    let b := (← get).prevEnd
    expectPunct "]"
    return ⟨.computed e, t.start, none, t, some (a, b)⟩
  | _ => unexpected

/-- Reports `await` or `yield` used as a name where it is an operator: in an async function
or at the top of the module, or in a generator. -/
def checkNameWord (t : Token) : P Unit := do
  let ctx ← context
  if t.isWord "await" && (ctx.isAsync || !ctx.inFunction) then
    report "Cannot use `await` as an identifier in an async context" t.start t.stop
  if t.isWord "yield" && ctx.generator then
    report "Cannot use `yield` as an identifier in a generator context" t.start t.stop

/-- Reads a binding name. A reserved word is named in the error. -/
def parseBindingName : P Node := do
  let t ← cur
  match t.kind with
  | .word w _ =>
    if reservedWords.contains w then failAt (reservedWordMessage w) t.start t.stop
    checkNameWord t
    advanceName
    node t.start t.stop (.bindingIdent w)
  | _ => unexpected

/-- Reads an optional default `= expression` after a target that started at `start`. -/
def withDefault (start : Nat) (target : Node) : P Node := do
  if ← eatPunct "=" then
    let right ← withContext (fun c => { c with noIn := false }) g.assignment
    finish start (.assignPattern target right)
  else return target

/-- A rest element as read, with its character range and that of its type annotation. -/
structure ReadRest where
  node : Node
  start : Nat
  stop : Nat
  annotation : Option (Nat × Nat) := none

/-- Reads a rest element at its `...`: a target, in TypeScript an optional mark and a type,
and no default. A default is read and reported. -/
def parseRestElement : P ReadRest := do
  let t ← cur
  let ts := (← config).typescript
  advance
  let argStart := (← cur).start
  let arg ← g.target
  if ts then
    let q ← cur
    if q.isPunct "?" then
      advance
      report "A rest parameter cannot be optional" q.start q.stop
  let annotationStart := (← cur).start
  if ts then skipAnnotation g
  let annotationStop := (← get).prevEnd
  let arg ← if ← eatPunct "=" then do
      let right ← withContext (fun c => { c with noIn := false }) g.assignment
      let d ← finish argStart (.assignPattern arg right)
      report "A rest element cannot have an initializer." argStart (← get).prevEnd
      pure d
    else pure arg
  let r ← finish t.start (.rest arg)
  let annotation := if annotationStart < annotationStop then some (annotationStart, annotationStop)
    else none
  return ⟨r, t.start, (← get).prevEnd, annotation⟩

/-- One round of a list closed by `close` that may end with a rest element: before an element
other than the first, its comma. Answers true when the list ends here, at its end or at the
end of the input; a comma right before the end may not follow a rest element. -/
def restListStep (close : String) (first : Bool) (rest : Option ReadRest) : P Bool := do
  let t ← cur
  if t.isPunct close || t.kind == .eof then return true
  if first then return false
  if !t.isPunct "," then failAt (expectedSeparator close t) t.start t.stop
  advance
  if (← cur).isPunct close then
    if rest.isSome then
      report "A rest parameter or binding pattern may not have a trailing comma." t.start t.stop
    return true
  return false

/-- Reports a rest element that is not last. -/
def restNotLast (message : String) (rest : Option ReadRest) : P Unit :=
  match rest with
  | some r => report message r.start r.stop
  | none => pure ()

/-- Reads an array binding pattern at its `[`. -/
def parseArrayPattern : P Node := do
  let start := (← cur).start
  advance
  let message := "A rest element must be last in a destructuring pattern"
  let (elements, rest) ← loop (([] : List (Option Node)), (none : Option ReadRest), true)
    fun (acc, rest, first) => do
      if ← restListStep "]" first rest then return .done (acc.reverse, rest)
      let t ← cur
      if t.isPunct "," then return .more (none :: acc, rest, false)
      if t.isPunct "..." then
        let r ← parseRestElement g
        restNotLast message rest
        return .more (acc, some r, false)
      restNotLast message rest
      let target ← g.target
      let element ← withDefault g t.start target
      return .more (some element :: acc, rest, false)
  expectPunct "]"
  finish start (.arrayPattern elements (rest.map (·.node)))

/-- Reads one property of an object binding pattern. -/
def parseBindingProperty : P Node := do
  let t ← cur
  let k ← parseKey g false
  if (← atPunct ":") || k.plainName.isNone then
    expectPunct ":"
    let vt ← cur
    let target ← g.target
    let value ← withDefault g vt.start target
    finish t.start (.bindingProperty k.key value false)
  else
    if !k.first.isIdentifier then
      if let .word w _ := k.first.kind then
        failAt (reservedWordMessage w) k.first.start k.first.stop
      failAt "Unexpected token" k.first.start k.first.stop
    checkNameWord k.first
    let name := k.plainName.getD ""
    let ident ← node k.first.start k.first.stop (.bindingIdent name)
    let value ← withDefault g t.start ident
    finish t.start (.bindingProperty k.key value true)

/-- Reads an object binding pattern at its `{`. The rest element must be a name. -/
def parseObjectPattern : P Node := do
  let start := (← cur).start
  advance
  let message := "A rest element must be last in a destructuring pattern"
  let (props, rest) ← loop (([] : List Node), (none : Option ReadRest), true)
    fun (acc, rest, first) => do
      if ← restListStep "\x7d" first rest then return .done (acc.reverse, rest)
      if ← atPunct "..." then
        let r ← parseRestElement g
        if let some (a, b) := r.annotation then
          report "A rest element cannot have a property name." a b
        restNotLast message rest
        return .more (acc, some r, false)
      restNotLast message rest
      let prop ← parseBindingProperty g
      return .more (prop :: acc, rest, false)
  if let some r := rest then
    match r.node.kind with
    | .rest a =>
      if !(a.kind matches .bindingIdent _) then
        failAt "Invalid rest element" (r.start + 3) r.stop
    | _ => pure ()
  expectPunct "\x7d"
  finish start (.objectPattern props (rest.map (·.node)))

/-- Reads a binding target: a name or a pattern. -/
def parseTarget : P Node := do
  let t ← cur
  if t.isPunct "[" then parseArrayPattern g
  else if t.isPunct "\x7b" then parseObjectPattern g
  else parseBindingName

/-- The parentheses around `n`, if it was written in parentheses. -/
def parensOf (n : Node) : P (Option (Nat × Nat)) :=
  if n.id == 0 then pure none else parenthesized n.id

/-- Reads a decorator: `@` and a left-hand-side expression, which an optional chain can only
be in parentheses. -/
def parseDecorator : P Unit := do
  expectPunct "@"
  let a := (← cur).start
  let e ← g.decorator
  if e.kind matches .chain _ then
    if (← parensOf e).isNone then
      report "Expression must be enclosed in parentheses to be used as a decorator." a
        (← get).prevEnd

/-- Reads one parameter; none for TypeScript's `this` parameter, which only the first
parameter may be: its range is kept in the state, and a comma must follow it unless the list
ends there. Decorators and modifiers are read first; modifiers are refused in plain scripts, and
in TypeScript all but those that make a constructor's parameter a class property. -/
def parseParam (first : Bool) : P (Option Node) := do
  let start := (← cur).start
  let ts := (← config).typescript
  let ctx ← context
  let decorated ← loop false fun seen => do
    if ← atPunct "@" then
      let d ← cur
      parseDecorator g
      if !ctx.inClass then
        report "Decorators are not valid here." d.start (← get).prevEnd
      return .more true
    return .done seen
  let mods ← parseModifierList false false
  if ts then verifyModifiers (.parameter ctx.constructorParams) mods
  else
    for m in mods do
      report "Parameter modifiers can only be used in TypeScript files." m.start m.stop
  let modified := !mods.isEmpty
  let t ← cur
  if ts && first && t.isWord "this" && !modified && !decorated then
    advance
    skipAnnotation g
    let stop := (← get).prevEnd
    modify fun s => { s with thisParam := some (t.start, stop) }
    if !(← atPunct ")") then expectPunct ","
    return none
  withContext (fun c => { c with constructorParams := false }) <| claiming do
    if t.isPunct "..." then
      let r ← parseRestElement g
      let own ← if decorated && ctx.inClass then some <$> unsupportedError "decorator" start (← get).prevEnd
        else pure none
      return (some r.node, own)
    let target ← g.target
    let nameEnd := (← get).prevEnd
    let optional ← if ts then eatPunct "?" else pure false
    skipAnnotation g
    let param ← if ← atPunct "=" then do
        if optional then
          report "A parameter cannot have a question mark and an initializer." t.start nameEnd
        advance
        let right ← withContext (fun c => { c with noIn := false }) g.assignment
        finish start (.assignPattern target right)
      else pure target
    let stop := (← get).prevEnd
    let own ← if decorated && ctx.inClass then some <$> unsupportedError "decorator" start stop
      else if modified then some <$> unsupportedError "parameter property" start stop
      else pure none
    return (some param, own)

/-- Reads a parameter list `( ... )`; a rest parameter must come last. The range of its
TypeScript `this` parameter, if it has one, is left in the state. -/
def parseParams : P (List Node) := do
  expectPunct "("
  let message := "A rest parameter must be last in a parameter list"
  let (params, rest, this) ← loop
    (([] : List Node), (none : Option ReadRest), (none : Option (Nat × Nat)), true)
    fun (acc, rest, this, first) => do
      if ← restListStep ")" first rest then return .done (acc.reverse, rest, this)
      if ← atPunct "..." then
        let r ← parseRestElement g
        restNotLast message rest
        return .more (acc, some r, this, false)
      restNotLast message rest
      match ← parseParam g first with
      | some p => return .more (p :: acc, rest, this, false)
      | none => return .more (acc, rest, (← get).thisParam, true)
  expectPunct ")"
  modify fun s => { s with thisParam := this }
  return params ++ (rest.map (·.node)).toList

/-- The character range of a byte span of the source. -/
def charRange (span : Span) : P (Nat × Nat) := do
  let src ← source
  let charAt (b : Nat) : Nat :=
    ((List.range (src.size + 1)).find? (fun i => src.byteAt i == b)).getD 0
  return (charAt span.start, charAt span.stop)

/-- Checks the parameters of an accessor, read over `[a, b)`: a getter takes none, a setter
exactly one, which may not be a rest parameter. -/
def checkAccessorParams (kind : MethodKind) (params : List Node) (a b : Nat) : P Unit := do
  let rest := params.find? fun p => p.kind matches .rest _
  match kind with
  | .get =>
    if params.any (fun p => !(p.kind matches .rest _)) then
      report "A 'get' accessor must not have any formal parameters." a b
  | .set =>
    match rest with
    | some r =>
      let (x, y) ← charRange r.span
      report "A 'set' accessor cannot have rest parameter." x y
    | none =>
      if params.length != 1 then report "A 'set' accessor must have exactly one parameter." a b
  | _ => pure ()

/-- The error of an expression that cannot be assigned to. -/
def notAssignable (n : Node) : P α := do
  let (start, stop) ← charRange n.span
  failAt "Cannot assign to this expression" start stop

/-- Refuses a name or member access given type arguments, `f<T>`, as an assignment target:
such an expression is no variable or property access. -/
def checkNotInstantiated (n : Node) : P Unit := do
  if n.id == 0 then return
  if let some (_, a, b) := (← get).instantiations.find? (·.1 == n.id) then
    failAt ("The left-hand side of an assignment expression must be a variable or a " ++
      "property access.") a b

/-- Forgets the shorthand default of the property with id `x`: a pattern holds it. -/
def takeCoverInit (x : Nat) : P Unit :=
  modify fun s => { s with coverInits := s.coverInits.filter (·.1 != x) }

/-- Reports a comma after the rest element of the literal with id `x`. -/
def checkRestComma (x : Nat) : P Unit := do
  match (← get).restCommas.find? (·.1 == x) with
  | some (_, a, b) =>
    report "A rest parameter or binding pattern may not have a trailing comma." a b
  | none => pure ()

mutual

/-- The assignment target an expression stands for. An array or object literal in
parentheses is not a pattern; other parentheses are looked through. -/
def targetOf (n : Node) : P Node := do
  match ← parensOf n with
  | some (a, b) =>
    match n.kind with
    | .array _ | .object _ => failAt "Cannot assign to this expression" a b
    | .ident _ | .member .. => checkNotInstantiated n; pure n
    | _ => notAssignable n
  | none =>
    match n with
    | .mk id span scope k =>
      match k with
      | .ident _ | .member .. => checkNotInstantiated n; pure n
      | .array elements => do
        let (items, rest) ← targetElements elements
        if rest.isSome then checkRestComma id
        pure (.mk id span scope (.arrayPattern items rest))
      | .object props => do
        let (items, rest) ← targetProperties props
        if rest.isSome then checkRestComma id
        pure (.mk id span scope (.objectPattern items rest))
      | .assignPattern .. | .arrayPattern .. | .objectPattern .. => pure n
      | _ => notAssignable n
termination_by (sizeOf n, 1)
decreasing_by all_goals first | (apply Prod.Lex.left; simp; omega) | (apply Prod.Lex.right; omega)

/-- The target of a rest element's argument: an assignment there is reported first. -/
def restTarget (arg : Node) : P Node := do
  if arg.kind matches .assign .. then
    if (← parensOf arg).isNone then
      let (a, b) ← charRange arg.span
      report "Invalid rest operator's argument." a b
  targetOf arg
termination_by (sizeOf arg, 2)
decreasing_by all_goals (apply Prod.Lex.right; omega)

/-- The targets of array elements; a spread element may only stand last, as the rest. -/
def targetElements (es : List (Option Node)) : P (List (Option Node) × Option Node) :=
  match es with
  | [] => pure ([], none)
  | [some (.mk rid rspan rscope (.spread arg))] => do
    let t ← restTarget arg
    pure ([], some (.mk rid rspan rscope (.rest t)))
  | none :: rest => do
    let (items, r) ← targetElements rest
    pure (none :: items, r)
  | some x :: rest => do
    if x.kind matches .spread _ then
      let (a, b) ← charRange x.span
      failAt "Spread must be last element" a b
    let t ← targetWithDefault x
    let (items, r) ← targetElements rest
    pure (some t :: items, r)
termination_by (sizeOf es, 0)
decreasing_by all_goals (apply Prod.Lex.left; simp <;> omega)

/-- The targets of object members; a spread member may only stand last, as the rest. -/
def targetProperties (ps : List Node) : P (List Node × Option Node) :=
  match ps with
  | [] => pure ([], none)
  | [.mk rid rspan rscope (.spread arg)] => do
    let t ← restTarget arg
    pure ([], some (.mk rid rspan rscope (.rest t)))
  | .mk pid pspan pscope (.property key value shorthand) :: rest => do
    takeCoverInit pid
    let v ← targetWithDefault value
    let (items, r) ← targetProperties rest
    pure (.mk pid pspan pscope (.bindingProperty key v shorthand) :: items, r)
  | other :: _ => do
    if other.kind matches .spread _ then
      let (a, b) ← charRange other.span
      failAt "Spread must be last element" a b
    notAssignable other
termination_by (sizeOf ps, 0)
decreasing_by all_goals (apply Prod.Lex.left; simp <;> omega)

/-- The assignment target of an element that may carry a default `= value`. A compound
assignment there is reported, and read as a default. -/
def targetWithDefault (n : Node) : P Node := do
  match ← parensOf n with
  | some _ => targetOf n
  | none =>
    match n with
    | .mk id span scope (.assign op l r) => do
      if !(op matches .plain) then
        let (a, b) ← charRange span
        report "Only '=' operator can be used for specifying default value." a b
      let t ← targetOf l
      pure (.mk id span scope (.assignPattern t r))
    | other => targetOf other
termination_by (sizeOf n, 3)
decreasing_by all_goals first | (apply Prod.Lex.left; simp; omega) | (apply Prod.Lex.right; omega)

end

end SignalSugar.Parse
