import SignalSugar.Rewrite.Deref
import SignalSugar.Name.Stem
import SignalSugar.Decimal.Read
/-!
# Lazy destructuring

`let { a, b: { c }, ...rest } = $destructure(props)` becomes

```
let _prop = () => props.a,
  _prop2 = () => props.b,
  _prop3 = () => _prop2().c,
  _other = _splitProps(props, ["a", "b"])[1],
  _other2 = _splitProps(_prop2(), ["c"])[1];
```

and every read of `a`, `c` or `rest` in the declaring scope becomes `_prop()`, `_prop3()` or
`_other`. Each leaf re-reads its source on every access; only the rest partition is
evaluated where the declaration stood.

The accessors are inserted before the declarator, in pattern order; the rest binding of a
pattern replaces the declarator or, for a nested pattern, follows it. A leaf with a default
reads `const _value = access; return _value == null ? default : _value;`.

Every accessor rewrites the reads of its name before the next element is looked at, so the
pattern, its source and its defaults are read again from the tree at each step.
-/

namespace SignalSugar

/-- The shape of one slot of a destructuring pattern. -/
inductive Element where
  | name (x : String)
  | nested (pattern : Node)
  | defaulted (inner : Element) (dflt : Node)
  | rest (x : String)

/-- The shapes a slot may have. -/
def elementShapes : String := "Identifier, ObjectPattern, ArrayPattern or AssignmentPattern"

/-- The shape of a pattern slot. -/
def classifyElement (n : Node) : Except RewriteError Element :=
  match n with
  | .mk _ _ _ (.bindingIdent x) | .mk _ _ _ (.ident x) => .ok (.name x)
  | .mk _ _ _ (.objectPattern ..) | .mk _ _ _ (.arrayPattern ..) => .ok (.nested n)
  | .mk _ _ _ (.assignPattern l r) => do
    let inner ← classifyElement l
    .ok (.defaulted inner r)
  | .mk _ _ _ (.rest a) =>
    match a.kind with
    | .bindingIdent x | .ident x => .ok (.rest x)
    | k => .error (.valueShape k.typeName "Identifier" a.span)
  | .mk _ sp _ (.member ..) => .error (.patternTarget "MemberExpression" sp)
  | .mk _ sp _ k => .error (.valueShape k.typeName elementShapes sp)

namespace Rewrite

/-- The owner of the scope of the node with id `x`. -/
def ownerAt (x : Nat) : Rewrite Nat := do
  let s ← scopeAt x
  return ((← get).scopes.get s).owner

/-- A number literal for an index. -/
def indexLiteral (i : Nat) : Node := Node.make (.num (Double.ofDecimal false i 0))

/-- `object.name`, or `object["name"]` when the name is not an identifier. -/
def memberOf (object : Node) (name : String) : Node :=
  if Name.isIdentifier name then Node.make (.member object (.named name) false)
  else Node.make (.member object (.computed (Node.make (.str name))) false)

/-- `() => access`, or with a default
`() => { const _value = access; return _value == null ? default : _value; }`. -/
def accessorOf (access : Node) (dflt : Option (Node × String)) : Node :=
  match dflt with
  | none => arrowOf [] access
  | some (d, value) =>
    let decl := Node.make (.varDecl .const
      [Node.make (.declarator (bindingOf value) (some access))])
    let test := Node.make (.binary .eq (identOf value) (Node.make .nullLit))
    let choice := Node.make (.cond test d.copy (identOf value))
    arrowBlock [] [decl, returnOf choice]

/-- Flattens `pattern`, read from `source`, into accessors around the declarator with id
`declarator` (see the module documentation). With `replace` the declarator becomes the rest
binding; otherwise the rest binding is inserted after it. `fuel` bounds the nesting of
patterns. -/
def destructure : Nat → Nat → Node → Node → Bool → Rewrite Unit
  | 0, _, _, _, _ => pure ()
  | fuel + 1, declarator, source, pattern, replace => do
    let other ← uidAt declarator "other"
    let owner ← ownerAt declarator
    let pattern ← refresh pattern
    let bind (access : Node) (element : Element) : Rewrite Unit := do
      let prop ← uidAt declarator "prop"
      let (binding, dflt) := match element with
        | .defaulted inner d => (inner, some d)
        | e => (e, none)
      let dflt ← match dflt with
        | some d => do
          let value ← uidAt declarator "value"
          pure (some (d, value))
        | none => pure none
      insertNear declarator
        (Node.make (.declarator (bindingOf prop) (some (accessorOf access dflt)))) false
      match binding with
      | .name x => normalizeAt owner (.invoke prop) x
      | .nested inner => destructure fuel declarator (callOf prop []) inner false
      | _ => fail (.valueShape "nested default or rest" elementShapes access.span)
    let (keys, rest) ← match pattern.kind with
      | .objectPattern props rest => do
        let keys ← props.foldlM (fun keys q => do
          let q ← refresh q
          match q.kind with
          | .bindingProperty key value _ =>
            let element ← check (classifyElement value)
            let object := (← refresh source).copy
            let (keyNode, access) ← match key with
              | .named name => pure (Node.make (.str name), memberOf object name)
              | .computed e =>
                pure (e.copy, Node.make (.member object (.computed e.copy) false))
              | .privateName name =>
                fail (.valueShape ("#" ++ name) "static or computed key" q.span)
            bind access element
            pure (keys ++ [keyNode])
          | k => fail (.valueShape k.typeName "BindingProperty" q.span)) []
        pure (keys, rest)
      | .arrayPattern elements rest => do
        let (keys, _) ← elements.foldlM (fun (keys, index) e => do
          match e with
          | none => pure (keys, index + 1)
          | some e =>
            let e ← refresh e
            let element ← check (classifyElement e)
            let object := (← refresh source).copy
            let access := Node.make (.member object (.computed (indexLiteral index)) false)
            bind access element
            pure (keys ++ [indexLiteral index], index + 1)) ([], 0)
        pure (keys, rest)
      | k => fail (.valueShape k.typeName "ObjectPattern or ArrayPattern" pattern.span)
    let restName ← match rest with
      | some r => do
        let r ← refresh r
        match ← check (classifyElement r) with
        | .rest x => pure (some x)
        | _ => fail (.valueShape r.typeName "RestElement" r.span)
      | none => pure none
    let init ← if keys.isEmpty then pure (← refresh source).copy
      else do
        let helper ← hook "splitProps"
        let object := (← refresh source).copy
        let split := callOf helper [object, Node.make (.array (keys.map some))]
        pure (Node.make (.member split (.computed (indexLiteral 1)) false))
    if replace then Rewrite.replace declarator (.declarator (bindingOf other) (some init))
    else insertNear declarator (Node.make (.declarator (bindingOf other) (some init))) true
    match restName with
    | some x => normalizeAt owner (.reference other) x
    | none => pure ()

end Rewrite

end SignalSugar
