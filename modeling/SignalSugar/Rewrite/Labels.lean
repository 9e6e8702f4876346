import SignalSugar.Rewrite.Destructure
/-!
# Labels

A label is a declarator whose initializer calls `$signal` or `$destructure`:

```
let count = $signal(0);          // let [_count, _setCount] = _createSignal(0);
const { a } = $destructure(p);   // const _prop = () => p.a, _other = p;
```

The sites are collected in pre-order, then expanded one by one in that order. A label call
whose name is bound where it stands calls a local function and is left alone; one that is
not a declarator's initializer fails.

A signal `x` gets the fresh names `_x` and `_setX` in the declarator's scope, its call calls
the imported `createSignal` instead, and its uses are dereferenced in the scope that declares
`x`. A destructuring label flattens its pattern. With `verify`, each expanded binding is then
checked for bare reads left behind.
-/

namespace SignalSugar

/-- The two labels. -/
inductive Label where
  | signal
  | destructure
deriving Repr, BEq, DecidableEq

/-- The name a label is written with. -/
def Label.text : Label → String
  | .signal => "$signal"
  | .destructure => "$destructure"

/-- The label a name stands for. -/
def Label.ofName? (name : String) : Option Label :=
  if name == "$signal" then some .signal
  else if name == "$destructure" then some .destructure
  else none

/-- A label call standing as a declarator's initializer. -/
structure Site where
  label : Label
  declarator : Nat
  call : Nat

/-- The label a node calls, when it is a call whose callee is a label's name. -/
def labelOf (n : Node) : Option Label :=
  match n.kind with
  | .call callee _ _ =>
    match callee.kind with
    | .ident x => Label.ofName? x
    | _ => none
  | _ => none

/-- The site of the node standing at `p`, if it is one, after `acc`: a label call that no
scope on its chain binds, which must stand as a declarator's initializer. -/
def siteAt (scopes : Scopes) (p : Place) (n : Node) (acc : List Site) :
    Except RewriteError (List Site) :=
  match labelOf n with
  | some l =>
    if scopes.has (p.scopeOf n) l.text then pure acc
    else
      match p.ancestors with
      | (d, .init) :: _ =>
        if d.kind matches .declarator .. then pure (acc ++ [⟨l, d.id, n.id⟩])
        else
          throw (.missingContext ("`" ++ l.text ++ "`") "variable declarator initializer"
            p.parentName n.span)
      | _ =>
        throw (.missingContext ("`" ++ l.text ++ "`") "variable declarator initializer"
          p.parentName n.span)
  | none => pure acc

/-- The label sites of the subtree standing at `p`, in pre-order, after `acc`. -/
def collectSites (scopes : Scopes) (p : Place) (n : Node) (acc : List Site) :
    Except RewriteError (List Site) := do
  let acc ← siteAt scopes p n acc
  n.kind.children.attach.foldlM (fun acc ⟨c, _⟩ =>
    collectSites scopes (p.child n c.role) c.node acc) acc
termination_by sizeOf n
decreasing_by have := c.lt; have := Node.sizeOf_kind_lt n; omega

/-- The names a pattern binds, in source order. -/
def boundNames (p : Node) : List String :=
  match p with
  | .mk _ _ _ (.bindingIdent x) => [x]
  | .mk _ _ _ (.objectPattern props rest) =>
    (props.attach.flatMap fun ⟨q, _⟩ =>
      match q with
      | .mk _ _ _ (.bindingProperty _ v _) => boundNames v
      | _ => []) ++
    (match rest with
      | some r => boundNames r
      | none => [])
  | .mk _ _ _ (.arrayPattern es rest) =>
    (es.attach.flatMap fun ⟨e, _⟩ =>
      match e with
      | some x => boundNames x
      | none => []) ++
    (match rest with
      | some r => boundNames r
      | none => [])
  | .mk _ _ _ (.assignPattern l _) => boundNames l
  | .mk _ _ _ (.rest a) => boundNames a
  | _ => []
termination_by p
decreasing_by
  all_goals simp_wf
  all_goals
    first
    | (have h := List.sizeOf_lt_of_mem ‹_›; simp at *; omega)
    | omega

namespace Rewrite

/-- The declarator of a site, as it stands now, in the program or cut off it. -/
def siteDeclarator (site : Site) : Rewrite (Option Node) := do
  match ← locate site.declarator with
  | some (d, _) => return some d
  | none => return none

/-- The binding of a declarator; fails when the node is not a declarator. -/
def declaratorTarget (d : Node) : Rewrite Node :=
  match d.kind with
  | .declarator t _ => pure t
  | k => fail (.missingContext "label" "variable declarator" k.typeName d.span)

/-- The arguments of the call with id `x`, as it stands now. -/
def callArguments (x : Nat) : Rewrite (List Node) := do
  match ← locate x with
  | some (n, _) =>
    match n.kind with
    | .call _ args _ => return args
    | _ => return []
  | none => return []

/-- Expands a `$signal` site. -/
def expandSignal (site : Site) (verify : Bool) : Rewrite Unit := do
  let some d ← siteDeclarator site | return
  let target ← declaratorTarget d
  let name ← match target.kind with
    | .bindingIdent x => pure x
    | k => fail (.valueShape k.typeName "Identifier" target.span)
  let s ← scopeAt site.declarator
  let scopes := (← get).scopes
  let owner := (scopes.get (scopes.declaring s name)).owner
  let read ← uidAt site.declarator name
  let write ← uidAt site.declarator ("set" ++ Name.capitalize name)
  let create ← hook "createSignal"
  let args ← callArguments site.call
  replace site.call (.call (identOf create) args false)
  replace target.id (.arrayPattern [some (bindingOf read), some (bindingOf write)] none)
  derefAt owner name read write
  if verify then verifyAt owner name

/-- Expands a `$destructure` site. -/
def expandDestructure (site : Site) (verify : Bool) : Rewrite Unit := do
  let some d ← siteDeclarator site | return
  let pattern ← declaratorTarget d
  match pattern.kind with
  | .objectPattern .. | .arrayPattern .. => pure ()
  | k => fail (.valueShape k.typeName "ObjectPattern or ArrayPattern" pattern.span)
  let source ← match ← callArguments site.call with
    | first :: _ => pure first
    | [] =>
      let span := match ← locate site.call with
        | some (c, _) => c.span
        | none => ⟨0, 0⟩
      fail (.malformedArgument "$destructure" "no argument" span)
  let names := boundNames pattern
  let owner ← ownerAt site.declarator
  destructure (pattern.count + 1) site.declarator source pattern true
  if verify then
    for x in names do verifyAt owner x

/-- Expands every label of the module; answers how many there were. -/
def expandLabels (verify : Bool) : Rewrite Nat := do
  let st ← get
  let sites ← check (collectSites st.scopes Place.top st.root [])
  for site in sites do
    match site.label with
    | .signal => expandSignal site verify
    | .destructure => expandDestructure site verify
  return sites.length

end Rewrite

end SignalSugar
