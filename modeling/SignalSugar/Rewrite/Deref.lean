import SignalSugar.Rewrite.Normalize
/-!
# Dereferencing a signal

A signal binding `name` with a read accessor `read` and a write accessor `write`. Inside the
binding's scope every use is rewritten:

| source                   | result                                                |
|--------------------------|-------------------------------------------------------|
| `name`                   | `read()`                                              |
| `$refSignal(name)`       | `[read, write]`                                       |
| `$get(name)`             | `read()`                                              |
| `$set(name)`             | `write`                                               |
| `{ k: $getter(name) }`   | `{ get k() { return read(); } }`                      |
| `{ k: $setter(name) }`   | `{ set k(_value) { return write(() => _value); } }`   |
| `{ k: $property(name) }` | the getter followed by the setter                     |
| `name = e`               | `write(() => e)`                                      |
| `name op= e`             | `write(_current => _current op e)`                    |
| `++name`, `--name`       | `write(_current => _current ± 1)`                     |
| `name++`, `name--`       | a closure that reads, writes and returns the old value |

A directive whose argument names another binding is left for the walk of that binding; one
whose argument is not a name fails, and so does an accessor directive that is not the value
of an object property. What a rewrite builds is not walked again; the right side of an
assignment is walked before it moves into the new closure. The operands a rewritten
directive drops are kept as subtrees cut off the program (see `Session`).
-/

namespace SignalSugar

/-- The directives a signal's uses may be wrapped in. -/
inductive Directive where
  | refSignal
  | get
  | set
  | getter
  | setter
  | property
deriving Repr, BEq, DecidableEq

/-- The name a directive is written with. -/
def Directive.text : Directive → String
  | .refSignal => "$refSignal"
  | .get => "$get"
  | .set => "$set"
  | .getter => "$getter"
  | .setter => "$setter"
  | .property => "$property"

/-- The directive a name stands for. -/
def Directive.ofName? (name : String) : Option Directive :=
  [Directive.refSignal, .get, .set, .getter, .setter, .property].find? (·.text == name)

/-- Accessor directives turn the object property around them into accessors. -/
def Directive.needsProperty : Directive → Bool
  | .getter | .setter | .property => true
  | _ => false

/-- The directive a call applies, when its callee is a directive's name. -/
def directiveOf (n : Node) : Option Directive :=
  match n.kind with
  | .call callee _ _ =>
    match callee.kind with
    | .ident x => Directive.ofName? x
    | _ => none
  | _ => none

/-- The name a directive call applies to: its first argument, which must be a name. -/
def directiveArgument (d : Directive) (call : Node) : Except RewriteError String :=
  match call.kind with
  | .call _ args _ =>
    match args with
    | [] => .error (.malformedArgument d.text "no argument" call.span)
    | first :: _ =>
      match first.kind with
      | .ident x => .ok x
      | k => .error (.malformedArgument d.text k.typeName first.span)
  | k => .error (.malformedArgument d.text k.typeName call.span)

/-- The accessors of a signal. -/
structure Accessors where
  read : String
  write : String

/-- The number one. -/
def one : Node := Node.make (.num ⟨0x3FF0000000000000⟩)

/-- `(params) => body` -/
def arrowOf (params : List Node) (body : Node) : Node := Node.make (.arrow params body true false)

/-- `(params) => { statements }` -/
def arrowBlock (params : List Node) (statements : List Node) : Node :=
  Node.make (.arrow params (Node.make (.block statements)) false false)

/-- `callee(args)` -/
def callOf (callee : String) (args : List Node) : Node :=
  Node.make (.call (Node.make (.ident callee)) args false)

/-- A reference to `name`. -/
def identOf (name : String) : Node := Node.make (.ident name)

/-- A binding of `name`. -/
def bindingOf (name : String) : Node := Node.make (.bindingIdent name)

/-- `return argument;` -/
def returnOf (argument : Node) : Node := Node.make (.returnStmt (some argument))

/-- `get key() { return read(); }` -/
def getterOf (acc : Accessors) (key : Key) : Kind :=
  .objMethod .get key [] (Node.make (.block [returnOf (callOf acc.read [])])) {}

/-- `set key(value) { return write(() => value); }` -/
def setterOf (acc : Accessors) (key : Key) (value : String) : Kind :=
  .objMethod .set key [bindingOf value]
    (Node.make (.block [returnOf (callOf acc.write [arrowOf [] (identOf value)])])) {}

/-- The update `++name`/`--name` (`leading`) or `name++`/`name--`, with a fresh name
`current`. -/
def updateOf (acc : Accessors) (op : UpdateOp) (leading : Bool) (current : String) : Kind :=
  let bop : BinaryOp := match op with
    | .incr => .add
    | .decr => .sub
  let next := Node.make (.binary bop (identOf current) one)
  if leading then
    .call (identOf acc.write) [arrowOf [bindingOf current] next] false
  else
    let old := Node.make (.varDecl .const
      [Node.make (.declarator (bindingOf current) (some (callOf acc.read [])))])
    let write := Node.make (.exprStmt (callOf acc.write [arrowOf [] next]))
    .call (arrowBlock [] [old, write, returnOf (identOf current)]) [] false

/-- What the walk of a node answers. -/
inductive Walked where
  /-- The node, and the nodes to insert after it in its parent's list. -/
  | done (n : Node) (after : List Node)
  /-- An accessor directive for the signal, standing as the value of an object property:
  the property is to become its accessors. -/
  | accessor (d : Directive) (call : Node)

/-- The node of an answer, for a place where no property stands. -/
def Walked.node (fallback : Node) : Walked → Node
  | .done n _ => n
  | .accessor .. => fallback

/-- Dereferences the signal `t` in the subtree standing at `p`. `asValue` tells that the
node is the value of an object property. -/
def derefWalk (t : Target) (acc : Accessors) (p : Place) (asValue : Bool) (n : Node) :
    Rewrite Walked := do
  let s := p.scopeOf n
  if t.shadowedIn (← get).scopes s then return .done n []
  let sp := n.span
  match hk : n.kind with
  | .call callee args optional =>
    match directiveOf n with
    | some d =>
      if d.needsProperty && !asValue then
        Rewrite.fail (.missingContext ("`" ++ d.text ++ "`") "object property" p.parentName sp)
      let arg ← match directiveArgument d n with
        | .ok a => pure a
        | .error e => Rewrite.fail e
      if arg != t.name then
        let callee' ← derefWalk t acc (p.child n .other) false callee
        let args' ← args.attach.mapM fun ⟨a, _⟩ => do
          let w ← derefWalk t acc (p.child n .other) false a
          pure (w.node a)
        return .done (n.withKind (.call (callee'.node callee) args' optional)) []
      let replaced (k : Kind) : Rewrite Walked := do
        let m := n.withKind k
        Rewrite.keepCut p n m
        return .done m []
      match d with
      | .refSignal => replaced (.array [some (identOf acc.read), some (identOf acc.write)])
      | .get => replaced (.call (identOf acc.read) [] false)
      | .set => replaced (.ident acc.write)
      | _ => return .accessor d n
    | none =>
      let callee' ← derefWalk t acc (p.child n .other) false callee
      let args' ← args.attach.mapM fun ⟨a, _⟩ => do
        let w ← derefWalk t acc (p.child n .other) false a
        pure (w.node a)
      return .done (n.withKind (.call (callee'.node callee) args' optional)) []
  | .update op leading arg =>
    if t.isReference arg then
      let current ← Rewrite.uidIn s "current"
      return .done (n.withKind (updateOf acc op leading current)) []
    let arg' ← derefWalk t acc (p.child n .operand) false arg
    return .done (n.withKind (.update op leading (arg'.node arg))) []
  | .assign op left right =>
    if t.isReference left then
      let right' := (← derefWalk t acc (p.child n .other) false right).node right
      let updater ← match op with
        | .plain => pure (arrowOf [] right')
        | .binary b => do
          let current ← Rewrite.uidIn s "current"
          pure (arrowOf [bindingOf current] (Node.make (.binary b (identOf current) right')))
        | .logical l => do
          let current ← Rewrite.uidIn s "current"
          pure (arrowOf [bindingOf current] (Node.make (.logical l (identOf current) right')))
      return .done (n.withKind (.call (identOf acc.write) [updater] false)) []
    let left' ← derefWalk t acc (p.child n .target) false left
    let right' ← derefWalk t acc (p.child n .other) false right
    return .done (n.withKind (.assign op (left'.node left) (right'.node right))) []
  | .ident x =>
    if x == t.name then
      if isWritten p.ancestors then Rewrite.fail (.readOnly t.name sp)
      return .done (n.withKind (.call (identOf acc.read) [] false)) []
    return .done n []
  | .property key value shorthand =>
    let key' ← match hkey : key with
      | .computed e => do
        let w ← derefWalk t acc (p.child n .other) false e
        pure (Key.computed (w.node e))
      | other => pure other
    match ← derefWalk t acc (p.child n .value) true value with
    | .done v _ => return .done (n.withKind (.property key' v shorthand)) []
    | .accessor d _ =>
      let (m, after) ← match d with
        | .getter => pure (n.withKind (getterOf acc key'), [])
        | .setter =>
          let v ← Rewrite.uidIn s "value"
          pure (n.withKind (setterOf acc key' v), [])
        | _ =>
          let setterKey := match key' with
            | .computed e => Key.computed e.copy
            | other => other
          let v ← Rewrite.uidIn s "value"
          pure (n.withKind (getterOf acc key'), [.mk 0 sp none (setterOf acc setterKey v)])
      Rewrite.keepCut p n m
      return .done m after
  | .object props =>
    let props' ← props.attach.mapM fun ⟨q, _⟩ => do
      match ← derefWalk t acc (p.child n .other) false q with
      | .done m after => pure (m :: after)
      | .accessor .. => pure [q]
    return .done (n.withKind (.object props'.flatten)) []
  | _ =>
    let k' ← n.kind.mapChildrenM fun c r _ => do
      let w ← derefWalk t acc (p.child n r) false c
      pure (w.node c)
    return .done (n.withKind k') []
termination_by sizeOf n
decreasing_by
  all_goals simp_wf
  all_goals
    have hn := Node.sizeOf_kind_lt n
    first
    | omega
    | (rw [hk] at hn; simp at hn; omega)
    | (have h := List.sizeOf_lt_of_mem ‹_›; rw [hk] at hn; simp at hn; omega)
    | (rw [hk] at hn; simp [hkey] at hn; omega)

namespace Rewrite

/-- Rewrites every use of the signal `name`, bound in the scope of the node with id `owner`,
inside that node. -/
def derefAt (owner : Nat) (name read write : String) : Rewrite Unit := do
  let t ← targetAt owner name
  updateAt owner fun p n => do
    let w ← derefWalk t ⟨read, write⟩ p false n
    pure (w.node n)

end Rewrite

end SignalSugar
