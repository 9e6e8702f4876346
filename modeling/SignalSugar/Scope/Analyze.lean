import SignalSugar.Scope.Table
import SignalSugar.Syntax.Node
/-!
# Scope analysis

One pre-order walk over a module opens the scopes and records the declarations:

* the program, every function-like node and static blocks open function scopes; classes,
  loop heads, `switch` statements, `catch` clauses and every block that is not the body of a
  function or of a `catch` clause open block scopes;
* `var` declarations and parameters bind in the nearest function scope; `let`, `const`,
  functions, classes and imports in the nearest scope; a function expression's own name in
  its own scope, a class expression's name in its class scope, a `catch` parameter in its
  clause's scope;
* every identifier spelled in the module, and the head of every JSX element name, is
  recorded as taken.

A node that owns a scope carries the scope's index; every other node belongs to the scope
of its nearest owning ancestor.
-/

namespace SignalSugar

namespace ScopeWalk

/-- Declares the names a binding pattern binds. -/
def declarePattern (s : Nat) (p : Node) (t : Scopes) : Scopes :=
  match p with
  | .mk _ _ _ (.bindingIdent name) => t.declare s name
  | .mk _ _ _ (.objectPattern props rest) =>
    let t := props.attach.foldl (fun t ⟨q, _⟩ =>
      match q with
      | .mk _ _ _ (.bindingProperty _ v _) => declarePattern s v t
      | _ => t) t
    match rest with
    | some r => declarePattern s r t
    | none => t
  | .mk _ _ _ (.arrayPattern es rest) =>
    let t := es.attach.foldl (fun t ⟨e, _⟩ =>
      match e with
      | some x => declarePattern s x t
      | none => t) t
    match rest with
    | some r => declarePattern s r t
    | none => t
  | .mk _ _ _ (.assignPattern l _) => declarePattern s l t
  | .mk _ _ _ (.rest a) => declarePattern s a t
  | _ => t
termination_by p
decreasing_by
  all_goals simp_wf
  all_goals
    first
    | (have h := List.sizeOf_lt_of_mem ‹_›; simp at *; omega)
    | omega

/-- The head of a JSX element name: the part before the first `.` or `:`. -/
def jsxHead (name : String) : String :=
  String.ofList (name.toList.takeWhile fun c => c != '.' && c != ':')

/-- Opens a scope owned by `n`. -/
def openAt (kind : ScopeKind) (parent : Nat) (n : Node) : StateM Scopes Nat := do
  let (t, k) := (← get).openScope kind (some parent) n.id n.typeName n.span
  set t
  return k

/-- Declares the names bound by each parameter. -/
def declareParams (s : Nat) (params : List Node) : StateM Scopes Unit :=
  modify fun t => params.foldl (fun t p => declarePattern s p t) t

/-- The name of a binding identifier. -/
def nameOf : Option Node → Option String
  | some (.mk _ _ _ (.bindingIdent x)) => some x
  | _ => none

/-- What a node does to the scopes: the scope it owns, if any, and the scope and function
scope its children belong to. `parent` is the kind of its parent. -/
def enter (parent : Option Kind) (scope hoist : Nat) (n : Node) :
    StateM Scopes (Option Nat × Nat × Nat) := do
  match n.kind with
  | .ident name | .bindingIdent name =>
    modify fun t => { t with names := t.names.insert name }
    return (none, scope, hoist)
  | .varDecl kind ds =>
    let target := if kind == .var then hoist else scope
    modify fun t => ds.foldl (fun t d =>
      match d.kind with
      | .declarator p _ => declarePattern target p t
      | _ => t) t
    return (none, scope, hoist)
  | .importDecl specs _ =>
    modify fun t => specs.foldl (fun t sp => t.declare scope sp.localName) t
    return (none, scope, hoist)
  | .funcDecl name params _ _ =>
    if let some x := nameOf name then modify fun t => t.declare scope x
    let f ← openAt .function scope n
    declareParams f params
    return (some f, f, f)
  | .funcExpr name params _ _ =>
    let f ← openAt .function scope n
    if let some x := nameOf name then modify fun t => t.declare f x
    declareParams f params
    return (some f, f, f)
  | .arrow params .. | .objMethod _ _ params .. | .classMethod _ _ _ params .. =>
    let f ← openAt .function scope n
    declareParams f params
    return (some f, f, f)
  | .staticBlock _ =>
    let f ← openAt .function scope n
    return (some f, f, f)
  | .classDecl name .. =>
    if let some x := nameOf name then modify fun t => t.declare scope x
    let c ← openAt .block scope n
    return (some c, c, hoist)
  | .classExpr name .. =>
    let c ← openAt .block scope n
    if let some x := nameOf name then modify fun t => t.declare c x
    return (some c, c, hoist)
  | .forStmt .. | .forIn .. | .forOf .. | .switchStmt .. =>
    let b ← openAt .block scope n
    return (some b, b, hoist)
  | .catchClause param _ =>
    let c ← openAt .block scope n
    if let some p := param then modify fun t => declarePattern c p t
    return (some c, c, hoist)
  | .block _ =>
    let ownedBody := match parent with
      | some k => k.isFunctionLike || (k matches .catchClause ..)
      | none => false
    if ownedBody then return (none, scope, hoist)
    let b ← openAt .block scope n
    return (some b, b, hoist)
  | .jsxElement name .. =>
    modify fun t => { t with names := t.names.insert (jsxHead name) }
    return (none, scope, hoist)
  | _ => return (none, scope, hoist)

/-- Walks a subtree in pre-order, marking the owners of scopes. -/
def walk (parent : Option Kind) (scope hoist : Nat) (n : Node) : StateM Scopes Node := do
  let (mark, scope, hoist) ← enter parent scope hoist n
  let k ← n.kind.mapChildrenM fun c _ _ => walk (some n.kind) scope hoist c
  return .mk n.id n.span (mark.orElse fun _ => n.scope) k
termination_by sizeOf n
decreasing_by have := Node.sizeOf_kind_lt n; omega

end ScopeWalk

/-- The scopes of a module whose root is `root`: the root with every scope owner marked, and
the scope table. The root owns the program scope. -/
def analyzeScopes (root : Node) : Node × Scopes :=
  let t0 : Scopes := { table := #[], names := [] }
  let (t1, p) := t0.openScope .program none root.id root.typeName root.span
  let (root, t) := (ScopeWalk.walk none p p root).run t1
  (.mk root.id root.span (some p) root.kind, t)

end SignalSugar
