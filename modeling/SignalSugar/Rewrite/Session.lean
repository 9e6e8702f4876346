import SignalSugar.Scope.Analyze
import SignalSugar.Error
/-!
# A rewrite session

A module under rewrite: its tree, its scope table and the runtime helpers imported so far.
Rewrites run in `Rewrite`, which threads the session and stops at the first `RewriteError`.

Nodes read from the source have distinct ids; nodes built by a rewrite and copies of
subtrees have id 0 and own no scope. Operations that name a node do so by id, so they only
name nodes read from the source. Replacing a node keeps its id, span and scope.

A replacement may cut subtrees off the program: the operands of a directive call, or the
pattern and the call of a flattened declarator. Such a subtree is kept, standing where it
stood, with the node that replaced its parent as its parent. Label sites collected inside
it are still expanded there: that takes fresh names, imports helpers and may fail, though
nothing of it is printed. Operations by id look in the program first, then in the subtrees
cut off.

A walk sees each node at a `Place`: the scope of its parent and its ancestors with the role
it has in each. The scope of a node is its own if it owns one, and its parent's otherwise.
-/

namespace SignalSugar

/-- Where a node stands in a walk. -/
structure Place where
  /-- The scope of the node's parent. -/
  scope : Nat
  /-- The parent with the node's role in it, then the grandparent, and so on. -/
  ancestors : List (Node × Role)

/-- A module under rewrite. -/
structure Session where
  root : Node
  /-- The subtrees cut off the program, each at its place, in the order they were cut. -/
  detached : List (Node × Place)
  scopes : Scopes
  /-- The module runtime helpers are imported from. -/
  hookSource : String
  /-- The helpers imported so far, with their local names. -/
  hooks : List (String × String)

/-- A rewrite step: it changes the session or fails. -/
abbrev Rewrite := StateT Session (Except RewriteError)

/-- The place of the root. -/
def Place.top : Place := ⟨0, []⟩

/-- The scope of a node standing at `p`. -/
def Place.scopeOf (p : Place) (n : Node) : Nat := n.scope.getD p.scope

/-- The place of a child of `n` (standing at `p`) in role `r`. -/
def Place.child (p : Place) (n : Node) (r : Role) : Place := ⟨p.scopeOf n, (n, r) :: p.ancestors⟩

/-- The type name of the parent, or "nothing" at the root. -/
def Place.parentName (p : Place) : String :=
  match p.ancestors with
  | (n, _) :: _ => n.typeName
  | [] => "nothing"

namespace Node

/-- A node built by a rewrite. -/
abbrev make (k : Kind) : Node := Node.built k

/-- A deep copy: every node of the copy has id 0 and owns no scope; spans are kept. -/
def copy (n : Node) : Node :=
  .mk 0 n.span none (Id.run (n.kind.mapChildrenM fun c _ _ => pure (copy c)))
termination_by sizeOf n
decreasing_by have := Node.sizeOf_kind_lt n; omega

/-- Whether the subtree holds a node with id `x`. -/
def hasId (x : Nat) (n : Node) : Bool :=
  n.id == x || n.kind.children.any fun c => hasId x c.node
termination_by sizeOf n
decreasing_by have := c.lt; have := Node.sizeOf_kind_lt n; omega

/-- The number of nodes in the subtree. -/
def count (n : Node) : Nat :=
  (n.kind.children.map fun c => count c.node).foldl (· + ·) 1
termination_by sizeOf n
decreasing_by have := c.lt; have := Node.sizeOf_kind_lt n; omega

/-- The node with id `x` and its place, when the subtree standing at `p` holds it. -/
def find (x : Nat) (p : Place) (n : Node) : Option (Node × Place) :=
  if n.id == x then some (n, p)
  else n.kind.children.findSome? fun c => find x (p.child n c.role) c.node
termination_by sizeOf n
decreasing_by have := c.lt; have := Node.sizeOf_kind_lt n; omega

/-- Rewrites the node with id `x` by `f`, given its place; other nodes are kept. -/
def updateAt {m : Type → Type} [Monad m] (x : Nat) (f : Place → Node → m Node) (p : Place)
    (n : Node) : m Node :=
  if n.id == x then f p n
  else if !n.hasId x then pure n
  else do
    let k ← n.kind.mapChildrenM fun c r _ => updateAt x f (p.child n r) c
    return n.withKind k
termination_by sizeOf n
decreasing_by have := Node.sizeOf_kind_lt n; omega

/-- Rewrites the parent of the node with id `x` by `f`, given the parent's place. -/
def updateParentOf {m : Type → Type} [Monad m] (x : Nat) (f : Place → Node → m Node)
    (p : Place) (n : Node) : m Node :=
  if n.kind.children.any (fun c => c.node.id == x) then f p n
  else if !n.hasId x then pure n
  else do
    let k ← n.kind.mapChildrenM fun c r _ => updateParentOf x f (p.child n r) c
    return n.withKind k
termination_by sizeOf n
decreasing_by have := Node.sizeOf_kind_lt n; omega

end Node

/-- Inserts `node` next to the element with id `x` of a list. -/
def insertNext (x : Nat) (node : Node) (after : Bool) : List Node → List Node
  | [] => []
  | c :: rest =>
    if c.id == x then (if after then c :: node :: rest else node :: c :: rest)
    else c :: insertNext x node after rest

/-- The construct with `node` inserted next to its list element with id `x`, when it keeps
such an element in a list of statements, declarators or members. -/
def Kind.insertSibling (k : Kind) (x : Nat) (node : Node) (after : Bool) : Option Kind :=
  let hit (xs : List Node) : Bool := xs.any fun c => c.id == x
  match k with
  | .program b => if hit b then some (.program (insertNext x node after b)) else none
  | .block b => if hit b then some (.block (insertNext x node after b)) else none
  | .staticBlock b => if hit b then some (.staticBlock (insertNext x node after b)) else none
  | .classDecl i s b => if hit b then some (.classDecl i s (insertNext x node after b)) else none
  | .classExpr i s b => if hit b then some (.classExpr i s (insertNext x node after b)) else none
  | .switchCase t b => if hit b then some (.switchCase t (insertNext x node after b)) else none
  | .varDecl d ds => if hit ds then some (.varDecl d (insertNext x node after ds)) else none
  | .object ps => if hit ps then some (.object (insertNext x node after ps)) else none
  | .objectPattern ps r =>
    if hit ps then some (.objectPattern (insertNext x node after ps) r) else none
  | .seq es => if hit es then some (.seq (insertNext x node after es)) else none
  | _ => none

/-- The message of a failed sibling insertion. -/
def siblingMissing (found : String) (span : Span) : RewriteError :=
  .missingContext "sibling insertion" "statement, declarator or member list" found span

/-- The tree `t`, standing at `p`, with `node` inserted before or after its node with id `x`,
in that node's parent's list. The root of `t` has no parent there: its parent, if any, no
longer holds it. -/
def Node.insertNear (x : Nat) (node : Node) (after : Bool) (p : Place) (t : Node) :
    Except RewriteError Node :=
  if t.id == x then
    .error (if p.ancestors.isEmpty then siblingMissing "nothing" ⟨0, 0⟩
      else siblingMissing p.parentName t.span)
  else
    match t.find x p with
    | none | some (_, ⟨_, []⟩) => .error (siblingMissing "nothing" ⟨0, 0⟩)
    | some (anchor, ⟨_, (parent, _) :: _⟩) =>
      match parent.kind.insertSibling x node after with
      | none => .error (siblingMissing parent.typeName anchor.span)
      | some _ =>
        .ok (Id.run (t.updateParentOf x (fun _ q =>
          pure (match q.kind.insertSibling x node after with
            | some k => q.withKind k
            | none => q)) p))

/-- The node with id `x` and its place, in the program or in a subtree cut off it. -/
def Session.find (st : Session) (x : Nat) : Option (Node × Place) :=
  match st.root.find x Place.top with
  | some r => some r
  | none => st.detached.findSome? fun e => e.1.find x e.2

namespace Rewrite

/-- Fails with `e`. -/
def fail {α : Type} (e : RewriteError) : Rewrite α := throw e

/-- Runs a check that may fail. -/
def check {α : Type} (r : Except RewriteError α) : Rewrite α :=
  match r with
  | .ok a => pure a
  | .error e => fail e

/-- The current version of the node with id `x`, with its place. -/
def locate (x : Nat) : Rewrite (Option (Node × Place)) := do
  return (← get).find x

/-- The current version of a node: a node read from the source is looked up by id, a built
one is its own current version. -/
def refresh (n : Node) : Rewrite Node := do
  if n.id == 0 then return n
  match ← locate n.id with
  | some (m, _) => return m
  | none => return n

/-- The scope of the node with id `x` (the program scope when no tree holds it). -/
def scopeAt (x : Nat) : Rewrite Nat := do
  match ← locate x with
  | some (n, p) => return p.scopeOf n
  | none => return 0

/-- A fresh name for `hint`, declared in scope `s`. -/
def uidIn (s : Nat) (hint : String) : Rewrite String := do
  let st ← get
  let (scopes, name) := st.scopes.generateUid s hint
  set { st with scopes := scopes }
  return name

/-- A fresh name for `hint`, declared in the scope of the node with id `x`. -/
def uidAt (x : Nat) (hint : String) : Rewrite String := do
  uidIn (← scopeAt x) hint

/-- Rewrites the tree holding the node with id `x` (the program, or a subtree cut off it)
with `f`, given the tree's place; answers whether some tree holds it. -/
def inTreeOf (x : Nat) (f : Place → Node → Rewrite Node) : Rewrite Bool := do
  let st ← get
  if st.root.hasId x then
    let root ← f Place.top st.root
    modify fun st => { st with root := root }
    return true
  match st.detached.findIdx? fun e => e.1.hasId x with
  | none => return false
  | some i =>
    match st.detached[i]? with
    | none => return false
    | some (t, p) =>
      let t ← f p t
      modify fun st => { st with detached := st.detached.set i (t, p) }
      return true

/-- Rewrites the node with id `x` with `f`, given its place. -/
def updateAt (x : Nat) (f : Place → Node → Rewrite Node) : Rewrite Unit := do
  discard <| inTreeOf x fun p t => t.updateAt x f p

/-- Keeps the children of `old`, standing at `p`, that its replacement `new` no longer holds
anywhere: each stays where it stood, under `new`. -/
def keepCut (p : Place) (old new : Node) : Rewrite Unit := do
  let cut := old.kind.children.filterMap fun c =>
    if c.node.id != 0 && !new.hasId c.node.id then some (c.node, p.child new c.role)
    else none
  unless cut.isEmpty do
    modify fun st => { st with detached := st.detached ++ cut }

/-- Replaces the construct of the node with id `x`, keeping its id, span and scope. -/
def replace (x : Nat) (k : Kind) : Rewrite Unit :=
  updateAt x fun p n => do
    let m := n.withKind k
    keepCut p n m
    pure m

/-- Inserts `node` before or after the node with id `x`, in its parent's list. -/
def insertNear (x : Nat) (node : Node) (after : Bool) : Rewrite Unit := do
  let found ← inTreeOf x fun p t => check (Node.insertNear x node after p t)
  unless found do fail (siblingMissing "nothing" ⟨0, 0⟩)

/-- Puts `statement` first in the program. -/
def prepend (statement : Node) : Rewrite Unit := do
  let st ← get
  match st.root.kind with
  | .program body => set { st with root := st.root.withKind (.program (statement :: body)) }
  | .block body => set { st with root := st.root.withKind (.block (statement :: body)) }
  | k => fail (.missingContext "statement insertion" "Program or BlockStatement" k.typeName
      st.root.span)

/-- The local name of the runtime helper `name`, importing it on first use:
`import { name as _name } from "<source>";` goes first in the program. -/
def hook (name : String) : Rewrite String := do
  match (← get).hooks.lookup name with
  | some l => return l
  | none =>
    let l ← uidIn 0 name
    let st ← get
    prepend (Node.make (.importDecl [.named name l] st.hookSource))
    modify fun st => { st with hooks := (name, l) :: st.hooks }
    return l

end Rewrite

end SignalSugar
