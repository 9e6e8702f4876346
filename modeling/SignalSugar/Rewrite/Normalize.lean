import SignalSugar.Rewrite.Session
/-!
# Rewriting the reads of one binding

A binding is named by the scope that declares it and its name (`Target`). A walk for it
skips every subtree whose scope is another scope declaring the same name: there the name
means another binding.

`normalizeAt` replaces each bare reference to the binding by a call of an accessor
(`name` → `_prop()`) or by another name (`rest` → `_other`). An accessor cannot be written
to, so a reference that is written (the left of an assignment, the operand of `++`/`--`, the
head of `for … in`/`of`, or a leaf of a pattern standing there) fails with `readOnly`.

`verifyAt` checks that no bare reference to the binding is left.
-/

namespace SignalSugar

/-- A binding: the scope that declares it and its name. -/
structure Target where
  scope : Nat
  name : String

/-- Whether scope `s` declares its own binding of the target's name. -/
def Target.shadowedIn (t : Target) (scopes : Scopes) (s : Nat) : Bool :=
  s != t.scope && scopes.owns s t.name

/-- Whether a node is a bare reference to the target. -/
def Target.isReference (t : Target) (n : Node) : Bool :=
  match n.kind with
  | .ident x => x == t.name
  | _ => false

/-- Whether a node with these ancestors is written to: it is the left of an assignment,
the operand of an update or the head of a `for … in`/`of`, directly or as a leaf of a
pattern standing there (not inside a default value or a computed key). -/
def isWritten : List (Node × Role) → Bool
  | [] => false
  | (a, r) :: rest =>
    match a.kind with
    | .assign .. => r == .target
    | .update .. => r == .operand
    | .forIn .. | .forOf .. => r == .target
    | .objectPattern .. | .arrayPattern .. | .rest .. => isWritten rest
    | .bindingProperty .. => r == .value && isWritten rest
    | .assignPattern .. => r == .target && isWritten rest
    | _ => false

/-- What a reference becomes. -/
inductive Substitution where
  /-- `name` → `callee()` -/
  | invoke (callee : String)
  /-- `name` → `other` -/
  | reference (other : String)

/-- The construct that replaces a reference. -/
def Substitution.construct : Substitution → Kind
  | .invoke c => .call (Node.make (.ident c)) [] false
  | .reference x => .ident x

/-- Replaces the references to `t` in the subtree standing at `p`. -/
def normalizeWalk (t : Target) (sub : Substitution) (p : Place) (n : Node) : Rewrite Node := do
  let s := p.scopeOf n
  if t.shadowedIn (← get).scopes s then return n
  if t.isReference n then
    if (sub matches .invoke _) && isWritten p.ancestors then
      Rewrite.fail (.readOnly t.name n.span)
    return n.withKind sub.construct
  let k ← n.kind.mapChildrenM fun c r _ => normalizeWalk t sub (p.child n r) c
  return n.withKind k
termination_by sizeOf n
decreasing_by have := Node.sizeOf_kind_lt n; omega

/-- Fails at the first reference to `t` left in the subtree standing at `p`. -/
def residualWalk (t : Target) (p : Place) (n : Node) : Rewrite Unit := do
  let s := p.scopeOf n
  if t.shadowedIn (← get).scopes s then return
  if t.isReference n then Rewrite.fail (.residual t.name n.span)
  discard <| n.kind.mapChildrenM fun c r _ => do
    residualWalk t (p.child n r) c
    pure c
termination_by sizeOf n
decreasing_by have := Node.sizeOf_kind_lt n; omega

namespace Rewrite

/-- The binding `name` as seen from the node with id `owner`: declared in its scope. -/
def targetAt (owner : Nat) (name : String) : Rewrite Target := do
  return ⟨← scopeAt owner, name⟩

/-- Rewrites the references to `name`, bound in the scope of the node with id `owner`,
inside that node. -/
def normalizeAt (owner : Nat) (sub : Substitution) (name : String) : Rewrite Unit := do
  let t ← targetAt owner name
  updateAt owner fun p n => normalizeWalk t sub p n

/-- Fails if a reference to `name`, bound in the scope of the node with id `owner`, is left
inside that node. -/
def verifyAt (owner : Nat) (name : String) : Rewrite Unit := do
  let t ← targetAt owner name
  updateAt owner fun p n => do
    residualWalk t p n
    pure n

end Rewrite

end SignalSugar
