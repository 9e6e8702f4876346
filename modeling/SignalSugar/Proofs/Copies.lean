import SignalSugar.Proofs.Resolution
import SignalSugar.Proofs.Traversal
/-!
# Copies of subtrees

A node built by a rewrite has id 0 and owns no scope; a rebuilt node (`Node.withKind`) keeps
its id and scope. A copy (`Node.copy`) keeps the constructs and spans of a subtree, but every node of it has
id 0 and owns no scope. So a copy is never named by an operation that works by id, and every
node of it belongs to the scope the copy stands in: a binder inside a copy opens no scope of
its own.

## Main results

* `Node.kind_built`, `Node.scope_withKind` and the like: what building and rebuilding a node
  sets;
* `Node.children_copy`: the children of a copy are the copies of the children.
* `Node.occurs_copy`: every node of a copy has id 0, owns no scope, and stands in the scope
  the copy stands in.
-/

namespace SignalSugar.Node

@[simp] theorem kind_built (k : Kind) : (built k).kind = k := rfl

@[simp] theorem id_built (k : Kind) : (built k).id = 0 := rfl

@[simp] theorem scope_built (k : Kind) : (built k).scope = none := rfl

@[simp] theorem kind_withKind (n : Node) (k : Kind) : (n.withKind k).kind = k := rfl

@[simp] theorem id_withKind (n : Node) (k : Kind) : (n.withKind k).id = n.id := rfl

@[simp] theorem scope_withKind (n : Node) (k : Kind) : (n.withKind k).scope = n.scope := rfl

@[simp] theorem id_copy (n : Node) : n.copy.id = 0 := by
  rw [copy]
  rfl

@[simp] theorem scope_copy (n : Node) : n.copy.scope = none := by
  rw [copy]
  rfl

/-- The children of a copy are the copies of the children. -/
theorem children_copy (n : Node) :
    n.copy.kind.children.map Child.node = (n.kind.children.map Child.node).map copy := by
  have h := Kind.children_mapChildrenM (m := Id) n.kind fun c _ _ => pure (copy c)
  rw [copy]
  refine h.trans ?_
  rw [List.mapM_pure, List.map_map]
  rfl

/-- Every node of a copy has id 0, owns no scope and stands in the scope of the copy. -/
theorem occurs_copy {σ τ : Nat} {n m : Node} (h : Occurs σ n.copy τ m) :
    m.id = 0 ∧ m.scope = none ∧ τ = σ := by
  generalize hc : n.copy = c at h
  induction h generalizing n with
  | here σ c =>
    subst hc
    exact ⟨id_copy n, scope_copy n, rfl⟩
  | @child σ τ c c' m _ hmem _ ih =>
    subst hc
    rw [children_copy, List.map_map, List.mem_map] at hmem
    obtain ⟨d, -, rfl⟩ := hmem
    obtain ⟨h1, h2, h3⟩ := ih (n := d.node) rfl
    exact ⟨h1, h2, by rw [h3, scope_copy]; rfl⟩

/-! ### Subtrees a rewrite builds -/

/-- Whether a subtree is built by a rewrite: no node of it was read from the source or owns a
scope, as in a copy. -/
def fresh (n : Node) : Bool :=
  n.id == 0 && n.scope.isNone && n.kind.children.all fun c => fresh c.node
termination_by sizeOf n
decreasing_by have := c.lt; have := Node.sizeOf_kind_lt n; omega

theorem fresh_iff {n : Node} :
    n.fresh = true ↔
      n.id = 0 ∧ n.scope = none ∧ ∀ c ∈ n.kind.children.map Child.node, c.fresh = true := by
  rw [fresh]
  simp [and_assoc]

/-- A built node is fresh when its children are. -/
@[simp] theorem fresh_built (k : Kind) :
    (built k).fresh = true ↔ ∀ c ∈ k.children.map Child.node, c.fresh = true := by
  rw [fresh_iff]
  simp

@[simp] theorem fresh_copy (n : Node) : n.copy.fresh = true := by
  induction n using fresh.induct with
  | _ n ih =>
  rw [fresh_iff, children_copy]
  refine ⟨id_copy n, scope_copy n, fun c hc => ?_⟩
  rw [List.map_map, List.mem_map] at hc
  obtain ⟨c, -, rfl⟩ := hc
  exact ih c

end SignalSugar.Node
