import SignalSugar.Proofs.ScopeMarks
import SignalSugar.Proofs.WritePositions
import SignalSugar.Transform
/-!
# Scope chains follow the tree

The table links every scope to its parent, and a node belongs to the scope it owns or else to
that of its nearest owning ancestor. For a module just analysed, and after any sequence of the
operations a rewrite is made of, the two agree: the chain of scopes from the scope a node belongs
to, parent after parent, lists the scopes that the node and its ancestors own, innermost first
(`Place.marks`).

The analysis nests every mark under the scope its owner stands in, and the operations keep the
marks where they stood and the table's parents (`Session.Rescopes`), so the marks of the program
stay nested (`Session.Nested`). From nested marks, the chain of every node follows by induction
down the tree.

A walk over a binding prunes every node standing in a scope that declares the name anew, with
all that is below it, and reaches the others (`WalkReaches`; the respelling walk substitutes
exactly the references it reaches). Started at the node owning the binding's scope, it reaches a
node exactly when no scope on the node's chain below the binding's scope declares the name.

## Main results

* `Scopes.Chain`: the chain of a scope; it is unique, and goes down where parents come first.
* `Node.chain_of_placed`: under nested marks, the chain of every node is its marks.
* `walkReaches_iff_marks`: what a pruning walk reaches, read off the marks.
* `Session.nested_start`, `Session.Nested.passes`: the analysis leaves nested marks, and every
  sequence of operations keeps them.
* `scope_chains_follow_ancestry`: the chains of the program after any sequence of operations, and
  the nodes a pruning walk from an owner reaches.
-/

namespace SignalSugar

/-! ### Chains of scopes -/

namespace Scopes

/-- `t.Chain s l`: `l` lists scope `s`, its parent, the parent's parent and so on, up to a scope
with no parent. -/
inductive Chain (t : Scopes) : Nat → List Nat → Prop where
  | top {s : Nat} : (t.get s).parent = none → Chain t s [s]
  | up {s q : Nat} {l : List Nat} : (t.get s).parent = some q → Chain t q l → Chain t s (s :: l)

namespace Chain

variable {t : Scopes} {s : Nat} {l l' : List Nat}

/-- A chain starts at its scope. -/
theorem eq_cons (h : t.Chain s l) : ∃ l', l = s :: l' := by
  cases h with
  | top => exact ⟨[], rfl⟩
  | up => exact ⟨_, rfl⟩

/-- A scope has one chain. -/
theorem unique (h : t.Chain s l) (h' : t.Chain s l') : l = l' := by
  induction h generalizing l' with
  | top hp =>
    cases h' with
    | top => rfl
    | up hq => rw [hp] at hq; cases hq
  | up hp _ ih =>
    cases h' with
    | top hq => rw [hp] at hq; cases hq
    | up hq h' =>
      rw [hp] at hq
      cases hq
      rw [ih h']

/-- Where parents come first, the chain of `s` holds no scope after `s`. -/
theorem le_of_mem (hlt : ∀ s q, (t.get s).parent = some q → q < s) (h : t.Chain s l) :
    ∀ x ∈ l, x ≤ s := by
  induction h with
  | top => simp
  | up hp _ ih =>
    intro x hx
    rcases List.mem_cons.1 hx with rfl | hx
    · exact le_rfl
    · exact ((ih x hx).trans_lt (hlt _ _ hp)).le

/-- Where parents come first, a chain goes down. -/
theorem pairwise_gt (hlt : ∀ s q, (t.get s).parent = some q → q < s) (h : t.Chain s l) :
    l.Pairwise (· > ·) := by
  induction h with
  | top => exact List.pairwise_singleton _ _
  | up hp hq ih =>
    exact List.Pairwise.cons (fun x hx => (hq.le_of_mem hlt x hx).trans_lt (hlt _ _ hp)) ih

end Chain

/-- The marks of the subtrees `ns`, standing in scope `σ`, are nested in `t`: the parent of each
is the scope its node stands in. -/
def Nested (t : Scopes) (σ : Nat) (ns : List Node) : Prop :=
  ∀ e ∈ ns.flatMap (Node.scopings σ), (t.get e.2).parent = some e.1

namespace Nested

variable {t : Scopes} {σ s : Nat} {ns : List Node} {c : Node}

/-- The marks below one of the subtrees are nested where its children stand. -/
theorem child (h : t.Nested σ ns) (hc : c ∈ ns) :
    t.Nested (c.scope.getD σ) (c.kind.children.map Child.node) := fun e he =>
  h e (List.mem_flatMap.2 ⟨c, hc, by rw [Node.scopings_eq]; exact List.mem_append_right _ he⟩)

/-- The mark of one of the subtrees is a scope whose parent is `σ`. -/
theorem parent_of_mark (h : t.Nested σ ns) (hc : c ∈ ns) (hs : c.scope = some s) :
    (t.get s).parent = some σ :=
  h (σ, s) (List.mem_flatMap.2 ⟨c, hc, by rw [Node.scopings_eq, hs]; simp⟩)

end Nested

end Scopes

/-! ### The marks of a node and its ancestors -/

namespace Place

/-- The scopes the ancestors of the place own, innermost first. -/
def owned (p : Place) : List Nat := p.ancestors.filterMap fun a => a.1.scope

/-- The scopes a node standing at the place and its ancestors own, innermost first. -/
def marks (p : Place) (n : Node) : List Nat := n.scope.toList ++ p.owned

@[simp] theorem scope_child (p : Place) (n : Node) (r : Role) : (p.child n r).scope = p.scopeOf n :=
  rfl

@[simp] theorem owned_child (p : Place) (n : Node) (r : Role) :
    (p.child n r).owned = p.marks n := by
  cases h : n.scope <;> simp [owned, marks, child, h]

@[simp] theorem owned_top : Place.top.owned = [] := rfl

/-- A child's marks are its own mark, if any, before its parent's. -/
@[simp] theorem marks_child (p : Place) (n c : Node) (r : Role) :
    (p.child n r).marks c = c.scope.toList ++ p.marks n := by
  rw [marks, owned_child]

end Place

namespace Node

/-- The subtrees of the node standing at `p`, in pre-order, each with the place it stands at. -/
def placedSubtrees (p : Place) (n : Node) : List (Place × Node) :=
  (p, n) :: n.kind.children.flatMap fun c => placedSubtrees (p.child n c.role) c.node
termination_by sizeOf n
decreasing_by have := c.lt; have := Node.sizeOf_kind_lt n; omega

/-- A subtree placed below a node stands below its place. -/
theorem length_le_of_placed {p : Place} {n : Node} :
    ∀ x ∈ n.placedSubtrees p, p.ancestors.length ≤ x.1.ancestors.length := by
  induction p, n using placedSubtrees.induct with
  | _ p n ih =>
  intro x hx
  rw [placedSubtrees, List.mem_cons, List.mem_flatMap] at hx
  rcases hx with rfl | ⟨c, -, hx⟩
  · exact le_rfl
  · have := ih c x hx
    simp only [Place.child, List.length_cons] at this
    omega

/-- The subtrees placed below a placed subtree are placed in the tree. -/
theorem placedSubtrees_subset {p q : Place} {n m : Node} (h : (q, m) ∈ n.placedSubtrees p) :
    m.placedSubtrees q ⊆ n.placedSubtrees p := by
  induction p, n using placedSubtrees.induct with
  | _ p n ih =>
  rw [placedSubtrees, List.mem_cons, List.mem_flatMap] at h
  rcases h with h | ⟨c, hc, h⟩
  · obtain ⟨rfl, rfl⟩ := Prod.mk.inj h
    exact List.Subset.refl _
  · refine List.Subset.trans (ih c h) fun y hy => ?_
    rw [placedSubtrees]
    exact List.mem_cons_of_mem _ (List.mem_flatMap.2 ⟨c, hc, hy⟩)

variable {t : Scopes}

/-- A child of a node whose chain is its marks has its marks for chain, when the marks of the
children are nested. -/
theorem chain_child {p : Place} {n c : Node} (r : Role) (hc : c ∈ n.kind.children.map Child.node)
    (hnest : t.Nested (p.scopeOf n) (n.kind.children.map Child.node))
    (h : t.Chain (p.scopeOf n) (p.marks n)) :
    t.Chain ((p.child n r).scopeOf c) ((p.child n r).marks c) := by
  rw [Place.marks_child, Place.scopeOf, Place.scope_child]
  cases hs : c.scope with
  | none => exact h
  | some s => exact .up (hnest.parent_of_mark hc hs) h

/-- **Under nested marks, the chain of every node is its marks**: the scopes it and its
ancestors own, innermost first. By induction down the tree from a node whose chain is its
marks. -/
theorem chain_of_placed (p : Place) (n : Node)
    (hnest : t.Nested (p.scopeOf n) (n.kind.children.map Child.node))
    (h : t.Chain (p.scopeOf n) (p.marks n)) :
    ∀ x ∈ n.placedSubtrees p, t.Chain (x.1.scopeOf x.2) (x.1.marks x.2) := by
  induction p, n using placedSubtrees.induct with
  | _ p n ih =>
  intro x hx
  rw [placedSubtrees, List.mem_cons, List.mem_flatMap] at hx
  rcases hx with rfl | ⟨c, hc, hx⟩
  · exact h
  · have hc' := List.mem_map_of_mem (f := Child.node) hc
    exact ih c (hnest.child hc') (chain_child c.role hc' hnest h) x hx

end Node

/-! ### What a pruning walk reaches -/

/-- A walk reaches something from a node only where it is not pruned there. -/
theorem WalkReaches.start {T : Scopes} {tg : Target} {p q : Place} {n m : Node}
    (h : WalkReaches T tg p n q m) :
    tg.shadowedIn T (p.scopeOf n) = false := by
  cases h <;> assumption

/-- What a walk reaches is placed below where it starts. -/
theorem WalkReaches.mem_placedSubtrees {T : Scopes} {tg : Target} {p q : Place} {n m : Node}
    (h : WalkReaches T tg p n q m) :
    (q, m) ∈ n.placedSubtrees p := by
  induction h with
  | here =>
    rw [Node.placedSubtrees]
    exact List.mem_cons_self
  | child _ hc _ ih =>
    rw [Node.placedSubtrees]
    exact List.mem_cons_of_mem _ (List.mem_flatMap.2 ⟨_, hc, ih⟩)

/-- **What a pruning walk reaches, read off the marks.** A subtree placed below `n` has for
marks those of `n` after some more, `L`; the walk from `n` reaches it exactly when neither the
scope `n` stands in nor a scope of `L` declares the name anew. By induction down the tree: a
child's own mark joins `L`, and otherwise the child stands where its parent does. -/
theorem walkReaches_iff_marks (T : Scopes) (tg : Target) (p : Place) (n : Node) :
    ∀ q m, (q, m) ∈ n.placedSubtrees p → ∃ L, q.marks m = L ++ p.marks n ∧
      (WalkReaches T tg p n q m ↔ ∀ s ∈ p.scopeOf n :: L, tg.shadowedIn T s = false) := by
  induction p, n using Node.placedSubtrees.induct with
  | _ p n ih =>
  have hmarks : ∀ (c : Child n.kind) L,
      L ++ (p.child n c.role).marks c.node = (L ++ c.node.scope.toList) ++ p.marks n := by
    intro c L
    rw [Place.marks_child, List.append_assoc]
  have hscopes : ∀ (c : Child n.kind) (L : List Nat) (P : Nat → Prop),
      ((∀ s ∈ (p.child n c.role).scopeOf c.node :: L, P s) ∧ P (p.scopeOf n) ↔
        ∀ s ∈ p.scopeOf n :: (L ++ c.node.scope.toList), P s) := by
    intro c L P
    cases h : c.node.scope <;> simp [Place.scopeOf, h, or_imp, forall_and] <;> tauto
  intro q m hx
  rw [Node.placedSubtrees, List.mem_cons, List.mem_flatMap] at hx
  rcases hx with h | ⟨c, hc, hx⟩
  · obtain ⟨rfl, rfl⟩ := Prod.mk.inj h
    refine ⟨[], rfl, fun h => ?_, fun h => .here (h _ List.mem_cons_self)⟩
    simpa using h.start
  obtain ⟨L, hL, hiff⟩ := ih c q m hx
  refine ⟨L ++ c.node.scope.toList, hL.trans (hmarks c L), fun h => ?_, fun hall => ?_⟩
  · cases h with
    | here =>
      have := Node.length_le_of_placed _ hx
      simp [Place.child] at this
    | @child _ _ _ _ c' hs _ hR =>
      obtain ⟨L', hL', hiff'⟩ := ih c' q m hR.mem_placedSubtrees
      have hsame : L ++ c.node.scope.toList = L' ++ c'.node.scope.toList := by
        apply List.append_cancel_right
        calc (L ++ c.node.scope.toList) ++ p.marks n = q.marks m := (hL.trans (hmarks c L)).symm
          _ = (L' ++ c'.node.scope.toList) ++ p.marks n := hL'.trans (hmarks c' L')
      rw [hsame]
      exact (hscopes c' L' _).1 ⟨hiff'.1 hR, hs⟩
  · exact .child (hall _ List.mem_cons_self) hc (hiff.2 ((hscopes c L _).2 hall).1)

/-! ### Sessions whose marks are nested -/

/-- A session whose marks are nested: the program owns scope 0, which has no parent, parents come
first, and every other mark of the program is nested. -/
structure Session.Nested (st : Session) : Prop where
  root_scope : st.root.scope = some 0
  top : (st.scopes.get 0).parent = none
  parent_lt : ∀ s q, (st.scopes.get s).parent = some q → q < s
  nested : st.scopes.Nested 0 (st.root.kind.children.map Child.node)

/-- One of the operations a rewrite is made of, run on a session and succeeding: dereferencing a
signal, respelling the reads of a binding, flattening a pattern or importing a helper. -/
inductive Session.Pass : Session → Session → Prop where
  | deref {st st' : Session} (owner : Nat) (name read write : String) :
      (Rewrite.derefAt owner name read write).run st = .ok ((), st') → Session.Pass st st'
  | normalize {st st' : Session} (owner : Nat) (sub : Substitution) (name : String) :
      (Rewrite.normalizeAt owner sub name).run st = .ok ((), st') → Session.Pass st st'
  | destructure {st st' : Session} (fuel d : Nat) (source pattern : Node) (rep : Bool) :
      (Rewrite.destructure fuel d source pattern rep).run st = .ok ((), st') → Session.Pass st st'
  | hook {st st' : Session} (name local_ : String) :
      (Rewrite.hook name).run st = .ok (local_, st') → Session.Pass st st'

namespace Session

/-- Each operation keeps the marks where they stood. -/
theorem Pass.rescopes {st st' : Session} (h : Session.Pass st st') : st.Rescopes st' := by
  cases h with
  | deref owner name read write h => exact Rewrite.rescopes_derefAt owner name read write _ _ _ h
  | normalize owner sub name h => exact Rewrite.rescopes_normalizeAt owner sub name _ _ _ h
  | destructure fuel d source pattern rep h =>
    exact Rewrite.rescopes_destructure fuel d source pattern rep _ _ _ h
  | hook name _ h => exact Rewrite.rescopes_hook name _ _ _ h

namespace Nested

variable {st st' : Session}

/-- Keeping the marks where they stood keeps them nested. -/
theorem rescopes (h : st.Nested) (hr : st.Rescopes st') : st'.Nested where
  root_scope := hr.root_scope.trans h.root_scope
  top := (hr.parent_eq 0).trans h.top
  parent_lt s q hq := h.parent_lt s q ((hr.parent_eq s).symm.trans hq)
  nested e he := by
    rw [hr.parent_eq]
    have hsub := hr.scopings 0
    rw [Node.scopings_eq, Node.scopings_eq, hr.root_scope, h.root_scope] at hsub
    exact h.nested e (((List.subperm_cons _).1 hsub).subset he)

/-- **Every sequence of operations keeps the marks nested.** -/
theorem passes (h : st.Nested) (hs : Relation.ReflTransGen Session.Pass st st') : st'.Nested := by
  induction hs with
  | refl => exact h
  | tail _ hp ih => exact ih.rescopes hp.rescopes

/-- In a session with nested marks, the chain of every node of the program is its marks. -/
theorem chains (h : st.Nested) :
    ∀ x ∈ st.root.placedSubtrees Place.top, st.scopes.Chain (x.1.scopeOf x.2) (x.1.marks x.2) := by
  have htop : Place.top.scopeOf st.root = 0 := by rw [Place.scopeOf, h.root_scope]; rfl
  refine Node.chain_of_placed Place.top st.root (htop ▸ h.nested) ?_
  rw [Place.marks, htop, h.root_scope, Place.owned_top]
  exact .top h.top

end Nested

/-- **The analysis leaves nested marks**: the program owns scope 0, which has no parent, and the
walk opens every other scope under the scope its owner stands in. -/
theorem nested_start {root : Node} {body : List Node} (hookSource : String)
    (hm : root.unmarked = true) (hp : root.kind = .program body) :
    (Session.start root hookSource).Nested := by
  have h1 := ScopeWalk.sound_programScope root
  obtain ⟨ht, hg, -⟩ := ScopeWalk.walk_fits none 0 0 root _ h1 (by simp) (by simp) hm
  have hn := ScopeWalk.walk_nests none 0 0 root _ h1 (by simp) (by simp) hm
  have hs := ScopeWalk.scope_walk_program hm hp (Scopes.openScope ⟨#[], []⟩ .program none root.id
    root.typeName root.span).1
  have e : Session.start root hookSource =
      ⟨(analyzeScopes root).1, [], (analyzeScopes root).2, hookSource, []⟩ := rfl
  rw [e, ScopeWalk.analyzeScopes_eq]
  generalize (ScopeWalk.walk none 0 0 root).run _ = r at ht hg hn hs ⊢
  obtain ⟨root', T⟩ := r
  dsimp only at ht hg hn hs ⊢
  refine ⟨rfl, ?_, ht.parent_lt, fun e he => hn T (Scopes.Grows.refl T) e ?_⟩
  · rw [hg.parent_eq 0 (by simp)]
    simp
  · rw [Node.scopings_eq, hs]
    simpa using he

end Session

/-- **The chain of scopes of a node lists the scopes it and its ancestors own.** For a program
just analysed and after any sequence of dereferencings, respellings, flattenings and imports:

* for every node of the program, the chain from the scope it belongs to, parent after parent, is
  the list of the scopes that the node and its ancestors own, innermost first;
* a walk from a node `S` over the binding of `name` in `S`'s scope, pruning the scopes that
  declare `name` anew, reaches a node below `S` exactly when no scope of its chain below `S`'s
  scope declares `name`. -/
theorem scope_chains_follow_ancestry {root : Node} {body : List Node} {hookSource : String}
    {st : Session} (hm : root.unmarked = true) (hp : root.kind = .program body)
    (hrun : Relation.ReflTransGen Session.Pass (Session.start root hookSource) st) :
    (∀ (p : Place) (n : Node), (p, n) ∈ st.root.placedSubtrees Place.top →
      st.scopes.Chain (p.scopeOf n) (p.marks n)) ∧
    ∀ (q : Place) (S : Node), (q, S) ∈ st.root.placedSubtrees Place.top →
    ∀ (p : Place) (n : Node), (p, n) ∈ S.placedSubtrees q →
      ∀ name : String, (WalkReaches st.scopes ⟨q.scopeOf S, name⟩ q S p n ↔
        ∀ s ∈ (p.marks n).takeWhile (· != q.scopeOf S), st.scopes.owns s name = false) := by
  have hN := (Session.nested_start hookSource hm hp).passes hrun
  refine ⟨fun p n hn => hN.chains (p, n) hn, fun q S hS p n hn name => ?_⟩
  obtain ⟨L, hL, hiff⟩ := walkReaches_iff_marks st.scopes ⟨q.scopeOf S, name⟩ q S p n hn
  obtain ⟨rest, hrest⟩ := (hN.chains (q, S) hS).eq_cons
  have hdown := (hN.chains (p, n) (Node.placedSubtrees_subset hS hn)).pairwise_gt hN.parent_lt
  rw [hL, hrest] at hdown
  have hbelow : ∀ s ∈ L, s ≠ q.scopeOf S := fun s hs =>
    ne_of_gt ((List.pairwise_append.1 hdown).2.2 s hs _ List.mem_cons_self)
  rw [hiff, hL, hrest, List.takeWhile_append_of_pos (by simpa using hbelow),
    List.takeWhile_cons_of_neg (by simp), List.append_nil]
  simp only [List.forall_mem_cons, Target.shadowedIn, bne_self_eq_false, Bool.false_and,
    true_and]
  refine forall₂_congr fun s hs => ?_
  simp [hbelow s hs]

/-- The module `let a; { let a; a; } a = b;`, as read. -/
def shadowedAssignModule : Node :=
  .mk 1 ⟨0, 0⟩ none (.program [
    .mk 2 ⟨0, 0⟩ none (.varDecl .let
      [.mk 3 ⟨0, 0⟩ none (.declarator (.mk 4 ⟨0, 0⟩ none (.bindingIdent "a")) none)]),
    .mk 5 ⟨0, 0⟩ none (.block [
      .mk 6 ⟨0, 0⟩ none (.varDecl .let
        [.mk 7 ⟨0, 0⟩ none (.declarator (.mk 8 ⟨0, 0⟩ none (.bindingIdent "a")) none)]),
      .mk 9 ⟨0, 0⟩ none (.exprStmt (.mk 10 ⟨0, 0⟩ none (.ident "a")))]),
    .mk 11 ⟨0, 0⟩ none (.exprStmt (.mk 12 ⟨0, 0⟩ none
      (.assign .plain (.mk 13 ⟨0, 0⟩ none (.ident "a")) (.mk 14 ⟨0, 0⟩ none (.ident "b")))))])

theorem scope_chains_follow_ancestry_shadowedAssign :
    ∃ st', (Rewrite.derefAt 1 "a" "_a" "_setA").run (Session.start shadowedAssignModule "") =
        .ok ((), st') ∧
      (∀ (p : Place) (n : Node), (p, n) ∈ st'.root.placedSubtrees Place.top →
        st'.scopes.Chain (p.scopeOf n) (p.marks n)) ∧
      ∀ (q : Place) (S : Node), (q, S) ∈ st'.root.placedSubtrees Place.top →
      ∀ (p : Place) (n : Node), (p, n) ∈ S.placedSubtrees q →
        ∀ name : String, (WalkReaches st'.scopes ⟨q.scopeOf S, name⟩ q S p n ↔
          ∀ s ∈ (p.marks n).takeWhile (· != q.scopeOf S), st'.scopes.owns s name = false) := by
  have hrun : ((Rewrite.derefAt 1 "a" "_a" "_setA").run
      (Session.start shadowedAssignModule "")).toBool = true := by cbv
  cases hr : (Rewrite.derefAt 1 "a" "_a" "_setA").run (Session.start shadowedAssignModule "") with
  | error e =>
    rw [hr] at hrun
    cases hrun
  | ok r =>
    obtain ⟨⟨⟩, st'⟩ := r
    exact ⟨st', rfl, scope_chains_follow_ancestry (by cbv) rfl
      (.single (.deref 1 "a" "_a" "_setA" hr))⟩

end SignalSugar
