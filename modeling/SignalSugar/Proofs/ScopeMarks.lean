import SignalSugar.Proofs.Destructuring
import SignalSugar.Proofs.ScopeAnalysis
/-!
# Where the scope marks stand

A node owning a scope carries the scope's index, and every other node belongs to the scope of
its nearest owning ancestor. `Node.scopings σ n` lists the marks of a subtree standing in scope
`σ`, in pre-order, each after the scope its node stands in. Together with the parents in the
table, that decides the chain of scopes of every node.

The analysis opens each scope under the scope its owner stands in, so every mark it leaves is
**nested**: the mark's parent in the table is the scope its node stands in
(`ScopeWalk.walk_nests`). The rewrites keep the marks where they stood. A walk rebuilds a node
with its mark, builds nodes that carry none, copies subtrees without their marks and cuts
subtrees off the program; so the marks of what it answers are some of the marks of what it was
given, each standing in the same scope, and the table keeps its parents (`Rescoped`). Every pass
over a binding, the flattening of a pattern and the import of a helper keep the program's marks
so (`Session.Rescopes`).

## Main results

* `ScopeWalk.walk_nests`: the analysis opens every scope under the scope its owner stands in.
* `derefWalk_rescoped`, `normalizeWalk_rescoped`: the walks keep the marks where they stood.
* `Rewrite.rescopes_derefAt`, `Rewrite.rescopes_normalizeAt`, `Rewrite.rescopes_destructure`,
  `Rewrite.rescopes_hook`: so do the four operations, for the program of the session.
-/

namespace SignalSugar

/-! ### The marks of a subtree -/

namespace Node

/-- The scope marks of a subtree standing in scope `σ`, in pre-order, each after the scope its
node stands in. -/
def scopings (σ : Nat) (n : Node) : List (Nat × Nat) :=
  (n.scope.map (σ, ·)).toList ++ n.kind.children.flatMap fun c => scopings (n.scope.getD σ) c.node
termination_by sizeOf n
decreasing_by have := c.lt; have := Node.sizeOf_kind_lt n; omega

theorem scopings_eq (σ : Nat) (n : Node) :
    n.scopings σ = (n.scope.map (σ, ·)).toList ++
      (n.kind.children.map Child.node).flatMap (scopings (n.scope.getD σ)) := by
  rw [scopings, List.flatMap_map]

theorem scopings_withKind (σ : Nat) (n : Node) (k : Kind) :
    (n.withKind k).scopings σ = (n.scope.map (σ, ·)).toList ++
      (k.children.map Child.node).flatMap (scopings (n.scope.getD σ)) := by
  rw [scopings_eq, scope_withKind, kind_withKind]

@[simp] theorem scopings_built (σ : Nat) (k : Kind) :
    (built k).scopings σ = (k.children.map Child.node).flatMap (scopings σ) := by
  rw [scopings_eq]
  simp

/-- A fresh subtree carries no mark. -/
theorem scopings_of_fresh {n : Node} (h : n.fresh = true) : ∀ σ, n.scopings σ = [] := by
  induction n using fresh.induct with
  | _ n ih =>
  intro σ
  obtain ⟨-, hs, hc⟩ := fresh_iff.1 h
  rw [scopings_eq, hs, Option.map_none, Option.toList_none, List.nil_append,
    List.flatMap_eq_nil_iff]
  intro c hc'
  obtain ⟨c, hmem, rfl⟩ := List.mem_map.1 hc'
  exact ih c (hc _ (List.mem_map_of_mem hmem)) _

@[simp] theorem scopings_copy (n : Node) (σ : Nat) : n.copy.scopings σ = [] :=
  scopings_of_fresh (fresh_copy n) σ

end Node

/-! ### Walks that keep the marks -/

/-- What a walk did to the subtrees `ns`, answered as `ns'`, while the session went from `st` to
`st'`: the program stayed, the table kept its parents, and the marks of `ns'` are some of those
of `ns`, each standing in the same scope, wherever the subtrees stand. -/
structure Rescoped (ns ns' : List Node) (st st' : Session) : Prop where
  root_eq : st'.root = st.root
  parent_eq : ∀ s, (st'.scopes.get s).parent = (st.scopes.get s).parent
  scopings : ∀ σ, (ns'.flatMap (Node.scopings σ)).Subperm (ns.flatMap (Node.scopings σ))

namespace Rescoped

variable {l l' l'' l₁ l₁' l₂ l₂' : List Node} {st st₁ st₂ st' : Session}

theorem refl (l : List Node) (st : Session) : Rescoped l l st st :=
  ⟨rfl, fun _ => rfl, fun _ => List.Subperm.refl _⟩

/-- Walks of two lists, one after the other, are a walk of the two lists together. -/
theorem append (h₁ : Rescoped l₁ l₁' st st₁) (h₂ : Rescoped l₂ l₂' st₁ st₂) :
    Rescoped (l₁ ++ l₂) (l₁' ++ l₂') st st₂ where
  root_eq := h₂.root_eq.trans h₁.root_eq
  parent_eq s := (h₂.parent_eq s).trans (h₁.parent_eq s)
  scopings σ := by
    simp only [List.flatMap_append]
    exact (h₁.scopings σ).append (h₂.scopings σ)

/-- A walk of what a walk answered, after it, is a walk of the first subtrees. -/
theorem trans (h : Rescoped l l' st st₁) (h' : Rescoped l' l'' st₁ st₂) :
    Rescoped l l'' st st₂ where
  root_eq := h'.root_eq.trans h.root_eq
  parent_eq s := (h'.parent_eq s).trans (h.parent_eq s)
  scopings σ := (h'.scopings σ).trans (h.scopings σ)

/-- Dropping some of the answers keeps the relation. -/
theorem sublist (h : Rescoped l l' st st') (hs : l''.Sublist l') : Rescoped l l'' st st' :=
  ⟨h.root_eq, h.parent_eq, fun σ => (hs.flatMap _).subperm.trans (h.scopings σ)⟩

/-- Answering, for the same subtrees, subtrees with the same marks. -/
theorem of_scopings_eq (h : Rescoped l l' st st') (he : ∀ σ, l''.flatMap (Node.scopings σ) =
    l'.flatMap (Node.scopings σ)) : Rescoped l l'' st st' :=
  ⟨h.root_eq, h.parent_eq, fun σ => he σ ▸ h.scopings σ⟩

/-- A step that changes only the table, keeping its parents, or the subtrees cut off. -/
theorem of_session (hroot : st'.root = st.root)
    (hparent : ∀ s, (st'.scopes.get s).parent = (st.scopes.get s).parent) : Rescoped l l st st' :=
  ⟨hroot, hparent, fun _ => List.Subperm.refl _⟩

theorem uidIn {s : Nat} {hint name : String} (h : (Rewrite.uidIn s hint).run st = .ok (name, st')) :
    Rescoped l l st st' := by
  rw [Rewrite.run_uidIn] at h
  cases h
  exact of_session rfl fun i => Scopes.parent_generateUid st.scopes s i hint

theorem keepCut {p : Place} {old new : Node}
    (h : (Rewrite.keepCut p old new).run st = .ok ((), st')) : Rescoped l l st st' := by
  obtain ⟨cut, hcut⟩ := @Rewrite.run_keepCut st p old new
  rw [hcut] at h
  cases h
  exact of_session rfl fun _ => rfl

/-- **Rebuilding a node around the answers for its children** keeps its mark where it stood. -/
theorem rebuild {n : Node} {k : Kind}
    (h : Rescoped (n.kind.children.map Child.node) (k.children.map Child.node) st st') :
    Rescoped [n] [n.withKind k] st st' where
  root_eq := h.root_eq
  parent_eq := h.parent_eq
  scopings σ := by
    simp only [List.flatMap_cons, List.flatMap_nil, List.append_nil]
    rw [Node.scopings_withKind, Node.scopings_eq σ n]
    exact (List.subperm_append_left _).2 (h.scopings _)

/-- A node replaced by a construct whose children carry no mark, its own children dropped. -/
theorem drop_children {n : Node} {k : Kind}
    (hk : ∀ σ, (k.children.map Child.node).flatMap (Node.scopings σ) = []) :
    Rescoped [n] [n.withKind k] st st :=
  rebuild ⟨rfl, fun _ => rfl, fun σ => by rw [hk]; exact List.nil_subperm⟩

/-- Walks of the elements of a list, one after the other, keep the marks of the list. -/
theorem mapM_node {α : Type} {l : List α} (node : α → Node) {f : α → Rewrite Node}
    {bs : List Node} (hf : ∀ a ∈ l, ∀ s b s', (f a).run s = .ok (b, s') →
      Rescoped [node a] [b] s s')
    (h : (l.mapM f).run st = .ok (bs, st')) : Rescoped (l.map node) bs st st' := by
  simpa using Rewrite.run_mapM_joins Rescoped (refl []) (fun h₁ h₂ => h₁.append h₂) node
    (fun b => [b]) hf h

/-- Walks of the members of a list, each answering the members that take its place, keep the
marks of the list. -/
theorem mapM_members {l : List Node} {f : Node → Rewrite (List Node)} {bss : List (List Node)}
    (hf : ∀ a ∈ l, ∀ s bs s', (f a).run s = .ok (bs, s') → Rescoped [a] bs s s')
    (h : (l.mapM f).run st = .ok (bss, st')) : Rescoped l bss.flatten st st' := by
  simpa using Rewrite.run_mapM_joins Rescoped (refl []) (fun h₁ h₂ => h₁.append h₂) id id hf h

/-- **Rebuilding a node around walks of its children** keeps its marks where they stood, when
each walk keeps its child's. -/
theorem mapChildrenM {n : Node} {k : Kind}
    {f : (c : Node) → Role → sizeOf c < sizeOf n.kind → Rewrite Node}
    (hf : ∀ c ∈ n.kind.children, ∀ s b s', (f c.node c.role c.lt).run s = .ok (b, s') →
      Rescoped [c.node] [b] s s')
    (h : (n.kind.mapChildrenM f).run st = .ok (k, st')) : Rescoped [n] [n.withKind k] st st' :=
  rebuild (mapM_node Child.node hf (Rewrite.run_mapChildrenM_ok h))

/-- A node rebuilt around the answer `r'` for its child `r`, under nodes the rewrite built, with
nothing else carrying a mark. -/
theorem moveUnder {n r r' : Node} {k : Kind} (h : Rescoped [r] [r'] st st')
    (hr : r ∈ n.kind.children.map Child.node)
    (hk : ∀ σ, (k.children.map Child.node).flatMap (Node.scopings σ) = r'.scopings σ) :
    Rescoped [n] [n.withKind k] st st' :=
  rebuild ⟨h.root_eq, h.parent_eq, fun σ => by
    have h₁ := h.scopings σ
    simp only [List.flatMap_cons, List.flatMap_nil, List.append_nil] at h₁
    rw [hk]
    exact h₁.trans (List.sublist_flatMap_of_mem (f := Node.scopings σ) hr).subperm⟩

/-- A property turned into accessors: its key is walked, the rest of the construct is built, and
the value is dropped. -/
theorem accessorProperty {n : Node} {key key' : Key} {value : Node} {sh : Bool} {k : Kind}
    (built : List Node) (hk : n.kind = .property key value sh)
    (hK : Rescoped key.nodes key'.nodes st st₁) (hs : Rescoped [] [] st₁ st')
    (hkc : k.children.map Child.node = key'.nodes ++ built) (hb : ∀ b ∈ built, b.fresh = true) :
    Rescoped [n] [n.withKind k] st st' := by
  refine rebuild ?_
  have hbuilt : Rescoped [value] built st₁ st' :=
    ⟨hs.root_eq, hs.parent_eq, fun σ => by
      rw [List.flatMap_eq_nil_iff.2 fun b hb' => Node.scopings_of_fresh (hb b hb') σ]
      exact List.nil_subperm⟩
  rw [hk, hkc]
  simpa [Kind.children] using hK.append hbuilt

end Rescoped

/-! ### The deref walk -/

section Deref

variable {t : Target} {acc : Accessors} {p : Place} {v : Bool} {n : Node} {st st' : Session}
  {w : Walked}

/-- The node a walk answers keeps the node's mark. -/
theorem derefWalk_node_scope (h : (derefWalk t acc p v n).run st = .ok (w, st')) :
    (w.node n).scope = n.scope := by
  cases derefWalk_step h <;> rfl

/-- What a value directive becomes carries no mark. -/
theorem Directive.scopings_replacement {d : Directive} {k : Kind}
    (h : d.replacement acc = some k) (σ : Nat) :
    (k.children.map Child.node).flatMap (Node.scopings σ) = [] := by
  cases d <;> simp only [Directive.replacement, Option.some.injEq, reduceCtorEq] at h <;>
    subst h <;> simp [Kind.children, Child.ofList, Child.ofHoles, Child.ofOption, identOf]

/-- **A walk keeps the marks where they stood**: it answers some of the marks of its subtree,
each in the same scope, and changes the table only by fresh names. By induction along the
walk, one case for each branch it takes. -/
theorem derefWalk_rescoped (p : Place) (v : Bool) (n : Node) :
    ∀ {st w st'}, (derefWalk t acc p v n).run st = .ok (w, st') →
      Rescoped [n] (w.members n) st st' := by
  induction p, v, n using derefWalk.induct with
  | case1 p v n ihCallee ihArgs ihArg ihRight ihLeft ihValue ihKey ihProps ihChildren =>
  intro st w st' h
  have child : ∀ {c : Node} {q : Place} {b : Bool} {s s' : Session} {cw : Walked},
      (∀ {s w s'}, (derefWalk t acc q b c).run s = .ok (w, s') →
        Rescoped [c] (w.members c) s s') →
      (derefWalk t acc q b c).run s = .ok (cw, s') → Rescoped [c] [cw.node c] s s' :=
    fun ih hw => (ih hw).sublist (Walked.node_sublist_members _ _)
  have keyStep : ∀ {key value sh key' s s'}, n.kind = .property key value sh →
      (derefKey t acc (p.child n .other) key).run s = .ok (key', s') →
      Rescoped key.nodes key'.nodes s s' := by
    intro key value sh key' s s' hk hkey
    rcases run_derefKey hkey with ⟨e, ew, rfl, he, rfl⟩ | ⟨-, rfl, rfl⟩
    · exact child (ihKey _ _ _ hk e rfl) he
    · exact Rescoped.refl _ _
  cases derefWalk_step h with
  | shadowed _ => exact Rescoped.refl _ _
  | accessor => exact Rescoped.refl _ _
  | ident => exact Rescoped.refl _ _
  | @call callee args o cw args' st₁ _ _ hk _ hc ha =>
    have h₂ : Rescoped args args' st₁ st' := by
      simpa using Rescoped.mapM_node id (fun a ha s b s' hb => by
        obtain ⟨aw, haw, rfl⟩ := run_derefNode.1 hb
        exact child (ihArgs _ _ _ hk a ha) haw) ha
    refine Rescoped.rebuild ?_
    rw [hk]
    simpa [Kind.children] using (child (ihCallee _ _ _ hk) hc).append h₂
  | @update op leading arg aw _ _ hk _ ha =>
    refine Rescoped.rebuild ?_
    rw [hk]
    simpa [Kind.children] using child (ihArg _ _ _ hk) ha
  | @assign op left right lw rw st₁ _ _ hk _ hl hr =>
    refine Rescoped.rebuild ?_
    rw [hk]
    simpa [Kind.children] using (child (ihLeft _ _ _ hk) hl).append (child (ihRight _ _ _ hk) hr)
  | identRef _ hk _ =>
    exact Rescoped.drop_children fun σ => by simp [Kind.children, Child.ofList, identOf]
  | @updateRef op leading arg cur _ _ hk _ hu =>
    refine (Rescoped.drop_children fun σ => ?_).trans (Rescoped.uidIn hu)
    cases leading <;> simp [updateOf, Kind.children, Child.ofList, Child.ofOption, identOf,
      arrowOf, arrowBlock, bindingOf, callOf, returnOf, one]
  | @directive callee args o d k _ _ hk _ _ hrep hcut =>
    exact (Rescoped.drop_children (Directive.scopings_replacement hrep)).trans
      (Rescoped.keepCut hcut)
  | @assignPlain left right rw _ _ hk hr hw =>
    exact Rescoped.moveUnder (child (ihRight _ _ _ hk) hw) (by rw [hk]; simp [Kind.children])
      fun σ => by simp [Kind.children, Child.ofList, identOf, arrowOf]
  | @assignBinary b left right rw st₁ cur _ _ hk hr hw hu =>
    exact Rescoped.moveUnder ((child (ihRight _ _ _ hk) hw).trans (Rescoped.uidIn hu))
      (by rw [hk]; simp [Kind.children])
      fun σ => by simp [Kind.children, Child.ofList, identOf, arrowOf, bindingOf]
  | @assignLogical l left right rw st₁ cur _ _ hk hr hw hu =>
    exact Rescoped.moveUnder ((child (ihRight _ _ _ hk) hw).trans (Rescoped.uidIn hu))
      (by rw [hk]; simp [Kind.children])
      fun σ => by simp [Kind.children, Child.ofList, identOf, arrowOf, bindingOf]
  | @object props props' _ _ hk hm =>
    refine Rescoped.rebuild ?_
    rw [hk]
    simpa [Kind.children] using Rescoped.mapM_members (fun q hq s bs s' hb => by
      obtain ⟨qw, hqw, rfl⟩ := run_derefMember.1 hb
      exact ihProps _ hk q hq hqw) hm
  | @other k' _ _ hsp hm =>
    exact Rescoped.mapChildrenM (fun c _ s b s' hb => by
      obtain ⟨cw, hcw, rfl⟩ := run_derefNode.1 hb
      exact child (ihChildren c.node c.role c.lt) hcw) hm
  | @property key value sh key' st₁ vn after _ _ hk hkey hv =>
    refine Rescoped.rebuild ?_
    rw [hk]
    simpa [Kind.children, Walked.node] using (keyStep hk hkey).append (child (ihValue _ _ _ hk) hv)
  | @propertyGetter key value sh key' st₁ c st₂ _ _ hk hkey hv hcut =>
    obtain rfl := derefWalk_accessor hv
    exact Rescoped.accessorProperty [Node.make (.block [returnOf (callOf acc.read [])])]
      hk (keyStep hk hkey) (Rescoped.keepCut hcut) (by simp [getterOf, Kind.children])
      (by simp [Kind.children, Child.ofList, Child.ofOption, returnOf, callOf])
  | @propertySetter key value sh key' st₁ c st₂ val st₃ _ _ hk hkey hv hu hcut =>
    obtain rfl := derefWalk_accessor hv
    exact Rescoped.accessorProperty [bindingOf val,
        Node.make (.block [returnOf (callOf acc.write [arrowOf [] (identOf val)])])]
      hk (keyStep hk hkey) ((Rescoped.uidIn hu).trans (Rescoped.keepCut hcut))
      (by simp [setterOf, Kind.children])
      (by simp [Kind.children, Child.ofList, Child.ofOption, returnOf, callOf, arrowOf, identOf,
        bindingOf])
  | @propertyBoth key value sh key' st₁ d c st₂ val st₃ _ _ hk hkey hv _ _ hu hcut =>
    obtain rfl := derefWalk_accessor hv
    refine (Rescoped.accessorProperty (k := getterOf acc key')
      [Node.make (.block [returnOf (callOf acc.read [])])]
      hk (keyStep hk hkey) ((Rescoped.uidIn hu).trans (Rescoped.keepCut hcut))
      (by simp [getterOf, Kind.children])
      (by simp [Kind.children, Child.ofList, Child.ofOption, returnOf, callOf])).of_scopings_eq
        fun σ => ?_
    have hsetter : (Node.mk 0 n.span none (setterOf acc key'.copy val)).fresh = true := by
      rw [Node.fresh_iff]
      simp [setterOf, Kind.children, Child.ofList, Child.ofOption, returnOf, callOf, arrowOf,
        identOf, bindingOf, or_imp, forall_and]
    simp [Walked.members, Node.scopings_of_fresh hsetter]

/-- A walk at a node, answered as the node that takes its place. -/
theorem derefWalk_node_rescoped (h : (derefWalk t acc p v n).run st = .ok (w, st')) :
    Rescoped [n] [w.node n] st st' ∧ (w.node n).scope = n.scope :=
  ⟨(derefWalk_rescoped p v n h).sublist (Walked.node_sublist_members _ _), derefWalk_node_scope h⟩

end Deref

/-! ### The respelling walk -/

/-- **Respelling a binding keeps the marks where they stood**: references become built nodes, and
every other node is rebuilt around its children's answers. -/
theorem normalizeWalk_rescoped {t : Target} {sub : Substitution} (p : Place) (n : Node) :
    ∀ {st n' st'}, (normalizeWalk t sub p n).run st = .ok (n', st') →
      Rescoped [n] [n'] st st' ∧ n'.scope = n.scope := by
  induction p, n using normalizeWalk.induct with
  | _ p n ih =>
  intro st n' st' h
  rcases run_normalizeWalk h with ⟨-, rfl, rfl⟩ | ⟨-, -, rfl, rfl⟩ | ⟨-, -, k, hk, rfl⟩
  · exact ⟨Rescoped.refl _ _, rfl⟩
  · refine ⟨Rescoped.drop_children fun σ => ?_, rfl⟩
    cases sub <;> simp [Substitution.construct, Kind.children, Child.ofList]
  · exact ⟨Rescoped.mapChildrenM (fun c _ s b s' hb => (ih c.node c.role c.lt hb).1) hk, rfl⟩

/-! ### The program of a session -/

/-- `st'` keeps the marks of the program of `st` where they stood, dropping some, and the
program's own mark; the table keeps its parents. -/
structure Session.Rescopes (st st' : Session) : Prop where
  parent_eq : ∀ s, (st'.scopes.get s).parent = (st.scopes.get s).parent
  root_scope : st'.root.scope = st.root.scope
  scopings : ∀ σ, (st'.root.scopings σ).Subperm (st.root.scopings σ)

namespace Session.Rescopes

variable {st st₁ st₂ : Session}

theorem refl (st : Session) : st.Rescopes st := ⟨fun _ => rfl, rfl, fun _ => List.Subperm.refl _⟩

theorem trans (h : st.Rescopes st₁) (h' : st₁.Rescopes st₂) : st.Rescopes st₂ :=
  ⟨fun s => (h'.parent_eq s).trans (h.parent_eq s), h'.root_scope.trans h.root_scope,
    fun σ => (h'.scopings σ).trans (h.scopings σ)⟩

instance : Std.Refl Session.Rescopes := ⟨refl⟩

instance : IsTrans Session Session.Rescopes := ⟨fun _ _ _ => trans⟩

end Session.Rescopes

/-- A walk leaves the program, and the table keeps its parents. -/
theorem Rescoped.rescopes {l l' : List Node} {st st' : Session} (h : Rescoped l l' st st') :
    st.Rescopes st' :=
  ⟨h.parent_eq, by rw [h.root_eq], fun σ => by rw [h.root_eq]⟩

/-- **Rewriting the nodes with an id keeps the marks where they stood**, when the step does for
each node it is given, and keeps the node's own mark. The path down to the node is rebuilt
around the answers for its children. -/
theorem Node.rescoped_updateAt {x : Nat} {f : Place → Node → Rewrite Node}
    (hf : ∀ q n st n' st', (f q n).run st = .ok (n', st') →
      Rescoped [n] [n'] st st' ∧ n'.scope = n.scope)
    (p : Place) (t : Node) :
    ∀ {st t' st'}, (t.updateAt x f p).run st = .ok (t', st') →
      Rescoped [t] [t'] st st' ∧ t'.scope = t.scope := by
  induction p, t using updateAt.induct x with
  | case1 p n hx =>
    intro st t' st' h
    rw [updateAt, if_pos hx] at h
    exact hf p n st t' st' h
  | case2 p n hx hno =>
    intro st t' st' h
    rw [updateAt, if_neg hx, if_pos hno] at h
    obtain ⟨rfl, rfl⟩ := Rewrite.run_pure_ok.1 h
    exact ⟨Rescoped.refl _ _, rfl⟩
  | case3 p n hx hno ih =>
    intro st t' st' h
    rw [updateAt, if_neg hx, if_neg hno] at h
    obtain ⟨k, st₁, hk, h⟩ := Rewrite.run_bind_ok.1 h
    obtain ⟨rfl, rfl⟩ := Rewrite.run_pure_ok.1 h
    exact ⟨Rescoped.mapChildrenM (fun c _ s b s' hb => (ih c.node c.role c.lt hb).1) hk, rfl⟩

namespace Rewrite

variable {st st' : Session}

/-- **Rewriting the tree that holds a node keeps the program's marks where they stood**, when
every rewrite of a tree keeps the tree's marks and its own mark. A subtree cut off is rewritten
away from the program. -/
theorem rescopes_inTreeOf {x : Nat} {F : Place → Node → Rewrite Node} {b : Bool}
    (hF : ∀ q t s t' s', (F q t).run s = .ok (t', s') → Rescoped [t] [t'] s s' ∧ t'.scope = t.scope)
    (h : (inTreeOf x F).run st = .ok (b, st')) : st.Rescopes st' := by
  simp only [inTreeOf, run_bind_ok] at h
  obtain ⟨s₀, s₁, hget, h⟩ := h
  cases hget
  by_cases hx : st.root.hasId x = true
  · rw [if_pos hx] at h
    simp only [run_bind_ok] at h
    obtain ⟨root, st₁, hroot, u, st₂, hmod, hret⟩ := h
    obtain ⟨-, rfl⟩ := run_pure_ok.1 hret
    cases hmod
    obtain ⟨hR, hs⟩ := hF _ _ _ _ _ hroot
    exact ⟨hR.parent_eq, hs, fun σ => by simpa using hR.scopings σ⟩
  · rw [if_neg hx] at h
    split at h
    · obtain ⟨-, rfl⟩ := run_pure_ok.1 h
      exact Session.Rescopes.refl _
    · split at h
      · obtain ⟨-, rfl⟩ := run_pure_ok.1 h
        exact Session.Rescopes.refl _
      · simp only [run_bind_ok] at h
        obtain ⟨t', st₁, ht', u, st₂, hmod, hret⟩ := h
        obtain ⟨-, rfl⟩ := run_pure_ok.1 hret
        cases hmod
        have hR := (hF _ _ _ _ _ ht').1
        exact ⟨hR.parent_eq, by simp [hR.root_eq], fun σ => by simp [hR.root_eq]; rfl⟩

/-- Rewriting the node with an id by a step that keeps the marks where they stood. -/
theorem rescopes_updateAt {x : Nat} {f : Place → Node → Rewrite Node}
    (hf : ∀ q n st n' st', (f q n).run st = .ok (n', st') →
      Rescoped [n] [n'] st st' ∧ n'.scope = n.scope) :
    Along Session.Rescopes (updateAt x f) := fun _ _ _ h => by
  obtain ⟨b, h⟩ := run_discard_ok.1 h
  exact rescopes_inTreeOf (fun q t s t' s' hr => Node.rescoped_updateAt hf q t hr) h

theorem rescopes_uidIn (s : Nat) (hint : String) : Along Session.Rescopes (uidIn s hint) :=
  fun _ _ _ h => (Rescoped.uidIn (l := []) h).rescopes

theorem rescopes_uidAt (x : Nat) (hint : String) : Along Session.Rescopes (uidAt x hint) :=
  Along.bind (Along.of_reads (reads_scopeAt x)) fun s => rescopes_uidIn s hint

/-- **Dereferencing a signal keeps the program's marks where they stood.** -/
theorem rescopes_derefAt (owner : Nat) (name read write : String) :
    Along Session.Rescopes (derefAt owner name read write) :=
  Along.bind (Along.of_reads (reads_targetAt owner name)) fun _ =>
    rescopes_updateAt fun _ _ _ _ _ h => by
      obtain ⟨w, s₁, hw, hret⟩ := run_bind_ok.1 h
      obtain ⟨rfl, rfl⟩ := run_pure_ok.1 hret
      exact derefWalk_node_rescoped hw

/-- **Respelling a binding keeps the program's marks where they stood.** -/
theorem rescopes_normalizeAt (owner : Nat) (sub : Substitution) (name : String) :
    Along Session.Rescopes (normalizeAt owner sub name) :=
  Along.bind (Along.of_reads (reads_targetAt owner name)) fun _ =>
    rescopes_updateAt fun q n _ _ _ h => normalizeWalk_rescoped q n h

/-! ### Adding fresh nodes -/

/-- A fresh node put in a construct's list takes no mark in. -/
theorem rescopes_replace {x : Nat} {k : Kind}
    (hk : ∀ c ∈ k.children.map Child.node, c.fresh = true) :
    Along Session.Rescopes (replace x k) :=
  rescopes_updateAt fun _ _ _ _ _ h => by
    obtain ⟨u, s₁, hcut, hret⟩ := run_bind_ok.1 h
    obtain ⟨rfl, rfl⟩ := run_pure_ok.1 hret
    refine ⟨(Rescoped.drop_children fun σ => ?_).trans (Rescoped.keepCut hcut), rfl⟩
    exact List.flatMap_eq_nil_iff.2 fun c hc => Node.scopings_of_fresh (hk c hc) σ

end Rewrite

/-- Rewriting the parent of the node with an id by a step that keeps the parent's marks keeps
those of the tree. -/
theorem Node.scopings_updateParentOf {x : Nat} {g : Place → Node → Id Node}
    (hg : ∀ (q : Place) (n : Node), (n.kind.children.any fun c => c.node.id == x) = true →
      (Id.run (g q n)).scope = n.scope ∧ ∀ σ, (Id.run (g q n)).scopings σ = n.scopings σ)
    (p : Place) (t : Node) :
    (Id.run (t.updateParentOf x g p)).scope = t.scope ∧
      ∀ σ, (Id.run (t.updateParentOf x g p)).scopings σ = t.scopings σ := by
  induction p, t using Node.updateParentOf.induct x with
  | case1 p n h =>
    rw [Node.updateParentOf, if_pos h]
    exact hg p n h
  | case2 p n h hno =>
    rw [Node.updateParentOf, if_neg h, if_pos hno]
    exact ⟨rfl, fun _ => rfl⟩
  | case3 p n h hno ih =>
    rw [Node.updateParentOf, if_neg h, if_neg hno, Kind.mapChildrenM_eq]
    simp only [Id.run_bind, Id.run_map, List.idRun_mapM, Id.run_pure]
    refine ⟨rfl, fun σ => ?_⟩
    rw [Node.scopings_withKind, Kind.children_setChildren_id
      (fun c r _ => Node.updateParentOf x g (p.child n r) c), Node.scopings_eq σ n,
      List.flatMap_map, List.flatMap_map]
    congr 1
    exact List.flatMap_congr fun c _ => (ih c.node c.role c.lt).2 _

/-- **Inserting a fresh node next to a node** leaves the marks of the tree. -/
theorem Node.scopings_insertNear {x : Nat} {node : Node} {after : Bool} {p : Place} {t t' : Node}
    (hnode : node.fresh = true) (h : Node.insertNear x node after p t = .ok t') :
    t'.scope = t.scope ∧ ∀ σ, t'.scopings σ = t.scopings σ := by
  unfold Node.insertNear at h
  split at h
  · cases h
  · split at h
    · cases h
    · cases h
    · split at h
      · cases h
      · cases h
        refine Node.scopings_updateParentOf (fun q n _ => ?_) p t
        simp only [Id.run_pure]
        split
        · rename_i k hk
          refine ⟨rfl, fun σ => ?_⟩
          rw [Node.scopings_withKind, Kind.flatMap_insertSibling hk
            (Node.scopings_of_fresh hnode _), ← Node.scopings_eq]
        · exact ⟨rfl, fun _ => rfl⟩

namespace Rewrite

theorem rescopes_insertNear {x : Nat} {node : Node} {after : Bool} (hnode : node.fresh = true) :
    Along Session.Rescopes (insertNear x node after) := by
  refine Along.bind (fun st b st' h => rescopes_inTreeOf (fun q t s t' s' hr => ?_) h)
    fun found => ?_
  · obtain ⟨hins, rfl⟩ := run_check_ok.1 hr
    obtain ⟨hscope, hs⟩ := Node.scopings_insertNear hnode hins
    exact ⟨(Rescoped.refl [t] s').of_scopings_eq fun σ => by simp [hs], hscope⟩
  · cases found
    · exact Along.fail _
    · exact Along.pure _

/-- Putting a fresh statement first in the program keeps its marks. -/
theorem rescopes_prepend {statement : Node} (hs : statement.fresh = true) :
    Along Session.Rescopes (prepend statement) := by
  intro st u st' h
  simp only [prepend, run_bind_ok] at h
  obtain ⟨s₀, s₁, hget, h⟩ := h
  cases hget
  split at h
  all_goals first
    | exact absurd h (run_fail_ne_ok _ _)
    | cases h
      rename_i body hb
      refine ⟨fun _ => rfl, rfl, fun σ => ?_⟩
      rw [Node.scopings_withKind, Node.scopings_eq σ st.root, hb]
      simp only [Kind.children, Child.node_ofList, List.flatMap_cons, Node.scopings_of_fresh hs,
        List.nil_append]
      exact List.Subperm.refl _

/-- **Importing a helper keeps the program's marks**: the import is a fresh statement. -/
theorem rescopes_hook (name : String) : Along Session.Rescopes (hook name) := by
  unfold hook
  refine Along.bind Along.get fun s => ?_
  split
  · exact Along.pure _
  · refine Along.bind (rescopes_uidIn 0 name) fun l => ?_
    refine Along.bind Along.get fun s' => Along.bind (rescopes_prepend (by simp [Kind.children]))
      fun _ => Along.bind ?_ fun _ => Along.pure _
    intro st u st' h
    cases h
    exact ⟨fun _ => rfl, rfl, fun _ => List.Subperm.refl _⟩

/-- **Flattening a pattern keeps the program's marks where they stood**: everything it puts in
the program is fresh, and the respellings of the names the pattern binds keep the marks. By
induction on the fuel, which a nested pattern spends. -/
theorem rescopes_destructure : ∀ (fuel d : Nat) (source pattern : Node) (rep : Bool),
    Along Session.Rescopes (destructure fuel d source pattern rep)
  | 0, _, _, _, _ => Along.pure ()
  | fuel + 1, d, _, _, _ =>
    along_destructure_body (fun _ _ _ => trans_of _) (fun _ _ _ => trans_of _) (rescopes_uidAt d)
      (fun _ hnode => rescopes_insertNear hnode)
      (fun owner sub x _ => rescopes_normalizeAt owner sub x) rescopes_hook
      (rescopes_destructure fuel d · · false)
      (fun _ _ _ hinit => rescopes_replace (by simp [bindingOf, Kind.children, Child.ofOption,
        hinit]))
      (fun _ _ _ hinit => rescopes_insertNear (by simp [bindingOf, Kind.children, Child.ofOption,
        hinit]))

end Rewrite

/-! ### The marks the analysis leaves -/

namespace ScopeWalk

open Scopes

/-- A subtree standing in `σ` whose marks are nested in every table grown from `t`: the parent of
each mark is the scope its node stands in. -/
def Nests (t : Scopes) (σ : Nat) (n : Node) : Prop :=
  ∀ T, Grows t T → ∀ e ∈ n.scopings σ, (T.get e.2).parent = some e.1

theorem Nests.grow {t t' : Scopes} {σ : Nat} {n : Node} (h : Grows t t') (hn : Nests t σ n) :
    Nests t' σ n :=
  fun T hT => hn T (h.trans hT)

/-- **The analysis opens every scope under the scope its owner stands in.** From a sound table
in which the scopes it starts with are open, the walk of an unmarked subtree leaves it with
nested marks. By induction along the walk, as for `walk_fits`: the node's own mark is the scope
`enter` opened under `scope`, and the children, walked one after the other, stand in the scope
`enter` gave them. -/
theorem walk_nests (parent : Option Kind) (scope hoist : Nat) (n : Node) :
    ∀ t : Scopes, t.Sound → scope < t.table.size → hoist < t.table.size → n.unmarked = true →
      Nests ((walk parent scope hoist n).run t).2 scope ((walk parent scope hoist n).run t).1 := by
  induction parent, scope, hoist, n using walk.induct with
  | case1 parent scope hoist n ih =>
  intro t ht hs hh hn
  obtain ⟨hsc, hchildren⟩ := Node.unmarked_iff.1 hn
  have hspec := @enter_spec parent scope hoist n t ht hs hh
  rw [run_walk]
  generalize (enter parent scope hoist n).run t = e at hspec ⊢
  obtain ⟨⟨mark, scope', hoist'⟩, t₁⟩ := e
  obtain ⟨ht₁, -, hs₁, hh₁, hmark⟩ := hspec
  dsimp only at ht₁ hs₁ hh₁ hmark ⊢
  obtain ⟨-, hkc, hkt⟩ := Kind.run_mapChildrenM n.kind
    (fun c _ _ => walk (some n.kind) scope' hoist' c) t₁
  obtain ⟨-, hg₂, hnests⟩ := StateT.run_mapM_along (l := n.kind.children)
    (f := fun c => walk (some n.kind) scope' hoist' c.node)
    (fun s => s.Sound ∧ scope' < s.table.size ∧ hoist' < s.table.size) Grows
    (fun s b => Nests s scope' b) Grows.refl Grows.trans Nests.grow
    (fun (c : Child n.kind) hc s hI => by
      obtain ⟨hs', hs'', hh''⟩ := hI
      have hu := hchildren c.node (List.mem_map_of_mem hc)
      obtain ⟨h1, h2, -⟩ := walk_fits (some n.kind) scope' hoist' c.node s hs' hs'' hh'' hu
      exact ⟨⟨h1, by have := h2.size_le; omega, by have := h2.size_le; omega⟩, h2,
        ih scope' hoist' c.node c.lt s hs' hs'' hh'' hu⟩)
    (s := t₁) ⟨ht₁, hs₁, hh₁⟩
  rw [← hkt] at hg₂ hnests
  rw [← hkc] at hnests
  generalize (n.kind.mapChildrenM fun c _ _ => walk (some n.kind) scope' hoist' c).run t₁ = r
    at hnests hg₂ ⊢
  obtain ⟨k, t₂⟩ := r
  dsimp only at hnests hg₂ ⊢
  have hown : (mark.orElse fun _ => n.scope) = mark := by
    rw [hsc]
    cases mark <;> rfl
  have hctx : mark.getD scope = scope' := by
    rcases hmark with ⟨rfl, rfl⟩ | ⟨s, rfl, rfl, -⟩ <;> rfl
  intro T hT e he
  rw [Node.scopings_eq, Node.scope_mk, Node.kind_mk, hown, hctx, List.mem_append] at he
  rcases he with he | he
  · rcases hmark with ⟨rfl, -⟩ | ⟨s, rfl, rfl, hp⟩
    · cases he
    · rw [Option.map_some, Option.toList_some, List.mem_singleton] at he
      subst he
      rw [(hg₂.trans hT).parent_eq _ hs₁, hp]
  · obtain ⟨c, hc, he⟩ := List.mem_flatMap.1 he
    exact hnests c hc T hT e he

end ScopeWalk

end SignalSugar
