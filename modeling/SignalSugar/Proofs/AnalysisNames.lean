import SignalSugar.Proofs.ScopeAnalysis
import SignalSugar.Proofs.SourceNodes
/-!
# What the analysis records of a module

Besides its scopes, the analysis of a module records every name the module spells: each
identifier, each binding identifier and the head of each JSX element name (`Node.spells`).
Fresh names are later drawn outside these. The walk rebuilds every node around its own
construct and keeps its id, so the module keeps its nodes read from the source.

Every step of the walk declares names, opens scopes or records a spelled name. A relation
between tables that each of these moves along is one the whole walk moves along
(`ScopeWalk.rel_walk`); that the names only grow is one such relation.

## Main results

* `ScopeWalk.spells_subset_analyzeScopes`: every name a module spells is a name of its table.
* `ScopeWalk.ids_analyzeScopes`: the analysis keeps the ids of the module's nodes.
-/

namespace SignalSugar

/-- The name a node spells itself: an identifier's, a binding identifier's, or the head of a
JSX element's name. -/
def Node.spelling (n : Node) : List String :=
  match n.kind with
  | .ident y | .bindingIdent y => [y]
  | .jsxElement name .. => [ScopeWalk.jsxHead name]
  | _ => []

/-- The names a subtree spells: its identifiers, its binding identifiers and the heads of its
JSX element names, in pre-order. -/
def Node.spells (n : Node) : List String :=
  n.spelling ++ n.kind.children.flatMap fun c => spells c.node
termination_by sizeOf n
decreasing_by have := c.lt; have := Node.sizeOf_kind_lt n; omega

/-- A `mapM` in a state monad whose steps move the state along the preorder `G`, each leaving a
state of which `Q` holds for its input, `Q` being kept along `G`. -/
theorem StateT.run_mapM_collect {σ α β : Type} {l : List α} {f : α → StateM σ β}
    (G : σ → σ → Prop) (Q : α → σ → Prop) (hrefl : ∀ s, G s s)
    (htrans : ∀ {a b c}, G a b → G b c → G a c) (hQ : ∀ {a s s'}, G s s' → Q a s → Q a s')
    (hf : ∀ a ∈ l, ∀ s, G s ((f a).run s).2 ∧ Q a ((f a).run s).2) (s : σ) :
    G s ((l.mapM f).run s).2 ∧ ∀ a ∈ l, Q a ((l.mapM f).run s).2 := by
  induction l generalizing s with
  | nil => exact ⟨hrefl s, fun _ ha => by cases ha⟩
  | cons a l ih =>
    have e : ((a :: l).mapM f).run s = (((f a).run s).1 :: ((l.mapM f).run ((f a).run s).2).1,
        ((l.mapM f).run ((f a).run s).2).2) := by
      rw [List.mapM_cons]
      rfl
    obtain ⟨hG₁, hQ₁⟩ := hf a List.mem_cons_self s
    obtain ⟨hG₂, hQ₂⟩ := ih (fun a' ha' => hf a' (List.mem_cons_of_mem a ha')) ((f a).run s).2
    rw [e]
    refine ⟨htrans hG₁ hG₂, fun a' ha' => ?_⟩
    rcases List.mem_cons.1 ha' with rfl | ha'
    · exact hQ hG₂ hQ₁
    · exact hQ₂ a' ha'

/-- The answers of a `mapM` in a state monad stand elementwise in the relation each step
establishes. -/
theorem StateT.run_mapM_forall₂ {σ α β : Type} {l : List α} {f : α → StateM σ β}
    (R : α → β → Prop) (hf : ∀ a ∈ l, ∀ s, R a ((f a).run s).1) (s : σ) :
    List.Forall₂ R l ((l.mapM f).run s).1 := by
  induction l generalizing s with
  | nil => exact List.Forall₂.nil
  | cons a l ih =>
    have e : ((a :: l).mapM f).run s = (((f a).run s).1 :: ((l.mapM f).run ((f a).run s).2).1,
        ((l.mapM f).run ((f a).run s).2).2) := by
      rw [List.mapM_cons]
      rfl
    rw [e]
    exact List.Forall₂.cons (hf a List.mem_cons_self s)
      (ih (fun a' ha' => hf a' (List.mem_cons_of_mem a ha')) _)

namespace ScopeWalk

open Scopes

section Relation

-- a relation between tables, reflexive and transitive, that declaring a name moves along
variable (P : Scopes → Scopes → Prop) (hrefl : ∀ t, P t t)
  (htrans : ∀ {a b c}, P a b → P b c → P a c) (hdecl : ∀ t s y, P t (t.declare s y))

include hrefl htrans in
theorem rel_foldl {α : Type} {f : Scopes → α → Scopes} {l : List α}
    (hf : ∀ a ∈ l, ∀ t, P t (f t a)) (t : Scopes) : P t (l.foldl f t) := by
  induction l generalizing t with
  | nil => exact hrefl t
  | cons a l ih =>
    exact htrans (hf a List.mem_cons_self t) (ih (fun b hb => hf b (List.mem_cons_of_mem a hb)) _)

include hrefl htrans hdecl in
/-- A pattern moves the table along every relation declaring does. -/
theorem rel_declarePattern (s : Nat) (p : Node) (t : Scopes) : P t (declarePattern s p t) := by
  suffices ∀ b p, sizeOf p < b → ∀ t, P t (declarePattern s p t) from
    this _ p (Nat.lt_succ_self _) t
  intro b
  induction b with
  | zero => intro p hp; omega
  | succ b ih =>
    intro p hp t
    rw [declarePattern.eq_def]
    split
    · exact hdecl t s _
    · rename_i props rest
      dsimp only
      generalize hF : List.foldl _ t props.attach = F
      have hFd : P t F := by
        rw [← hF]
        refine rel_foldl P hrefl htrans (fun a _ t => ?_) t
        obtain ⟨q, hq⟩ := a
        split
        · rename_i v _ hv _ _
          have := List.sizeOf_lt_of_mem hv
          simp at hp this
          exact ih v (by omega) t
        · exact hrefl t
      split
      · exact htrans hFd (ih _ (by simp at hp; omega) F)
      · exact hFd
    · rename_i es rest
      dsimp only
      generalize hF : List.foldl _ t es.attach = F
      have hFd : P t F := by
        rw [← hF]
        refine rel_foldl P hrefl htrans (fun a _ t => ?_) t
        obtain ⟨e, he⟩ := a
        split
        · rename_i x hx _ _
          have := List.sizeOf_lt_of_mem hx
          simp at hp this
          exact ih x (by omega) t
        · exact hrefl t
      split
      · exact htrans hFd (ih _ (by simp at hp; omega) F)
      · exact hFd
    · exact ih _ (by simp at hp; omega) t
    · exact ih _ (by simp at hp; omega) t
    · exact hrefl t

variable (hopen : ∀ t k p o ty sp, P t (t.openScope k p o ty sp).1)
  (hname : ∀ t y, P t { t with names := t.names.insert y })

include hrefl htrans hdecl hopen hname in
/-- One step of the walk moves the table along every relation that declaring, opening a scope
and recording a name do. -/
theorem rel_enter (parent : Option Kind) (scope hoist : Nat) (n : Node) (t : Scopes) :
    P t ((enter parent scope hoist n).run t).2 := by
  have hpat := rel_declarePattern P hrefl htrans hdecl
  have hparams : ∀ s ps t, P t ((declareParams s ps).run t).2 := fun s ps t =>
    rel_foldl P hrefl htrans (fun p _ t => hpat s p t) t
  unfold enter
  split
  case h_1 | h_2 | h_19 => exact hname t _
  case h_3 =>
    refine rel_foldl P hrefl htrans (fun d _ t => ?_) t
    split
    · exact hpat _ _ t
    · exact hrefl t
  case h_4 => exact rel_foldl P hrefl htrans (fun sp _ t => hdecl t scope sp.localName) t
  case h_20 => exact hrefl t
  case h_7 | h_8 | h_9 => exact htrans (hopen _ _ _ _ _ _) (hparams _ _ _)
  case h_10 | h_13 | h_14 | h_15 | h_16 => exact hopen _ _ _ _ _ _
  case h_5 =>
    split
    · exact htrans (hdecl _ _ _) (htrans (hopen _ _ _ _ _ _) (hparams _ _ _))
    · exact htrans (hopen _ _ _ _ _ _) (hparams _ _ _)
  case h_6 =>
    split
    · exact htrans (hopen _ _ _ _ _ _) (htrans (hdecl _ _ _) (hparams _ _ _))
    · exact htrans (hopen _ _ _ _ _ _) (hparams _ _ _)
  case h_11 =>
    split
    · exact htrans (hdecl _ _ _) (hopen _ _ _ _ _ _)
    · exact hopen _ _ _ _ _ _
  case h_12 =>
    split
    · exact htrans (hopen _ _ _ _ _ _) (hdecl _ _ _)
    · exact hopen _ _ _ _ _ _
  case h_17 =>
    split
    · exact htrans (hopen _ _ _ _ _ _) (hpat _ _ _)
    · exact hopen _ _ _ _ _ _
  case h_18 =>
    dsimp only
    split_ifs
    · exact hrefl t
    · exact hopen _ _ _ _ _ _

include hrefl htrans hdecl hopen hname in
/-- The walk of a subtree moves the table along every relation each of its steps does. -/
theorem rel_walk (parent : Option Kind) (scope hoist : Nat) (n : Node) (t : Scopes) :
    P t ((walk parent scope hoist n).run t).2 := by
  induction parent, scope, hoist, n using walk.induct generalizing t with
  | case1 parent scope hoist n ih =>
  have h₁ := rel_enter P hrefl htrans hdecl hopen hname parent scope hoist n t
  rw [run_walk]
  generalize (enter parent scope hoist n).run t = e at h₁ ⊢
  obtain ⟨⟨mark, scope', hoist'⟩, t₁⟩ := e
  obtain ⟨-, -, hkt⟩ := Kind.run_mapChildrenM n.kind
    (fun c _ _ => walk (some n.kind) scope' hoist' c) t₁
  rw [hkt]
  exact htrans h₁ (StateT.run_mapM_along (fun _ => True) P (fun _ _ => True) hrefl htrans
    (fun _ _ => trivial) (fun c _ s _ => ⟨trivial, ih scope' hoist' c.node c.lt s, trivial⟩)
    trivial).2.1

end Relation

/-- The walk only adds names. -/
theorem names_subset_walk (parent : Option Kind) (scope hoist : Nat) (n : Node) (t : Scopes) :
    t.names ⊆ ((walk parent scope hoist n).run t).2.names :=
  rel_walk (fun t t' => t.names ⊆ t'.names) (fun _ => List.Subset.refl _)
    (fun h h' => List.Subset.trans h h') (fun t _ y => by simp [List.subset_insert])
    (fun _ _ _ _ _ _ => by simp) (fun t y => by simp [List.subset_insert]) parent scope hoist n t

/-- The step of the walk at a node records the name the node spells. -/
theorem spelling_subset_enter (parent : Option Kind) (scope hoist : Nat) (n : Node) (t : Scopes) :
    n.spelling ⊆ ((enter parent scope hoist n).run t).2.names := by
  intro y hy
  unfold Node.spelling at hy
  split at hy
  case h_4 => cases hy
  all_goals
    rename_i hk
    rw [List.mem_singleton] at hy
    subst hy
    simp only [enter, hk]
    exact List.mem_insert_self

/-- **The walk records every name the subtree spells**: the step at each node records the
node's own, and the walks of the children, one after the other, theirs; names are never
dropped. -/
theorem spells_subset_walk (parent : Option Kind) (scope hoist : Nat) (n : Node) :
    ∀ t, n.spells ⊆ ((walk parent scope hoist n).run t).2.names := by
  induction parent, scope, hoist, n using walk.induct with
  | case1 parent scope hoist n ih =>
  intro t y hy
  have hown := spelling_subset_enter parent scope hoist n t
  rw [Node.spells, List.mem_append, List.mem_flatMap] at hy
  rw [run_walk]
  generalize (enter parent scope hoist n).run t = e at hown ⊢
  obtain ⟨⟨mark, scope', hoist'⟩, t₁⟩ := e
  obtain ⟨-, -, hkt⟩ := Kind.run_mapChildrenM n.kind
    (fun c _ _ => walk (some n.kind) scope' hoist' c) t₁
  rw [hkt]
  obtain ⟨hsub, hchild⟩ := StateT.run_mapM_collect (l := n.kind.children)
    (f := fun c => walk (some n.kind) scope' hoist' c.node)
    (fun t t' => t.names ⊆ t'.names) (fun c t => c.node.spells ⊆ t.names)
    (fun _ => List.Subset.refl _) (fun h h' => List.Subset.trans h h')
    (fun h h' => List.Subset.trans h' h)
    (fun c _ s => ⟨names_subset_walk _ _ _ _ s, ih scope' hoist' c.node c.lt s⟩) t₁
  rcases hy with hy | ⟨c, hc, hy⟩
  · exact hsub (hown hy)
  · exact hchild c hc hy

/-- The walk rebuilds every node with its id around its own construct, so it keeps the ids of
the nodes read from the source. -/
theorem ids_walk (parent : Option Kind) (scope hoist : Nat) (n : Node) :
    ∀ t, ((walk parent scope hoist n).run t).1.ids = n.ids := by
  induction parent, scope, hoist, n using walk.induct with
  | case1 parent scope hoist n ih =>
  intro t
  rw [run_walk]
  generalize (enter parent scope hoist n).run t = e
  obtain ⟨⟨mark, scope', hoist'⟩, t₁⟩ := e
  obtain ⟨-, hkc, -⟩ := Kind.run_mapChildrenM n.kind
    (fun c _ _ => walk (some n.kind) scope' hoist' c) t₁
  rw [Node.ids_eq, Node.ids_eq n, Node.id_mk, Node.kind_mk, hkc]
  congr 1
  have h := StateT.run_mapM_forall₂ (l := n.kind.children)
    (f := fun c => walk (some n.kind) scope' hoist' c.node)
    (fun c b => b.ids = c.node.ids) (fun c _ s => ih scope' hoist' c.node c.lt s) t₁
  generalize ((n.kind.children.mapM fun c => walk (some n.kind) scope' hoist' c.node).run t₁).1 = bs
    at h ⊢
  generalize n.kind.children = l at h ⊢
  induction h with
  | nil => rfl
  | cons hb _ ih' => simp [hb, ih']

/-- **The analysis keeps the module's nodes**: only scope marks change. -/
theorem ids_analyzeScopes (root : Node) : (analyzeScopes root).1.ids = root.ids := by
  rw [analyzeScopes_eq, Node.ids_eq, Node.id_mk, Node.kind_mk, ← Node.ids_eq]
  exact ids_walk none 0 0 root _

/-- **Every name a module spells is a name of its table.** -/
theorem spells_subset_analyzeScopes (root : Node) : root.spells ⊆ (analyzeScopes root).2.names := by
  rw [analyzeScopes_eq]
  exact spells_subset_walk none 0 0 root _

end ScopeWalk

end SignalSugar
