import SignalSugar.Proofs.LanguageScopes
import SignalSugar.Proofs.ScopeChains
/-!
# What the analysis binds, in the language's terms

The analysis walks a module once, opening a scope where a construct pushes frames and declaring
each name where the language binds it. This module proves, by induction along the walk, that
the marks and the table it leaves say what `Node.scopeNames` says: a node standing under a
parent owns a scope exactly when its construct pushes frames, and the scope binds the
construct's names (`Analyzed`). A node read back with its marks erased (`Node.plain`) is the
construct as written.

## Main results

* `ScopeWalk.enter_binds`: what one step of the walk declares, and where.
* `ScopeWalk.walk_owns`: what the walk of a subtree declares in the scopes it starts with.
* `ScopeWalk.walk_analyzed`, `ScopeWalk.analyzed_start`: the walk leaves every subtree it
  walks, and the analysis the module, analyzed.
* `ScopeWalk.analyzed_of_find`: so is every node a rewrite finds by id.
-/

namespace SignalSugar

/-! ### Tables that bind names in one scope -/

namespace Scopes

/-- `t'` is `t` with the names `ys` declared in the scope `s`: it only declares, every scope
binds what it bound, and `s`, if it is open, binds `ys` besides. -/
structure Adds (s : Nat) (ys : List String) (t t' : Scopes) : Prop where
  declares : Declares t t'
  owns_iff : ∀ i y, t'.owns i y = true ↔ t.owns i y = true ∨ (i = s ∧ s < t.table.size ∧ y ∈ ys)

namespace Adds

variable {s : Nat} {ys zs : List String} {t t' t'' : Scopes}

theorem refl (s : Nat) (t : Scopes) : Adds s [] t t := ⟨Declares.refl t, fun _ _ => by simp⟩

theorem trans (h : Adds s ys t t') (h' : Adds s zs t' t'') : Adds s (ys ++ zs) t t'' where
  declares := h.declares.trans h'.declares
  owns_iff i y := by
    rw [h'.owns_iff, h.owns_iff, h.declares.size_eq, List.mem_append]
    tauto

theorem foldl {α : Type} {f : Scopes → α → Scopes} {g : α → List String} {l : List α}
    (hf : ∀ a ∈ l, ∀ t, Adds s (g a) t (f t a)) (t : Scopes) :
    Adds s (l.flatMap g) t (l.foldl f t) := by
  induction l generalizing t with
  | nil => exact refl s t
  | cons a l ih =>
    rw [List.flatMap_cons, List.foldl_cons]
    exact (hf a List.mem_cons_self t).trans (ih (fun b hb => hf b (List.mem_cons_of_mem a hb)) _)

/-- A fold of declarations in `s`, then one more step `k` declaring in `s`. -/
theorem foldl_then {α : Type} {f : Scopes → α → Scopes} {g : α → List String} {l : List α}
    {k : Scopes → Scopes} (hf : ∀ a ∈ l, ∀ t, Adds s (g a) t (f t a)) (hk : ∀ t, Adds s zs t (k t))
    (t : Scopes) : Adds s (l.flatMap g ++ zs) t (k (l.foldl f t)) :=
  (foldl hf t).trans (hk _)

end Adds

theorem adds_declare (t : Scopes) (s : Nat) (y : String) : Adds s [y] t (t.declare s y) where
  declares := declares_declare t s y
  owns_iff i z := by
    rw [owns_iff, owns_iff, mem_bindings_declare, List.mem_singleton, @eq_comm _ s i]

/-- A scope just opened binds nothing; the others bind what they bound. -/
theorem owns_openScope (t : Scopes) (k : ScopeKind) (p : Option Nat) (o : Nat) (ty : String)
    (sp : Span) (i : Nat) (y : String) :
    (t.openScope k p o ty sp).1.owns i y = true ↔ i ≠ t.table.size ∧ t.owns i y = true := by
  rw [owns_iff, owns_iff, get_openScope]
  split <;> simp_all

/-- Past the end of the table no scope binds anything. -/
theorem owns_of_size_le {t : Scopes} {i : Nat} (hi : t.table.size ≤ i) (y : String) :
    t.owns i y = false := by
  rw [owns, get_of_size_le hi]
  rfl

/-- Declaring in `scope`, opening a scope, then declaring in the new scope. -/
theorem owns_around_open {scope : Nat} {L B : List String} {t t₁ t₂ : Scopes} {k : ScopeKind}
    {p : Option Nat} {o : Nat} {ty : String} {sp : Span} (hs : scope < t.table.size)
    (h₁ : Adds scope L t t₁) (h₂ : Adds t.table.size B (t₁.openScope k p o ty sp).1 t₂)
    (i : Nat) (y : String) :
    t₂.owns i y = true ↔ t.owns i y = true ∨ (i = scope ∧ y ∈ L) ∨ (i = t.table.size ∧ y ∈ B) := by
  have hsize := h₁.declares.size_eq
  rw [h₂.owns_iff, owns_openScope, h₁.owns_iff, size_openScope, hsize]
  by_cases hi : i = t.table.size
  · subst hi
    simp [owns_of_size_le (Nat.le_refl _), Nat.ne_of_gt hs]
  · simp [hi, hs]

end Scopes

namespace ScopeWalk

open Scopes

/-- A pattern declares in its scope the names it binds. -/
theorem adds_declarePattern (s : Nat) (p : Node) (t : Scopes) :
    Adds s p.boundNames t (declarePattern s p t) := by
  suffices ∀ b p, sizeOf p < b → ∀ t, Adds s p.boundNames t (declarePattern s p t) from
    this _ p (Nat.lt_succ_self _) t
  intro b
  induction b with
  | zero => intro p hp; omega
  | succ b ih =>
    intro p hp t
    rw [declarePattern.eq_def]
    split
    · rw [Node.boundNames]
      exact adds_declare t s _
    · rename_i props rest
      rw [Node.boundNames.eq_def]
      dsimp only
      rcases rest with _ | r
      on_goal 1 => refine Adds.foldl_then (k := id) (fun a _ t => ?_) (fun u => Adds.refl s u) t
      on_goal 2 =>
        refine Adds.foldl_then (k := declarePattern s r) (fun a _ t => ?_)
          (fun u => ih r (by simp at hp; omega) u) t
      -- a case on the property's kind, not a split: the walk's match and the names' match
      -- are alike, and a split does one or both depending on whether they share a matcher
      all_goals
        obtain ⟨⟨qi, qs, qo, qk⟩, hq⟩ := a
        cases qk <;> first
          | exact Adds.refl s t
          | exact ih _ (by have := List.sizeOf_lt_of_mem hq; simp at hp this; omega) t
    · rename_i es rest
      rw [Node.boundNames.eq_def]
      dsimp only
      rcases rest with _ | r
      on_goal 1 => refine Adds.foldl_then (k := id) (fun a _ t => ?_) (fun u => Adds.refl s u) t
      on_goal 2 =>
        refine Adds.foldl_then (k := declarePattern s r) (fun a _ t => ?_)
          (fun u => ih r (by simp at hp; omega) u) t
      all_goals
        obtain ⟨e, he⟩ := a
        dsimp only
        split
        · exact ih _ (by have := List.sizeOf_lt_of_mem he; simp at hp this; omega) t
        · exact Adds.refl s t
    · rw [Node.boundNames]
      exact ih _ (by simp at hp; omega) t
    · rw [Node.boundNames]
      exact ih _ (by simp at hp; omega) t
    · rename_i h₁ h₂ h₃ h₄ h₅
      rw [Node.boundNames.eq_def]
      split
      · exact (h₁ _ _ _ _ rfl).elim
      · exact (h₂ _ _ _ _ _ rfl).elim
      · exact (h₃ _ _ _ _ _ rfl).elim
      · exact (h₄ _ _ _ _ _ rfl).elim
      · exact (h₅ _ _ _ _ rfl).elim
      · exact Adds.refl s t

end ScopeWalk

/-! ### The construct as written -/

namespace Node

/-- A subtree with every scope mark erased: the construct as written. -/
def plain (n : Node) : Node :=
  .mk n.id n.span none (n.kind.setChildren (n.kind.children.map fun c => plain c.node))
termination_by sizeOf n
decreasing_by have := c.lt; have := Node.sizeOf_kind_lt n; omega

theorem plain_eq (n : Node) :
    n.plain =
      .mk n.id n.span none (n.kind.setChildren ((n.kind.children.map Child.node).map plain)) := by
  rw [plain, List.map_map]
  rfl

@[simp] theorem id_plain (n : Node) : n.plain.id = n.id := by
  rw [plain_eq]
  rfl

@[simp] theorem scope_plain (n : Node) : n.plain.scope = none := by
  rw [plain_eq]
  rfl

/-- A subtree with no mark is as written. -/
theorem plain_of_unmarked {n : Node} (h : n.unmarked = true) : n.plain = n := by
  induction n using plain.induct with
  | case1 n ih =>
  obtain ⟨hs, hc⟩ := unmarked_iff.1 h
  have hmap : (n.kind.children.map Child.node).map plain = n.kind.children.map Child.node := by
    rw [List.map_map]
    exact List.map_congr_left fun c hc' => ih c (hc _ (List.mem_map_of_mem hc'))
  rw [plain_eq, hmap, Kind.setChildren_self]
  cases n
  simp_all

theorem plain_kind_ident {m : Node} {y : String} (h : m.kind = .ident y) :
    m.plain.kind = .ident y := by
  rw [plain_eq, kind_mk, h]
  rfl

end Node

namespace ScopeWalk

/-- The walk only marks: erasing the marks gives back the subtree as written. -/
theorem plain_walk (parent : Option Kind) (scope hoist : Nat) (n : Node) :
    ∀ t, ((walk parent scope hoist n).run t).1.plain = n.plain := by
  induction parent, scope, hoist, n using walk.induct with
  | case1 parent scope hoist n ih =>
  intro t
  rw [run_walk]
  generalize (enter parent scope hoist n).run t = e
  obtain ⟨⟨mark, scope', hoist'⟩, t₁⟩ := e
  dsimp only
  obtain ⟨hk, hkc, -⟩ := Kind.run_mapChildrenM n.kind
    (fun c _ _ => walk (some n.kind) scope' hoist' c) t₁
  have h := StateT.run_mapM_forall₂ (l := n.kind.children)
    (f := fun c => walk (some n.kind) scope' hoist' c.node)
    (fun c b => b.plain = c.node.plain) (fun c _ s => ih scope' hoist' c.node c.lt s) t₁
  rw [Node.plain_eq, Node.plain_eq n, Node.id_mk, Node.span_mk, Node.kind_mk, hkc, hk]
  generalize ((n.kind.children.mapM fun c => walk (some n.kind) scope' hoist' c.node).run t₁).1 = bs
    at h ⊢
  have hlen : bs.length = (n.kind.children.map Child.node).length := by
    rw [List.length_map]
    exact h.length_eq.symm
  rw [Kind.setChildren_setChildren _ hlen (by simpa using hlen)]
  congr 2
  clear hk hkc hlen
  generalize n.kind.children = l at h ⊢
  induction h with
  | nil => rfl
  | cons hb _ ih' => simp [hb, ih']

open Scopes

theorem run_openAt (k : ScopeKind) (p : Nat) (n : Node) (t : Scopes) :
    (openAt k p n).run t =
      ((t.openScope k (some p) n.id n.typeName n.span).2,
        (t.openScope k (some p) n.id n.typeName n.span).1) := rfl

theorem run_declareParams (s : Nat) (ps : List Node) (t : Scopes) :
    (declareParams s ps).run t = ((), ps.foldl (fun t p => declarePattern s p t) t) := rfl

theorem adds_declareParams (s : Nat) (ps : List Node) (t : Scopes) :
    Adds s (ps.flatMap Node.boundNames) t (ps.foldl (fun t p => declarePattern s p t) t) :=
  Adds.foldl (fun p _ t => adds_declarePattern s p t) t

/-- What one step of the walk does to the table, from a table in which `scope` and `hoist` are
open: the node owns a scope exactly where the language pushes frames, the one opened at the end
of the table, which its children stand in and, in a function or a static block, hoist their
`var`s to; it declares its lexical names in `scope`, its `var` names in `hoist`, and its own
bindings in the scope it opens. -/
theorem enter_binds {parent : Option Kind} {scope hoist : Nat} {n : Node} {t : Scopes}
    (hs : scope < t.table.size) (hh : hoist < t.table.size) :
    ((enter parent scope hoist n).run t).1 =
        (bif n.opens parent then
          (some t.table.size, t.table.size, bif n.kind.functionScope then t.table.size else hoist)
        else (none, scope, hoist)) ∧
      ∀ i y, ((enter parent scope hoist n).run t).2.owns i y = true ↔
        t.owns i y = true ∨ (i = scope ∧ y ∈ n.declaredLex) ∨ (i = hoist ∧ y ∈ n.declaredVar) ∨
          (n.opens parent = true ∧ i = t.table.size ∧ y ∈ n.ownBindings) := by
  cases hk : n.kind
  all_goals simp only [enter, hk, Node.opens, Node.declaredLex, Node.declaredVar, Node.ownBindings,
    Kind.opensRegion, Kind.functionScope, cond_true, cond_false]
  all_goals first
    | exact ⟨rfl, fun i y => (or_iff_left (by simp)).symm⟩
    | skip
  case varDecl k ds =>
    refine ⟨by cases k <;> rfl, fun i y => ?_⟩
    change (List.foldl _ t ds).owns i y = true ↔ _
    generalize htarget : (if (k == .var) = true then hoist else scope) = target
    rw [(Adds.foldl (s := target) (g := Node.declaratorNames) (fun d _ t => ?_) t).owns_iff]
    · cases k
      · obtain rfl : target = hoist := htarget.symm.trans rfl
        simp [hh]
      all_goals
        obtain rfl : target = scope := htarget.symm.trans rfl
        simp [hs]
    · -- as in `adds_declarePattern`, a case on the kind rather than a split
      rw [Node.declaratorNames.eq_def]
      generalize d.kind = k
      cases k <;> first | exact Adds.refl _ t | exact adds_declarePattern _ _ t
  case importDecl specs src =>
    refine ⟨rfl, fun i y => ?_⟩
    change (List.foldl _ t specs).owns i y = true ↔ _
    rw [(Adds.foldl (g := fun sp => [sp.localName])
      (fun sp _ t => adds_declare t scope sp.localName) t).owns_iff]
    simp [hs, @eq_comm _ y]
  case' funcDecl name ps b fl | classDecl name sup els | funcExpr name ps b fl
    | classExpr name sup els =>
    cases nameOf name
  case' catchClause p b => cases p
  case' block ss =>
    cases parent
    case' some k =>
      split_ifs with h
      · have hb : k.bodyOwner = true := by
          revert h
          cases k <;> first | (intro; rfl) | (intro h; cases h)
        exact ⟨by simp only [hb, Option.any_some, Bool.not_true, cond_false]; rfl,
          fun i y => (or_iff_left (by simp [hb])).symm⟩
      · have hb : k.bodyOwner = false := by
          revert h
          cases k <;> first | (intro; rfl) | (intro h; exact (h rfl).elim)
        exact ⟨by simp only [hb, Option.any_some, Bool.not_false, cond_true]; rfl,
          fun i y => (owns_around_open hs (Adds.refl scope t) (Adds.refl _ _) i y).trans
            (by simp [hb])⟩
  all_goals simp only [StateT.run_bind, StateT.run_modify, run_openAt, run_declareParams,
    StateT.run_pure, pure_bind, index_openScope, size_declare]
  case forStmt | forIn | forOf | switchStmt | staticBlock | classDecl.none | classExpr.none
    | catchClause.none | block =>
    exact ⟨rfl, fun i y =>
      (owns_around_open hs (Adds.refl scope t) (Adds.refl _ _) i y).trans (by simp)⟩
  case arrow ps b e a | objMethod mk k ps b fl | classMethod mk k st ps b fl | funcDecl.none
    | funcExpr.none =>
    exact ⟨rfl, fun i y =>
      (owns_around_open hs (Adds.refl scope t) (adds_declareParams _ ps _) i y).trans (by simp)⟩
  case funcDecl.some x =>
    exact ⟨rfl, fun i y =>
      (owns_around_open hs (adds_declare t scope x) (adds_declareParams _ ps _) i y).trans
        (by simp)⟩
  case classDecl.some x =>
    exact ⟨rfl, fun i y =>
      (owns_around_open hs (adds_declare t scope x) (Adds.refl _ _) i y).trans (by simp)⟩
  case funcExpr.some x =>
    exact ⟨rfl, fun i y => (owns_around_open hs (Adds.refl scope t)
      ((adds_declare _ _ x).trans (adds_declareParams _ ps _)) i y).trans (by simp)⟩
  case classExpr.some x =>
    exact ⟨rfl, fun i y =>
      (owns_around_open hs (Adds.refl scope t) (adds_declare _ _ x) i y).trans (by simp)⟩
  case catchClause.some p =>
    exact ⟨rfl, fun i y =>
      (owns_around_open hs (Adds.refl scope t) (adds_declarePattern _ p _) i y).trans (by simp)⟩

end ScopeWalk

namespace ScopeWalk

open Scopes

/-- The children walked one after another, each declaring what it declares where it stands on
the scopes it started with, declare all of it. -/
theorem owns_mapM_walk {α : Type} {f : α → Node} {pk : Option Kind} {scope hoist : Nat}
    {l : List α}
    (hl : ∀ a ∈ l, ∀ u : Scopes, u.Sound → scope < u.table.size → hoist < u.table.size →
      ((walk pk scope hoist (f a)).run u).2.Sound ∧
      u.table.size ≤ ((walk pk scope hoist (f a)).run u).2.table.size ∧
      ∀ i < u.table.size, ∀ y, ((walk pk scope hoist (f a)).run u).2.owns i y = true ↔
        u.owns i y = true ∨ (i = scope ∧ y ∈ (f a).regionLex pk) ∨
          (i = hoist ∧ y ∈ (f a).varNames))
    {t : Scopes} (ht : t.Sound) (hs : scope < t.table.size) (hh : hoist < t.table.size) :
    ((l.mapM fun a => walk pk scope hoist (f a)).run t).2.Sound ∧
    t.table.size ≤ ((l.mapM fun a => walk pk scope hoist (f a)).run t).2.table.size ∧
    ∀ i < t.table.size, ∀ y, ((l.mapM fun a => walk pk scope hoist (f a)).run t).2.owns i y = true ↔
      t.owns i y = true ∨ (i = scope ∧ y ∈ l.flatMap fun a => (f a).regionLex pk) ∨
        (i = hoist ∧ y ∈ l.flatMap fun a => (f a).varNames) := by
  induction l generalizing t with
  | nil =>
    refine ⟨ht, Nat.le_refl _, fun i _ y => ?_⟩
    simp only [List.flatMap_nil, List.not_mem_nil, and_false, or_false]
    rfl
  | cons a l ih =>
    have e : ((a :: l).mapM fun a => walk pk scope hoist (f a)).run t =
        (((walk pk scope hoist (f a)).run t).1 ::
          ((l.mapM fun a => walk pk scope hoist (f a)).run ((walk pk scope hoist (f a)).run t).2).1,
          ((l.mapM fun a => walk pk scope hoist (f a)).run ((walk pk scope hoist (f a)).run t).2).2) := by
      rw [List.mapM_cons]
      rfl
    obtain ⟨h₁, hsz₁, hown₁⟩ := hl a List.mem_cons_self t ht hs hh
    obtain ⟨h₂, hsz₂, hown₂⟩ := ih (fun b hb => hl b (List.mem_cons_of_mem a hb)) h₁
      (by omega) (by omega)
    rw [e]
    dsimp only
    refine ⟨h₂, by omega, fun i hi y => ?_⟩
    rw [hown₂ i (by omega) y, hown₁ i hi y, List.flatMap_cons, List.flatMap_cons, List.mem_append,
      List.mem_append]
    tauto

/-- **What the walk of a subtree declares in the scopes it starts with**: its lexical names,
where it stands, in `scope`, and its `var` names in `hoist`. By induction along the walk: a
node's step declares its own names, and opens a scope for its children's or lets them declare
in the same scopes. -/
theorem walk_owns (parent : Option Kind) (scope hoist : Nat) (n : Node) :
    ∀ t : Scopes, t.Sound → scope < t.table.size → hoist < t.table.size → n.unmarked = true →
      ((walk parent scope hoist n).run t).2.Sound ∧
      t.table.size ≤ ((walk parent scope hoist n).run t).2.table.size ∧
      ∀ i < t.table.size, ∀ y, ((walk parent scope hoist n).run t).2.owns i y = true ↔
        t.owns i y = true ∨ (i = scope ∧ y ∈ n.regionLex parent) ∨ (i = hoist ∧ y ∈ n.varNames) := by
  induction parent, scope, hoist, n using walk.induct with
  | case1 parent scope hoist n ih =>
  intro t ht hs hh hn
  obtain ⟨hT, hG, -⟩ := walk_fits parent scope hoist n t ht hs hh hn
  refine ⟨hT, hG.size_le, fun i hi y => ?_⟩
  have hchildren := (Node.unmarked_iff.1 hn).2
  obtain ⟨henter, hown⟩ := @enter_binds parent scope hoist n t hs hh
  obtain ⟨ht₁, hg₁, hs₁, hh₁, -⟩ := @enter_spec parent scope hoist n t ht hs hh
  rw [run_walk]
  generalize (enter parent scope hoist n).run t = e at henter hown ht₁ hg₁ hs₁ hh₁ ⊢
  obtain ⟨⟨mark, scope', hoist'⟩, t₁⟩ := e
  dsimp only at henter hown ht₁ hg₁ hs₁ hh₁ ⊢
  obtain ⟨-, -, hkt⟩ := Kind.run_mapChildrenM n.kind
    (fun c _ _ => walk (some n.kind) scope' hoist' c) t₁
  rw [hkt]
  obtain ⟨-, -, hcs⟩ := owns_mapM_walk (l := n.kind.children) (f := Child.node)
    (fun c hc u hu hsu hhu => ih scope' hoist' c.node c.lt u hu hsu hhu
      (hchildren _ (List.mem_map_of_mem hc))) ht₁ hs₁ hh₁
  have hsz := hg₁.size_le
  rw [hcs i (by omega) y, hown i y, Node.regionLex_eq, Node.varNames_eq, ← List.flatMap_map,
    ← List.flatMap_map (f := Child.node)]
  cases hop : n.opens parent
  · have hfs : n.kind.functionScope = false := by
      cases h : n.kind.functionScope
      · rfl
      · rw [Node.opens_of_functionScope h] at hop
        cases hop
    simp only [hop, cond_false, Prod.mk.injEq] at henter
    obtain ⟨rfl, rfl, rfl⟩ := henter
    simp only [hfs, cond_false, Bool.false_eq_true, false_and, or_false, List.mem_append]
    tauto
  · simp only [hop, cond_true, Prod.mk.injEq] at henter
    obtain ⟨rfl, rfl, rfl⟩ := henter
    cases n.kind.functionScope
    · simp [Nat.ne_of_lt hi]
      tauto
    · simp [Nat.ne_of_lt hi]

/-- The walk of a subtree leaves every scope open before it, other than the two it declares in,
as it was. -/
theorem walk_owns_other {parent : Option Kind} {scope hoist : Nat} {n : Node} {t : Scopes}
    (ht : t.Sound) (hs : scope < t.table.size) (hh : hoist < t.table.size)
    (hn : n.unmarked = true) {i : Nat} (hi : i < t.table.size) (his : i ≠ scope)
    (hih : i ≠ hoist) (y : String) :
    ((walk parent scope hoist n).run t).2.owns i y = t.owns i y := by
  obtain ⟨-, -, hown⟩ := walk_owns parent scope hoist n t ht hs hh hn
  exact Bool.eq_iff_iff.2 ((hown i hi y).trans (by simp [his, hih]))

end ScopeWalk

/-! ### What the analysis leaves of a subtree -/

/-- What the analysis left of a subtree standing under a parent of kind `pk`, judged by the
table `T`: the scope it owns, if any, binds the names `Node.scopeNames` gives; under a parent it
owns one exactly where the language pushes frames; and so for every child. -/
inductive Analyzed (T : Scopes) : Option Kind → Node → Prop
  | intro {pk : Option Kind} {a : Node} :
      (∀ s, a.scope = some s → ∀ y, T.owns s y = true ↔ y ∈ a.plain.scopeNames) →
      (pk.isSome → (a.scope = none ↔ a.plain.opens pk = false)) →
      (∀ c ∈ a.kind.children.map Child.node, Analyzed T (some a.plain.kind) c) →
      Analyzed T pk a

namespace Analyzed

variable {T : Scopes} {pk : Option Kind} {a : Node}

/-- Below a parent, a node owns a scope exactly when its construct pushes frames. -/
theorem opens_iff (hA : Analyzed T pk a) (hpk : pk.isSome = true) :
    a.plain.opens pk = true ↔ a.scope.isSome = true := by
  obtain ⟨-, hmark, -⟩ := hA
  have h := hmark hpk
  revert h
  cases a.scope <;> cases a.plain.opens pk <;> simp

/-- A node owning a scope pushes frames: below a parent it opens a region, and at the root it
is the module. -/
theorem pushesFrames (hA : Analyzed T pk a) (hroot : pk = none → ∃ ss, a.plain.kind = .program ss)
    (hs : a.scope.isSome = true) : a.plain.PushesFrames pk := by
  cases pk with
  | none => exact Or.inr ⟨rfl, hroot rfl⟩
  | some k => exact Or.inl ((hA.opens_iff rfl).2 hs)

end Analyzed

namespace ScopeWalk

open Scopes

/-- **The walk leaves a subtree analyzed**, judged by any table that binds in the scopes the
walk opened what the walk left there. By induction along the walk: the scope a node opens binds
its own bindings and what its children declare where they stand (`walk_owns`), and a child's
scopes are left as they are by the children walked after it. -/
theorem walk_analyzed (parent : Option Kind) (scope hoist : Nat) (n : Node) :
    ∀ t : Scopes, t.Sound → scope < t.table.size → hoist < t.table.size → n.unmarked = true →
      ∀ T : Scopes, (∀ i, t.table.size ≤ i → i < ((walk parent scope hoist n).run t).2.table.size →
        ∀ y, T.owns i y = ((walk parent scope hoist n).run t).2.owns i y) →
      Analyzed T parent ((walk parent scope hoist n).run t).1 := by
  induction parent, scope, hoist, n using walk.induct with
  | case1 parent scope hoist n ih =>
  intro t ht hs hh hn T hT
  have hplain := plain_walk parent scope hoist n t
  rw [Node.plain_of_unmarked hn] at hplain
  obtain ⟨hsc, hchildren⟩ := Node.unmarked_iff.1 hn
  obtain ⟨henter, hown⟩ := @enter_binds parent scope hoist n t hs hh
  obtain ⟨ht₁, hg₁, hs₁, hh₁, -⟩ := @enter_spec parent scope hoist n t ht hs hh
  rw [run_walk] at hplain hT ⊢
  generalize (enter parent scope hoist n).run t = e at henter hown ht₁ hg₁ hs₁ hh₁ hplain hT ⊢
  obtain ⟨⟨mark, scope', hoist'⟩, t₁⟩ := e
  dsimp only at henter hown ht₁ hg₁ hs₁ hh₁ hplain hT ⊢
  obtain ⟨-, hkc, hkt⟩ := Kind.run_mapChildrenM n.kind
    (fun c _ _ => walk (some n.kind) scope' hoist' c) t₁
  rw [hkt] at hT
  have hsz := hg₁.size_le
  obtain ⟨-, hsz₂, hcs⟩ := owns_mapM_walk (l := n.kind.children) (f := Child.node)
    (fun c hc u hu hsu hhu => walk_owns (some n.kind) scope' hoist' c.node u hu hsu hhu
      (hchildren _ (List.mem_map_of_mem hc))) ht₁ hs₁ hh₁
  have hmark : (mark.orElse fun _ => n.scope) = mark := by
    rw [hsc]
    cases mark <;> rfl
  refine .intro (fun s hs' y => ?_) (fun _ => ?_) (fun c hc => ?_)
  · rw [Node.scope_mk, hmark] at hs'
    cases hop : n.opens parent
    · simp [hop] at henter
      rw [henter.1] at hs'
      cases hs'
    · simp only [hop, cond_true, Prod.mk.injEq] at henter
      obtain ⟨rfl, rfl, rfl⟩ := henter
      cases hs'
      rw [hT _ (Nat.le_refl _) (by omega), hcs _ hs₁, hown, hplain, Node.scopeNames,
        Node.bindsVars_of_opens hop]
      cases n.kind.functionScope <;>
        simp [hop, Scopes.owns_of_size_le, Nat.ne_of_gt hs, Nat.ne_of_gt hh]
  · rw [Node.scope_mk, hplain, hmark]
    cases hop : n.opens parent <;> simp [hop] at henter <;> simp [henter.1]
  · rw [Node.kind_mk, hkc] at hc
    rw [hplain]
    obtain ⟨-, -, hQ⟩ := StateT.run_mapM_along (l := n.kind.children)
      (f := fun c => walk (some n.kind) scope' hoist' c.node)
      (fun u => u.Sound ∧ scope' < u.table.size ∧ hoist' < u.table.size ∧
        t₁.table.size ≤ u.table.size)
      (fun u u' => u.table.size ≤ u'.table.size ∧
        ∀ i, t₁.table.size ≤ i → i < u.table.size → ∀ y, u'.owns i y = u.owns i y)
      (fun u b => ∀ T' : Scopes, (∀ i, t₁.table.size ≤ i → i < u.table.size →
        ∀ y, T'.owns i y = u.owns i y) → Analyzed T' (some n.kind) b)
      (fun u => ⟨Nat.le_refl _, fun _ _ _ _ => rfl⟩)
      (fun h h' => ⟨Nat.le_trans h.1 h'.1,
        fun i hi hi' y => (h'.2 i hi (Nat.lt_of_lt_of_le hi' h.1) y).trans (h.2 i hi hi' y)⟩)
      (fun hG hq T' hT' => hq T' fun i hi hi' y =>
        (hT' i hi (Nat.lt_of_lt_of_le hi' hG.1) y).trans (hG.2 i hi hi' y))
      (fun c hc' u hI => by
        obtain ⟨hu, hsu, hhu, hlu⟩ := hI
        have hcm := hchildren _ (List.mem_map_of_mem hc')
        obtain ⟨hu', hsz', -⟩ := walk_owns (some n.kind) scope' hoist' c.node u hu hsu hhu hcm
        -- the scopes opened below this node lie past the two the child declares in
        refine ⟨⟨hu', by omega, by omega, by omega⟩,
          ⟨hsz', fun i hi hi' y => walk_owns_other hu hsu hhu hcm hi' (by omega) (by omega) y⟩,
          fun T' hT' => ?_⟩
        exact ih scope' hoist' c.node c.lt u hu hsu hhu hcm T' fun i hi hi' y =>
          hT' i (by omega) hi' y)
      (s := t₁) ⟨ht₁, hs₁, hh₁, Nat.le_refl _⟩
    exact hQ c hc T fun i hi hi' y => hT i (by omega) hi' y

end ScopeWalk

/-! ### Finding a node in an analyzed module -/

/-- The kind of the parent of a place, as written, if any. -/
def Place.parentKind (p : Place) : Option Kind := p.ancestors.head?.map fun e => e.1.plain.kind

@[simp] theorem Place.parentKind_top : Place.top.parentKind = none := rfl

@[simp] theorem Place.parentKind_child (p : Place) (n : Node) (r : Role) :
    (p.child n r).parentKind = some n.plain.kind := rfl

/-- What holds at a place and passes from a node to each of its children holds of what `find`
answers. -/
theorem Node.of_find {x : Nat} (P : Place → Node → Prop)
    (hchild : ∀ p n, P p n → ∀ c ∈ n.kind.children, P (p.child n c.role) c.node) {p : Place}
    {n : Node} (hp : P p n) : ∀ {m q}, n.find x p = some (m, q) → P q m := by
  induction p, n using find.induct x with
  | case1 p n hx =>
    intro m q h
    rw [find, if_pos hx] at h
    cases h
    exact hp
  | case2 p n hx ih =>
    intro m q h
    rw [find, if_neg hx] at h
    obtain ⟨c, hc, hcf⟩ := List.exists_of_findSome?_eq_some h
    exact ih c (hchild p n hp c hc) hcf

theorem Scopes.Nested.of_mem {t : Scopes} {σ : Nat} {ns : List Node} {c : Node}
    (h : t.Nested σ ns) (hc : c ∈ ns) : t.Nested σ [c] := fun e he =>
  h e (List.mem_flatMap.2 ⟨c, hc, by simpa using he⟩)

theorem Node.plain_mk_scope (n : Node) (s : Option Nat) :
    (Node.mk n.id n.span s n.kind).plain = n.plain := by
  rw [plain_eq, plain_eq n]
  rfl

namespace ScopeWalk

open Scopes

/-- The analysis only marks: the program it leaves, as written, is the program read. -/
theorem plain_start {root : Node} (hm : root.unmarked = true) (hooks : String) :
    (Session.start root hooks).root.plain = root := by
  have e : (Session.start root hooks).root = (analyzeScopes root).1 := rfl
  rw [e, analyzeScopes_eq]
  dsimp only
  rw [Node.plain_mk_scope, plain_walk, Node.plain_of_unmarked hm]

/-- The analysis keeps the program's id. -/
theorem id_start {root : Node} (hm : root.unmarked = true) (hooks : String) :
    (Session.start root hooks).root.id = root.id := by
  rw [← Node.id_plain, plain_start hm]

/-- **The analysis leaves a module analyzed**: the program owns scope 0, which binds what its
statements declare, lexically or by `var`, and every subtree below is analyzed. -/
theorem analyzed_start {root : Node} {body : List Node} (hm : root.unmarked = true)
    (hp : root.kind = .program body) (hooks : String) :
    Analyzed (Session.start root hooks).scopes none (Session.start root hooks).root := by
  have e : Session.start root hooks =
      ⟨(analyzeScopes root).1, [], (analyzeScopes root).2, hooks, []⟩ := rfl
  rw [e, analyzeScopes_eq]
  have h₁ := sound_programScope root
  have hA := walk_analyzed none 0 0 root _ h₁ (by simp) (by simp) hm
  obtain ⟨-, -, hown⟩ := walk_owns none 0 0 root _ h₁ (by simp) (by simp) hm
  have hplain := plain_walk none 0 0 root
    (Scopes.openScope ⟨#[], []⟩ .program none root.id root.typeName root.span).1
  rw [Node.plain_of_unmarked hm] at hplain
  generalize (walk none 0 0 root).run _ = r at hA hown hplain
  obtain ⟨r, T⟩ := r
  dsimp only at hA hown hplain ⊢
  obtain ⟨-, -, hchildren⟩ := hA T fun _ _ _ _ => rfl
  refine .intro (fun s hs y => ?_) (fun h => by cases h) (fun c hc => ?_)
  · cases hs
    have hnone : ¬ (Scopes.openScope ⟨#[], []⟩ .program none root.id root.typeName
        root.span).1.owns 0 y = true := by
      simp [owns_openScope]
    rw [Node.plain_mk_scope, hplain, hown 0 (by simp) y, Node.scopeNames_eq, Node.regionLex,
      Node.lexNames_eq, Node.varNames_eq, Node.regionLex_some]
    simp only [hnone, hp, Node.declaredLex, Node.declaredVar, Node.ownBindings, Kind.bodyOwner,
      Kind.opensRegion, Kind.functionScope, Kind.bindsVars, Option.any_none]
    simp
  · rw [Node.plain_mk_scope]
    exact hchildren c hc

/-- What the analysis leaves at a node `find` answers: the node is analyzed under its parent's
kind, the marks below it are nested, and only the program stands under no parent. -/
theorem analyzed_of_find {root : Node} {body : List Node} {hooks : String} {x : Nat} {m : Node}
    {q : Place} (hm : root.unmarked = true) (hp : root.kind = .program body)
    (hfind : (Session.start root hooks).root.find x Place.top = some (m, q)) :
    Analyzed (Session.start root hooks).scopes q.parentKind m ∧
      (Session.start root hooks).scopes.Nested (q.scopeOf m) (m.kind.children.map Child.node) ∧
      (q.parentKind = none → ∃ ss, m.plain.kind = .program ss) := by
  have hN := Session.nested_start hooks hm hp
  refine Node.of_find (fun p a => Analyzed (Session.start root hooks).scopes p.parentKind a ∧
      (Session.start root hooks).scopes.Nested (p.scopeOf a) (a.kind.children.map Child.node) ∧
      (p.parentKind = none → ∃ ss, a.plain.kind = .program ss))
    (fun p a ha c hc => ?_) (p := Place.top) ⟨analyzed_start hm hp hooks, ?_, fun _ => ⟨body, ?_⟩⟩
    hfind
  · obtain ⟨⟨-, -, hchildren⟩, hn, -⟩ := ha
    have hc' := List.mem_map_of_mem (f := Child.node) hc
    exact ⟨by simpa using hchildren _ hc', hn.child hc', fun h => by cases h⟩
  · simpa [Place.scopeOf, hN.root_scope] using hN.nested
  · rw [plain_start hm, hp]

end ScopeWalk

end SignalSugar
