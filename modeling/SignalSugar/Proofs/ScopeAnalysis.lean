import Mathlib
import SignalSugar.Proofs.Resolution
import SignalSugar.Proofs.Traversal
/-!
# The analysis of a module is well scoped

`analyzeScopes` walks a module once, opening scopes and declaring names as it goes. What it
leaves is what resolution, and every rewrite that follows it, relies on:

* the table is **sound** (`Scopes.Sound`): a parent comes before its child, and every bound
  name is known;
* the tree is **well scoped** for the table (`WellScoped`): a node owning a scope owns one
  opened under the scope it stands in.

Both are kept by each step of the walk. A step of the walk (`enter`) only declares, or
declares around one new scope whose parent is the scope the node stands in
(`ScopeWalk.enter_cases`). Declaring keeps every scope and its parent (`Scopes.Declares`);
opening a scope adds one at the end (`Scopes.Grows`). A subtree the walk has left stays
well scoped for every table grown from the one it was left with (`ScopeWalk.Fits`), so the
children, walked one after another, stay well scoped for the table of the end.

The analysis trusts its input to carry no scope marks (`Node.unmarked`), as a module just
read does: a node that owns no scope keeps the mark it came with.

## Main results

* `ScopeWalk.enter_cases`: what one step of the walk does to the table.
* `ScopeWalk.walk_fits`: the walk of a subtree keeps the table sound and leaves the subtree
  well scoped.
* `ScopeWalk.analyzeScopes_wellScoped`: the analysis of a module leaves a sound table and a
  well scoped tree.
-/

namespace SignalSugar

/-! ### Tables that only grow -/

namespace Scopes

/-- `t'` adds declarations to `t`: the same scopes with the same parents, and sound if `t`
is. -/
structure Declares (t t' : Scopes) : Prop where
  size_eq : t'.table.size = t.table.size
  parent_eq : ∀ s, (t'.get s).parent = (t.get s).parent
  sound : t.Sound → t'.Sound

/-- `t'` grows `t`: the scopes of `t` keep their parents, and more may follow. -/
structure Grows (t t' : Scopes) : Prop where
  size_le : t.table.size ≤ t'.table.size
  parent_eq : ∀ s < t.table.size, (t'.get s).parent = (t.get s).parent

namespace Declares

theorem refl (t : Scopes) : Declares t t := ⟨rfl, fun _ => rfl, id⟩

theorem trans {t t' t'' : Scopes} (h : Declares t t') (h' : Declares t' t'') : Declares t t'' where
  size_eq := h'.size_eq.trans h.size_eq
  parent_eq s := (h'.parent_eq s).trans (h.parent_eq s)
  sound ht := h'.sound (h.sound ht)

theorem grows {t t' : Scopes} (h : Declares t t') : Grows t t' :=
  ⟨Nat.le_of_eq h.size_eq.symm, fun s _ => h.parent_eq s⟩

theorem foldl {α : Type} {f : Scopes → α → Scopes} {l : List α}
    (hf : ∀ a ∈ l, ∀ t, Declares t (f t a)) (t : Scopes) : Declares t (l.foldl f t) := by
  induction l generalizing t with
  | nil => exact refl t
  | cons a l ih =>
    exact (hf a List.mem_cons_self t).trans
      (ih (fun b hb => hf b (List.mem_cons_of_mem a hb)) _)

end Declares

theorem declares_declare (t : Scopes) (s : Nat) (y : String) : Declares t (t.declare s y) :=
  ⟨size_declare t s y, fun i => parent_declare t s i y, fun h => h.declare s y⟩

/-- Recording a spelled name adds it to the names and changes no scope. -/
theorem declares_insertName (t : Scopes) (y : String) :
    Declares t { t with names := t.names.insert y } where
  size_eq := rfl
  parent_eq _ := rfl
  sound h := ⟨fun s z hz => List.mem_insert_iff.2 (Or.inr (h.mem_names s z hz)), h.parent_lt⟩

namespace Grows

theorem refl (t : Scopes) : Grows t t := ⟨Nat.le_refl _, fun _ _ => rfl⟩

theorem trans {t t' t'' : Scopes} (h : Grows t t') (h' : Grows t' t'') : Grows t t'' where
  size_le := Nat.le_trans h.size_le h'.size_le
  parent_eq s hs := (h'.parent_eq s (Nat.lt_of_lt_of_le hs h.size_le)).trans (h.parent_eq s hs)

end Grows

theorem grows_openScope (t : Scopes) (k : ScopeKind) (p : Option Nat) (o : Nat) (ty : String)
    (sp : Span) : Grows t (t.openScope k p o ty sp).1 where
  size_le := by simp
  parent_eq s hs := by simp [Nat.ne_of_lt hs]

end Scopes

/-! ### One step of the walk -/

namespace ScopeWalk

open Scopes

/-- A pattern only declares the names it binds. -/
theorem declares_declarePattern (s : Nat) (p : Node) (t : Scopes) :
    Declares t (declarePattern s p t) := by
  suffices ∀ b p, sizeOf p < b → ∀ t, Declares t (declarePattern s p t) from
    this _ p (Nat.lt_succ_self _) t
  intro b
  induction b with
  | zero => intro p hp; omega
  | succ b ih =>
    intro p hp t
    rw [declarePattern.eq_def]
    split
    · exact declares_declare t s _
    · rename_i props rest
      dsimp only
      generalize hF : List.foldl _ t props.attach = F
      have hFd : Declares t F := by
        rw [← hF]
        refine Declares.foldl (fun a _ t => ?_) t
        obtain ⟨q, hq⟩ := a
        split
        · rename_i v _ hv _ _
          have := List.sizeOf_lt_of_mem hv
          simp at hp this
          exact ih v (by omega) t
        · exact Declares.refl t
      split
      · exact hFd.trans (ih _ (by simp at hp; omega) F)
      · exact hFd
    · rename_i es rest
      dsimp only
      generalize hF : List.foldl _ t es.attach = F
      have hFd : Declares t F := by
        rw [← hF]
        refine Declares.foldl (fun a _ t => ?_) t
        obtain ⟨e, he⟩ := a
        split
        · rename_i x hx _ _
          have := List.sizeOf_lt_of_mem hx
          simp at hp this
          exact ih x (by omega) t
        · exact Declares.refl t
      split
      · exact hFd.trans (ih _ (by simp at hp; omega) F)
      · exact hFd
    · exact ih _ (by simp at hp; omega) t
    · exact ih _ (by simp at hp; omega) t
    · exact Declares.refl t

theorem declares_declareParams (s : Nat) (ps : List Node) (t : Scopes) :
    Declares t (((declareParams s ps).run t).2) :=
  Declares.foldl (fun p _ t => declares_declarePattern s p t) t

/-- What `enter` does to the table: it only declares, or it declares around the opening of
one scope under `scope`, which the children then stand in. -/
theorem enter_cases (parent : Option Kind) (scope hoist : Nat) (n : Node) (t : Scopes) :
    (Declares t ((enter parent scope hoist n).run t).2 ∧
      ((enter parent scope hoist n).run t).1 = (none, scope, hoist)) ∨
    ∃ k t₁, Declares t t₁ ∧
      Declares (t₁.openScope k (some scope) n.id n.typeName n.span).1
        ((enter parent scope hoist n).run t).2 ∧
      ((enter parent scope hoist n).run t).1.1 = some t₁.table.size ∧
      ((enter parent scope hoist n).run t).1.2.1 = t₁.table.size ∧
      (((enter parent scope hoist n).run t).1.2.2 = t₁.table.size ∨
        ((enter parent scope hoist n).run t).1.2.2 = hoist) := by
  unfold enter
  split
  case h_1 | h_2 => exact Or.inl ⟨declares_insertName t _, rfl⟩
  case h_3 =>
    refine Or.inl ⟨Declares.foldl (fun d _ t => ?_) t, rfl⟩
    split
    · exact declares_declarePattern _ _ t
    · exact Declares.refl t
  case h_4 => exact Or.inl ⟨Declares.foldl (fun sp _ t => declares_declare t scope sp.localName) t, rfl⟩
  case h_7 | h_8 | h_9 =>
    exact Or.inr ⟨.function, t, Declares.refl t, declares_declareParams _ _ _, rfl, rfl, Or.inl rfl⟩
  case h_5 =>
    split
    · exact Or.inr ⟨.function, _, declares_declare t scope _, declares_declareParams _ _ _, rfl, rfl,
        Or.inl rfl⟩
    · exact Or.inr ⟨.function, t, Declares.refl t, declares_declareParams _ _ _, rfl, rfl, Or.inl rfl⟩
  case h_6 =>
    split
    · exact Or.inr ⟨.function, t, Declares.refl t,
        (declares_declare _ _ _).trans (declares_declareParams _ _ _), rfl, rfl, Or.inl rfl⟩
    · exact Or.inr ⟨.function, t, Declares.refl t, declares_declareParams _ _ _, rfl, rfl, Or.inl rfl⟩
  case h_10 => exact Or.inr ⟨.function, t, Declares.refl t, Declares.refl _, rfl, rfl, Or.inl rfl⟩
  case h_11 =>
    split
    · exact Or.inr ⟨.block, _, declares_declare t scope _, Declares.refl _, rfl, rfl, Or.inr rfl⟩
    · exact Or.inr ⟨.block, t, Declares.refl t, Declares.refl _, rfl, rfl, Or.inr rfl⟩
  case h_12 =>
    split
    · exact Or.inr ⟨.block, t, Declares.refl t, declares_declare _ _ _, rfl, rfl, Or.inr rfl⟩
    · exact Or.inr ⟨.block, t, Declares.refl t, Declares.refl _, rfl, rfl, Or.inr rfl⟩
  case h_13 | h_14 | h_15 | h_16 =>
    exact Or.inr ⟨.block, t, Declares.refl t, Declares.refl _, rfl, rfl, Or.inr rfl⟩
  case h_17 =>
    split
    · exact Or.inr ⟨.block, t, Declares.refl t, declares_declarePattern _ _ _, rfl, rfl, Or.inr rfl⟩
    · exact Or.inr ⟨.block, t, Declares.refl t, Declares.refl _, rfl, rfl, Or.inr rfl⟩
  case h_18 =>
    dsimp only
    split_ifs
    · exact Or.inl ⟨Declares.refl t, rfl⟩
    · exact Or.inr ⟨.block, t, Declares.refl t, Declares.refl _, rfl, rfl, Or.inr rfl⟩
  case h_19 => exact Or.inl ⟨declares_insertName t _, rfl⟩
  case h_20 => exact Or.inl ⟨Declares.refl t, rfl⟩

theorem enter_program {parent : Option Kind} {scope hoist : Nat} {n : Node} {body : List Node}
    (h : n.kind = .program body) (t : Scopes) :
    ((enter parent scope hoist n).run t).1 = (none, scope, hoist) := by
  simp only [enter, h]
  rfl

theorem enter_ident {parent : Option Kind} {scope hoist : Nat} {n : Node} {y : String}
    (h : n.kind = .ident y) (t : Scopes) : ((enter parent scope hoist n).run t).1.1 = none := by
  simp only [enter, h]
  rfl

end ScopeWalk

/-! ### Running the walk -/

/-- Whether no node of a subtree carries a scope mark, as in a module just read. -/
def Node.unmarked (n : Node) : Bool :=
  n.scope.isNone && n.kind.children.all fun c => unmarked c.node
termination_by sizeOf n
decreasing_by have := c.lt; have := Node.sizeOf_kind_lt n; omega

theorem Node.unmarked_iff {n : Node} :
    n.unmarked = true ↔ n.scope = none ∧ ∀ c ∈ n.kind.children.map Child.node, c.unmarked = true := by
  rw [Node.unmarked]
  simp

/-- Rebuilding a construct in a state monad runs the visits of its children in order and puts
their answers back in place. -/
theorem Kind.run_mapChildrenM {σ : Type} (k : Kind)
    (f : (c : Node) → Role → sizeOf c < sizeOf k → StateM σ Node) (s : σ) :
    ((k.mapChildrenM f).run s).1 =
        k.setChildren ((k.children.mapM fun c => f c.node c.role c.lt).run s).1 ∧
      ((k.mapChildrenM f).run s).1.children.map Child.node =
        ((k.children.mapM fun c => f c.node c.role c.lt).run s).1 ∧
      ((k.mapChildrenM f).run s).2 = ((k.children.mapM fun c => f c.node c.role c.lt).run s).2 := by
  refine ⟨by rw [Kind.mapChildrenM_eq]; rfl, ?_, by rw [Kind.mapChildrenM_eq]; rfl⟩
  exact congrArg (fun x => (x.run s).1) (Kind.children_mapChildrenM k f)

/-- A `mapM` in a state monad whose steps keep `I`, move the state along the preorder `G`,
and answer a result of which `Q` holds at the state they leave, `Q` being kept along `G`. -/
theorem StateT.run_mapM_along {σ α β : Type} {l : List α} {f : α → StateM σ β}
    (I : σ → Prop) (G : σ → σ → Prop) (Q : σ → β → Prop) (hrefl : ∀ s, G s s)
    (htrans : ∀ {a b c}, G a b → G b c → G a c) (hQ : ∀ {s s' b}, G s s' → Q s b → Q s' b)
    (hf : ∀ a ∈ l, ∀ s, I s → I ((f a).run s).2 ∧ G s ((f a).run s).2 ∧
      Q ((f a).run s).2 ((f a).run s).1)
    {s : σ} (hs : I s) :
    I ((l.mapM f).run s).2 ∧ G s ((l.mapM f).run s).2 ∧
      ∀ b ∈ ((l.mapM f).run s).1, Q ((l.mapM f).run s).2 b := by
  induction l generalizing s with
  | nil => exact ⟨hs, hrefl s, fun _ hb => by cases hb⟩
  | cons a l ih =>
    have e : ((a :: l).mapM f).run s = (((f a).run s).1 :: ((l.mapM f).run ((f a).run s).2).1,
        ((l.mapM f).run ((f a).run s).2).2) := by
      rw [List.mapM_cons]
      rfl
    obtain ⟨hI₁, hG₁, hQ₁⟩ := hf a List.mem_cons_self s hs
    obtain ⟨hI₂, hG₂, hQ₂⟩ := ih (fun a' ha' => hf a' (List.mem_cons_of_mem a ha')) hI₁
    rw [e]
    refine ⟨hI₂, htrans hG₁ hG₂, ?_⟩
    rintro b (_ | ⟨_, hb⟩)
    · exact hQ hG₂ hQ₁
    · exact hQ₂ b hb


namespace ScopeWalk

open Scopes

/-- A subtree standing in `σ` that is well scoped for every table grown from `t`: what the
walk leaves, judged by the table it ends with. -/
def Fits (t : Scopes) (σ : Nat) (n : Node) : Prop := ∀ T, Grows t T → WellScoped T σ n

theorem Fits.grow {t t' : Scopes} {σ : Nat} {n : Node} (h : Grows t t') (hf : Fits t σ n) :
    Fits t' σ n :=
  fun T hT => hf T (h.trans hT)

/-- After `enter`, from a sound table in which `scope` and `hoist` are open: the table is
sound and has grown, the scopes the children get are open, and the node carries no mark and
its children stand in `scope`, or it carries a scope opened under `scope`, which its
children stand in. -/
theorem enter_spec {parent : Option Kind} {scope hoist : Nat} {n : Node} {t : Scopes}
    (ht : t.Sound) (hs : scope < t.table.size) (hh : hoist < t.table.size) :
    ((enter parent scope hoist n).run t).2.Sound ∧ Grows t ((enter parent scope hoist n).run t).2 ∧
      ((enter parent scope hoist n).run t).1.2.1 < ((enter parent scope hoist n).run t).2.table.size ∧
      ((enter parent scope hoist n).run t).1.2.2 < ((enter parent scope hoist n).run t).2.table.size ∧
      ((((enter parent scope hoist n).run t).1.1 = none ∧
          ((enter parent scope hoist n).run t).1.2.1 = scope) ∨
        ∃ s, ((enter parent scope hoist n).run t).1.1 = some s ∧
          ((enter parent scope hoist n).run t).1.2.1 = s ∧
          (((enter parent scope hoist n).run t).2.get s).parent = some scope) := by
  rcases enter_cases parent scope hoist n t with ⟨hd, he⟩ | ⟨k, t₁, hd₁, hd₂, hm, hsc, hho⟩
  · rw [he]
    exact ⟨hd.sound ht, hd.grows, hd.size_eq ▸ hs, hd.size_eq ▸ hh, Or.inl ⟨rfl, rfl⟩⟩
  · have hO : (t₁.openScope k (some scope) n.id n.typeName n.span).1.Sound :=
      (hd₁.sound ht).openScope k (fun q hq => by cases hq; exact hd₁.size_eq ▸ hs) _ _ _
    have hsize := hd₂.size_eq
    simp only [size_openScope] at hsize
    refine ⟨hd₂.sound hO, (hd₁.grows.trans (grows_openScope _ _ _ _ _ _)).trans hd₂.grows,
      by omega, ?_, Or.inr ⟨_, hm, hsc, by simp [hd₂.parent_eq]⟩⟩
    rcases hho with hho | hho
    · omega
    · have := hd₁.size_eq
      omega

theorem run_walk (parent : Option Kind) (scope hoist : Nat) (n : Node) (t : Scopes) :
    (walk parent scope hoist n).run t =
      (.mk n.id n.span (((enter parent scope hoist n).run t).1.1.orElse fun _ => n.scope)
        ((n.kind.mapChildrenM fun c _ _ => walk (some n.kind) ((enter parent scope hoist n).run t).1.2.1
          ((enter parent scope hoist n).run t).1.2.2 c).run ((enter parent scope hoist n).run t).2).1,
       ((n.kind.mapChildrenM fun c _ _ => walk (some n.kind) ((enter parent scope hoist n).run t).1.2.1
          ((enter parent scope hoist n).run t).1.2.2 c).run ((enter parent scope hoist n).run t).2).2) := by
  rw [walk]
  rfl

/-- The walk rebuilds a node around the same construct. -/
theorem kind_walk (parent : Option Kind) (scope hoist : Nat) (n : Node) (t : Scopes) :
    ∃ ns, ((walk parent scope hoist n).run t).1.kind = n.kind.setChildren ns := by
  rw [run_walk]
  exact ⟨_, (Kind.run_mapChildrenM _ _ _).1⟩

/-- **The walk keeps the table sound and leaves the subtree well scoped**, from a sound table
in which the scopes it starts with are open. By induction along the walk: `enter` opens the
node's scope under the one it stands in, and the children, walked one after the other from
there, each leave a subtree well scoped for every table that follows. -/
theorem walk_fits (parent : Option Kind) (scope hoist : Nat) (n : Node) :
    ∀ t : Scopes, t.Sound → scope < t.table.size → hoist < t.table.size → n.unmarked = true →
      ((walk parent scope hoist n).run t).2.Sound ∧ Grows t ((walk parent scope hoist n).run t).2 ∧
        Fits ((walk parent scope hoist n).run t).2 scope ((walk parent scope hoist n).run t).1 := by
  induction parent, scope, hoist, n using walk.induct with
  | case1 parent scope hoist n ih =>
  intro t ht hs hh hn
  obtain ⟨hsc, hchildren⟩ := Node.unmarked_iff.1 hn
  have hspec := @enter_spec parent scope hoist n t ht hs hh
  have hid : ∀ y, n.kind = .ident y → ((enter parent scope hoist n).run t).1.1 = none :=
    fun y hy => enter_ident hy t
  rw [run_walk]
  generalize (enter parent scope hoist n).run t = e at hspec hid ⊢
  obtain ⟨⟨mark, scope', hoist'⟩, t₁⟩ := e
  obtain ⟨ht₁, hg₁, hs₁, hh₁, hmark⟩ := hspec
  dsimp only at ht₁ hg₁ hs₁ hh₁ hmark hid ⊢
  obtain ⟨hk, hkc, hkt⟩ := Kind.run_mapChildrenM n.kind
    (fun c _ _ => walk (some n.kind) scope' hoist' c) t₁
  obtain ⟨⟨ht₂, -, -⟩, hg₂, hfits⟩ := StateT.run_mapM_along (l := n.kind.children)
    (f := fun c => walk (some n.kind) scope' hoist' c.node)
    (fun s => s.Sound ∧ scope' < s.table.size ∧ hoist' < s.table.size) Grows (fun s b => Fits s scope' b)
    Grows.refl Grows.trans Fits.grow
    (fun (c : Child n.kind) hc s ⟨hs', hs'', hh''⟩ => by
      obtain ⟨h1, h2, h3⟩ := ih scope' hoist' c.node c.lt s hs' hs'' hh''
        (hchildren c.node (List.mem_map_of_mem hc))
      exact ⟨⟨h1, by have := h2.size_le; omega, by have := h2.size_le; omega⟩, h2, h3⟩)
    (s := t₁) ⟨ht₁, hs₁, hh₁⟩
  rw [← hkt] at ht₂ hg₂ hfits
  rw [← hkc] at hfits
  rw [← hkc] at hk
  generalize (n.kind.mapChildrenM fun c _ _ => walk (some n.kind) scope' hoist' c).run t₁ = r
    at hk hfits ht₂ hg₂ ⊢
  obtain ⟨k, t₂⟩ := r
  dsimp only at hk hfits ht₂ hg₂ ⊢
  have hown : (mark.orElse fun _ => n.scope) = mark := by
    rw [hsc]
    cases mark <;> rfl
  have hctx : mark.getD scope = scope' := by
    rcases hmark with ⟨rfl, rfl⟩ | ⟨s, rfl, rfl, -⟩ <;> rfl
  refine ⟨ht₂, hg₁.trans hg₂, fun T hT => WellScoped.of_children ?_ ?_ ?_⟩
  · intro s hs
    rw [Node.scope_mk, hown] at hs
    rcases hmark with ⟨h, -⟩ | ⟨s', hs', rfl, hp⟩
    · rw [h] at hs
      cases hs
    · rw [hs] at hs'
      cases hs'
      refine Or.inr ?_
      rw [(hg₂.trans hT).parent_eq _ hs₁, hp]
  · intro y hy
    rw [Node.kind_mk] at hy
    rw [Node.scope_mk, hown]
    by_cases hni : ∃ y', n.kind = .ident y'
    · obtain ⟨y', hy'⟩ := hni
      exact hid y' hy'
    · rw [hk] at hy
      exact absurd hy (Kind.setChildren_ne_ident (fun y' h => hni ⟨y', h⟩) _ y)
  · intro c hc
    rw [Node.scope_mk, hown, hctx]
    exact hfits c hc T hT

/-- The analysis of a module as the walk from the program scope it opens first. -/
theorem analyzeScopes_eq (root : Node) :
    analyzeScopes root =
      let r := (walk none 0 0 root).run (Scopes.openScope ⟨#[], []⟩ .program none root.id
        root.typeName root.span).1
      (.mk r.1.id r.1.span (some 0) r.1.kind, r.2) := rfl

/-- The table the analysis walks a module from, holding the program scope alone, is sound. -/
theorem sound_programScope (root : Node) :
    (Scopes.openScope ⟨#[], []⟩ .program none root.id root.typeName root.span).1.Sound := by
  have h0 : Scopes.Sound { table := #[], names := [] } :=
    ⟨fun s y hy => (by simp [Scopes.get] at hy; cases hy),
      fun s q hq => (by simp [Scopes.get] at hq; cases hq)⟩
  exact h0.openScope .program (p := none) (fun q hq => by cases hq) root.id root.typeName root.span

/-- The walk leaves the root of an unmarked program unmarked: the analysis marks it after. -/
theorem scope_walk_program {root : Node} {body : List Node} (hm : root.unmarked = true)
    (hp : root.kind = .program body) (t : Scopes) : ((walk none 0 0 root).run t).1.scope = none := by
  rw [run_walk, enter_program hp, Node.scope_mk, (Node.unmarked_iff.1 hm).1]
  rfl

/-- **The analysis of a module leaves a sound table and a well scoped tree.** The root owns the
program scope; every other node owning a scope owns one whose parent is the scope it stands
in. -/
theorem analyzeScopes_wellScoped {root : Node} {body : List Node} (hm : root.unmarked = true)
    (hp : root.kind = .program body) :
    (analyzeScopes root).2.Sound ∧ WellScoped (analyzeScopes root).2 0 (analyzeScopes root).1 := by
  obtain ⟨ht, -, hf⟩ := walk_fits none 0 0 root _ (sound_programScope root) (by simp) (by simp) hm
  have hk := kind_walk none 0 0 root (Scopes.openScope ⟨#[], []⟩ .program none root.id
        root.typeName root.span).1
  have hs := scope_walk_program hm hp (Scopes.openScope ⟨#[], []⟩ .program none root.id
      root.typeName root.span).1
  rw [analyzeScopes_eq]
  generalize (walk none 0 0 root).run _ = r at ht hf hk hs ⊢
  obtain ⟨root', T⟩ := r
  obtain ⟨ns, hk⟩ := hk
  dsimp only at ht hf hk hs ⊢
  refine ⟨ht, WellScoped.of_children (fun s hs' => Or.inl (Option.some.inj hs').symm) ?_ ?_⟩
  · intro y hy
    rw [Node.kind_mk, hk, hp] at hy
    cases hy
  · intro c hc
    have := (hf T (Grows.refl T)).child hc
    rwa [hs] at this

end ScopeWalk

end SignalSugar
