import SignalSugar.Proofs.DerefShapes
import SignalSugar.Proofs.Locate
/-!
# How a rewrite advances the session

A session is **tidy** (`Session.Tidy`) when no node read from the source stands twice in it, in
the program or in the subtrees cut off it. In a tidy session a node read from the source is one
subtree wherever it is found (`Session.Tidy.eq_of_occurs`): that is what lets an operation look a
node up by id, then rewrite it by id and reuse what it found.

`Session.Advances X st st'` says what a rewrite did to the session as a whole: the scope table
changed by fresh names only, each helper it imported has a local name spelled as no label, and
from a tidy session it left a tidy one in whose program every node read from the source follows
a node of the program before (`Traced`), moving under a new arrow only if its id is in `X`.

A rewrite is a chain of steps, so the relation is stated for every run of a rewrite
(`Rewrite.Along`) and built up through binds and folds. The steps that change a tree are walks at
the node an operation names: `Node.updateAt` rebuilds the path down to it, `Rewrite.inTreeOf`
puts the new tree in place of the old, and both keep what the walk at the node keeps.

## Main results

* `Session.Tidy.eq_of_occurs`: in a tidy session two subtrees with the same source id are one.
* `Node.reshaped_updateAt`: rewriting the nodes with an id reshapes the tree, when the step
  reshapes each of them.
* `Rewrite.advances_inTreeOf`: rewriting the tree that holds a node advances the session, when
  every rewrite of a tree of a tidy session reshapes it.
-/

namespace SignalSugar

/-- A sub-permutation of a list without repeats has none. -/
theorem List.Subperm.nodup_of {α : Type} {l₁ l₂ : List α} (h : l₁.Subperm l₂) (hd : l₂.Nodup) :
    l₁.Nodup := by
  obtain ⟨l, hp, hs⟩ := h
  exact hp.nodup_iff.1 (hd.sublist hs)

/-! ### A node read from the source stands once -/

namespace Node

/-- The source ids of a child are among those of its parent. -/
theorem ids_sublist_of_mem_children {n c : Node} (hc : c ∈ n.kind.children.map Child.node) :
    c.ids.Sublist n.ids := by
  rw [ids_eq n]
  exact (List.sublist_flatMap_of_mem hc).trans (List.sublist_append_right _ _)

/-- The source id of a subtree is one of the source ids of every tree it stands in. -/
theorem id_mem_ids_of_occurs {σ τ : Nat} {t n : Node} (h : Occurs σ t τ n) (h0 : n.id ≠ 0) :
    n.id ∈ t.ids := by
  induction h with
  | here =>
    rw [ids_eq]
    simp [h0]
  | child _ hc _ ih => exact (ids_sublist_of_mem_children hc).subset (ih h0)

/-- In a tree whose source ids are distinct, its own id stands in none of its children. -/
theorem id_not_mem_child {t c : Node} (hd : t.ids.Nodup) (h0 : t.id ≠ 0)
    (hc : c ∈ t.kind.children.map Child.node) : t.id ∉ c.ids := by
  rw [ids_eq t, if_neg h0, List.singleton_append, List.nodup_cons] at hd
  exact fun hin => hd.1 ((List.sublist_flatMap_of_mem hc).subset hin)

/-- Distinct trees among trees whose source ids are distinct share no source id. -/
theorem disjoint_ids_of_nodup {ts : List Node} (hd : (ts.flatMap ids).Nodup) {t₁ t₂ : Node}
    (h₁ : t₁ ∈ ts) (h₂ : t₂ ∈ ts) (hne : t₁ ≠ t₂) : t₁.ids.Disjoint t₂.ids := by
  have : Std.Symm (Function.onFun List.Disjoint ids) := ⟨fun _ _ h => h.symm⟩
  exact (List.nodup_flatMap.1 hd).2.forall h₁ h₂ hne

/-- **A node read from the source stands once**: among trees whose source ids are distinct, two
subtrees with the same source id are the same subtree. By induction on where the first stands;
where the two part ways, the id would stand in two trees that share none. -/
theorem eq_of_occurs_of_nodup {ts : List Node} (hd : (ts.flatMap ids).Nodup) {σ₁ τ₁ : Nat}
    {t₁ n₁ : Node} (h₁ : t₁ ∈ ts) (o₁ : Occurs σ₁ t₁ τ₁ n₁) {σ₂ τ₂ : Nat} {t₂ n₂ : Node}
    (h₂ : t₂ ∈ ts) (o₂ : Occurs σ₂ t₂ τ₂ n₂) (hid : n₁.id = n₂.id) (h0 : n₁.id ≠ 0) : n₁ = n₂ := by
  induction o₁ generalizing ts t₂ σ₂ with
  | here σ t =>
    by_cases ht : t = t₂
    · subst ht
      cases o₂ with
      | here => rfl
      | child _ hc o₂ =>
        exact absurd (hid ▸ id_mem_ids_of_occurs o₂ (hid ▸ h0))
          (id_not_mem_child (hd.sublist (List.sublist_flatMap_of_mem h₁)) h0 hc)
    · exact absurd (hid ▸ id_mem_ids_of_occurs o₂ (hid ▸ h0))
        (disjoint_ids_of_nodup hd h₁ h₂ ht (id_mem_ids_of_occurs (.here σ t) h0))
  | @child σ τ t c m _ hc o ih =>
    have hm : m.id ∈ t.ids := id_mem_ids_of_occurs (.child trivial hc o) h0
    by_cases ht : t = t₂
    · subst ht
      have hnd : t.ids.Nodup := hd.sublist (List.sublist_flatMap_of_mem h₁)
      cases o₂ with
      | here => exact absurd (hid ▸ id_mem_ids_of_occurs o h0) (id_not_mem_child hnd (hid ▸ h0) hc)
      | child _ hc₂ o₂ =>
        have hch : ((t.kind.children.map Child.node).flatMap ids).Nodup := by
          rw [ids_eq t] at hnd
          exact (List.nodup_append.1 hnd).2.1
        exact ih hch hc hc₂ o₂ hid h0
    · exact absurd (hid ▸ id_mem_ids_of_occurs o₂ (hid ▸ h0)) (disjoint_ids_of_nodup hd h₁ h₂ ht hm)

/-- What a subtree finds by id has that id. -/
theorem id_of_find {x : Nat} {p : Place} {n : Node} :
    ∀ {m q}, n.find x p = some (m, q) → m.id = x := by
  induction p, n using find.induct x with
  | case1 p n hx =>
    intro m q h
    rw [find, if_pos hx] at h
    cases h
    simpa using hx
  | case2 p n hx ih =>
    intro m q h
    rw [find, if_neg hx] at h
    obtain ⟨c, hc, hcf⟩ := List.exists_of_findSome?_eq_some h
    exact ih c hcf

end Node

/-! ### The trees of a session -/

namespace Session

variable {st : Session}

/-- The trees of a session: the program, then the subtrees cut off it. -/
def trees (st : Session) : List Node := st.root :: st.detached.map Prod.fst

theorem ids_eq_trees (st : Session) : st.ids = st.trees.flatMap Node.ids := by
  simp [Session.ids, trees, List.flatMap_map]

/-- **In a tidy session a node read from the source is one subtree wherever it stands.** -/
theorem Tidy.eq_of_occurs (h : st.Tidy) {σ₁ τ₁ σ₂ τ₂ : Nat} {t₁ t₂ n₁ n₂ : Node}
    (h₁ : t₁ ∈ st.trees) (o₁ : Occurs σ₁ t₁ τ₁ n₁) (h₂ : t₂ ∈ st.trees) (o₂ : Occurs σ₂ t₂ τ₂ n₂)
    (hid : n₁.id = n₂.id) (h0 : n₁.id ≠ 0) : n₁ = n₂ :=
  Node.eq_of_occurs_of_nodup (st.ids_eq_trees ▸ h) h₁ o₁ h₂ o₂ hid h0

/-- What a session finds by id has that id and stands in one of its trees. -/
theorem occurs_of_find {x : Nat} {n : Node} {q : Place} (h : st.find x = some (n, q)) :
    n.id = x ∧ ∃ t ∈ st.trees, ∃ σ, Occurs σ t q.scope n := by
  unfold find at h
  split at h
  · rename_i r hr
    cases h
    exact ⟨Node.id_of_find hr, st.root, List.mem_cons_self, _, Node.occurs_of_find hr⟩
  · obtain ⟨e, he, hfind⟩ := List.exists_of_findSome?_eq_some h
    exact ⟨Node.id_of_find hfind, e.1, List.mem_cons_of_mem _ (List.mem_map_of_mem he), _,
      Node.occurs_of_find hfind⟩

end Session

/-! ### What a rewrite does to the session -/

/-- What a rewrite did to the session, from `st` to `st'`: the scope table changed by fresh names
only; every helper it imported has a local name spelled as no label; and from a tidy session it
left a tidy one, in whose program every node read from the source follows a node of the program
before, moving under a new arrow only if its id is in `X`. -/
structure Session.Advances (X : List Nat) (st st' : Session) : Prop where
  issues : ∃ log, st.scopes.Issues log st'.scopes
  hooks : ∀ e ∈ st'.hooks, e ∈ st.hooks ∨ Label.ofName? e.2 = none
  tidy : st.Tidy → st'.Tidy ∧ Traced X (st.root.standings 0 false) (st'.root.standings 0 false)

/-- A rewrite advanced the session, moving some nodes under new arrows. -/
def Session.Evolves (st st' : Session) : Prop := ∃ X, st.Advances X st'

namespace Session.Advances

variable {X Y : List Nat} {st st₁ st₂ : Session}

theorem refl (X : List Nat) (st : Session) : st.Advances X st where
  issues := ⟨[], .nil _⟩
  hooks _ he := Or.inl he
  tidy h := ⟨h, Traced.refl _ _⟩

theorem trans (h : st.Advances X st₁) (h' : st₁.Advances Y st₂) : st.Advances (X ++ Y) st₂ where
  issues := by
    obtain ⟨log, hl⟩ := h.issues
    obtain ⟨log', hl'⟩ := h'.issues
    exact ⟨log ++ log', hl.append hl'⟩
  hooks e he := (h'.hooks e he).elim (h.hooks e) Or.inr
  tidy ht := by
    obtain ⟨ht₁, htr⟩ := h.tidy ht
    obtain ⟨ht₂, htr'⟩ := h'.tidy ht₁
    exact ⟨ht₂, htr.trans htr'⟩

theorem mono (hXY : ∀ i ∈ X, i ∈ Y) (h : st.Advances X st₁) : st.Advances Y st₁ :=
  ⟨h.issues, h.hooks, fun ht => ⟨(h.tidy ht).1, (h.tidy ht).2.mono hXY⟩⟩

theorem evolves (h : st.Advances X st₁) : st.Evolves st₁ := ⟨X, h⟩

instance : Std.Refl (Session.Advances X) := ⟨refl X⟩

instance : IsTrans Session (Session.Advances X) :=
  ⟨fun _ _ _ h h' => (h.trans h').mono fun _ hi => (List.mem_append.1 hi).elim id id⟩

end Session.Advances

namespace Session.Evolves

instance : Std.Refl Session.Evolves := ⟨fun st => ⟨[], Advances.refl [] st⟩⟩

instance : IsTrans Session Session.Evolves :=
  ⟨fun _ _ _ ⟨X, h⟩ ⟨Y, h'⟩ => ⟨X ++ Y, h.trans h'⟩⟩

end Session.Evolves

/-! ### Every run of a rewrite -/

namespace Rewrite

/-- Every successful run of `m` relates the session it starts from to the one it leaves by `R`. -/
def Along (R : Session → Session → Prop) {α : Type} (m : Rewrite α) : Prop :=
  ∀ st a st', m.run st = .ok (a, st') → R st st'

namespace Along

variable {R : Session → Session → Prop} {α β : Type}

theorem pure [Std.Refl R] (a : α) : Along R (pure a : Rewrite α) := by
  intro st b st' h
  obtain ⟨-, rfl⟩ := run_pure_ok.1 h
  exact refl_of R st

/-- A run of `m` related by `R`, then of `f` by `S`, is related by a `T` the two compose into;
`f` may use what `m` answered. -/
theorem bind_comp_of {S T : Session → Session → Prop} {m : Rewrite α} {f : α → Rewrite β}
    (hc : ∀ s₁ s₂ s₃, R s₁ s₂ → S s₂ s₃ → T s₁ s₃) (Q : α → Prop)
    (hQ : ∀ st a st', m.run st = .ok (a, st') → Q a) (hm : Along R m)
    (hf : ∀ a, Q a → Along S (f a)) : Along T (m >>= f) := by
  intro st b st'' h
  obtain ⟨a, st', h₁, h₂⟩ := run_bind_ok.1 h
  exact hc st st' st'' (hm st a st' h₁) (hf a (hQ st a st' h₁) st' b st'' h₂)

theorem bind_comp {S T : Session → Session → Prop} {m : Rewrite α} {f : α → Rewrite β}
    (hc : ∀ s₁ s₂ s₃, R s₁ s₂ → S s₂ s₃ → T s₁ s₃) (hm : Along R m) (hf : ∀ a, Along S (f a)) :
    Along T (m >>= f) :=
  bind_comp_of hc (fun _ => True) (fun _ _ _ _ => trivial) hm fun a _ => hf a

theorem bind [IsTrans Session R] {m : Rewrite α} {f : α → Rewrite β} (hm : Along R m)
    (hf : ∀ a, Along R (f a)) : Along R (m >>= f) :=
  bind_comp (S := R) (fun _ _ _ => trans_of R) hm hf

/-- A bind whose second part keeps the relation for the answers the first part can give. -/
theorem bind_of [IsTrans Session R] {m : Rewrite α} {f : α → Rewrite β} (Q : α → Prop)
    (hQ : ∀ st a st', m.run st = .ok (a, st') → Q a) (hm : Along R m)
    (hf : ∀ a, Q a → Along R (f a)) : Along R (m >>= f) :=
  bind_comp_of (S := R) (fun _ _ _ => trans_of R) Q hQ hm hf

/-- A rewrite that leaves the session as it found it. -/
theorem of_state_eq [Std.Refl R] {m : Rewrite α}
    (h : ∀ st a st', m.run st = .ok (a, st') → st' = st) : Along R m := by
  intro st a st' hr
  rw [h st a st' hr]
  exact refl_of R st

theorem fail (e : RewriteError) : Along R (fail e : Rewrite α) :=
  fun _ _ _ h => absurd h (run_fail_ne_ok e _)

theorem fail_bind (e : RewriteError) (f : α → Rewrite β) : Along R (Rewrite.fail e >>= f) := by
  intro st b st' h
  obtain ⟨_, _, h₁, -⟩ := run_bind_ok.1 h
  exact absurd h₁ (run_fail_ne_ok e _)

theorem check [Std.Refl R] (r : Except RewriteError α) : Along R (check r) := by
  cases r with
  | error e => exact fail e
  | ok a => exact pure a

theorem get [Std.Refl R] : Along R (get : Rewrite Session) :=
  of_state_eq fun _ _ _ h => by cases h; rfl

/-- A fold whose every step keeps the relation keeps it. -/
theorem foldlM [Std.Refl R] [IsTrans Session R] {f : β → α → Rewrite β} {l : List α}
    (hf : ∀ b, ∀ a ∈ l, Along R (f b a)) (b : β) : Along R (l.foldlM f b) := by
  induction l generalizing b with
  | nil => exact pure b
  | cons a l ih =>
    rw [List.foldlM_cons]
    exact bind (hf b a List.mem_cons_self)
      (ih fun b a' ha' => hf b a' (List.mem_cons_of_mem a ha'))

/-- A loop whose every body keeps the relation. -/
theorem forIn [Std.Refl R] [IsTrans Session R] {f : α → β → Rewrite (ForInStep β)} {l : List α}
    (hf : ∀ a ∈ l, ∀ b, Along R (f a b)) (b : β) : Along R (forIn l b f) := by
  induction l generalizing b with
  | nil => exact pure b
  | cons a l ih =>
    rw [List.forIn_cons]
    refine bind (hf a List.mem_cons_self b) fun r => ?_
    cases r with
    | done b' => exact pure b'
    | yield b' => exact ih (fun a' ha' => hf a' (List.mem_cons_of_mem a ha')) b'

theorem mono {S : Session → Session → Prop} {m : Rewrite α} (hRS : ∀ st st', R st st' → S st st')
    (h : Along R m) : Along S m :=
  fun st a st' hr => hRS st st' (h st a st' hr)

theorem map {f : α → β} {m : Rewrite α} (h : Along R m) : Along R (f <$> m) := by
  intro st b st' hr
  rw [StateT.run_map] at hr
  cases hm : m.run st with
  | error e =>
    rw [hm] at hr
    cases hr
  | ok r =>
    rw [hm] at hr
    cases hr
    exact h st r.1 r.2 hm

theorem discard {m : Rewrite α} (h : Along R m) : Along R (Functor.discard m) := by
  intro st u st' hr
  obtain ⟨a, ha⟩ := run_discard_ok.1 hr
  exact h st a st' ha

theorem mapM [Std.Refl R] [IsTrans Session R] {f : α → Rewrite β} {l : List α}
    (hf : ∀ a ∈ l, Along R (f a)) : Along R (l.mapM f) := by
  induction l with
  | nil => exact pure []
  | cons a l ih =>
    rw [List.mapM_cons]
    exact bind (hf a List.mem_cons_self) fun b =>
      bind (ih fun a' ha' => hf a' (List.mem_cons_of_mem a ha')) fun bs => pure _

/-- Rebuilding a construct, when each visit of a child keeps the relation. -/
theorem mapChildrenM [Std.Refl R] [IsTrans Session R] {k : Kind}
    {f : (c : Node) → Role → sizeOf c < sizeOf k → Rewrite Node}
    (hf : ∀ c ∈ k.children, Along R (f c.node c.role c.lt)) : Along R (k.mapChildrenM f) := by
  rw [Kind.mapChildrenM_eq]
  exact map (mapM hf)

end Along

/-- Every successful run of `m` relates the session it starts from to the one it leaves by `R`,
and answers a value with the property `Q`. -/
def Yields (R : Session → Session → Prop) {α : Type} (Q : α → Prop) (m : Rewrite α) : Prop :=
  ∀ st a st', m.run st = .ok (a, st') → R st st' ∧ Q a

namespace Yields

variable {R : Session → Session → Prop} {α β : Type} {Q : α → Prop} {Q' : β → Prop}

theorem along {m : Rewrite α} (h : Yields R Q m) : Along R m := fun st a st' hr => (h st a st' hr).1

theorem of_along {m : Rewrite α} (h : Along R m) : Yields R (fun _ => True) m :=
  fun st a st' hr => ⟨h st a st' hr, trivial⟩

theorem pure [Std.Refl R] {a : α} (ha : Q a) : Yields R Q (pure a : Rewrite α) := by
  intro st b st' h
  obtain ⟨rfl, rfl⟩ := run_pure_ok.1 h
  exact ⟨refl_of R st, ha⟩

theorem bind [IsTrans Session R] {m : Rewrite α} {f : α → Rewrite β} (hm : Yields R Q m)
    (hf : ∀ a, Q a → Yields R Q' (f a)) : Yields R Q' (m >>= f) := by
  intro st b st'' h
  obtain ⟨a, st', h₁, h₂⟩ := run_bind_ok.1 h
  obtain ⟨hR, hQ⟩ := hm st a st' h₁
  obtain ⟨hR', hQ'⟩ := hf a hQ st' b st'' h₂
  exact ⟨trans_of R hR hR', hQ'⟩

/-- A run that answers with `Q`, then a run related by `S` for each such answer, composed. -/
theorem bind_comp {S T : Session → Session → Prop} {m : Rewrite α} {f : α → Rewrite β}
    (hc : ∀ s₁ s₂ s₃, R s₁ s₂ → S s₂ s₃ → T s₁ s₃) (hm : Yields R Q m)
    (hf : ∀ a, Q a → Along S (f a)) : Along T (m >>= f) :=
  Along.bind_comp_of hc Q (fun st a st' h => (hm st a st' h).2) hm.along hf

theorem fail (e : RewriteError) : Yields R Q (fail e : Rewrite α) :=
  fun _ _ _ h => absurd h (run_fail_ne_ok e _)

theorem fail_bind [IsTrans Session R] (e : RewriteError) (f : α → Rewrite β) :
    Yields R Q' (Rewrite.fail e >>= f) :=
  bind (Q := fun _ => False) (fail e) fun _ h => h.elim

/-- A fold whose every step keeps the relation and the property of the accumulator. -/
theorem foldlM [Std.Refl R] [IsTrans Session R] {f : α → β → Rewrite α} {l : List β}
    (hf : ∀ b, Q b → ∀ a ∈ l, Yields R Q (f b a)) {b : α} (hb : Q b) :
    Yields R Q (l.foldlM f b) := by
  induction l generalizing b with
  | nil => exact pure hb
  | cons a l ih =>
    rw [List.foldlM_cons]
    exact bind (hf b hb a List.mem_cons_self)
      fun b' hb' => ih (fun b hb a' ha' => hf b hb a' (List.mem_cons_of_mem a ha')) hb'

end Yields

end Rewrite

/-! ### Rewriting the nodes with an id -/

/-- The answer for a node is an identifier spelled as a label only where the node was that
identifier. -/
def Node.KeepsHead (n n' : Node) : Prop :=
  ∀ y, n'.kind = .ident y → (Label.ofName? y).isSome = true → n.kind = .ident y

theorem Node.KeepsHead.refl (n : Node) : n.KeepsHead n := fun _ h _ => h

/-- A node rebuilt around answers for its children that keep their heads is a label call only
if the node was: the callee is the first child. -/
theorem labelOf_setChildren {n : Node} {ns : List Node}
    (h : List.Forall₂ Node.KeepsHead (n.kind.children.map Child.node)
      ((n.kind.setChildren ns).children.map Child.node)) :
    (labelOf (n.withKind (n.kind.setChildren ns))).isSome = true → (labelOf n).isSome = true := by
  by_cases hk : ∃ c args o, n.kind = .call c args o
  · obtain ⟨c, args, o, hk⟩ := hk
    rw [hk] at h ⊢
    simp only [Kind.setChildren, Kind.children, List.map_cons, List.forall₂_cons] at h
    rw [Kind.setChildren, labelOf_withKind_call]
    intro hl
    split at hl
    · rename_i y hy
      simp [labelOf, hk, h.1 y hy hl, hl]
    · cases hl
  · push Not at hk
    intro hl
    rw [labelOf_eq_none_of_ne_call (n := n.withKind (n.kind.setChildren ns))
      (fun c args o => by rw [Node.kind_withKind]; exact Kind.setChildren_ne_call hk ns c args o)]
      at hl
    cases hl

/-- **Rebuilding a node around walks of its children** reshapes it and keeps its head, when each
walk reshapes its child and keeps the child's head. -/
theorem Reshaped.mapChildrenM {X : List Nat} {n : Node} {k : Kind} {st st' : Session}
    {f : (c : Node) → Role → sizeOf c < sizeOf n.kind → Rewrite Node}
    (hf : ∀ c ∈ n.kind.children, ∀ s b s', (f c.node c.role c.lt).run s = .ok (b, s') →
      Reshaped X [c.node] [b] s s' ∧ c.node.KeepsHead b)
    (h : (n.kind.mapChildrenM f).run st = .ok (k, st')) :
    Reshaped X [n] [n.withKind k] st st' ∧ n.KeepsHead (n.withKind k) := by
  obtain ⟨ns, rfl⟩ := Rewrite.run_mapChildrenM_setChildren h
  have hch := Rewrite.run_mapChildrenM_ok h
  have hR : Reshaped X (n.kind.children.map Child.node)
      ((n.kind.setChildren ns).children.map Child.node) st st' :=
    Reshaped.mapM_node _ (fun c hc s b s' hb => (hf c hc s b s' hb).1) hch
  have hH : List.Forall₂ Node.KeepsHead (n.kind.children.map Child.node)
      ((n.kind.setChildren ns).children.map Child.node) :=
    List.forall₂_map_left_iff.2 (Rewrite.run_mapM_ok (fun _ => True)
      (fun c b => c.node.KeepsHead b)
      (fun c hc s b s' _ hb => ⟨trivial, (hf c hc s b s' hb).2⟩) trivial hch).2
  exact ⟨Reshaped.rebuild hR (labelOf_setChildren hH) (Node.isBuiltArrow_setChildren n _),
    fun y hy _ => Kind.eq_ident_of_setChildren hy⟩

namespace Node

variable {x : Nat} {f : Place → Node → Rewrite Node} {X : Node → List Nat} {P : Node → Prop}

/-- **Rewriting the nodes with an id reshapes the tree**, when the step reshapes each node it is
given (as far as `P` says what it may be given) and keeps its head, and the nodes it may move
under new arrows grow from children to parents. By induction along `updateAt`: the path down to
the node is rebuilt around the answers for the children. -/
theorem reshaped_updateAt
    (hX : ∀ n c, c ∈ n.kind.children.map Child.node → ∀ i ∈ X c, i ∈ X n)
    (hf : ∀ q n st n' st', P n → n.id = x → (f q n).run st = .ok (n', st') →
      Reshaped (X n) [n] [n'] st st' ∧ n.KeepsHead n')
    (p : Place) (t : Node) : (∀ τ n, Occurs p.scope t τ n → n.id = x → P n) →
    ∀ {st t' st'}, (t.updateAt x f p).run st = .ok (t', st') →
      Reshaped (X t) [t] [t'] st st' ∧ t.KeepsHead t' := by
  induction p, t using updateAt.induct x with
  | case1 p n hx =>
    intro hP st t' st' h
    rw [updateAt, if_pos hx] at h
    have hid : n.id = x := by simpa using hx
    exact hf p n st t' st' (hP _ n (.here _ _) hid) hid h
  | case2 p n hx hno =>
    intro _ st t' st' h
    rw [updateAt, if_neg hx, if_pos hno] at h
    obtain ⟨rfl, rfl⟩ := Rewrite.run_pure_ok.1 h
    exact ⟨Reshaped.refl _ _ _, KeepsHead.refl n⟩
  | case3 p n hx hno ih =>
    intro hP st t' st' h
    rw [updateAt, if_neg hx, if_neg hno] at h
    obtain ⟨k, st₁, hk, h⟩ := Rewrite.run_bind_ok.1 h
    obtain ⟨rfl, rfl⟩ := Rewrite.run_pure_ok.1 h
    exact Reshaped.mapChildrenM (fun c hc s b s' hb =>
      let hc' := ih c.node c.role c.lt
        (fun τ m ho hm => hP τ m (.child trivial (List.mem_map_of_mem hc) ho) hm) hb
      ⟨hc'.1.mono (hX n c.node (List.mem_map_of_mem hc)), hc'.2⟩) hk

end Node

/-- Setting one element of a list, then adding `D`: when the new element and `D` together take
no more than the old element, the whole takes no more than the list. -/
theorem List.subperm_set_flatMap {α β : Type} {g : α → List β} {D : List β} {a b : α} :
    ∀ {l : List α} {i : Nat}, l[i]? = some a → (g b ++ D).Subperm (g a) →
      ((l.set i b).flatMap g ++ D).Subperm (l.flatMap g)
  | [], _, hi, _ => by simp at hi
  | c :: l, 0, hi, h => by
    obtain rfl : c = a := by simpa using hi
    simp only [List.set_cons_zero, List.flatMap_cons, List.append_assoc]
    have hp : List.Perm (g b ++ (l.flatMap g ++ D)) ((g b ++ D) ++ l.flatMap g) := by
      rw [List.append_assoc]
      exact List.Perm.append_left _ List.perm_append_comm
    exact hp.subperm.trans (h.append (List.Subperm.refl _))
  | c :: l, i + 1, hi, h => by
    simp only [List.set_cons_succ, List.flatMap_cons, List.append_assoc]
    exact (List.subperm_append_left _).2 (List.subperm_set_flatMap (by simpa using hi) h)

namespace Rewrite

variable {x : Nat} {F : Place → Node → Rewrite Node} {X : Node → List Nat}

/-- **Rewriting the tree that holds a node advances the session**, when every rewrite of a tree
of a tidy session reshapes it, moving under new arrows only nodes that `X` names of the tree,
and any rewrite of a tree takes fresh names only and imports nothing. The program moves under
new arrows only what `X` names of it: a cut-off subtree is rewritten away from the program. -/
theorem advances_inTreeOf {st st' : Session} {b : Bool}
    (hI : ∀ q t t' s, (F q t).run st = .ok (t', s) →
      (∃ log, st.scopes.Issues log s.scopes) ∧ s.hooks = st.hooks)
    (hF : st.Tidy → ∀ q t, t ∈ st.trees → ∀ t' s, (F q t).run st = .ok (t', s) →
      Reshaped (X t) [t] [t'] st s)
    (h : (inTreeOf x F).run st = .ok (b, st')) : st.Advances (X st.root) st' := by
  simp only [inTreeOf, run_bind_ok] at h
  obtain ⟨s₀, s₁, hget, h⟩ := h
  cases hget
  by_cases hx : st.root.hasId x = true
  · rw [if_pos hx] at h
    simp only [run_bind_ok] at h
    obtain ⟨root, st₁, hroot, u, st₂, hmod, hret⟩ := h
    obtain ⟨-, rfl⟩ := run_pure_ok.1 hret
    cases hmod
    obtain ⟨hlog, hhooks⟩ := hI _ _ _ _ hroot
    refine ⟨hlog, fun e he => Or.inl (hhooks ▸ he), fun ht => ?_⟩
    have hR := hF ht _ _ List.mem_cons_self _ _ hroot
    obtain ⟨D, hd, hsub⟩ := hR.cut
    simp only [List.flatMap_cons, List.flatMap_nil, List.append_nil] at hsub
    refine ⟨?_, by simpa using hR.traced 0 false⟩
    have hp : List.Subperm (root.ids ++ st₁.detached.flatMap fun e => e.1.ids) st.ids := by
      rw [hd, List.flatMap_append, Session.ids]
      have hperm : List.Perm (root.ids ++ ((st.detached.flatMap fun e => e.1.ids) ++
          D.flatMap fun e => e.1.ids)) ((root.ids ++ D.flatMap fun e => e.1.ids) ++
          st.detached.flatMap fun e => e.1.ids) := by
        rw [List.append_assoc]
        exact List.Perm.append_left _ List.perm_append_comm
      exact hperm.subperm.trans (hsub.append (List.Subperm.refl _))
    exact List.Subperm.nodup_of hp ht
  · rw [if_neg hx] at h
    split at h
    · obtain ⟨-, rfl⟩ := run_pure_ok.1 h
      exact Session.Advances.refl _ _
    · rename_i i hi
      split at h
      · obtain ⟨-, rfl⟩ := run_pure_ok.1 h
        exact Session.Advances.refl _ _
      · rename_i t q hiq
        simp only [run_bind_ok] at h
        obtain ⟨t', st₁, ht', u, st₂, hmod, hret⟩ := h
        obtain ⟨-, rfl⟩ := run_pure_ok.1 hret
        cases hmod
        obtain ⟨hlog, hhooks⟩ := hI _ _ _ _ ht'
        refine ⟨hlog, fun e he => Or.inl (hhooks ▸ he), fun ht => ?_⟩
        have hmem : t ∈ st.trees :=
          List.mem_cons_of_mem _ (List.mem_map.2 ⟨(t, q), List.mem_of_getElem? hiq, rfl⟩)
        have hR := hF ht _ _ hmem _ _ ht'
        obtain ⟨D, hd, hsub⟩ := hR.cut
        simp only [List.flatMap_cons, List.flatMap_nil, List.append_nil] at hsub
        have hlt : i < st.detached.length := (List.getElem?_eq_some_iff.1 hiq).1
        have hp : List.Subperm (st₁.root.ids ++
            (st₁.detached.set i (t', q)).flatMap fun e => e.1.ids) st.ids := by
          rw [hd, List.set_append_left i _ hlt, List.flatMap_append, hR.root_eq, Session.ids]
          exact (List.subperm_append_left _).2
            (List.subperm_set_flatMap (g := fun e : Node × Place => e.1.ids) (b := (t', q)) hiq hsub)
        exact ⟨List.Subperm.nodup_of hp ht, by simpa [hR.root_eq] using Traced.refl (X st.root) _⟩

end Rewrite

end SignalSugar
