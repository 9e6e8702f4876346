import SignalSugar.Proofs.Advancing
import SignalSugar.Proofs.Shielding
/-!
# The operations of a rewrite advance the session

Each operation the label expansion is made of advances the session (`Session.Advances`), one
lemma per operation:

* a lookup (`locate`, `refresh`, `scopeAt`, `callArguments`, …) only reads the session;
* a fresh name only takes a name, and the name is spelled as no label;
* a replacement keeps the replaced node's id and reuses some of its children, cutting the
  others off (`Kind.Replaces`); at the call of a label site it reuses the call's arguments,
  which in a tidy session are the arguments of the one node with that id;
* an insertion next to a node, a statement put first and an import add built nodes only, so
  the nodes read from the source stand as they stood (`Node.SameSources`).

A rewrite made of these advances the session by `Rewrite.Along.bind`.

## Main results

* `Rewrite.advances_replace`, `Rewrite.advances_replaceCall`: replacing a node.
* `Rewrite.advances_insertNear`, `Rewrite.advances_prepend`, `Rewrite.advances_hook`: adding
  built nodes.
* `Rewrite.plain_hook`: from a session whose helpers' local names are no labels', an import
  answers such a name.
-/

namespace SignalSugar

/-- The local names of the helpers imported so far are spelled as no label. -/
def Session.Plain (st : Session) : Prop := ∀ e ∈ st.hooks, Label.ofName? e.2 = none

theorem Session.Advances.plain {X : List Nat} {st st' : Session} (h : st.Advances X st')
    (hp : st.Plain) : st'.Plain := fun e he => (h.hooks e he).elim (hp e) id

namespace Rewrite

variable {R : Session → Session → Prop} {α : Type} {X : List Nat} {st st' : Session}

/-! ### Lookups -/

/-- A rewrite that only reads the session keeps every reflexive relation. -/
theorem Along.of_reads [Std.Refl R] {m : Rewrite α} (h : Along Eq m) : Along R m :=
  Along.of_state_eq fun st a st' hr => (h st a st' hr).symm

theorem reads_locate (x : Nat) : Along Eq (locate x) :=
  Along.bind Along.get fun _ => Along.pure _

theorem reads_refresh (n : Node) : Along Eq (refresh n) := by
  unfold refresh
  split
  · exact Along.pure _
  · exact Along.bind (reads_locate _) fun r => by split <;> exact Along.pure _

theorem reads_scopeAt (x : Nat) : Along Eq (scopeAt x) :=
  Along.bind (reads_locate x) fun r => by split <;> exact Along.pure _

theorem reads_targetAt (owner : Nat) (name : String) : Along Eq (targetAt owner name) :=
  Along.bind (reads_scopeAt owner) fun _ => Along.pure _

theorem reads_ownerAt (x : Nat) : Along Eq (ownerAt x) :=
  Along.bind (reads_scopeAt x) fun _ => Along.bind Along.get fun _ => Along.pure _

theorem reads_callArguments (x : Nat) : Along Eq (callArguments x) :=
  Along.bind (reads_locate x) fun r => by
    split
    · split <;> exact Along.pure _
    · exact Along.pure _

theorem reads_siteDeclarator (site : Site) : Along Eq (siteDeclarator site) :=
  Along.bind (reads_locate _) fun r => by split <;> exact Along.pure _

theorem reads_declaratorTarget (d : Node) : Along Eq (declaratorTarget d) := by
  unfold declaratorTarget
  split
  · exact Along.pure _
  · exact Along.fail _

/-- The arguments a call site is found with: those of the node the session finds by its id,
when that is a call, and none otherwise. -/
theorem run_callArguments {x : Nat} {args : List Node}
    (h : (callArguments x).run st = .ok (args, st')) :
    st' = st ∧ (args = [] ∨ ∃ n q c o, st.find x = some (n, q) ∧ n.kind = .call c args o) := by
  refine ⟨reads_callArguments x st args st' h |>.symm, ?_⟩
  simp only [callArguments, locate, run_bind_ok] at h
  obtain ⟨r, s₁, ⟨s₀, s₂, hget, hret⟩, h⟩ := h
  cases hget
  obtain ⟨rfl, rfl⟩ := run_pure_ok.1 hret
  split at h
  · rename_i n q hfind
    split at h
    · rename_i c a o hk
      obtain ⟨rfl, -⟩ := run_pure_ok.1 h
      exact Or.inr ⟨n, q, c, o, hfind, hk⟩
    · exact Or.inl (run_pure_ok.1 h).1.symm
  · exact Or.inl (run_pure_ok.1 h).1.symm

/-! ### Fresh names -/

theorem advances_uidIn (X : List Nat) (s : Nat) (hint : String) :
    Along (Session.Advances X) (uidIn s hint) := by
  intro st a st' h
  rw [run_uidIn] at h
  cases h
  exact ⟨⟨_, Scopes.Issues.single _ s hint⟩, fun e he => Or.inl he, fun ht => ⟨ht, Traced.refl _ _⟩⟩

/-- A fresh name is spelled as no label. -/
theorem plain_uidIn {s : Nat} {hint a : String} (h : (uidIn s hint).run st = .ok (a, st')) :
    Label.ofName? a = none := by
  rw [run_uidIn] at h
  cases h
  exact Label.ofName_generateUid _ _ _

theorem advances_uidAt (X : List Nat) (x : Nat) (hint : String) :
    Along (Session.Advances X) (uidAt x hint) :=
  Along.bind (Along.of_reads (reads_scopeAt x)) fun s => advances_uidIn X s hint

theorem plain_uidAt {x : Nat} {hint a : String} (h : (uidAt x hint).run st = .ok (a, st')) :
    Label.ofName? a = none := by
  obtain ⟨s, s₁, -, h⟩ := run_bind_ok.1 h
  exact plain_uidIn h

end Rewrite

/-! ### Replacing a node -/

/-- What a construct `k` put in place of a node `n` keeps of it: its children are some of the
children of `n`, in any order, and built nodes (and if it keeps any child read from the
source, it is a built arrow exactly when `n` was); it is a label call only if `n` was; and it
is an identifier spelled as a label only where `n` was that identifier. -/
structure Kind.Replaces (k : Kind) (n : Node) : Prop where
  reuses : ∃ kept dropped built : List Node,
    (n.kind.children.map Child.node).Perm (kept ++ dropped) ∧
    (k.children.map Child.node).Perm (kept ++ built) ∧ built.flatMap Node.ids = [] ∧
    (kept.flatMap Node.ids = [] ∨ (n.withKind k).isBuiltArrow = n.isBuiltArrow)
  label : (labelOf (n.withKind k)).isSome = true → (labelOf n).isSome = true
  head : n.KeepsHead (n.withKind k)

/-- A construct built afresh, no call and no identifier, replaces any node. -/
theorem Kind.replaces_of_built {k : Kind} (hk : (k.children.map Child.node).flatMap Node.ids = [])
    (hcall : ∀ c args o, k ≠ .call c args o) (hident : ∀ y, k ≠ .ident y) (n : Node) :
    k.Replaces n where
  reuses := ⟨[], n.kind.children.map Child.node, k.children.map Child.node, by simp, by simp, hk,
    Or.inl rfl⟩
  label hl := by
    rw [labelOf_eq_none_of_ne_call (n := n.withKind k) (by simpa using hcall)] at hl
    cases hl
  head y hy := absurd hy (by simpa using hident y)

/-- **Replacing a node by a construct that reuses some of its children**: the children it no
longer holds are cut off, so every node read from the source stays at most once, and the
children it keeps stand where they stood. -/
theorem Reshaped.keepCut_replaces {X : List Nat} {st st' : Session} {p : Place} {n : Node}
    {k : Kind} (h : (Rewrite.keepCut p n (n.withKind k)).run st = .ok ((), st'))
    (hk : k.Replaces n) : Reshaped X [n] [n.withKind k] st st' := by
  obtain ⟨kept, dropped, built, hn, hkc, hbuilt, harrow⟩ := hk.reuses
  rw [Rewrite.run_keepCut_eq] at h
  cases h
  have hkeep : (kept.filter fun c => c.id != 0 && !(n.withKind k).hasId c.id) = [] := by
    rw [List.filter_eq_nil_iff]
    intro c hc
    have hmem : c ∈ (n.withKind k).kind.children.map Child.node := by
      rw [Node.kind_withKind]
      exact hkc.symm.subset (List.mem_append_left _ hc)
    simp [Node.hasId_of_mem_children hmem (Node.hasId_self c)]
  have hcut : List.Subperm (((n.kind.children.map Child.node).filter fun c =>
      c.id != 0 && !(n.withKind k).hasId c.id).flatMap Node.ids) (dropped.flatMap Node.ids) := by
    have hp := (hn.filter fun c => c.id != 0 && !(n.withKind k).hasId c.id).flatMap_right Node.ids
    rw [List.filter_append, hkeep, List.nil_append] at hp
    exact hp.subperm.trans (List.filter_sublist.flatMap _).subperm
  have hK : ((k.children.map Child.node).flatMap Node.ids).Perm (kept.flatMap Node.ids) := by
    simpa [List.flatMap_append, hbuilt] using hkc.flatMap_right Node.ids
  have hC : ((n.kind.children.map Child.node).flatMap Node.ids).Perm
      (kept.flatMap Node.ids ++ dropped.flatMap Node.ids) := by
    simpa [List.flatMap_append] using hn.flatMap_right Node.ids
  have hD := map_fst_filterMap_cut n.kind.children
    (fun c => c.id != 0 && !(n.withKind k).hasId c.id) (fun c => p.child (n.withKind k) c.role)
  refine ⟨rfl, rfl, ⟨_, rfl, ?_⟩, ⟨[], .nil _⟩, fun a s => ?_⟩
  · simp only [List.flatMap_cons, List.flatMap_nil, List.append_nil]
    rw [Node.ids_withKind, Node.ids_eq n, ← List.flatMap_map Prod.fst, hD, List.append_assoc]
    exact (List.subperm_append_left _).2 (((hK.append (List.Perm.refl _)).subperm.trans
      ((List.subperm_append_left _).2 hcut)).trans hC.symm.subperm)
  · simp only [List.flatMap_cons, List.flatMap_nil, List.append_nil]
    rw [Node.standings_withKind, Node.standings_eq a s n]
    refine ((Reshaped.traced_head hk.label a s).append (Traced.refl X _)).weaken
      (fun _ he => he) ?_
    intro e he
    rcases List.mem_append.1 he with he | he
    · exact List.mem_append_left _ he
    · obtain ⟨c, hc, hec⟩ := List.mem_flatMap.1 he
      have hne : c.ids ≠ [] := fun h0 => by
        rw [Node.standings_eq_nil_iff.2 h0] at hec
        cases hec
      rcases List.mem_append.1 (hkc.subset hc) with hc' | hc'
      · rcases harrow with hnil | harrow
        · exact absurd (List.flatMap_eq_nil_iff.1 hnil c hc') hne
        · rw [harrow] at hec
          exact List.mem_append_right _
            (List.mem_flatMap.2 ⟨c, hn.symm.subset (List.mem_append_left _ hc'), hec⟩)
      · exact absurd (List.flatMap_eq_nil_iff.1 hbuilt c hc') hne

/-- A call of `c` on the arguments of `n`, when `n` is a call, or on none, replaces `n` when `c`
is spelled as no label: the callee is cut off, the arguments stay. -/
theorem Kind.replaces_call {n : Node} {c : String} {args : List Node}
    (hc : Label.ofName? c = none) (h : args = [] ∨ ∃ callee o, n.kind = .call callee args o) :
    (Kind.call (identOf c) args false).Replaces n where
  reuses := by
    rcases h with rfl | ⟨callee, o, hk⟩
    · exact ⟨[], n.kind.children.map Child.node, [identOf c], by simp,
        by simp [Kind.children, Child.ofList], by simp [identOf, Kind.children], Or.inl rfl⟩
    · refine ⟨args, [callee], [identOf c], ?_, ?_, by simp [identOf, Kind.children], ?_⟩
      · rw [hk]
        simpa [Kind.children, Child.ofList] using (List.perm_append_singleton callee args).symm
      · simpa [Kind.children, Child.ofList] using (List.perm_append_singleton (identOf c) args).symm
      · exact Or.inr (by rw [Node.isBuiltArrow_withKind_of_ne (by simp) (by simp [hk])])
  label hl := by simp [labelOf_withKind_call, identOf, hc] at hl
  head y hy := by simp at hy

namespace Rewrite

variable {α : Type} {st st' : Session}

/-- **A replacement advances the session**, from a session in which the construct replaces
every node with the id, if it is tidy. -/
theorem advances_replace {x : Nat} {k : Kind}
    (hk : st.Tidy → ∀ t ∈ st.trees, ∀ σ τ n, Occurs σ t τ n → n.id = x → k.Replaces n)
    (h : (replace x k).run st = .ok ((), st')) : st.Advances [] st' := by
  obtain ⟨b, h⟩ := run_discard_ok.1 h
  refine advances_inTreeOf (X := fun _ => []) (fun q t t' s ht => ?_) (fun hst q t ht t' s hr => ?_) h
  · obtain ⟨⟨hsc, hho⟩, -⟩ := Node.run_updateAt (fun s' => s'.scopes = st.scopes ∧ s'.hooks = st.hooks)
      (fun _ _ _ => True) (fun q' m s₁ r s₂ hs hr => by
        obtain ⟨u, s₃, hcut, hret⟩ := run_bind_ok.1 hr
        obtain ⟨-, rfl⟩ := run_pure_ok.1 hret
        rw [run_keepCut_eq] at hcut
        cases hcut
        exact ⟨hs, trivial⟩) q t ⟨rfl, rfl⟩ ht
    exact ⟨⟨[], hsc ▸ .nil _⟩, hho⟩
  · refine (Node.reshaped_updateAt (X := fun _ => []) (P := k.Replaces) (fun _ _ _ _ hi => hi)
      (fun q' m s₁ m' s₂ hm _ hr => ?_) q t (fun τ m ho hid => hk hst t ht q.scope τ m ho hid) hr).1
    obtain ⟨u, s₃, hcut, hret⟩ := run_bind_ok.1 hr
    obtain ⟨rfl, rfl⟩ := run_pure_ok.1 hret
    exact ⟨Reshaped.keepCut_replaces hcut hm, hm.head⟩

/-- Replacing a node by a construct built afresh, no call and no identifier. -/
theorem advances_replace_built {x : Nat} {k : Kind}
    (hk : (k.children.map Child.node).flatMap Node.ids = [])
    (hcall : ∀ c args o, k ≠ .call c args o) (hident : ∀ y, k ≠ .ident y) :
    Along (Session.Advances []) (replace x k) := fun _ _ _ h =>
  advances_replace (fun _ _ _ _ _ n _ _ => Kind.replaces_of_built hk hcall hident n) h

/-- **Replacing the call of a label site** by a call of `c` on the arguments it has now: in a
tidy session the node with that id is the one the arguments were read from. -/
theorem advances_replaceCall {x : Nat} {c : String} (hx : x ≠ 0) (hc : Label.ofName? c = none) :
    Along (Session.Advances [])
      (callArguments x >>= fun args => replace x (.call (identOf c) args false)) := by
  intro st u st' h
  obtain ⟨args, s₁, ha, hr⟩ := run_bind_ok.1 h
  obtain ⟨rfl, hargs⟩ := run_callArguments ha
  refine advances_replace (fun hst t ht σ τ n ho hid => Kind.replaces_call hc ?_) hr
  rcases hargs with rfl | ⟨n₀, q, callee, o, hfind, hk⟩
  · exact Or.inl rfl
  · obtain ⟨hid₀, t₀, ht₀, σ₀, ho₀⟩ := Session.occurs_of_find hfind
    obtain rfl := hst.eq_of_occurs ht₀ ho₀ ht ho (hid₀.trans hid.symm) (hid₀ ▸ hx)
    exact Or.inr ⟨callee, o, hk⟩

end Rewrite

/-! ### Adding built nodes -/

/-- `n'` holds the nodes read from the source that `n` holds, standing as they stood there, and
is an identifier exactly where `n` is one. -/
structure Node.SameSources (n n' : Node) : Prop where
  ids_eq : n'.ids = n.ids
  standings_eq : ∀ a s, n'.standings a s = n.standings a s
  ident_iff : ∀ y, n'.kind = .ident y ↔ n.kind = .ident y

/-- Inserting a built node into a list leaves what the list holds. -/
theorem flatMap_insertNext {β : Type} {f : Node → List β} {x : Nat} {node : Node} {after : Bool}
    (hf : f node = []) (l : List Node) : (insertNext x node after l).flatMap f = l.flatMap f := by
  induction l with
  | nil => rfl
  | cons c rest ih =>
    unfold insertNext
    split
    · cases after <;> simp [hf]
    · simp [ih]

/-- Inserting a built node next to a child leaves what the construct's children hold. -/
theorem Kind.flatMap_insertSibling {β : Type} {f : Node → List β} {k k' : Kind} {x : Nat}
    {node : Node} {after : Bool} (h : k.insertSibling x node after = some k') (hf : f node = []) :
    (k'.children.map Child.node).flatMap f = (k.children.map Child.node).flatMap f := by
  cases k <;> simp only [Kind.insertSibling, reduceCtorEq] at h <;> split at h <;> cases h <;>
    simp [Kind.children, List.flatMap_append, flatMap_insertNext hf]

/-- Only a list of statements, declarators or members takes a sibling: neither it nor what it
becomes is a call, an arrow or an identifier. -/
theorem Kind.insertSibling_shape {k k' : Kind} {x : Nat} {node : Node} {after : Bool}
    (h : k.insertSibling x node after = some k') :
    (∀ c args o, k ≠ .call c args o ∧ k' ≠ .call c args o) ∧
      (∀ ps b e a, k ≠ .arrow ps b e a ∧ k' ≠ .arrow ps b e a) ∧
      ∀ y, k ≠ .ident y ∧ k' ≠ .ident y := by
  cases k <;> simp only [Kind.insertSibling, reduceCtorEq] at h <;> split at h <;> cases h <;> simp

/-- The children of a construct rebuilt from its own children's answers are those answers. -/
theorem Kind.children_setChildren_id {k : Kind}
    (f : (c : Node) → Role → sizeOf c < sizeOf k → Id Node) :
    (k.setChildren (k.children.map fun c => Id.run (f c.node c.role c.lt))).children.map
      Child.node = k.children.map fun c => Id.run (f c.node c.role c.lt) := by
  have h := congrArg Id.run (Kind.children_mapChildrenM (m := Id) k f)
  rw [Kind.mapChildrenM_eq] at h
  simp only [Id.run_map] at h
  generalize hns : Id.run (k.children.mapM fun c => f c.node c.role c.lt) = ns at h
  rw [List.idRun_mapM] at hns
  subst hns
  simpa [List.idRun_mapM] using h

/-- Lists related elementwise by a relation under which two functions agree have the same
`flatMap`. -/
theorem List.flatMap_eq_of_forall₂ {α β : Type} {R : α → α → Prop} {f : α → List β}
    {l l' : List α} (h : List.Forall₂ R l l') (hf : ∀ a b, R a b → f b = f a) :
    l'.flatMap f = l.flatMap f := by
  induction h with
  | nil => rfl
  | cons hab _ ih => simp [hf _ _ hab, ih]

namespace Node.SameSources

theorem refl (n : Node) : n.SameSources n := ⟨rfl, fun _ _ => rfl, fun _ => Iff.rfl⟩

/-- A node whose children hold what they held, and which is a label call, a built arrow and an
identifier exactly where it was. -/
theorem of_children {n : Node} {k : Kind}
    (hids : (k.children.map Child.node).flatMap ids = (n.kind.children.map Child.node).flatMap ids)
    (hst : ∀ a s, (k.children.map Child.node).flatMap (standings a s) =
      (n.kind.children.map Child.node).flatMap (standings a s))
    (hlabel : (labelOf (n.withKind k)).isSome = (labelOf n).isSome)
    (harrow : (n.withKind k).isBuiltArrow = n.isBuiltArrow)
    (hident : ∀ y, k = .ident y ↔ n.kind = .ident y) : n.SameSources (n.withKind k) where
  ids_eq := by rw [Node.ids_withKind, Node.ids_eq n, hids]
  standings_eq a s := by
    rw [Node.standings_withKind, Node.standings_eq a s n, hst, harrow]
    simp [Node.head, hlabel]
  ident_iff y := by rw [Node.kind_withKind]; exact hident y

/-- **Rebuilding a node around answers for its children that hold the same nodes.** The callee
of a call stays an identifier exactly where it was, so the call's label stays. -/
theorem rebuild {n : Node} {ns : List Node}
    (h : List.Forall₂ SameSources (n.kind.children.map Child.node)
      ((n.kind.setChildren ns).children.map Child.node)) :
    n.SameSources (n.withKind (n.kind.setChildren ns)) := by
  refine of_children (List.flatMap_eq_of_forall₂ h fun _ _ hab => hab.ids_eq)
    (fun a s => List.flatMap_eq_of_forall₂ h fun _ _ hab => hab.standings_eq _ _) ?_
    (isBuiltArrow_setChildren n ns) fun y => ⟨Kind.eq_ident_of_setChildren, fun hy => by rw [hy]; rfl⟩
  by_cases hk : ∃ c args o, n.kind = .call c args o
  · obtain ⟨c, args, o, hk⟩ := hk
    rw [hk] at h ⊢
    simp only [Kind.setChildren, Kind.children, List.map_cons, List.forall₂_cons] at h
    rw [Kind.setChildren, labelOf_withKind_call]
    unfold labelOf
    rw [hk]
    have hc := h.1.ident_iff
    congr 1
    split <;> split <;> simp_all
  · push Not at hk
    rw [labelOf_eq_none_of_ne_call hk, labelOf_eq_none_of_ne_call (n := n.withKind _)
      (fun c args o => by rw [kind_withKind]; exact Kind.setChildren_ne_call hk ns c args o)]

/-- Putting a built node next to a child of a list. -/
theorem insertSibling {n node : Node} {k : Kind} {x : Nat} {after : Bool}
    (h : n.kind.insertSibling x node after = some k) (hnode : node.ids = []) :
    n.SameSources (n.withKind k) := by
  obtain ⟨hcall, harrow, hident⟩ := Kind.insertSibling_shape h
  refine of_children (Kind.flatMap_insertSibling h hnode)
    (fun a s => Kind.flatMap_insertSibling h (standings_eq_nil_iff.2 hnode)) ?_ ?_ ?_
  · rw [labelOf_eq_none_of_ne_call (fun c args o => (hcall c args o).1),
      labelOf_eq_none_of_ne_call (n := n.withKind k) (by simpa using fun c args o => (hcall c args o).2)]
  · rw [isBuiltArrow_eq_false (n := n.withKind k) (by simpa using fun ps b e a => (harrow ps b e a).2),
      isBuiltArrow_eq_false fun ps b e a => (harrow ps b e a).1]
  · exact fun y => ⟨fun hy => absurd hy (hident y).2, fun hy => absurd hy (hident y).1⟩

/-- Putting a built statement first in a list of statements. -/
theorem prepend {n statement : Node} {body : List Node} {k : Kind} (hs : statement.ids = [])
    (hb : (n.kind = .program body ∧ k = .program (statement :: body)) ∨
      (n.kind = .block body ∧ k = .block (statement :: body))) : n.SameSources (n.withKind k) := by
  have hst : ∀ a s, statement.standings a s = [] := fun a s => standings_eq_nil_iff.2 hs
  rcases n with ⟨i, sp, sc, k₀⟩
  simp only [Node.kind] at hb
  rcases hb with ⟨rfl, rfl⟩ | ⟨rfl, rfl⟩ <;>
    refine of_children (by simp [Kind.children, hs]) (fun a s => by simp [Kind.children, hst])
      ?_ ?_ (by simp) <;>
    simp [labelOf, isBuiltArrow]

end Node.SameSources

theorem Node.sameSources_updateParentOf {x : Nat} {g : Place → Node → Id Node}
    (hg : ∀ (q : Place) (n : Node), (n.kind.children.any fun c => c.node.id == x) = true →
      n.SameSources (Id.run (g q n)))
    (p : Place) (t : Node) : t.SameSources (Id.run (t.updateParentOf x g p)) := by
  induction p, t using Node.updateParentOf.induct x with
  | case1 p n h =>
    rw [Node.updateParentOf, if_pos h]
    exact hg p n h
  | case2 p n h hno =>
    rw [Node.updateParentOf, if_neg h, if_pos hno]
    exact .refl n
  | case3 p n h hno ih =>
    rw [Node.updateParentOf, if_neg h, if_neg hno, Kind.mapChildrenM_eq]
    simp only [Id.run_bind, Id.run_map, List.idRun_mapM, Id.run_pure]
    refine .rebuild ?_
    rw [Kind.children_setChildren_id (fun c r _ => Node.updateParentOf x g (p.child n r) c),
      List.forall₂_map_left_iff, List.forall₂_map_right_iff]
    exact List.forall₂_same.2 fun c _ => ih c.node c.role c.lt

/-- **Inserting a built node next to a node** keeps the nodes read from the source where they
stood. -/
theorem Node.sameSources_insertNear {x : Nat} {node : Node} {after : Bool} {p : Place} {t t' : Node}
    (hnode : node.ids = []) (h : Node.insertNear x node after p t = .ok t') : t.SameSources t' := by
  unfold Node.insertNear at h
  split at h
  · cases h
  · split at h
    · cases h
    · cases h
    · split at h
      · cases h
      · cases h
        refine Node.sameSources_updateParentOf (fun q n _ => ?_) p t
        simp only [Id.run_pure]
        split
        · rename_i k hk
          exact .insertSibling hk hnode
        · exact .refl n

/-- A tree holding the same nodes read from the source, standing as they stood, in a session
nothing else changed in. -/
theorem Reshaped.of_sameSources {X : List Nat} {n n' : Node} {st : Session}
    (h : n.SameSources n') : Reshaped X [n] [n'] st st where
  root_eq := rfl
  hooks_eq := rfl
  cut := ⟨[], by simp, by simpa [h.ids_eq] using List.Subperm.refl _⟩
  issues := ⟨[], .nil _⟩
  traced a s := by simpa [h.standings_eq a s] using Traced.refl X _

/-- A new program holding the same nodes read from the source, standing as they stood. -/
theorem Session.Advances.of_sameRoot {X : List Nat} {st : Session} {root : Node}
    (h : st.root.SameSources root) : st.Advances X { st with root := root } where
  issues := ⟨[], .nil _⟩
  hooks _ he := Or.inl he
  tidy ht := ⟨by simpa [Session.Tidy, Session.ids, h.ids_eq] using ht,
    by simpa [h.standings_eq] using Traced.refl X _⟩

namespace Rewrite

variable {α : Type} {st st' : Session}

/-- A check succeeds exactly with what it checked, changing nothing. -/
theorem run_check_ok {r : Except RewriteError α} {a : α} :
    (check r).run st = .ok (a, st') ↔ r = .ok a ∧ st' = st := by
  cases r with
  | error e => simp [check]
  | ok b =>
    simp only [check, run_pure_ok, Except.ok.injEq]
    exact and_congr_right fun _ => eq_comm

/-- **Inserting a built node next to a node advances the session**: nothing read from the
source moves. -/
theorem advances_insertNear (X : List Nat) {x : Nat} {node : Node} {after : Bool}
    (hnode : node.ids = []) : Along (Session.Advances X) (insertNear x node after) := by
  refine Along.bind (fun st b st' h => advances_inTreeOf (X := fun _ => X)
    (fun q t t' s hr => ?_) (fun _ q t _ t' s hr => ?_) h) fun found => ?_
  · obtain ⟨-, rfl⟩ := run_check_ok.1 hr
    exact ⟨⟨[], .nil _⟩, rfl⟩
  · obtain ⟨hins, rfl⟩ := run_check_ok.1 hr
    exact Reshaped.of_sameSources (Node.sameSources_insertNear hnode hins)
  · cases found
    · exact Along.fail _
    · exact Along.pure _

/-- **Putting a built statement first advances the session.** -/
theorem advances_prepend (X : List Nat) {statement : Node} (hs : statement.ids = []) :
    Along (Session.Advances X) (prepend statement) := by
  intro st u st' h
  simp only [prepend, run_bind_ok] at h
  obtain ⟨s₀, s₁, hget, h⟩ := h
  cases hget
  split at h
  · rename_i body hb
    cases h
    exact Session.Advances.of_sameRoot (Node.SameSources.prepend hs (Or.inl ⟨hb, rfl⟩))
  · rename_i body hb
    cases h
    exact Session.Advances.of_sameRoot (Node.SameSources.prepend hs (Or.inr ⟨hb, rfl⟩))
  · exact absurd h (run_fail_ne_ok _ _)

/-- **Importing a helper advances the session**: the import is a built statement, and the
local name it records is a fresh one. -/
theorem advances_hook (X : List Nat) (name : String) : Along (Session.Advances X) (hook name) := by
  unfold hook
  refine Along.bind Along.get fun s => ?_
  split
  · exact Along.pure _
  · refine Along.bind_of (fun l => Label.ofName? l = none) (fun _ _ _ h => plain_uidIn h)
      (advances_uidIn X 0 name) fun l hl => ?_
    refine Along.bind Along.get fun s' => Along.bind (advances_prepend X (by simp [Kind.children]))
      fun _ => Along.bind ?_ fun _ => Along.pure _
    intro st u st' h
    cases h
    refine ⟨⟨[], .nil _⟩, fun e he => ?_, fun ht => ⟨ht, Traced.refl _ _⟩⟩
    rcases List.mem_cons.1 he with rfl | he
    · exact Or.inr hl
    · exact Or.inl he

/-- From a session whose helpers' local names are spelled as no label, an import answers such a
name: one recorded before, or a fresh one. -/
theorem plain_hook {name l : String} (h : (hook name).run st = .ok (l, st')) (hp : st.Plain) :
    Label.ofName? l = none := by
  simp only [hook, run_bind_ok] at h
  obtain ⟨s₀, s₁, hget, h⟩ := h
  cases hget
  split at h
  · rename_i l' hl
    obtain ⟨rfl, -⟩ := run_pure_ok.1 h
    obtain ⟨l₁, l₂, hs, -⟩ := List.lookup_eq_some_iff.1 hl
    exact hp _ (hs ▸ List.mem_append_right _ List.mem_cons_self)
  · simp only [run_bind_ok] at h
    obtain ⟨l', s₂, hu, s₃, s₄, hget, u, s₅, -, v, s₆, -, hret⟩ := h
    obtain ⟨rfl, -⟩ := run_pure_ok.1 hret
    exact plain_uidIn hu

end Rewrite

/-! ### The passes for a binding -/

section Passes

variable {t : Target} {sub : Substitution} {acc : Accessors}

/-- **Rewriting the references to a binding reshapes the subtree**, when the substitute's name
is no label's: references become a built call of the accessor or the other name, and nothing
moves under an arrow. -/
theorem normalizeWalk_reshaped (hsub : Label.ofName? sub.name = none) (p : Place) (n : Node) :
    ∀ {st n' st'}, (normalizeWalk t sub p n).run st = .ok (n', st') →
      Reshaped [] [n] [n'] st st' ∧ n.KeepsHead n' := by
  induction p, n using normalizeWalk.induct with
  | _ p n ih =>
  intro st n' st' h
  rcases run_normalizeWalk h with ⟨-, rfl, rfl⟩ | ⟨-, -, rfl, rfl⟩ | ⟨-, -, k, hk, rfl⟩
  · exact ⟨Reshaped.refl _ _ _, .refl _⟩
  · refine ⟨Reshaped.drop_children (by cases sub <;> simp [Substitution.construct, Kind.children,
      Child.ofList]) fun hl => ?_, fun y hy hl => ?_⟩
    · cases sub <;> simp_all [Substitution.construct, Substitution.name, labelOf]
    · cases sub <;> simp_all [Substitution.construct, Substitution.name]
  · exact Reshaped.mapChildrenM (fun c _ s b s' hb => ih c.node c.role c.lt hb) hk

/-- A check for references left only reads the session. -/
theorem reads_residualWalk (p : Place) (n : Node) : Rewrite.Along Eq (residualWalk t p n) := by
  induction p, n using residualWalk.induct with
  | _ p n ih =>
  rw [residualWalk]
  refine Rewrite.Along.bind Rewrite.Along.get fun s => ?_
  split
  · exact Rewrite.Along.pure _
  · have hch : Rewrite.Along Eq (Functor.discard (n.kind.mapChildrenM fun c r _ => do
        residualWalk t (p.child n r) c
        pure c)) :=
      Rewrite.Along.discard (Rewrite.Along.mapChildrenM fun c _ =>
        Rewrite.Along.bind (ih c.node c.role c.lt) fun _ => Rewrite.Along.pure _)
    dsimp only
    split
    · exact Rewrite.Along.bind (Rewrite.Along.fail _) fun _ => hch
    · exact hch

end Passes

namespace Rewrite

variable {st st' : Session}

/-- The binding a pass is for has the name it was asked for. -/
theorem name_of_targetAt {owner : Nat} {name : String} {tg : Target}
    (h : (targetAt owner name).run st = .ok (tg, st')) : tg.name = name := by
  obtain ⟨s, s₁, -, h⟩ := run_bind_ok.1 h
  obtain ⟨rfl, -⟩ := run_pure_ok.1 h
  rfl

/-- **Dereferencing a signal advances the session**, moving under new arrows only the nodes of
the right sides of assignments to the signal's name; provided the accessors' names are no
label's. -/
theorem advances_derefAt {owner : Nat} {name read write : String}
    (hread : Label.ofName? read = none) (hwrite : Label.ofName? write = none)
    (h : (derefAt owner name read write).run st = .ok ((), st')) :
    st.Advances (st.root.assignedIds name) st' := by
  obtain ⟨tg, s₁, htg, h⟩ := run_bind_ok.1 h
  obtain rfl := reads_targetAt owner name st tg s₁ htg
  have hname := name_of_targetAt htg
  obtain ⟨b, h⟩ := run_discard_ok.1 h
  have hR : ∀ q t t' s s', (t.updateAt owner (fun p n => derefWalk tg ⟨read, write⟩ p false n >>=
      fun w => pure (w.node n)) q).run s = .ok (t', s') → Reshaped (t.assignedIds name) [t] [t'] s s' :=
    fun q t t' s s' hr => (Node.reshaped_updateAt (X := fun n => n.assignedIds name)
      (P := fun _ => True) (fun _ _ hc i hi => Node.assignedIds_child hc i hi)
      (fun q' m s₂ m' s₃ _ _ hm => by
        obtain ⟨w, s₄, hw, hret⟩ := run_bind_ok.1 hm
        obtain ⟨rfl, rfl⟩ := run_pure_ok.1 hret
        refine ⟨hname ▸ (derefWalk_reshaped hread hwrite q' false m hw).sublist
          (Walked.node_sublist_members w m), fun y hy hl => ?_⟩
        rcases derefWalk_ident hw hy with hy' | rfl
        · exact hy'
        · simp [hwrite] at hl) q t (fun _ _ _ _ => trivial) hr).1
  exact advances_inTreeOf (X := fun t => t.assignedIds name)
    (fun q t t' s hr => ⟨(hR q t t' _ s hr).issues, (hR q t t' _ s hr).hooks_eq⟩)
    (fun _ q t _ t' s hr => hR q t t' _ s hr) h

/-- **Rewriting the reads of a binding advances the session**, moving nothing under new arrows;
provided the substitute's name is no label's. -/
theorem advances_normalizeAt {owner : Nat} {sub : Substitution} {name : String}
    (hsub : Label.ofName? sub.name = none) :
    Along (Session.Advances []) (normalizeAt owner sub name) := by
  refine Along.bind (Along.of_reads (reads_targetAt owner name)) fun tg => ?_
  intro st b st' h
  obtain ⟨b, h⟩ := run_discard_ok.1 h
  have hR : ∀ q t t' s s', (t.updateAt owner (normalizeWalk tg sub) q).run s = .ok (t', s') →
      Reshaped [] [t] [t'] s s' :=
    fun q t t' s s' hr => (Node.reshaped_updateAt (X := fun _ => []) (P := fun _ => True)
      (fun _ _ _ _ hi => hi) (fun q' m s₂ m' s₃ _ _ hm => normalizeWalk_reshaped hsub q' m hm)
      q t (fun _ _ _ _ => trivial) hr).1
  exact advances_inTreeOf (X := fun _ => [])
    (fun q t t' s hr => ⟨(hR q t t' _ s hr).issues, (hR q t t' _ s hr).hooks_eq⟩)
    (fun _ q t _ t' s hr => hR q t t' _ s hr) h

/-- **Checking for references left advances the session**: it changes nothing. -/
theorem advances_verifyAt (X : List Nat) (owner : Nat) (name : String) :
    Along (Session.Advances X) (verifyAt owner name) := by
  refine Along.bind (Along.of_reads (reads_targetAt owner name)) fun tg => ?_
  intro st b st' h
  obtain ⟨b, h⟩ := run_discard_ok.1 h
  have hR : ∀ q t t' s s', (t.updateAt owner (fun p n => residualWalk tg p n >>= fun _ => pure n)
      q).run s = .ok (t', s') → Reshaped [] [t] [t'] s s' :=
    fun q t t' s s' hr => (Node.reshaped_updateAt (X := fun _ => []) (P := fun _ => True)
      (fun _ _ _ _ hi => hi) (fun q' m s₂ m' s₃ _ _ hm => by
        obtain ⟨u, s₄, hu, hret⟩ := run_bind_ok.1 hm
        obtain ⟨rfl, rfl⟩ := run_pure_ok.1 hret
        obtain rfl := reads_residualWalk q' m s₂ u s₄ hu
        exact ⟨Reshaped.refl _ _ _, .refl m⟩) q t (fun _ _ _ _ => trivial) hr).1
  exact (advances_inTreeOf (X := fun _ => [])
    (fun q t t' s hr => ⟨(hR q t t' _ s hr).issues, (hR q t t' _ s hr).hooks_eq⟩)
    (fun _ q t _ t' s hr => hR q t t' _ s hr) h).mono fun _ hi => by cases hi

end Rewrite

end SignalSugar
