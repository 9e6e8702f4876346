import SignalSugar.Proofs.SourceNodes
import SignalSugar.Proofs.FreshNames
import SignalSugar.Proofs.RewriteRun
/-!
# What a walk does to the nodes read from the source

A walk over a subtree answers a rebuilt subtree and changes the session only by taking fresh
names and by cutting subtrees off the program. `Reshaped X ns ns' st st'` says all of that at
once, for a list of subtrees `ns` answered as `ns'`:

* the program and everything but the scope table and the cut subtrees stay;
* the scope table changed by fresh names only (`Scopes.Issues`);
* the nodes read from the source in the answer and in the subtrees cut off are among those of
  `ns`, each at most once (a sub-permutation of the ids);
* each node left follows a node of `ns` (`Traced`), moving under a new arrow only if its id
  is one of `X`.

The relation composes side by side (`Reshaped.append`) and along a run (`Reshaped.trans`), and
rebuilding a node around the answers for its children keeps it (`Reshaped.rebuild`). A walk
is then shown to keep it by induction along the walk, one branch at a time.

## Main results

* `Reshaped.append`, `Reshaped.trans`, `Reshaped.rebuild`: the relation is built up from the
  children to the node, and from step to step.
* `Rewrite.run_keepCut_eq`: the subtrees a replacement cuts off are the children of the old node
  read from the source that the new one no longer holds.
-/

namespace SignalSugar

/-- Two lists appended crosswise are a permutation of each other. -/
theorem List.perm_append_cross {α : Type} (a b c d : List α) :
    List.Perm ((a ++ b) ++ (c ++ d)) ((a ++ c) ++ (b ++ d)) := by
  simp only [List.append_assoc]
  exact List.Perm.append_left a (List.perm_append_comm_assoc b c d)

/-- The part of a `flatMap` that one element of the list gives. -/
theorem List.sublist_flatMap_of_mem {α β : Type} {f : α → List β} {l : List α} {a : α}
    (h : a ∈ l) : (f a).Sublist (l.flatMap f) := by
  rw [List.flatMap_def]
  exact List.sublist_flatten_of_mem (List.mem_map_of_mem h)

/-- Nodes below a built arrow, traced back to the same nodes elsewhere: the flag is all that
differs, and it is allowed to differ for the nodes whose ids are in `Y`. -/
theorem Traced.unshelter {X Y : List Nat} {r : Node} {a : Nat} {L : List Standing}
    (h : Traced X (r.standings a true) L) (hr : ∀ i ∈ r.ids, i ∈ Y)
    (s : Bool) : Traced Y (r.standings a s) L := by
  intro e' he'
  obtain ⟨e₁, he₁, hf⟩ := h e' he'
  rw [Node.standings_shelter r a true, List.mem_map] at he₁
  obtain ⟨e₀, he₀, rfl⟩ := he₁
  refine ⟨e₀.shelter s, ?_, hf.id_eq, hf.above_eq, hf.label, fun _ => Or.inr ?_⟩
  · rw [Node.standings_shelter r a s]
    exact List.mem_map_of_mem he₀
  · exact hr e₀.id (Node.mem_ids_of_mem_standings he₀)

/-! ### Cutting subtrees off -/

namespace Rewrite

/-- The subtrees a replacement cuts off are the children of the old node, read from the source,
that the new one no longer holds; each keeps its place under the new node. -/
theorem run_keepCut_eq (p : Place) (old new : Node) (st : Session) :
    (keepCut p old new).run st = .ok ((), { st with detached := st.detached ++
      (old.kind.children.filterMap fun c =>
        if c.node.id != 0 && !new.hasId c.node.id then some (c.node, p.child new c.role)
        else none) }) := by
  simp only [keepCut]
  split
  · rename_i h
    rw [List.isEmpty_iff.1 h, List.append_nil]
    rfl
  · rfl

end Rewrite

/-- The nodes of the subtrees cut off, in order, are the children picked by the test. -/
theorem map_fst_filterMap_cut {k : Kind} (l : List (Child k)) (P : Node → Bool) (g : Child k → Place) :
    (l.filterMap fun c => if P c.node then some (c.node, g c) else none).map Prod.fst =
      (l.map Child.node).filter P := by
  induction l with
  | nil => rfl
  | cons c l ih =>
    by_cases hc : P c.node = true
    · simp [hc, ih]
    · simp [hc, ih]

/-! ### Reshaping subtrees -/

/-- What a walk did to the subtrees `ns`, answered as `ns'`, while the session went from `st` to
`st'` (see the module documentation). -/
structure Reshaped (X : List Nat) (ns ns' : List Node) (st st' : Session) : Prop where
  root_eq : st'.root = st.root
  hooks_eq : st'.hooks = st.hooks
  cut : ∃ D : List (Node × Place), st'.detached = st.detached ++ D ∧
    List.Subperm (ns'.flatMap Node.ids ++ D.flatMap (fun e => e.1.ids)) (ns.flatMap Node.ids)
  issues : ∃ log, st.scopes.Issues log st'.scopes
  traced : ∀ a s, Traced X (ns.flatMap (Node.standings a s)) (ns'.flatMap (Node.standings a s))

namespace Reshaped

variable {X Y : List Nat} {l l' l'' l₁ l₁' l₂ l₂' : List Node} {st st₁ st₂ st' : Session}

theorem refl (X : List Nat) (l : List Node) (st : Session) : Reshaped X l l st st where
  root_eq := rfl
  hooks_eq := rfl
  cut := ⟨[], by simp, by simpa using List.Subperm.refl _⟩
  issues := ⟨[], .nil _⟩
  traced _ _ := Traced.refl _ _

theorem mono (hXY : ∀ i ∈ X, i ∈ Y) (h : Reshaped X l l' st st') : Reshaped Y l l' st st' :=
  ⟨h.root_eq, h.hooks_eq, h.cut, h.issues, fun a s => (h.traced a s).mono hXY⟩

/-- Walks of two lists, one after the other, are a walk of the two lists together. -/
theorem append (h₁ : Reshaped X l₁ l₁' st st₁) (h₂ : Reshaped X l₂ l₂' st₁ st₂) :
    Reshaped X (l₁ ++ l₂) (l₁' ++ l₂') st st₂ where
  root_eq := h₂.root_eq.trans h₁.root_eq
  hooks_eq := h₂.hooks_eq.trans h₁.hooks_eq
  cut := by
    obtain ⟨D₁, hd₁, hs₁⟩ := h₁.cut
    obtain ⟨D₂, hd₂, hs₂⟩ := h₂.cut
    refine ⟨D₁ ++ D₂, by rw [hd₂, hd₁, List.append_assoc], ?_⟩
    simp only [List.flatMap_append]
    exact (List.perm_append_cross _ _ _ _).subperm.trans (hs₁.append hs₂)
  issues := by
    obtain ⟨log₁, hi₁⟩ := h₁.issues
    obtain ⟨log₂, hi₂⟩ := h₂.issues
    exact ⟨log₁ ++ log₂, hi₁.append hi₂⟩
  traced a s := by
    simp only [List.flatMap_append]
    exact (h₁.traced a s).append (h₂.traced a s)

/-- A walk of what a walk answered, after it, is a walk of the first subtrees. -/
theorem trans (h : Reshaped X l l' st st₁) (h' : Reshaped Y l' l'' st₁ st₂) :
    Reshaped (X ++ Y) l l'' st st₂ where
  root_eq := h'.root_eq.trans h.root_eq
  hooks_eq := h'.hooks_eq.trans h.hooks_eq
  cut := by
    obtain ⟨D₁, hd₁, hs₁⟩ := h.cut
    obtain ⟨D₂, hd₂, hs₂⟩ := h'.cut
    refine ⟨D₁ ++ D₂, by rw [hd₂, hd₁, List.append_assoc], ?_⟩
    have hp : List.Perm (l''.flatMap Node.ids ++ (D₁ ++ D₂).flatMap (fun e => e.1.ids))
        ((l''.flatMap Node.ids ++ D₂.flatMap (fun e => e.1.ids)) ++
          D₁.flatMap (fun e => e.1.ids)) := by
      simp only [List.flatMap_append, List.append_assoc]
      exact List.Perm.append_left _ List.perm_append_comm
    exact hp.subperm.trans ((hs₂.append (List.Subperm.refl _)).trans hs₁)
  issues := by
    obtain ⟨log₁, hi₁⟩ := h.issues
    obtain ⟨log₂, hi₂⟩ := h'.issues
    exact ⟨log₁ ++ log₂, hi₁.append hi₂⟩
  traced a s := (h.traced a s).trans (h'.traced a s)

/-- The same, when both walks may move the same nodes under new arrows. -/
theorem trans_same (h : Reshaped X l l' st st₁) (h' : Reshaped X l' l'' st₁ st₂) :
    Reshaped X l l'' st st₂ :=
  (h.trans h').mono fun _ hi => (List.mem_append.1 hi).elim id id

/-- Dropping some of the answers keeps the relation. -/
theorem sublist (h : Reshaped X l l' st st') (hs : l''.Sublist l') : Reshaped X l l'' st st' where
  root_eq := h.root_eq
  hooks_eq := h.hooks_eq
  cut := by
    obtain ⟨D, hd, hsub⟩ := h.cut
    exact ⟨D, hd, ((hs.flatMap _).append (List.Sublist.refl _)).subperm.trans hsub⟩
  issues := h.issues
  traced a s := (h.traced a s).weaken (fun _ he => he)
    (fun _ he => (hs.flatMap _).subset he)

/-- A step that only takes fresh names leaves every list of subtrees as it was. -/
theorem of_issues (hroot : st'.root = st.root) (hhooks : st'.hooks = st.hooks)
    (hdet : st'.detached = st.detached)
    (hlog : ∃ log, st.scopes.Issues log st'.scopes) : Reshaped X l l st st' where
  root_eq := hroot
  hooks_eq := hhooks
  cut := ⟨[], by simp [hdet], by simpa using List.Subperm.refl _⟩
  issues := hlog
  traced _ _ := Traced.refl _ _

theorem uidIn {s : Nat} {hint name : String} (h : (Rewrite.uidIn s hint).run st = .ok (name, st')) :
    Reshaped X l l st st' := by
  rw [Rewrite.run_uidIn] at h
  cases h
  exact of_issues rfl rfl rfl ⟨_, Scopes.Issues.single _ s hint⟩

/-- The head of a rebuilt node follows the old one, when the rebuilt node is a label call only
if the old one was. -/
theorem traced_head {n : Node} {k : Kind} (hlabel : (labelOf (n.withKind k)).isSome = true →
    (labelOf n).isSome = true) (a : Nat) (s : Bool) :
    Traced X (n.head a s) ((n.withKind k).head a s) := by
  by_cases h : n.id = 0
  · simp only [Node.head, Node.id_withKind, h, if_true]
    exact Traced.nil_left _ _
  · intro e he
    simp only [Node.head, Node.id_withKind, h, if_false, List.mem_singleton] at he
    subst he
    exact ⟨⟨a, n.id, s, (labelOf n).isSome⟩, by simp [Node.head, h], rfl, rfl, hlabel, Or.inl⟩

/-- **Rebuilding a node around the answers for its children**: when the rebuilt node is a label
call only if the old one was, and a built arrow exactly when it was. -/
theorem rebuild {n : Node} {k : Kind}
    (h : Reshaped X (n.kind.children.map Child.node) (k.children.map Child.node) st st')
    (hlabel : (labelOf (n.withKind k)).isSome = true → (labelOf n).isSome = true)
    (harrow : (n.withKind k).isBuiltArrow = n.isBuiltArrow) :
    Reshaped X [n] [n.withKind k] st st' where
  root_eq := h.root_eq
  hooks_eq := h.hooks_eq
  cut := by
    obtain ⟨D, hd, hs⟩ := h.cut
    refine ⟨D, hd, ?_⟩
    simp only [List.flatMap_cons, List.flatMap_nil, List.append_nil]
    rw [Node.ids_withKind, Node.ids_eq n, List.append_assoc]
    exact (List.subperm_append_left _).2 hs
  issues := h.issues
  traced a s := by
    simp only [List.flatMap_cons, List.flatMap_nil, List.append_nil]
    rw [Node.standings_withKind, Node.standings_eq, harrow]
    exact (traced_head hlabel a s).append (h.traced _ _)

/-- Answering one more subtree that holds no node read from the source keeps the relation. -/
theorem append_fresh {m : Node} (h : Reshaped X l l' st st') (hm : m.ids = []) :
    Reshaped X l (l' ++ [m]) st st' where
  root_eq := h.root_eq
  hooks_eq := h.hooks_eq
  cut := by
    obtain ⟨D, hd, hs⟩ := h.cut
    exact ⟨D, hd, by simpa [hm] using hs⟩
  issues := h.issues
  traced a s := by
    rw [List.flatMap_append, List.flatMap_singleton, Node.standings_eq_nil_iff.2 hm,
      List.append_nil]
    exact h.traced a s

/-- Walks of the elements of a list, one after the other, reshape the list. -/
theorem mapM_node {α : Type} {l : List α} (node : α → Node) {f : α → Rewrite Node}
    {bs : List Node} (hf : ∀ a ∈ l, ∀ s b s', (f a).run s = .ok (b, s') →
      Reshaped X [node a] [b] s s')
    (h : (l.mapM f).run st = .ok (bs, st')) : Reshaped X (l.map node) bs st st' := by
  simpa using Rewrite.run_mapM_joins (Reshaped X) (refl X []) (fun h₁ h₂ => h₁.append h₂) node
    (fun b => [b]) hf h

/-- Walks of the members of a list, each answering the members that take its place, reshape the
list into all of them. -/
theorem mapM_members {l : List Node} {f : Node → Rewrite (List Node)} {bss : List (List Node)}
    (hf : ∀ a ∈ l, ∀ s bs s', (f a).run s = .ok (bs, s') → Reshaped X [a] bs s s')
    (h : (l.mapM f).run st = .ok (bss, st')) : Reshaped X l bss.flatten st st' := by
  simpa using Rewrite.run_mapM_joins (Reshaped X) (refl X []) (fun h₁ h₂ => h₁.append h₂) id id hf h

/-- A node replaced by a construct whose children hold no node read from the source, its own
children dropped. -/
theorem drop_children {n : Node} {k : Kind} (hk : (k.children.map Child.node).flatMap Node.ids = [])
    (hlabel : (labelOf (n.withKind k)).isSome = true → (labelOf n).isSome = true) :
    Reshaped X [n] [n.withKind k] st st where
  root_eq := rfl
  hooks_eq := rfl
  cut := by
    refine ⟨[], by simp, ?_⟩
    simp only [List.flatMap_cons, List.flatMap_nil, List.append_nil]
    rw [Node.ids_withKind, hk, Node.ids_eq n, List.append_nil]
    exact (List.sublist_append_left _ _).subperm
  issues := ⟨[], .nil _⟩
  traced a s := by
    simp only [List.flatMap_cons, List.flatMap_nil, List.append_nil]
    rw [Node.standings_withKind, Node.standings_eq a s n]
    have hnil : (k.children.map Child.node).flatMap
        (Node.standings (n.aboveChildren a) (s || (n.withKind k).isBuiltArrow)) = [] := by
      rw [List.flatMap_eq_nil_iff]
      intro c hc
      exact Node.standings_eq_nil_iff.2 (List.flatMap_eq_nil_iff.1 hk c hc)
    rw [hnil, List.append_nil]
    exact (traced_head hlabel a s).weaken (fun _ he => List.mem_append_left _ he) (fun _ he => he)

/-- A node rebuilt around the answer `r'` for its child `r`, now standing below an arrow the
rewrite built, with nothing else read from the source: allowed when `r`'s nodes may move under
new arrows. -/
theorem moveUnderArrow {n r r' : Node} {k : Kind} (h : Reshaped X [r] [r'] st st')
    (hr : r ∈ n.kind.children.map Child.node)
    (hids : (k.children.map Child.node).flatMap Node.ids = r'.ids)
    (hst : ∀ a s, (k.children.map Child.node).flatMap (Node.standings a s) = r'.standings a true)
    (hlabel : (labelOf (n.withKind k)).isSome = true → (labelOf n).isSome = true)
    (hrY : ∀ i ∈ r.ids, i ∈ Y) :
    Reshaped Y [n] [n.withKind k] st st' where
  root_eq := h.root_eq
  hooks_eq := h.hooks_eq
  cut := by
    obtain ⟨D, hd, hs⟩ := h.cut
    refine ⟨D, hd, ?_⟩
    simp only [List.flatMap_cons, List.flatMap_nil, List.append_nil] at hs ⊢
    rw [Node.ids_withKind, hids, Node.ids_eq n, List.append_assoc]
    exact (List.subperm_append_left _).2 (hs.trans (List.sublist_flatMap_of_mem hr).subperm)
  issues := h.issues
  traced a s := by
    simp only [List.flatMap_cons, List.flatMap_nil, List.append_nil]
    rw [Node.standings_withKind, hst, Node.standings_eq a s n]
    refine (traced_head hlabel a s).append ?_
    have hu := ((by simpa using h.traced (n.aboveChildren a) true :
      Traced X (r.standings (n.aboveChildren a) true) (r'.standings (n.aboveChildren a) true))
      |>.unshelter hrY (s || n.isBuiltArrow))
    exact hu.weaken (fun _ he => List.mem_flatMap.2 ⟨r, hr, he⟩) (fun _ he => he)

/-- A node replaced by a construct that keeps some of the (already walked) children of `n'`
and adds built nodes; the children of the original `n` that the new node no longer holds are
cut off, and they are among the children of `n'` it drops. -/
theorem keepCut_drop {p : Place} {n n' : Node} {k' : Kind} (kept dropped built : List Node)
    (h : (Rewrite.keepCut p n (n'.withKind k')).run st = .ok ((), st'))
    (hn' : n'.kind.children.map Child.node = kept ++ dropped)
    (hk' : k'.children.map Child.node = kept ++ built) (hbuilt : built.flatMap Node.ids = [])
    (hcut : ((n.kind.children.map Child.node).filter fun c =>
      c.id != 0 && !(n'.withKind k').hasId c.id).Sublist dropped)
    (hlabel : (labelOf (n'.withKind k')).isSome = true → (labelOf n').isSome = true)
    (harrow : (n'.withKind k').isBuiltArrow = n'.isBuiltArrow) :
    Reshaped X [n'] [n'.withKind k'] st st' where
  root_eq := by
    rw [Rewrite.run_keepCut_eq] at h
    cases h
    rfl
  hooks_eq := by
    rw [Rewrite.run_keepCut_eq] at h
    cases h
    rfl
  cut := by
    rw [Rewrite.run_keepCut_eq] at h
    cases h
    refine ⟨_, rfl, ?_⟩
    have hD := map_fst_filterMap_cut n.kind.children
      (fun c => c.id != 0 && !(n'.withKind k').hasId c.id)
      (fun c => p.child (n'.withKind k') c.role)
    simp only [List.flatMap_cons, List.flatMap_nil, List.append_nil]
    rw [Node.ids_withKind, hk', Node.ids_eq n', hn', List.flatMap_append, hbuilt, List.append_nil,
      ← List.flatMap_map Prod.fst, hD, List.append_assoc, List.flatMap_append]
    exact (List.subperm_append_left _).2 ((List.subperm_append_left _).2 (hcut.flatMap _).subperm)
  issues := by
    rw [Rewrite.run_keepCut_eq] at h
    cases h
    exact ⟨[], .nil _⟩
  traced a s := by
    simp only [List.flatMap_cons, List.flatMap_nil, List.append_nil]
    rw [Node.standings_withKind, Node.standings_eq a s n', hk', hn', List.flatMap_append,
      List.flatMap_append, harrow]
    have hnil : built.flatMap (Node.standings (n'.aboveChildren a) (s || n'.isBuiltArrow)) = [] := by
      rw [List.flatMap_eq_nil_iff]
      intro c hc
      exact Node.standings_eq_nil_iff.2 (List.flatMap_eq_nil_iff.1 hbuilt c hc)
    rw [hnil, List.append_nil]
    exact (traced_head hlabel a s).append (Traced.refl X _) |>.weaken
      (fun _ he => by
        rcases List.mem_append.1 he with he | he
        · exact List.mem_append_left _ he
        · exact List.mem_append_right _ (List.mem_append_left _ he))
      (fun _ he => he)

end Reshaped

end SignalSugar
