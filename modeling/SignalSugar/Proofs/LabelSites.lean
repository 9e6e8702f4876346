import SignalSugar.Proofs.SourceNodes
import SignalSugar.Proofs.Resolution
/-!
# The label sites of a module

Expanding the labels of a module starts by collecting its sites (`collectSites`): in pre-order,
every label call bound nowhere on its scope chain, which must stand as a declarator's
initializer. For a module whose nodes were all read from the source (`Node.numbered`), the
collection is exact (`Collected`): the sites' calls are some of the module's ids in pre-order,
each standing right under its site's declarator, each an unbound label call, and every unbound
label call of the module is one of them.

The section on standings ties the flat view of `Node.standings` back to the tree: each standing
is the head of a node of it, and stands under the node it names as its nearest ancestor read
from the source.

## Main results

* `collectSites_collected`: collecting the sites of a numbered subtree is exact.
* `Node.exists_occurs_of_mem_standings`, `Node.above_cases_of_mem_standings`: where a standing
  comes from.
-/

namespace SignalSugar

/-- A run in `Except` that succeeded succeeded at each step. -/
theorem except_bind_ok {ε α β : Type} {x : Except ε α} {f : α → Except ε β} {b : β} :
    x >>= f = .ok b ↔ ∃ a, x = .ok a ∧ f a = .ok b := by
  cases x <;> simp [bind, Except.bind]

namespace Node

/-- Every node of the subtree was read from the source: none has the id 0 of built nodes. -/
def numbered (n : Node) : Bool :=
  n.id != 0 && n.kind.children.all fun c => numbered c.node
termination_by sizeOf n
decreasing_by have := c.lt; have := Node.sizeOf_kind_lt n; omega

theorem numbered_eq (n : Node) :
    n.numbered = (n.id != 0 && (n.kind.children.map Child.node).all numbered) := by
  rw [numbered, List.all_map]
  rfl

variable {n c m : Node}

theorem id_ne_zero_of_numbered (h : n.numbered = true) : n.id ≠ 0 := by
  rw [numbered_eq, Bool.and_eq_true, bne_iff_ne] at h
  exact h.1

theorem numbered_of_mem_children (h : n.numbered = true) (hc : c ∈ n.kind.children.map Child.node) :
    c.numbered = true := by
  rw [numbered_eq, Bool.and_eq_true, List.all_eq_true] at h
  exact h.2 c hc

theorem numbered_of_occurs {σ τ : Nat} (h : n.numbered = true) (o : Occurs σ n τ m) :
    m.numbered = true := by
  induction o with
  | here => exact h
  | child _ hc _ ih => exact ih (numbered_of_mem_children h hc)

/-- A standing is the head of a node of the subtree: one with its id, a label call if it is
marked as one. -/
theorem exists_occurs_of_mem_standings (σ : Nat) (n : Node) :
    ∀ {above sheltered e}, e ∈ n.standings above sheltered →
      ∃ τ m, Occurs σ n τ m ∧ m.id = e.id ∧ e.label = (labelOf m).isSome := by
  induction n using ids.induct generalizing σ with
  | _ n ih =>
  intro above sheltered e he
  rw [standings_eq, List.mem_append, List.mem_flatMap] at he
  rcases he with he | ⟨c, hc, he⟩
  · by_cases h : n.id = 0
    · simp [head, h] at he
    · simp only [head, h, if_false, List.mem_singleton] at he
      subst he
      exact ⟨σ, n, .here σ n, rfl, rfl⟩
  · obtain ⟨c, -, rfl⟩ := List.mem_map.1 hc
    obtain ⟨τ, m, o, hid, hl⟩ := ih c (n.scope.getD σ) he
    exact ⟨τ, m, .child trivial hc o, hid, hl⟩

/-- A node of the subtree stands under the node the subtree stands under, or under a node of
the subtree read from the source, inside one of its children. -/
theorem above_cases_of_mem_standings (σ : Nat) (n : Node) :
    ∀ {above sheltered e}, e ∈ n.standings above sheltered → e.above = above ∨
      ∃ τ a, Occurs σ n τ a ∧ a.id = e.above ∧
        e.id ∈ (a.kind.children.map Child.node).flatMap ids := by
  induction n using ids.induct generalizing σ with
  | _ n ih =>
  intro above sheltered e he
  rw [standings_eq, List.mem_append, List.mem_flatMap] at he
  rcases he with he | ⟨c, hc, he⟩
  · by_cases h : n.id = 0
    · simp [head, h] at he
    · simp only [head, h, if_false, List.mem_singleton] at he
      exact Or.inl (by rw [he])
  · obtain ⟨c, -, rfl⟩ := List.mem_map.1 hc
    rcases ih c (n.scope.getD σ) he with habove | ⟨τ, a, o, hid, hmem⟩
    · by_cases h : n.id = 0
      · exact Or.inl (by simpa [aboveChildren, h] using habove)
      · refine Or.inr ⟨σ, n, .here σ n, by simpa [aboveChildren, h] using habove.symm, ?_⟩
        exact List.mem_flatMap.2 ⟨c.node, hc, mem_ids_of_mem_standings he⟩
    · exact Or.inr ⟨τ, a, .child trivial hc o, hid, hmem⟩

/-- A subtree holding an id has a first node with it. -/
theorem find_of_hasId {x : Nat} {p : Place} {n : Node} (h : n.hasId x = true) :
    ∃ m q, n.find x p = some (m, q) := by
  induction p, n using find.induct x with
  | case1 p n hx =>
    rw [find, if_pos hx]
    exact ⟨n, p, rfl⟩
  | case2 p n hx ih =>
    rw [hasId] at h
    simp only [Bool.or_eq_true, List.any_eq_true] at h
    rcases h with h | ⟨c, hc, hcx⟩
    · exact absurd h hx
    · rw [find, if_neg hx]
      obtain ⟨m, q, hm⟩ := ih c hcx
      have hs : (n.kind.children.findSome? fun c => find x (p.child n c.role) c.node).isSome :=
        List.findSome?_isSome_iff.2 ⟨c, hc, by rw [hm]; rfl⟩
      obtain ⟨⟨m', q'⟩, hr⟩ := Option.isSome_iff_exists.1 hs
      exact ⟨m', q', hr⟩

end Node

/-- The sites `more` were collected from the trees `ns`, which stand in the scope `σ` under the
node with id `above`: the calls are some of the trees' ids, in order; each is the id of a node
standing right under its site's declarator; each is a label call bound nowhere on its scope
chain; and every such label call of the trees is one of them. -/
structure Collected (scopes : Scopes) (σ above : Nat) (ns : List Node) (more : List Site) :
    Prop where
  sublist : (more.map Site.call).Sublist (ns.flatMap Node.ids)
  anchored : ∀ s ∈ more, s.declarator ≠ 0 ∧
    ∃ e ∈ ns.flatMap (Node.standings above false), e.id = s.call ∧ e.above = s.declarator
  sound : ∀ s ∈ more, ∃ n ∈ ns, ∃ τ m, Occurs σ n τ m ∧ m.id = s.call ∧
    labelOf m = some s.label ∧ scopes.has (m.scope.getD τ) s.label.text = false
  complete : ∀ n ∈ ns, ∀ τ m l, Occurs σ n τ m → labelOf m = some l →
    scopes.has (m.scope.getD τ) l.text = false → m.id ∈ more.map Site.call

namespace Collected

variable {scopes : Scopes} {σ above : Nat} {ns ns₁ ns₂ : List Node} {more more₁ more₂ : List Site}

theorem nil (scopes : Scopes) (σ above : Nat) : Collected scopes σ above [] [] where
  sublist := by simp
  anchored := by simp
  sound := by simp
  complete := by simp

theorem append (h₁ : Collected scopes σ above ns₁ more₁) (h₂ : Collected scopes σ above ns₂ more₂) :
    Collected scopes σ above (ns₁ ++ ns₂) (more₁ ++ more₂) where
  sublist := by
    rw [List.map_append, List.flatMap_append]
    exact h₁.sublist.append h₂.sublist
  anchored s hs := by
    rw [List.flatMap_append]
    rcases List.mem_append.1 hs with hs | hs
    · obtain ⟨hd, e, he, hid⟩ := h₁.anchored s hs
      exact ⟨hd, e, List.mem_append_left _ he, hid⟩
    · obtain ⟨hd, e, he, hid⟩ := h₂.anchored s hs
      exact ⟨hd, e, List.mem_append_right _ he, hid⟩
  sound s hs := by
    rcases List.mem_append.1 hs with hs | hs
    · obtain ⟨n, hn, rest⟩ := h₁.sound s hs
      exact ⟨n, List.mem_append_left _ hn, rest⟩
    · obtain ⟨n, hn, rest⟩ := h₂.sound s hs
      exact ⟨n, List.mem_append_right _ hn, rest⟩
  complete n hn τ m l o hl hb := by
    rw [List.map_append]
    rcases List.mem_append.1 hn with hn | hn
    · exact List.mem_append_left _ (h₁.complete n hn τ m l o hl hb)
    · exact List.mem_append_right _ (h₂.complete n hn τ m l o hl hb)

/-- The sites of a node read from the source: the site of its own call, if it is an unbound
label call (`head`), then those of its children, which stand under it. -/
theorem node {n : Node} {head : List Site} (hn : n.id ≠ 0)
    (hhead : (head = [] ∧ ∀ l, labelOf n = some l → scopes.has (n.scope.getD σ) l.text = true) ∨
      ∃ l, head = [⟨l, above, n.id⟩] ∧ labelOf n = some l ∧
        scopes.has (n.scope.getD σ) l.text = false ∧ above ≠ 0)
    (hc : Collected scopes (n.scope.getD σ) n.id (n.kind.children.map Child.node) more) :
    Collected scopes σ above [n] (head ++ more) := by
  have hstand : n.standings above false = n.head above false ++
      (n.kind.children.map Child.node).flatMap (Node.standings n.id false) := by
    have : (n.id == 0) = false := by simpa using hn
    rw [Node.standings_eq, Node.aboveChildren, if_neg hn, Node.isBuiltArrow, this]
    rfl
  have hids : n.ids = [n.id] ++ (n.kind.children.map Child.node).flatMap Node.ids := by
    rw [Node.ids_eq, if_neg hn]
  refine ⟨?_, ?_, ?_, ?_⟩
  · rw [List.flatMap_singleton, hids, List.map_append]
    rcases hhead with ⟨rfl, -⟩ | ⟨l, rfl, -⟩
    · exact hc.sublist.trans (List.sublist_append_right _ _)
    · exact hc.sublist.append_left _
  · intro s hs
    rw [List.flatMap_singleton, hstand]
    rcases List.mem_append.1 hs with hs | hs
    · rcases hhead with ⟨rfl, -⟩ | ⟨l, rfl, -, -, ha⟩
      · cases hs
      · rw [List.mem_singleton] at hs
        subst hs
        exact ⟨ha, ⟨above, n.id, false, (labelOf n).isSome⟩,
          List.mem_append_left _ (by simp [Node.head, hn]), rfl, rfl⟩
    · obtain ⟨hd, e, he, hid⟩ := hc.anchored s hs
      exact ⟨hd, e, List.mem_append_right _ he, hid⟩
  · intro s hs
    rcases List.mem_append.1 hs with hs | hs
    · rcases hhead with ⟨rfl, -⟩ | ⟨l, rfl, hl, hb, -⟩
      · cases hs
      · rw [List.mem_singleton] at hs
        subst hs
        exact ⟨n, List.mem_singleton_self n, σ, n, .here σ n, rfl, hl, hb⟩
    · obtain ⟨c, hc', τ, m, o, rest⟩ := hc.sound s hs
      exact ⟨n, List.mem_singleton_self n, τ, m, .child trivial hc' o, rest⟩
  · intro n' hn' τ m l o hl hb
    rw [List.mem_singleton] at hn'
    subst hn'
    rw [List.map_append]
    rcases o.cases_of with ⟨rfl, rfl⟩ | ⟨-, c, hc', o⟩
    · rcases hhead with ⟨-, hbound⟩ | ⟨l', rfl, hl', -, -⟩
      · rw [hbound l hl] at hb
        cases hb
      · exact List.mem_append_left _ (List.mem_singleton_self _)
    · exact List.mem_append_right _ (hc.complete c hc' τ m l o hl hb)

end Collected

/-- Collecting the sites of a numbered subtree standing at `p` under the node `above` (its
parent's id) adds the subtree's sites to those found before. By induction on the subtree; its
children are collected one after the other, each under the node. -/
theorem collectSites_collected (scopes : Scopes) (n : Node) :
    ∀ (p : Place) (above : Nat) {acc sites : List Site}, n.numbered = true →
      (∀ d r rest, p.ancestors = (d, r) :: rest → above = d.id ∧ d.id ≠ 0) →
      collectSites scopes p n acc = .ok sites →
      ∃ more, sites = acc ++ more ∧ Collected scopes p.scope above [n] more := by
  induction n using Node.ids.induct with
  | _ n ih =>
  intro p above acc sites hn hab h
  have hfold : ∀ (l : List {c // c ∈ n.kind.children}) (acc sites : List Site),
      l.foldlM (fun acc x => collectSites scopes (p.child n x.1.role) x.1.node acc) acc = .ok sites →
      ∃ more, sites = acc ++ more ∧
        Collected scopes (n.scope.getD p.scope) n.id (l.map fun x => x.1.node) more := by
    intro l
    induction l with
    | nil =>
      intro acc sites h
      cases h
      exact ⟨[], by simp, Collected.nil _ _ _⟩
    | cons x l ihl =>
      intro acc sites h
      rw [List.foldlM_cons, except_bind_ok] at h
      obtain ⟨acc', h₁, h₂⟩ := h
      have hx : x.1.node ∈ n.kind.children.map Child.node := List.mem_map_of_mem x.2
      obtain ⟨m₁, rfl, hc₁⟩ := ih x.1 (p.child n x.1.role) n.id (Node.numbered_of_mem_children hn hx)
        (fun d r rest h => by
          simp only [Place.child, List.cons.injEq] at h
          obtain ⟨⟨rfl, -⟩, -⟩ := h
          exact ⟨rfl, Node.id_ne_zero_of_numbered hn⟩) h₁
      obtain ⟨m₂, rfl, hc₂⟩ := ihl _ _ h₂
      exact ⟨m₁ ++ m₂, by simp, hc₁.append hc₂⟩
  have finish : ∀ head : List Site,
      ((head = [] ∧ ∀ l, labelOf n = some l → scopes.has (n.scope.getD p.scope) l.text = true) ∨
        ∃ l, head = [⟨l, above, n.id⟩] ∧ labelOf n = some l ∧
          scopes.has (n.scope.getD p.scope) l.text = false ∧ above ≠ 0) →
      (pure (acc ++ head) >>= fun acc => n.kind.children.attach.foldlM
        (fun acc x => collectSites scopes (p.child n x.1.role) x.1.node acc) acc) = .ok sites →
      ∃ more, sites = acc ++ more ∧ Collected scopes p.scope above [n] more := by
    intro head hhead h
    obtain ⟨more, rfl, hc⟩ := hfold _ _ _ h
    rw [List.attach_map_val] at hc
    exact ⟨head ++ more, by simp, hc.node (Node.id_ne_zero_of_numbered hn) hhead⟩
  rw [collectSites, siteAt] at h
  split at h
  · rename_i l hl
    split at h
    · rename_i hb
      exact finish [] (.inl ⟨rfl, fun l' hl' => by rw [hl] at hl'; cases hl'; exact hb⟩)
        (by simpa using h)
    · rename_i hb
      split at h
      · rename_i d tail hanc
        obtain ⟨rfl, hd⟩ := hab d .init tail hanc
        split at h
        · exact finish _ (.inr ⟨l, rfl, hl, by simpa [Place.scopeOf] using hb, hd⟩) h
        · rw [if_neg Bool.false_ne_true, except_bind_ok] at h
          obtain ⟨_, h, -⟩ := h
          cases h
      · rw [except_bind_ok] at h
        obtain ⟨_, h, -⟩ := h
        cases h
  · rename_i hl
    exact finish [] (.inl ⟨rfl, fun l' hl' => by rw [hl] at hl'; cases hl'⟩) (by simpa using h)

/-- The sites of a numbered program: every label call of it bound nowhere on its scope chain,
in pre-order. -/
theorem collected_top {scopes : Scopes} {root : Node} {sites : List Site} (hn : root.numbered = true)
    (h : collectSites scopes Place.top root [] = .ok sites) : Collected scopes 0 0 [root] sites := by
  obtain ⟨more, rfl, hc⟩ :=
    collectSites_collected scopes root Place.top 0 hn (fun _ _ _ h => by cases h) h
  exact hc

end SignalSugar
