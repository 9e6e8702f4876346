import SignalSugar.Rewrite.Labels
import SignalSugar.Proofs.Copies
/-!
# The nodes read from the source

A rewrite rebuilds nodes, moves them under new parents, copies them and cuts them off the
program. Nodes read from the source keep their ids through all of it, so what a rewrite did
to them can be followed by id. Two views of a subtree do this:

* `Node.ids`: the ids of its nodes read from the source, in pre-order;
* `Node.standings`: where each of them stands (`Standing`): under which nearest ancestor read
  from the source, whether an arrow built by a rewrite stands above it, and whether it is a
  label call.

A session is **tidy** (`Session.Tidy`) when no id stands twice in it, in the program and in
the subtrees cut off it together: no node read from the source is held in two places.

A rewrite **traces** the standings before it into those after it (`Traced`) when each node
left stands under the same nearest ancestor, is a label call only if it was one, and stands
below a built arrow only if it did before or its id is one of a given list: the nodes the
rewrite is allowed to move under the arrows it builds.

## Main results

* `Node.standings_shelter`: the standings under a built arrow are those elsewhere, sheltered.
* `Node.map_id_standings`: the standings list exactly the ids.
* `Traced.trans`, `Traced.append`: traces compose along a run and side by side.
* `Traced.follows_of_nodup`: where ids are distinct, a node left follows the one standing with
  its id before.
-/

namespace SignalSugar

/-- Whether a node is an arrow that a rewrite built. -/
def Node.isBuiltArrow (n : Node) : Bool :=
  n.id == 0 && match n.kind with
    | .arrow .. => true
    | _ => false

/-- Where a node read from the source stands. -/
structure Standing where
  /-- The id of its nearest ancestor read from the source, 0 when it has none. -/
  above : Nat
  id : Nat
  /-- Whether an arrow built by a rewrite stands above it. -/
  sheltered : Bool
  /-- Whether it is a label call. -/
  label : Bool
deriving DecidableEq

/-- The same standing, below a built arrow if `s`. -/
def Standing.shelter (s : Bool) (e : Standing) : Standing := { e with sheltered := e.sheltered || s }

namespace Node

/-- The standing of the node itself, if it was read from the source. -/
def head (above : Nat) (sheltered : Bool) (n : Node) : List Standing :=
  if n.id = 0 then [] else [⟨above, n.id, sheltered, (labelOf n).isSome⟩]

/-- The nearest ancestor read from the source that the children of `n` have. -/
def aboveChildren (above : Nat) (n : Node) : Nat := if n.id = 0 then above else n.id

/-- The standings of the nodes read from the source in a subtree, in pre-order: the subtree
stands under the node `above` (0 for none), below a built arrow if `sheltered`. -/
def standings (above : Nat) (sheltered : Bool) (n : Node) : List Standing :=
  n.head above sheltered ++ n.kind.children.flatMap fun c =>
    standings (n.aboveChildren above) (sheltered || n.isBuiltArrow) c.node
termination_by sizeOf n
decreasing_by have := c.lt; have := Node.sizeOf_kind_lt n; omega

/-- The ids of the nodes read from the source in a subtree, in pre-order. -/
def ids (n : Node) : List Nat :=
  (if n.id = 0 then [] else [n.id]) ++ n.kind.children.flatMap fun c => ids c.node
termination_by sizeOf n
decreasing_by have := c.lt; have := Node.sizeOf_kind_lt n; omega

theorem standings_eq (above : Nat) (sheltered : Bool) (n : Node) :
    n.standings above sheltered = n.head above sheltered ++
      (n.kind.children.map Child.node).flatMap
        (standings (n.aboveChildren above) (sheltered || n.isBuiltArrow)) := by
  rw [standings, List.flatMap_map]

theorem ids_eq (n : Node) :
    n.ids = (if n.id = 0 then [] else [n.id]) ++ (n.kind.children.map Child.node).flatMap ids := by
  rw [ids, List.flatMap_map]

@[simp] theorem head_of_id_eq_zero {n : Node} (h : n.id = 0) (above : Nat) (sheltered : Bool) :
    n.head above sheltered = [] := by
  simp [head, h]

@[simp] theorem aboveChildren_withKind (above : Nat) (n : Node) (k : Kind) :
    (n.withKind k).aboveChildren above = n.aboveChildren above := rfl

theorem ids_withKind (n : Node) (k : Kind) :
    (n.withKind k).ids = (if n.id = 0 then [] else [n.id]) ++ (k.children.map Child.node).flatMap ids := by
  rw [ids_eq, id_withKind, kind_withKind]

@[simp] theorem ids_built (k : Kind) : (built k).ids = (k.children.map Child.node).flatMap ids := by
  rw [ids_eq]
  simp

theorem standings_withKind (above : Nat) (sheltered : Bool) (n : Node) (k : Kind) :
    (n.withKind k).standings above sheltered = (n.withKind k).head above sheltered ++
      (k.children.map Child.node).flatMap
        (standings (n.aboveChildren above) (sheltered || (n.withKind k).isBuiltArrow)) := by
  rw [standings_eq, aboveChildren_withKind, kind_withKind]

theorem standings_built (above : Nat) (sheltered : Bool) (k : Kind) :
    (built k).standings above sheltered = (k.children.map Child.node).flatMap
      (standings above (sheltered || (built k).isBuiltArrow)) := by
  rw [standings_eq]
  simp [aboveChildren, head]

/-- The standings list the ids, in the same order. -/
theorem map_id_standings (n : Node) :
    ∀ above sheltered, (n.standings above sheltered).map Standing.id = n.ids := by
  induction n using ids.induct with
  | _ n ih =>
  intro above sheltered
  rw [standings_eq, ids_eq, List.map_append, List.map_flatMap]
  congr 1
  · by_cases h : n.id = 0 <;> simp [head, h]
  · refine List.flatMap_congr fun c hc => ?_
    obtain ⟨c, -, rfl⟩ := List.mem_map.1 hc
    exact ih c _ _

theorem mem_ids_of_mem_standings {n : Node} {above : Nat} {sheltered : Bool} {e : Standing}
    (he : e ∈ n.standings above sheltered) : e.id ∈ n.ids := by
  rw [← map_id_standings n above sheltered]
  exact List.mem_map_of_mem he

theorem standings_eq_nil_iff {n : Node} {above : Nat} {sheltered : Bool} :
    n.standings above sheltered = [] ↔ n.ids = [] := by
  rw [← map_id_standings n above sheltered, List.map_eq_nil_iff]

/-- A copy holds no node read from the source. -/
@[simp] theorem ids_copy (n : Node) : n.copy.ids = [] := by
  induction n using ids.induct with
  | _ n ih =>
  rw [ids_eq, children_copy, id_copy, if_pos rfl, List.nil_append, List.flatMap_map,
    List.flatMap_eq_nil_iff]
  intro c hc
  obtain ⟨c, -, rfl⟩ := List.mem_map.1 hc
  exact ih c

/-- A fresh subtree holds no node read from the source. -/
theorem ids_of_fresh {n : Node} (h : n.fresh = true) : n.ids = [] := by
  induction n using ids.induct with
  | _ n ih =>
  obtain ⟨h0, -, hc⟩ := fresh_iff.1 h
  rw [ids_eq, if_pos h0, List.nil_append, List.flatMap_eq_nil_iff]
  intro c hc'
  obtain ⟨c, hmem, rfl⟩ := List.mem_map.1 hc'
  exact ih c (hc _ (List.mem_map_of_mem hmem))

@[simp] theorem standings_copy (n : Node) (above : Nat) (sheltered : Bool) :
    n.copy.standings above sheltered = [] :=
  standings_eq_nil_iff.2 (ids_copy n)

/-- Standing below a built arrow only changes the flag: the standings of a subtree are those it
has at the top, sheltered. -/
theorem standings_shelter (n : Node) :
    ∀ above sheltered, n.standings above sheltered =
      (n.standings above false).map (Standing.shelter sheltered) := by
  induction n using ids.induct with
  | _ n ih =>
  intro above sheltered
  rw [standings_eq, standings_eq above false n, List.map_append, List.map_flatMap]
  congr 1
  · by_cases h : n.id = 0 <;> simp [head, h, Standing.shelter]
  · refine List.flatMap_congr fun c hc => ?_
    obtain ⟨c, -, rfl⟩ := List.mem_map.1 hc
    rw [ih c, ih c _ (false || _), List.map_map]
    congr 1
    funext e
    simp only [Standing.shelter, Function.comp_apply, Bool.false_or]
    cases e.sheltered <;> cases sheltered <;> cases n.isBuiltArrow <;> rfl

/-- The nearest ancestor a node of the subtree stands under is the one the subtree stands under,
or a node of the subtree. -/
theorem above_of_mem_standings (n : Node) :
    ∀ {above sheltered e}, e ∈ n.standings above sheltered → e.above = above ∨ e.above ∈ n.ids := by
  induction n using ids.induct with
  | _ n ih =>
  intro above sheltered e he
  rw [standings_eq, List.mem_append, List.mem_flatMap] at he
  rw [ids_eq]
  rcases he with he | ⟨c, hc, he⟩
  · by_cases h : n.id = 0
    · simp [head, h] at he
    · simp only [head, h, if_false, List.mem_singleton] at he
      exact Or.inl (by rw [he])
  · obtain ⟨c, -, rfl⟩ := List.mem_map.1 hc
    rcases ih c he with h' | h'
    · by_cases h : n.id = 0
      · exact Or.inl (by simp [h', aboveChildren, h])
      · refine Or.inr (List.mem_append_left _ ?_)
        simp [h', aboveChildren, h]
    · exact Or.inr (List.mem_append_right _ (List.mem_flatMap.2 ⟨c.node, hc, h'⟩))

@[simp] theorem withKind_withKind (n : Node) (k k' : Kind) : (n.withKind k).withKind k' = n.withKind k' :=
  rfl

theorem hasId_self (n : Node) : n.hasId n.id = true := by
  rw [hasId]
  simp

theorem hasId_of_mem_children {x : Nat} {n c : Node} (hc : c ∈ n.kind.children.map Child.node)
    (h : c.hasId x = true) : n.hasId x = true := by
  rw [hasId]
  obtain ⟨c', hc', rfl⟩ := List.mem_map.1 hc
  simp only [Bool.or_eq_true, List.any_eq_true]
  exact Or.inr ⟨c', hc', h⟩

/-- A node is a built arrow only if it is an arrow. -/
theorem isBuiltArrow_eq_false {n : Node} (h : ∀ ps b e a, n.kind ≠ .arrow ps b e a) :
    n.isBuiltArrow = false := by
  unfold isBuiltArrow
  split
  · rename_i ps b e a hk
    exact absurd hk (h ps b e a)
  · simp

/-- Asking for a node read from the source by id is looking among the ids. -/
theorem hasId_iff_mem_ids {x : Nat} (hx : x ≠ 0) (n : Node) : n.hasId x = true ↔ x ∈ n.ids := by
  induction n using ids.induct with
  | _ n ih =>
  rw [hasId, ids_eq]
  simp only [Bool.or_eq_true, beq_iff_eq, List.any_eq_true, List.mem_append, List.mem_flatMap,
    List.mem_map]
  constructor
  · rintro (h | ⟨c, hc, h⟩)
    · subst h
      simp [hx]
    · exact Or.inr ⟨c.node, ⟨c, hc, rfl⟩, (ih c).1 h⟩
  · rintro (h | ⟨_, ⟨c, hc, rfl⟩, h⟩)
    · by_cases h0 : n.id = 0
      · simp [h0] at h
      · simp only [h0, if_false, List.mem_singleton] at h
        exact Or.inl h.symm
    · exact Or.inr ⟨c, hc, (ih c).2 h⟩

end Node

/-! ### Following nodes through a rewrite -/

/-- `e'` is what a rewrite left of the node `e` stood for: the same node, under the same nearest
ancestor, a label call only if it was one, and below a built arrow only if it was before or its
id is one of `X`. -/
structure Standing.Follows (X : List Nat) (e e' : Standing) : Prop where
  id_eq : e'.id = e.id
  above_eq : e'.above = e.above
  label : e'.label = true → e.label = true
  sheltered : e'.sheltered = true → e.sheltered = true ∨ e.id ∈ X

namespace Standing.Follows

variable {X Y : List Nat} {e e' e'' : Standing}

theorem refl (X : List Nat) (e : Standing) : e.Follows X e := ⟨rfl, rfl, fun h => h, Or.inl⟩

theorem trans (h : e.Follows X e') (h' : e'.Follows Y e'') : e.Follows (X ++ Y) e'' where
  id_eq := h'.id_eq.trans h.id_eq
  above_eq := h'.above_eq.trans h.above_eq
  label hl := h.label (h'.label hl)
  sheltered hs := by
    rcases h'.sheltered hs with hs' | hy
    · rcases h.sheltered hs' with hs'' | hx
      · exact Or.inl hs''
      · exact Or.inr (List.mem_append_left _ hx)
    · exact Or.inr (List.mem_append_right _ (h.id_eq ▸ hy))

theorem mono (hXY : ∀ i ∈ X, i ∈ Y) (h : e.Follows X e') : e.Follows Y e' :=
  ⟨h.id_eq, h.above_eq, h.label, fun hs => (h.sheltered hs).imp_right (hXY _)⟩

end Standing.Follows

/-- Every node left (`l'`) follows a node that stood before (`l`), moving under built arrows
only if its id is one of `X`. -/
def Traced (X : List Nat) (l l' : List Standing) : Prop := ∀ e' ∈ l', ∃ e ∈ l, e.Follows X e'

namespace Traced

variable {X Y : List Nat} {l l' l'' m m' : List Standing}

theorem refl (X : List Nat) (l : List Standing) : Traced X l l :=
  fun e he => ⟨e, he, Standing.Follows.refl X e⟩

theorem trans (h : Traced X l l') (h' : Traced Y l' l'') : Traced (X ++ Y) l l'' := by
  intro e'' he''
  obtain ⟨e', he', hf'⟩ := h' e'' he''
  obtain ⟨e, he, hf⟩ := h e' he'
  exact ⟨e, he, hf.trans hf'⟩

theorem mono (hXY : ∀ i ∈ X, i ∈ Y) (h : Traced X l l') : Traced Y l l' := by
  intro e' he'
  obtain ⟨e, he, hf⟩ := h e' he'
  exact ⟨e, he, hf.mono hXY⟩

theorem append (h : Traced X l l') (h' : Traced X m m') : Traced X (l ++ m) (l' ++ m') := by
  intro e' he'
  rcases List.mem_append.1 he' with he' | he'
  · obtain ⟨e, he, hf⟩ := h e' he'
    exact ⟨e, List.mem_append_left _ he, hf⟩
  · obtain ⟨e, he, hf⟩ := h' e' he'
    exact ⟨e, List.mem_append_right _ he, hf⟩

/-- Fewer nodes left, or more nodes before, trace as well. -/
theorem weaken (h : Traced X l l') (hl : ∀ e ∈ l, e ∈ m) (hl' : ∀ e ∈ m', e ∈ l') :
    Traced X m m' := by
  intro e' he'
  obtain ⟨e, he, hf⟩ := h e' (hl' e' he')
  exact ⟨e, hl e he, hf⟩

theorem nil_left (X : List Nat) (l : List Standing) : Traced X l [] := fun _ he => by cases he

/-- Where the ids before are distinct, a node left follows the one node with its id. -/
theorem follows_of_nodup (h : Traced X l l') (hd : (l.map Standing.id).Nodup) {e e' : Standing}
    (he : e ∈ l) (he' : e' ∈ l') (hid : e'.id = e.id) : e.Follows X e' := by
  obtain ⟨e₀, he₀, hf⟩ := h e' he'
  have : e₀ = e := List.inj_on_of_nodup_map hd he₀ he (hf.id_eq.symm.trans hid)
  exact this ▸ hf

end Traced

/-! ### Sessions holding each node once -/

/-- The ids of the nodes read from the source in a session: in the program, then in the
subtrees cut off it. -/
def Session.ids (st : Session) : List Nat := st.root.ids ++ st.detached.flatMap fun e => e.1.ids

/-- A session holds every node read from the source in one place at most. -/
def Session.Tidy (st : Session) : Prop := st.ids.Nodup

end SignalSugar
