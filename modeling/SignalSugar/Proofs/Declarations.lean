import SignalSugar.Proofs.LabelSites
import SignalSugar.Proofs.Respelling
/-!
# The declaration around a declarator

A flattening works on one declarator and changes the declaration that holds it: it puts
accessors before the declarator and bindings after it, replaces it, and respells the reads of
the names it flattened. The operations name the declarator by its id, and in a tidy session
the id stands once, so each of them does to the declaration exactly what its definition says
to the declarator's parent:

* an insertion puts the new declarator next to the declarator in the parent's list
  (`Rewrite.insertNear_declaration`);
* a replacement puts the new construct in the declarator's place, the rest of the list as it
  was (`Rewrite.replace_declaration`);
* an import puts a statement first in the program and leaves every declaration below it
  (`Rewrite.hook_declaration`);
* a pass over the references to a binding respells the program, so a declaration has its
  respelled version there (`Session.Respelled.occurs_root`).

In a tidy session the node the session finds by the id of a node of the program is that node
(`Session.find_of_occurs_root`), so the current version of it is the node itself
(`Rewrite.run_refresh_of_occurs`).
-/

namespace SignalSugar

namespace Node

variable {x : Nat}

/-- In a tree whose source ids are distinct, a node read from the source that stands below a
child has an id other than the tree's own. -/
theorem id_ne_of_below {t c m : Node} (hd : t.ids.Nodup) (hc : c ∈ t.kind.children.map Child.node)
    {σ τ : Nat} (hm : Occurs σ c τ m) (h0 : m.id ≠ 0) : t.id ≠ m.id := by
  intro heq
  by_cases ht0 : t.id = 0
  · exact h0 (heq ▸ ht0)
  · exact id_not_mem_child hd ht0 hc (heq ▸ id_mem_ids_of_occurs hm h0)

/-- A child of a node of a tree stands below one of the tree's children. -/
theorem below_of_occurs {s τ : Nat} {t V D : Node} (hV : Occurs s t τ V)
    (hD : D ∈ V.kind.children.map Child.node) :
    ∃ c ∈ t.kind.children.map Child.node, ∃ τ', Occurs (t.scope.getD s) c τ' D := by
  rcases hV.cases_of with ⟨-, rfl⟩ | ⟨-, c, hc, hcV⟩
  · exact ⟨D, hD, _, .here _ _⟩
  · exact ⟨c, hc, _, hcV.trans (.child trivial hD (.here _ _))⟩

/-- In a tree whose source ids are distinct, a node read from the source that stands below one
child is neither another child nor below one. -/
theorem not_hasId_of_below {t c c' m : Node} (hd : t.ids.Nodup)
    (hc : c ∈ t.kind.children.map Child.node) (hc' : c' ∈ t.kind.children.map Child.node)
    (hne : c' ≠ c) {σ τ : Nat} (hm : Occurs σ c τ m) (h0 : m.id ≠ 0) : c'.hasId m.id = false := by
  have hch : ((t.kind.children.map Child.node).flatMap ids).Nodup := by
    rw [ids_eq t] at hd
    exact (List.nodup_append.1 hd).2.1
  rw [Bool.eq_false_iff, ne_eq, hasId_iff_mem_ids h0]
  exact fun hin => disjoint_ids_of_nodup hch hc' hc hne hin (id_mem_ids_of_occurs hm h0)

/-- No child of a node has the id of a node read from the source standing below one of them. -/
theorem no_child_id_of_below {t c m : Node} (hd : t.ids.Nodup)
    (hc : c ∈ t.kind.children.map Child.node) {σ τ : Nat} (hm : Occurs σ c τ m) (h0 : m.id ≠ 0)
    (hbelow : c ≠ m) : (t.kind.children.any fun c' => c'.node.id == m.id) = false := by
  rw [Bool.eq_false_iff]
  intro hany
  obtain ⟨c', hc', hid⟩ := List.any_eq_true.1 hany
  have hc'm := List.mem_map_of_mem (f := Child.node) hc'
  rw [beq_iff_eq] at hid
  by_cases hcc : c'.node = c
  · rw [hcc] at hid
    rcases hm.cases_of with ⟨-, rfl⟩ | ⟨-, c₁, hc₁, hm₁⟩
    · exact hbelow rfl
    · exact id_ne_of_below (hd.sublist (ids_sublist_of_mem_children hc)) hc₁ hm₁ h0 hid
  · have := not_hasId_of_below hd hc hc'm hcc hm h0
    rw [← hid, hasId_self] at this
    cases this

/-- Rebuilding a construct in `Id` puts back what the visits answered. -/
theorem run_mapChildrenM_id {k : Kind} (f : (c : Node) → Role → sizeOf c < sizeOf k → Id Node) :
    Id.run (k.mapChildrenM f) = k.setChildren (k.children.map fun c => Id.run (f c.node c.role c.lt)) := by
  rw [Kind.mapChildrenM_eq]
  simp only [Id.run_map, List.idRun_mapM]

/-- **Rewriting the parent of a node by id rewrites it where it stands**, in a tree whose source
ids are distinct: the path down to it is rebuilt around it. -/
theorem occurs_updateParentOf (hx : x ≠ 0) (g : Node → Node) {D V' : Node} (hDx : D.id = x) :
    ∀ {s τ : Nat} {t V : Node} (p : Place), t.ids.Nodup → Occurs s t τ V →
      D ∈ V.kind.children.map Child.node → g V = V' →
      Occurs s (Id.run (t.updateParentOf x (fun _ q => pure (g q)) p)) τ V' := by
  intro s τ t V p hd hV hD hg
  induction hV generalizing p with
  | here s t =>
    obtain ⟨c, hc, rfl⟩ := List.mem_map.1 hD
    rw [updateParentOf, if_pos (List.any_eq_true.2 ⟨c, hc, by simp [hDx]⟩), ← hg]
    exact .here _ _
  | @child s τ t c V _ hc hcV ih =>
    have hD0 : D.id ≠ 0 := hDx ▸ hx
    obtain ⟨c₂, hc₂, τ₂, hD₂⟩ := below_of_occurs hcV hD
    have hnone : (t.kind.children.any fun c' => c'.node.id == x) = false := by
      rw [← hDx]
      refine no_child_id_of_below hd hc (.child trivial hc₂ hD₂) hD0 fun h => ?_
      subst h
      exact id_ne_of_below (hd.sublist (ids_sublist_of_mem_children hc)) hc₂ hD₂ hD0 rfl
    have hhas : t.hasId x = true := by
      rw [hasId_iff_mem_ids hx, ← hDx]
      exact id_mem_ids_of_occurs (.child trivial hc (.child trivial hc₂ hD₂)) hD0
    rw [updateParentOf, if_neg (by simp [hnone]), if_neg (by simp [hhas])]
    simp only [Id.run_bind, Id.run_pure, run_mapChildrenM_id]
    obtain ⟨cc, hcc, rfl⟩ := List.mem_map.1 hc
    refine .child trivial ?_ (ih (p.child t cc.role) (hd.sublist (ids_sublist_of_mem_children hc)) hD hg)
    rw [kind_withKind, Kind.children_setChildren_id
      (fun c r _ => updateParentOf x (fun _ q => pure (g q)) (p.child t r) c)]
    exact List.mem_map_of_mem (f := fun c => Id.run
      (updateParentOf x (fun _ q => pure (g q)) (p.child t c.role) c.node)) hcc

/-- **Rewriting a node by id, in a tree whose source ids are distinct, rebuilds its parent around
what the step made of it**; the parent's other children stay as they were. -/
theorem occurs_updateAt_parent (hx : x ≠ 0) {f : Place → Node → Rewrite Node} (g : Node → Node)
    (hf : ∀ q n st r st', (f q n).run st = .ok (r, st') → r = g n) {D : Node} (hDx : D.id = x) :
    ∀ {s τ : Nat} {t V : Node} (p : Place) {st t' st'}, t.ids.Nodup → Occurs s t τ V →
      D ∈ V.kind.children.map Child.node → (t.updateAt x f p).run st = .ok (t', st') →
      Occurs s t' τ (V.withKind (V.kind.setChildren
        ((V.kind.children.map Child.node).map fun c => if c.id = x then g c else c))) := by
  intro s τ t V p st t' st' hd hV hD h
  have hD0 : D.id ≠ 0 := hDx ▸ hx
  induction hV generalizing p st t' st' with
  | here s t =>
    have hne : t.id ≠ x := hDx ▸ id_ne_of_below hd hD (.here 0 D) hD0
    have hhas : t.hasId x = true := hasId_of_mem_children hD (hDx ▸ hasId_self D)
    rw [updateAt, if_neg (by simpa using hne), if_neg (by simp [hhas])] at h
    obtain ⟨k, st₁, hk, h⟩ := Rewrite.run_bind_ok.1 h
    obtain ⟨rfl, rfl⟩ := Rewrite.run_pure_ok.1 h
    obtain ⟨ns, hrun, rfl⟩ := Rewrite.run_mapChildrenM_visits hk
    obtain ⟨-, hall⟩ := Rewrite.run_mapM_ok (fun _ => True)
      (fun c b => (if c.node.id = x then g c.node else c.node) = b) (fun c hc s b s' _ hb => by
        refine ⟨trivial, ?_⟩
        by_cases hcx : c.node.id = x
        · rw [updateAt, if_pos (by simpa using hcx)] at hb
          rw [if_pos hcx, hf _ _ _ _ _ hb]
        · have hno : c.node.hasId x = false := hDx ▸ not_hasId_of_below hd hD
            (List.mem_map_of_mem hc) (fun h => hcx (h ▸ hDx)) (.here 0 D) hD0
          rw [updateAt, if_neg (by simpa using hcx), if_pos (by simp [hno])] at hb
          rw [if_neg hcx, (Rewrite.run_pure_ok.1 hb).1]) trivial hrun
    have hns : (t.kind.children.map Child.node).map (fun c => if c.id = x then g c else c) = ns := by
      rw [← List.forall₂_eq_eq_eq, List.forall₂_map_left_iff, List.forall₂_map_left_iff]
      exact hall
    rw [hns]
    exact .here _ _
  | @child s τ t c V _ hc hcV ih =>
    obtain ⟨c₂, hc₂, τ₂, hD₂⟩ := below_of_occurs hcV hD
    have hne : t.id ≠ x := hDx ▸ id_ne_of_below hd hc (.child trivial hc₂ hD₂) hD0
    have hhas : t.hasId x = true := by
      rw [hasId_iff_mem_ids hx, ← hDx]
      exact id_mem_ids_of_occurs (.child trivial hc (.child trivial hc₂ hD₂)) hD0
    rw [updateAt, if_neg (by simpa using hne), if_neg (by simp [hhas])] at h
    obtain ⟨k, st₁, hk, h⟩ := Rewrite.run_bind_ok.1 h
    obtain ⟨rfl, rfl⟩ := Rewrite.run_pure_ok.1 h
    obtain ⟨ns, hrun, rfl⟩ := Rewrite.run_mapChildrenM_visits hk
    have hdc := hd.sublist (ids_sublist_of_mem_children hc)
    obtain ⟨-, hall⟩ := Rewrite.run_mapM_ok (fun _ => True)
      (fun cc b => cc.node = c → Occurs (t.scope.getD s) b τ _)
      (fun cc _ s b s' _ hb => ⟨trivial, fun hcc => by subst hcc; exact ih _ hdc hD hb⟩) trivial hrun
    obtain ⟨cc, hcc, rfl⟩ := List.mem_map.1 hc
    obtain ⟨b, hb, hR⟩ := Rewrite.exists_of_forall₂_left hall hcc
    refine .child trivial ?_ (hR rfl)
    rw [kind_withKind, Kind.children_setChildren _ (by simpa using hall.length_eq.symm)]
    exact hb

/-- **Inserting next to a declarator puts the new declarator beside it** in the declaration's
list, in a tree whose source ids are distinct. -/
theorem occurs_insertNear (hx : x ≠ 0) {node : Node} {after : Bool} {kd : DeclKind}
    {ds : List Node} {D : Node} (hD : D ∈ ds) (hDx : D.id = x) {s τ : Nat} {t V t' : Node}
    {p : Place} (hd : t.ids.Nodup) (hV : Occurs s t τ V) (hk : V.kind = .varDecl kd ds)
    (h : insertNear x node after p t = .ok t') :
    Occurs s t' τ (V.withKind (.varDecl kd (insertNext x node after ds))) := by
  have hDV : D ∈ V.kind.children.map Child.node := by
    rw [hk]
    simpa [Kind.children] using hD
  have hhit : (ds.any fun c => c.id == x) = true := List.any_eq_true.2 ⟨D, hD, by simp [hDx]⟩
  unfold Node.insertNear at h
  split at h
  · cases h
  split at h
  · cases h
  · cases h
  split at h
  · cases h
  cases h
  exact occurs_updateParentOf hx _ hDx p hd hV hDV (by simp [hk, Kind.insertSibling, hhit])

end Node

namespace Session

variable {st : Session}

/-- **In a tidy session, the node found by the id of a node of the program is that node.** -/
theorem find_of_occurs_root (ht : st.Tidy) {s τ : Nat} {m : Node} (hm : Occurs s st.root τ m)
    (h0 : m.id ≠ 0) : ∃ q, st.find m.id = some (m, q) := by
  have hhas : st.root.hasId m.id = true :=
    (Node.hasId_iff_mem_ids h0 _).2 (Node.id_mem_ids_of_occurs hm h0)
  obtain ⟨m', q, hf⟩ := Node.find_of_hasId (p := Place.top) hhas
  have hst : st.find m.id = some (m', q) := by rw [find, hf]
  obtain ⟨hid, t, htr, σ, hm'⟩ := occurs_of_find hst
  obtain rfl := ht.eq_of_occurs List.mem_cons_self hm htr hm' hid.symm h0
  exact ⟨q, hst⟩

/-- The ids of a tidy session's program are distinct. -/
theorem Tidy.root_nodup (ht : st.Tidy) : st.root.ids.Nodup :=
  (List.nodup_append.1 ht).1

/-- A node of the program, in a session respelled, has a respelled version in the program. -/
theorem Respelled.occurs_root {σ : List (String × Substitution)} {st' : Session}
    (h : st.Respelled σ st') {s τ : Nat} {m : Node} (hm : Occurs s st.root τ m) :
    ∃ m', Occurs s st'.root τ m' ∧ Node.Respelled σ m m' :=
  (List.forall₂_cons.1 h.trees).1.occurs hm

end Session

namespace Rewrite

variable {x : Nat} {st st' : Session}

/-- The current version of a node read from the source is the node of the program with its id. -/
theorem run_refresh_of_occurs (ht : st.Tidy) {s τ : Nat} {m n : Node} (hm : Occurs s st.root τ m)
    (hid : m.id = n.id) (h0 : n.id ≠ 0) : (refresh n).run st = .ok (m, st) := by
  obtain ⟨q, hf⟩ := Session.find_of_occurs_root ht hm (hid ▸ h0)
  rw [hid] at hf
  simp [refresh, locate, h0, hf]
  rfl

/-- A rewrite of the tree holding a node of the program rewrites the program from its top. -/
theorem run_inTreeOf_of_hasId {F : Place → Node → Rewrite Node} {b : Bool}
    (hx : st.root.hasId x = true) (h : (inTreeOf x F).run st = .ok (b, st')) :
    ∃ root st₁, (F Place.top st.root).run st = .ok (root, st₁) ∧
      st' = { st₁ with root := root } := by
  simp only [inTreeOf, run_bind_ok] at h
  obtain ⟨s₀, s₁, hget, h⟩ := h
  cases hget
  rw [if_pos hx] at h
  simp only [run_bind_ok] at h
  obtain ⟨root, st₁, hroot, u, st₂, hmod, hret⟩ := h
  obtain ⟨-, rfl⟩ := run_pure_ok.1 hret
  cases hmod
  exact ⟨root, st₁, hroot, rfl⟩

section Declaration

variable {τ : Nat} {V D : Node} {kd : DeclKind} {ds : List Node}

/-- The program holds the id of a child of one of its nodes. -/
theorem hasId_of_parent (hV : Occurs 0 st.root τ V) (hD : D ∈ V.kind.children.map Child.node)
    (hD0 : D.id ≠ 0) : st.root.hasId D.id = true :=
  (Node.hasId_iff_mem_ids hD0 _).2
    (Node.id_mem_ids_of_occurs (hV.trans (.child trivial hD (.here _ D))) hD0)

/-- **A replacement puts the new construct in the node's place**: its parent keeps its other
children, in the same order. -/
theorem replace_declaration {k : Kind} (hx : x ≠ 0) (ht : st.Tidy) (hV : Occurs 0 st.root τ V)
    (hD : D ∈ V.kind.children.map Child.node) (hDx : D.id = x)
    (h : (replace x k).run st = .ok ((), st')) :
    Occurs 0 st'.root τ (V.withKind (V.kind.setChildren
      ((V.kind.children.map Child.node).map fun c => if c.id = x then c.withKind k else c))) := by
  obtain ⟨root, st₁, hrun, rfl⟩ := run_updateAt_of_hasId (hDx ▸ hasId_of_parent hV hD (hDx ▸ hx)) h
  refine Node.occurs_updateAt_parent hx (·.withKind k) (fun q n s r s' hr => ?_) hDx Place.top
    ht.root_nodup hV hD hrun
  obtain ⟨u, s₁, -, hp⟩ := run_bind_ok.1 hr
  exact (run_pure_ok.1 hp).1.symm

/-- **An insertion next to a declarator puts the new declarator beside it** in the
declaration's list. -/
theorem insertNear_declaration {node : Node} {after : Bool} (hx : x ≠ 0) (ht : st.Tidy)
    (hV : Occurs 0 st.root τ V) (hk : V.kind = .varDecl kd ds) (hD : D ∈ ds) (hDx : D.id = x)
    (h : (insertNear x node after).run st = .ok ((), st')) :
    Occurs 0 st'.root τ (V.withKind (.varDecl kd (insertNext x node after ds))) := by
  have hDV : D ∈ V.kind.children.map Child.node := by
    rw [hk]
    simpa [Kind.children] using hD
  obtain ⟨found, s₁, hin, hrest⟩ := run_bind_ok.1 h
  have hs : st' = s₁ := by
    cases found
    · exact absurd hrest (run_fail_ne_ok _ _)
    · exact (run_pure_ok.1 hrest).2.symm
  subst hs
  obtain ⟨root, st₁, hcheck, rfl⟩ :=
    run_inTreeOf_of_hasId (hDx ▸ hasId_of_parent hV hDV (hDx ▸ hx)) hin
  obtain ⟨hins, rfl⟩ := run_check_ok.1 hcheck
  exact Node.occurs_insertNear hx hD hDx ht.root_nodup hV hk hins

/-- **An import leaves every declaration where it stands**: it puts a statement first in the
program, above them all. -/
theorem hook_declaration {name l : String} (hV : Occurs 0 st.root τ V)
    (hk : V.kind = .varDecl kd ds) (h : (hook name).run st = .ok (l, st')) :
    Occurs 0 st'.root τ V := by
  simp only [hook, run_bind_ok] at h
  obtain ⟨s₀, s₁, hget, h⟩ := h
  cases hget
  split at h
  · obtain ⟨-, rfl⟩ := run_pure_ok.1 h
    exact hV
  simp only [run_bind_ok] at h
  obtain ⟨l', s₂, hu, s₃, s₄, hget, u, s₅, hprep, v, s₆, hmod, hret⟩ := h
  obtain ⟨-, rfl⟩ := run_pure_ok.1 hret
  cases hmod
  cases hget
  rw [run_uidIn] at hu
  cases hu
  simp only [prepend, run_bind_ok] at hprep
  obtain ⟨s₇, s₈, hget, hprep⟩ := hprep
  cases hget
  rcases hV.cases_of with ⟨-, rfl⟩ | ⟨-, c, hc, hcV⟩
  · split at hprep
    · rename_i body hb
      cases hk.symm.trans hb
    · rename_i body hb
      cases hk.symm.trans hb
    · exact absurd hprep (run_fail_ne_ok _ _)
  split at hprep
  · rename_i body hb
    cases hprep
    rw [hb] at hc
    simp only [Kind.children, Child.node_ofList] at hc
    exact .child trivial (by simp [Kind.children, hc]) hcV
  · rename_i body hb
    cases hprep
    rw [hb] at hc
    simp only [Kind.children, Child.node_ofList] at hc
    exact .child trivial (by simp [Kind.children, hc]) hcV
  · exact absurd hprep (run_fail_ne_ok _ _)

end Declaration

end Rewrite

end SignalSugar
