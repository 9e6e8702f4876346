import SignalSugar.Proofs.Reshaping
import SignalSugar.Proofs.DerefStep
/-!
# What the deref walk does to the nodes read from the source

The walk for a signal rebuilds most nodes around the walks of their children, replaces
references and directives by calls of the accessors, and turns assignments to the signal into
calls of the write accessor with a new arrow around the right side. So it reshapes its subtree
(`Reshaped`): nothing but the right sides of assignments to the signal moves under an arrow
the walk builds, and the walk turns no node into a label call, as long as the accessors' names
are no label's.

Each branch of the walk (`DerefStep`) is one case of the proof: a rebuilt node is
`Reshaped.rebuild` of its children's walks, a replaced node `Reshaped.drop_children` or
`Reshaped.keepCut_drop`, an assignment `Reshaped.moveUnderArrow`.

## Main results

* `derefWalk_node_id`, `derefWalk_ident`: the node a walk answers keeps the id, and is a
  reference only where the node was that reference or to the write accessor.
* `derefWalk_reshaped`: a walk reshapes its subtree, moving under new arrows only the nodes of
  right sides of assignments to the signal.
-/

namespace SignalSugar

/-! ### Names that call no label -/

/-- A fresh name starts with `_`, so it is no label's name. -/
theorem Label.ofName_candidate (stem : String) (attempt : Nat) :
    Label.ofName? (Name.candidate stem attempt) = none := by
  have hhead : (Name.candidate stem attempt).toList.head? = some '_' := by
    unfold Name.candidate
    split <;> simp [String.toList_append]
  have hne : ∀ x : String, x.toList.head? = some '$' → Name.candidate stem attempt ≠ x := by
    intro x hx h
    rw [h, hx] at hhead
    cases hhead
  rw [Label.ofName?, if_neg (by simpa using hne "$signal" (by decide)),
    if_neg (by simpa using hne "$destructure" (by decide))]

theorem Label.ofName_generateUid (t : Scopes) (s : Nat) (hint : String) :
    Label.ofName? (t.generateUid s hint).2 = none :=
  Label.ofName_candidate _ _

/-! ### Rebuilt constructs -/

/-- Putting children back never turns a construct into a call. -/
theorem Kind.setChildren_ne_call {k : Kind} (hk : ∀ c args o, k ≠ .call c args o) (ns : List Node)
    (c : Node) (args : List Node) (o : Bool) : k.setChildren ns ≠ .call c args o := by
  cases k
  case objectPattern ps r => cases r <;> simp [Kind.setChildren]
  case arrayPattern es r => cases r <;> simp [Kind.setChildren]
  all_goals simp_all [Kind.setChildren]

/-- A rebuilt node is a built arrow exactly when the node was. -/
theorem Node.isBuiltArrow_setChildren (n : Node) (ns : List Node) :
    (n.withKind (n.kind.setChildren ns)).isBuiltArrow = n.isBuiltArrow := by
  rcases n with ⟨i, sp, sc, k⟩
  cases k
  case objectPattern ps r => cases r <;> rfl
  case arrayPattern es r => cases r <;> rfl
  all_goals rfl

theorem labelOf_eq_none_of_ne_call {n : Node} (h : ∀ c args o, n.kind ≠ .call c args o) :
    labelOf n = none := by
  unfold labelOf
  split
  · rename_i c args o hk
    exact absurd hk (h c args o)
  · rfl

/-- A call is a label call by its callee only. -/
theorem labelOf_withKind_call (n c : Node) (args : List Node) (o : Bool) :
    labelOf (n.withKind (.call c args o)) =
      match c.kind with
      | .ident x => Label.ofName? x
      | _ => none := rfl

/-- What a value directive becomes holds nothing read from the source. -/
theorem Directive.ids_replacement {d : Directive} {acc : Accessors} {k : Kind}
    (h : d.replacement acc = some k) : (k.children.map Child.node).flatMap Node.ids = [] := by
  cases d <;> simp only [Directive.replacement, Option.some.injEq, reduceCtorEq] at h <;> subst h <;>
    simp [Kind.children, Child.ofList, Child.ofHoles, Child.ofOption, identOf]

/-- What a value directive becomes is no arrow. -/
theorem Directive.ne_arrow_replacement {d : Directive} {acc : Accessors} {k : Kind}
    (h : d.replacement acc = some k) : ∀ ps b e a, k ≠ .arrow ps b e a := by
  cases d <;> simp only [Directive.replacement, Option.some.injEq, reduceCtorEq] at h <;> subst h <;>
    simp

/-- The only reference a directive becomes is to the write accessor. -/
theorem Directive.eq_write_of_replacement {d : Directive} {acc : Accessors} {k : Kind} {y : String}
    (h : d.replacement acc = some k) (hk : k = .ident y) : y = acc.write := by
  subst hk
  cases d <;> simp [Directive.replacement] at h
  exact h.symm

/-- What a value directive becomes calls no label, when the read accessor's name is no label's. -/
theorem Directive.labelOf_replacement {d : Directive} {acc : Accessors} {k : Kind} (n : Node)
    (hread : Label.ofName? acc.read = none) (h : d.replacement acc = some k) :
    labelOf (n.withKind k) = none := by
  cases d <;> simp only [Directive.replacement, Option.some.injEq, reduceCtorEq] at h <;> subst h
  · rfl
  · simpa [labelOf_withKind_call, identOf] using hread
  · rfl

/-! ### Right sides of assignments -/

/-- The ids of the nodes read from the source in the right side of an assignment to the name
`x` made by the node itself, if it is one (`x = e`, `x op= e`). -/
def Node.assignedHere (x : String) (n : Node) : List Nat :=
  match n.kind with
  | .assign _ left right =>
    match left.kind with
    | .ident y => if y = x then right.ids else []
    | _ => []
  | _ => []

/-- The ids of the nodes read from the source in the right sides of the assignments to the name
`x` in a subtree. -/
def Node.assignedIds (x : String) (n : Node) : List Nat :=
  n.assignedHere x ++ n.kind.children.flatMap fun c => assignedIds x c.node
termination_by sizeOf n
decreasing_by have := c.lt; have := Node.sizeOf_kind_lt n; omega

theorem Node.assignedIds_eq (x : String) (n : Node) :
    n.assignedIds x = n.assignedHere x ++ (n.kind.children.map Child.node).flatMap (assignedIds x) := by
  rw [assignedIds, List.flatMap_map]

/-- The right sides inside a child are inside its parent. -/
theorem Node.assignedIds_child {x : String} {n c : Node} (hc : c ∈ n.kind.children.map Child.node) :
    ∀ i ∈ c.assignedIds x, i ∈ n.assignedIds x := fun i hi => by
  rw [assignedIds_eq]
  exact List.mem_append_right _ (List.mem_flatMap.2 ⟨c, hc, hi⟩)

/-- The right side of an assignment to the target, when the node is one. -/
theorem Node.assignedIds_right {t : Target} {n left right : Node} {op : AssignOp}
    (hk : n.kind = .assign op left right) (hr : t.isReference left = true) :
    ∀ i ∈ right.ids, i ∈ n.assignedIds t.name := fun i hi => by
  rw [assignedIds_eq]
  refine List.mem_append_left _ ?_
  unfold Target.isReference at hr
  split at hr
  · rename_i y hy
    simp only [beq_iff_eq] at hr
    simp [assignedHere, hk, hy, hr, hi]
  · cases hr

/-! ### One step of the walk -/

section Walk

variable {t : Target} {acc : Accessors} {p : Place} {v : Bool} {n : Node} {st st' : Session}
  {w : Walked}

/-- The node a walk answers keeps the node's id. -/
theorem derefWalk_node_id (h : (derefWalk t acc p v n).run st = .ok (w, st')) :
    (w.node n).id = n.id := by
  cases derefWalk_step h <;> rfl

/-- The node a walk answers is a reference only where the node was that reference, or to the
write accessor. -/
theorem derefWalk_ident (h : (derefWalk t acc p v n).run st = .ok (w, st')) {y : String}
    (hy : (w.node n).kind = .ident y) : n.kind = .ident y ∨ y = acc.write := by
  cases derefWalk_step h with
  | shadowed => exact Or.inl hy
  | accessor => exact Or.inl hy
  | ident => exact Or.inl hy
  | directive _ _ _ _ hrep => exact Or.inr (Directive.eq_write_of_replacement hrep hy)
  | other _ _ hm =>
    obtain ⟨ns, rfl⟩ := Rewrite.run_mapChildrenM_setChildren hm
    exact Or.inl (Kind.eq_ident_of_setChildren hy)
  | _ => simp [Walked.node, updateOf, getterOf, setterOf] at hy <;> split at hy <;> cases hy

/-- A walk answering an accessor directive changed nothing. -/
theorem derefWalk_accessor {d : Directive} {c : Node}
    (h : (derefWalk t acc p v n).run st = .ok (.accessor d c, st')) : st' = st := by
  cases derefWalk_step h
  rfl

end Walk

/-- The node of an answer is one of the members it answers. -/
theorem Walked.node_sublist_members (w : Walked) (a : Node) : [w.node a].Sublist (w.members a) := by
  cases w with
  | done m after => exact List.cons_sublist_cons.2 (List.nil_sublist _)
  | accessor d c => exact List.Sublist.refl _

/-- A rebuilt node that is no arrow, of a node that is none either. -/
theorem Node.isBuiltArrow_withKind_of_ne {n : Node} {k : Kind} (hk : ∀ ps b e a, k ≠ .arrow ps b e a)
    (hn : ∀ ps b e a, n.kind ≠ .arrow ps b e a) : (n.withKind k).isBuiltArrow = n.isBuiltArrow := by
  rw [isBuiltArrow_eq_false (n := n.withKind k) hk, isBuiltArrow_eq_false hn]

/-- A property turned into accessors: its key is walked and the property rebuilt around it,
then it becomes `k`, whose children are the walked key and built nodes; the value is cut off. -/
theorem Reshaped.accessorProperty {X : List Nat} {n : Node} {p : Place} {key key' : Key}
    {value : Node} {sh : Bool} {k : Kind} {st s₁ s₂ st' : Session} (built : List Node)
    (hk : n.kind = .property key value sh) (hK : Reshaped X key.nodes key'.nodes st s₁)
    (hids : key'.nodes.map Node.id = key.nodes.map Node.id)
    (hmid : Reshaped X [n.withKind (.property key' value sh)] [n.withKind (.property key' value sh)]
      s₁ s₂)
    (hcut : (Rewrite.keepCut p n (n.withKind k)).run s₂ = .ok ((), st'))
    (hkc : k.children.map Child.node = key'.nodes ++ built) (hb : built.flatMap Node.ids = [])
    (hlabel : labelOf (n.withKind k) = none) (harrow : ∀ ps b e a, k ≠ .arrow ps b e a) :
    Reshaped X [n] [n.withKind k] st st' := by
  have h₁ : Reshaped X [n] [n.withKind (.property key' value sh)] st s₁ :=
    Reshaped.rebuild (by rw [hk]; simpa [Kind.children] using hK.append (Reshaped.refl X [value] s₁))
      (by simp [labelOf]) (Node.isBuiltArrow_withKind_of_ne (by simp) (by simp [hk]))
  have hkey : ((key.nodes ++ [value]).filter fun c => c.id != 0 && !(n.withKind k).hasId c.id) =
      [value].filter fun c => c.id != 0 && !(n.withKind k).hasId c.id := by
    rw [List.filter_append, List.filter_eq_nil_iff.2, List.nil_append]
    intro c hc
    by_cases h0 : c.id = 0
    · simp [h0]
    · obtain ⟨c', hc', hid⟩ : ∃ c' ∈ key'.nodes, c'.id = c.id := by
        have : c.id ∈ key'.nodes.map Node.id := hids ▸ List.mem_map_of_mem hc
        simpa using this
      have hmem : c' ∈ (n.withKind k).kind.children.map Child.node := by
        rw [Node.kind_withKind, hkc]
        exact List.mem_append_left _ hc'
      simp [← hid, Node.hasId_of_mem_children hmem (Node.hasId_self c')]
  have hch : n.kind.children.map Child.node = key.nodes ++ [value] := by
    rw [hk]
    simp [Kind.children]
  have h₂ : Reshaped X [n.withKind (.property key' value sh)]
      [(n.withKind (.property key' value sh)).withKind k] s₂ st' :=
    Reshaped.keepCut_drop key'.nodes [value] built (by simpa using hcut)
    (by simp [Kind.children]) hkc hb (by rw [hch]; simp only [Node.withKind_withKind]; rw [hkey]; exact List.filter_sublist)
    (by simp [hlabel]) (Node.isBuiltArrow_withKind_of_ne harrow (by simp))
  simpa using (h₁.trans_same hmid).trans_same h₂

section Reshaping

variable {t : Target} {acc : Accessors}

/-- **A walk reshapes its subtree**: it cuts off and keeps only nodes of the subtree, turns no
node into a label call, and moves under the arrows it builds only the nodes of the right sides of
assignments to the signal; provided the accessors' names are no label's. By induction along the
walk, one case for each branch it takes. -/
theorem derefWalk_reshaped (hread : Label.ofName? acc.read = none)
    (hwrite : Label.ofName? acc.write = none) (p : Place) (v : Bool) (n : Node) :
    ∀ {st w st'}, (derefWalk t acc p v n).run st = .ok (w, st') →
      Reshaped (n.assignedIds t.name) [n] (w.members n) st st' := by
  induction p, v, n using derefWalk.induct with
  | case1 p v n ihCallee ihArgs ihArg ihRight ihLeft ihValue ihKey ihProps ihChildren =>
  intro st w st' h
  have child : ∀ {c : Node} {q : Place} {s s' : Session} {cw : Walked},
      c ∈ n.kind.children.map Child.node →
      (∀ {s w s'}, (derefWalk t acc q false c).run s = .ok (w, s') →
        Reshaped (c.assignedIds t.name) [c] (w.members c) s s') →
      (derefWalk t acc q false c).run s = .ok (cw, s') →
      Reshaped (n.assignedIds t.name) [c] [cw.node c] s s' := fun hc ih hw =>
    ((ih hw).sublist (Walked.node_sublist_members _ _)).mono (Node.assignedIds_child hc)
  have keyStep : ∀ {key value sh key' s s'}, n.kind = .property key value sh →
      (derefKey t acc (p.child n .other) key).run s = .ok (key', s') →
      Reshaped (n.assignedIds t.name) key.nodes key'.nodes s s' ∧
        key'.nodes.map Node.id = key.nodes.map Node.id := by
    intro key value sh key' s s' hk hkey
    rcases run_derefKey hkey with ⟨e, ew, rfl, he, rfl⟩ | ⟨-, rfl, rfl⟩
    · exact ⟨child (by rw [hk]; simp [Kind.children, Key.nodes]) (ihKey _ _ _ hk e rfl) he,
        by simp [Key.nodes, derefWalk_node_id he]⟩
    · exact ⟨Reshaped.refl _ _ _, rfl⟩
  cases derefWalk_step h with
  | shadowed _ => exact Reshaped.refl _ _ _
  | accessor => exact Reshaped.refl _ _ _
  | ident => exact Reshaped.refl _ _ _
  | @call callee args o cw args' st₁ _ _ hk _ hc ha =>
    have hcallee : callee ∈ n.kind.children.map Child.node := by rw [hk]; simp [Kind.children]
    have h₁ := child hcallee (ihCallee _ _ _ hk) hc
    have h₂ : Reshaped (n.assignedIds t.name) args args' st₁ st' := by
      simpa using Reshaped.mapM_node id (fun a ha s b s' hb => by
        obtain ⟨aw, haw, rfl⟩ := run_derefNode.1 hb
        exact child (by rw [hk]; simp [Kind.children, ha]) (ihArgs _ _ _ hk a ha) haw) ha
    refine Reshaped.rebuild (by rw [hk]; simpa [Kind.children] using h₁.append h₂) ?_
      (Node.isBuiltArrow_withKind_of_ne (by simp) (by simp [hk]))
    intro hl
    rw [labelOf_withKind_call] at hl
    split at hl
    · rename_i y hy
      rcases derefWalk_ident hc hy with hy' | rfl
      · simpa [labelOf, hk, hy'] using hl
      · rw [hwrite] at hl
        cases hl
    · cases hl
  | @update op leading arg aw _ _ hk _ ha =>
    refine Reshaped.rebuild ?_ (by simp [labelOf])
      (Node.isBuiltArrow_withKind_of_ne (by simp) (by simp [hk]))
    rw [hk]
    simpa [Kind.children] using child (by rw [hk]; simp [Kind.children]) (ihArg _ _ _ hk) ha
  | @assign op left right lw rw st₁ _ _ hk _ hl hr =>
    have h₁ := child (by rw [hk]; simp [Kind.children]) (ihLeft _ _ _ hk) hl
    have h₂ := child (by rw [hk]; simp [Kind.children]) (ihRight _ _ _ hk) hr
    refine Reshaped.rebuild ?_ (by simp [labelOf])
      (Node.isBuiltArrow_withKind_of_ne (by simp) (by simp [hk]))
    rw [hk]
    simpa [Kind.children] using h₁.append h₂
  | identRef _ hk _ =>
    refine Reshaped.drop_children (by simp [Kind.children, Child.ofList, identOf]) ?_
    simp [labelOf_withKind_call, identOf, hread]
  | @updateRef op leading arg cur _ _ hk _ hu =>
    refine (Reshaped.drop_children ?_ ?_).trans_same (Reshaped.uidIn hu)
    · cases leading <;> simp [updateOf, Kind.children, Child.ofList, identOf, arrowOf, arrowBlock,
        bindingOf, callOf, returnOf, one]
    · cases leading <;> simp [updateOf, labelOf_withKind_call, identOf, arrowBlock, hwrite]
  | @directive callee args o d k _ _ hk _ _ hrep hcut =>
    refine Reshaped.keepCut_drop [] (n.kind.children.map Child.node) (k.children.map Child.node)
      hcut rfl rfl ?_ (List.filter_sublist) ?_ ?_
    · exact Directive.ids_replacement hrep
    · intro hl
      rw [Directive.labelOf_replacement n hread hrep] at hl
      cases hl
    · exact Node.isBuiltArrow_withKind_of_ne (Directive.ne_arrow_replacement hrep) (by simp [hk])
  | @assignPlain left right rw _ _ hk hr hw =>
    refine Reshaped.moveUnderArrow ((ihRight _ _ _ hk hw).sublist (Walked.node_sublist_members _ _))
      (by rw [hk]; simp [Kind.children]) ?_ ?_ ?_ (Node.assignedIds_right hk hr)
    · simp [Kind.children, Child.ofList, identOf, arrowOf]
    · intro a s
      simp [Kind.children, Child.ofList, identOf, arrowOf, Node.standings_built, Node.isBuiltArrow]
    · simp [labelOf_withKind_call, identOf, hwrite]
  | @assignBinary b left right rw st₁ cur _ _ hk hr hw hu =>
    refine Reshaped.moveUnderArrow
      (((ihRight _ _ _ hk hw).sublist (Walked.node_sublist_members _ _)).trans_same
        (Reshaped.uidIn hu)) (by rw [hk]; simp [Kind.children]) ?_ ?_ ?_
      (Node.assignedIds_right hk hr)
    · simp [Kind.children, Child.ofList, identOf, arrowOf, bindingOf]
    · intro a s
      simp [Kind.children, Child.ofList, identOf, arrowOf, bindingOf, Node.standings_built,
        Node.isBuiltArrow]
    · simp [labelOf_withKind_call, identOf, hwrite]
  | @assignLogical l left right rw st₁ cur _ _ hk hr hw hu =>
    refine Reshaped.moveUnderArrow
      (((ihRight _ _ _ hk hw).sublist (Walked.node_sublist_members _ _)).trans_same
        (Reshaped.uidIn hu)) (by rw [hk]; simp [Kind.children]) ?_ ?_ ?_
      (Node.assignedIds_right hk hr)
    · simp [Kind.children, Child.ofList, identOf, arrowOf, bindingOf]
    · intro a s
      simp [Kind.children, Child.ofList, identOf, arrowOf, bindingOf, Node.standings_built,
        Node.isBuiltArrow]
    · simp [labelOf_withKind_call, identOf, hwrite]
  | @object props props' _ _ hk hm =>
    have h₁ : Reshaped (n.assignedIds t.name) props props'.flatten st st' :=
      Reshaped.mapM_members (fun q hq s bs s' hb => by
        obtain ⟨qw, hqw, rfl⟩ := run_derefMember.1 hb
        exact (ihProps _ hk q hq hqw).mono
          (Node.assignedIds_child (by rw [hk]; simp [Kind.children, hq]))) hm
    refine Reshaped.rebuild (by rw [hk]; simpa [Kind.children] using h₁) (by simp [labelOf])
      (Node.isBuiltArrow_withKind_of_ne (by simp) (by simp [hk]))
  | @other k' _ _ hsp hm =>
    have h₁ := Reshaped.mapM_node Child.node (fun c hc s b s' hb => by
      obtain ⟨cw, hcw, rfl⟩ := run_derefNode.1 hb
      exact child (List.mem_map_of_mem hc) (ihChildren c.node c.role c.lt) hcw)
      (Rewrite.run_mapChildrenM_ok hm)
    obtain ⟨ns, rfl⟩ := Rewrite.run_mapChildrenM_setChildren hm
    have hcall : ∀ c args o, n.kind ≠ .call c args o := by
      intro c args o hk
      simp [hk, Kind.derefSpecial] at hsp
    refine Reshaped.rebuild h₁ ?_ (Node.isBuiltArrow_setChildren n ns)
    have hnone : labelOf (n.withKind (n.kind.setChildren ns)) = none :=
      labelOf_eq_none_of_ne_call (n := n.withKind (n.kind.setChildren ns))
        (Kind.setChildren_ne_call hcall ns)
    simp [hnone]
  | @property key value sh key' st₁ vn after _ _ hk hkey hv =>
    obtain ⟨hK, -⟩ := keyStep hk hkey
    have hV := ((ihValue _ _ _ hk hv).sublist (Walked.node_sublist_members _ _)).mono
      (Node.assignedIds_child (c := value) (by rw [hk]; simp [Kind.children]))
    refine Reshaped.rebuild ?_ (by simp [labelOf])
      (Node.isBuiltArrow_withKind_of_ne (by simp) (by simp [hk]))
    rw [hk]
    simpa [Kind.children, Walked.node] using hK.append hV
  | @propertyGetter key value sh key' st₁ c st₂ _ _ hk hkey hv hcut =>
    obtain ⟨hK, hids⟩ := keyStep hk hkey
    obtain rfl := derefWalk_accessor hv
    exact Reshaped.accessorProperty [Node.make (.block [returnOf (callOf acc.read [])])]
      hk hK hids (Reshaped.refl _ _ _) hcut (by simp [getterOf, Kind.children])
      (by simp [Kind.children, Child.ofList, Child.ofOption, returnOf, callOf])
      (by simp [labelOf, getterOf]) (by simp [getterOf])
  | @propertySetter key value sh key' st₁ c st₂ val st₃ _ _ hk hkey hv hu hcut =>
    obtain ⟨hK, hids⟩ := keyStep hk hkey
    obtain rfl := derefWalk_accessor hv
    exact Reshaped.accessorProperty [bindingOf val,
        Node.make (.block [returnOf (callOf acc.write [arrowOf [] (identOf val)])])]
      hk hK hids (Reshaped.uidIn hu) hcut (by simp [setterOf, Kind.children])
      (by simp [Kind.children, Child.ofList, Child.ofOption, returnOf, callOf, arrowOf, identOf,
        bindingOf]) (by simp [labelOf, setterOf]) (by simp [setterOf])
  | @propertyBoth key value sh key' st₁ d c st₂ val st₃ _ _ hk hkey hv _ _ hu hcut =>
    obtain ⟨hK, hids⟩ := keyStep hk hkey
    obtain rfl := derefWalk_accessor hv
    refine (Reshaped.accessorProperty [Node.make (.block [returnOf (callOf acc.read [])])]
      hk hK hids (Reshaped.uidIn hu) hcut (by simp [getterOf, Kind.children])
      (by simp [Kind.children, Child.ofList, Child.ofOption, returnOf, callOf])
      (by simp [labelOf, getterOf]) (by simp [getterOf])).append_fresh ?_
    rw [Node.ids_eq]
    simp [setterOf, Kind.children, Child.ofList, Child.ofOption, returnOf, callOf, arrowOf,
      identOf, bindingOf]

end Reshaping

end SignalSugar
