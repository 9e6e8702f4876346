import SignalSugar.Proofs.Shielding
import SignalSugar.Proofs.DerefStructure
import SignalSugar.Proofs.LabelSites
/-!
# Write positions

A reference is written when it is the left of an assignment, the operand of `++` or `--`, or
the head of a `for … in` or `for … of`, either itself or as a leaf of a destructuring pattern
standing there. A leaf of a pattern is reached from the pattern through object and array
patterns, rest elements, the values of binding properties and the lefts of defaults; a default
value, a computed key or the object of a member is no way down to a leaf. `WritePosition`
says this of a node's ancestors, each with the role of the child it holds, and
`isWritten_iff_writePosition` proves that `isWritten`, which climbs the ancestors, decides it.

A walk for a binding reaches a node when no node from where it starts down to that node is
pruned (`WalkReaches`). Replacing each reference the walk reaches by an accessor call fails
exactly when one of them is written, and otherwise puts the call in place of every one of them
(`substituteReached`); renaming never fails.

## Main results

* `isWritten_iff_writePosition`: the classification of write positions.
* `run_normalizeWalk_clean`, `run_normalizeWalk_written`: what a walk answers, and when it fails.
* `normalizeAt_fails_iff_written`: the same for the pass over the node an owner names.
-/

namespace SignalSugar

/-! ### Write positions -/

instance : LawfulBEq Role where
  eq_of_beq {r r'} := by cases r <;> cases r' <;> decide
  rfl {r} := by cases r <;> decide

/-- One step up from a leaf of a destructuring target to the pattern around it: any child of
an object pattern, an array pattern or a rest element, the value of a binding property, the
left of a default. -/
inductive LeafStep : Node × Role → Prop
  | objectPattern {a : Node} {props : List Node} {rest : Option Node} (r : Role) :
      a.kind = .objectPattern props rest → LeafStep (a, r)
  | arrayPattern {a : Node} {elements : List (Option Node)} {rest : Option Node} (r : Role) :
      a.kind = .arrayPattern elements rest → LeafStep (a, r)
  | rest {a arg : Node} (r : Role) : a.kind = .rest arg → LeafStep (a, r)
  | propertyValue {a : Node} {key : Key} {value : Node} {shorthand : Bool} :
      a.kind = .bindingProperty key value shorthand → LeafStep (a, .value)
  | defaultTarget {a left right : Node} : a.kind = .assignPattern left right → LeafStep (a, .target)

/-- A construct that writes its child in the role: the left of an assignment, the operand of
an update, the head of a `for … in` or `for … of`. -/
inductive WriteSite : Node × Role → Prop
  | assign {a : Node} {op : AssignOp} {left right : Node} :
      a.kind = .assign op left right → WriteSite (a, .target)
  | update {a : Node} {op : UpdateOp} {leading : Bool} {arg : Node} :
      a.kind = .update op leading arg → WriteSite (a, .operand)
  | forIn {a left right body : Node} : a.kind = .forIn left right body → WriteSite (a, .target)
  | forOf {a left right body : Node} {isAwait : Bool} :
      a.kind = .forOf left right body isAwait → WriteSite (a, .target)

/-- A node whose ancestors are `as`, its parent first, is in write position: above it stand
steps up through a pattern's leaves, then a construct writing what it holds there. -/
def WritePosition (as : List (Node × Role)) : Prop :=
  ∃ leaf site above, as = leaf ++ site :: above ∧ (∀ s ∈ leaf, LeafStep s) ∧ WriteSite site

theorem not_writePosition_nil : ¬WritePosition [] := by
  rintro ⟨leaf, site, above, h, -, -⟩
  simp at h

theorem writePosition_cons {s : Node × Role} {as : List (Node × Role)} :
    WritePosition (s :: as) ↔ WriteSite s ∨ LeafStep s ∧ WritePosition as := by
  constructor
  · rintro ⟨_ | ⟨s', leaf⟩, site, above, h, hleaf, hsite⟩
    · obtain ⟨rfl, -⟩ := List.cons.inj h
      exact .inl hsite
    · obtain ⟨rfl, rfl⟩ := List.cons.inj h
      exact .inr ⟨hleaf s List.mem_cons_self,
        leaf, site, above, rfl, fun x hx => hleaf x (List.mem_cons_of_mem s hx), hsite⟩
  · rintro (hsite | ⟨hs, leaf, site, above, rfl, hleaf, hsite⟩)
    · exact ⟨[], s, as, rfl, by simp, hsite⟩
    · refine ⟨s :: leaf, site, above, rfl, ?_, hsite⟩
      simpa [hs] using hleaf

/-- One step of `isWritten`: the parent writes the node, or it is a step up from a leaf and
the parent is written. -/
theorem isWritten_cons {a : Node} {r : Role} {as : List (Node × Role)} :
    isWritten ((a, r) :: as) = true ↔ WriteSite (a, r) ∨ LeafStep (a, r) ∧ isWritten as = true := by
  constructor
  · intro h
    rw [isWritten] at h
    split at h <;> rename_i heq
    · rw [beq_iff_eq.1 h]
      exact .inl (.assign heq)
    · rw [beq_iff_eq.1 h]
      exact .inl (.update heq)
    · rw [beq_iff_eq.1 h]
      exact .inl (.forIn heq)
    · rw [beq_iff_eq.1 h]
      exact .inl (.forOf heq)
    · exact .inr ⟨.objectPattern r heq, h⟩
    · exact .inr ⟨.arrayPattern r heq, h⟩
    · exact .inr ⟨.rest r heq, h⟩
    · obtain ⟨hr, h⟩ := Bool.and_eq_true_iff.1 h
      rw [beq_iff_eq.1 hr]
      exact .inr ⟨.propertyValue heq, h⟩
    · obtain ⟨hr, h⟩ := Bool.and_eq_true_iff.1 h
      rw [beq_iff_eq.1 hr]
      exact .inr ⟨.defaultTarget heq, h⟩
    · cases h
  · rintro (hs | ⟨hs, hw⟩)
    · cases hs <;> simp [isWritten, *]
    · cases hs <;> simp [isWritten, *]

/-- **Write positions are classified exactly**: `isWritten` holds of a node's ancestors just
when the node is in write position. -/
theorem isWritten_iff_writePosition {as : List (Node × Role)} :
    isWritten as = true ↔ WritePosition as := by
  induction as with
  | nil => simp [isWritten, not_writePosition_nil]
  | cons s as ih =>
    obtain ⟨a, r⟩ := s
    rw [isWritten_cons, writePosition_cons, ih]

/-! ### Runs that keep the session -/

namespace Rewrite

variable {α β : Type} {st : Session}

theorem run_bind_of_error {x : Rewrite α} {f : α → Rewrite β} {e : RewriteError}
    (h : x.run st = .error e) : (x >>= f).run st = .error e := by
  rw [StateT.run_bind, h]
  rfl

/-- A `mapM` whose every step answers from the session without changing it answers the list
of those answers. -/
theorem run_mapM_of_forall {l : List α} {f : α → Rewrite β} {g : α → β}
    (h : ∀ a ∈ l, (f a).run st = .ok (g a, st)) : (l.mapM f).run st = .ok (l.map g, st) := by
  induction l with
  | nil => rfl
  | cons a l ih =>
    rw [List.mapM_cons, List.map_cons]
    exact run_bind_ok.2 ⟨g a, st, h a List.mem_cons_self,
      run_bind_ok.2 ⟨l.map g, st, ih fun a' ha' => h a' (List.mem_cons_of_mem a ha'), rfl⟩⟩

/-- A `mapM` whose every step either answers without changing the session or fails with an
error of the kind `E` fails with such an error as soon as one step does. -/
theorem run_mapM_error_of_exists {l : List α} {f : α → Rewrite β} (E : RewriteError → Prop)
    (h : ∀ a ∈ l, (∃ b, (f a).run st = .ok (b, st)) ∨ ∃ e, E e ∧ (f a).run st = .error e)
    (hfail : ∃ a ∈ l, ∃ e, E e ∧ (f a).run st = .error e) :
    ∃ e, E e ∧ (l.mapM f).run st = .error e := by
  induction l with
  | nil =>
    obtain ⟨a, ha, -⟩ := hfail
    cases ha
  | cons a l ih =>
    rw [List.mapM_cons]
    rcases h a List.mem_cons_self with ⟨b, hb⟩ | ⟨e, he, ha⟩
    · have hl : ∃ a' ∈ l, ∃ e, E e ∧ (f a').run st = .error e := by
        obtain ⟨a', ha', hf'⟩ := hfail
        rcases List.mem_cons.1 ha' with rfl | ha'
        · obtain ⟨e, -, he⟩ := hf'
          rw [hb] at he
          cases he
        · exact ⟨a', ha', hf'⟩
      obtain ⟨e, he, hle⟩ := ih (fun a' ha' => h a' (List.mem_cons_of_mem a ha')) hl
      refine ⟨e, he, ?_⟩
      rw [StateT.run_bind, hb]
      show (l.mapM f >>= fun bs => pure (b :: bs)).run st = _
      exact run_bind_of_error hle
    · exact ⟨e, he, run_bind_of_error ha⟩

end Rewrite

/-! ### Rewriting the node an id names, when the rewrite fails -/

namespace Node

variable {x : Nat}

/-- In a tree whose source ids are distinct, a step that fails on the node `find` answers makes
the rewrite of the tree fail the same way: the subtrees passed on the way hold no such id and
are kept as they are. -/
theorem run_updateAt_error {f : Place → Node → Rewrite Node} (hx0 : x ≠ 0) {m : Node}
    {q : Place} {e : RewriteError} {st : Session} (hf : (f q m).run st = .error e) (p : Place)
    (n : Node) (hd : n.ids.Nodup) (hfind : n.find x p = some (m, q)) :
    (n.updateAt x f p).run st = .error e := by
  induction p, n using updateAt.induct x with
  | case1 p n hx =>
    rw [find, if_pos hx] at hfind
    cases hfind
    rw [updateAt, if_pos hx]
    exact hf
  | case2 p n hx hno =>
    simp [hasId_of_find hfind] at hno
  | case3 p n hx hno ih =>
    rw [updateAt, if_neg hx, if_neg hno]
    have hchild : ∀ c ∈ n.kind.children,
        (∃ b, (c.node.updateAt x f (p.child n c.role)).run st = .ok (b, st)) ∨
          ∃ e', e' = e ∧ (c.node.updateAt x f (p.child n c.role)).run st = .error e' := by
      intro c hc
      by_cases hcx : c.node.hasId x = true
      · obtain ⟨m', q', hm'⟩ := find_of_hasId (p := p.child n c.role) hcx
        have hsame := find_of_child hd hx0 (by simpa using hx) hc hm'
        rw [hfind] at hsame
        rw [← hsame] at hm'
        exact .inr ⟨e, rfl, ih c.node c.role c.lt
          (hd.sublist (ids_sublist_of_mem_children (List.mem_map_of_mem hc))) hm'⟩
      · have hid : ¬(c.node.id == x) = true := fun h => hcx (by rw [hasId]; simp [h])
        refine .inl ⟨c.node, ?_⟩
        rw [updateAt, if_neg hid, if_pos (by simpa using hcx)]
        rfl
    rw [find, if_neg hx] at hfind
    obtain ⟨c, hc, hcf⟩ := List.exists_of_findSome?_eq_some hfind
    obtain ⟨e', rfl, he⟩ := Rewrite.run_mapM_error_of_exists (· = e) hchild
      ⟨c, hc, e, rfl, ih c.node c.role c.lt
        (hd.sublist (ids_sublist_of_mem_children (List.mem_map_of_mem hc))) hcf⟩
    rw [Kind.mapChildrenM_eq, StateT.run_bind, StateT.run_map, he]
    rfl

end Node

namespace Rewrite

/-- A rewrite of the program's tree from its top that fails, for a node the program holds, is a
failed rewrite of that node. -/
theorem run_updateAt_error_of_root {f : Place → Node → Rewrite Node} {x : Nat} {st : Session}
    {e : RewriteError} (hx : st.root.hasId x = true)
    (h : (st.root.updateAt x f Place.top).run st = .error e) : (updateAt x f).run st = .error e := by
  have hin : (inTreeOf x fun p t => t.updateAt x f p) st = .error e := by
    change (inTreeOf x fun p t => t.updateAt x f p).run st = _
    rw [inTreeOf, StateT.run_bind, StateT.run_get, pure_bind, if_pos hx, StateT.run_bind, h]
    rfl
  simp only [updateAt, Functor.discard, Functor.mapConst, Function.comp_apply, StateT.run,
    StateT.map]
  rw [hin]
  rfl

end Rewrite

/-! ### The walk's steps -/

section Steps

variable {t : Target} {sub : Substitution} {p : Place} {n : Node} {st : Session}

theorem run_normalizeWalk_pruned (hs : t.shadowedIn st.scopes (p.scopeOf n) = true) :
    (normalizeWalk t sub p n).run st = .ok (n, st) := by
  rw [normalizeWalk.eq_def, StateT.run_bind, StateT.run_get, pure_bind, if_pos hs]
  rfl

/-- At a reference the walk reaches, an accessor call fails exactly when the reference is
written. -/
theorem run_normalizeWalk_invoke {f : String} (hs : t.shadowedIn st.scopes (p.scopeOf n) = false)
    (hr : t.isReference n = true) :
    (normalizeWalk t (.invoke f) p n).run st =
      if isWritten p.ancestors then .error (.readOnly t.name n.span)
      else .ok (n.withKind (Substitution.invoke f).construct, st) := by
  rw [normalizeWalk.eq_1, StateT.run_bind, StateT.run_get, pure_bind, if_neg (by simp [hs]),
    if_pos hr, Bool.true_and]
  split_ifs <;> rfl

/-- At a reference the walk reaches, a renaming always succeeds. -/
theorem run_normalizeWalk_reference {o : String} (hs : t.shadowedIn st.scopes (p.scopeOf n) = false)
    (hr : t.isReference n = true) :
    (normalizeWalk t (.reference o) p n).run st =
      .ok (n.withKind (Substitution.reference o).construct, st) := by
  rw [normalizeWalk.eq_2 _ _ _ _ (by simp), StateT.run_bind, StateT.run_get, pure_bind,
    if_neg (by simp [hs]), if_pos hr]
  rfl

/-- Elsewhere where it is not pruned, the walk rebuilds the node from the walks of its
children. -/
theorem run_normalizeWalk_children (hs : t.shadowedIn st.scopes (p.scopeOf n) = false)
    (hr : t.isReference n = false) :
    (normalizeWalk t sub p n).run st =
      (fun r => (n.withKind (n.kind.setChildren r.1), r.2)) <$>
        (n.kind.children.mapM fun c => normalizeWalk t sub (p.child n c.role) c.node).run st := by
  rw [normalizeWalk.eq_def, StateT.run_bind, StateT.run_get, pure_bind, if_neg (by simp [hs]),
    if_neg (by simp [hr]), StateT.run_bind, Kind.mapChildrenM_eq, StateT.run_map]
  cases (n.kind.children.mapM fun c => normalizeWalk t sub (p.child n c.role) c.node).run st <;> rfl

end Steps

/-! ### What a walk reaches -/

/-- `WalkReaches T t p n q m`: the walk for `t` from `n`, standing at `p`, reaches `m`, standing
at `q`: no node on the way down from `n` to `m`, both included, is pruned. -/
inductive WalkReaches (T : Scopes) (t : Target) : Place → Node → Place → Node → Prop
  | here {p : Place} {n : Node} : t.shadowedIn T (p.scopeOf n) = false → WalkReaches T t p n p n
  | child {p q : Place} {n m : Node} {c : Child n.kind} : t.shadowedIn T (p.scopeOf n) = false →
      c ∈ n.kind.children → WalkReaches T t (p.child n c.role) c.node q m → WalkReaches T t p n q m

/-- The walk for `t` from `n`, standing at `p`, reaches a reference to `t` in write position. -/
def WriteReached (T : Scopes) (t : Target) (p : Place) (n : Node) : Prop :=
  ∃ q m, WalkReaches T t p n q m ∧ t.isReference m = true ∧ WritePosition q.ancestors

/-- The subtree `n`, standing at `p`, with every reference to `t` that the walk reaches put in
`sub`'s construct. -/
def substituteReached (T : Scopes) (t : Target) (sub : Substitution) (p : Place) (n : Node) : Node :=
  if t.shadowedIn T (p.scopeOf n) then n
  else if t.isReference n then n.withKind sub.construct
  else n.withKind (n.kind.setChildren (n.kind.children.map fun c =>
    substituteReached T t sub (p.child n c.role) c.node))
termination_by sizeOf n
decreasing_by have := c.lt; have := Node.sizeOf_kind_lt n; omega

section Reached

variable {T : Scopes} {t : Target} {p : Place} {n : Node}

/-- A written reference is reached at the node itself or in one of its children. -/
theorem writeReached_iff : WriteReached T t p n ↔ t.shadowedIn T (p.scopeOf n) = false ∧
    (t.isReference n = true ∧ WritePosition p.ancestors ∨
      ∃ c ∈ n.kind.children, WriteReached T t (p.child n c.role) c.node) := by
  constructor
  · rintro ⟨q, m, hR, hr, hw⟩
    cases hR with
    | here hs => exact ⟨hs, .inl ⟨hr, hw⟩⟩
    | child hs hc hR => exact ⟨hs, .inr ⟨_, hc, q, m, hR, hr, hw⟩⟩
  · rintro ⟨hs, ⟨hr, hw⟩ | ⟨c, hc, q, m, hR, hr, hw⟩⟩
    · exact ⟨p, n, .here hs, hr, hw⟩
    · exact ⟨q, m, .child hs hc hR, hr, hw⟩

theorem writeReached_of_child (hs : t.shadowedIn T (p.scopeOf n) = false) {c : Child n.kind}
    (hc : c ∈ n.kind.children) (h : WriteReached T t (p.child n c.role) c.node) :
    WriteReached T t p n :=
  writeReached_iff.2 ⟨hs, .inr ⟨c, hc, h⟩⟩

end Reached

/-! ### The walk -/

section Walk

variable {t : Target} {sub : Substitution}

/-- **A walk that reaches no written reference succeeds**, or one that renames: it answers the
subtree with every reference it reaches substituted, and leaves the session as it was. -/
theorem run_normalizeWalk_clean (p : Place) (n : Node) :
    ∀ {st}, (∀ f, sub = .invoke f → ¬WriteReached st.scopes t p n) →
      (normalizeWalk t sub p n).run st = .ok (substituteReached st.scopes t sub p n, st) := by
  induction p, n using normalizeWalk.induct with
  | _ p n ih =>
  intro st hclean
  rw [substituteReached]
  by_cases hs : t.shadowedIn st.scopes (p.scopeOf n) = true
  · rw [if_pos hs, run_normalizeWalk_pruned hs]
  rw [if_neg hs]
  replace hs := Bool.eq_false_iff.2 hs
  by_cases hr : t.isReference n = true
  · rw [if_pos hr]
    cases sub with
    | invoke f =>
      have hw : isWritten p.ancestors = false := by
        refine Bool.eq_false_iff.2 fun hw => hclean f rfl ?_
        exact writeReached_iff.2 ⟨hs, .inl ⟨hr, isWritten_iff_writePosition.1 hw⟩⟩
      rw [run_normalizeWalk_invoke hs hr, if_neg (by simp [hw])]
    | reference o => rw [run_normalizeWalk_reference hs hr]
  · replace hr := Bool.eq_false_iff.2 hr
    rw [if_neg (by simp [hr]), run_normalizeWalk_children hs hr,
      Rewrite.run_mapM_of_forall fun c hc => ih c.node c.role c.lt fun f hf hw =>
        hclean f hf (writeReached_of_child hs hc hw)]
    rfl

/-- **A walk that calls an accessor fails at a written reference it reaches**, naming the
binding. -/
theorem run_normalizeWalk_written (f : String) (p : Place) (n : Node) :
    ∀ {st}, WriteReached st.scopes t p n →
      ∃ sp, (normalizeWalk t (.invoke f) p n).run st = .error (.readOnly t.name sp) := by
  induction p, n using normalizeWalk.induct with
  | _ p n ih =>
  intro st hw
  obtain ⟨hs, ⟨hr, hpos⟩ | ⟨c, hc, hcw⟩⟩ := writeReached_iff.1 hw
  · exact ⟨n.span, by rw [run_normalizeWalk_invoke hs hr, if_pos (isWritten_iff_writePosition.2 hpos)]⟩
  · have hr : t.isReference n = false := by
      refine Bool.eq_false_iff.2 fun hr => ?_
      rw [Target.children_eq_nil_of_isReference hr] at hc
      cases hc
    have hkids : ∀ c ∈ n.kind.children,
        (∃ b, (normalizeWalk t (.invoke f) (p.child n c.role) c.node).run st = .ok (b, st)) ∨
          ∃ e, (∃ sp, e = .readOnly t.name sp) ∧
            (normalizeWalk t (.invoke f) (p.child n c.role) c.node).run st = .error e := by
      intro c _
      by_cases hcw : WriteReached st.scopes t (p.child n c.role) c.node
      · obtain ⟨sp, hsp⟩ := ih c.node c.role c.lt hcw
        exact .inr ⟨_, ⟨sp, rfl⟩, hsp⟩
      · exact .inl ⟨_, run_normalizeWalk_clean _ _ fun _ _ => hcw⟩
    obtain ⟨e, ⟨sp, rfl⟩, he⟩ := Rewrite.run_mapM_error_of_exists _ hkids
      ⟨c, hc, _, ⟨_, rfl⟩, (ih c.node c.role c.lt hcw).choose_spec⟩
    refine ⟨sp, ?_⟩
    rw [run_normalizeWalk_children hs hr, he]
    rfl

end Walk

/-! ### The pass over a node -/

section Pass

variable {st : Session} {owner : Nat} {x : String} {n : Node} {q : Place}

/-- Over a program whose source ids are distinct, the pass for the binding of `x` in the scope
of the node `owner` names fails as the walk from that node fails; and what the walk answers
stands in the new program, at the node's scope. -/
theorem normalizeAt_of_walk (hids : st.root.ids.Nodup) (h0 : owner ≠ 0)
    (hfind : st.root.find owner Place.top = some (n, q)) (sub : Substitution) :
    (∀ e, (normalizeWalk ⟨q.scopeOf n, x⟩ sub q n).run st = .error e →
      (Rewrite.normalizeAt owner sub x).run st = .error e) ∧
    (∀ r, (normalizeWalk ⟨q.scopeOf n, x⟩ sub q n).run st = .ok (r, st) →
      ∃ st', (Rewrite.normalizeAt owner sub x).run st = .ok ((), st') ∧
        Occurs 0 st'.root q.scope r) := by
  have hwalk : (Rewrite.normalizeAt owner sub x).run st =
      (Rewrite.updateAt owner fun p m => normalizeWalk ⟨q.scopeOf n, x⟩ sub p m).run st := by
    rw [Rewrite.normalizeAt, StateT.run_bind, Rewrite.run_targetAt hfind]
    rfl
  refine ⟨fun e he => ?_, fun r hr => ?_⟩
  · rw [hwalk]
    exact Rewrite.run_updateAt_error_of_root (Node.hasId_of_find hfind)
      (Node.run_updateAt_error h0 he Place.top st.root hids hfind)
  · obtain ⟨root', st₁, hup, hst₁⟩ := Node.run_updateAt_ok
      (f := fun q' m => normalizeWalk ⟨q.scopeOf n, x⟩ sub q' m) (· = st) h0 Place.top st.root hids
      (fun m q' s hs hf => by
        rw [hfind] at hf
        obtain ⟨rfl, rfl⟩ := Prod.mk.inj (Option.some.inj hf)
        subst hs
        exact ⟨r, s, hr, rfl⟩) rfl
    rw [hst₁] at hup
    obtain ⟨-, hfound⟩ := Node.run_updateAt (· = st)
      (fun q' m r' => (normalizeWalk ⟨q.scopeOf n, x⟩ sub q' m).run st = .ok (r', st))
      (fun q' m s r' s' hs hr' => by
        subst hs
        obtain rfl := normalizeWalk_session _ _ hr'
        exact ⟨rfl, hr'⟩)
      Place.top st.root rfl hup
    obtain ⟨r', hocc, hr'⟩ := hfound n q hfind
    rw [hr] at hr'
    obtain rfl : r = r' := (Prod.mk.inj (Except.ok.inj hr')).1
    exact ⟨{ st with root := root' },
      by rw [hwalk]; exact Rewrite.run_updateAt_of_root (Node.hasId_of_find hfind) hup, hocc⟩

/-- **Write positions are classified exactly, and a pass fails just at them.** `isWritten`
holds of a node's ancestors exactly when the node is in write position. Over a program whose
source ids are distinct, take the node `owner` names. The pass replacing the references to the
binding of `x` in its scope by calls of `f` fails, naming `x`, exactly when its walk reaches a
written reference; otherwise it succeeds and puts every reference the walk reaches in a call of
`f`. The pass renaming them to `o` never fails, and renames every one it reaches, written or
not. -/
theorem normalizeAt_fails_iff_written (hids : st.root.ids.Nodup) (h0 : owner ≠ 0)
    (hfind : st.root.find owner Place.top = some (n, q)) :
    (∀ as, isWritten as = true ↔ WritePosition as) ∧
    (∀ f, ((∃ sp, (Rewrite.normalizeAt owner (.invoke f) x).run st = .error (.readOnly x sp)) ↔
        WriteReached st.scopes ⟨q.scopeOf n, x⟩ q n) ∧
      (¬WriteReached st.scopes ⟨q.scopeOf n, x⟩ q n →
        ∃ st', (Rewrite.normalizeAt owner (.invoke f) x).run st = .ok ((), st') ∧
          Occurs 0 st'.root q.scope
            (substituteReached st.scopes ⟨q.scopeOf n, x⟩ (.invoke f) q n))) ∧
    ∀ o, ∃ st', (Rewrite.normalizeAt owner (.reference o) x).run st = .ok ((), st') ∧
      Occurs 0 st'.root q.scope
        (substituteReached st.scopes ⟨q.scopeOf n, x⟩ (.reference o) q n) := by
  refine ⟨fun _ => isWritten_iff_writePosition, fun f => ⟨⟨fun hfail => ?_, fun hw => ?_⟩,
    fun hw => ?_⟩, fun o => ?_⟩
  · obtain ⟨sp, hsp⟩ := hfail
    by_contra hw
    obtain ⟨st', hok, -⟩ := (normalizeAt_of_walk hids h0 hfind _).2 _
      (run_normalizeWalk_clean q n fun _ _ => hw)
    rw [hok] at hsp
    cases hsp
  · obtain ⟨sp, hsp⟩ := run_normalizeWalk_written f q n hw
    exact ⟨sp, (normalizeAt_of_walk hids h0 hfind _).1 _ hsp⟩
  · exact (normalizeAt_of_walk hids h0 hfind _).2 _ (run_normalizeWalk_clean q n fun _ _ => hw)
  · exact (normalizeAt_of_walk hids h0 hfind _).2 _
      (run_normalizeWalk_clean q n fun _ hf => by cases hf)

end Pass

/-- The module `let a; [a = b] = c;` as read: `a` is the left of a default in a pattern that is
assigned to. -/
def defaultTargetModule : Node :=
  .mk 1 ⟨0, 0⟩ none (.program [
    .mk 2 ⟨0, 0⟩ none (.varDecl .let
      [.mk 3 ⟨0, 0⟩ none (.declarator (.mk 4 ⟨0, 0⟩ none (.bindingIdent "a")) none)]),
    .mk 5 ⟨0, 0⟩ none (.exprStmt (.mk 6 ⟨0, 0⟩ none (.assign .plain
      (.mk 7 ⟨0, 0⟩ none (.arrayPattern [some (.mk 8 ⟨0, 0⟩ none
        (.assignPattern (.mk 9 ⟨0, 0⟩ none (.ident "a")) (.mk 10 ⟨0, 0⟩ none (.ident "b"))))] none))
      (.mk 11 ⟨0, 0⟩ none (.ident "c")))))])

example : ((Rewrite.normalizeAt 1 (.invoke "_a") "a").run
    (Session.start defaultTargetModule "")).toBool = false := by cbv

example : ((Rewrite.normalizeAt 1 (.reference "_b") "a").run
    (Session.start defaultTargetModule "")).toBool = true := by cbv

theorem normalizeAt_fails_iff_written_defaultTarget :
    (∀ as, isWritten as = true ↔ WritePosition as) ∧
    (∀ f, ((∃ sp, (Rewrite.normalizeAt 1 (.invoke f) "a").run
          (Session.start defaultTargetModule "") = .error (.readOnly "a" sp)) ↔
        WriteReached (Session.start defaultTargetModule "").scopes
          ⟨Place.top.scopeOf (Session.start defaultTargetModule "").root, "a"⟩ Place.top
          (Session.start defaultTargetModule "").root) ∧
      (¬WriteReached (Session.start defaultTargetModule "").scopes
          ⟨Place.top.scopeOf (Session.start defaultTargetModule "").root, "a"⟩ Place.top
          (Session.start defaultTargetModule "").root →
        ∃ st', (Rewrite.normalizeAt 1 (.invoke f) "a").run
            (Session.start defaultTargetModule "") = .ok ((), st') ∧
          Occurs 0 st'.root Place.top.scope
            (substituteReached (Session.start defaultTargetModule "").scopes
              ⟨Place.top.scopeOf (Session.start defaultTargetModule "").root, "a"⟩ (.invoke f)
              Place.top (Session.start defaultTargetModule "").root))) ∧
    ∀ o, ∃ st', (Rewrite.normalizeAt 1 (.reference o) "a").run
        (Session.start defaultTargetModule "") = .ok ((), st') ∧
      Occurs 0 st'.root Place.top.scope
        (substituteReached (Session.start defaultTargetModule "").scopes
          ⟨Place.top.scopeOf (Session.start defaultTargetModule "").root, "a"⟩ (.reference o)
          Place.top (Session.start defaultTargetModule "").root) :=
  normalizeAt_fails_iff_written (by cbv; decide) (by decide) (by cbv)

end SignalSugar
