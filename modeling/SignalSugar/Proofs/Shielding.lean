import Mathlib
import SignalSugar.Transform
import SignalSugar.Proofs.Copies
import SignalSugar.Proofs.Locate
/-!
# What shields a reference from a pass

A pass for a binding decides at each node, from the node's scope mark alone, whether the
subtree means another binding of the name: a node whose scope is another scope declaring
the name is **pruned**, and the pass leaves it as it is. Nothing else shields a reference.
The binders of a module as read carry the marks the analysis gave them. A copy of a subtree
carries none (`Node.occurs_copy`), so a binder inside a copy shields nothing: a pass rewrites
every reference to its name inside a copy that stands where the name is not shadowed, also
one that the copied binder declares.

`normalizeAt` is the pass that replaces the references of a destructured binding by the
call of its accessor or by another name. What it leaves is described by `Pruned` exactly:

* every node standing at or below a pruned node is kept, in the same scope;
* every reference to the name that is left stands at or below a pruned node.

## Main results

* `normalizeWalk_prunes`: the two facts for the walk, from any place and in any session.
* `pruned_copy`: nothing in a copy is pruned unless the place the copy stands in is.
* `normalizeAt_shields_by_marks`: the two facts for the pass over the node an owner names.
-/

namespace SignalSugar

/-- `m`, standing in the subtree `n` (whose parent is in scope `σ`) with its parent in scope
`τ`, stands at or below a node that a walk for `t` prunes: a node whose scope is another scope
declaring `t`'s name. -/
def Pruned (T : Scopes) (t : Target) (σ : Nat) (n : Node) (τ : Nat) (m : Node) : Prop :=
  ∃ ρ a, Occurs σ n ρ a ∧ t.shadowedIn T (a.scope.getD ρ) = true ∧ Occurs ρ a τ m

namespace Pruned

variable {T : Scopes} {t : Target} {σ τ : Nat} {n m : Node}

theorem occurs (h : Pruned T t σ n τ m) : Occurs σ n τ m := by
  obtain ⟨ρ, a, ha, -, hm⟩ := h
  exact ha.trans hm

/-- Everything in a pruned node is pruned. -/
theorem of_shadowed (hs : t.shadowedIn T (n.scope.getD σ) = true) (hm : Occurs σ n τ m) :
    Pruned T t σ n τ m :=
  ⟨σ, n, .here σ n, hs, hm⟩

/-- What is pruned in a child is pruned in the parent. -/
theorem child {c : Node} (hc : c ∈ n.kind.children.map Child.node)
    (h : Pruned T t (n.scope.getD σ) c τ m) : Pruned T t σ n τ m := by
  obtain ⟨ρ, a, ha, hs, hm⟩ := h
  exact ⟨ρ, a, .child trivial hc ha, hs, hm⟩

/-- Below a node that is not pruned, what is pruned is pruned in a child. -/
theorem exists_child (hs : t.shadowedIn T (n.scope.getD σ) = false) (h : Pruned T t σ n τ m) :
    ∃ c ∈ n.kind.children.map Child.node, Pruned T t (n.scope.getD σ) c τ m := by
  obtain ⟨ρ, a, ha, hsa, hm⟩ := h
  rcases ha.cases_of with ⟨rfl, rfl⟩ | ⟨-, c, hc, ha⟩
  · rw [hs] at hsa
    cases hsa
  · exact ⟨c, hc, ρ, a, ha, hsa, hm⟩

end Pruned

/-- Nothing in a copy is pruned unless the scope the copy stands in is: a copy carries no
scope marks, so every node of it stands in that scope. -/
theorem pruned_copy {T : Scopes} {t : Target} {σ τ : Nat} {e m : Node}
    (h : Pruned T t σ e.copy τ m) : t.shadowedIn T σ = true := by
  obtain ⟨ρ, a, ha, hs, -⟩ := h
  obtain ⟨-, hsc, rfl⟩ := Node.occurs_copy ha
  simpa [hsc] using hs

/-- The name a substitution puts in place of a reference. -/
def Substitution.name : Substitution → String
  | .invoke c => c
  | .reference x => x

/-- A reference replaced under a substitution by another name holds no reference to the
name. -/
theorem Substitution.ne_ident_of_occurs {sub : Substitution} {x : String} (hsub : sub.name ≠ x)
    {n m : Node} {σ τ : Nat} (hm : Occurs σ (n.withKind sub.construct) τ m) :
    m.kind ≠ .ident x := by
  cases sub with
  | invoke c =>
    rcases hm.cases_of with ⟨-, rfl⟩ | ⟨-, a, ha, hm⟩
    · simp [Substitution.construct]
    · simp only [Node.kind_withKind, Substitution.construct, Kind.children, Child.node_ofList,
        List.map_cons, List.mem_singleton] at ha
      subst ha
      rcases hm.cases_of with ⟨-, rfl⟩ | ⟨-, b, hb, -⟩
      · simpa [Substitution.name] using hsub
      · simp [Kind.children] at hb
  | reference o =>
    rcases hm.cases_of with ⟨-, rfl⟩ | ⟨-, a, ha, -⟩
    · simpa [Substitution.construct, Substitution.name] using hsub
    · simp [Substitution.construct, Kind.children] at ha

/-! ### The walk -/

section Walk

variable {t : Target} {sub : Substitution} {p : Place} {n n' : Node} {st st' : Session}

/-- A successful walk went one of three ways: it pruned the node, replaced a reference, or
rebuilt the node from the walks of its children. The first two leave the session as it was. -/
theorem run_normalizeWalk (h : (normalizeWalk t sub p n).run st = .ok (n', st')) :
    (t.shadowedIn st.scopes (p.scopeOf n) = true ∧ n' = n ∧ st' = st) ∨
    (t.shadowedIn st.scopes (p.scopeOf n) = false ∧ t.isReference n = true ∧
      n' = n.withKind sub.construct ∧ st' = st) ∨
    (t.shadowedIn st.scopes (p.scopeOf n) = false ∧ t.isReference n = false ∧
      ∃ k, (n.kind.mapChildrenM fun c r _ => normalizeWalk t sub (p.child n r) c).run st =
        .ok (k, st') ∧ n' = n.withKind k) := by
  rw [normalizeWalk.eq_def] at h
  simp only [Rewrite.run_bind_ok] at h
  obtain ⟨s₀, s₁, hget, h⟩ := h
  cases hget
  by_cases hs : t.shadowedIn st.scopes (p.scopeOf n) = true
  · rw [if_pos hs, Rewrite.run_pure_ok] at h
    exact Or.inl ⟨hs, h.1.symm, h.2.symm⟩
  · rw [if_neg hs] at h
    replace hs := Bool.eq_false_iff.2 hs
    by_cases hr : t.isReference n = true
    · rw [if_pos hr] at h
      split_ifs at h
      · simp at h
      · rw [Rewrite.run_pure_ok] at h
        exact Or.inr (Or.inl ⟨hs, hr, h.1.symm, h.2.symm⟩)
    · rw [if_neg hr] at h
      simp only [Rewrite.run_bind_ok, Rewrite.run_pure_ok] at h
      obtain ⟨k, s₂, hk, rfl, rfl⟩ := h
      exact Or.inr (Or.inr ⟨hs, Bool.eq_false_iff.2 hr, k, hk, rfl⟩)

/-- A walk changes nothing in the session: it only reads the table. -/
theorem normalizeWalk_session (p : Place) (n : Node) :
    ∀ {st n' st'}, (normalizeWalk t sub p n).run st = .ok (n', st') → st' = st := by
  induction p, n using normalizeWalk.induct with
  | _ p n ih =>
  intro st n' st' h
  rcases run_normalizeWalk h with ⟨-, -, rfl⟩ | ⟨-, -, -, rfl⟩ | ⟨-, -, k, hk, -⟩
  · rfl
  · rfl
  · exact (Rewrite.run_mapM_ok (· = st) (fun _ _ => True)
      (fun c _ s b s' hs hb => ⟨(ih c.node c.role c.lt hb).trans hs, trivial⟩) rfl
      (Rewrite.run_mapChildrenM_ok hk)).1

/-- **A walk keeps exactly what is pruned.** A successful walk for `t` from any place keeps
every node that stands at or below a pruned node, where it stood; and every reference to
`t`'s name in its answer stands at or below a pruned node. Pruning is read off scope marks
only, with the table of the session the walk started in. -/
theorem normalizeWalk_prunes (hsub : sub.name ≠ t.name) (p : Place) (n : Node) :
    ∀ {st n' st'}, (normalizeWalk t sub p n).run st = .ok (n', st') →
      (∀ τ m, Pruned st.scopes t p.scope n τ m → Occurs p.scope n' τ m) ∧
      (∀ τ m, Occurs p.scope n' τ m → m.kind = .ident t.name →
        Pruned st.scopes t p.scope n' τ m) := by
  induction p, n using normalizeWalk.induct with
  | _ p n ih =>
  intro st n' st' h
  rcases run_normalizeWalk h with ⟨hs, rfl, -⟩ | ⟨hs, hr, rfl, -⟩ | ⟨hs, hr, k, hk, rfl⟩
  · exact ⟨fun τ m hm => hm.occurs, fun τ m hm _ => Pruned.of_shadowed hs hm⟩
  · refine ⟨fun τ m hm => ?_, fun τ m hm hk => absurd hk (sub.ne_ident_of_occurs hsub hm)⟩
    obtain ⟨c, hc, -⟩ := hm.exists_child hs
    obtain ⟨x, hx⟩ : ∃ x, n.kind = .ident x := by
      simp only [Target.isReference] at hr
      split at hr
      · exact ⟨_, ‹_›⟩
      · cases hr
    rw [hx] at hc
    simp [Kind.children] at hc
  · have hchild : ∀ r, (p.child n r).scope = n.scope.getD p.scope := fun _ => rfl
    obtain ⟨-, hkids⟩ := Rewrite.run_mapM_ok (· = st)
      (fun (c : Child n.kind) b =>
        (∀ τ m, Pruned st.scopes t (n.scope.getD p.scope) c.node τ m →
          Occurs (n.scope.getD p.scope) b τ m) ∧
        (∀ τ m, Occurs (n.scope.getD p.scope) b τ m → m.kind = .ident t.name →
          Pruned st.scopes t (n.scope.getD p.scope) b τ m))
      (fun c _ s b s' hs' hb => by
        subst hs'
        have := ih c.node c.role c.lt hb
        simp only [hchild] at this
        exact ⟨normalizeWalk_session _ _ hb, this⟩) rfl (Rewrite.run_mapChildrenM_ok hk)
    refine ⟨fun τ m hm => ?_, fun τ m hm hkm => ?_⟩
    · obtain ⟨c, hc, hm⟩ := hm.exists_child hs
      obtain ⟨ch, hch, rfl⟩ := List.mem_map.1 hc
      obtain ⟨b, hb, hkeep, -⟩ := Rewrite.exists_of_forall₂_left hkids hch
      exact .child trivial hb (hkeep τ m hm)
    · rcases hm.cases_of with ⟨rfl, rfl⟩ | ⟨-, b, hb, hm⟩
      · obtain ⟨ns, hns⟩ := Rewrite.run_mapChildrenM_setChildren hk
        rw [Node.kind_withKind, hns] at hkm
        have := Kind.eq_ident_of_setChildren hkm
        simp [Target.isReference, this] at hr
      · obtain ⟨a, -, -, hleft⟩ := Rewrite.exists_of_forall₂_right hkids hb
        exact Pruned.child hb (hleft τ m hm hkm)

end Walk

/-! ### The pass over a node -/

/-- **A normalizing pass shields by scope marks alone.** Take any session, the node `owner`
names in its program, and a substitution by another name. A successful `normalizeAt` for
the binding of `x` in that node's scope leaves, in the node's place and in the same scope, a
subtree that keeps every node of the old one standing at or below a node whose scope
declares its own `x`, and in which every reference to `x` stands at or below such a node.

A copy carries no scope marks (`pruned_copy`): a binder inside a copy shields nothing, and
no reference to `x` is left in a copy standing where `x` is not shadowed. -/
theorem normalizeAt_shields_by_marks {st st' : Session} {owner : Nat} {sub : Substitution}
    {x : String} {n : Node} {q : Place} (hfind : st.root.find owner Place.top = some (n, q))
    (hsub : sub.name ≠ x) (h : (Rewrite.normalizeAt owner sub x).run st = .ok ((), st')) :
    ∃ n', Occurs 0 st'.root q.scope n' ∧
      (∀ τ m, Pruned st.scopes ⟨q.scopeOf n, x⟩ q.scope n τ m → Occurs q.scope n' τ m) ∧
      (∀ τ m, Occurs q.scope n' τ m → m.kind = .ident x →
        Pruned st.scopes ⟨q.scopeOf n, x⟩ q.scope n' τ m) := by
  obtain ⟨root', st₁, hup, rfl⟩ :=
    Rewrite.run_targetAt_updateAt (g := fun t p m => normalizeWalk t sub p m) hfind h
  obtain ⟨-, hfound⟩ := Node.run_updateAt (· = st)
    (fun q' m r =>
      (∀ τ a, Pruned st.scopes ⟨q.scopeOf n, x⟩ q'.scope m τ a → Occurs q'.scope r τ a) ∧
      (∀ τ a, Occurs q'.scope r τ a → a.kind = .ident x →
        Pruned st.scopes ⟨q.scopeOf n, x⟩ q'.scope r τ a))
    (fun q' m s r s' hs hr => by
      subst hs
      exact ⟨normalizeWalk_session _ _ hr, normalizeWalk_prunes hsub q' m hr⟩)
    Place.top _ rfl hup
  obtain ⟨r, hocc, hP⟩ := hfound n q hfind
  exact ⟨r, hocc, hP⟩

/-- The statement `(a) => a;` as read. -/
def arrowStatement : Node :=
  .mk 5 ⟨0, 0⟩ none (.exprStmt (.mk 6 ⟨0, 0⟩ none
    (.arrow [.mk 7 ⟨0, 0⟩ none (.bindingIdent "a")] (.mk 8 ⟨0, 0⟩ none (.ident "a")) true false)))

/-- The module `let a; (a) => a;` as read. -/
def arrowModule : Node :=
  .mk 1 ⟨0, 0⟩ none (.program [
    .mk 2 ⟨0, 0⟩ none (.varDecl .let
      [.mk 3 ⟨0, 0⟩ none (.declarator (.mk 4 ⟨0, 0⟩ none (.bindingIdent "a")) none)]),
    arrowStatement])

/-- The session of `arrowModule` with a copy of its arrow appended to the program: the copied
arrow owns no scope, so its parameter shields nothing. -/
def copiedArrowSession : Session :=
  let st := Session.start arrowModule ""
  let body := st.root.kind.children.map Child.node ++ [arrowStatement.copy]
  { st with root := st.root.withKind (.program body) }

theorem normalizeAt_shields_by_marks_copiedArrow :
    ∃ st', (Rewrite.normalizeAt 1 (.invoke "_prop") "a").run copiedArrowSession = .ok ((), st') ∧
      ∃ n', Occurs 0 st'.root Place.top.scope n' ∧
        (∀ τ m, Pruned copiedArrowSession.scopes
            ⟨Place.top.scopeOf copiedArrowSession.root, "a"⟩ Place.top.scope
            copiedArrowSession.root τ m → Occurs Place.top.scope n' τ m) ∧
        (∀ τ m, Occurs Place.top.scope n' τ m → m.kind = .ident "a" →
          Pruned copiedArrowSession.scopes ⟨Place.top.scopeOf copiedArrowSession.root, "a"⟩
            Place.top.scope n' τ m) := by
  have hrun : ((Rewrite.normalizeAt 1 (.invoke "_prop") "a").run
      copiedArrowSession).toBool = true := by cbv
  cases hr : (Rewrite.normalizeAt 1 (.invoke "_prop") "a").run copiedArrowSession with
  | error e =>
    rw [hr] at hrun
    cases hrun
  | ok r =>
    obtain ⟨⟨⟩, st'⟩ := r
    exact ⟨st', rfl, normalizeAt_shields_by_marks (by cbv) (by decide) hr⟩

end SignalSugar
