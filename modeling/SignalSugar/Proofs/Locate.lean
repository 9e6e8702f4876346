import SignalSugar.Proofs.RewriteRun
import SignalSugar.Proofs.Resolution
/-!
# Finding and rewriting a node by id

Operations that name a node do so by id: `Node.find` answers the first node with that id in
pre-order, with its place, and `Node.updateAt` rewrites every node with that id by a step
that is given the node's place. The facts here tie the two together: the node `find` answers
stands in the tree at the scope its place says, and after a successful `updateAt` the tree
holds, at that same scope, what the step made of it.

## Main results

* `Node.occurs_of_find`: the node `find` answers stands in the subtree, its parent in the
  scope of its place.
* `Node.run_updateAt`: what every run of the step keeps, `updateAt` keeps; and whatever the
  step establishes of its answer for the node `find` answers holds of a node of the result,
  standing at the same scope.
* `Rewrite.run_updateAt_of_hasId`: a successful rewrite of a node of the program is a
  rewrite of the program's tree, and `Rewrite.run_updateAt_of_root` the converse.
* `Rewrite.run_targetAt_updateAt`: a pass for the binding an owner's scope declares is a
  walk of the program's tree with that binding as its target.
-/

namespace SignalSugar

namespace Node

variable {x : Nat}

/-- What `find` answers stands in the subtree, its parent in the scope of its place. -/
theorem occurs_of_find {p : Place} {n : Node} :
    ∀ {m q}, n.find x p = some (m, q) → Occurs p.scope n q.scope m := by
  induction p, n using find.induct x with
  | case1 p n hx =>
    intro m q h
    rw [find, if_pos hx] at h
    cases h
    exact .here _ _
  | case2 p n hx ih =>
    intro m q h
    rw [find, if_neg hx] at h
    obtain ⟨c, hc, hcf⟩ := List.exists_of_findSome?_eq_some h
    exact .child trivial (List.mem_map_of_mem hc) (ih c hcf)

/-- A subtree where `find` finds a node holds its id. -/
theorem hasId_of_find {p : Place} {n : Node} :
    ∀ {m q}, n.find x p = some (m, q) → n.hasId x = true := by
  induction p, n using find.induct x with
  | case1 p n hx =>
    intro _ _ _
    rw [hasId]
    simp [hx]
  | case2 p n hx ih =>
    intro m q h
    rw [find, if_neg hx] at h
    obtain ⟨c, hc, hcf⟩ := List.exists_of_findSome?_eq_some h
    rw [hasId]
    simp only [Bool.or_eq_true, List.any_eq_true]
    exact Or.inr ⟨c, hc, ih c hcf⟩

/-- What every run of the step keeps, `updateAt` keeps. Of the node `find` answers, the result
holds what the step made of it, at the same scope, as far as `P` says. -/
theorem run_updateAt {f : Place → Node → Rewrite Node} (I : Session → Prop)
    (P : Place → Node → Node → Prop)
    (hf : ∀ q m s r s', I s → (f q m).run s = .ok (r, s') → I s' ∧ P q m r) (p : Place) (n : Node) :
    ∀ {st n' st'}, I st → (n.updateAt x f p).run st = .ok (n', st') →
      I st' ∧ ∀ m q, n.find x p = some (m, q) → ∃ r, Occurs p.scope n' q.scope r ∧ P q m r := by
  induction p, n using updateAt.induct x with
  | case1 p n hx =>
    intro st n' st' hI h
    rw [updateAt, if_pos hx] at h
    obtain ⟨hI', hP⟩ := hf p n st n' st' hI h
    refine ⟨hI', fun m q hfind => ?_⟩
    rw [find, if_pos hx] at hfind
    cases hfind
    exact ⟨n', .here _ _, hP⟩
  | case2 p n hx hno =>
    intro st n' st' hI h
    rw [updateAt, if_neg hx, if_pos hno] at h
    obtain ⟨rfl, rfl⟩ := Rewrite.run_pure_ok.1 h
    refine ⟨hI, fun m q hfind => ?_⟩
    simp [hasId_of_find hfind] at hno
  | case3 p n hx hno ih =>
    intro st n' st' hI h
    rw [updateAt, if_neg hx, if_neg hno] at h
    obtain ⟨k, st₁, hk, h⟩ := Rewrite.run_bind_ok.1 h
    obtain ⟨rfl, rfl⟩ := Rewrite.run_pure_ok.1 h
    obtain ⟨hI', hrel⟩ := Rewrite.run_mapM_ok I
      (fun c b => ∀ m q, c.node.find x (p.child n c.role) = some (m, q) →
        ∃ r, Occurs (n.scope.getD p.scope) b q.scope r ∧ P q m r)
      (fun c _ s b s' hs hb => ih c.node c.role c.lt hs hb) hI (Rewrite.run_mapChildrenM_ok hk)
    refine ⟨hI', fun m q hfind => ?_⟩
    rw [find, if_neg hx] at hfind
    obtain ⟨c, hc, hcf⟩ := List.exists_of_findSome?_eq_some hfind
    obtain ⟨b, hb, hR⟩ := Rewrite.exists_of_forall₂_left hrel hc
    obtain ⟨r, hr, hP⟩ := hR m q hcf
    exact ⟨r, .child trivial hb hr, hP⟩

end Node

namespace Rewrite

variable {x : Nat} {st st' : Session}

/-- A successful rewrite of a node of the program rewrote the program's tree from its top; the
session it leaves is the one the tree's rewrite left, holding the new tree. -/
theorem run_updateAt_of_hasId {f : Place → Node → Rewrite Node}
    (hx : st.root.hasId x = true) (h : (updateAt x f).run st = .ok ((), st')) :
    ∃ root st₁, (st.root.updateAt x f Place.top).run st = .ok (root, st₁) ∧
      st' = { st₁ with root := root } := by
  obtain ⟨b, h⟩ := run_discard_ok.1 h
  simp only [inTreeOf, run_bind_ok] at h
  obtain ⟨s₀, s₁, hget, h⟩ := h
  cases hget
  rw [if_pos hx] at h
  simp only [run_bind_ok] at h
  obtain ⟨root, st₁, hroot, u, st₂, hmod, hret⟩ := h
  obtain ⟨-, rfl⟩ := run_pure_ok.1 hret
  cases hmod
  exact ⟨root, st₁, hroot, rfl⟩

/-- A rewrite of the program's tree from its top, for a node the program holds, is a rewrite
of that node: the converse of `run_updateAt_of_hasId`. -/
theorem run_updateAt_of_root {f : Place → Node → Rewrite Node} {root : Node} {st₁ : Session}
    (hx : st.root.hasId x = true) (h : (st.root.updateAt x f Place.top).run st = .ok (root, st₁)) :
    (updateAt x f).run st = .ok ((), { st₁ with root := root }) := by
  refine run_discard_ok.2 ⟨true, ?_⟩
  simp only [inTreeOf]
  refine run_bind_ok.2 ⟨st, st, rfl, ?_⟩
  rw [if_pos hx]
  exact run_bind_ok.2 ⟨root, st₁, h, rfl⟩

/-- The binding of a name seen from a node of the program is in the scope of the node's place. -/
theorem run_targetAt {owner : Nat} {name : String} {n : Node} {q : Place}
    (hfind : st.root.find owner Place.top = some (n, q)) :
    (targetAt owner name).run st = .ok (⟨q.scopeOf n, name⟩, st) := by
  simp [targetAt, scopeAt, locate, Session.find, hfind]
  rfl

/-- A pass for the binding of `name` in the scope of the node `owner` names, when that node
stands in the program: the pass walked the program's tree from its top, for the binding the
node's place gives, and left the session that walk left, holding the new tree. -/
theorem run_targetAt_updateAt {g : Target → Place → Node → Rewrite Node} {owner : Nat}
    {name : String} {n : Node} {q : Place} (hfind : st.root.find owner Place.top = some (n, q))
    (h : (targetAt owner name >>= fun t => updateAt owner (g t)).run st = .ok ((), st')) :
    ∃ root st₁, (st.root.updateAt owner (g ⟨q.scopeOf n, name⟩) Place.top).run st =
      .ok (root, st₁) ∧ st' = { st₁ with root := root } := by
  have hloc : st.find owner = some (n, q) := by simp [Session.find, hfind]
  simp only [targetAt, scopeAt, locate, run_bind_ok] at h
  obtain ⟨t, s₁, ⟨sc, s₂, ⟨o, s₃, ⟨s₄, s₅, hget, hpure⟩, hmatch⟩, hpure'⟩, hup⟩ := h
  cases hget
  obtain ⟨rfl, rfl⟩ := run_pure_ok.1 hpure
  rw [hloc] at hmatch
  obtain ⟨rfl, rfl⟩ := run_pure_ok.1 hmatch
  obtain ⟨rfl, rfl⟩ := run_pure_ok.1 hpure'
  exact run_updateAt_of_hasId (Node.hasId_of_find hfind) hup

end Rewrite

end SignalSugar
