import Mathlib
import SignalSugar.Transform
import SignalSugar.Proofs.DerefStep
import SignalSugar.Proofs.Copies
import SignalSugar.Proofs.Locate
import SignalSugar.Proofs.ScopeAnalysis
/-!
# The deref walk follows the scope tree

Dereferencing a signal `x` declared in the scope `target` of a well scoped module rewrites
exactly the references to `x` that resolve, by the scope tree, to `target`:

* no reference to `x` read from the source that is left in the result resolves to `target`
  (`NoneResolve`);
* every reference to `x` that resolves elsewhere is left where it stood, under a parent in
  the same scope (`KeepsOthers`), unless it is an operand of a directive applied to `x`, which
  the rewrite drops as a whole.

Nodes built by the rewrite and copies have id 0; the first statement is about the others. A
copy is left out on purpose: a copy owns no scopes, so by the scope tree its references
resolve as if no binder inside it declared anything.

The proof is one induction over the walk (`derefWalk_post`), carrying where the walk stands:
a node is either not pruned and resolves `x` to `target` (its children then start the same
way, `entry_child`), or pruned, and then everything below it resolves `x` past `target`
(`resolvesPast_inside`).

The scope tree is the one the analysis of the module builds. Where it stands to the
language's own environments, and where it differs from them, is the subject of
`derefAt_follows_language_scopes`.

## Main results

* `derefWalk_post`: what a successful walk answers, from any node the walk may be started at.
* `derefAt_follows_scopes`: dereferencing a signal declared in the scope of a node of a module
  as read rewrites, below that node, exactly the references that resolve to it.
-/

namespace SignalSugar

/-- A call applying a directive to the name `x`. -/
def DirectsTo (x : String) (a : Node) : Prop :=
  ∃ d, directiveOf a = some d ∧ directiveArgument d a = .ok x

section Resolving

variable (T : Scopes) (x : String) (target : Nat)

/-- No reference to `x` read from the source (a node of nonzero id), in the subtree `n`
standing in scope `σ`, resolves in `T` to `target`. -/
def NoneResolve (σ : Nat) (n : Node) : Prop :=
  ∀ τ m, Occurs σ n τ m → m.id ≠ 0 → m.kind = .ident x → T.declaring (m.scope.getD τ) x ≠ target

/-- Every reference to `x` in `n`, standing in `σ`, that resolves elsewhere than `target` and
is not reached through a directive applied to `x`, stands in `n'` too, under a parent in the
same scope. -/
def KeepsOthers (σ : Nat) (n n' : Node) : Prop :=
  ∀ τ m, Inside (fun a => ¬ DirectsTo x a) σ n τ m → m.kind = .ident x →
    T.declaring (m.scope.getD τ) x ≠ target → Occurs σ n' τ m

variable {T x target}

/-! ### Putting results together -/

theorem noneResolve_of_children {σ : Nat} {n : Node}
    (hn : n.id = 0 ∨ ∀ y, n.kind = .ident y → y ≠ x)
    (hc : ∀ c ∈ n.kind.children.map Child.node, NoneResolve T x target (n.scope.getD σ) c) :
    NoneResolve T x target σ n := by
  intro τ m hm hid hk
  rcases hm.cases_of with ⟨rfl, rfl⟩ | ⟨-, c, hcm, hm⟩
  · rcases hn with hn | hn
    · exact absurd hn hid
    · exact absurd rfl (hn x hk)
  · exact hc c hcm τ m hm hid hk

@[simp] theorem noneResolve_make_iff {σ : Nat} {k : Kind} :
    NoneResolve T x target σ (Node.make k) ↔
      ∀ c ∈ k.children.map Child.node, NoneResolve T x target σ c := by
  constructor
  · intro h c hc τ m hm
    exact h τ m (.child trivial hc hm)
  · exact noneResolve_of_children (n := Node.make k) (Or.inl rfl)

theorem noneResolve_withKind {σ : Nat} {n : Node} {k : Kind} (hk : ∀ y, k = .ident y → y ≠ x)
    (hc : ∀ c ∈ k.children.map Child.node, NoneResolve T x target (n.scope.getD σ) c) :
    NoneResolve T x target σ (n.withKind k) :=
  noneResolve_of_children (Or.inr hk) hc

theorem noneResolve_copy {σ : Nat} (e : Node) : NoneResolve T x target σ e.copy :=
  fun _ _ hm hid => absurd (Node.occurs_copy hm).1 hid

/-- A getter built around a key adds no node read from the source. -/
theorem noneResolve_getterOf {σ : Nat} {acc : Accessors} {key : Key}
    (hk : ∀ c ∈ key.nodes, NoneResolve T x target σ c) :
    ∀ c ∈ (getterOf acc key).children.map Child.node, NoneResolve T x target σ c := by
  simp only [getterOf, Kind.children, List.map_append, Child.node_ofKey, Child.node_ofList,
    List.map_cons, List.map_nil, List.append_nil, List.mem_append, List.mem_singleton]
  rintro c (hc | rfl)
  · exact hk c hc
  · simp [Kind.children, returnOf, callOf]

/-- A setter built around a key adds no node read from the source. -/
theorem noneResolve_setterOf {σ : Nat} {acc : Accessors} {key : Key} {value : String}
    (hk : ∀ c ∈ key.nodes, NoneResolve T x target σ c) :
    ∀ c ∈ (setterOf acc key value).children.map Child.node, NoneResolve T x target σ c := by
  simp only [setterOf, Kind.children, List.map_append, Child.node_ofKey, Child.node_ofList,
    List.map_cons, List.map_nil, List.mem_append, List.mem_singleton]
  rintro c ((hc | rfl) | rfl)
  · exact hk c hc
  · simp [bindingOf, Kind.children]
  · simp [Kind.children, returnOf, callOf, arrowOf, identOf]

/-- A subtree below a pruned node has no reference resolving to `target`. -/
theorem noneResolve_of_past (hT : T.Sound) {σ : Nat} {n : Node} (hw : WellScoped T σ n)
    (hn : target < T.declaring (n.scope.getD σ) x) : NoneResolve T x target σ n :=
  fun _ _ hm _ _ => Nat.ne_of_gt (resolvesPast_inside hT hw hn hm)

/-- What stands in a child of a built node stands in the node, in the same scope. -/
theorem occurs_make_child {σ τ : Nat} {k : Kind} {c m : Node}
    (hc : c ∈ k.children.map Child.node) (h : Occurs σ c τ m) : Occurs σ (Node.make k) τ m :=
  .child trivial hc h

theorem keepsOthers_self {σ : Nat} (n : Node) : KeepsOthers T x target σ n n :=
  fun _ _ hm _ _ => hm.mono fun _ _ => trivial

/-- A rebuilt node keeps the references of its children that its new children keep. -/
theorem keepsOthers_withKind {σ : Nat} {n : Node} {k' : Kind}
    (hn : n.kind = .ident x → T.declaring (n.scope.getD σ) x = target)
    (hc : ¬ DirectsTo x n → ∀ c ∈ n.kind.children.map Child.node, ∀ τ m,
      Inside (fun a => ¬ DirectsTo x a) (n.scope.getD σ) c τ m → m.kind = .ident x →
      T.declaring (m.scope.getD τ) x ≠ target →
      ∃ c' ∈ k'.children.map Child.node, Occurs (n.scope.getD σ) c' τ m) :
    KeepsOthers T x target σ n (n.withKind k') := by
  intro τ m hm hk hne
  rcases hm.cases_of with ⟨rfl, rfl⟩ | ⟨hP, c, hcm, hm⟩
  · exact absurd (hn hk) hne
  · obtain ⟨c', hc', hm'⟩ := hc hP c hcm τ m hm hk hne
    exact .child trivial hc' hm'

/-- A child kept by its walk is kept by any list of results holding that walk's answer. -/
theorem exists_of_keepsOthers {σ : Nat} {c c' : Node} {l : List Node}
    (h : KeepsOthers T x target σ c c') (hc' : c' ∈ l) {τ : Nat} {m : Node}
    (hm : Inside (fun a => ¬ DirectsTo x a) σ c τ m) (hk : m.kind = .ident x)
    (hne : T.declaring (m.scope.getD τ) x ≠ target) : ∃ c'' ∈ l, Occurs σ c'' τ m :=
  ⟨c', hc', h τ m hm hk hne⟩

/-- A property rebuilt around its walked key keeps what the key's walk keeps, and what `hv`
keeps of its value. -/
theorem keepsOthers_property {σ : Nat} {n value : Node} {key : Key} {sh : Bool} {k' : Kind}
    {ks : List Node} (hk : n.kind = .property key value sh)
    (hkey : List.Forall₂ (KeepsOthers T x target (n.scope.getD σ)) key.nodes ks)
    (hks : ∀ c ∈ ks, c ∈ k'.children.map Child.node)
    (hv : ∀ τ m, Inside (fun a => ¬ DirectsTo x a) (n.scope.getD σ) value τ m →
      m.kind = .ident x → T.declaring (m.scope.getD τ) x ≠ target →
      ∃ c' ∈ k'.children.map Child.node, Occurs (n.scope.getD σ) c' τ m) :
    KeepsOthers T x target σ n (n.withKind k') := by
  refine keepsOthers_withKind (by simp [hk]) fun _ c hc τ m hm hkm hne => ?_
  rw [hk] at hc
  simp only [Kind.children, List.map_append, Child.node_ofKey, List.map_cons, List.map_nil,
    List.mem_append, List.mem_singleton] at hc
  rcases hc with hc | rfl
  · obtain ⟨b, hb, hcb⟩ := Rewrite.exists_of_forall₂_left hkey hc
    exact ⟨b, hks b hb, hcb τ m hm hkm hne⟩
  · exact hv τ m hm hkm hne

/-- Nothing to keep inside a directive applied to `x`: the walk does not pass it. -/
theorem no_others_of_directsTo {σ τ : Nat} {c m : Node} (hd : DirectsTo x c)
    (hm : Inside (fun a => ¬ DirectsTo x a) σ c τ m) (hk : m.kind = .ident x) : False := by
  rcases hm.cases_of with ⟨-, rfl⟩ | ⟨hP, -⟩
  · obtain ⟨d, hd, -⟩ := hd
    simp [directiveOf, hk] at hd
  · exact hP hd

/-- Nothing to keep in a reference that resolves to `target`. -/
theorem no_others_of_resolving {σ τ : Nat} {c m : Node} (hc : c.kind = .ident x)
    (hs : c.scope = none) (hI : T.declaring σ x = target)
    (hm : Inside (fun a => ¬ DirectsTo x a) σ c τ m)
    (hne : T.declaring (m.scope.getD τ) x ≠ target) : False := by
  rcases hm.cases_of with ⟨rfl, rfl⟩ | ⟨-, c', hc', -⟩
  · simp [hs, hI] at hne
  · rw [hc] at hc'
    simp [Kind.children] at hc'

end Resolving

/-! ### Where a walk stands -/

section Walk

variable {T : Scopes} {t : Target}

theorem Target.shadowedIn_of_keeps {T' : Scopes} (h : T.Keeps t.name T') (s : Nat) :
    t.shadowedIn T' s = t.shadowedIn T s := by
  simp [Target.shadowedIn, h.owns_eq]

/-- A scope resolving the name to the target is not pruned. -/
theorem Target.shadowedIn_of_declaring {s : Nat} (h : T.declaring s t.name = t.scope) :
    t.shadowedIn T s = false := by
  by_cases ho : T.owns s t.name = true
  · rw [Scopes.declaring_of_owns ho] at h
    simp [Target.shadowedIn, h]
  · simp [Target.shadowedIn, ho]

variable (T t)

/-- How a walk may reach a node standing in `σ`: the node resolves the name to the target,
or it is pruned and resolves the name to a later scope. -/
def Entry (σ : Nat) (n : Node) : Prop :=
  T.declaring (n.scope.getD σ) t.name = t.scope ∨
    (t.shadowedIn T (n.scope.getD σ) = true ∧ t.scope < T.declaring (n.scope.getD σ) t.name)

variable {T t}

theorem Entry.resolves {σ : Nat} {n : Node} (he : Entry T t σ n)
    (hs : t.shadowedIn T (n.scope.getD σ) = false) :
    T.declaring (n.scope.getD σ) t.name = t.scope := by
  rcases he with he | ⟨hs', -⟩
  · exact he
  · simp [hs] at hs'

theorem Entry.past {σ : Nat} {n : Node} (he : Entry T t σ n)
    (hs : t.shadowedIn T (n.scope.getD σ) = true) :
    t.scope < T.declaring (n.scope.getD σ) t.name := by
  rcases he with he | ⟨-, hlt⟩
  · simp [Target.shadowedIn_of_declaring he] at hs
  · exact hlt

/-- Below a node that resolves the name to the target, each child is reached as the walk
expects. -/
theorem entry_child (hT : T.Sound) {σ : Nat} {n c : Node}
    (hI : T.declaring (n.scope.getD σ) t.name = t.scope) (hw : WellScoped T σ n)
    (hc : c ∈ n.kind.children.map Child.node) : Entry T t (n.scope.getD σ) c := by
  have hm : ∀ s, c.scope = some s → s = n.scope.getD σ ∨ (T.get s).parent = some (n.scope.getD σ) :=
    fun s hs => (hw.child hc).root_mark hs
  cases hs : t.shadowedIn T (c.scope.getD (n.scope.getD σ)) with
  | false => exact Or.inl (Target.declaring_of_not_shadowedIn hT hI hm hs)
  | true => exact Or.inr ⟨hs, Target.lt_declaring_of_shadowedIn hT hI hm hs⟩

variable (T t)

/-- What a successful walk of `n`, standing in `σ`, answers: a result in which no reference
read from the source resolves to the target and every other reference is kept, followed by
nodes with no reference resolving to the target; or, as a property's value, the node itself
when it is an accessor directive applied to the name. -/
def WalkPost (v : Bool) (σ : Nat) (n : Node) : Walked → Prop
  | .done n' after => NoneResolve T t.name t.scope σ n' ∧
      (∀ a ∈ after, NoneResolve T t.name t.scope σ a) ∧ KeepsOthers T t.name t.scope σ n n'
  | .accessor _ c => v = true ∧ c = n ∧ DirectsTo t.name n

variable {T t}

/-- A walk not standing as a property's value answers a node. -/
theorem WalkPost.node_of_false {σ : Nat} {n : Node} {w : Walked} (h : WalkPost T t false σ n w) :
    NoneResolve T t.name t.scope σ (w.node n) ∧ KeepsOthers T t.name t.scope σ n (w.node n) := by
  cases w with
  | done n' after => exact ⟨h.1, h.2.2⟩
  | accessor d c => exact absurd h.1 Bool.false_ne_true

end Walk

/-! ### The walk -/

section Deref

variable {T : Scopes} {t : Target} {acc : Accessors}

/-- A successful walk from a node the walk may reach answers as `WalkPost` says, provided the
target's scope declares the name and the write accessor is another name (a `$set` keeps the
id of the call it replaces). -/
theorem derefWalk_post (hT : T.Sound) (hx : T.owns t.scope t.name = true)
    (hwr : acc.write ≠ t.name) (p : Place) (v : Bool) (n : Node) :
    ∀ {st st' : Session} {w : Walked}, Walking T st → WellScoped T p.scope n →
      Entry T t p.scope n → (derefWalk t acc p v n).run st = .ok (w, st') →
      WalkPost T t v p.scope n w := by
  induction p, v, n using derefWalk.induct with
  | case1 p v n ihCallee ihArgs ihArg ihRight ihLeft ihValue ihKey ihProps ihChildren =>
  intro st st' w hw hws hen h
  have hkeep : T.Keeps t.name st.scopes := (hw.keeps t.name (hT.mem_of_owns hx)).2
  have hchild : ∀ r, (p.child n r).scope = n.scope.getD p.scope := fun _ => rfl
  have keyWalk : ∀ {key value sh key' s s'}, n.kind = .property key value sh → Walking T s →
      T.declaring (n.scope.getD p.scope) t.name = t.scope →
      (derefKey t acc (p.child n .other) key).run s = .ok (key', s') → Walking T s' ∧
        (∀ c ∈ key'.nodes, NoneResolve T t.name t.scope (n.scope.getD p.scope) c) ∧
        List.Forall₂ (KeepsOthers T t.name t.scope (n.scope.getD p.scope)) key.nodes key'.nodes := by
    intro key value sh key' s s' hk hs hI hkey
    rcases run_derefKey hkey with ⟨e, w, rfl, he, rfl⟩ | ⟨hn, rfl, rfl⟩
    · have hmem : e ∈ n.kind.children.map Child.node := by rw [hk]; simp [Kind.children, Key.nodes]
      have := (ihKey _ _ _ hk e rfl hs (hws.child hmem) (entry_child hT hI hws hmem) he).node_of_false
      simp only [hchild] at this
      exact ⟨hs.derefWalk he, by simpa [Key.nodes] using this.1, .cons this.2 .nil⟩
    · exact ⟨hs, by simp [hn], by rw [hn]; exact .nil⟩
  cases derefWalk_step h with
  | shadowed hs =>
    rw [Target.shadowedIn_of_keeps hkeep] at hs
    exact ⟨noneResolve_of_past hT hws (hen.past hs), by simp, keepsOthers_self n⟩
  | @update op leading arg aw st₁ hs hk hr' ha =>
    have hI := hen.resolves (by rw [← Target.shadowedIn_of_keeps hkeep]; exact hs)
    have hmem : arg ∈ n.kind.children.map Child.node := by rw [hk]; simp [Kind.children]
    obtain ⟨hn', hk'⟩ :=
      (ihArg _ _ _ hk hw (hws.child hmem) (entry_child hT hI hws hmem) ha).node_of_false
    simp only [hchild] at hn' hk'
    refine ⟨noneResolve_withKind (by simp) (by simpa [Kind.children] using hn'), by simp,
      keepsOthers_withKind (by simp [hk]) fun _ c hc τ m hm hkm hne => ?_⟩
    rw [hk] at hc
    simp only [Kind.children, List.map_cons, List.map_nil, List.mem_singleton] at hc
    subst hc
    exact exists_of_keepsOthers hk' (by simp [Kind.children]) hm hkm hne
  | @call callee args o cw args' st₁ st₂ hs hk hd hc ha =>
    have hI := hen.resolves (by rw [← Target.shadowedIn_of_keeps hkeep]; exact hs)
    have hmemC : callee ∈ n.kind.children.map Child.node := by rw [hk]; simp [Kind.children]
    have hmemA : ∀ a ∈ args, a ∈ n.kind.children.map Child.node := by
      intro a ha
      rw [hk]
      simp [Kind.children, ha]
    obtain ⟨hnc, hkc⟩ :=
      (ihCallee _ _ _ hk hw (hws.child hmemC) (entry_child hT hI hws hmemC) hc).node_of_false
    simp only [hchild] at hnc hkc
    obtain ⟨-, hargs⟩ := Rewrite.run_mapM_ok (Walking T)
      (fun a b => NoneResolve T t.name t.scope (n.scope.getD p.scope) b ∧
        KeepsOthers T t.name t.scope (n.scope.getD p.scope) a b)
      (fun a ha s b s' hs' hb => by
        obtain ⟨w, hwa, rfl⟩ := run_derefNode.1 hb
        have := (ihArgs _ _ _ hk a ha hs' (hws.child (hmemA a ha))
          (entry_child hT hI hws (hmemA a ha)) hwa).node_of_false
        simp only [hchild] at this
        exact ⟨hs'.derefWalk hwa, this⟩) (hw.derefWalk hc) ha
    refine ⟨noneResolve_withKind (by simp) ?_, by simp,
      keepsOthers_withKind (by simp [hk]) fun _ c hc' τ m hm hkm hne => ?_⟩
    · simp only [Kind.children, List.map_cons, Child.node_ofList, List.mem_cons]
      rintro c (rfl | hc')
      · exact hnc
      · obtain ⟨a, -, hab, -⟩ := Rewrite.exists_of_forall₂_right hargs hc'
        exact hab
    · rw [hk] at hc'
      simp only [Kind.children, List.map_cons, Child.node_ofList, List.mem_cons] at hc'
      rcases hc' with rfl | hc'
      · exact exists_of_keepsOthers hkc (by simp [Kind.children]) hm hkm hne
      · obtain ⟨b, hb, -, hab⟩ := Rewrite.exists_of_forall₂_left hargs hc'
        exact exists_of_keepsOthers hab (by simp [Kind.children, hb]) hm hkm hne
  | @directive callee args o d k st₂ hs hk hd ha hrep hcut =>
    have hD : DirectsTo t.name n := ⟨d, hd, ha⟩
    refine ⟨noneResolve_withKind ?_ ?_, by simp,
      keepsOthers_withKind (by simp [hk]) fun hP => absurd hD hP⟩
    · cases d <;> simp [Directive.replacement] at hrep <;> subst hrep <;> simp [hwr]
    · cases d <;> simp [Directive.replacement] at hrep <;> subst hrep <;>
        simp [Kind.children, Child.ofList, identOf]
  | accessor hs hk hd hnp hv ha => exact ⟨hv, rfl, _, hd, ha⟩
  | @updateRef op leading arg cur st₂ hs hk hr' hu =>
    have hI := hen.resolves (by rw [← Target.shadowedIn_of_keeps hkeep]; exact hs)
    have hmem : arg ∈ n.kind.children.map Child.node := by rw [hk]; simp [Kind.children]
    have harg : arg.kind = .ident t.name := by
      unfold Target.isReference at hr'
      split at hr' <;> simp_all
    have hsc : arg.scope = none := (hws.child hmem).ident _ _ _ (.here _ _) harg
    refine ⟨noneResolve_withKind ?_ ?_, by simp,
      keepsOthers_withKind (by simp [hk]) fun _ c hc τ m hm hkm hne => ?_⟩
    · cases op <;> cases leading <;> simp [updateOf]
    · cases op <;> cases leading <;>
        simp [updateOf, Kind.children, identOf, arrowOf, bindingOf, one, arrowBlock, callOf,
          returnOf]
    · rw [hk] at hc
      simp only [Kind.children, List.map_cons, List.map_nil, List.mem_singleton] at hc
      subst hc
      exact (no_others_of_resolving harg hsc hI hm hne).elim
  | @assignPlain left right rw st₂ hs hk hl hrw =>
    have hI := hen.resolves (by rw [← Target.shadowedIn_of_keeps hkeep]; exact hs)
    have hmemL : left ∈ n.kind.children.map Child.node := by rw [hk]; simp [Kind.children]
    have hmemR : right ∈ n.kind.children.map Child.node := by rw [hk]; simp [Kind.children]
    have hleft : left.kind = .ident t.name := by
      unfold Target.isReference at hl
      split at hl <;> simp_all
    have hsc : left.scope = none := (hws.child hmemL).ident _ _ _ (.here _ _) hleft
    obtain ⟨hn', hk'⟩ :=
      (ihRight _ _ _ hk hw (hws.child hmemR) (entry_child hT hI hws hmemR) hrw).node_of_false
    simp only [hchild] at hn' hk'
    refine ⟨noneResolve_withKind (by simp) (by simp [Kind.children, identOf, arrowOf, hn']),
      by simp, keepsOthers_withKind (by simp [hk]) fun _ c hc τ m hm hkm hne => ?_⟩
    rw [hk] at hc
    simp only [Kind.children, List.map_cons, List.map_nil, List.mem_cons, List.not_mem_nil,
      or_false] at hc
    rcases hc with rfl | rfl
    · exact (no_others_of_resolving hleft hsc hI hm hne).elim
    · exact ⟨arrowOf [] (rw.node c), by simp [Kind.children],
        occurs_make_child (c := rw.node c) (by simp [Kind.children]) (hk' τ m hm hkm hne)⟩
  | @assignBinary b left right rw st₁ cur st₂ hs hk hl hrw hu =>
    have hI := hen.resolves (by rw [← Target.shadowedIn_of_keeps hkeep]; exact hs)
    have hmemL : left ∈ n.kind.children.map Child.node := by rw [hk]; simp [Kind.children]
    have hmemR : right ∈ n.kind.children.map Child.node := by rw [hk]; simp [Kind.children]
    have hleft : left.kind = .ident t.name := by
      unfold Target.isReference at hl
      split at hl <;> simp_all
    have hsc : left.scope = none := (hws.child hmemL).ident _ _ _ (.here _ _) hleft
    obtain ⟨hn', hk'⟩ :=
      (ihRight _ _ _ hk hw (hws.child hmemR) (entry_child hT hI hws hmemR) hrw).node_of_false
    simp only [hchild] at hn' hk'
    refine ⟨noneResolve_withKind (by simp)
      (by simp [Kind.children, identOf, arrowOf, bindingOf, hn']),
      by simp, keepsOthers_withKind (by simp [hk]) fun _ c hc τ m hm hkm hne => ?_⟩
    rw [hk] at hc
    simp only [Kind.children, List.map_cons, List.map_nil, List.mem_cons, List.not_mem_nil,
      or_false] at hc
    rcases hc with rfl | rfl
    · exact (no_others_of_resolving hleft hsc hI hm hne).elim
    · refine ⟨arrowOf [bindingOf cur] (Node.make (.binary b (identOf cur) (rw.node c))),
        by simp [Kind.children], occurs_make_child
          (c := Node.make (.binary b (identOf cur) (rw.node c))) (by simp [Kind.children])
          (occurs_make_child (c := rw.node c) (by simp [Kind.children]) (hk' τ m hm hkm hne))⟩
  | @assignLogical l left right rw st₁ cur st₂ hs hk hl hrw hu =>
    have hI := hen.resolves (by rw [← Target.shadowedIn_of_keeps hkeep]; exact hs)
    have hmemL : left ∈ n.kind.children.map Child.node := by rw [hk]; simp [Kind.children]
    have hmemR : right ∈ n.kind.children.map Child.node := by rw [hk]; simp [Kind.children]
    have hleft : left.kind = .ident t.name := by
      unfold Target.isReference at hl
      split at hl <;> simp_all
    have hsc : left.scope = none := (hws.child hmemL).ident _ _ _ (.here _ _) hleft
    obtain ⟨hn', hk'⟩ :=
      (ihRight _ _ _ hk hw (hws.child hmemR) (entry_child hT hI hws hmemR) hrw).node_of_false
    simp only [hchild] at hn' hk'
    refine ⟨noneResolve_withKind (by simp)
      (by simp [Kind.children, identOf, arrowOf, bindingOf, hn']),
      by simp, keepsOthers_withKind (by simp [hk]) fun _ c hc τ m hm hkm hne => ?_⟩
    rw [hk] at hc
    simp only [Kind.children, List.map_cons, List.map_nil, List.mem_cons, List.not_mem_nil,
      or_false] at hc
    rcases hc with rfl | rfl
    · exact (no_others_of_resolving hleft hsc hI hm hne).elim
    · refine ⟨arrowOf [bindingOf cur] (Node.make (.logical l (identOf cur) (rw.node c))),
        by simp [Kind.children], occurs_make_child
          (c := Node.make (.logical l (identOf cur) (rw.node c))) (by simp [Kind.children])
          (occurs_make_child (c := rw.node c) (by simp [Kind.children]) (hk' τ m hm hkm hne))⟩
  | @assign op left right lw rw st₁ st₂ hs hk hl hlw hrw =>
    have hI := hen.resolves (by rw [← Target.shadowedIn_of_keeps hkeep]; exact hs)
    have hmemL : left ∈ n.kind.children.map Child.node := by rw [hk]; simp [Kind.children]
    have hmemR : right ∈ n.kind.children.map Child.node := by rw [hk]; simp [Kind.children]
    obtain ⟨hnl, hkl⟩ :=
      (ihLeft _ _ _ hk hw (hws.child hmemL) (entry_child hT hI hws hmemL) hlw).node_of_false
    obtain ⟨hnr, hkr⟩ := (ihRight _ _ _ hk (hw.derefWalk hlw) (hws.child hmemR)
      (entry_child hT hI hws hmemR) hrw).node_of_false
    simp only [hchild] at hnl hkl hnr hkr
    refine ⟨noneResolve_withKind (by simp) (by simp [Kind.children, hnl, hnr]), by simp,
      keepsOthers_withKind (by simp [hk]) fun _ c hc τ m hm hkm hne => ?_⟩
    rw [hk] at hc
    simp only [Kind.children, List.map_cons, List.map_nil, List.mem_cons, List.not_mem_nil,
      or_false] at hc
    rcases hc with rfl | rfl
    · exact exists_of_keepsOthers hkl (by simp [Kind.children]) hm hkm hne
    · exact exists_of_keepsOthers hkr (by simp [Kind.children]) hm hkm hne
  | identRef hs hk hwr' =>
    have hI := hen.resolves (by rw [← Target.shadowedIn_of_keeps hkeep]; exact hs)
    refine ⟨noneResolve_withKind (by simp) (by simp [Kind.children, Child.ofList, identOf]),
      by simp, keepsOthers_withKind (fun _ => hI) fun _ c hc => ?_⟩
    rw [hk] at hc
    simp [Kind.children] at hc
  | @ident y hs hk hy =>
    refine ⟨noneResolve_of_children (Or.inr fun y' h' => ?_) fun c hc => ?_, by simp,
      keepsOthers_self n⟩
    · rw [hk] at h'
      cases h'
      exact hy
    · rw [hk] at hc
      simp [Kind.children] at hc
  | @property key value sh key' st₁ vn after st₂ hs hk hkey hv =>
    have hI := hen.resolves (by rw [← Target.shadowedIn_of_keeps hkeep]; exact hs)
    have hmemV : value ∈ n.kind.children.map Child.node := by rw [hk]; simp [Kind.children]
    obtain ⟨hw₁, hnk, hkk⟩ := keyWalk hk hw hI hkey
    obtain ⟨hnv, -, hkv⟩ :=
      ihValue _ _ _ hk hw₁ (hws.child hmemV) (entry_child hT hI hws hmemV) hv
    simp only [hchild] at hnv hkv
    refine ⟨noneResolve_withKind (by simp) ?_, by simp,
      keepsOthers_property hk hkk (fun c hc => by simp [Kind.children, hc]) fun τ m hm hkm hne =>
        exists_of_keepsOthers hkv (by simp [Kind.children]) hm hkm hne⟩
    simp only [Kind.children, List.map_append, Child.node_ofKey, List.map_cons, List.map_nil,
      List.mem_append, List.mem_singleton]
    rintro c (hc | rfl)
    · exact hnk c hc
    · exact hnv
  | @propertyGetter key value sh key' st₁ c st₂ st₃ hs hk hkey hv hcut =>
    have hI := hen.resolves (by rw [← Target.shadowedIn_of_keeps hkeep]; exact hs)
    have hmemV : value ∈ n.kind.children.map Child.node := by rw [hk]; simp [Kind.children]
    obtain ⟨hw₁, hnk, hkk⟩ := keyWalk hk hw hI hkey
    obtain ⟨-, -, hD⟩ :=
      ihValue _ _ _ hk hw₁ (hws.child hmemV) (entry_child hT hI hws hmemV) hv
    exact ⟨noneResolve_withKind (by simp [getterOf]) (noneResolve_getterOf hnk), by simp,
      keepsOthers_property hk hkk (fun c hc => by simp [getterOf, Kind.children, hc])
        fun τ m hm hkm _ => (no_others_of_directsTo hD hm hkm).elim⟩
  | @propertySetter key value sh key' st₁ c st₂ val st₃ st₄ hs hk hkey hv hu hcut =>
    have hI := hen.resolves (by rw [← Target.shadowedIn_of_keeps hkeep]; exact hs)
    have hmemV : value ∈ n.kind.children.map Child.node := by rw [hk]; simp [Kind.children]
    obtain ⟨hw₁, hnk, hkk⟩ := keyWalk hk hw hI hkey
    obtain ⟨-, -, hD⟩ :=
      ihValue _ _ _ hk hw₁ (hws.child hmemV) (entry_child hT hI hws hmemV) hv
    exact ⟨noneResolve_withKind (by simp [setterOf]) (noneResolve_setterOf hnk), by simp,
      keepsOthers_property hk hkk (fun c hc => by simp [setterOf, Kind.children, hc])
        fun τ m hm hkm _ => (no_others_of_directsTo hD hm hkm).elim⟩
  | @propertyBoth key value sh key' st₁ d c st₂ val st₃ st₄ hs hk hkey hv _ _ hu hcut =>
    have hI := hen.resolves (by rw [← Target.shadowedIn_of_keeps hkeep]; exact hs)
    have hmemV : value ∈ n.kind.children.map Child.node := by rw [hk]; simp [Kind.children]
    obtain ⟨hw₁, hnk, hkk⟩ := keyWalk hk hw hI hkey
    obtain ⟨-, -, hD⟩ :=
      ihValue _ _ _ hk hw₁ (hws.child hmemV) (entry_child hT hI hws hmemV) hv
    have hcopy : ∀ e ∈ key'.copy.nodes, NoneResolve T t.name t.scope p.scope e := by
      intro e he
      rw [Key.nodes_copy, List.mem_map] at he
      obtain ⟨e, -, rfl⟩ := he
      exact noneResolve_copy e
    refine ⟨noneResolve_withKind (by simp [getterOf]) (noneResolve_getterOf hnk), ?_,
      keepsOthers_property hk hkk (fun c hc => by simp [getterOf, Kind.children, hc])
        fun τ m hm hkm _ => (no_others_of_directsTo hD hm hkm).elim⟩
    simp only [List.mem_singleton, forall_eq]
    exact noneResolve_of_children (Or.inl rfl) (noneResolve_setterOf hcopy)
  | @object props props' st₂ hs hk hm =>
    have hI := hen.resolves (by rw [← Target.shadowedIn_of_keeps hkeep]; exact hs)
    have hmemP : ∀ q ∈ props, q ∈ n.kind.children.map Child.node := by
      intro q hq
      rw [hk]
      simp [Kind.children, hq]
    obtain ⟨-, hprops⟩ := Rewrite.run_mapM_ok (Walking T)
      (fun a bs => (∀ b ∈ bs, NoneResolve T t.name t.scope (n.scope.getD p.scope) b) ∧
        ∃ b ∈ bs, KeepsOthers T t.name t.scope (n.scope.getD p.scope) a b)
      (fun a ha s bs s' hs' hb => by
        obtain ⟨w, hwa, rfl⟩ := run_derefMember.1 hb
        have hpost := ihProps _ hk a ha hs' (hws.child (hmemP a ha))
          (entry_child hT hI hws (hmemP a ha)) hwa
        simp only [hchild] at hpost
        refine ⟨hs'.derefWalk hwa, ?_⟩
        cases w with
        | done m after =>
          obtain ⟨hnm, hna, hkm⟩ := hpost
          exact ⟨by simpa [Walked.members] using ⟨hnm, hna⟩, m, by simp [Walked.members], hkm⟩
        | accessor d c => exact absurd hpost.1 Bool.false_ne_true) hw hm
    refine ⟨noneResolve_withKind (by simp) ?_, by simp,
      keepsOthers_withKind (by simp [hk]) fun _ c hc τ m hm hkm hne => ?_⟩
    · simp only [Kind.children, Child.node_ofList, List.mem_flatten]
      rintro c ⟨bs, hbs, hc⟩
      obtain ⟨a, -, hab, -⟩ := Rewrite.exists_of_forall₂_right hprops hbs
      exact hab c hc
    · rw [hk] at hc
      simp only [Kind.children, Child.node_ofList] at hc
      obtain ⟨bs, hbs, -, b, hb, hcb⟩ := Rewrite.exists_of_forall₂_left hprops hc
      exact ⟨b, by simpa [Kind.children] using ⟨bs, hbs, hb⟩, hcb τ m hm hkm hne⟩
  | @other k' st₂ hs hsp hm =>
    have hI := hen.resolves (by rw [← Target.shadowedIn_of_keeps hkeep]; exact hs)
    obtain ⟨-, hkids⟩ := Rewrite.run_mapM_ok (Walking T)
      (fun (c : Child n.kind) b => NoneResolve T t.name t.scope (n.scope.getD p.scope) b ∧
        KeepsOthers T t.name t.scope (n.scope.getD p.scope) c.node b)
      (fun c hc s b s' hs' hb => by
        obtain ⟨w, hwc, rfl⟩ := run_derefNode.1 hb
        have hmem : c.node ∈ n.kind.children.map Child.node := List.mem_map_of_mem hc
        have := (ihChildren c.node c.role c.lt hs' (hws.child hmem)
          (entry_child hT hI hws hmem) hwc).node_of_false
        simp only [hchild] at this
        exact ⟨hs'.derefWalk hwc, this⟩) hw (Rewrite.run_mapChildrenM_ok hm)
    have hnid : ∀ y, n.kind ≠ .ident y := fun y h => by simp [h, Kind.derefSpecial] at hsp
    obtain ⟨ns, rfl⟩ := Rewrite.run_mapChildrenM_setChildren hm
    refine ⟨noneResolve_withKind (fun y h => absurd h (Kind.setChildren_ne_ident hnid ns y))
      fun c hc => ?_, by simp, keepsOthers_withKind (fun h => absurd h (hnid _))
        fun _ c hc τ m hm hkm hne => ?_⟩
    · obtain ⟨a, -, hab, -⟩ := Rewrite.exists_of_forall₂_right hkids hc
      exact hab
    · obtain ⟨ch, hch, rfl⟩ := List.mem_map.1 hc
      obtain ⟨b, hb, -, hab⟩ := Rewrite.exists_of_forall₂_left hkids hch
      exact ⟨b, hb, hab τ m hm hkm hne⟩

end Deref

/-! ### Dereferencing a signal in a module -/

namespace Rewrite

variable {st st' : Session}

/-- A successful `derefAt` walked, for the target the owner's scope gives, the program's tree
from its top, rewriting the node the owner names. -/
theorem run_derefAt {owner : Nat} {name read write : String} {n : Node} {q : Place}
    (hfind : st.root.find owner Place.top = some (n, q))
    (h : (derefAt owner name read write).run st = .ok ((), st')) :
    ∃ root st₁, (st.root.updateAt owner (fun p m => derefNode ⟨q.scopeOf n, name⟩ ⟨read, write⟩ p m)
      Place.top).run st = .ok (root, st₁) ∧ st' = { st₁ with root := root } :=
  run_targetAt_updateAt (g := fun t p m => derefNode t ⟨read, write⟩ p m) hfind h

end Rewrite

/-- **Dereferencing a signal follows the scope tree.** In a module as read (a program whose
nodes carry no scope marks), take the node `owner` names and a name `x` that its scope
declares. A successful `derefAt` leaves, in the node's place and in the same scope, a subtree
in which no reference to `x` read from the source resolves to that declaration, and in which
every reference to `x` that resolves elsewhere still stands, in the same scope, unless it is
an operand of a directive applied to `x`. -/
theorem derefAt_follows_scopes {root : Node} {body : List Node} {hooks : String} {owner : Nat}
    {x read write : String} {n : Node} {q : Place} {st' : Session}
    (hm : root.unmarked = true) (hp : root.kind = .program body)
    (hfind : (Session.start root hooks).root.find owner Place.top = some (n, q))
    (hx : (Session.start root hooks).scopes.owns (q.scopeOf n) x = true) (hw : write ≠ x)
    (h : (Rewrite.derefAt owner x read write).run (Session.start root hooks) = .ok ((), st')) :
    ∃ n', Occurs 0 st'.root q.scope n' ∧
      NoneResolve (Session.start root hooks).scopes x (q.scopeOf n) q.scope n' ∧
      KeepsOthers (Session.start root hooks).scopes x (q.scopeOf n) q.scope n n' := by
  obtain ⟨hT, hws⟩ := ScopeWalk.analyzeScopes_wellScoped hm hp
  obtain ⟨root', st₁, hup, rfl⟩ := Rewrite.run_derefAt hfind h
  obtain ⟨-, hfound⟩ := Node.run_updateAt (Walking (analyzeScopes root).2)
    (fun q' m r => WellScoped (analyzeScopes root).2 q'.scope m →
      Entry (analyzeScopes root).2 ⟨q.scopeOf n, x⟩ q'.scope m →
      NoneResolve (analyzeScopes root).2 x (q.scopeOf n) q'.scope r ∧
        KeepsOthers (analyzeScopes root).2 x (q.scopeOf n) q'.scope m r)
    (fun q' m s r s' hs hr => by
      obtain ⟨w, hwalk, rfl⟩ := run_derefNode.1 hr
      exact ⟨hs.derefWalk hwalk, fun hws' hen =>
        (derefWalk_post (t := ⟨q.scopeOf n, x⟩) hT hx hw q' false m hs hws' hen hwalk).node_of_false⟩)
    Place.top _ ⟨hT, fun y hy => ⟨hy, Scopes.Keeps.refl y _⟩⟩ hup
  obtain ⟨r, hocc, hP⟩ := hfound n q hfind
  exact ⟨r, hocc, hP (hws.inside (Node.occurs_of_find hfind))
    (Or.inl (Scopes.declaring_of_owns hx))⟩

end SignalSugar
