import SignalSugar.Proofs.SessionSteps
/-!
# Respelling the references to bindings

`normalizeAt` replaces each reference to a binding, where the name means that binding, by what
a `Substitution` builds: a call of an accessor, or another name. A flattening runs one such
pass for every name its pattern binds, each over the part of the tree the scopes give it.

`Node.Respelled σ n n'` says what any number of such passes leave of a subtree, without saying
where each one reached: `n'` is `n` with some of its references to the names of `σ` replaced
by what `σ` gives for them, over and over. Every other node keeps its construct, its id and
its scope, so the relation follows the tree: a node of `n` has a respelled counterpart in `n'`
at the same place, and the copies of two respelled subtrees are respelled.

## Main results

* `Node.Respelled.inv`: a respelling of a node that is no reference is the node with its
  children respelled.
* `Node.Respelled.occurs`: every node of a subtree has a respelled counterpart standing at the
  same scope in every respelling of the subtree.
* `Node.Respelled.copy`: the copy of a respelling is a respelling of the copy.
* `Rewrite.respelled_normalizeAt`: a pass over the references to one binding respells every
  tree of the session and keeps the table and the helpers.
-/

namespace SignalSugar

/-- `Respelled σ n n'`: `n'` is `n` with some of its references to the names of `σ` replaced by
what `σ` gives for them, at any depth and any number of times over. -/
inductive Node.Respelled (σ : List (String × Substitution)) : Node → Node → Prop
  /-- a reference to a name of `σ` becomes its substitute -/
  | ident {n : Node} {x : String} {sub : Substitution} :
      n.kind = .ident x → (x, sub) ∈ σ → Respelled σ n (n.withKind sub.construct)
  /-- a node keeps its construct around respelled children -/
  | rebuild {n : Node} {ns : List Node} : ns.length = (n.kind.children.map Child.node).length →
      (∀ a b, (a, b) ∈ (n.kind.children.map Child.node).zip ns → Respelled σ a b) →
      Respelled σ n (n.withKind (n.kind.setChildren ns))
  /-- respellings follow one another -/
  | trans {a b c : Node} : Respelled σ a b → Respelled σ b c → Respelled σ a c

/-- A relation that composes composes elementwise. -/
theorem List.Forall₂.trans_of {α : Type} {R : α → α → Prop}
    (hR : ∀ a b c, R a b → R b c → R a c) :
    ∀ {l₁ l₂ l₃ : List α}, List.Forall₂ R l₁ l₂ → List.Forall₂ R l₂ l₃ → List.Forall₂ R l₁ l₃
  | [], [], [], .nil, .nil => .nil
  | _ :: _, _ :: _, _ :: _, .cons h₁ t₁, .cons h₂ t₂ =>
    .cons (hR _ _ _ h₁ h₂) (trans_of hR t₁ t₂)

@[simp] theorem Node.withKind_kind_self (n : Node) : n.withKind n.kind = n := by
  cases n
  rfl

namespace Node.Respelled

variable {σ τ : List (String × Substitution)} {a b c n n' : Node}

/-- The children of a node, respelled one by one, respell the node. -/
theorem congr {l : List Node}
    (h : List.Forall₂ (Respelled σ) (n.kind.children.map Child.node) l) :
    Respelled σ n (n.withKind (n.kind.setChildren l)) :=
  .rebuild (List.forall₂_iff_zip.1 h).1.symm fun _ _ hab => (List.forall₂_iff_zip.1 h).2 hab

theorem refl (σ : List (String × Substitution)) (n : Node) : Respelled σ n n := by
  have h := congr (σ := σ) (n := n) (l := n.kind.children.map Child.node)
    (List.forall₂_same.2 fun c hc => refl σ c)
  rwa [Kind.setChildren_self, withKind_kind_self] at h
termination_by sizeOf n
decreasing_by
  obtain ⟨d, -, rfl⟩ := List.mem_map.1 hc
  have := d.lt
  have := Node.sizeOf_kind_lt n
  omega

theorem mono (hστ : ∀ e ∈ σ, e ∈ τ) (h : Respelled σ a b) : Respelled τ a b := by
  induction h with
  | ident hk hx => exact .ident hk (hστ _ hx)
  | rebuild hlen _ ih => exact .rebuild hlen ih
  | trans _ _ ih₁ ih₂ => exact .trans ih₁ ih₂

theorem id_eq (h : Respelled σ a b) : b.id = a.id := by
  induction h with
  | ident => rfl
  | rebuild => rfl
  | trans _ _ ih₁ ih₂ => exact ih₂.trans ih₁

theorem scope_eq (h : Respelled σ a b) : b.scope = a.scope := by
  induction h with
  | ident => rfl
  | rebuild => rfl
  | trans _ _ ih₁ ih₂ => exact ih₂.trans ih₁

theorem span_eq (h : Respelled σ a b) : b.span = a.span := by
  induction h with
  | ident => rfl
  | rebuild => rfl
  | trans _ _ ih₁ ih₂ => exact ih₂.trans ih₁

/-- A respelling concerns the construct only: it carries over to any node given the constructs. -/
theorem withKind (h : Respelled σ a b) (c : Node) :
    Respelled σ (c.withKind a.kind) (c.withKind b.kind) := by
  induction h with
  | ident hk hx => exact .ident hk hx
  | @rebuild n ns hlen hch => exact .rebuild hlen hch
  | trans _ _ ih₁ ih₂ => exact ih₁.trans ih₂

/-- **A respelling of a node that is no reference is the node with its children respelled.**
Two rebuilds in a row are one: the second puts back the children the first put there. -/
theorem inv (h : Respelled σ a b) (ha : ∀ x, a.kind ≠ .ident x) :
    ∃ ns, b = a.withKind (a.kind.setChildren ns) ∧
      List.Forall₂ (Respelled σ) (a.kind.children.map Child.node) ns := by
  induction h with
  | ident hk => exact absurd hk (ha _)
  | rebuild hlen hch => exact ⟨_, rfl, List.forall₂_iff_zip.2 ⟨hlen.symm, hch _ _⟩⟩
  | @trans a b c _ _ ih₁ ih₂ =>
    obtain ⟨ns, rfl, hns⟩ := ih₁ ha
    obtain ⟨ms, rfl, hms⟩ := ih₂ fun x => Kind.setChildren_ne_ident ha ns x
    have hlen : ns.length = (a.kind.children.map Child.node).length := hns.length_eq.symm
    rw [kind_withKind, Kind.children_setChildren _ hlen] at hms
    refine ⟨ms, ?_, List.Forall₂.trans_of (fun _ _ _ h₁ h₂ => .trans h₁ h₂) hns hms⟩
    rw [withKind_withKind, kind_withKind,
      Kind.setChildren_setChildren _ hlen (hms.length_eq.symm.trans hlen)]

/-- The children of a respelled node that is no reference are respellings of its children. -/
theorem children (h : Respelled σ a b) (ha : ∀ x, a.kind ≠ .ident x) :
    List.Forall₂ (Respelled σ) (a.kind.children.map Child.node) (b.kind.children.map Child.node) := by
  obtain ⟨ns, rfl, hns⟩ := h.inv ha
  rwa [kind_withKind, Kind.children_setChildren _ hns.length_eq.symm]

/-- **Every node of a subtree has a respelled counterpart** at the same scope in every
respelling of the subtree. -/
theorem occurs (h : Respelled σ a b) {s t : Nat} {m : Node} (hm : Occurs s a t m) :
    ∃ m', Occurs s b t m' ∧ Respelled σ m m' := by
  induction h generalizing s m with
  | @ident n x sub hk hx =>
    rcases hm.cases_of with ⟨rfl, rfl⟩ | ⟨-, c, hc, -⟩
    · exact ⟨_, .here _ _, .ident hk hx⟩
    · rw [hk] at hc
      simp [Kind.children] at hc
  | @rebuild n ns hlen hch ih =>
    rcases hm.cases_of with ⟨rfl, rfl⟩ | ⟨-, c, hc, hm⟩
    · exact ⟨_, .here _ _, .rebuild hlen hch⟩
    · have hf : List.Forall₂ (fun a b => (a, b) ∈ (n.kind.children.map Child.node).zip ns)
          (n.kind.children.map Child.node) ns :=
        List.forall₂_iff_zip.2 ⟨hlen.symm, fun hab => hab⟩
      obtain ⟨c', hc', hzip⟩ := Rewrite.exists_of_forall₂_left hf hc
      obtain ⟨m', hm', hR⟩ := ih c c' hzip hm
      refine ⟨m', .child trivial ?_ hm', hR⟩
      rwa [kind_withKind, Kind.children_setChildren _ hlen]
  | trans _ _ ih₁ ih₂ =>
    obtain ⟨m₁, hm₁, hR₁⟩ := ih₁ hm
    obtain ⟨m₂, hm₂, hR₂⟩ := ih₂ hm₁
    exact ⟨m₂, hm₂, hR₁.trans hR₂⟩

end Node.Respelled

/-! ### Copies -/

namespace Node

/-- A copy is its construct with the copies of its children put back. -/
theorem copy_eq (n : Node) :
    n.copy = .mk 0 n.span none (n.kind.setChildren ((n.kind.children.map Child.node).map copy)) := by
  have h := Kind.mapChildrenM_eq (m := Id) n.kind fun c _ _ => pure (copy c)
  rw [copy, h, List.mapM_pure, List.map_map]
  rfl

/-- The construct that replaces a reference is its own copy. -/
theorem copy_construct (n : Node) (sub : Substitution) :
    (n.withKind sub.construct).copy = n.copy.withKind sub.construct := by
  cases sub with
  | invoke c =>
    rw [copy_eq (n.withKind _), copy_eq n]
    have hc : (Node.make (.ident c)).copy = Node.make (.ident c) := by
      rw [copy_eq]
      rfl
    simp [Substitution.construct, Kind.children, Kind.setChildren, hc, withKind]
  | reference y =>
    rw [copy_eq (n.withKind _), copy_eq n]
    simp [Substitution.construct, Kind.children, Kind.setChildren, withKind]

namespace Respelled

variable {σ : List (String × Substitution)} {a b : Node}

/-- **The copy of a respelling is a respelling of the copy.** A copy keeps every construct, so
a reference of the copy is replaced exactly where one of the original was. -/
theorem copy (h : Respelled σ a b) : Respelled σ a.copy b.copy := by
  induction h with
  | @ident n x sub hk hx =>
    rw [copy_construct]
    refine .ident ?_ hx
    rw [copy_eq, kind, hk]
    rfl
  | @rebuild n ns hlen hch ih =>
    have hlen' : (ns.map Node.copy).length = (n.copy.kind.children.map Child.node).length := by
      rw [children_copy, List.length_map, List.length_map, hlen]
    have h := Respelled.rebuild (σ := σ) (n := n.copy) hlen' fun a b hab => by
      rw [children_copy, List.zip_map, List.mem_map] at hab
      obtain ⟨⟨a₀, b₀⟩, hab₀, he⟩ := hab
      simp only [Prod.map, Prod.mk.injEq] at he
      obtain ⟨rfl, rfl⟩ := he
      exact ih a₀ b₀ hab₀
    have hchildren : (n.kind.setChildren ns).children.map Child.node = ns :=
      Kind.children_setChildren _ hlen
    have heq : (n.withKind (n.kind.setChildren ns)).copy =
        n.copy.withKind (n.copy.kind.setChildren (ns.map Node.copy)) := by
      rw [copy_eq (n.withKind _), kind_withKind, hchildren, copy_eq n]
      show Node.mk 0 n.span none _ = Node.mk 0 n.span none ((n.kind.setChildren _).setChildren _)
      rw [Kind.setChildren_setChildren _ hlen (by simp [hlen]),
        Kind.setChildren_setChildren _ (by simp) (by simpa using hlen)]
    rw [heq]
    exact h
  | trans _ _ ih₁ ih₂ => exact ih₁.trans ih₂

end Respelled

end Node

/-! ### Respelled sessions -/

/-- Every tree of `st'` is a respelling of the tree of `st` in its place, and the table and the
helpers are those of `st`. -/
structure Session.Respelled (σ : List (String × Substitution)) (st st' : Session) : Prop where
  trees : List.Forall₂ (Node.Respelled σ) st.trees st'.trees
  scopes : st'.scopes = st.scopes
  hooks : st'.hooks = st.hooks

/-- A list with one entry replaced by a respelling of it is a respelling of the list. -/
theorem List.forall₂_respelled_set {σ : List (String × Substitution)} :
    ∀ {l : List Node} {i : Nat} {a b : Node}, l[i]? = some a → Node.Respelled σ a b →
      List.Forall₂ (Node.Respelled σ) l (l.set i b)
  | [], _, _, _, h, _ => by cases h
  | c :: l, 0, a, b, h, hR => by
    cases h
    exact .cons hR (List.forall₂_same.2 fun d _ => .refl σ d)
  | c :: l, i + 1, a, b, h, hR => .cons (.refl σ c) (forall₂_respelled_set h hR)

namespace Session.Respelled

variable {σ : List (String × Substitution)} {st st' : Session}

theorem refl (σ : List (String × Substitution)) (st : Session) : st.Respelled σ st :=
  ⟨List.forall₂_same.2 fun t _ => .refl σ t, rfl, rfl⟩

/-- Every node of a tree of the session has a respelled counterpart, standing at the same scope,
in a tree of the respelled session. -/
theorem occurs (h : st.Respelled σ st') {t : Node} (ht : t ∈ st.trees) {s τ : Nat} {m : Node}
    (hm : Occurs s t τ m) : ∃ t' ∈ st'.trees, ∃ m', Occurs s t' τ m' ∧ Node.Respelled σ m m' := by
  obtain ⟨t', ht', hR⟩ := Rewrite.exists_of_forall₂_left h.trees ht
  obtain ⟨m', hm', hRm⟩ := hR.occurs hm
  exact ⟨t', ht', m', hm', hRm⟩

end Session.Respelled

/-! ### A pass over the references to one binding -/

namespace Rewrite

variable {t : Target} {sub : Substitution} {st st' : Session}

/-- A successful rebuild of a construct ran the visits of its children and put their answers
back in place. -/
theorem run_mapChildrenM_visits {k k' : Kind}
    {f : (c : Node) → Role → sizeOf c < sizeOf k → Rewrite Node}
    (h : (k.mapChildrenM f).run st = .ok (k', st')) :
    ∃ ns, (k.children.mapM fun c => f c.node c.role c.lt).run st = .ok (ns, st') ∧
      k' = k.setChildren ns := by
  rw [Kind.mapChildrenM_eq, StateT.run_map] at h
  cases hr : (k.children.mapM fun c => f c.node c.role c.lt).run st with
  | error e =>
    rw [hr] at h
    cases h
  | ok r =>
    obtain ⟨ns, s⟩ := r
    rw [hr] at h
    cases h
    exact ⟨ns, rfl, rfl⟩

/-- A successful walk for `t` respells the subtree it walked by `t`'s name and its substitute,
and leaves the session as it was. -/
theorem respelled_normalizeWalk (p : Place) (n : Node) :
    ∀ {st n' st'}, (normalizeWalk t sub p n).run st = .ok (n', st') →
      Node.Respelled [(t.name, sub)] n n' := by
  induction p, n using normalizeWalk.induct with
  | _ p n ih =>
  intro st n' st' h
  rcases run_normalizeWalk h with ⟨-, rfl, -⟩ | ⟨-, hr, rfl, -⟩ | ⟨-, -, k, hk, rfl⟩
  · exact .refl _ _
  · simp only [Target.isReference] at hr
    split at hr
    · rename_i y hy
      exact .ident hy (by simp [beq_iff_eq.1 hr])
    · cases hr
  · obtain ⟨ns, hrun, rfl⟩ := run_mapChildrenM_visits hk
    obtain ⟨-, hall⟩ := run_mapM_ok (fun _ => True)
      (fun c b => Node.Respelled [(t.name, sub)] c.node b)
      (fun c _ s b s' _ hb => ⟨trivial, ih c.node c.role c.lt hb⟩) trivial hrun
    exact .congr (List.forall₂_map_left_iff.2 hall)

/-- A rewrite of the nodes with an id, by a step that respells what it is given and keeps the
session, respells the tree and keeps the session. -/
theorem respelled_updateAt {σ : List (String × Substitution)} {x : Nat}
    {f : Place → Node → Rewrite Node}
    (hf : ∀ q m s r s', (f q m).run s = .ok (r, s') → s' = s ∧ Node.Respelled σ m r)
    (p : Place) (n : Node) :
    ∀ {st n' st'}, (n.updateAt x f p).run st = .ok (n', st') →
      st' = st ∧ Node.Respelled σ n n' := by
  induction p, n using Node.updateAt.induct x with
  | case1 p n hx =>
    intro st n' st' h
    rw [Node.updateAt, if_pos hx] at h
    exact hf p n st n' st' h
  | case2 p n hx hno =>
    intro st n' st' h
    rw [Node.updateAt, if_neg hx, if_pos hno] at h
    obtain ⟨rfl, rfl⟩ := run_pure_ok.1 h
    exact ⟨rfl, .refl _ _⟩
  | case3 p n hx hno ih =>
    intro st n' st' h
    rw [Node.updateAt, if_neg hx, if_neg hno] at h
    obtain ⟨k, st₁, hk, h⟩ := run_bind_ok.1 h
    obtain ⟨rfl, rfl⟩ := run_pure_ok.1 h
    obtain ⟨ns, hrun, rfl⟩ := run_mapChildrenM_visits hk
    obtain ⟨hs, hall⟩ := run_mapM_ok (· = st) (fun c b => Node.Respelled σ c.node b)
      (fun c _ s b s' hs hb => (ih c.node c.role c.lt hb).imp (·.trans hs) id) rfl hrun
    exact ⟨hs, .congr (List.forall₂_map_left_iff.2 hall)⟩

/-- Rewriting the tree that holds a node, by a step that respells the tree and keeps the
session, respells the session. -/
theorem respelled_inTreeOf {σ : List (String × Substitution)} {x : Nat}
    {F : Place → Node → Rewrite Node} {b : Bool}
    (hF : ∀ q t t' s, (F q t).run st = .ok (t', s) → s = st ∧ Node.Respelled σ t t')
    (h : (inTreeOf x F).run st = .ok (b, st')) : st.Respelled σ st' := by
  simp only [inTreeOf, run_bind_ok] at h
  obtain ⟨s₀, s₁, hget, h⟩ := h
  cases hget
  by_cases hx : st.root.hasId x = true
  · rw [if_pos hx] at h
    simp only [run_bind_ok] at h
    obtain ⟨root, st₁, hroot, u, st₂, hmod, hret⟩ := h
    obtain ⟨-, rfl⟩ := run_pure_ok.1 hret
    cases hmod
    obtain ⟨rfl, hR⟩ := hF _ _ _ _ hroot
    exact ⟨.cons hR (List.forall₂_same.2 fun t _ => .refl σ t), rfl, rfl⟩
  · rw [if_neg hx] at h
    split at h
    · obtain ⟨-, rfl⟩ := run_pure_ok.1 h
      exact .refl σ st
    · rename_i i hi
      split at h
      · obtain ⟨-, rfl⟩ := run_pure_ok.1 h
        exact .refl σ st
      · rename_i t q hiq
        simp only [run_bind_ok] at h
        obtain ⟨t', st₁, ht', u, st₂, hmod, hret⟩ := h
        obtain ⟨-, rfl⟩ := run_pure_ok.1 hret
        cases hmod
        obtain ⟨rfl, hR⟩ := hF _ _ _ _ ht'
        refine ⟨.cons (.refl σ _) ?_, rfl, rfl⟩
        rw [List.map_set]
        exact List.forall₂_respelled_set (by simp [hiq]) hR

/-- The binding a pass is for has the name it was asked for; looking it up reads the session. -/
theorem run_targetAt_name {owner : Nat} {name : String}
    (h : (targetAt owner name).run st = .ok (t, st')) : t.name = name ∧ st' = st := by
  simp only [targetAt, run_bind_ok] at h
  obtain ⟨s, st₁, hs, h⟩ := h
  obtain ⟨rfl, rfl⟩ := run_pure_ok.1 h
  exact ⟨rfl, (reads_scopeAt owner st s st₁ hs).symm⟩

/-- **A pass over the references to one binding respells the session** by the binding's name
and its substitute. -/
theorem respelled_normalizeAt {owner : Nat} {name : String} :
    Along (Session.Respelled [(name, sub)]) (normalizeAt owner sub name) := by
  intro st u st' h
  simp only [normalizeAt, run_bind_ok] at h
  obtain ⟨t, s₁, ht, h⟩ := h
  obtain ⟨htn, rfl⟩ := run_targetAt_name ht
  obtain ⟨b, h⟩ := run_discard_ok.1 h
  subst htn
  exact respelled_inTreeOf (fun q tr tr' s hrun => respelled_updateAt
    (fun q' m s r s' hr => ⟨normalizeWalk_session q' m hr, respelled_normalizeWalk q' m hr⟩)
    q tr hrun) h

end Rewrite

end SignalSugar
