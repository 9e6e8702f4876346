import SignalSugar.Proofs.PatternAccessors
import SignalSugar.Proofs.Destructuring
/-!
# Flattening a destructuring declaration

`Rewrite.destructure` flattens the pattern of a declarator into accessors put before it and
partitions put after it or in its place, and respells the reads of the names the pattern binds
as it goes. This module follows a flattening step by step, through the declaration around the
declarator.

`Session.Around σ st τ V kd pre D post` says that the declaration `V` stands in the program of
the tidy session `st` and that its declarators are, position by position, respellings by `σ`
of `pre`, then `D`, then `post`. Every operation of a flattening keeps such a description, with
the lists and `σ` it says: an accessor joins `pre`, a partition joins `post` or takes the place
of `D`, a pass over the reads of a name adds the name to `σ`, and the rest leave it as it was
(`Session.Around.insertNear_before` and its neighbours). What the flattening reads of the
pattern and of the source in the meantime are respellings of what they were
(`Session.Around.refresh`).
-/

namespace SignalSugar

/-- Where a node stands below another does not depend on the scope one starts from. -/
theorem Inside.rebase {P : Node → Prop} {σ τ : Nat} {n m : Node} (h : Inside P σ n τ m)
    (σ' : Nat) : ∃ τ', Inside P σ' n τ' m := by
  induction h generalizing σ' with
  | here => exact ⟨σ', .here _ _⟩
  | child hP hc _ ih =>
    obtain ⟨τ', h'⟩ := ih _
    exact ⟨τ', .child hP hc h'⟩

namespace Node

/-- The source ids of a subtree are among those of every tree it stands in. -/
theorem ids_sublist_of_occurs {σ τ : Nat} {t n : Node} (h : Occurs σ t τ n) :
    n.ids.Sublist t.ids := by
  induction h with
  | here => exact List.Sublist.refl _
  | child _ hc _ ih => exact ih.trans (ids_sublist_of_mem_children hc)

/-- The size of a tree: one for the node and the sizes of its children. -/
theorem count_eq (n : Node) : n.count = 1 + ((n.kind.children.map Child.node).map count).sum := by
  have foldl_add : ∀ (l : List Nat) (a : Nat), l.foldl (· + ·) a = a + l.sum := by
    intro l
    induction l with
    | nil => simp
    | cons b l ih => intro a; rw [List.foldl_cons, ih, List.sum_cons]; omega
  rw [count, foldl_add, List.map_map]
  rfl

/-- A child is smaller than its parent. -/
theorem count_lt_of_mem_children {n c : Node} (hc : c ∈ n.kind.children.map Child.node) :
    c.count < n.count := by
  rw [count_eq n]
  have := List.le_sum_of_mem (List.mem_map_of_mem (f := count) hc)
  omega

/-- A respelling keeps a node's id, span and scope: only its construct may differ. -/
theorem Respelled.withKind_eq {σ : List (String × Substitution)} {a b : Node}
    (h : Respelled σ a b) (k : Kind) : b.withKind k = a.withKind k := by
  simp only [Node.withKind, h.id_eq, h.span_eq, h.scope_eq]

end Node

/-- Respellings by `σ` then by `σ'` are respellings by both, elementwise. -/
theorem List.Forall₂.respelled_trans {σ σ' : List (String × Substitution)} {l₁ l₂ l₃ : List Node}
    (h₁ : List.Forall₂ (Node.Respelled σ) l₁ l₂) (h₂ : List.Forall₂ (Node.Respelled σ') l₂ l₃) :
    List.Forall₂ (Node.Respelled (σ ++ σ')) l₁ l₃ :=
  List.Forall₂.trans_of (fun _ _ _ ha hb => .trans ha hb)
    (h₁.imp fun _ _ h => h.mono fun _ he => List.mem_append_left _ he)
    (h₂.imp fun _ _ h => h.mono fun _ he => List.mem_append_right _ he)

theorem Option.Rel.respelled_mono {σ σ' : List (String × Substitution)} (hσ : ∀ e ∈ σ, e ∈ σ')
    {a b : Option Node} (h : Option.Rel (Node.Respelled σ) a b) :
    Option.Rel (Node.Respelled σ') a b := by
  cases h with
  | none => exact .none
  | some h => exact .some (h.mono hσ)

/-- Inserting next to the node with id `x`, when it is the first with that id. -/
theorem insertNext_append {x : Nat} {node Dc : Node} {after : Bool} (hDc : Dc.id = x)
    (ds₂ : List Node) :
    ∀ ds₁ : List Node, (∀ c ∈ ds₁, c.id ≠ x) →
      insertNext x node after (ds₁ ++ Dc :: ds₂) =
        ds₁ ++ (if after then Dc :: node :: ds₂ else node :: Dc :: ds₂)
  | [], _ => by cases after <;> simp [insertNext, hDc]
  | c :: ds₁, h => by
    have hc : c.id ≠ x := h c List.mem_cons_self
    rw [List.cons_append, insertNext, if_neg (by simpa using hc),
      insertNext_append hDc ds₂ ds₁ fun c' hc' => h c' (List.mem_cons_of_mem _ hc')]
    rfl

/-- Replacing the construct of the node with id `x`, when no other node of the list has it. -/
theorem map_withKind_append {x : Nat} {k : Kind} {Dc : Node} (hDc : Dc.id = x)
    {ds₁ ds₂ : List Node} (hne : ∀ c ∈ ds₁ ++ ds₂, c.id ≠ x) :
    (ds₁ ++ Dc :: ds₂).map (fun c => if c.id = x then c.withKind k else c) =
      ds₁ ++ Dc.withKind k :: ds₂ := by
  have keep : ∀ l : List Node, (∀ c ∈ l, c.id ≠ x) →
      l.map (fun c => if c.id = x then c.withKind k else c) = l := fun l hl => by
    conv_rhs => rw [← List.map_id l]
    exact List.map_congr_left fun c hc => if_neg (hl c hc)
  rw [List.map_append, List.map_cons, if_pos hDc,
    keep ds₁ fun c hc => hne c (List.mem_append_left _ hc),
    keep ds₂ fun c hc => hne c (List.mem_append_right _ hc)]

namespace Session

variable {σ σ' : List (String × Substitution)} {st st' : Session} {τ : Nat} {V D : Node}
  {kd : DeclKind} {pre post : List Node}

/-- In a tidy session, no other declarator of a declaration of the program has the id of one
read from the source. -/
theorem Tidy.id_ne_of_declarators (ht : st.Tidy) {ds₁ ds₂ : List Node} {Dc : Node}
    (hV : Occurs 0 st.root τ (V.withKind (.varDecl kd (ds₁ ++ Dc :: ds₂)))) (h0 : Dc.id ≠ 0) :
    ∀ c ∈ ds₁ ++ ds₂, c.id ≠ Dc.id := by
  intro c hc hcid
  have hd := ht.root_nodup.sublist (Node.ids_sublist_of_occurs hV)
  rw [Node.ids_eq] at hd
  have hch := (List.nodup_append.1 hd).2.1
  simp only [Node.kind_withKind, Kind.children, Child.node_ofList, List.flatMap_append,
    List.flatMap_cons] at hch
  have hcin : Dc.id ∈ c.ids := hcid ▸ Node.id_mem_ids_of_occurs (.here 0 c) (hcid ▸ h0)
  have hDin : Dc.id ∈ Dc.ids := Node.id_mem_ids_of_occurs (.here 0 Dc) h0
  rcases List.mem_append.1 hc with hc | hc
  · exact List.disjoint_of_nodup_append hch (List.mem_flatMap.2 ⟨c, hc, hcin⟩)
      (List.mem_append_left _ hDin)
  · exact List.disjoint_of_nodup_append (List.nodup_append.1 hch).2.1 hDin
      (List.mem_flatMap.2 ⟨c, hc, hcin⟩)

/-- The declaration `V` stands at scope `τ` in the program of the tidy session `st`, and its
declarators are, position by position, respellings by `σ` of `pre`, then `D`, then `post`. -/
structure Around (σ : List (String × Substitution)) (st : Session) (τ : Nat) (V : Node)
    (kd : DeclKind) (pre : List Node) (D : Node) (post : List Node) : Prop where
  tidy : st.Tidy
  holds : ∃ ds, Occurs 0 st.root τ (V.withKind (.varDecl kd ds)) ∧
    List.Forall₂ (Node.Respelled σ) (pre ++ D :: post) ds

namespace Around

/-- The declarator list cut at the respelling of `D`. -/
theorem split (h : st.Around σ τ V kd pre D post) :
    ∃ ds₁ Dc ds₂, Occurs 0 st.root τ (V.withKind (.varDecl kd (ds₁ ++ Dc :: ds₂))) ∧
      List.Forall₂ (Node.Respelled σ) pre ds₁ ∧ Node.Respelled σ D Dc ∧
      List.Forall₂ (Node.Respelled σ) post ds₂ := by
  obtain ⟨ds, hV, hf⟩ := h.holds
  obtain ⟨ds₁, m, rfl, h₁, h₂⟩ := List.Forall₂.append_left_inv hf
  cases h₂ with
  | cons hD h₂ => exact ⟨ds₁, _, _, hV, h₁, hD, h₂⟩

theorem mono (hσ : ∀ e ∈ σ, e ∈ σ') (h : st.Around σ τ V kd pre D post) :
    st.Around σ' τ V kd pre D post := by
  obtain ⟨ds, hV, hf⟩ := h.holds
  exact ⟨h.tidy, ds, hV, hf.imp fun _ _ hab => hab.mono hσ⟩

/-! ### What each operation of a flattening does to the declaration -/

variable {d : Nat}

/-- **An accessor put before the declarator** joins the declarators before it. -/
theorem insertNear_before {node₀ node : Node} (h : st.Around σ τ V kd pre D post)
    (hd : D.id = d) (h0 : d ≠ 0) (hnode : node.ids = []) (hR : Node.Respelled σ node₀ node)
    (hr : (Rewrite.insertNear d node false).run st = .ok ((), st')) :
    st'.Around σ τ V kd (pre ++ [node₀]) D post := by
  obtain ⟨ds₁, Dc, ds₂, hV, h₁, hDc, h₂⟩ := h.split
  have hDcid : Dc.id = d := hDc.id_eq.trans hd
  have hne := h.tidy.id_ne_of_declarators hV (hDcid ▸ h0)
  have hocc := Rewrite.insertNear_declaration h0 h.tidy hV rfl
    (List.mem_append_right _ List.mem_cons_self) hDcid hr
  rw [Node.withKind_withKind, insertNext_append hDcid ds₂ ds₁
    fun c hc => hDcid ▸ hne c (List.mem_append_left _ hc)] at hocc
  refine ⟨(Rewrite.advances_insertNear [] hnode st () st' hr |>.tidy h.tidy).1, _, hocc, ?_⟩
  simpa using List.rel_append h₁ (List.Forall₂.cons hR (.cons hDc h₂))

/-- **A partition put after the declarator** comes first among the declarators after it. -/
theorem insertNear_after {node₀ node : Node} (h : st.Around σ τ V kd pre D post)
    (hd : D.id = d) (h0 : d ≠ 0) (hnode : node.ids = []) (hR : Node.Respelled σ node₀ node)
    (hr : (Rewrite.insertNear d node true).run st = .ok ((), st')) :
    st'.Around σ τ V kd pre D (node₀ :: post) := by
  obtain ⟨ds₁, Dc, ds₂, hV, h₁, hDc, h₂⟩ := h.split
  have hDcid : Dc.id = d := hDc.id_eq.trans hd
  have hne := h.tidy.id_ne_of_declarators hV (hDcid ▸ h0)
  have hocc := Rewrite.insertNear_declaration h0 h.tidy hV rfl
    (List.mem_append_right _ List.mem_cons_self) hDcid hr
  rw [Node.withKind_withKind, insertNext_append hDcid ds₂ ds₁
    fun c hc => hDcid ▸ hne c (List.mem_append_left _ hc)] at hocc
  refine ⟨(Rewrite.advances_insertNear [] hnode st () st' hr |>.tidy h.tidy).1, _, hocc, ?_⟩
  simpa using List.rel_append h₁ (List.Forall₂.cons hDc (.cons hR h₂))

/-- **A replacement of the declarator** puts the new construct in its place. -/
theorem replace {k₀ k : Kind} (h : st.Around σ τ V kd pre D post) (hd : D.id = d) (h0 : d ≠ 0)
    (hk : (k.children.map Child.node).flatMap Node.ids = [])
    (hcall : ∀ c args o, k ≠ .call c args o) (hident : ∀ y, k ≠ .ident y)
    (hR : Node.Respelled σ (Node.make k₀) (Node.make k))
    (hr : (Rewrite.replace d k).run st = .ok ((), st')) :
    st'.Around σ τ V kd pre (D.withKind k₀) post := by
  obtain ⟨ds₁, Dc, ds₂, hV, h₁, hDc, h₂⟩ := h.split
  have hDcid : Dc.id = d := hDc.id_eq.trans hd
  have hne := h.tidy.id_ne_of_declarators hV (hDcid ▸ h0)
  have hocc := Rewrite.replace_declaration h0 h.tidy hV
    (by simp [Kind.children]) hDcid hr
  simp only [Node.withKind_withKind, Node.kind_withKind, Kind.children, Child.node_ofList,
    Kind.setChildren] at hocc
  rw [map_withKind_append hDcid fun c hc => hDcid ▸ hne c hc] at hocc
  refine ⟨(Rewrite.advances_replace_built hk hcall hident st () st' hr |>.tidy h.tidy).1, _,
    hocc, ?_⟩
  have hD' : Node.Respelled σ (D.withKind k₀) (Dc.withKind k) := by
    rw [hDc.withKind_eq]
    exact hR.withKind D
  exact List.rel_append h₁ (List.Forall₂.cons hD' h₂)

/-- **A pass over the reads of a name** respells the declaration once more. -/
theorem normalizeAt {owner : Nat} {sub : Substitution} {x : String}
    (h : st.Around σ τ V kd pre D post) (hsub : Label.ofName? sub.name = none)
    (hr : (Rewrite.normalizeAt owner sub x).run st = .ok ((), st')) :
    st'.Around (σ ++ [(x, sub)]) τ V kd pre D post := by
  obtain ⟨ds, hV, hf⟩ := h.holds
  obtain ⟨m', hm', hR⟩ := (Rewrite.respelled_normalizeAt st () st' hr).occurs_root hV
  obtain ⟨ds', rfl, hds⟩ := hR.varDecl rfl
  refine ⟨(Rewrite.advances_normalizeAt hsub st () st' hr |>.tidy h.tidy).1, ds', ?_,
    List.Forall₂.respelled_trans hf hds⟩
  simpa using hm'

/-- An import leaves the declaration as it was. -/
theorem hook {name l : String} (h : st.Around σ τ V kd pre D post)
    (hr : (Rewrite.hook name).run st = .ok (l, st')) : st'.Around σ τ V kd pre D post := by
  obtain ⟨ds, hV, hf⟩ := h.holds
  exact ⟨(Rewrite.advances_hook [] name st l st' hr |>.tidy h.tidy).1, ds,
    Rewrite.hook_declaration hV rfl hr, hf⟩

/-- A fresh name leaves the declaration as it was. -/
theorem uidAt {x : Nat} {hint a : String} (h : st.Around σ τ V kd pre D post)
    (hr : (Rewrite.uidAt x hint).run st = .ok (a, st')) : st'.Around σ τ V kd pre D post := by
  obtain ⟨s, s₁, hs, hu⟩ := Rewrite.run_bind_ok.1 hr
  obtain rfl := Rewrite.reads_scopeAt x st s s₁ hs
  rw [Rewrite.run_uidIn] at hu
  cases hu
  exact ⟨h.tidy, h.holds⟩

/-- **What a flattening reads again is a respelling of what it read before**: the current
version of a node read from the source that stood in `D` is a respelling of it, and a built node
is its own current version. -/
theorem refresh {m₀ m m' : Node} (h : st.Around σ τ V kd pre D post)
    (hm : Node.Respelled σ m₀ m) (hocc : m.id ≠ 0 → ∃ s t, Occurs s D t m₀)
    (hr : (Rewrite.refresh m).run st = .ok (m', st')) : st' = st ∧ Node.Respelled σ m₀ m' := by
  obtain rfl : st = st' := Rewrite.reads_refresh m st m' st' hr
  refine ⟨rfl, ?_⟩
  by_cases h0 : m.id = 0
  · simp [Rewrite.refresh, h0] at hr
    cases hr
    exact hm
  obtain ⟨s, t, hD⟩ := hocc h0
  obtain ⟨ds₁, Dc, ds₂, hV, -, hDc, -⟩ := h.split
  obtain ⟨m₁, hm₁, hR₁⟩ := hDc.occurs hD
  obtain ⟨t', hm₁'⟩ := Inside.rebase hm₁
    ((V.withKind (.varDecl kd (ds₁ ++ Dc :: ds₂))).scope.getD τ)
  have hroot : Occurs 0 st.root t' m₁ :=
    hV.trans (.child trivial (by simp [Kind.children]) hm₁')
  have hid : m₁.id = m.id := hR₁.id_eq.trans hm.id_eq.symm
  rw [Rewrite.run_refresh_of_occurs h.tidy hroot hid h0] at hr
  cases hr
  exact hR₁

end Around

end Session

/-! ### The helpers a flattening imports -/

namespace Session

variable {st st' : Session}

/-- The helper `name` is imported under the local name `l`, if it is imported at all. -/
def MayImport (st : Session) (name l : String) : Prop :=
  ∀ l' ∈ st.hooks.lookup name, l' = l

/-- Every helper imported in `st` is imported under the same local name in `st'`. -/
def KeepsHooks (st st' : Session) : Prop :=
  ∀ name l, st.hooks.lookup name = some l → st'.hooks.lookup name = some l

instance : Std.Refl KeepsHooks := ⟨fun _ _ _ h => h⟩

instance : IsTrans Session KeepsHooks := ⟨fun _ _ _ h₁ h₂ name l h => h₂ name l (h₁ name l h)⟩

theorem KeepsHooks.mayImport {name l : String} (h : st.KeepsHooks st')
    (hm : st'.MayImport name l) : st.MayImport name l :=
  fun l' hl' => hm l' (h name l' hl')

theorem KeepsHooks.of_hooks_eq (h : st'.hooks = st.hooks) : st.KeepsHooks st' :=
  fun _ _ hl => h ▸ hl

/-- A helper imported as `l` and kept up to a session that may import it only as `l'` is
imported as `l'`. -/
theorem KeepsHooks.eq_of_lookup {name l l' : String} (h : st.KeepsHooks st')
    (hl : st.hooks.lookup name = some l) (hm : st'.MayImport name l') : l = l' :=
  hm l (h name l hl)

end Session

namespace Rewrite

variable {st st' : Session}

/-- Rewriting the tree that holds a node, by steps that keep the helpers, keeps them. -/
theorem hooks_inTreeOf {x : Nat} {F : Place → Node → Rewrite Node} {b : Bool}
    (hF : ∀ q t s t' s', (F q t).run s = .ok (t', s') → s'.hooks = s.hooks)
    (h : (inTreeOf x F).run st = .ok (b, st')) : st'.hooks = st.hooks := by
  simp only [inTreeOf, run_bind_ok] at h
  obtain ⟨s₀, s₁, hget, h⟩ := h
  cases hget
  split at h
  · simp only [run_bind_ok] at h
    obtain ⟨root, st₁, hroot, u, st₂, hmod, hret⟩ := h
    obtain ⟨-, rfl⟩ := run_pure_ok.1 hret
    cases hmod
    exact (hF _ _ _ _ _ hroot : st₁.hooks = st.hooks)
  · split at h
    · obtain ⟨-, rfl⟩ := run_pure_ok.1 h
      rfl
    · split at h
      · obtain ⟨-, rfl⟩ := run_pure_ok.1 h
        rfl
      · simp only [run_bind_ok] at h
        obtain ⟨t', st₁, ht', u, st₂, hmod, hret⟩ := h
        obtain ⟨-, rfl⟩ := run_pure_ok.1 hret
        cases hmod
        exact (hF _ _ _ _ _ ht' : st₁.hooks = st.hooks)

theorem keepsHooks_uidAt (x : Nat) (hint : String) : Along Session.KeepsHooks (uidAt x hint) := by
  intro st a st' h
  obtain ⟨s, s₁, hs, hu⟩ := run_bind_ok.1 h
  obtain rfl := reads_scopeAt x st s s₁ hs
  rw [run_uidIn] at hu
  cases hu
  exact refl_of Session.KeepsHooks st

theorem keepsHooks_insertNear (x : Nat) (node : Node) (after : Bool) :
    Along Session.KeepsHooks (insertNear x node after) := by
  refine Along.bind (fun st b st' h => Session.KeepsHooks.of_hooks_eq (hooks_inTreeOf
    (fun q t s t' s' hr => by rw [(run_check_ok.1 hr).2]) h)) fun found => ?_
  cases found
  · exact Along.fail _
  · exact Along.pure _

theorem keepsHooks_replace (x : Nat) (k : Kind) : Along Session.KeepsHooks (replace x k) := by
  intro st u st' h
  obtain ⟨b, h⟩ := run_discard_ok.1 h
  refine Session.KeepsHooks.of_hooks_eq (hooks_inTreeOf (fun q t s t' s' hr => ?_) h)
  refine (Node.run_updateAt (fun s' => s'.hooks = s.hooks) (fun _ _ _ => True)
    (fun q m s₁ r s₂ hs hr => ⟨?_, trivial⟩) q t rfl hr).1
  obtain ⟨u, s₃, hcut, hp⟩ := run_bind_ok.1 hr
  rw [run_keepCut_eq] at hcut
  cases hcut
  rw [← (run_pure_ok.1 hp).2]
  exact hs

theorem keepsHooks_normalizeAt (owner : Nat) (sub : Substitution) (name : String) :
    Along Session.KeepsHooks (normalizeAt owner sub name) :=
  fun st u st' h => Session.KeepsHooks.of_hooks_eq (respelled_normalizeAt st u st' h).hooks

/-- **An import keeps the helpers imported before** and records the local name it answers. -/
theorem run_hook_lookup {name l : String} (h : (hook name).run st = .ok (l, st')) :
    st.KeepsHooks st' ∧ st'.hooks.lookup name = some l := by
  simp only [hook, run_bind_ok] at h
  obtain ⟨s₀, s₁, hget, h⟩ := h
  cases hget
  split at h
  · rename_i l' hl
    obtain ⟨rfl, rfl⟩ := run_pure_ok.1 h
    exact ⟨refl_of Session.KeepsHooks st, hl⟩
  · rename_i hnone
    simp only [run_bind_ok] at h
    obtain ⟨l', s₂, hu, s₃, s₄, hget, u, s₅, hprep, v, s₆, hmod, hret⟩ := h
    obtain ⟨rfl, rfl⟩ := run_pure_ok.1 hret
    cases hmod
    cases hget
    rw [run_uidIn] at hu
    cases hu
    have hhooks : s₅.hooks = st.hooks := by
      simp only [prepend, run_bind_ok] at hprep
      obtain ⟨s₇, s₈, hget, hprep⟩ := hprep
      cases hget
      split at hprep
      · cases hprep
        rfl
      · cases hprep
        rfl
      · exact absurd hprep (run_fail_ne_ok _ _)
    refine ⟨fun n l'' hn => ?_, by simp⟩
    have hne : (n == name) = false := by
      rw [beq_eq_false_iff_ne]
      rintro rfl
      rw [hnone] at hn
      cases hn
    simpa [List.lookup, hhooks, hne] using hn

theorem keepsHooks_hook (name : String) : Along Session.KeepsHooks (hook name) :=
  fun _ _ _ h => (run_hook_lookup h).1

/-- **A flattening keeps the helpers imported before it.** By induction on the fuel; the steps
of the body each keep them. -/
theorem keepsHooks_destructure : ∀ (fuel d : Nat) (source pattern : Node) (rep : Bool),
    Along Session.KeepsHooks (destructure fuel d source pattern rep)
  | 0, _, _, _, _ => Along.pure ()
  | fuel + 1, d, source, pattern, rep => by
    rw [destructure]
    refine Along.bind (keepsHooks_uidAt d "other") fun other => ?_
    refine Along.bind (Along.of_reads (reads_ownerAt d)) fun owner => ?_
    refine Along.bind (Along.of_reads (reads_refresh pattern)) fun pattern => ?_
    lift_lets
    intro bind jp
    have hbind : ∀ access element, Along Session.KeepsHooks (bind access element) := by
      intro access element
      simp only [bind]
      refine Along.bind (keepsHooks_uidAt d "prop") fun prop => ?_
      split <;> first
        | refine Along.bind (keepsHooks_uidAt d "value") fun value =>
            Along.bind (Along.pure _) fun dflt => ?_
        | refine Along.bind (Along.pure _) fun dflt => ?_
      all_goals
        refine Along.bind (keepsHooks_insertNear _ _ _) fun _ => ?_
        split
        · exact keepsHooks_normalizeAt _ _ _
        · exact keepsHooks_destructure fuel d _ _ false
        · exact Along.fail _
    have hjp : ∀ p, Along Session.KeepsHooks (jp p) := by
      intro p
      simp only [jp]
      split
      on_goal 2 => refine Along.bind (Along.pure _) fun restName => ?_
      on_goal 1 =>
        refine Along.bind (Along.of_reads (reads_refresh _)) fun r =>
          Along.bind (Along.check _) fun el => ?_
        split <;> first
          | refine Along.bind (Along.pure _) fun restName => ?_
          | refine Along.bind (Along.fail _) fun restName => ?_
      all_goals
        split <;> first
        | refine Along.bind (Along.of_reads (reads_refresh _)) fun src =>
            Along.bind (Along.pure _) fun init => ?_
        | refine Along.bind (keepsHooks_hook _) fun helper =>
            Along.bind (Along.of_reads (reads_refresh _)) fun src =>
            Along.bind (Along.pure _) fun init => ?_
        all_goals
          split
          · refine Along.bind (keepsHooks_replace _ _) fun _ => ?_
            split
            · exact keepsHooks_normalizeAt _ _ _
            · exact Along.pure _
          · refine Along.bind (keepsHooks_insertNear _ _ _) fun _ => ?_
            split
            · exact keepsHooks_normalizeAt _ _ _
            · exact Along.pure _
    clear_value bind jp
    split
    · refine Along.bind (Along.foldlM (fun keys q _ => ?_) []) fun keys => ?_
      · refine Along.bind (Along.of_reads (reads_refresh q)) fun q => ?_
        split
        · refine Along.bind (Along.check _) fun element =>
            Along.bind (Along.of_reads (reads_refresh source)) fun src => ?_
          dsimp only
          split
          · rw [pure_bind]
            exact Along.bind (hbind _ _) fun _ => Along.pure _
          · rw [pure_bind]
            exact Along.bind (hbind _ _) fun _ => Along.pure _
          · exact Along.fail_bind _ _
        · exact Along.fail _
      · rw [pure_bind]
        exact hjp _
    · refine Along.bind (Along.foldlM (fun p e _ => ?_) ([], 0)) fun p => ?_
      · obtain ⟨keys, index⟩ := p
        dsimp only
        split
        · exact Along.pure _
        · exact Along.bind (Along.of_reads (reads_refresh _)) fun e =>
            Along.bind (Along.check _) fun element =>
            Along.bind (Along.of_reads (reads_refresh source)) fun src =>
            Along.bind (hbind _ _) fun _ => Along.pure _
      · obtain ⟨keys, index⟩ := p
        dsimp only
        rw [pure_bind]
        exact hjp _
    · exact Along.fail_bind _ _

/-! ### The slots of a pattern, one after the other -/

section Slots

variable {helper : String} {τ : Nat} {V D : Node} {kd : DeclKind}
  {σ₀ : List (String × Substitution)}

/-- **The properties of an object pattern**, flattened one after the other by a fold whose every
step flattens one property: the steps' accessors, partitions, respellings and keys add up to
those of the properties. -/
theorem around_foldlM_props (src₀ : Node) {f : List Node → Node → Rewrite (List Node)}
    {Q : Node → Prop}
    (hkeep : ∀ keys q, Along Session.KeepsHooks (f keys q))
    (hf : ∀ keys q₀ q σ pre post st keys' st', (∀ e ∈ σ₀, e ∈ σ) →
      st.Around σ τ V kd pre D post → Q q₀ → Node.Respelled σ q₀ q →
      (f keys q).run st = .ok (keys', st') → st'.MayImport "splitProps" helper →
      ∃ key v sh kn₀ acc₀ kn accs parts σ', q₀.kind = .bindingProperty key v sh ∧
        keyAccess src₀.copy key = some (kn₀, acc₀) ∧ FlattensSlot helper acc₀ v accs parts σ' ∧
        keys' = keys ++ [kn] ∧ kn.ids = [] ∧ Node.Respelled (σ ++ σ') kn₀ kn ∧
        st'.Around (σ ++ σ') τ V kd (pre ++ accs) D (parts ++ post)) :
    ∀ {props₀ props keys : List Node} {σ : List (String × Substitution)} {pre post : List Node}
      {st keys' st'}, (∀ e ∈ σ₀, e ∈ σ) → List.Forall₂ (Node.Respelled σ) props₀ props →
      (∀ q ∈ props₀, Q q) → st.Around σ τ V kd pre D post →
      (props.foldlM f keys).run st = .ok (keys', st') → st'.MayImport "splitProps" helper →
      ∃ ks₀ ks accs parts σ', FlattensProps helper src₀ props₀ ks₀ accs parts σ' ∧
        keys' = keys ++ ks ∧ ks.flatMap Node.ids = [] ∧
        List.Forall₂ (Node.Respelled (σ ++ σ')) ks₀ ks ∧
        st'.Around (σ ++ σ') τ V kd (pre ++ accs) D (parts ++ post) := by
  intro props₀ props keys σ pre post st keys' st' hσ hR hprops hA h hm
  induction props₀ generalizing props keys σ pre post st with
  | nil =>
    cases hR
    obtain ⟨rfl, rfl⟩ := run_pure_ok.1 h
    exact ⟨[], [], [], [], [], .nil _, by simp, rfl, .nil, by simpa using hA⟩
  | cons q₀ qs₀ ih =>
    obtain ⟨q, qs, hq, hqs, rfl⟩ := List.forall₂_cons_left_iff.1 hR
    rw [List.foldlM_cons] at h
    obtain ⟨keys₁, st₁, h₁, hrest⟩ := run_bind_ok.1 h
    have hm₁ := (Along.foldlM (fun b a _ => hkeep b a) keys₁ st₁ keys' st' hrest).mayImport hm
    obtain ⟨key, v, sh, kn₀, acc₀, kn, accs₁, parts₁, σ₁, hk, hacc, hslot, rfl, hkn, hkn₀, hA₁⟩ :=
      hf keys q₀ q σ pre post st keys₁ st₁ hσ hA (hprops q₀ List.mem_cons_self) hq h₁ hm₁
    obtain ⟨ks₀, ks, accs, parts, σ', hfl, rfl, hks, hks₀, hA'⟩ :=
      ih (fun e he => List.mem_append_left _ (hσ e he))
        (hqs.imp fun _ _ h => h.mono fun _ he => List.mem_append_left _ he)
        (fun q hq => hprops q (List.mem_cons_of_mem _ hq)) hA₁ hrest
    refine ⟨kn₀ :: ks₀, kn :: ks, accs₁ ++ accs, parts ++ parts₁, σ₁ ++ σ',
      .cons hk hacc hslot hfl, by simp, by simp [hkn, hks], .cons ?_ ?_, ?_⟩
    · exact hkn₀.mono fun _ he => by
        rw [← List.append_assoc]
        exact List.mem_append_left _ he
    · simpa using hks₀
    · simpa using hA'

/-- **The slots of an array pattern**, flattened one after the other: a hole only counts, and
every other slot is flattened by a step at its index. -/
theorem around_foldlM_elems (src₀ : Node)
    {f : List Node × Nat → Option Node → Rewrite (List Node × Nat)} {Q : Node → Prop} (hkeep : ∀ p e, Along Session.KeepsHooks (f p e))
    (hnone : ∀ keys i st r st', (f (keys, i) none).run st = .ok (r, st') →
      r = (keys, i + 1) ∧ st' = st)
    (hf : ∀ keys i v₀ v σ pre post st r st', (∀ e ∈ σ₀, e ∈ σ) →
      st.Around σ τ V kd pre D post → Q v₀ → Node.Respelled σ v₀ v →
      (f (keys, i) (some v)).run st = .ok (r, st') → st'.MayImport "splitProps" helper →
      ∃ accs parts σ', FlattensSlot helper (indexAccess src₀.copy i) v₀ accs parts σ' ∧
        r = (keys ++ [indexLiteral i], i + 1) ∧
        st'.Around (σ ++ σ') τ V kd (pre ++ accs) D (parts ++ post)) :
    ∀ {es₀ es : List (Option Node)} {keys : List Node} {i : Nat}
      {σ : List (String × Substitution)} {pre post : List Node} {st r st'},
      (∀ e ∈ σ₀, e ∈ σ) → List.Forall₂ (Option.Rel (Node.Respelled σ)) es₀ es →
      (∀ v, some v ∈ es₀ → Q v) → st.Around σ τ V kd pre D post →
      (es.foldlM f (keys, i)).run st = .ok (r, st') → st'.MayImport "splitProps" helper →
      ∃ ks accs parts σ', FlattensElems helper src₀ i es₀ ks accs parts σ' ∧
        r.1 = keys ++ ks ∧ ks.flatMap Node.ids = [] ∧
        st'.Around (σ ++ σ') τ V kd (pre ++ accs) D (parts ++ post) := by
  intro es₀ es keys i σ pre post st r st' hσ hR hes hA h hm
  induction es₀ generalizing es keys i σ pre post st with
  | nil =>
    cases hR
    obtain ⟨rfl, rfl⟩ := run_pure_ok.1 h
    exact ⟨[], [], [], [], .nil _ _, by simp, rfl, by simpa using hA⟩
  | cons e₀ es₀ ih =>
    obtain ⟨e, es, he, hes', rfl⟩ := List.forall₂_cons_left_iff.1 hR
    rw [List.foldlM_cons] at h
    obtain ⟨p₁, st₁, h₁, hrest⟩ := run_bind_ok.1 h
    have hm₁ := (Along.foldlM (fun b a _ => hkeep b a) p₁ st₁ r st' hrest).mayImport hm
    cases he with
    | none =>
      obtain ⟨rfl, rfl⟩ := hnone keys i st p₁ st₁ h₁
      obtain ⟨ks, accs, parts, σ', hfl, hr, hks, hA'⟩ :=
        ih hσ hes' (fun v hv => hes v (List.mem_cons_of_mem _ hv)) hA hrest
      exact ⟨ks, accs, parts, σ', .hole hfl, hr, hks, hA'⟩
    | @some v₀ v hv =>
      obtain ⟨accs₁, parts₁, σ₁, hslot, rfl, hA₁⟩ :=
        hf keys i v₀ v σ pre post st p₁ st₁ hσ hA (hes v₀ List.mem_cons_self) hv h₁ hm₁
      obtain ⟨ks, accs, parts, σ', hfl, hr, hks, hA'⟩ :=
        ih (fun e he => List.mem_append_left _ (hσ e he))
          (hes'.imp fun _ _ h => Option.Rel.respelled_mono (fun _ he => List.mem_append_left _ he) h)
          (fun v hv => hes v (List.mem_cons_of_mem _ hv)) hA₁ hrest
      refine ⟨indexLiteral i :: ks, accs₁ ++ accs, parts ++ parts₁, σ₁ ++ σ',
        .cons hslot hfl, by simpa using hr, by simp [indexLiteral, Kind.children, hks],
        by simpa using hA'⟩

end Slots

end Rewrite

end SignalSugar
