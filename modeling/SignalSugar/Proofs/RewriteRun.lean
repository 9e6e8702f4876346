import SignalSugar.Rewrite.Session
import SignalSugar.Proofs.ScopeTable
import SignalSugar.Proofs.Traversal
/-!
# Running a rewrite

A `Rewrite` runs from a session and either fails or answers a value with a new session. The
facts here are the steps a proof takes through a run that succeeded: a bind succeeded in
both its parts, a `mapM` in each of its steps, and the two primitive steps a walk takes
(`uidIn` and `keepCut`) change the session in the way their definitions say.

## Main results

* `Rewrite.run_bind_ok`: a bind succeeds exactly when its first part does and the rest
  succeeds from the session the first part left.
* `Rewrite.run_mapM_ok`: what every step of a `mapM` keeps, the whole run keeps, and its
  answers stand elementwise in the relation each step establishes.
* `Rewrite.run_mapM_joins`: a relation of walks that composes side by side relates a list to
  all that a `mapM` of walks over it answered.
* `Rewrite.run_mapChildrenM_ok`: rebuilding a construct ran the visits of its children, in
  order, and answered what they answered.
* `Rewrite.run_uidIn`, `Rewrite.run_keepCut`: a fresh name changes only the scope table, and
  keeping operands aside changes only the list of subtrees cut off the program.
-/

namespace SignalSugar.Rewrite

variable {α β : Type} {st st' st'' : Session}

theorem run_bind_ok {x : Rewrite α} {f : α → Rewrite β} {b : β} :
    (x >>= f).run st = .ok (b, st'') ↔
      ∃ a st', x.run st = .ok (a, st') ∧ (f a).run st' = .ok (b, st'') := by
  simp only [StateT.run_bind]
  cases x.run st with
  | error e => simp [bind, Except.bind]
  | ok r =>
    obtain ⟨a, s⟩ := r
    constructor
    · intro h
      exact ⟨a, s, rfl, h⟩
    · rintro ⟨a', s', hr, h⟩
      cases hr
      exact h

@[simp] theorem run_pure_ok {a b : α} :
    (pure a : Rewrite α).run st = .ok (b, st') ↔ a = b ∧ st = st' := by
  rw [StateT.run_pure]
  change Except.ok (a, st) = Except.ok (b, st') ↔ _
  simp

@[simp] theorem run_fail (e : RewriteError) : (fail e : Rewrite α).run st = .error e := rfl

/-- A run with its answer dropped succeeds exactly when the run does. -/
theorem run_discard_ok {x : Rewrite α} :
    (Functor.discard x).run st = .ok ((), st') ↔ ∃ a, x.run st = .ok (a, st') := by
  simp only [Functor.discard, Functor.mapConst, Function.comp_apply, StateT.run, StateT.map]
  cases x st with
  | error e => simp [bind, Except.bind]
  | ok r =>
    obtain ⟨a, s⟩ := r
    simp [bind, Except.bind, pure, Except.pure]

/-- A failing step never answers. -/
theorem run_fail_ne_ok (e : RewriteError) (a : α) : (fail e : Rewrite α).run st ≠ .ok (a, st') := by
  intro h
  cases h

/-- What each step of a `mapM` keeps, the run keeps; its answers are related to the inputs one
by one. -/
theorem run_mapM_ok {l : List α} {f : α → Rewrite β} {bs : List β} (I : Session → Prop)
    (R : α → β → Prop)
    (hf : ∀ a ∈ l, ∀ s b s', I s → (f a).run s = .ok (b, s') → I s' ∧ R a b)
    (hI : I st) (h : (l.mapM f).run st = .ok (bs, st')) : I st' ∧ List.Forall₂ R l bs := by
  induction l generalizing st bs with
  | nil =>
    simp only [List.mapM_nil, run_pure_ok] at h
    obtain ⟨rfl, rfl⟩ := h
    exact ⟨hI, List.Forall₂.nil⟩
  | cons a l ih =>
    simp only [List.mapM_cons, run_bind_ok, run_pure_ok] at h
    obtain ⟨b, s₁, ha, bs', s₂, hl, rfl, rfl⟩ := h
    obtain ⟨hI₁, hR⟩ := hf a List.mem_cons_self st b s₁ hI ha
    obtain ⟨hI₂, hRs⟩ := ih (fun a' ha' => hf a' (List.mem_cons_of_mem a ha')) hI₁ hl
    exact ⟨hI₂, List.Forall₂.cons hR hRs⟩

/-- A relation of walks that relates nothing to nothing and composes side by side relates a
list to all that a `mapM` over it answered, when each step relates its element to its answer. -/
theorem run_mapM_joins {l : List α} {f : α → Rewrite β} {bs : List β}
    (R : List Node → List Node → Session → Session → Prop) (hnil : ∀ s, R [] [] s s)
    (happ : ∀ {l₁ l₁' l₂ l₂' s₁ s₂ s₃}, R l₁ l₁' s₁ s₂ → R l₂ l₂' s₂ s₃ →
      R (l₁ ++ l₂) (l₁' ++ l₂') s₁ s₃)
    (node : α → Node) (out : β → List Node)
    (hf : ∀ a ∈ l, ∀ s b s', (f a).run s = .ok (b, s') → R [node a] (out b) s s')
    (h : (l.mapM f).run st = .ok (bs, st')) : R (l.map node) (bs.flatMap out) st st' := by
  induction l generalizing st bs with
  | nil =>
    simp only [List.mapM_nil, run_pure_ok] at h
    obtain ⟨rfl, rfl⟩ := h
    exact hnil st
  | cons a l ih =>
    simp only [List.mapM_cons, run_bind_ok, run_pure_ok] at h
    obtain ⟨b, s₁, ha, bs', s₂, hl, rfl, rfl⟩ := h
    rw [List.map_cons, List.flatMap_cons]
    exact happ (hf a List.mem_cons_self _ _ _ ha)
      (ih (fun a' ha' => hf a' (List.mem_cons_of_mem a ha')) hl)

/-- An input of a `mapM` is related to some answer. -/
theorem exists_of_forall₂_left {R : α → β → Prop} {l : List α} {bs : List β}
    (h : List.Forall₂ R l bs) {a : α} (ha : a ∈ l) : ∃ b ∈ bs, R a b := by
  induction h with
  | nil => cases ha
  | cons hab _ ih =>
    rcases List.mem_cons.1 ha with rfl | ha
    · exact ⟨_, List.mem_cons_self, hab⟩
    · obtain ⟨b, hb, h⟩ := ih ha
      exact ⟨b, List.mem_cons_of_mem _ hb, h⟩

/-- An answer of a `mapM` is related to some input. -/
theorem exists_of_forall₂_right {R : α → β → Prop} {l : List α} {bs : List β}
    (h : List.Forall₂ R l bs) {b : β} (hb : b ∈ bs) : ∃ a ∈ l, R a b := by
  induction h with
  | nil => cases hb
  | cons hab _ ih =>
    rcases List.mem_cons.1 hb with rfl | hb
    · exact ⟨_, List.mem_cons_self, hab⟩
    · obtain ⟨a, ha, h⟩ := ih hb
      exact ⟨a, List.mem_cons_of_mem _ ha, h⟩

/-- A successful rebuild of a construct is a successful run of the visits of its children, in
the order `Kind.children` lists them, answering the rebuilt construct's children. -/
theorem run_mapChildrenM_ok {k k' : Kind} {f : (c : Node) → Role → sizeOf c < sizeOf k → Rewrite Node}
    (h : (k.mapChildrenM f).run st = .ok (k', st')) :
    (k.children.mapM fun c => f c.node c.role c.lt).run st = .ok (k'.children.map Child.node, st') := by
  rw [← Kind.children_mapChildrenM, StateT.run_map, h]
  rfl

/-- A successful rebuild of a construct keeps its constructor: it puts nodes back in place of
its children. -/
theorem run_mapChildrenM_setChildren {k k' : Kind}
    {f : (c : Node) → Role → sizeOf c < sizeOf k → Rewrite Node}
    (h : (k.mapChildrenM f).run st = .ok (k', st')) : ∃ ns, k' = k.setChildren ns := by
  rw [Kind.mapChildrenM_eq, StateT.run_map] at h
  cases hr : (k.children.mapM fun c => f c.node c.role c.lt).run st with
  | error e =>
    rw [hr] at h
    cases h
  | ok r =>
    rw [hr] at h
    cases h
    exact ⟨r.1, rfl⟩

/-- A fresh name changes the scope table and nothing else. -/
theorem run_uidIn (s : Nat) (hint : String) :
    (uidIn s hint).run st =
      .ok ((st.scopes.generateUid s hint).2, { st with scopes := (st.scopes.generateUid s hint).1 }) :=
  rfl

/-- Keeping the dropped operands of a replacement only adds subtrees cut off the program. -/
theorem run_keepCut (p : Place) (old new : Node) :
    ∃ cut, (keepCut p old new).run st = .ok ((), { st with detached := st.detached ++ cut }) := by
  simp only [keepCut]
  split
  · exact ⟨[], by simp only [List.append_nil]; rfl⟩
  · exact ⟨_, rfl⟩

end SignalSugar.Rewrite
