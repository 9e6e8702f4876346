import SignalSugar.Rewrite.Normalize
import SignalSugar.Proofs.ScopeTable
/-!
# Where a reference resolves

A node owning a scope carries the scope's index; every other node belongs to the scope of
its parent. `Inside P σ n τ m` says that `m` stands in the subtree `n`, when `n`'s parent is
in scope `σ`, and that `m`'s parent is in scope `τ`; every node passed on the way down
satisfies `P`. A reference `m` to `x` standing so **resolves** to the scope
`t.declaring (m.scope.getD τ) x`: the nearest scope on its chain that declares `x`.

A subtree is **well scoped** for a table when each scope mark names a scope whose parent in
the table is the scope the node stands in (or that scope itself), and no reference carries a
mark. The analysis of a module leaves it so (`SignalSugar.Proofs.ScopeAnalysis`).

A walk for a binding `tg` prunes a node when the node's scope is another scope declaring
`tg.name` (`Target.shadowedIn`). That test looks at one scope only, but on a well scoped tree,
while the walk has not pruned, it decides resolution exactly:

* `Target.shadowedIn_iff`: where the scope a node stands in resolves `x` to the target, the
  node is pruned exactly when its own scope resolves `x` elsewhere;
* `Target.declaring_of_not_shadowedIn`: a node that is not pruned resolves `x` to the target,
  so the walk carries the invariant to its children;
* `resolvesPast_inside`: below a pruned node, every scope resolves `x` to a scope after the
  target, so no reference there resolves to it.
-/

namespace SignalSugar

/-- `Inside P σ n τ m`: `m` stands in the subtree `n`, whose parent is in scope `σ`; `m`'s
parent is in scope `τ`; every node passed on the way down (`n` itself unless `m = n`)
satisfies `P`. -/
inductive Inside (P : Node → Prop) : Nat → Node → Nat → Node → Prop
  | here (σ : Nat) (n : Node) : Inside P σ n σ n
  | child {σ τ : Nat} {n c m : Node} : P n → c ∈ n.kind.children.map Child.node →
      Inside P (n.scope.getD σ) c τ m → Inside P σ n τ m

namespace Inside

variable {P Q : Node → Prop} {σ τ : Nat} {n m : Node}

theorem mono (hPQ : ∀ a, P a → Q a) (h : Inside P σ n τ m) : Inside Q σ n τ m := by
  induction h with
  | here σ n => exact .here σ n
  | child hP hc _ ih => exact .child (hPQ _ hP) hc ih

theorem trans {ρ : Nat} {k : Node} (h₁ : Inside P σ n τ m) (h₂ : Inside P τ m ρ k) :
    Inside P σ n ρ k := by
  induction h₁ with
  | here => exact h₂
  | child hP hc _ ih => exact .child hP hc (ih h₂)

/-- What stands inside a node is the node or stands inside one of its children. -/
theorem cases_of (h : Inside P σ n τ m) :
    (τ = σ ∧ m = n) ∨ (P n ∧ ∃ c ∈ n.kind.children.map Child.node, Inside P (n.scope.getD σ) c τ m) := by
  cases h with
  | here => exact Or.inl ⟨rfl, rfl⟩
  | child hP hc h => exact Or.inr ⟨hP, _, hc, h⟩

end Inside

/-- The nodes of a subtree standing in scope `σ`, with the scope of each one's parent. -/
abbrev Occurs (σ : Nat) (n : Node) (τ : Nat) (m : Node) : Prop := Inside (fun _ => True) σ n τ m

/-- A subtree standing in scope `σ` is well scoped for the table `t`: a node owning a scope
owns one whose parent is the scope it stands in (or that scope itself), and a reference owns
none. -/
structure WellScoped (t : Scopes) (σ : Nat) (n : Node) : Prop where
  mark : ∀ τ m s, Occurs σ n τ m → m.scope = some s → s = τ ∨ (t.get s).parent = some τ
  ident : ∀ τ m y, Occurs σ n τ m → m.kind = .ident y → m.scope = none

namespace WellScoped

variable {t t' : Scopes} {σ : Nat} {n : Node}

theorem child (h : WellScoped t σ n) {c : Node} (hc : c ∈ n.kind.children.map Child.node) :
    WellScoped t (n.scope.getD σ) c where
  mark τ m s hm := h.mark τ m s (.child trivial hc hm)
  ident τ m y hm := h.ident τ m y (.child trivial hc hm)

theorem inside (h : WellScoped t σ n) {τ : Nat} {m : Node} (hm : Occurs σ n τ m) :
    WellScoped t τ m where
  mark τ' m' s hm' := h.mark τ' m' s (hm.trans hm')
  ident τ' m' y hm' := h.ident τ' m' y (hm.trans hm')

/-- The mark of the subtree's root. -/
theorem root_mark (h : WellScoped t σ n) {s : Nat} (hs : n.scope = some s) :
    s = σ ∨ (t.get s).parent = some σ :=
  h.mark σ n s (.here σ n) hs

/-- A node is well scoped when its own mark is, it is no marked reference, and its children
are well scoped where they stand. -/
theorem of_children (hm : ∀ s, n.scope = some s → s = σ ∨ (t.get s).parent = some σ)
    (hi : ∀ y, n.kind = .ident y → n.scope = none)
    (hc : ∀ c ∈ n.kind.children.map Child.node, WellScoped t (n.scope.getD σ) c) :
    WellScoped t σ n where
  mark τ m s hocc hs := by
    rcases hocc.cases_of with ⟨rfl, rfl⟩ | ⟨-, c, hcm, hocc⟩
    · exact hm s hs
    · exact (hc c hcm).mark τ m s hocc hs
  ident τ m y hocc hk := by
    rcases hocc.cases_of with ⟨rfl, rfl⟩ | ⟨-, c, hcm, hocc⟩
    · exact hi y hk
    · exact (hc c hcm).ident τ m y hocc hk

end WellScoped

/-! ### The walk's test against resolution -/

namespace Target

variable {t : Scopes} {tg : Target} {σ : Nat} {m : Node}

/-- Where the scope a node stands in resolves the name to the target, the node is pruned
exactly when its own scope resolves the name elsewhere. -/
theorem shadowedIn_iff (ht : t.Sound) (hσ : t.declaring σ tg.name = tg.scope)
    (hm : ∀ s, m.scope = some s → s = σ ∨ (t.get s).parent = some σ) :
    tg.shadowedIn t (m.scope.getD σ) = true ↔ t.declaring (m.scope.getD σ) tg.name ≠ tg.scope := by
  have same : tg.shadowedIn t σ = true ↔ t.declaring σ tg.name ≠ tg.scope := by
    rw [hσ]
    simp only [shadowedIn, Bool.and_eq_true, bne_iff_ne, ne_eq, not_true_eq_false, iff_false,
      not_and, Bool.not_eq_true]
    intro hne
    by_cases ho : t.owns σ tg.name = true
    · exact absurd (hσ ▸ (Scopes.declaring_of_owns ho).symm) hne
    · simpa using ho
  cases hs : m.scope with
  | none => exact same
  | some s =>
    rcases hm s hs with rfl | hp
    · exact same
    · simp only [Option.getD_some]
      rw [Scopes.declaring_of_parent ht hp]
      by_cases ho : t.owns s tg.name = true
      · simp [shadowedIn, ho]
      · simp [shadowedIn, ho, hσ]

/-- A node the walk does not prune resolves the name to the target. -/
theorem declaring_of_not_shadowedIn (ht : t.Sound) (hσ : t.declaring σ tg.name = tg.scope)
    (hm : ∀ s, m.scope = some s → s = σ ∨ (t.get s).parent = some σ)
    (hs : tg.shadowedIn t (m.scope.getD σ) = false) :
    t.declaring (m.scope.getD σ) tg.name = tg.scope := by
  by_contra hne
  have := (shadowedIn_iff ht hσ hm).2 hne
  simp [hs] at this

/-- A node the walk prunes owns a scope after the target that declares the name. -/
theorem lt_declaring_of_shadowedIn (ht : t.Sound) (hσ : t.declaring σ tg.name = tg.scope)
    (hm : ∀ s, m.scope = some s → s = σ ∨ (t.get s).parent = some σ)
    (hs : tg.shadowedIn t (m.scope.getD σ) = true) :
    tg.scope < t.declaring (m.scope.getD σ) tg.name := by
  have hne := (shadowedIn_iff ht hσ hm).1 hs
  cases hms : m.scope with
  | none => simp [hms, hσ] at hne
  | some s =>
    rcases hm s hms with rfl | hp
    · simp [hms, hσ] at hne
    · have hown : t.owns s tg.name = true := by
        by_contra ho
        rw [hms, Option.getD_some, Scopes.declaring_of_parent ht hp, if_neg ho] at hne
        exact hne hσ
      rw [Option.getD_some, Scopes.declaring_of_owns hown]
      have h1 := ht.parent_lt s σ hp
      have h2 : tg.scope ≤ σ := hσ ▸ Scopes.declaring_le ht σ
      omega

end Target

/-- Below a pruned node every scope resolves the name to a scope after the target: the
chain from there meets the pruned node's scope, which declares the name, before the
target. -/
theorem resolvesPast_inside {t : Scopes} (ht : t.Sound) {x : String} {target σ : Nat} {n : Node}
    (hw : WellScoped t σ n) (hn : target < t.declaring (n.scope.getD σ) x) {τ : Nat} {m : Node}
    (hm : Occurs σ n τ m) : target < t.declaring (m.scope.getD τ) x := by
  induction hm with
  | here => exact hn
  | @child σ τ n c m _ hc _ ih =>
    apply ih (hw.child hc)
    cases hcs : c.scope with
    | none => exact hn
    | some s =>
      rcases (hw.child hc).root_mark hcs with rfl | hp
      · exact hn
      · rw [Option.getD_some, Scopes.declaring_of_parent ht hp]
        split
        · have := ht.parent_lt s _ hp
          have := Scopes.declaring_le ht (n.scope.getD σ) (x := x)
          omega
        · exact hn

end SignalSugar
