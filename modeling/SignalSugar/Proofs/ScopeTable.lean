import SignalSugar.Scope.Table
import SignalSugar.Proofs.Stem
import Mathlib.Data.List.Nodup
/-!
# Facts about the scope table

A scope table is **sound** (`Scopes.Sound`) when every name a scope binds is one of the
table's names and every scope's parent comes before it in the table. The first makes fresh
names fresh, the second makes the chain of parents finite, so that `declaring` and `has`,
which follow it with as much fuel as there are scopes, never run out.

## Main results

* `Scopes.Sound.declare`, `Scopes.Sound.openScope`, `Scopes.Sound.generateUid`: the table's
  operations keep it sound.
* `Scopes.firstFree_free`, `Scopes.generateUid_fresh`: a fresh name is free, none of the names
  the table knew, so it is bound nowhere. The progression tries `names.length + 1` pairwise
  distinct names, and they cannot all be taken.
* `Scopes.declaring_of_parent`, `Scopes.declaring_of_root`: `declaring` answers the scope
  itself when it declares the name, and otherwise asks its parent.
* `Scopes.Keeps`: two tables agree on everything that decides where a name is declared;
  `Scopes.keeps_generateUid` shows a fresh name changes nothing for a name already known.
-/

namespace SignalSugar.Scopes

/-! ### Reading a changed table -/

theorem get_modify (t : Scopes) (s i : Nat) (f : Scope → Scope) :
    (t.modify s f).get i = if s = i ∧ s < t.table.size then f (t.get i) else t.get i := by
  simp only [get, modify, Array.getElem?_modify]
  by_cases hsi : s = i
  · subst hsi
    by_cases hs : s < t.table.size
    · simp [hs]
    · simp [hs]
  · simp [hsi]

@[simp] theorem size_modify (t : Scopes) (s : Nat) (f : Scope → Scope) :
    (t.modify s f).table.size = t.table.size := by
  simp [modify]

@[simp] theorem names_modify (t : Scopes) (s : Nat) (f : Scope → Scope) :
    (t.modify s f).names = t.names := rfl

@[simp] theorem size_declare (t : Scopes) (s : Nat) (y : String) :
    (t.declare s y).table.size = t.table.size := by
  simp [declare]

@[simp] theorem names_declare (t : Scopes) (s : Nat) (y : String) :
    (t.declare s y).names = t.names.insert y := rfl

theorem get_declare (t : Scopes) (s i : Nat) (y : String) :
    (t.declare s y).get i = (t.modify s fun sc =>
      if sc.bindings.contains y then sc else { sc with bindings := y :: sc.bindings }).get i :=
  rfl

@[simp] theorem parent_declare (t : Scopes) (s i : Nat) (y : String) :
    ((t.declare s y).get i).parent = (t.get i).parent := by
  rw [get_declare, get_modify]
  split
  · split <;> rfl
  · rfl

theorem mem_bindings_declare (t : Scopes) (s i : Nat) (y z : String) :
    z ∈ ((t.declare s y).get i).bindings ↔
      z ∈ (t.get i).bindings ∨ (s = i ∧ s < t.table.size ∧ z = y) := by
  rw [get_declare, get_modify]
  split
  · rename_i h
    split
    · rename_i hy
      have : y ∈ (t.get i).bindings := by simpa using hy
      constructor
      · exact Or.inl
      · rintro (hz | ⟨-, -, rfl⟩) <;> assumption
    · obtain ⟨rfl, hs⟩ := h
      simp [hs, or_comm]
  · rename_i h
    constructor
    · exact Or.inl
    · rintro (hz | ⟨hsi, hs, -⟩)
      · exact hz
      · exact absurd ⟨hsi, hs⟩ h

/-- Past the end of the table, `get` answers the default scope. -/
theorem get_of_size_le {t : Scopes} {s : Nat} (hs : t.table.size ≤ s) : t.get s = default := by
  simp [get, Array.getElem?_eq_none hs]

theorem owns_iff (t : Scopes) (s : Nat) (y : String) : t.owns s y = true ↔ y ∈ (t.get s).bindings := by
  simp [owns]

/-- A scope that declares a name is in the table. -/
theorem lt_size_of_owns {t : Scopes} {s : Nat} {y : String} (h : t.owns s y = true) :
    s < t.table.size := by
  rcases Nat.lt_or_ge s t.table.size with hs | hs
  · exact hs
  · rw [owns, get_of_size_le hs] at h
    cases h

@[simp] theorem get_openScope (t : Scopes) (k : ScopeKind) (p : Option Nat) (o : Nat) (ty : String)
    (sp : Span) (i : Nat) :
    (t.openScope k p o ty sp).1.get i =
      if i = t.table.size then ⟨k, p, o, ty, sp, [], []⟩ else t.get i := by
  simp only [openScope, get, Array.getElem?_push]
  split <;> rfl

@[simp] theorem size_openScope (t : Scopes) (k : ScopeKind) (p : Option Nat) (o : Nat)
    (ty : String) (sp : Span) :
    (t.openScope k p o ty sp).1.table.size = t.table.size + 1 := by
  simp [openScope]

@[simp] theorem names_openScope (t : Scopes) (k : ScopeKind) (p : Option Nat) (o : Nat)
    (ty : String) (sp : Span) : (t.openScope k p o ty sp).1.names = t.names := rfl

@[simp] theorem index_openScope (t : Scopes) (k : ScopeKind) (p : Option Nat) (o : Nat)
    (ty : String) (sp : Span) : (t.openScope k p o ty sp).2 = t.table.size := rfl

/-- A fresh name is declared, after the counter of its stem is moved on. -/
theorem generateUid_fst (t : Scopes) (s : Nat) (hint : String) :
    ∃ f, (t.generateUid s hint).1 = (t.modify s f).declare s (t.generateUid s hint).2 ∧
      ∀ sc, (f sc).parent = sc.parent ∧ (f sc).bindings = sc.bindings :=
  ⟨_, rfl, fun _ => ⟨rfl, rfl⟩⟩

/-! ### Sound tables -/

/-- A sound table: what it binds, it knows as names, and parents come first. -/
structure Sound (t : Scopes) : Prop where
  mem_names : ∀ s y, y ∈ (t.get s).bindings → y ∈ t.names
  parent_lt : ∀ s q, (t.get s).parent = some q → q < s

theorem Sound.mem_of_owns {t : Scopes} (h : t.Sound) {s : Nat} {y : String}
    (hy : t.owns s y = true) : y ∈ t.names :=
  h.mem_names s y ((owns_iff t s y).1 hy)

/-- A name bound on a chain of a sound table is one of its names. -/
theorem Sound.mem_of_has {t : Scopes} (h : t.Sound) {s : Nat} {y : String}
    (hy : t.has s y = true) : y ∈ t.names := by
  suffices ∀ fuel c, has.go t y fuel c = true → y ∈ t.names from this _ _ hy
  intro fuel
  induction fuel with
  | zero => rintro (_ | c) hc <;> simp [has.go] at hc
  | succ fuel ih =>
    rintro (_ | c) hc
    · simp [has.go] at hc
    · simp only [has.go, Bool.or_eq_true] at hc
      rcases hc with hc | hc
      · exact h.mem_of_owns hc
      · exact ih _ hc

theorem Sound.mem_of_taken {t : Scopes} (h : t.Sound) {s : Nat} {y : String}
    (hy : t.taken s y = true) : y ∈ t.names := by
  simp only [taken, Bool.or_eq_true, List.contains_iff_mem] at hy
  exact hy.elim id h.mem_of_has

theorem Sound.modify {t : Scopes} (h : t.Sound) (s : Nat) {f : Scope → Scope}
    (hf : ∀ sc, (f sc).parent = sc.parent ∧ (f sc).bindings = sc.bindings) :
    (t.modify s f).Sound where
  mem_names i y hy := by
    rw [get_modify] at hy
    split at hy
    · exact h.mem_names i y ((hf _).2 ▸ hy)
    · exact h.mem_names i y hy
  parent_lt i q hq := by
    rw [get_modify] at hq
    split at hq
    · exact h.parent_lt i q ((hf _).1 ▸ hq)
    · exact h.parent_lt i q hq

theorem Sound.declare {t : Scopes} (h : t.Sound) (s : Nat) (y : String) :
    (t.declare s y).Sound where
  mem_names i z hz := by
    rw [names_declare, List.mem_insert_iff]
    rcases (mem_bindings_declare t s i y z).1 hz with hz | ⟨-, -, rfl⟩
    · exact Or.inr (h.mem_names i z hz)
    · exact Or.inl rfl
  parent_lt i q hq := h.parent_lt i q (by rwa [parent_declare] at hq)

/-- Opening a scope under a scope already open keeps the table sound. -/
theorem Sound.openScope {t : Scopes} (h : t.Sound) (k : ScopeKind) {p : Option Nat}
    (hp : ∀ q, p = some q → q < t.table.size) (o : Nat) (ty : String) (sp : Span) :
    (t.openScope k p o ty sp).1.Sound where
  mem_names i y hy := by
    rw [get_openScope] at hy
    split at hy
    · simp at hy
    · exact h.mem_names i y hy
  parent_lt i q hq := by
    rw [get_openScope] at hq
    split at hq
    · rename_i hi
      exact hi ▸ hp q hq
    · exact h.parent_lt i q hq

theorem Sound.generateUid {t : Scopes} (h : t.Sound) (s : Nat) (hint : String) :
    (t.generateUid s hint).1.Sound := by
  obtain ⟨f, hgen, hf⟩ := generateUid_fst t s hint
  rw [hgen]
  exact (h.modify s hf).declare s _

/-! ### Fresh names -/

/-- The search for a free try ends on a free one, unless every try it made was taken. -/
theorem firstFree_free_or_all_taken (t : Scopes) (s : Nat) (stem : String) :
    ∀ fuel a, t.taken s (Name.candidate stem (t.firstFree s stem fuel a)) = false ∨
      ∀ j < fuel, t.taken s (Name.candidate stem (a + 1 + j)) = true := by
  intro fuel
  induction fuel with
  | zero => intro a; exact Or.inr fun j hj => absurd hj (Nat.not_lt_zero j)
  | succ fuel ih =>
    intro a
    simp only [firstFree]
    split
    · rename_i htaken
      rcases ih (a + 1) with hfree | hall
      · exact Or.inl hfree
      · refine Or.inr fun j hj => ?_
        cases j with
        | zero => simpa using htaken
        | succ j =>
          have := hall j (by omega)
          rwa [show a + 1 + 1 + j = a + 1 + (j + 1) by omega] at this
    · rename_i hfree
      exact Or.inl (by simpa using hfree)

/-- The tries of one stem are pairwise distinct names. -/
theorem nodup_candidates (hint : String) (a n : Nat) :
    ((List.range n).map fun j => Name.candidate (Name.sanitize hint) (a + 1 + j)).Nodup := by
  refine List.Nodup.map (fun i j hij => ?_) List.nodup_range
  have hs := Name.sanitize_isStem hint
  rw [show a + 1 + i = (a + i) + 1 by omega, show a + 1 + j = (a + j) + 1 by omega,
    Name.candidate_inj hs hs] at hij
  omega

/-- From a sound table the search for a free try never runs out: `names.length + 1` pairwise
distinct tries cannot all be taken, as every taken name is one of the table's names. -/
theorem firstFree_free {t : Scopes} (h : t.Sound) (s : Nat) (hint : String) (a : Nat) :
    t.taken s (Name.candidate (Name.sanitize hint)
      (t.firstFree s (Name.sanitize hint) (t.names.length + 1) a)) = false := by
  rcases firstFree_free_or_all_taken t s (Name.sanitize hint) (t.names.length + 1) a
    with hfree | hall
  · exact hfree
  · exfalso
    have hsub : ((List.range (t.names.length + 1)).map fun j =>
        Name.candidate (Name.sanitize hint) (a + 1 + j)) ⊆ t.names := by
      intro y hy
      obtain ⟨j, hj, rfl⟩ := List.mem_map.1 hy
      exact h.mem_of_taken (hall j (List.mem_range.1 hj))
    have hle := (nodup_candidates hint _ _).length_le_of_subset hsub
    rw [List.length_map, List.length_range] at hle
    omega

/-- **Fresh names are fresh**: the name `generateUid` hands out is none of the table's names,
hence bound in no scope of a sound table. -/
theorem generateUid_fresh {t : Scopes} (h : t.Sound) (s : Nat) (hint : String) :
    (t.generateUid s hint).2 ∉ t.names := by
  intro hmem
  have hfree := firstFree_free h s hint (((t.get s).counters.lookup (Name.sanitize hint)).getD 0)
  simp only [taken, Bool.or_eq_false_iff] at hfree
  simp [generateUid] at hmem
  simp [hmem] at hfree

@[simp] theorem size_generateUid (t : Scopes) (s : Nat) (hint : String) :
    (t.generateUid s hint).1.table.size = t.table.size := by
  obtain ⟨f, hgen, -⟩ := generateUid_fst t s hint
  rw [hgen, size_declare, size_modify]

theorem parent_generateUid (t : Scopes) (s i : Nat) (hint : String) :
    ((t.generateUid s hint).1.get i).parent = (t.get i).parent := by
  obtain ⟨f, hgen, hf⟩ := generateUid_fst t s hint
  rw [hgen, parent_declare, get_modify]
  split
  · exact (hf _).1
  · rfl

theorem mem_names_generateUid {t : Scopes} {y : String} (s : Nat) (hint : String)
    (hy : y ∈ t.names) : y ∈ (t.generateUid s hint).1.names := by
  obtain ⟨f, hgen, -⟩ := generateUid_fst t s hint
  rw [hgen, names_declare, names_modify, List.mem_insert_iff]
  exact Or.inr hy

/-- A fresh name changes which scopes bind a name only for the fresh name itself. -/
theorem owns_generateUid {t : Scopes} (s i : Nat) (hint : String) {y : String}
    (hy : y ≠ (t.generateUid s hint).2) :
    (t.generateUid s hint).1.owns i y = t.owns i y := by
  obtain ⟨f, hgen, hf⟩ := generateUid_fst t s hint
  rw [Bool.eq_iff_iff, owns_iff, owns_iff, hgen, mem_bindings_declare, get_modify]
  constructor
  · rintro (hb | ⟨-, -, rfl⟩)
    · split at hb
      · rwa [(hf _).2] at hb
      · exact hb
    · exact absurd rfl hy
  · intro hb
    left
    split
    · rwa [(hf _).2]
    · exact hb

/-! ### Where a name is declared -/

section Declaring

variable {t : Scopes} {x : String}

/-- With fuel beyond the index it starts at, the search of a sound table does not depend on
the fuel: every step goes to a smaller index. -/
theorem declaring_go_eq (h : t.Sound) :
    ∀ fuel fuel' c, c < fuel → c < fuel' →
      declaring.go t x fuel c = declaring.go t x fuel' c := by
  intro fuel
  induction fuel with
  | zero => intro _ c hc; omega
  | succ fuel ih =>
    intro fuel' c hc hc'
    obtain ⟨fuel', rfl⟩ : ∃ f, fuel' = f + 1 := ⟨fuel' - 1, by omega⟩
    simp only [declaring.go]
    split
    · rfl
    · split
      · rename_i q hq
        have := h.parent_lt c q hq
        exact ih fuel' q (by omega) (by omega)
      · rfl

/-- `declaring` answers a scope that declares the name itself. -/
theorem declaring_of_owns (hx : t.owns s x = true) : t.declaring s x = s := by
  have hs := lt_size_of_owns hx
  obtain ⟨n, hn⟩ : ∃ n, t.table.size = n + 1 := ⟨t.table.size - 1, by omega⟩
  simp [declaring, hn, declaring.go, hx]

/-- `declaring` looks at a scope, then at its parent. -/
theorem declaring_of_parent (h : t.Sound) {s q : Nat} (hq : (t.get s).parent = some q) :
    t.declaring s x = if t.owns s x = true then s else t.declaring q x := by
  have hs : s < t.table.size := by
    rcases Nat.lt_or_ge s t.table.size with hs | hs
    · exact hs
    · rw [get_of_size_le hs] at hq
      cases hq
  have hqs := h.parent_lt s q hq
  obtain ⟨n, hn⟩ : ∃ n, t.table.size = n + 1 := ⟨t.table.size - 1, by omega⟩
  unfold declaring
  rw [hn, declaring.go]
  split
  · rfl
  · rw [hq]
    exact declaring_go_eq h n (n + 1) q (by omega) (by omega)

/-- At a scope with no parent the search stops. -/
theorem declaring_of_root {s : Nat} (hs : (t.get s).parent = none) : t.declaring s x = s := by
  unfold declaring
  cases t.table.size with
  | zero => rfl
  | succ n =>
    simp only [declaring.go, hs]
    split <;> rfl

/-- The scope `declaring` answers is the scope it started at or one before it. -/
theorem declaring_le (h : t.Sound) (s : Nat) : t.declaring s x ≤ s := by
  suffices ∀ fuel c, declaring.go t x fuel c ≤ c from this _ _
  intro fuel
  induction fuel with
  | zero => intro c; exact Nat.le_refl c
  | succ fuel ih =>
    intro c
    simp only [declaring.go]
    split
    · exact Nat.le_refl c
    · split
      · rename_i q hq
        exact Nat.le_trans (ih q) (Nat.le_of_lt (h.parent_lt c q hq))
      · exact Nat.le_refl c

end Declaring

/-! ### Tables that agree on a name -/

/-- `t'` agrees with `t` on everything that decides where `x` is declared: the same scopes,
with the same parents, and the same scopes binding `x`. -/
structure Keeps (x : String) (t t' : Scopes) : Prop where
  size_eq : t'.table.size = t.table.size
  parent_eq : ∀ s, (t'.get s).parent = (t.get s).parent
  owns_eq : ∀ s, t'.owns s x = t.owns s x

theorem Keeps.refl (x : String) (t : Scopes) : Keeps x t t := ⟨rfl, fun _ => rfl, fun _ => rfl⟩

theorem Keeps.trans {x : String} {t t' t'' : Scopes} (h : Keeps x t t') (h' : Keeps x t' t'') :
    Keeps x t t'' :=
  ⟨h'.size_eq.trans h.size_eq, fun s => (h'.parent_eq s).trans (h.parent_eq s),
    fun s => (h'.owns_eq s).trans (h.owns_eq s)⟩

/-- A fresh name changes nothing about a name the table already knows. -/
theorem keeps_generateUid {t : Scopes} (h : t.Sound) {x : String} (hx : x ∈ t.names) (s : Nat)
    (hint : String) : Keeps x t (t.generateUid s hint).1 where
  size_eq := size_generateUid t s hint
  parent_eq i := parent_generateUid t s i hint
  owns_eq i := owns_generateUid s i hint fun heq => generateUid_fresh h s hint (heq ▸ hx)

end SignalSugar.Scopes
