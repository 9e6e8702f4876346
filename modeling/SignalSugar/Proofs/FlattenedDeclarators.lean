import SignalSugar.Proofs.Flattening
import SignalSugar.Transform
/-!
# The declarators a flattening leaves

`Rewrite.destructure` takes apart a pattern `P` read from a source `s` and leaves, in the
declaration of its declarator `D`, exactly what `Rewrite.Flattens` says: one accessor per slot of
`P` and of every pattern nested in it, in the order of the slots and with each nested pattern's
accessors right after the accessor of its slot, all put before `D`; and one partition per
pattern, the pattern's own one in `D`'s place (or right after `D`, for a nested pattern), the
partitions of the nested patterns after it.

A flattening rewrites the reads of each name the pattern binds as soon as the name has its
accessor, over the whole scope of the declaration. The declarators it built earlier stand in
that scope too, so what the declaration holds in the end is a respelling of what `Flattens`
says: a default, a computed key or the source that reads a name of the pattern reads its
accessor instead.

## Main results

* `classifyElement_of_slot`: the shape a flattening finds for a slot of a flattenable pattern,
  once the slot has been respelled.
* `Rewrite.around_destructure`: what a successful flattening leaves of the declaration, for a
  pattern and a source standing in its declarator, and for any fuel above the pattern's size.
-/

namespace SignalSugar

/-! ### The shape of a slot -/

section Classify

variable {σ : List (String × Substitution)}

theorem classifyElement_of_bindingIdent {n : Node} {x : String} (h : n.kind = .bindingIdent x) :
    classifyElement n = .ok (.name x) := by
  obtain ⟨i, sp, sc, k⟩ := n
  cases h
  rfl

theorem classifyElement_of_assignPattern {n l r : Node} (h : n.kind = .assignPattern l r) :
    classifyElement n = (classifyElement l).bind fun inner => .ok (.defaulted inner r) := by
  obtain ⟨i, sp, sc, k⟩ := n
  cases h
  rfl

/-- A respelled flattenable pattern is classified as a nested pattern. -/
theorem classifyElement_of_respelled {P P' : Node} (h : Node.Flattenable P)
    (hR : Node.Respelled σ P P') : classifyElement P' = .ok (.nested P') := by
  obtain ⟨i, sp, sc, k⟩ := P'
  cases h with
  | object hk =>
    obtain ⟨ps', r', hk', -, -⟩ := hR.objectPattern hk
    cases hk'
    rfl
  | array hk =>
    obtain ⟨es', r', hk', -, -⟩ := hR.arrayPattern hk
    cases hk'
    rfl

/-- **The shape of a slot**, as the flattening finds it once the slot has been respelled: a
name; a nested pattern; or either of them with a default, which is respelled. -/
theorem classifyElement_of_slot {v₀ v : Node} {el : Element} (h : Node.FlattenableSlot v₀)
    (hR : Node.Respelled σ v₀ v) (hc : classifyElement v = .ok el) :
    (∃ x, v₀.kind = .bindingIdent x ∧ el = .name x) ∨
    (Node.Flattenable v₀ ∧ el = .nested v) ∨
    (∃ l₀ r₀ r x, v₀.kind = .assignPattern l₀ r₀ ∧ l₀.kind = .bindingIdent x ∧
      Node.Respelled σ r₀ r ∧ el = .defaulted (.name x) r) ∨
    (∃ l₀ r₀ l r, v₀.kind = .assignPattern l₀ r₀ ∧ Node.Flattenable l₀ ∧ Node.Respelled σ l₀ l ∧
      Node.Respelled σ r₀ r ∧ el = .defaulted (.nested l) r) := by
  cases h with
  | name hk =>
    rw [hR.bindingIdent hk, classifyElement_of_bindingIdent hk] at hc
    cases hc
    exact Or.inl ⟨_, hk, rfl⟩
  | nested hP =>
    rw [classifyElement_of_respelled hP hR] at hc
    cases hc
    exact Or.inr (Or.inl ⟨hP, rfl⟩)
  | defaultName hk hl =>
    obtain ⟨l, r, hk', hl', hr'⟩ := hR.assignPattern hk
    rw [classifyElement_of_assignPattern hk', hl'.bindingIdent hl,
      classifyElement_of_bindingIdent hl] at hc
    cases hc
    exact Or.inr (Or.inr (Or.inl ⟨_, _, _, _, hk, hl, hr', rfl⟩))
  | defaultNested hk hP =>
    obtain ⟨l, r, hk', hl', hr'⟩ := hR.assignPattern hk
    rw [classifyElement_of_assignPattern hk', classifyElement_of_respelled hP hl'] at hc
    cases hc
    exact Or.inr (Or.inr (Or.inr ⟨_, _, _, _, hk, hP, hl', hr', rfl⟩))

end Classify

/-! ### A flattening, step by step -/

namespace Rewrite

section Destructure

variable {helper : String} {τ : Nat} {V D : Node} {kd : DeclKind} {d : Nat}

/-- A child of a node standing in `D` stands in `D`. -/
theorem occurs_of_child {n c : Node} (h : ∃ a b, Occurs a D b n)
    (hc : c ∈ n.kind.children.map Child.node) : ∃ a b, Occurs a D b c := by
  obtain ⟨a, b, h⟩ := h
  exact ⟨a, _, h.trans (.child trivial hc (.here _ _))⟩

@[simp] theorem ids_declaratorOf (name : String) (init : Node) :
    (declaratorOf name init).ids = init.ids := by
  simp [declaratorOf, Kind.children, Child.ofOption]

/-- The key literal and the read of a property hold no node of the source, if the object holds
none. -/
theorem ids_keyAccess {o kn ac : Node} {k : Key} (ho : o.ids = [])
    (h : keyAccess o k = some (kn, ac)) : kn.ids = [] ∧ ac.ids = [] := by
  cases k with
  | named name =>
    cases h
    simp [ids_memberOf, ho, Kind.children]
  | computed e =>
    cases h
    simp [Kind.children, Child.ofKey, ho]
  | privateName name => cases h

/-- **What a flattening leaves of the declaration.** From a session in which the declaration `V`
holds respellings by `σ` of `pre`, then the declarator `D`, then `post`, a successful flattening
of a pattern `P₀` read from `src₀`, both standing in `D` and respelled by `σ`, leaves the
declarators `Flattens` gives: the accessors after `pre`, then either the pattern's own partition
in `D`'s place (`rep`) or `D` and that partition, then the partitions of the nested patterns,
then `post`; all of them respelled by `σ` and by the names the pattern binds. The fuel must
exceed the size of the pattern, which bounds its nesting. -/
theorem around_destructure (hd : D.id = d) (h0 : d ≠ 0) :
    ∀ (fuel : Nat) {src₀ P₀ src P : Node} {rep : Bool} {σ : List (String × Substitution)}
      {pre post : List Node} {st st' : Session},
      P₀.count < fuel → Node.Flattenable P₀ → (∃ a b, Occurs a D b P₀) →
      Node.Respelled σ P₀ P → Node.Respelled σ src₀ src →
      (src.id ≠ 0 → ∃ a b, Occurs a D b src₀) →
      st.Around σ τ V kd pre D post → (destructure fuel d src P rep).run st = .ok ((), st') →
      st'.MayImport "splitProps" helper →
      ∃ other keys accs parts σ',
        Flattens helper src₀ P₀ accs (declaratorOf other (partitionOf helper src₀ keys) :: parts)
          σ' ∧
        (rep = true → st'.Around (σ ++ σ') τ V kd (pre ++ accs)
          (D.withKind (.declarator (bindingOf other) (some (partitionOf helper src₀ keys))))
          (parts ++ post)) ∧
        (rep = false → st'.Around (σ ++ σ') τ V kd (pre ++ accs) D
          (declaratorOf other (partitionOf helper src₀ keys) :: parts ++ post))
  | 0, _, _, _, _, _, _, _, _, _, _, hc, _, _, _, _, _, _, _, _ => absurd hc (Nat.not_lt_zero _)
  | fuel + 1, src₀, P₀, src, P, rep, σ, pre, post, st, st', hc, hP, hPD, hPR, hsR, hsD, hA, h,
      hm => by
    rw [destructure] at h
    obtain ⟨other, st₁, hother, h₁⟩ := run_bind_ok.1 h
    obtain ⟨owner, st₂, howner, h₂⟩ := run_bind_ok.1 h₁
    obtain ⟨pat, st₃, hpat, h₃⟩ := run_bind_ok.1 h₂
    have hA₁ := hA.uidAt hother
    obtain rfl := reads_ownerAt d st₁ owner st₂ howner
    obtain ⟨rfl, hpatR⟩ := hA₁.refresh hPR (fun _ => hPD) hpat
    lift_lets at h₃
    extract_lets bind jp at h₃
    have hbind : ∀ {acc₀ access v₀ v : Node} {el : Element} {σ₁ : List (String × Substitution)}
        {pre₁ post₁ : List Node} {s s' : Session},
        Node.FlattenableSlot v₀ → (∃ a b, Occurs a D b v₀) → v₀.count < fuel →
        Node.Respelled σ₁ v₀ v → classifyElement v = .ok el →
        Node.Respelled σ₁ acc₀ access → access.ids = [] →
        s.Around σ₁ τ V kd pre₁ D post₁ → (bind access el).run s = .ok ((), s') →
        s'.MayImport "splitProps" helper →
        ∃ accs parts σ', FlattensSlot helper acc₀ v₀ accs parts σ' ∧
          s'.Around (σ₁ ++ σ') τ V kd (pre₁ ++ accs) D (parts ++ post₁) := by
      intro acc₀ access v₀ v el σ₁ pre₁ post₁ s s' hslot hvD hvc hvR hcl haR hacc hA' hr hm'
      simp only [bind] at hr
      obtain ⟨prop, s₁, hprop, hr⟩ := run_bind_ok.1 hr
      have hA₂ := hA'.uidAt hprop
      have hpp := plain_uidAt hprop
      rcases classifyElement_of_slot hslot hvR hcl with ⟨x, hk, rfl⟩ | ⟨hP', rfl⟩ |
        ⟨l₀, r₀, r, x, hk, hl, hrR, rfl⟩ | ⟨l₀, r₀, l, r, hk, hP', hlR, hrR, rfl⟩
      · simp only [pure_bind] at hr
        obtain ⟨⟨⟩, s₂, hins, hnorm⟩ := run_bind_ok.1 hr
        have hA₃ := hA₂.insertNear_before hd h0 (by simp [ids_accessorOf hacc])
          (respelled_declaratorOf (respelled_accessorOf_none haR) prop) hins
        have hA₄ := hA₃.normalizeAt (by simpa [Substitution.name]) hnorm
        exact ⟨_, [], _, .name hk, by simpa using hA₄⟩
      · simp only [pure_bind] at hr
        obtain ⟨⟨⟩, s₂, hins, hnest⟩ := run_bind_ok.1 hr
        have hA₃ := hA₂.insertNear_before hd h0 (by simp [ids_accessorOf hacc])
          (respelled_declaratorOf (respelled_accessorOf_none haR) prop) hins
        obtain ⟨other', keys', accs, parts, σ', hfl, -, hA₄⟩ :=
          around_destructure hd h0 fuel hvc hP' hvD hvR (.refl _ _) (by simp [callOf]) hA₃ hnest
            hm'
        exact ⟨_, _, σ', .nested hfl, by simpa using hA₄ rfl⟩
      · simp only [pure_bind] at hr
        obtain ⟨value, s₂, hval, hr⟩ := run_bind_ok.1 hr
        obtain ⟨⟨⟩, s₃, hins, hnorm⟩ := run_bind_ok.1 hr
        have hA₄ := (hA₂.uidAt hval).insertNear_before hd h0 (by simp [ids_accessorOf hacc])
          (respelled_declaratorOf (respelled_accessorOf_some haR hrR value) prop) hins
        have hA₅ := hA₄.normalizeAt (by simpa [Substitution.name]) hnorm
        exact ⟨_, [], _, .defaultName hk hl, by simpa using hA₅⟩
      · simp only [pure_bind] at hr
        obtain ⟨value, s₂, hval, hr⟩ := run_bind_ok.1 hr
        obtain ⟨⟨⟩, s₃, hins, hnest⟩ := run_bind_ok.1 hr
        have hA₄ := (hA₂.uidAt hval).insertNear_before hd h0 (by simp [ids_accessorOf hacc])
          (respelled_declaratorOf (respelled_accessorOf_some haR hrR value) prop) hins
        have hl₀ : l₀ ∈ v₀.kind.children.map Child.node := by rw [hk]; simp [Kind.children]
        obtain ⟨other', keys', accs, parts, σ', hfl, -, hA₅⟩ :=
          around_destructure hd h0 fuel ((Node.count_lt_of_mem_children hl₀).trans hvc) hP'
            (occurs_of_child hvD hl₀) hlR (.refl _ _) (by simp [callOf]) hA₄ hnest hm'
        exact ⟨_, _, σ', .defaultNested hk hfl, by simpa using hA₅ rfl⟩
    have hjp : ∀ {keys : List Node} {rest : Option Node} {s s' : Session},
        (jp (keys, rest)).run s = .ok ((), s') → s.KeepsHooks s' ∧
        ∀ {keys₀ : List Node} {rest₀ : Option Node} {σ₁ : List (String × Substitution)}
          {pre₁ post₁ : List Node}, (∀ e ∈ σ, e ∈ σ₁) →
          List.Forall₂ (Node.Respelled σ₁) keys₀ keys → keys.flatMap Node.ids = [] →
          Option.Rel (Node.Respelled σ₁) rest₀ rest →
          (∀ r ∈ rest₀, (∃ a y, r.kind = .rest a ∧ a.kind = .bindingIdent y) ∧
            ∃ a b, Occurs a D b r) →
          s.Around σ₁ τ V kd pre₁ D post₁ → s'.MayImport "splitProps" helper →
          ∃ τ', RestRespelling other rest₀ τ' ∧
            (rep = true → s'.Around (σ₁ ++ τ') τ V kd pre₁
              (D.withKind (.declarator (bindingOf other) (some (partitionOf helper src₀ keys₀))))
              post₁) ∧
            (rep = false → s'.Around (σ₁ ++ τ') τ V kd pre₁ D
              (declaratorOf other (partitionOf helper src₀ keys₀) :: post₁)) := by
      intro keys rest s s' hr
      simp -zeta only [jp] at hr
      extract_lets tail at hr
      obtain ⟨restName, hτ, hr⟩ : ∃ restName, (∀ {rest₀ : Option Node}
          {σ₁ : List (String × Substitution)} {pre₁ post₁ : List Node},
          Option.Rel (Node.Respelled σ₁) rest₀ rest →
          (∀ r ∈ rest₀, (∃ a y, r.kind = .rest a ∧ a.kind = .bindingIdent y) ∧
            ∃ a b, Occurs a D b r) → s.Around σ₁ τ V kd pre₁ D post₁ →
          RestRespelling other rest₀ (restName.toList.map fun y => (y, .reference other))) ∧
          (tail restName).run s = .ok ((), s') := by
        cases rest with
        | none => exact ⟨none, fun hrel _ _ => by cases hrel; exact .none, by simpa using hr⟩
        | some r =>
          dsimp only at hr
          obtain ⟨r', s₁, hr', hr₁⟩ := run_bind_ok.1 hr
          obtain rfl := reads_refresh r s r' s₁ hr'
          obtain ⟨el, s₂, hc, hr₂⟩ := run_bind_ok.1 hr₁
          obtain ⟨hcl, rfl⟩ := run_check_ok.1 hc
          cases el
          case rest x =>
            refine ⟨some x, fun hrel hrest₀ hA' => ?_, by simpa using hr₂⟩
            cases hrel with
            | @some r₀ _ hr₀ =>
            obtain ⟨⟨a, y, hk, ha⟩, hrD⟩ := hrest₀ r₀ rfl
            obtain ⟨a', hk', ha'⟩ := (hA'.refresh hr₀ (fun _ => hrD) hr').2.rest hk
            obtain ⟨i, sp, sc, k⟩ := r'
            cases hk'
            rw [ha'.bindingIdent ha] at hcl
            simp [classifyElement, ha] at hcl
            subst hcl
            exact .some hk ha
          all_goals
            obtain ⟨_, _, hf, -⟩ := run_bind_ok.1 hr₂
            exact absurd hf (run_fail_ne_ok _ _)
      simp -zeta only [tail] at hr
      extract_lets fin place at hr
      have hfin : ∀ {s₁ s₂ : Session}, (fin ()).run s₁ = .ok ((), s₂) → s₁.KeepsHooks s₂ ∧
          ∀ {σ₁ : List (String × Substitution)} {pre' post' : List Node} {D' : Node},
            s₁.Around σ₁ τ V kd pre' D' post' →
            s₂.Around (σ₁ ++ restName.toList.map fun y => (y, .reference other))
              τ V kd pre' D' post' := by
        intro s₁ s₂ hr₁
        simp only [fin] at hr₁
        cases restName with
        | none =>
          obtain ⟨-, rfl⟩ := run_pure_ok.1 hr₁
          exact ⟨refl_of _ _, fun hA₁ => by simpa using hA₁⟩
        | some y =>
          exact ⟨keepsHooks_normalizeAt _ _ _ _ _ _ hr₁, fun hA₁ =>
            hA₁.normalizeAt (by simpa [Substitution.name] using plain_uidAt hother) hr₁⟩
      have hplace : ∀ {init : Node} {s₁ s₂ : Session}, (place init).run s₁ = .ok ((), s₂) →
          s₁.KeepsHooks s₂ ∧ ∀ {init₀ : Node} {σ₁ : List (String × Substitution)}
            {pre₁ post₁ : List Node}, Node.Respelled σ₁ init₀ init → init.ids = [] →
            s₁.Around σ₁ τ V kd pre₁ D post₁ →
            (rep = true → s₂.Around (σ₁ ++ restName.toList.map fun y => (y, .reference other))
              τ V kd pre₁ (D.withKind (.declarator (bindingOf other) (some init₀))) post₁) ∧
            (rep = false → s₂.Around (σ₁ ++ restName.toList.map fun y => (y, .reference other))
              τ V kd pre₁ D (declaratorOf other init₀ :: post₁)) := by
        intro init s₁ s₂ hr₁
        simp only [place] at hr₁
        split at hr₁
        · rename_i hrt
          obtain ⟨⟨⟩, s₃, hrep, hr₂⟩ := run_bind_ok.1 hr₁
          obtain ⟨hkeep, hA₃⟩ := hfin hr₂
          refine ⟨trans_of Session.KeepsHooks (keepsHooks_replace _ _ _ _ _ hrep) hkeep,
            fun hiR hid hA₁ => ⟨fun _ => hA₃ ?_, fun hrf => by simp [hrf] at hrt⟩⟩
          exact hA₁.replace hd h0 (by simp [bindingOf, Kind.children, Child.ofOption, hid])
            (by simp) (by simp) (respelled_declaratorOf hiR other) hrep
        · rename_i hrf
          obtain ⟨⟨⟩, s₃, hins, hr₂⟩ := run_bind_ok.1 hr₁
          obtain ⟨hkeep, hA₃⟩ := hfin hr₂
          refine ⟨trans_of Session.KeepsHooks (keepsHooks_insertNear _ _ _ _ _ _ hins) hkeep,
            fun hiR hid hA₁ => ⟨fun hrt => absurd hrt hrf, fun _ => hA₃ ?_⟩⟩
          exact hA₁.insertNear_after hd h0 (by simp [hid]) (respelled_declaratorOf hiR other) hins
      split at hr
      · rename_i hnil
        obtain ⟨src', s₁, hs', hr₁⟩ := run_bind_ok.1 hr
        obtain rfl := reads_refresh src s src' s₁ hs'
        simp only [pure_bind] at hr₁
        obtain ⟨hkeep, hplaced⟩ := hplace hr₁
        refine ⟨hkeep, ?_⟩
        intro keys₀ rest₀ σ₁ pre₁ post₁ hσ hkeys _ hrest hrest₀ hA' _
        refine ⟨_, hτ hrest hrest₀ hA', ?_⟩
        obtain rfl : keys₀ = [] := by
          cases hkeys with
          | nil => rfl
          | cons => simp at hnil
        have hs'R := (hA'.refresh (hsR.mono hσ) hsD hs').2
        simpa [partitionOf] using hplaced hs'R.copy (Node.ids_copy _) hA'
      · rename_i hne
        obtain ⟨helper', s₁, hhook, hr₁⟩ := run_bind_ok.1 hr
        obtain ⟨src', s₂, hs', hr₂⟩ := run_bind_ok.1 hr₁
        obtain rfl := reads_refresh src s₁ src' s₂ hs'
        simp only [pure_bind] at hr₂
        obtain ⟨hkeep, hplaced⟩ := hplace hr₂
        refine ⟨trans_of Session.KeepsHooks (run_hook_lookup hhook).1 hkeep, ?_⟩
        intro keys₀ rest₀ σ₁ pre₁ post₁ hσ hkeys hkid hrest hrest₀ hA' hm'
        refine ⟨_, hτ hrest hrest₀ hA', ?_⟩
        obtain rfl := hkeep.eq_of_lookup (run_hook_lookup hhook).2 hm'
        have hA₁ := hA'.hook hhook
        have hs'R := (hA₁.refresh (hsR.mono hσ) hsD hs').2
        have hne₀ : keys₀.isEmpty = false := by
          cases hkeys with
          | nil => simp at hne
          | cons => rfl
        have hpart : Node.Respelled σ₁ (partitionOf helper' src₀ keys₀)
            (Node.make (.member (callOf helper' [src'.copy, Node.make (.array (keys.map some))])
              (.computed (indexLiteral 1)) false)) := by
          simpa [partitionOf, hne₀, hne] using respelled_partitionOf helper' hs'R hkeys
        refine hplaced hpart ?_ hA₁
        simp [callOf, indexLiteral, Kind.children, Child.ofList, Child.ofKey, Child.ofHoles]
        exact List.flatMap_eq_nil_iff.1 hkid
    have hbindk : ∀ access el, Along Session.KeepsHooks (bind access el) := by
      intro access el
      simp only [bind]
      refine Along.bind (keepsHooks_uidAt d "prop") fun prop => ?_
      split <;> first
        | refine Along.bind (keepsHooks_uidAt d "value") fun value =>
            Along.bind (Along.pure _) fun dflt => ?_
        | refine Along.bind (Along.pure _) fun dflt => ?_
      all_goals
        refine Along.bind (keepsHooks_insertNear _ _ _) fun _ => ?_
        split
        · exact keepsHooks_normalizeAt _ _ _
        · exact keepsHooks_destructure fuel d _ _ false
        · exact Along.fail _
    clear_value bind jp
    cases hP with
    | object hk hprops hrest =>
      obtain ⟨ps, r, hk', hps, hr⟩ := hpatR.objectPattern hk
      rw [hk'] at h₃
      dsimp only at h₃
      obtain ⟨keys, st₄, hfold, h₄⟩ := run_bind_ok.1 h₃
      rw [pure_bind] at h₄
      obtain ⟨hkeep, hjp₄⟩ := hjp h₄
      have hfl := around_foldlM_props src₀
        (Q := fun q => Node.FlattenableProperty q ∧ (∃ a b, Occurs a D b q) ∧ q.count < fuel)
        ?keep ?step (fun _ he => he : ∀ e ∈ σ, e ∈ σ) hps ?props hA₁ hfold (hkeep.mayImport hm)
      case keep =>
        intro keys q
        refine Along.bind (Along.of_reads (reads_refresh q)) fun q => ?_
        split
        · refine Along.bind (Along.check _) fun element =>
            Along.bind (Along.of_reads (reads_refresh src)) fun src => ?_
          split
          · rw [pure_bind]
            exact Along.bind (hbindk _ _) fun _ => Along.pure _
          · rw [pure_bind]
            exact Along.bind (hbindk _ _) fun _ => Along.pure _
          · exact Along.fail_bind _ _
        · exact Along.fail _
      case step =>
        intro keys q₀ q σ₂ pre₂ post₂ s keys' s' hσ₂ hA₂ hQ hqR hr hm₂
        obtain ⟨hq, hqD, hqc⟩ := hQ
        obtain ⟨q', s₁, hq', hr₁⟩ := run_bind_ok.1 hr
        obtain ⟨rfl, hq'R⟩ := hA₂.refresh hqR (fun _ => hqD) hq'
        rcases hq with @⟨_, v₀, key, sh, hk₀, hkey, hslot⟩
        obtain ⟨key', v, hk', hkeyR, hvR⟩ := hq'R.bindingProperty hk₀
        rw [hk'] at hr₁
        dsimp only at hr₁
        obtain ⟨el, s₂, hc, hr₂⟩ := run_bind_ok.1 hr₁
        obtain ⟨hcl, rfl⟩ := run_check_ok.1 hc
        obtain ⟨src', s₃, hs', hr₃⟩ := run_bind_ok.1 hr₂
        obtain ⟨rfl, hs'R⟩ := hA₂.refresh (hsR.mono hσ₂) hsD hs'
        obtain ⟨kn₀, acc₀, hka⟩ : ∃ kn₀ acc₀, keyAccess src₀.copy key = some (kn₀, acc₀) := by
          cases key with
          | named name => exact ⟨_, _, rfl⟩
          | computed e => exact ⟨_, _, rfl⟩
          | privateName name => exact absurd rfl (hkey name)
        obtain ⟨kn, acc, hka', hknR, haccR⟩ := respelled_keyAccess hkeyR hs'R.copy hka
        have hr₄ : (bind acc el >>= fun _ => pure (keys ++ [kn])).run s₃ = .ok (keys', s') := by
          cases key' with
          | named name =>
            cases hka'
            simp only [pure_bind] at hr₃
            exact hr₃
          | computed e =>
            cases hka'
            simp only [pure_bind] at hr₃
            exact hr₃
          | privateName name => cases hka'
        obtain ⟨⟨⟩, s₄, hb, hr₅⟩ := run_bind_ok.1 hr₄
        obtain ⟨rfl, rfl⟩ := run_pure_ok.1 hr₅
        have hv₀ : v₀ ∈ q₀.kind.children.map Child.node := by
          rw [hk₀]
          simp [Kind.children]
        obtain ⟨hknid, haccid⟩ := ids_keyAccess (Node.ids_copy _) hka'
        obtain ⟨accs, parts, σ', hfs, hA₃⟩ := hbind hslot (occurs_of_child hqD hv₀)
          (by have := Node.count_lt_of_mem_children hv₀; omega) hvR hcl haccR haccid hA₂ hb hm₂
        exact ⟨_, _, _, kn₀, acc₀, kn, accs, parts, σ', hk₀, hka, hfs, rfl, hknid,
          hknR.mono fun _ he => List.mem_append_left _ he, hA₃⟩
      case props =>
        intro q hq
        have hmem : q ∈ P₀.kind.children.map Child.node := by
          rw [hk]
          simp [Kind.children, hq]
        exact ⟨hprops q hq, occurs_of_child hPD hmem,
          by have := Node.count_lt_of_mem_children hmem; omega⟩
      obtain ⟨ks₀, ks, accs, parts, σ', hfl, rfl, hksid, hks₀, hA₅⟩ := hfl
      obtain ⟨τ', hτ', hrep, hnrep⟩ := hjp₄ (fun _ he => List.mem_append_left _ he) hks₀ hksid
        (Option.Rel.respelled_mono (fun _ he => List.mem_append_left _ he) hr)
        (fun r hrm => ⟨hrest r hrm, occurs_of_child hPD (by
          rw [hk]
          simpa [Kind.children] using Or.inr hrm)⟩)
        hA₅ hm
      exact ⟨other, ks₀, accs, parts, σ' ++ τ', .object hk hfl hτ',
        fun hrt => by simpa using hrep hrt, fun hrf => by simpa using hnrep hrf⟩
    | array hk helems hrest =>
      obtain ⟨es, r, hk', hes, hr⟩ := hpatR.arrayPattern hk
      rw [hk'] at h₃
      dsimp only at h₃
      obtain ⟨⟨keys, index⟩, st₄, hfold, h₄⟩ := run_bind_ok.1 h₃
      simp only [pure_bind] at h₄
      obtain ⟨hkeep, hjp₄⟩ := hjp h₄
      have hfl := around_foldlM_elems src₀
        (Q := fun v => Node.FlattenableSlot v ∧ (∃ a b, Occurs a D b v) ∧ v.count < fuel)
        ?keep ?hole ?step (fun _ he => he : ∀ e ∈ σ, e ∈ σ) hes ?elems hA₁ hfold
        (hkeep.mayImport hm)
      case keep =>
        intro p e
        obtain ⟨keys, index⟩ := p
        dsimp only
        split
        · exact Along.pure _
        · exact Along.bind (Along.of_reads (reads_refresh _)) fun e =>
            Along.bind (Along.check _) fun element =>
            Along.bind (Along.of_reads (reads_refresh src)) fun src =>
            Along.bind (hbindk _ _) fun _ => Along.pure _
      case hole =>
        intro keys i s r s' hr
        obtain ⟨rfl, rfl⟩ := run_pure_ok.1 hr
        exact ⟨rfl, rfl⟩
      case step =>
        intro keys i v₀ v σ₂ pre₂ post₂ s r s' hσ₂ hA₂ hQ hvR hr hm₂
        obtain ⟨hslot, hvD, hvc⟩ := hQ
        dsimp only at hr
        obtain ⟨v', s₁, hv', hr₁⟩ := run_bind_ok.1 hr
        obtain ⟨rfl, hv'R⟩ := hA₂.refresh hvR (fun _ => hvD) hv'
        obtain ⟨el, s₂, hc, hr₂⟩ := run_bind_ok.1 hr₁
        obtain ⟨hcl, rfl⟩ := run_check_ok.1 hc
        obtain ⟨src', s₃, hs', hr₃⟩ := run_bind_ok.1 hr₂
        obtain ⟨rfl, hs'R⟩ := hA₂.refresh (hsR.mono hσ₂) hsD hs'
        obtain ⟨⟨⟩, s₄, hb, hr₄⟩ := run_bind_ok.1 hr₃
        obtain ⟨rfl, rfl⟩ := run_pure_ok.1 hr₄
        obtain ⟨accs, parts, σ', hfs, hA₃⟩ := hbind hslot hvD hvc hv'R hcl
          (respelled_indexAccess hs'R.copy i)
          (by simp [indexAccess, indexLiteral, Kind.children, Child.ofKey]) hA₂ hb hm₂
        exact ⟨accs, parts, σ', hfs, rfl, hA₃⟩
      case elems =>
        intro v hv
        have hmem : v ∈ P₀.kind.children.map Child.node := by
          rw [hk]
          simpa [Kind.children] using Or.inl (List.reduceOption_mem_iff.2 hv)
        exact ⟨helems v hv, occurs_of_child hPD hmem,
          by have := Node.count_lt_of_mem_children hmem; omega⟩
      obtain ⟨ks, accs, parts, σ', hfl, hks, hksid, hA₅⟩ := hfl
      obtain rfl : keys = ks := by simpa using hks
      obtain ⟨τ', hτ', hrep, hnrep⟩ := hjp₄ (fun _ he => List.mem_append_left _ he)
        (List.forall₂_same.2 fun k _ => .refl _ k) hksid
        (Option.Rel.respelled_mono (fun _ he => List.mem_append_left _ he) hr)
        (fun r hrm => ⟨hrest r hrm, occurs_of_child hPD (by
          rw [hk]
          simpa [Kind.children] using Or.inr hrm)⟩)
        hA₅ hm
      exact ⟨other, keys, accs, parts, σ' ++ τ', .array hk hfl hτ',
        fun hrt => by simpa using hrep hrt, fun hrf => by simpa using hnrep hrf⟩

end Destructure

/-! ### The partitions of the nested patterns read accessors -/

section Reads

variable {helper : String}

/-- Every declarator of `parts` is the partition of a nested pattern, read from a call of an
accessor that `accs` declares. -/
def ReadsAccessors (helper : String) (accs parts : List Node) : Prop :=
  ∀ q ∈ parts, ∃ other prop keys a,
    q = declaratorOf other (partitionOf helper (callOf prop []) keys) ∧ declaratorOf prop a ∈ accs

namespace ReadsAccessors

theorem nil (accs : List Node) : ReadsAccessors helper accs [] :=
  fun _ hq => absurd hq List.not_mem_nil

theorem mono {accs accs' parts : List Node} (h : ReadsAccessors helper accs parts)
    (hs : ∀ a ∈ accs, a ∈ accs') : ReadsAccessors helper accs' parts := by
  intro q hq
  obtain ⟨other, prop, keys, a, rfl, ha⟩ := h q hq
  exact ⟨other, prop, keys, a, rfl, hs _ ha⟩

theorem append {accs p₁ p₂ : List Node} (h₁ : ReadsAccessors helper accs p₁)
    (h₂ : ReadsAccessors helper accs p₂) : ReadsAccessors helper accs (p₁ ++ p₂) := by
  intro q hq
  rcases List.mem_append.1 hq with hq | hq
  · exact h₁ q hq
  · exact h₂ q hq

/-- The partitions of a pattern read from a call of the accessor `prop`, declared first, read
accessors: the pattern's own partition reads `prop`'s, and the others read the accessors after
it. -/
theorem cons_call {prop other : String} {dflt : Option (Node × String)} {access : Node}
    {keys accs parts : List Node} (h : ReadsAccessors helper accs parts) :
    ReadsAccessors helper (declaratorOf prop (accessorOf access dflt) :: accs)
      (declaratorOf other (partitionOf helper (callOf prop []) keys) :: parts) := by
  intro q hq
  rcases List.mem_cons.1 hq with rfl | hq
  · exact ⟨other, prop, keys, _, rfl, List.mem_cons_self⟩
  · exact (h.mono fun _ ha => List.mem_cons_of_mem _ ha) q hq

end ReadsAccessors

mutual

/-- A pattern's own partition reads its source; the partitions after it read accessors. By
recursion through the slots, whose nested patterns read a call of the slot's accessor. -/
theorem Flattens.readsAccessors {src P : Node} {accs parts : List Node}
    {σ : List (String × Substitution)} :
    Flattens helper src P accs parts σ → ∃ other keys rest,
      parts = declaratorOf other (partitionOf helper src keys) :: rest ∧
      ReadsAccessors helper accs rest
  | .object _ hps _ => ⟨_, _, _, rfl, FlattensProps.readsAccessors hps⟩
  | .array _ hes _ => ⟨_, _, _, rfl, FlattensElems.readsAccessors hes⟩

theorem FlattensProps.readsAccessors {src : Node} {props keys accs parts : List Node}
    {σ : List (String × Substitution)} :
    FlattensProps helper src props keys accs parts σ → ReadsAccessors helper accs parts
  | .nil _ => .nil _
  | .cons _ _ hslot hps =>
    ((FlattensProps.readsAccessors hps).mono fun _ ha => List.mem_append_right _ ha).append
      ((FlattensSlot.readsAccessors hslot).mono fun _ ha => List.mem_append_left _ ha)

theorem FlattensElems.readsAccessors {src : Node} {i : Nat} {es : List (Option Node)}
    {keys accs parts : List Node} {σ : List (String × Substitution)} :
    FlattensElems helper src i es keys accs parts σ → ReadsAccessors helper accs parts
  | .nil _ _ => .nil _
  | .hole hes => FlattensElems.readsAccessors hes
  | .cons hslot hes =>
    ((FlattensElems.readsAccessors hes).mono fun _ ha => List.mem_append_right _ ha).append
      ((FlattensSlot.readsAccessors hslot).mono fun _ ha => List.mem_append_left _ ha)

theorem FlattensSlot.readsAccessors {access v : Node} {accs parts : List Node}
    {σ : List (String × Substitution)} :
    FlattensSlot helper access v accs parts σ → ReadsAccessors helper accs parts
  | .name _ => .nil _
  | .nested hfl => by
    obtain ⟨other, keys, rest, rfl, hrest⟩ := Flattens.readsAccessors hfl
    exact hrest.cons_call
  | .defaultName _ _ => .nil _
  | .defaultNested _ hfl => by
    obtain ⟨other, keys, rest, rfl, hrest⟩ := Flattens.readsAccessors hfl
    exact hrest.cons_call

end

end Reads

/-! ### A flattening from the declaration as it stands

The declaration `V` holds `pre`, the declarator `D` and `post`; the pattern and the source stand
in `D`, and the flattening is given the fuel its callers give, one more than the pattern's size.
-/

section Flattening

variable {st st' : Session} {τ : Nat} {V D src P : Node} {kd : DeclKind} {pre post : List Node}
  {helper : String}

/-- A declaration standing in a tidy session holds its declarators unrespelled. -/
theorem around_of_occurs (ht : st.Tidy)
    (hV : Occurs 0 st.root τ (V.withKind (.varDecl kd (pre ++ D :: post)))) :
    st.Around [] τ V kd pre D post :=
  ⟨ht, _, hV, List.forall₂_same.2 fun n _ => .refl _ n⟩

theorem occurs_target {t : Node} {i : Option Node} (hD : D.kind = .declarator t i) :
    ∃ a b, Occurs a D b t :=
  ⟨0, _, .child trivial (by rw [hD]; simp [Kind.children]) (.here _ _)⟩

theorem occurs_init {t s : Node} (hD : D.kind = .declarator t (some s)) :
    ∃ a b, Occurs a D b s :=
  ⟨0, _, .child trivial (by rw [hD]; simp [Kind.children, Child.ofOption]) (.here _ _)⟩

/-- A run whose evaluated answer has the session import `name` as `l` succeeds, into a session
that may import `name` only as `l`. -/
theorem exists_run_mayImport (m : Rewrite Unit) (st : Session) (name l : String)
    (h : (m.run st).toOption.map (fun r => r.2.hooks.lookup name) = some (some l)) :
    ∃ st', m.run st = .ok ((), st') ∧ st'.MayImport name l := by
  cases hr : m.run st with
  | error e =>
    rw [hr] at h
    cases h
  | ok r =>
    obtain ⟨⟨⟩, st'⟩ := r
    rw [hr] at h
    simp only [Except.toOption, Option.map_some, Option.some.injEq] at h
    exact ⟨st', rfl, fun l' hl => by
      rw [h] at hl
      exact (Option.mem_some_iff.1 hl).symm⟩

/-- **What a flattening builds.** A successful flattening of a flattenable pattern `P` read from
`src` leaves in the declaration, after the declarators before `D`, one accessor per slot of `P`
and of every pattern nested in it, as `Flattens` builds them from the keys and indices of the
slots, their defaults and the source; then the partition of `P` (in `D`'s place, or after `D`),
and the partitions of the nested patterns. What the declaration holds is a respelling of these
by the names the pattern binds: a default, a computed key or the source that reads one of them
reads its accessor or its partition instead. -/
theorem destructure_builds_flattening {rep : Bool} (ht : st.Tidy)
    (hV : Occurs 0 st.root τ (V.withKind (.varDecl kd (pre ++ D :: post)))) (h0 : D.id ≠ 0)
    (hP : Node.Flattenable P) (hPD : ∃ a b, Occurs a D b P)
    (hsD : src.id ≠ 0 → ∃ a b, Occurs a D b src)
    (h : (destructure (P.count + 1) D.id src P rep).run st = .ok ((), st'))
    (hm : st'.MayImport "splitProps" helper) :
    ∃ other keys accs parts σ,
      Flattens helper src P accs (declaratorOf other (partitionOf helper src keys) :: parts) σ ∧
      (rep = true → st'.Around σ τ V kd (pre ++ accs)
        (D.withKind (.declarator (bindingOf other) (some (partitionOf helper src keys))))
        (parts ++ post)) ∧
      (rep = false → st'.Around σ τ V kd (pre ++ accs) D
        (declaratorOf other (partitionOf helper src keys) :: parts ++ post)) := by
  obtain ⟨other, keys, accs, parts, σ, hfl, hrep, hins⟩ :=
    around_destructure rfl h0 (P.count + 1) (Nat.lt_succ_self _) hP hPD (.refl _ _) (.refl _ _)
      hsD (around_of_occurs ht hV) h hm
  exact ⟨other, keys, accs, parts, σ, hfl, fun hr => by simpa using hrep hr,
    fun hr => by simpa using hins hr⟩

/-- The pattern `{ a = b, b }`, whose default reads the name bound after it. -/
def laterDefaultPattern : Node :=
  .mk 4 ⟨0, 0⟩ none (.objectPattern [
    .mk 5 ⟨0, 0⟩ none (.bindingProperty (.named "a")
      (.mk 6 ⟨0, 0⟩ none (.assignPattern (.mk 7 ⟨0, 0⟩ none (.bindingIdent "a"))
        (.mk 8 ⟨0, 0⟩ none (.ident "b")))) true),
    .mk 9 ⟨0, 0⟩ none (.bindingProperty (.named "b")
      (.mk 10 ⟨0, 0⟩ none (.bindingIdent "b")) true)] none)

/-- The source `p`. -/
def laterDefaultSource : Node := .mk 11 ⟨0, 0⟩ none (.ident "p")

/-- The declarator `{ a = b, b } = p`. -/
def laterDefaultDeclarator : Node :=
  .mk 3 ⟨0, 0⟩ none (.declarator laterDefaultPattern (some laterDefaultSource))

/-- The declaration `const { a = b, b } = p;`. -/
def laterDefaultDeclaration : Node := .mk 2 ⟨0, 0⟩ none (.varDecl .const [laterDefaultDeclarator])

/-- The module of that one declaration. -/
def laterDefaultModule : Node := .mk 1 ⟨0, 0⟩ none (.program [laterDefaultDeclaration])

theorem flattenable_laterDefaultPattern : Node.Flattenable laterDefaultPattern := by
  refine .object rfl (fun q hq => ?_) (by simp)
  simp only [List.mem_cons, List.not_mem_nil, or_false] at hq
  rcases hq with rfl | rfl
  · exact .mk rfl (fun _ h => by cases h) (.defaultName rfl rfl)
  · exact .mk rfl (fun _ h => by cases h) (.name rfl)

set_option maxRecDepth 100000 in
theorem destructure_builds_flattening_laterDefault :
    ∃ st', (destructure (laterDefaultPattern.count + 1) laterDefaultDeclarator.id
        laterDefaultSource laterDefaultPattern false).run (Session.start laterDefaultModule "") =
        .ok ((), st') ∧
      st'.MayImport "splitProps" "_splitProps" ∧
      ∃ other keys accs parts σ, Flattens "_splitProps" laterDefaultSource laterDefaultPattern accs
          (declaratorOf other (partitionOf "_splitProps" laterDefaultSource keys) :: parts) σ ∧
        (false = true → st'.Around σ 0 laterDefaultDeclaration .const ([] ++ accs)
          (laterDefaultDeclarator.withKind (.declarator (bindingOf other)
            (some (partitionOf "_splitProps" laterDefaultSource keys)))) (parts ++ [])) ∧
        (false = false → st'.Around σ 0 laterDefaultDeclaration .const ([] ++ accs)
          laterDefaultDeclarator
          (declaratorOf other (partitionOf "_splitProps" laterDefaultSource keys) ::
            parts ++ [])) := by
  have ht : (Session.start laterDefaultModule "").Tidy := by
    have h : (Session.start laterDefaultModule "").ids = [1, 2, 3, 4, 5, 6, 7, 8, 9, 10, 11] := by
      cbv
    rw [Session.Tidy, h]
    decide
  have hV : Occurs 0 (Session.start laterDefaultModule "").root 0
      (laterDefaultDeclaration.withKind (.varDecl .const ([] ++ laterDefaultDeclarator :: []))) := by
    have hroot : (Session.start laterDefaultModule "").root =
        .mk 1 ⟨0, 0⟩ (some 0) (.program [laterDefaultDeclaration]) := by cbv
    show Occurs 0 _ 0 laterDefaultDeclaration
    rw [hroot]
    exact .child trivial (by simp [Kind.children, Child.ofList]) (.here _ _)
  obtain ⟨st', hr, hm⟩ := exists_run_mayImport (destructure (laterDefaultPattern.count + 1)
    laterDefaultDeclarator.id laterDefaultSource laterDefaultPattern false)
    (Session.start laterDefaultModule "") "splitProps" "_splitProps" (by cbv)
  exact ⟨st', hr, hm, destructure_builds_flattening ht hV (by decide)
    flattenable_laterDefaultPattern (occurs_target rfl) (fun _ => occurs_init rfl) hr hm⟩

set_option maxRecDepth 100000 in
/-- A default that reads a name the pattern binds after it is respelled: flattening
`const { a = b, b } = p;` leaves `_prop2()`, the accessor of `b`, as the default in the accessor
of `a` (the first declarator of the declaration, which follows the helper's import), since the
reads of `b` are rewritten over the whole declaration once its accessor is declared. -/
theorem destructure_respells_later_default :
    ((destructure (laterDefaultPattern.count + 1) laterDefaultDeclarator.id laterDefaultSource
        laterDefaultPattern true).run (Session.start laterDefaultModule "solid-js")).toOption.bind
        (fun r => ((r.2.root.kind.children.map Child.node)[1]?).bind fun d =>
          ((d.kind.children.map Child.node)[0]?).map Node.print) =
      some ("_prop = () => \x7b\n  const _value = p.a;\n" ++
        "  return _value == null ? _prop2() : _value;\n\x7d\n") := by
  cbv

/-- **The order of the declarators a flattening leaves.** A flattening that replaces `D` leaves
the declaration in five parts: the declarators before `D`; the accessors, in the order of the
slots, each nested pattern's right after its slot's; the partition of `P` in `D`'s place; the
partitions of the nested patterns, those of a later slot before those of an earlier one; and the
declarators after `D`. Each partition of a nested pattern reads a call of an accessor declared
among the accessors, so before it. -/
theorem destructure_orders_declarators (ht : st.Tidy)
    (hV : Occurs 0 st.root τ (V.withKind (.varDecl kd (pre ++ D :: post)))) (h0 : D.id ≠ 0)
    (hP : Node.Flattenable P) (hPD : ∃ a b, Occurs a D b P)
    (hsD : src.id ≠ 0 → ∃ a b, Occurs a D b src)
    (h : (destructure (P.count + 1) D.id src P true).run st = .ok ((), st'))
    (hm : st'.MayImport "splitProps" helper) :
    ∃ other keys accs parts σ,
      Flattens helper src P accs (declaratorOf other (partitionOf helper src keys) :: parts) σ ∧
      st'.Around σ τ V kd (pre ++ accs)
        (D.withKind (.declarator (bindingOf other) (some (partitionOf helper src keys))))
        (parts ++ post) ∧
      ReadsAccessors helper accs parts := by
  obtain ⟨other, keys, accs, parts, σ, hfl, hrep, -⟩ :=
    around_destructure rfl h0 (P.count + 1) (Nat.lt_succ_self _) hP hPD (.refl _ _) (.refl _ _)
      hsD (around_of_occurs ht hV) h hm
  obtain ⟨other', keys', rest, hparts, hreads⟩ := hfl.readsAccessors
  obtain rfl : parts = rest := (List.cons.inj hparts).2
  exact ⟨other, keys, accs, parts, σ, hfl, by simpa using hrep rfl, hreads⟩

/-- The pattern `{ a: { x }, b: { y } }`. -/
def twoNestedPattern : Node :=
  .mk 4 ⟨0, 0⟩ none (.objectPattern [
    .mk 5 ⟨0, 0⟩ none (.bindingProperty (.named "a")
      (.mk 6 ⟨0, 0⟩ none (.objectPattern [
        .mk 7 ⟨0, 0⟩ none (.bindingProperty (.named "x")
          (.mk 8 ⟨0, 0⟩ none (.bindingIdent "x")) true)] none)) false),
    .mk 9 ⟨0, 0⟩ none (.bindingProperty (.named "b")
      (.mk 10 ⟨0, 0⟩ none (.objectPattern [
        .mk 11 ⟨0, 0⟩ none (.bindingProperty (.named "y")
          (.mk 12 ⟨0, 0⟩ none (.bindingIdent "y")) true)] none)) false)] none)

/-- The source `p`. -/
def twoNestedSource : Node := .mk 13 ⟨0, 0⟩ none (.ident "p")

/-- The declarator `{ a: { x }, b: { y } } = p`. -/
def twoNestedDeclarator : Node :=
  .mk 3 ⟨0, 0⟩ none (.declarator twoNestedPattern (some twoNestedSource))

/-- The declaration `const { a: { x }, b: { y } } = p;`. -/
def twoNestedDeclaration : Node := .mk 2 ⟨0, 0⟩ none (.varDecl .const [twoNestedDeclarator])

/-- The module of that one declaration. -/
def twoNestedModule : Node := .mk 1 ⟨0, 0⟩ none (.program [twoNestedDeclaration])

theorem flattenable_twoNestedPattern : Node.Flattenable twoNestedPattern := by
  have hinner : ∀ (i j : Nat) (x : String), Node.FlattenableSlot (.mk i ⟨0, 0⟩ none
      (.objectPattern [.mk j ⟨0, 0⟩ none (.bindingProperty (.named x)
        (.mk (j + 1) ⟨0, 0⟩ none (.bindingIdent x)) true)] none)) := by
    intro i j x
    refine .nested (.object rfl (fun q hq => ?_) (by simp))
    obtain rfl := List.mem_singleton.1 hq
    exact .mk rfl (fun _ h => by cases h) (.name rfl)
  refine .object rfl (fun q hq => ?_) (by simp)
  simp only [List.mem_cons, List.not_mem_nil, or_false] at hq
  rcases hq with rfl | rfl
  · exact .mk rfl (fun _ h => by cases h) (hinner 6 7 "x")
  · exact .mk rfl (fun _ h => by cases h) (hinner 10 11 "y")

set_option maxRecDepth 100000 in
theorem destructure_orders_declarators_twoNested :
    ∃ st', (destructure (twoNestedPattern.count + 1) twoNestedDeclarator.id twoNestedSource
        twoNestedPattern true).run (Session.start twoNestedModule "solid-js") = .ok ((), st') ∧
      st'.MayImport "splitProps" "_splitProps" ∧
      ∃ other keys accs parts σ, Flattens "_splitProps" twoNestedSource twoNestedPattern accs
          (declaratorOf other (partitionOf "_splitProps" twoNestedSource keys) :: parts) σ ∧
        st'.Around σ 0 twoNestedDeclaration .const ([] ++ accs)
          (twoNestedDeclarator.withKind (.declarator (bindingOf other)
            (some (partitionOf "_splitProps" twoNestedSource keys)))) (parts ++ []) ∧
        ReadsAccessors "_splitProps" accs parts := by
  have ht : (Session.start twoNestedModule "solid-js").Tidy := by
    have h : (Session.start twoNestedModule "solid-js").ids =
        [1, 2, 3, 4, 5, 6, 7, 8, 9, 10, 11, 12, 13] := by cbv
    rw [Session.Tidy, h]
    decide
  have hV : Occurs 0 (Session.start twoNestedModule "solid-js").root 0
      (twoNestedDeclaration.withKind (.varDecl .const ([] ++ twoNestedDeclarator :: []))) := by
    have hroot : (Session.start twoNestedModule "solid-js").root =
        .mk 1 ⟨0, 0⟩ (some 0) (.program [twoNestedDeclaration]) := by cbv
    show Occurs 0 _ 0 twoNestedDeclaration
    rw [hroot]
    exact .child trivial (by simp [Kind.children, Child.ofList]) (.here _ _)
  obtain ⟨st', hr, hm⟩ := exists_run_mayImport (destructure (twoNestedPattern.count + 1)
    twoNestedDeclarator.id twoNestedSource twoNestedPattern true)
    (Session.start twoNestedModule "solid-js") "splitProps" "_splitProps" (by cbv)
  exact ⟨st', hr, hm, destructure_orders_declarators ht hV (by decide)
    flattenable_twoNestedPattern (occurs_target rfl) (fun _ => occurs_init rfl) hr hm⟩

end Flattening

end Rewrite

end SignalSugar
