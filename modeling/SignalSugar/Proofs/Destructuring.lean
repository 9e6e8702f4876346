import SignalSugar.Proofs.SessionSteps
/-!
# Flattening a pattern advances the session

`destructure` builds everything it puts in the program: each slot's accessor reads a copy of
the source, the keys handed to the splitting helper are built literals or copies of computed
keys, and the binding of what is left is a copy of the source again. So every declarator it
inserts, and the one it puts in place of the label's declarator, holds no node read from the
source, and the flattening advances the session moving nothing under new arrows.

The proof follows the definition: the slot binder and the tail that binds the rest are each
shown to advance the session once, for any accessor and any keys made of built nodes, and the
folds over an object's properties and an array's elements keep their keys built. The body is
proved once, in `along_destructure_body`, for any relation that the steps it is made of keep
when what they put in the program is fresh, and that the step on the label's declarator keeps.
`along_destructure_succ` is the case of the relations that advance the session: the expansion
of the labels uses it again to show that the declarator is left holding only built nodes, and
the marks of the program are kept the same way.
-/

namespace SignalSugar

namespace Rewrite

@[simp] theorem ids_bindingOf (x : String) : (bindingOf x).ids = [] := by
  simp [bindingOf, Kind.children]

theorem ids_memberOf (object : Node) (name : String) : (memberOf object name).ids = object.ids := by
  unfold memberOf
  split <;> simp [Kind.children, Child.ofKey]

theorem ids_accessorOf {access : Node} (h : access.ids = []) (dflt : Option (Node × String)) :
    (accessorOf access dflt).ids = [] := by
  cases dflt with
  | none => simp [accessorOf, arrowOf, Kind.children, Child.ofList, h]
  | some p => simp [accessorOf, arrowBlock, bindingOf, identOf, returnOf, Kind.children, Child.ofList,
      Child.ofOption, h]

theorem fresh_memberOf {object : Node} (h : object.fresh = true) (name : String) :
    (memberOf object name).fresh = true := by
  unfold memberOf
  split <;> simp [Kind.children, Child.ofKey, h]

theorem fresh_accessorOf {access : Node} (h : access.fresh = true) (dflt : Option (Node × String)) :
    (accessorOf access dflt).fresh = true := by
  cases dflt with
  | none => simp [accessorOf, arrowOf, Kind.children, h]
  | some p => simp [accessorOf, arrowBlock, bindingOf, identOf, returnOf, Kind.children,
      Child.ofOption, h]

section Body

variable {S T : Session → Session → Prop} {fuel d : Nat} {source pattern : Node} {rep : Bool}

/-- **The body of a flattening**, for a relation `S` that the steps around the label's declarator
keep and a relation `T` that the step on the declarator keeps, with the steps before and after
it composing into `T`. `S` has to be kept by a few steps only: a fresh name, a fresh node put
before the declarator, the respelling of a binding by a name no label has, an import, and the
flattening of a nested pattern (`ih`). -/
theorem along_destructure_body [Std.Refl S] [IsTrans Session S]
    (hpre : ∀ s₁ s₂ s₃, S s₁ s₂ → T s₂ s₃ → T s₁ s₃)
    (hpost : ∀ s₁ s₂ s₃, T s₁ s₂ → S s₂ s₃ → T s₁ s₃)
    (huid : ∀ hint, Along S (uidAt d hint))
    (hfresh : ∀ node : Node, node.fresh = true → Along S (insertNear d node false))
    (hnorm : ∀ owner (sub : Substitution) x, Label.ofName? sub.name = none →
      Along S (normalizeAt owner sub x))
    (hhook : ∀ name, Along S (hook name))
    (ih : ∀ source pattern, Along S (destructure fuel d source pattern false))
    (hrep : rep = true → ∀ other (init : Node), init.fresh = true →
      Along T (replace d (.declarator (bindingOf other) (some init))))
    (hins : rep = false → ∀ other (init : Node), init.fresh = true →
      Along T (insertNear d (Node.make (.declarator (bindingOf other) (some init))) true)) :
    Along T (destructure (fuel + 1) d source pattern rep) := by
  rw [destructure]
  refine Along.bind_comp_of hpre (fun other => Label.ofName? other = none)
    (fun _ _ _ h => plain_uidAt h) (huid "other") fun other hother => ?_
  refine Along.bind_comp hpre (Along.of_reads (reads_ownerAt d)) fun owner => ?_
  refine Along.bind_comp hpre (Along.of_reads (reads_refresh pattern)) fun pattern => ?_
  lift_lets
  intro bind jp
  have hbind : ∀ (access : Node) element, access.fresh = true → Along S (bind access element) := by
    intro access element hacc
    simp only [bind]
    refine Along.bind_of (fun prop => Label.ofName? prop = none) (fun _ _ _ h => plain_uidAt h)
      (huid "prop") fun prop hprop => ?_
    split <;> first
      | refine Along.bind (huid "value") fun value =>
          Along.bind (Along.pure _) fun dflt => ?_
      | refine Along.bind (Along.pure _) fun dflt => ?_
    all_goals
      refine Along.bind (hfresh _ (by simp [bindingOf, Kind.children, Child.ofOption,
        fresh_accessorOf hacc])) fun _ => ?_
      split
      · exact hnorm _ _ _ hprop
      · exact ih _ _
      · exact Along.fail _
  have hjp : ∀ keys rest, (∀ k ∈ keys, k.fresh = true) → Along T (jp (keys, rest)) := by
    intro keys rest hkeys
    simp only [jp]
    split
    on_goal 2 => refine Along.bind_comp hpre (Along.pure _) fun restName => ?_
    on_goal 1 =>
      refine Along.bind_comp hpre (Along.of_reads (reads_refresh _)) fun r =>
        Along.bind_comp hpre (Along.check _) fun el => ?_
      split <;> first
        | refine Along.bind_comp hpre (Along.pure _) fun restName => ?_
        | refine Along.bind_comp hpre (Along.fail _) fun restName => ?_
    all_goals
      split <;> first
      | refine Along.bind_comp hpre (Along.of_reads (reads_refresh _)) fun src =>
          Along.bind_comp_of hpre (fun init : Node => init.fresh = true)
            (fun _ _ _ h => by obtain ⟨rfl, -⟩ := run_pure_ok.1 h; simp) (Along.pure _)
            fun init hinit => ?_
      | refine Along.bind_comp hpre (hhook _) fun helper =>
          Along.bind_comp hpre (Along.of_reads (reads_refresh _)) fun src =>
          Along.bind_comp_of hpre (fun init : Node => init.fresh = true)
            (fun _ _ _ h => by
              obtain ⟨rfl, -⟩ := run_pure_ok.1 h
              simpa [callOf, indexLiteral, identOf, Kind.children, Child.ofList, Child.ofKey,
                Child.ofHoles] using hkeys)
            (Along.pure _) fun init hinit => ?_
      all_goals
        split
        · refine Along.bind_comp hpost (hrep (by assumption) other init hinit) fun _ => ?_
          split
          · exact hnorm _ _ _ hother
          · exact Along.pure _
        · refine Along.bind_comp hpost (hins (by simpa using ‹¬rep = true›) other init hinit)
            fun _ => ?_
          split
          · exact hnorm _ _ _ hother
          · exact Along.pure _
  clear_value bind jp
  split
  · refine Yields.bind_comp hpre (Q := fun keys : List Node => ∀ k ∈ keys, k.fresh = true)
      (Yields.foldlM (fun keys hkeys q _ => ?_) (by simp)) fun keys hkeys => ?_
    · refine Yields.bind (Yields.of_along (Along.of_reads (reads_refresh q))) fun q _ => ?_
      split
      · refine Yields.bind (Yields.of_along (Along.check _)) fun element _ =>
          Yields.bind (Yields.of_along (Along.of_reads (reads_refresh source))) fun src _ => ?_
        dsimp only
        split
        · rw [pure_bind]
          exact Yields.bind (Yields.of_along (hbind _ _ (fresh_memberOf (Node.fresh_copy _) _)))
            fun _ _ => Yields.pure (List.forall_mem_append.2 ⟨hkeys, by simp [Kind.children]⟩)
        · rw [pure_bind]
          exact Yields.bind (Yields.of_along (hbind _ _ (by simp [Kind.children, Child.ofKey])))
            fun _ _ => Yields.pure (List.forall_mem_append.2 ⟨hkeys, by simp⟩)
        · exact Yields.fail_bind _ _
      · exact Yields.fail _
    · rw [pure_bind]
      exact hjp keys _ hkeys
  · refine Yields.bind_comp hpre (Q := fun p : List Node × Nat => ∀ k ∈ p.1, k.fresh = true)
      (Yields.foldlM (fun p hp e _ => ?_) (by simp)) fun p hp => ?_
    · obtain ⟨keys, index⟩ := p
      dsimp only at hp ⊢
      split
      · exact Yields.pure hp
      · refine Yields.bind (Yields.of_along (Along.of_reads (reads_refresh _))) fun e _ =>
          Yields.bind (Yields.of_along (Along.check _)) fun element _ =>
          Yields.bind (Yields.of_along (Along.of_reads (reads_refresh source))) fun src _ => ?_
        exact Yields.bind (Yields.of_along (hbind _ _ (by simp [Kind.children, Child.ofKey,
          indexLiteral]))) fun _ _ =>
          Yields.pure (List.forall_mem_append.2 ⟨hp, by simp [indexLiteral, Kind.children]⟩)
    · obtain ⟨keys, index⟩ := p
      dsimp only
      rw [pure_bind]
      exact hjp keys _ hp
  · exact Along.fail_bind _ _

/-- **The body of a flattening**, for a relation `T` that the step on the declarator keeps and
that the advancing steps before and after it compose into: every other step advances the
session moving nothing under new arrows. The nested patterns are flattened by `ih`. -/
theorem along_destructure_succ
    (hpre : ∀ s₁ s₂ s₃, s₁.Advances [] s₂ → T s₂ s₃ → T s₁ s₃)
    (hpost : ∀ s₁ s₂ s₃, T s₁ s₂ → s₂.Advances [] s₃ → T s₁ s₃)
    (ih : ∀ source pattern, Along (Session.Advances []) (destructure fuel d source pattern false))
    (hrep : rep = true → ∀ other (init : Node), init.ids = [] →
      Along T (replace d (.declarator (bindingOf other) (some init))))
    (hins : rep = false → ∀ other (init : Node), init.ids = [] →
      Along T (insertNear d (Node.make (.declarator (bindingOf other) (some init))) true)) :
    Along T (destructure (fuel + 1) d source pattern rep) :=
  along_destructure_body hpre hpost (advances_uidAt [] d)
    (fun _ hnode => advances_insertNear [] (Node.ids_of_fresh hnode))
    (fun _ _ _ hsub => advances_normalizeAt hsub) (advances_hook []) ih
    (fun hr other init hinit => hrep hr other init (Node.ids_of_fresh hinit))
    (fun hr other init hinit => hins hr other init (Node.ids_of_fresh hinit))

end Body

/-- **Flattening a pattern advances the session**, moving nothing under new arrows: the nodes it
adds are built, and the accessors that read the source read copies of it. By induction on the
fuel, which a nested pattern spends. -/
theorem advances_destructure : ∀ (fuel d : Nat) (source pattern : Node) (rep : Bool),
    Along (Session.Advances []) (destructure fuel d source pattern rep)
  | 0, _, _, _, _ => Along.pure ()
  | fuel + 1, d, _, _, _ =>
    along_destructure_succ (fun _ _ _ => trans_of _) (fun _ _ _ => trans_of _)
      (advances_destructure fuel d · · false)
      (fun _ _ _ hinit => advances_replace_built
        (by simp [bindingOf, Kind.children, Child.ofOption, hinit]) (by simp) (by simp))
      (fun _ _ _ hinit => advances_insertNear []
        (by simp [bindingOf, Kind.children, Child.ofOption, hinit]))

end Rewrite

end SignalSugar
