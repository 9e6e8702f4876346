import Mathlib
import SignalSugar.Rewrite.Deref
import SignalSugar.Proofs.RewriteRun
/-!
# The steps of the deref walk

`derefWalk` decides, at each node, between a dozen branches, and each branch runs the walks of
some children and perhaps takes a fresh name or keeps dropped operands aside. `DerefStep`
names these branches, one constructor each, with the runs they make; `derefWalk_step` shows
that every successful walk went through one of them. Proofs about the walk take it apart
with `cases` on a `DerefStep` and never unfold `derefWalk` again.

The only changes a walk makes to the session are fresh names and subtrees cut off the
program. `Walking` records what that leaves of the table a walk started from: the table
stays sound, and every name it knew keeps its scopes, their parents and the scopes binding
it.

## Main results

* `derefWalk_step`: the inversion of a successful walk into its branch.
* `derefWalk_of_step`: its converse, each branch's runs make a run of the walk.
* `Walking.derefWalk`: a walk keeps `Walking`.
-/

namespace SignalSugar

/-- What a value directive for the signal becomes; accessor directives have no replacement. -/
def Directive.replacement (acc : Accessors) : Directive → Option Kind
  | .refSignal => some (.array [some (identOf acc.read), some (identOf acc.write)])
  | .get => some (.call (identOf acc.read) [] false)
  | .set => some (.ident acc.write)
  | _ => none

/-- A key with a copy of its computed expression. -/
def Key.copy : Key → Key
  | .computed e => .computed e.copy
  | k => k

@[simp] theorem Key.nodes_copy (k : Key) : k.copy.nodes = k.nodes.map Node.copy := by
  cases k <;> rfl

/-- The walk of a property's key: the expression of a computed key is walked. -/
def derefKey (t : Target) (acc : Accessors) (q : Place) : Key → Rewrite Key
  | .computed e => do
    let w ← derefWalk t acc q false e
    pure (.computed (w.node e))
  | k => pure k

/-- The walk of a list element, answered as the node that takes its place. -/
def derefNode (t : Target) (acc : Accessors) (q : Place) (a : Node) : Rewrite Node := do
  let w ← derefWalk t acc q false a
  pure (w.node a)

/-- The members that take the place of an object's member after its walk. -/
def Walked.members (fallback : Node) : Walked → List Node
  | .done m after => m :: after
  | .accessor .. => [fallback]

/-- The walk of an object's member, answered as the members that take its place. -/
def derefMember (t : Target) (acc : Accessors) (q : Place) (a : Node) : Rewrite (List Node) := do
  match ← derefWalk t acc q false a with
  | .done m after => pure (m :: after)
  | .accessor .. => pure [a]

/-- The constructs the walk takes apart itself; every other construct has its children walked
in place. -/
def Kind.derefSpecial : Kind → Bool
  | .call .. | .update .. | .assign .. | .ident _ | .property .. | .object _ => true
  | _ => false

variable (t : Target) (acc : Accessors) (p : Place) (v : Bool) (n : Node) (st : Session)

/-- The ways a successful walk of one node goes, one constructor for each branch of
`derefWalk`. The walks of the children appear as runs of their own. -/
inductive DerefStep : Walked → Session → Prop
  | shadowed : t.shadowedIn st.scopes (p.scopeOf n) = true → DerefStep (.done n []) st
  | call {callee args o cw args' st₁ st'} :
      t.shadowedIn st.scopes (p.scopeOf n) = false → n.kind = .call callee args o →
      (∀ d, directiveOf n = some d →
        (d.needsProperty && !v) = false ∧ ∃ a, directiveArgument d n = .ok a ∧ a ≠ t.name) →
      (derefWalk t acc (p.child n .other) false callee).run st = .ok (cw, st₁) →
      (args.mapM (derefNode t acc (p.child n .other))).run st₁ = .ok (args', st') →
      DerefStep (.done (n.withKind (.call (cw.node callee) args' o)) []) st'
  | directive {callee args o d k st'} :
      t.shadowedIn st.scopes (p.scopeOf n) = false → n.kind = .call callee args o →
      directiveOf n = some d → directiveArgument d n = .ok t.name → d.replacement acc = some k →
      (Rewrite.keepCut p n (n.withKind k)).run st = .ok ((), st') →
      DerefStep (.done (n.withKind k) []) st'
  | accessor {callee args o d} :
      t.shadowedIn st.scopes (p.scopeOf n) = false → n.kind = .call callee args o →
      directiveOf n = some d → d.needsProperty = true → v = true →
      directiveArgument d n = .ok t.name → DerefStep (.accessor d n) st
  | updateRef {op leading arg cur st'} :
      t.shadowedIn st.scopes (p.scopeOf n) = false → n.kind = .update op leading arg →
      t.isReference arg = true → (Rewrite.uidIn (p.scopeOf n) "current").run st = .ok (cur, st') →
      DerefStep (.done (n.withKind (updateOf acc op leading cur)) []) st'
  | update {op leading arg aw st'} :
      t.shadowedIn st.scopes (p.scopeOf n) = false → n.kind = .update op leading arg →
      t.isReference arg = false → (derefWalk t acc (p.child n .operand) false arg).run st = .ok (aw, st') →
      DerefStep (.done (n.withKind (.update op leading (aw.node arg))) []) st'
  | assignPlain {left right rw st'} :
      t.shadowedIn st.scopes (p.scopeOf n) = false → n.kind = .assign .plain left right →
      t.isReference left = true → (derefWalk t acc (p.child n .other) false right).run st = .ok (rw, st') →
      DerefStep (.done (n.withKind (.call (identOf acc.write) [arrowOf [] (rw.node right)] false)) []) st'
  | assignBinary {b left right rw st₁ cur st'} :
      t.shadowedIn st.scopes (p.scopeOf n) = false → n.kind = .assign (.binary b) left right →
      t.isReference left = true → (derefWalk t acc (p.child n .other) false right).run st = .ok (rw, st₁) →
      (Rewrite.uidIn (p.scopeOf n) "current").run st₁ = .ok (cur, st') →
      DerefStep (.done (n.withKind (.call (identOf acc.write)
        [arrowOf [bindingOf cur] (Node.make (.binary b (identOf cur) (rw.node right)))] false)) []) st'
  | assignLogical {l left right rw st₁ cur st'} :
      t.shadowedIn st.scopes (p.scopeOf n) = false → n.kind = .assign (.logical l) left right →
      t.isReference left = true → (derefWalk t acc (p.child n .other) false right).run st = .ok (rw, st₁) →
      (Rewrite.uidIn (p.scopeOf n) "current").run st₁ = .ok (cur, st') →
      DerefStep (.done (n.withKind (.call (identOf acc.write)
        [arrowOf [bindingOf cur] (Node.make (.logical l (identOf cur) (rw.node right)))] false)) []) st'
  | assign {op left right lw rw st₁ st'} :
      t.shadowedIn st.scopes (p.scopeOf n) = false → n.kind = .assign op left right →
      t.isReference left = false → (derefWalk t acc (p.child n .target) false left).run st = .ok (lw, st₁) →
      (derefWalk t acc (p.child n .other) false right).run st₁ = .ok (rw, st') →
      DerefStep (.done (n.withKind (.assign op (lw.node left) (rw.node right))) []) st'
  | identRef :
      t.shadowedIn st.scopes (p.scopeOf n) = false → n.kind = .ident t.name →
      isWritten p.ancestors = false →
      DerefStep (.done (n.withKind (.call (identOf acc.read) [] false)) []) st
  | ident {y} :
      t.shadowedIn st.scopes (p.scopeOf n) = false → n.kind = .ident y → y ≠ t.name →
      DerefStep (.done n []) st
  | property {key value sh key' st₁ vn after st'} :
      t.shadowedIn st.scopes (p.scopeOf n) = false → n.kind = .property key value sh →
      (derefKey t acc (p.child n .other) key).run st = .ok (key', st₁) →
      (derefWalk t acc (p.child n .value) true value).run st₁ = .ok (.done vn after, st') →
      DerefStep (.done (n.withKind (.property key' vn sh)) []) st'
  | propertyGetter {key value sh key' st₁ c st₂ st'} :
      t.shadowedIn st.scopes (p.scopeOf n) = false → n.kind = .property key value sh →
      (derefKey t acc (p.child n .other) key).run st = .ok (key', st₁) →
      (derefWalk t acc (p.child n .value) true value).run st₁ = .ok (.accessor .getter c, st₂) →
      (Rewrite.keepCut p n (n.withKind (getterOf acc key'))).run st₂ = .ok ((), st') →
      DerefStep (.done (n.withKind (getterOf acc key')) []) st'
  | propertySetter {key value sh key' st₁ c st₂ val st₃ st'} :
      t.shadowedIn st.scopes (p.scopeOf n) = false → n.kind = .property key value sh →
      (derefKey t acc (p.child n .other) key).run st = .ok (key', st₁) →
      (derefWalk t acc (p.child n .value) true value).run st₁ = .ok (.accessor .setter c, st₂) →
      (Rewrite.uidIn (p.scopeOf n) "value").run st₂ = .ok (val, st₃) →
      (Rewrite.keepCut p n (n.withKind (setterOf acc key' val))).run st₃ = .ok ((), st') →
      DerefStep (.done (n.withKind (setterOf acc key' val)) []) st'
  | propertyBoth {key value sh key' st₁ d c st₂ val st₃ st'} :
      t.shadowedIn st.scopes (p.scopeOf n) = false → n.kind = .property key value sh →
      (derefKey t acc (p.child n .other) key).run st = .ok (key', st₁) →
      (derefWalk t acc (p.child n .value) true value).run st₁ = .ok (.accessor d c, st₂) →
      d ≠ .getter → d ≠ .setter →
      (Rewrite.uidIn (p.scopeOf n) "value").run st₂ = .ok (val, st₃) →
      (Rewrite.keepCut p n (n.withKind (getterOf acc key'))).run st₃ = .ok ((), st') →
      DerefStep (.done (n.withKind (getterOf acc key'))
        [.mk 0 n.span none (setterOf acc key'.copy val)]) st'
  | object {props props' st'} :
      t.shadowedIn st.scopes (p.scopeOf n) = false → n.kind = .object props →
      (props.mapM (derefMember t acc (p.child n .other))).run st = .ok (props', st') →
      DerefStep (.done (n.withKind (.object props'.flatten)) []) st'
  | other {k' st'} :
      t.shadowedIn st.scopes (p.scopeOf n) = false → n.kind.derefSpecial = false →
      (n.kind.mapChildrenM fun c r _ => derefNode t acc (p.child n r) c).run st = .ok (k', st') →
      DerefStep (.done (n.withKind k') []) st'

variable {t acc p v n st}

theorem derefWalk_step {w : Walked} {st' : Session}
    (h : (derefWalk t acc p v n).run st = .ok (w, st')) : DerefStep t acc p v n st w st' := by
  rw [derefWalk] at h
  simp only [StateT.run_bind, StateT.run_get, pure_bind] at h
  split at h
  · rename_i hs
    simp only [Rewrite.run_pure_ok] at h
    obtain ⟨rfl, rfl⟩ := h
    exact .shadowed hs
  rename_i hs
  simp only [Bool.not_eq_true] at hs
  split at h
  case h_1 callee args o hk =>
    split at h
    · rename_i d hd
      split at h
      · cases h
      · rename_i hv
        split at h
        · rename_i a ha
          split at h
          · rename_i hne
            simp only [Rewrite.run_bind_ok, Rewrite.run_pure_ok] at h
            obtain ⟨cw, st₁, hc, args', st₂, ha', rfl, rfl⟩ := h
            rw [List.mapM_subtype (g := derefNode t acc (p.child n .other)) (fun _ _ => rfl),
              List.unattach_attach] at ha'
            refine .call hs hk (fun d' hd' => ?_) hc ha'
            rw [hd] at hd'
            cases hd'
            exact ⟨by simpa using hv, a, ha, by simpa using hne⟩
          · rename_i heq
            obtain rfl : a = t.name := by simpa using heq
            cases d with
            | refSignal =>
              simp only [Rewrite.run_bind_ok, Rewrite.run_pure_ok] at h
              obtain ⟨u, st₁, hcut, rfl, rfl⟩ := h
              exact .directive hs hk hd ha rfl hcut
            | get =>
              simp only [Rewrite.run_bind_ok, Rewrite.run_pure_ok] at h
              obtain ⟨u, st₁, hcut, rfl, rfl⟩ := h
              exact .directive hs hk hd ha rfl hcut
            | set =>
              simp only [Rewrite.run_bind_ok, Rewrite.run_pure_ok] at h
              obtain ⟨u, st₁, hcut, rfl, rfl⟩ := h
              exact .directive hs hk hd ha rfl hcut
            | _ =>
              simp only [Rewrite.run_pure_ok] at h
              obtain ⟨rfl, rfl⟩ := h
              exact .accessor hs hk hd rfl (by simpa [Directive.needsProperty] using hv) ha
        · cases h
    · rename_i hd
      simp only [Rewrite.run_bind_ok, Rewrite.run_pure_ok] at h
      obtain ⟨cw, st₁, hc, args', st₂, ha', rfl, rfl⟩ := h
      rw [List.mapM_subtype (g := derefNode t acc (p.child n .other)) (fun _ _ => rfl),
        List.unattach_attach] at ha'
      exact .call hs hk (fun d' hd' => by rw [hd] at hd'; cases hd') hc ha'
  case h_2 op leading arg hk =>
    split at h
    · rename_i hr
      simp only [Rewrite.run_bind_ok, Rewrite.run_pure_ok] at h
      obtain ⟨cur, st₁, hu, rfl, rfl⟩ := h
      exact .updateRef hs hk hr hu
    · rename_i hr
      simp only [Rewrite.run_bind_ok, Rewrite.run_pure_ok] at h
      obtain ⟨aw, st₁, ha, rfl, rfl⟩ := h
      exact .update hs hk (by simpa using hr) ha
  case h_3 op left right hk =>
    split at h
    · rename_i hr
      cases op with
      | plain =>
        simp only [Rewrite.run_bind_ok, Rewrite.run_pure_ok] at h
        obtain ⟨rw, st₁, hw, rfl, rfl⟩ := h
        exact .assignPlain hs hk hr hw
      | binary b =>
        simp only [Rewrite.run_bind_ok, Rewrite.run_pure_ok] at h
        obtain ⟨rw, st₁, hw, cur, st₂, hu, rfl, rfl⟩ := h
        exact .assignBinary hs hk hr hw hu
      | logical l =>
        simp only [Rewrite.run_bind_ok, Rewrite.run_pure_ok] at h
        obtain ⟨rw, st₁, hw, cur, st₂, hu, rfl, rfl⟩ := h
        exact .assignLogical hs hk hr hw hu
    · rename_i hr
      simp only [Rewrite.run_bind_ok, Rewrite.run_pure_ok] at h
      obtain ⟨lw, st₁, hl, rw, st₂, hw, rfl, rfl⟩ := h
      exact .assign hs hk (by simpa using hr) hl hw
  case h_4 y hk =>
    split at h
    · rename_i hy
      obtain rfl : y = t.name := by simpa using hy
      split at h
      · simp at h
      · rename_i hw
        simp only [Rewrite.run_pure_ok] at h
        obtain ⟨rfl, rfl⟩ := h
        exact .identRef hs hk (by simpa using hw)
    · rename_i hy
      simp only [Rewrite.run_pure_ok] at h
      obtain ⟨rfl, rfl⟩ := h
      exact .ident hs hk (by simpa using hy)
  case h_5 key value sh hk =>
    cases key
    case' computed e =>
      dsimp only at h
      rw [Rewrite.run_bind_ok] at h
      obtain ⟨ew, st₁, he, h⟩ := h
      have hkey : (derefKey t acc (p.child n .other) (.computed e)).run st =
          .ok (.computed (ew.node e), st₁) := by
        simp [derefKey, he]
    case' named x =>
      have hkey : (derefKey t acc (p.child n .other) (.named x)).run st = .ok (.named x, st) := rfl
    case' privateName x =>
      have hkey : (derefKey t acc (p.child n .other) (.privateName x)).run st =
          .ok (.privateName x, st) := rfl
    all_goals
      rw [Rewrite.run_bind_ok] at h
      obtain ⟨vw, st₂, hv, h⟩ := h
      cases vw with
      | done vn after =>
        simp only [Rewrite.run_pure_ok] at h
        obtain ⟨rfl, rfl⟩ := h
        exact .property hs hk hkey hv
      | accessor d c =>
        cases d with
        | getter =>
          simp only [Rewrite.run_bind_ok, Rewrite.run_pure_ok] at h
          obtain ⟨u, st₃, hcut, rfl, rfl⟩ := h
          exact .propertyGetter hs hk hkey hv hcut
        | setter =>
          simp only [Rewrite.run_bind_ok, Rewrite.run_pure_ok] at h
          obtain ⟨val, st₃, hu, u, st₄, hcut, rfl, rfl⟩ := h
          exact .propertySetter hs hk hkey hv hu hcut
        | _ =>
          simp only [Rewrite.run_bind_ok, Rewrite.run_pure_ok] at h
          obtain ⟨val, st₃, hu, u, st₄, hcut, rfl, rfl⟩ := h
          exact .propertyBoth hs hk hkey hv (by decide) (by decide) hu hcut
  case h_6 props hk =>
    simp only [Rewrite.run_bind_ok, Rewrite.run_pure_ok] at h
    obtain ⟨props', st₁, hm, rfl, rfl⟩ := h
    rw [List.mapM_subtype (g := derefMember t acc (p.child n .other)) (fun _ _ => rfl),
      List.unattach_attach] at hm
    exact .object hs hk hm
  case h_7 hc hu ha hi hp ho =>
    simp only [Rewrite.run_bind_ok, Rewrite.run_pure_ok] at h
    obtain ⟨k', st₁, hm, rfl, rfl⟩ := h
    have hsp : n.kind.derefSpecial = false := by
      cases hk : n.kind <;> first
        | rfl
        | exact absurd hk (hc _ _ _) | exact absurd hk (hu _ _ _) | exact absurd hk (ha _ _ _)
        | exact absurd hk (hi _) | exact absurd hk (hp _ _ _) | exact absurd hk (ho _)
    exact .other hs hsp hm

/-! ### The walks of a node's parts -/

section Parts

variable {t : Target} {acc : Accessors} {q : Place} {st st' : Session}

theorem run_derefNode {a b : Node} :
    (derefNode t acc q a).run st = .ok (b, st') ↔
      ∃ w, (derefWalk t acc q false a).run st = .ok (w, st') ∧ b = w.node a := by
  simp only [derefNode, Rewrite.run_bind_ok, Rewrite.run_pure_ok]
  constructor
  · rintro ⟨w, s, hw, rfl, rfl⟩
    exact ⟨w, hw, rfl⟩
  · rintro ⟨w, hw, rfl⟩
    exact ⟨w, st', hw, rfl, rfl⟩

theorem run_derefMember {a : Node} {bs : List Node} :
    (derefMember t acc q a).run st = .ok (bs, st') ↔
      ∃ w, (derefWalk t acc q false a).run st = .ok (w, st') ∧ bs = w.members a := by
  simp only [derefMember, Rewrite.run_bind_ok]
  constructor
  · rintro ⟨w, s, hw, h⟩
    cases w <;> simp only [Rewrite.run_pure_ok] at h <;> obtain ⟨rfl, rfl⟩ := h <;>
      exact ⟨_, hw, rfl⟩
  · rintro ⟨w, hw, rfl⟩
    refine ⟨w, st', hw, ?_⟩
    cases w <;> rfl

/-- A key's walk walks its computed expression, if it has one, and changes nothing else. -/
theorem run_derefKey {k k' : Key} (h : (derefKey t acc q k).run st = .ok (k', st')) :
    (∃ e w, k = .computed e ∧ (derefWalk t acc q false e).run st = .ok (w, st') ∧
      k' = .computed (w.node e)) ∨ (k.nodes = [] ∧ k' = k ∧ st' = st) := by
  cases k with
  | computed e =>
    simp only [derefKey, Rewrite.run_bind_ok, Rewrite.run_pure_ok] at h
    obtain ⟨w, s, hw, rfl, rfl⟩ := h
    exact Or.inl ⟨e, w, rfl, hw, rfl⟩
  | named x =>
    simp only [derefKey, Rewrite.run_pure_ok] at h
    exact Or.inr ⟨rfl, h.1.symm, h.2.symm⟩
  | privateName x =>
    simp only [derefKey, Rewrite.run_pure_ok] at h
    exact Or.inr ⟨rfl, h.1.symm, h.2.symm⟩

end Parts

/-! ### Running a branch -/

/-- **Each branch runs**: the runs a `DerefStep` names make up a run of the walk, so that
`derefWalk_step` and this lemma together say that the walk's runs are the `DerefStep`s. -/
theorem derefWalk_of_step {w : Walked} {st' : Session} (h : DerefStep t acc p v n st w st') :
    (derefWalk t acc p v n).run st = .ok (w, st') := by
  obtain ⟨i, sp, o, k⟩ := n
  rw [derefWalk]
  refine Rewrite.run_bind_ok.2 ⟨st, st, rfl, ?_⟩
  cases h with
  | shadowed hs =>
    simp only [hs, ↓reduceIte]
    rfl
  | call hs hk hd hc ha =>
    simp only [Node.kind] at hk
    subst hk
    simp only [hs, Bool.false_eq_true, ↓reduceIte, Node.kind]
    rw [List.mapM_subtype (g := derefNode t acc (p.child _ .other)) (fun _ _ => rfl),
      List.unattach_attach]
    cases hdn : directiveOf (Node.mk i sp o (.call _ _ _)) with
    | none => exact Rewrite.run_bind_ok.2 ⟨_, _, hc, Rewrite.run_bind_ok.2 ⟨_, _, ha, rfl⟩⟩
    | some d =>
      obtain ⟨hv, a, harg, hne⟩ := hd d hdn
      simp only [hv, harg, Bool.false_eq_true, ↓reduceIte, pure_bind]
      rw [if_pos (by simpa using hne)]
      exact Rewrite.run_bind_ok.2 ⟨_, _, hc, Rewrite.run_bind_ok.2 ⟨_, _, ha, rfl⟩⟩
  | @directive callee args oc d k _ hs hk hd harg hrep hcut =>
    simp only [Node.kind] at hk
    subst hk
    simp only [hs, Bool.false_eq_true, ↓reduceIte,
      Node.kind, hd, harg, pure_bind, bne_self_eq_false]
    cases d <;> simp only [Directive.replacement, Option.some.injEq, reduceCtorEq] at hrep <;>
      subst hrep <;>
      simp only [Directive.needsProperty, Bool.false_and, Bool.false_eq_true, ↓reduceIte] <;>
      exact Rewrite.run_bind_ok.2 ⟨_, _, hcut, rfl⟩
  | @accessor callee args oc d hs hk hd hp hv harg =>
    simp only [Node.kind] at hk
    subst hk hv
    simp only [hs, Bool.false_eq_true, ↓reduceIte,
      Node.kind, hd, harg, pure_bind, bne_self_eq_false, hp, Bool.not_true, Bool.and_false]
    cases d <;> simp only [Directive.needsProperty, Bool.false_eq_true] at hp <;> rfl
  | updateRef hs hk hr hu =>
    simp only [Node.kind] at hk
    subst hk
    simp only [hs, Bool.false_eq_true, ↓reduceIte, Node.kind, hr]
    exact Rewrite.run_bind_ok.2 ⟨_, _, hu, rfl⟩
  | update hs hk hr ha =>
    simp only [Node.kind] at hk
    subst hk
    simp only [hs, Bool.false_eq_true, ↓reduceIte, Node.kind, hr]
    exact Rewrite.run_bind_ok.2 ⟨_, _, ha, rfl⟩
  | assignPlain hs hk hr hw =>
    simp only [Node.kind] at hk
    subst hk
    simp only [hs, Bool.false_eq_true, ↓reduceIte, Node.kind, hr]
    exact Rewrite.run_bind_ok.2 ⟨_, _, hw, rfl⟩
  | assignBinary hs hk hr hw hu =>
    simp only [Node.kind] at hk
    subst hk
    simp only [hs, Bool.false_eq_true, ↓reduceIte, Node.kind, hr]
    exact Rewrite.run_bind_ok.2 ⟨_, _, hw, Rewrite.run_bind_ok.2 ⟨_, _, hu, rfl⟩⟩
  | assignLogical hs hk hr hw hu =>
    simp only [Node.kind] at hk
    subst hk
    simp only [hs, Bool.false_eq_true, ↓reduceIte, Node.kind, hr]
    exact Rewrite.run_bind_ok.2 ⟨_, _, hw, Rewrite.run_bind_ok.2 ⟨_, _, hu, rfl⟩⟩
  | assign hs hk hr hl hw =>
    simp only [Node.kind] at hk
    subst hk
    simp only [hs, Bool.false_eq_true, ↓reduceIte, Node.kind, hr]
    exact Rewrite.run_bind_ok.2 ⟨_, _, hl, Rewrite.run_bind_ok.2 ⟨_, _, hw, rfl⟩⟩
  | identRef hs hk hw =>
    simp only [Node.kind] at hk
    subst hk
    simp only [hs, Bool.false_eq_true, ↓reduceIte,
      Node.kind, hw, beq_self_eq_true]
    rfl
  | ident hs hk hy =>
    simp only [Node.kind] at hk
    subst hk
    simp only [hs, Bool.false_eq_true, ↓reduceIte,
      Node.kind, beq_false_of_ne hy]
    rfl
  | @property key value sh key' _ vn after _ hs hk hkey hv =>
    simp only [Node.kind] at hk
    subst hk
    simp only [hs, Bool.false_eq_true, ↓reduceIte, Node.kind]
    rcases run_derefKey hkey with ⟨e, w, rfl, he, rfl⟩ | ⟨hn, rfl, rfl⟩
    · exact Rewrite.run_bind_ok.2 ⟨_, _, he, Rewrite.run_bind_ok.2 ⟨_, _, rfl,
        Rewrite.run_bind_ok.2 ⟨_, _, hv, rfl⟩⟩⟩
    · cases key' <;> simp only [Key.nodes, reduceCtorEq] at hn <;>
        exact Rewrite.run_bind_ok.2 ⟨_, _, rfl, Rewrite.run_bind_ok.2 ⟨_, _, hv, rfl⟩⟩
  | @propertyGetter key value sh key' _ c _ _ hs hk hkey hv hcut =>
    simp only [Node.kind] at hk
    subst hk
    simp only [hs, Bool.false_eq_true, ↓reduceIte, Node.kind]
    rcases run_derefKey hkey with ⟨e, w, rfl, he, rfl⟩ | ⟨hn, rfl, rfl⟩
    · exact Rewrite.run_bind_ok.2 ⟨_, _, he, Rewrite.run_bind_ok.2 ⟨_, _, rfl,
        Rewrite.run_bind_ok.2 ⟨_, _, hv, Rewrite.run_bind_ok.2 ⟨_, _, rfl,
          Rewrite.run_bind_ok.2 ⟨_, _, hcut, rfl⟩⟩⟩⟩⟩
    · cases key' <;> simp only [Key.nodes, reduceCtorEq] at hn <;>
        exact Rewrite.run_bind_ok.2 ⟨_, _, rfl, Rewrite.run_bind_ok.2 ⟨_, _, hv,
          Rewrite.run_bind_ok.2 ⟨_, _, rfl, Rewrite.run_bind_ok.2 ⟨_, _, hcut, rfl⟩⟩⟩⟩
  | @propertySetter key value sh key' _ c _ val _ _ hs hk hkey hv hu hcut =>
    simp only [Node.kind] at hk
    subst hk
    simp only [hs, Bool.false_eq_true, ↓reduceIte, Node.kind]
    rcases run_derefKey hkey with ⟨e, w, rfl, he, rfl⟩ | ⟨hn, rfl, rfl⟩
    · exact Rewrite.run_bind_ok.2 ⟨_, _, he, Rewrite.run_bind_ok.2 ⟨_, _, rfl,
        Rewrite.run_bind_ok.2 ⟨_, _, hv, Rewrite.run_bind_ok.2 ⟨_, _, hu,
          Rewrite.run_bind_ok.2 ⟨_, _, rfl, Rewrite.run_bind_ok.2 ⟨_, _, hcut, rfl⟩⟩⟩⟩⟩⟩
    · cases key' <;> simp only [Key.nodes, reduceCtorEq] at hn <;>
        exact Rewrite.run_bind_ok.2 ⟨_, _, rfl, Rewrite.run_bind_ok.2 ⟨_, _, hv,
          Rewrite.run_bind_ok.2 ⟨_, _, hu, Rewrite.run_bind_ok.2 ⟨_, _, rfl,
            Rewrite.run_bind_ok.2 ⟨_, _, hcut, rfl⟩⟩⟩⟩⟩
  | @propertyBoth key value sh key' _ d c _ val _ _ hs hk hkey hv hg hse hu hcut =>
    simp only [Node.kind] at hk
    subst hk
    obtain rfl | rfl | rfl | rfl : d = .refSignal ∨ d = .get ∨ d = .set ∨ d = .property := by
      cases d <;> simp_all
    all_goals
      simp only [hs, Bool.false_eq_true, ↓reduceIte, Node.kind]
      rcases run_derefKey hkey with ⟨e, w, rfl, he, rfl⟩ | ⟨hn, rfl, rfl⟩
      · exact Rewrite.run_bind_ok.2 ⟨_, _, he, Rewrite.run_bind_ok.2 ⟨_, _, rfl,
          Rewrite.run_bind_ok.2 ⟨_, _, hv, Rewrite.run_bind_ok.2 ⟨_, _, hu,
            Rewrite.run_bind_ok.2 ⟨_, _, rfl, Rewrite.run_bind_ok.2 ⟨_, _, hcut, rfl⟩⟩⟩⟩⟩⟩
      · cases key' <;> simp only [Key.nodes, reduceCtorEq] at hn <;>
          exact Rewrite.run_bind_ok.2 ⟨_, _, rfl, Rewrite.run_bind_ok.2 ⟨_, _, hv,
            Rewrite.run_bind_ok.2 ⟨_, _, hu, Rewrite.run_bind_ok.2 ⟨_, _, rfl,
              Rewrite.run_bind_ok.2 ⟨_, _, hcut, rfl⟩⟩⟩⟩⟩
  | object hs hk hm =>
    simp only [Node.kind] at hk
    subst hk
    simp only [hs, Bool.false_eq_true, ↓reduceIte, Node.kind]
    rw [List.mapM_subtype (g := derefMember t acc (p.child _ .other)) (fun _ _ => rfl),
      List.unattach_attach]
    exact Rewrite.run_bind_ok.2 ⟨_, _, hm, rfl⟩
  | other hs hsp hm =>
    simp only [hs, Bool.false_eq_true, ↓reduceIte]
    split
    all_goals first
      | (rename_i hk; rw [hk] at hsp; simp [Kind.derefSpecial] at hsp)
      | skip
    simp only [derefNode] at hm
    exact Rewrite.run_bind_ok.2 ⟨_, _, hm, rfl⟩

/-! ### What a walk keeps of the table -/

/-- A session whose table keeps what `T` says about each of its names, and is sound. -/
structure Walking (T : Scopes) (st : Session) : Prop where
  sound : st.scopes.Sound
  keeps : ∀ y ∈ T.names, y ∈ st.scopes.names ∧ T.Keeps y st.scopes

namespace Walking

variable {T : Scopes} {st st' : Session}

theorem uidIn (hw : Walking T st) {s : Nat} {hint name : String}
    (h : (Rewrite.uidIn s hint).run st = .ok (name, st')) : Walking T st' := by
  rw [Rewrite.run_uidIn] at h
  cases h
  refine ⟨hw.sound.generateUid s hint, fun y hy => ?_⟩
  obtain ⟨hmem, hkeeps⟩ := hw.keeps y hy
  exact ⟨Scopes.mem_names_generateUid s hint hmem,
    hkeeps.trans (Scopes.keeps_generateUid hw.sound hmem s hint)⟩

theorem keepCut (hw : Walking T st) {q : Place} {old new : Node}
    (h : (Rewrite.keepCut q old new).run st = .ok ((), st')) : Walking T st' := by
  obtain ⟨cut, hcut⟩ := @Rewrite.run_keepCut st q old new
  rw [hcut] at h
  cases h
  exact ⟨hw.sound, hw.keeps⟩

/-- **A walk keeps the table**: it only adds fresh names, which are none of the names the table
knew. -/
theorem derefWalk (hw : Walking T st) {t : Target} {acc : Accessors} {p : Place} {v : Bool}
    {n : Node} {w : Walked} (h : (SignalSugar.derefWalk t acc p v n).run st = .ok (w, st')) :
    Walking T st' := by
  induction p, v, n using derefWalk.induct generalizing st w st' with
  | case1 p v n ihCallee ihArgs ihArg ihRight ihLeft ihValue ihKey ihProps ihChildren =>
  have nodes : ∀ (q : Place) (l : List Node) (s s' : Session) (ns : List Node),
      (∀ a ∈ l, ∀ s w s', Walking T s →
        (SignalSugar.derefWalk t acc q false a).run s = .ok (w, s') → Walking T s') →
      Walking T s → (l.mapM (derefNode t acc q)).run s = .ok (ns, s') → Walking T s' := by
    intro q l s s' ns ih hs hl
    refine (Rewrite.run_mapM_ok (Walking T) (fun _ _ => True) (fun a ha s b s' hs h => ?_) hs hl).1
    obtain ⟨w, hw, -⟩ := run_derefNode.1 h
    exact ⟨ih a ha s w s' hs hw, trivial⟩
  have key : ∀ {key value sh k' s s'}, n.kind = .property key value sh → Walking T s →
      (derefKey t acc (p.child n .other) key).run s = .ok (k', s') → Walking T s' := by
    intro key value sh k' s s' hk hs h
    rcases run_derefKey h with ⟨e, w, rfl, he, -⟩ | ⟨-, -, rfl⟩
    · exact ihKey _ _ _ hk e rfl hs he
    · exact hs
  cases derefWalk_step h with
  | shadowed _ => exact hw
  | call _ hk _ hc ha =>
    exact nodes _ _ _ _ _ (fun a ha' _ _ _ hs hr => ihArgs _ _ _ hk a ha' hs hr)
      (ihCallee _ _ _ hk hw hc) ha
  | directive _ _ _ _ _ hcut => exact hw.keepCut hcut
  | accessor => exact hw
  | updateRef _ _ _ hu => exact hw.uidIn hu
  | update _ hk _ ha => exact ihArg _ _ _ hk hw ha
  | assignPlain _ hk _ hr => exact ihRight _ _ _ hk hw hr
  | assignBinary _ hk _ hr hu => exact (ihRight _ _ _ hk hw hr).uidIn hu
  | assignLogical _ hk _ hr hu => exact (ihRight _ _ _ hk hw hr).uidIn hu
  | assign _ hk _ hl hr => exact ihRight _ _ _ hk (ihLeft _ _ _ hk hw hl) hr
  | identRef => exact hw
  | ident => exact hw
  | property _ hk hkey hv => exact ihValue _ _ _ hk (key hk hw hkey) hv
  | propertyGetter _ hk hkey hv hcut => exact (ihValue _ _ _ hk (key hk hw hkey) hv).keepCut hcut
  | propertySetter _ hk hkey hv hu hcut =>
    exact ((ihValue _ _ _ hk (key hk hw hkey) hv).uidIn hu).keepCut hcut
  | propertyBoth _ hk hkey hv _ _ hu hcut =>
    exact ((ihValue _ _ _ hk (key hk hw hkey) hv).uidIn hu).keepCut hcut
  | object _ hk hm =>
    refine (Rewrite.run_mapM_ok (Walking T) (fun _ _ => True) (fun a ha s b s' hs h => ?_) hw hm).1
    obtain ⟨w, hw', -⟩ := run_derefMember.1 h
    exact ⟨ihProps _ hk a ha hs hw', trivial⟩
  | other _ _ hm =>
    have hl := Rewrite.run_mapChildrenM_ok hm
    refine (Rewrite.run_mapM_ok (Walking T) (fun _ _ => True) (fun c _ s b s' hs h => ?_) hw hl).1
    obtain ⟨w, hw', -⟩ := run_derefNode.1 h
    exact ⟨ihChildren c.node c.role c.lt hs hw', trivial⟩

end Walking

end SignalSugar
