import SignalSugar.Proofs.DerefMeaning
import SignalSugar.Proofs.DerefScoping
import SignalSugar.Proofs.Advancing
/-!
# Dereferencing is a structural rewrite

`derefWalk` threads a session through the tree: it asks the session's table whether a scope
shadows the signal, takes fresh names from it and sets aside the operands a replacement drops.
`Derefs` states the same rewrite as a relation on trees alone, by recursion on the source tree,
against one fixed table: a scope shadows the signal when that table says it declares the name,
and a fresh name is any name the table does not know. Each rule reads off one construct:

* a subtree whose scope shadows the signal is kept;
* `x` becomes `read()`, except in a written place, where it has no rewrite;
* `$refSignal(x)`, `$get(x)` and `$set(x)` become `[read, write]`, `read()` and `write`;
* `x = e`, `x op= e` and `++x`, `x++` become calls of `write` with an updater;
* a property whose value is `$getter(x)`, `$setter(x)` or `$property(x)` becomes a getter, a
  setter, or a getter followed by a setter with a copy of the rewritten key;
* every other construct has its children rewritten in place.

A directive call that applies to another binding is rewritten as a call. Two conditions hold of
every directive call, whatever binding it applies to: its argument is a name, and an accessor
directive stands as the value of an object property. Where they fail the relation has no rule.

## Main results

* `derefWalk_follows`: a successful walk answers what `Derefs` relates its node to.
* `Derefs.derefWalk_ok`: where `Derefs` relates a node to something, the walk succeeds, from
  every session that keeps the table.
* `derefAt_ok_iff_derefs`: dereferencing a signal at a node of a program succeeds exactly when
  `Derefs` relates the node to something, and then the program holds, in the node's place, a
  rewrite of it that `Derefs` gives.
* `Derefs.descend`: a rewrite holds the rewrite of every node the walk reaches below it.
* `derefAt_preserves_meaning`: wherever a simple expression stands in a module, in a scope that
  keeps the signal's binding, a successful dereference leaves a rewrite of it that does what
  it does.
-/

namespace SignalSugar

/-! ### Lists of parts -/

section Lists

variable {α β γ : Type}

/-- A list related elementwise to `bs`, each pair through a witness, is zipped with a list of
witnesses whose images are `bs`. -/
theorem List.exists_zip_of_forall₂ {R : α → γ → Prop} {f : γ → β} {l : List α} {bs : List β}
    (h : List.Forall₂ (fun a b => ∃ c, b = f c ∧ R a c) l bs) :
    ∃ cs : List γ, cs.map f = bs ∧ l.length = cs.length ∧ ∀ a c, (a, c) ∈ l.zip cs → R a c := by
  induction h with
  | nil => exact ⟨[], rfl, rfl, fun _ _ h => by simp at h⟩
  | cons hab _ ih =>
    obtain ⟨c, rfl, hc⟩ := hab
    obtain ⟨cs, rfl, hlen, hcs⟩ := ih
    refine ⟨c :: cs, rfl, by simp [hlen], fun a' c' hmem => ?_⟩
    rw [List.zip_cons_cons, List.mem_cons] at hmem
    rcases hmem with h | h
    · obtain ⟨rfl, rfl⟩ := Prod.mk.inj h
      exact hc
    · exact hcs a' c' h

/-- Each element of a list has a partner in a zip with a list as long. -/
theorem List.exists_mem_zip {l : List α} {cs : List γ} (hlen : l.length = cs.length) {a : α}
    (ha : a ∈ l) : ∃ c, (a, c) ∈ l.zip cs := by
  induction l generalizing cs with
  | nil => cases ha
  | cons b l ih =>
    obtain ⟨c, cs, rfl⟩ := List.exists_cons_of_length_eq_add_one hlen.symm
    rw [List.zip_cons_cons]
    rcases List.mem_cons.1 ha with rfl | ha
    · exact ⟨c, List.mem_cons_self⟩
    · obtain ⟨c', hc'⟩ := ih (by simpa using hlen) ha
      exact ⟨c', List.mem_cons_of_mem _ hc'⟩

end Lists

/-! ### The structural rewrite -/

section Relation

variable (t : Target) (acc : Accessors) (T : Scopes)

/-- An accessor directive applied to the signal, as the node `c` standing at `p`: a directive
call, in a scope that keeps the signal's binding, whose argument is the signal's name. -/
structure AccessorUse (p : Place) (c : Node) (d : Directive) : Prop where
  unshadowed : t.shadowedIn T (p.scopeOf c) = false
  directive : directiveOf c = some d
  needsProperty : d.needsProperty = true
  argument : directiveArgument d c = .ok t.name

/-- `Derefs t acc T p v n m after`: dereferencing the signal `t`, with accessors `acc`, rewrites
the subtree `n` standing at `p` (as the value of an object property when `v`) to `m`, followed
by the members `after` in its parent's list. A scope shadows the signal when `T` says it
declares the name, and a fresh name is any name `T` does not know. The parts of a list are
rewritten through a list of pairs zipped with them, a rewrite and its members after it. -/
inductive Derefs : Place → Bool → Node → Node → List Node → Prop
  | shadowed {p v n} : t.shadowedIn T (p.scopeOf n) = true → Derefs p v n n []
  | call {p v n callee args o callee' aft} (rs : List (Node × List Node)) :
      t.shadowedIn T (p.scopeOf n) = false → n.kind = .call callee args o →
      (∀ d, directiveOf n = some d →
        (d.needsProperty && !v) = false ∧ ∃ a, directiveArgument d n = .ok a ∧ a ≠ t.name) →
      Derefs (p.child n .other) false callee callee' aft → args.length = rs.length →
      (∀ a r, (a, r) ∈ args.zip rs → Derefs (p.child n .other) false a r.1 r.2) →
      Derefs p v n (n.withKind (.call callee' (rs.map Prod.fst) o)) []
  | directive {p v n callee args o d k} :
      t.shadowedIn T (p.scopeOf n) = false → n.kind = .call callee args o →
      directiveOf n = some d → directiveArgument d n = .ok t.name → d.replacement acc = some k →
      Derefs p v n (n.withKind k) []
  | updateRef {p v n op leading arg cur} :
      t.shadowedIn T (p.scopeOf n) = false → n.kind = .update op leading arg →
      t.isReference arg = true → cur ∉ T.names →
      Derefs p v n (n.withKind (updateOf acc op leading cur)) []
  | update {p v n op leading arg arg' aft} :
      t.shadowedIn T (p.scopeOf n) = false → n.kind = .update op leading arg →
      t.isReference arg = false → Derefs (p.child n .operand) false arg arg' aft →
      Derefs p v n (n.withKind (.update op leading arg')) []
  | assignPlain {p v n left right right' aft} :
      t.shadowedIn T (p.scopeOf n) = false → n.kind = .assign .plain left right →
      t.isReference left = true → Derefs (p.child n .other) false right right' aft →
      Derefs p v n (n.withKind (.call (identOf acc.write) [arrowOf [] right'] false)) []
  | assignBinary {p v n b left right right' aft cur} :
      t.shadowedIn T (p.scopeOf n) = false → n.kind = .assign (.binary b) left right →
      t.isReference left = true → Derefs (p.child n .other) false right right' aft →
      cur ∉ T.names →
      Derefs p v n (n.withKind (.call (identOf acc.write)
        [arrowOf [bindingOf cur] (Node.make (.binary b (identOf cur) right'))] false)) []
  | assignLogical {p v n l left right right' aft cur} :
      t.shadowedIn T (p.scopeOf n) = false → n.kind = .assign (.logical l) left right →
      t.isReference left = true → Derefs (p.child n .other) false right right' aft →
      cur ∉ T.names →
      Derefs p v n (n.withKind (.call (identOf acc.write)
        [arrowOf [bindingOf cur] (Node.make (.logical l (identOf cur) right'))] false)) []
  | assign {p v n op left right left' right' aftl aftr} :
      t.shadowedIn T (p.scopeOf n) = false → n.kind = .assign op left right →
      t.isReference left = false → Derefs (p.child n .target) false left left' aftl →
      Derefs (p.child n .other) false right right' aftr →
      Derefs p v n (n.withKind (.assign op left' right')) []
  | identRef {p v n} :
      t.shadowedIn T (p.scopeOf n) = false → n.kind = .ident t.name →
      isWritten p.ancestors = false →
      Derefs p v n (n.withKind (.call (identOf acc.read) [] false)) []
  | ident {p v n y} :
      t.shadowedIn T (p.scopeOf n) = false → n.kind = .ident y → y ≠ t.name → Derefs p v n n []
  | property {p v n key value sh value' aft} (ks : List (Node × List Node)) :
      t.shadowedIn T (p.scopeOf n) = false → n.kind = .property key value sh →
      key.nodes.length = ks.length →
      (∀ e r, (e, r) ∈ key.nodes.zip ks → Derefs (p.child n .other) false e r.1 r.2) →
      Derefs (p.child n .value) true value value' aft →
      Derefs p v n (n.withKind (.property (Kind.takeKey key (ks.map Prod.fst)).1 value' sh)) []
  | propertyGetter {p v n key value sh} (ks : List (Node × List Node)) :
      t.shadowedIn T (p.scopeOf n) = false → n.kind = .property key value sh →
      key.nodes.length = ks.length →
      (∀ e r, (e, r) ∈ key.nodes.zip ks → Derefs (p.child n .other) false e r.1 r.2) →
      AccessorUse t T (p.child n .value) value .getter →
      Derefs p v n (n.withKind (getterOf acc (Kind.takeKey key (ks.map Prod.fst)).1)) []
  | propertySetter {p v n key value sh val} (ks : List (Node × List Node)) :
      t.shadowedIn T (p.scopeOf n) = false → n.kind = .property key value sh →
      key.nodes.length = ks.length →
      (∀ e r, (e, r) ∈ key.nodes.zip ks → Derefs (p.child n .other) false e r.1 r.2) →
      AccessorUse t T (p.child n .value) value .setter → val ∉ T.names →
      Derefs p v n (n.withKind (setterOf acc (Kind.takeKey key (ks.map Prod.fst)).1 val)) []
  | propertyBoth {p v n key value sh val} (ks : List (Node × List Node)) :
      t.shadowedIn T (p.scopeOf n) = false → n.kind = .property key value sh →
      key.nodes.length = ks.length →
      (∀ e r, (e, r) ∈ key.nodes.zip ks → Derefs (p.child n .other) false e r.1 r.2) →
      AccessorUse t T (p.child n .value) value .property → val ∉ T.names →
      Derefs p v n (n.withKind (getterOf acc (Kind.takeKey key (ks.map Prod.fst)).1))
        [.mk 0 n.span none (setterOf acc (Kind.takeKey key (ks.map Prod.fst)).1.copy val)]
  | object {p v n props} (rs : List (Node × List Node)) :
      t.shadowedIn T (p.scopeOf n) = false → n.kind = .object props → props.length = rs.length →
      (∀ a r, (a, r) ∈ props.zip rs → Derefs (p.child n .other) false a r.1 r.2) →
      Derefs p v n (n.withKind (.object (rs.map fun r => r.1 :: r.2).flatten)) []
  | other {p v n} (rs : List (Node × List Node)) :
      t.shadowedIn T (p.scopeOf n) = false → n.kind.derefSpecial = false →
      n.kind.children.length = rs.length →
      (∀ c r, (c, r) ∈ n.kind.children.zip rs → Derefs (p.child n c.role) false c.node r.1 r.2) →
      Derefs p v n (n.withKind (n.kind.setChildren (rs.map Prod.fst))) []

/-- What `Derefs` says of an answer of the walk of `n` at `p`: a rewrite it relates `n` to or,
for the value of a property, an accessor directive applied to the signal. -/
def Walked.Follows (p : Place) (v : Bool) (n : Node) : Walked → Prop
  | .done m after => Derefs t acc T p v n m after
  | .accessor d c => c = n ∧ v = true ∧ AccessorUse t T p n d

end Relation

/-! ### Facts the walk's steps need -/

section Steps

variable {T : Scopes} {t : Target} {acc : Accessors} {st st' : Session}

/-- A session that keeps the table sees the signal shadowed where the table does. -/
theorem Walking.shadowedIn (hw : Walking T st) (hx : t.name ∈ T.names) (s : Nat) :
    t.shadowedIn st.scopes s = t.shadowedIn T s :=
  Target.shadowedIn_of_keeps (hw.keeps t.name hx).2 s

/-- A scope the table does not see shadowing the signal, a session that keeps the table does not
either. -/
theorem Walking.unshadowed (hw : Walking T st) (hx : t.name ∈ T.names) {s : Nat}
    (hs : t.shadowedIn T s = false) : t.shadowedIn st.scopes s = false :=
  (hw.shadowedIn hx s).trans hs

/-- A fresh name a walk takes is none of the names of the table it keeps. -/
theorem Walking.fresh_of_uidIn (hw : Walking T st) {s : Nat} {hint cur : String}
    (h : (Rewrite.uidIn s hint).run st = .ok (cur, st')) : cur ∉ T.names := by
  rw [Rewrite.run_uidIn] at h
  cases h
  exact hw.fresh s hint

/-- A successful rebuild of a construct puts, in place of its children, what the visits of its
children answered. -/
theorem Rewrite.run_mapChildrenM_eq {k k' : Kind}
    {f : (c : Node) → Role → sizeOf c < sizeOf k → Rewrite Node}
    (h : (k.mapChildrenM f).run st = .ok (k', st')) :
    ∃ ns, (k.children.mapM fun c => f c.node c.role c.lt).run st = .ok (ns, st') ∧
      k' = k.setChildren ns := by
  rw [Kind.mapChildrenM_eq, StateT.run_map] at h
  cases hr : (k.children.mapM fun c => f c.node c.role c.lt).run st with
  | error e =>
    rw [hr] at h
    cases h
  | ok r =>
    rw [hr] at h
    cases h
    exact ⟨r.1, rfl, rfl⟩

/-- A call applies a directive only if it is a call. -/
theorem kind_of_directiveOf {c : Node} {d : Directive} (h : directiveOf c = some d) :
    ∃ callee args o, c.kind = .call callee args o := by
  unfold directiveOf at h
  split at h
  · exact ⟨_, _, _, ‹_›⟩
  · cases h

/-- An accessor directive other than `$getter` and `$setter` is `$property`. -/
theorem Directive.eq_property {d : Directive} (h : d.needsProperty = true) (hg : d ≠ .getter)
    (hs : d ≠ .setter) : d = .property := by
  cases d <;> simp_all [Directive.needsProperty]

/-- A walk of a part that is not a property's value answers a rewrite. -/
theorem Walked.Follows.done_of_false {q : Place} {a : Node} {w : Walked}
    (h : w.Follows t acc T q false a) :
    ∃ m after, w = .done m after ∧ Derefs t acc T q false a m after := by
  cases w with
  | done m after => exact ⟨m, after, rfl, h⟩
  | accessor d c => exact absurd h.2.1 Bool.false_ne_true

end Steps

/-! ### A successful walk follows the relation -/

section Sound

variable {T : Scopes} {t : Target} {acc : Accessors}

/-- **A walk answers a structural rewrite.** From a session that keeps the table `T` (which
knows the signal's name), a successful walk of `n` at `p` answers a rewrite `Derefs` relates
`n` to, or, for a property's value, the accessor directive that value is. By induction along
the walk: each branch is one rule, the parts' walks give its premises. -/
theorem derefWalk_follows (hx : t.name ∈ T.names) {p : Place} {v : Bool} {n : Node}
    {st st' : Session} {w : Walked} (hw : Walking T st)
    (h : (derefWalk t acc p v n).run st = .ok (w, st')) : w.Follows t acc T p v n := by
  induction p, v, n using derefWalk.induct generalizing st w st' with
  | case1 p v n ihCallee ihArgs ihArg ihRight ihLeft ihValue ihKey ihProps ihChildren =>
  have hsh := hw.shadowedIn hx (p.scopeOf n)
  have key : ∀ {key value sh k' s s'}, n.kind = .property key value sh → Walking T s →
      (derefKey t acc (p.child n .other) key).run s = .ok (k', s') → Walking T s' ∧
        ∃ ks : List (Node × List Node), key.nodes.length = ks.length ∧
          (∀ e r, (e, r) ∈ key.nodes.zip ks → Derefs t acc T (p.child n .other) false e r.1 r.2) ∧
          k' = (Kind.takeKey key (ks.map Prod.fst)).1 := by
    intro key value sh k' s s' hk hs h
    rcases run_derefKey h with ⟨e, w, rfl, he, rfl⟩ | ⟨hn, rfl, rfl⟩
    · obtain ⟨m, aft, rfl, hd⟩ := (ihKey _ _ _ hk e rfl hs he).done_of_false
      refine ⟨hs.derefWalk he, [(m, aft)], rfl, fun e' r hr => ?_, rfl⟩
      obtain ⟨rfl, rfl⟩ := Prod.mk.inj (List.mem_singleton.1 hr)
      exact hd
    · refine ⟨hs, [], by simp [hn], by simp [hn], ?_⟩
      cases k' <;> simp_all [Key.nodes, Kind.takeKey]
  cases derefWalk_step h with
  | shadowed hs => exact .shadowed (hsh ▸ hs)
  | call hs hk hd hc ha =>
    obtain ⟨m, aft, rfl, hm⟩ := (ihCallee _ _ _ hk hw hc).done_of_false
    obtain ⟨-, hR⟩ := Rewrite.run_mapM_ok (Walking T)
      (fun a b => ∃ r : Node × List Node, b = r.1 ∧
        Derefs t acc T (p.child n .other) false a r.1 r.2)
      (fun a ha s b s' hs hb => by
        obtain ⟨w, hwalk, rfl⟩ := run_derefNode.1 hb
        obtain ⟨m, aft, rfl, hd⟩ := (ihArgs _ _ _ hk a ha hs hwalk).done_of_false
        exact ⟨hs.derefWalk hwalk, (m, aft), rfl, hd⟩) (hw.derefWalk hc) ha
    obtain ⟨rs, rfl, hlen, hrs⟩ := List.exists_zip_of_forall₂ hR
    exact .call rs (hsh ▸ hs) hk hd hm hlen hrs
  | directive hs hk hd harg hrep _ => exact .directive (hsh ▸ hs) hk hd harg hrep
  | accessor hs _ hd hp hv harg => exact ⟨rfl, hv, hsh ▸ hs, hd, hp, harg⟩
  | updateRef hs hk hr hu => exact .updateRef (hsh ▸ hs) hk hr (hw.fresh_of_uidIn hu)
  | update hs hk hr ha =>
    obtain ⟨m, aft, rfl, hm⟩ := (ihArg _ _ _ hk hw ha).done_of_false
    exact .update (hsh ▸ hs) hk hr hm
  | assignPlain hs hk hr hr' =>
    obtain ⟨m, aft, rfl, hm⟩ := (ihRight _ _ _ hk hw hr').done_of_false
    exact .assignPlain (hsh ▸ hs) hk hr hm
  | assignBinary hs hk hr hr' hu =>
    obtain ⟨m, aft, rfl, hm⟩ := (ihRight _ _ _ hk hw hr').done_of_false
    exact .assignBinary (hsh ▸ hs) hk hr hm ((hw.derefWalk hr').fresh_of_uidIn hu)
  | assignLogical hs hk hr hr' hu =>
    obtain ⟨m, aft, rfl, hm⟩ := (ihRight _ _ _ hk hw hr').done_of_false
    exact .assignLogical (hsh ▸ hs) hk hr hm ((hw.derefWalk hr').fresh_of_uidIn hu)
  | assign hs hk hr hl hr' =>
    obtain ⟨l, aftl, rfl, hdl⟩ := (ihLeft _ _ _ hk hw hl).done_of_false
    obtain ⟨m, aft, rfl, hm⟩ := (ihRight _ _ _ hk (hw.derefWalk hl) hr').done_of_false
    exact .assign (hsh ▸ hs) hk hr hdl hm
  | identRef hs hk hwr => exact .identRef (hsh ▸ hs) hk hwr
  | ident hs hk hy => exact .ident (hsh ▸ hs) hk hy
  | property hs hk hkey hv =>
    obtain ⟨hw₁, ks, hlen, hks, rfl⟩ := key hk hw hkey
    exact .property ks (hsh ▸ hs) hk hlen hks (ihValue _ _ _ hk hw₁ hv)
  | propertyGetter hs hk hkey hv _ =>
    obtain ⟨hw₁, ks, hlen, hks, rfl⟩ := key hk hw hkey
    exact .propertyGetter ks (hsh ▸ hs) hk hlen hks (ihValue _ _ _ hk hw₁ hv).2.2
  | propertySetter hs hk hkey hv hu _ =>
    obtain ⟨hw₁, ks, hlen, hks, rfl⟩ := key hk hw hkey
    exact .propertySetter ks (hsh ▸ hs) hk hlen hks (ihValue _ _ _ hk hw₁ hv).2.2
      ((hw₁.derefWalk hv).fresh_of_uidIn hu)
  | propertyBoth hs hk hkey hv hg hse hu _ =>
    obtain ⟨hw₁, ks, hlen, hks, rfl⟩ := key hk hw hkey
    have hu' := (ihValue _ _ _ hk hw₁ hv).2.2
    obtain rfl := Directive.eq_property hu'.needsProperty hg hse
    exact .propertyBoth ks (hsh ▸ hs) hk hlen hks hu' ((hw₁.derefWalk hv).fresh_of_uidIn hu)
  | object hs hk hm =>
    obtain ⟨-, hR⟩ := Rewrite.run_mapM_ok (Walking T)
      (fun a b => ∃ r : Node × List Node, b = r.1 :: r.2 ∧
        Derefs t acc T (p.child n .other) false a r.1 r.2)
      (fun a ha s b s' hs hb => by
        obtain ⟨w, hwalk, rfl⟩ := run_derefMember.1 hb
        obtain ⟨m, aft, rfl, hd⟩ := (ihProps _ hk a ha hs hwalk).done_of_false
        exact ⟨hs.derefWalk hwalk, (m, aft), rfl, hd⟩) hw hm
    obtain ⟨rs, rfl, hlen, hrs⟩ := List.exists_zip_of_forall₂ hR
    exact .object rs (hsh ▸ hs) hk hlen hrs
  | other hs hsp hm =>
    obtain ⟨ns, hl, rfl⟩ := Rewrite.run_mapChildrenM_eq hm
    obtain ⟨-, hR⟩ := Rewrite.run_mapM_ok (Walking T)
      (fun c b => ∃ r : Node × List Node, b = r.1 ∧
        Derefs t acc T (p.child n c.role) false c.node r.1 r.2)
      (fun c _ s b s' hs hb => by
        obtain ⟨w, hwalk, rfl⟩ := run_derefNode.1 hb
        obtain ⟨m, aft, rfl, hd⟩ := (ihChildren c.node c.role c.lt hs hwalk).done_of_false
        exact ⟨hs.derefWalk hwalk, (m, aft), rfl, hd⟩) hw hl
    obtain ⟨rs, rfl, hlen, hrs⟩ := List.exists_zip_of_forall₂ hR
    exact .other rs (hsh ▸ hs) hsp hlen hrs

end Sound

/-! ### The walk finds every rewrite the relation gives -/

section Complete

variable {T : Scopes} {t : Target} {acc : Accessors} {st : Session}

/-- The walk of a property's value that is an accessor directive for the signal answers the
directive, and changes nothing. -/
theorem AccessorUse.derefWalk_ok (hx : t.name ∈ T.names) {q : Place} {c : Node} {d : Directive}
    (hu : AccessorUse t T q c d) (hw : Walking T st) :
    (derefWalk t acc q true c).run st = .ok (.accessor d c, st) := by
  obtain ⟨callee, args, o, hk⟩ := kind_of_directiveOf hu.directive
  exact derefWalk_of_step
    (.accessor (hw.unshadowed hx hu.unshadowed) hk hu.directive hu.needsProperty rfl hu.argument)

/-- The walk of a key succeeds when the walk of its computed expression does. -/
theorem derefKey_ok {q : Place} {key : Key} {ks : List (Node × List Node)}
    (hlen : key.nodes.length = ks.length)
    (ih : ∀ e r, (e, r) ∈ key.nodes.zip ks → ∀ {s}, Walking T s →
      ∃ m after s', (derefWalk t acc q false e).run s = .ok (.done m after, s'))
    (hw : Walking T st) :
    ∃ key' st', (derefKey t acc q key).run st = .ok (key', st') ∧ Walking T st' := by
  cases key with
  | computed e =>
    obtain ⟨r, rfl⟩ := List.length_eq_one_iff.1 hlen.symm
    obtain ⟨m, after, s', hrun⟩ := ih e r (by simp [Key.nodes]) hw
    exact ⟨_, _, Rewrite.run_bind_ok.2 ⟨_, _, hrun, rfl⟩, hw.derefWalk hrun⟩
  | named y => exact ⟨_, _, rfl, hw⟩
  | privateName y => exact ⟨_, _, rfl, hw⟩

/-- **The walk finds every structural rewrite.** Where `Derefs` relates `n` to a rewrite, the
walk of `n` succeeds from every session that keeps the table, answering a rewrite (with fresh
names of its own choosing). By induction on the relation: the premises of each rule give the
runs of the parts, and `derefWalk_of_step` puts them together. -/
theorem Derefs.derefWalk_ok (hx : t.name ∈ T.names) {p : Place} {v : Bool} {n m : Node}
    {after : List Node} (hd : Derefs t acc T p v n m after) :
    ∀ {st}, Walking T st →
      ∃ m' after' st', (derefWalk t acc p v n).run st = .ok (.done m' after', st') := by
  induction hd with
  | shadowed hs =>
    intro st hw
    exact ⟨_, _, _, derefWalk_of_step (.shadowed ((hw.shadowedIn hx _).trans hs))⟩
  | call rs hs hk hd _ hlen _ ihCallee ihArgs =>
    intro st hw
    obtain ⟨_, _, s₁, hc⟩ := ihCallee hw
    obtain ⟨args', s₂, ha, -, -⟩ := Rewrite.run_mapM_exists (Walking T) (fun _ _ => True)
      (fun a ha s hs => by
        obtain ⟨r, hr⟩ := List.exists_mem_zip hlen ha
        obtain ⟨_, _, s', hrun⟩ := ihArgs a r hr hs
        exact ⟨_, s', run_derefNode.2 ⟨_, hrun, rfl⟩, hs.derefWalk hrun, trivial⟩)
      (hw.derefWalk hc)
    exact ⟨_, _, _, derefWalk_of_step (.call (hw.unshadowed hx hs) hk hd hc ha)⟩
  | directive hs hk hd harg hrep =>
    intro st hw
    exact ⟨_, _, _, derefWalk_of_step (.directive (hw.unshadowed hx hs) hk hd harg hrep
      (Rewrite.run_keepCut _ _ _).choose_spec)⟩
  | updateRef hs hk hr _ =>
    intro st hw
    exact ⟨_, _, _, derefWalk_of_step
      (.updateRef (hw.unshadowed hx hs) hk hr (Rewrite.run_uidIn _ _))⟩
  | update hs hk hr _ ihArg =>
    intro st hw
    obtain ⟨_, _, _, ha⟩ := ihArg hw
    exact ⟨_, _, _, derefWalk_of_step (.update (hw.unshadowed hx hs) hk hr ha)⟩
  | assignPlain hs hk hr _ ihRight =>
    intro st hw
    obtain ⟨_, _, _, hr'⟩ := ihRight hw
    exact ⟨_, _, _, derefWalk_of_step (.assignPlain (hw.unshadowed hx hs) hk hr hr')⟩
  | assignBinary hs hk hr _ _ ihRight =>
    intro st hw
    obtain ⟨_, _, _, hr'⟩ := ihRight hw
    exact ⟨_, _, _, derefWalk_of_step
      (.assignBinary (hw.unshadowed hx hs) hk hr hr' (Rewrite.run_uidIn _ _))⟩
  | assignLogical hs hk hr _ _ ihRight =>
    intro st hw
    obtain ⟨_, _, _, hr'⟩ := ihRight hw
    exact ⟨_, _, _, derefWalk_of_step
      (.assignLogical (hw.unshadowed hx hs) hk hr hr' (Rewrite.run_uidIn _ _))⟩
  | assign hs hk hr _ _ ihLeft ihRight =>
    intro st hw
    obtain ⟨_, _, _, hl⟩ := ihLeft hw
    obtain ⟨_, _, _, hr'⟩ := ihRight (hw.derefWalk hl)
    exact ⟨_, _, _, derefWalk_of_step (.assign (hw.unshadowed hx hs) hk hr hl hr')⟩
  | identRef hs hk hwr =>
    intro st hw
    exact ⟨_, _, _, derefWalk_of_step (.identRef (hw.unshadowed hx hs) hk hwr)⟩
  | ident hs hk hy =>
    intro st hw
    exact ⟨_, _, _, derefWalk_of_step (.ident (hw.unshadowed hx hs) hk hy)⟩
  | property ks hs hk hlen _ _ ihKey ihValue =>
    intro st hw
    obtain ⟨_, s₁, hkey, hw₁⟩ := derefKey_ok hlen ihKey hw
    obtain ⟨_, _, _, hv⟩ := ihValue hw₁
    exact ⟨_, _, _, derefWalk_of_step (.property (hw.unshadowed hx hs) hk hkey hv)⟩
  | propertyGetter ks hs hk hlen _ hu ihKey =>
    intro st hw
    obtain ⟨_, s₁, hkey, hw₁⟩ := derefKey_ok hlen ihKey hw
    exact ⟨_, _, _, derefWalk_of_step (.propertyGetter (hw.unshadowed hx hs) hk hkey
      (hu.derefWalk_ok hx hw₁) (Rewrite.run_keepCut _ _ _).choose_spec)⟩
  | propertySetter ks hs hk hlen _ hu _ ihKey =>
    intro st hw
    obtain ⟨_, s₁, hkey, hw₁⟩ := derefKey_ok hlen ihKey hw
    exact ⟨_, _, _, derefWalk_of_step (.propertySetter (hw.unshadowed hx hs) hk hkey
      (hu.derefWalk_ok hx hw₁) (Rewrite.run_uidIn _ _) (Rewrite.run_keepCut _ _ _).choose_spec)⟩
  | propertyBoth ks hs hk hlen _ hu _ ihKey =>
    intro st hw
    obtain ⟨_, s₁, hkey, hw₁⟩ := derefKey_ok hlen ihKey hw
    exact ⟨_, _, _, derefWalk_of_step (.propertyBoth (hw.unshadowed hx hs) hk hkey
      (hu.derefWalk_ok hx hw₁) (by decide) (by decide) (Rewrite.run_uidIn _ _)
      (Rewrite.run_keepCut _ _ _).choose_spec)⟩
  | object rs hs hk hlen _ ihProps =>
    intro st hw
    obtain ⟨props', s', hm, -, -⟩ := Rewrite.run_mapM_exists (Walking T) (fun _ _ => True)
      (fun a ha s hs => by
        obtain ⟨r, hr⟩ := List.exists_mem_zip hlen ha
        obtain ⟨_, _, s', hrun⟩ := ihProps a r hr hs
        exact ⟨_, s', run_derefMember.2 ⟨_, hrun, rfl⟩, hs.derefWalk hrun, trivial⟩) hw
    exact ⟨_, _, _, derefWalk_of_step (.object (hw.unshadowed hx hs) hk hm)⟩
  | @other p v n rs hs hsp hlen _ ihChildren =>
    intro st hw
    obtain ⟨ns, s', hl, -, -⟩ := Rewrite.run_mapM_exists (Walking T) (fun _ _ => True)
      (fun c hc s hs => by
        obtain ⟨r, hr⟩ := List.exists_mem_zip hlen hc
        obtain ⟨_, _, s', hrun⟩ := ihChildren c r hr hs
        exact ⟨_, s', run_derefNode.2 ⟨_, hrun, rfl⟩, hs.derefWalk hrun, trivial⟩) hw
    have hm : (n.kind.mapChildrenM fun c r _ => derefNode t acc (p.child n r) c).run st =
        .ok (n.kind.setChildren ns, s') := by
      rw [Kind.mapChildrenM_eq, StateT.run_map, hl]
      rfl
    exact ⟨_, _, _, derefWalk_of_step (.other (hw.unshadowed hx hs) hsp hm)⟩

end Complete

/-! ### Dereferencing the signal of a program -/

namespace Node

variable {x : Nat}

/-- In a tree whose source ids are distinct, what `find` finds in a child, it finds in the
tree: no other child holds the id. -/
theorem find_of_child {p : Place} {n : Node} {c : Child n.kind} {r : Node × Place}
    (hd : n.ids.Nodup) (hx0 : x ≠ 0) (hx : n.id ≠ x) (hc : c ∈ n.kind.children)
    (h : c.node.find x (p.child n c.role) = some r) : n.find x p = some r := by
  rw [find, if_neg (by simpa using hx)]
  have hch : (n.kind.children.flatMap fun c => c.node.ids).Nodup := by
    rw [ids_eq n, List.flatMap_map] at hd
    exact (List.nodup_append.1 hd).2.1
  cases hf : n.kind.children.findSome? (fun c => find x (p.child n c.role) c.node) with
  | none =>
    rw [List.findSome?_eq_none_iff] at hf
    rw [hf c hc] at h
    cases h
  | some r₀ =>
    obtain ⟨l₁, a, l₂, hl, ha, hl₁⟩ := List.findSome?_eq_some_iff.1 hf
    rw [hl] at hc hch
    rcases List.mem_append.1 hc with hc | hc
    · rw [hl₁ c hc] at h
      cases h
    rcases List.mem_cons.1 hc with rfl | hc
    · rw [← ha, h]
    · have hxa : x ∈ a.node.ids := (hasId_iff_mem_ids hx0 _).1 (hasId_of_find ha)
      have hxc : x ∈ c.node.ids := (hasId_iff_mem_ids hx0 _).1 (hasId_of_find h)
      rw [List.flatMap_append, List.flatMap_cons] at hch
      have hdis := (List.nodup_append.1 (List.nodup_append.1 hch).2.1).2.2
      exact absurd rfl (hdis x hxa x (List.mem_flatMap.2 ⟨c, hc, hxc⟩))

/-- **`updateAt` runs**: in a tree whose source ids are distinct, when the step succeeds,
keeping `I`, on the node `find` answers, the rewrite of the tree succeeds and keeps `I`. -/
theorem run_updateAt_ok {f : Place → Node → Rewrite Node} (I : Session → Prop) (hx0 : x ≠ 0)
    (p : Place) (n : Node) (hd : n.ids.Nodup)
    (hf : ∀ m q s, I s → n.find x p = some (m, q) → ∃ r s', (f q m).run s = .ok (r, s') ∧ I s') :
    ∀ {st}, I st → ∃ n' st', (n.updateAt x f p).run st = .ok (n', st') ∧ I st' := by
  induction p, n using updateAt.induct x with
  | case1 p n hx =>
    intro st hI
    rw [updateAt, if_pos hx]
    exact hf n p st hI (by rw [find, if_pos hx])
  | case2 p n hx hno =>
    intro st hI
    rw [updateAt, if_neg hx, if_pos hno]
    exact ⟨n, st, rfl, hI⟩
  | case3 p n hx hno ih =>
    intro st hI
    rw [updateAt, if_neg hx, if_neg hno]
    obtain ⟨ns, st', hl, hI', -⟩ := Rewrite.run_mapM_exists (l := n.kind.children)
      (f := fun c => updateAt x f (p.child n c.role) c.node) I (fun _ _ => True)
      (fun c hc s hs => by
        obtain ⟨b, s', hb, hs'⟩ := ih c.node c.role c.lt
          (hd.sublist (ids_sublist_of_mem_children (List.mem_map_of_mem hc)))
          (fun m q s hs h => hf m q s hs (find_of_child hd hx0 (by simpa using hx) hc h)) hs
        exact ⟨b, s', hb, hs', trivial⟩) hI
    refine ⟨_, st', Rewrite.run_bind_ok.2 ⟨n.kind.setChildren ns, st', ?_, rfl⟩, hI'⟩
    rw [Kind.mapChildrenM_eq, StateT.run_map, hl]
    rfl

end Node

/-- A successful dereference leaves in the program, in the owner's scope, a rewrite of the
owner that `Derefs` gives. -/
theorem derefAt_derefs {st st' : Session} {owner : Nat} {x read write : String} {n : Node}
    {q : Place} (hT : st.scopes.Sound) (hfind : st.root.find owner Place.top = some (n, q))
    (hx : x ∈ st.scopes.names) (h : (Rewrite.derefAt owner x read write).run st = .ok ((), st')) :
    ∃ m after, Occurs 0 st'.root q.scope m ∧
      Derefs ⟨q.scopeOf n, x⟩ ⟨read, write⟩ st.scopes q false n m after := by
  have hw : Walking st.scopes st := ⟨hT, fun y hy => ⟨hy, Scopes.Keeps.refl y _⟩⟩
  obtain ⟨root', st₁, hup, rfl⟩ := Rewrite.run_derefAt hfind h
  obtain ⟨-, hfound⟩ := Node.run_updateAt (Walking st.scopes)
    (fun q' m r => ∃ after, Derefs ⟨q.scopeOf n, x⟩ ⟨read, write⟩ st.scopes q' false m r after)
    (fun q' m s r s' hs hr => by
      obtain ⟨w, hwalk, rfl⟩ := run_derefNode.1 hr
      obtain ⟨m', aft, rfl, hd⟩ := (derefWalk_follows hx hs hwalk).done_of_false
      exact ⟨hs.derefWalk hwalk, aft, hd⟩)
    Place.top _ hw hup
  obtain ⟨r, hocc, after, hd⟩ := hfound n q hfind
  exact ⟨r, after, hocc, hd⟩

/-- **Dereferencing a signal is a structural rewrite.** Take a session whose table is sound and
knows the name `x`, over a program whose source ids are distinct, and the node `owner` names in
it. Dereferencing `x` there succeeds exactly when `Derefs`, against the session's table, relates
that node to a rewrite; and a successful run leaves, in the node's place, a rewrite of the node
that `Derefs` gives. -/
theorem derefAt_ok_iff_derefs {st : Session} {owner : Nat} {x read write : String} {n : Node}
    {q : Place} (hT : st.scopes.Sound) (hids : st.root.ids.Nodup) (h0 : owner ≠ 0)
    (hfind : st.root.find owner Place.top = some (n, q)) (hx : x ∈ st.scopes.names) :
    ((∃ st', (Rewrite.derefAt owner x read write).run st = .ok ((), st')) ↔
      ∃ m after, Derefs ⟨q.scopeOf n, x⟩ ⟨read, write⟩ st.scopes q false n m after) ∧
    ∀ st', (Rewrite.derefAt owner x read write).run st = .ok ((), st') →
      ∃ m after, Occurs 0 st'.root q.scope m ∧
        Derefs ⟨q.scopeOf n, x⟩ ⟨read, write⟩ st.scopes q false n m after := by
  have hw : Walking st.scopes st := ⟨hT, fun y hy => ⟨hy, Scopes.Keeps.refl y _⟩⟩
  refine ⟨⟨fun ⟨st', h⟩ => ?_, fun ⟨m, after, hd⟩ => ?_⟩, fun st' => derefAt_derefs hT hfind hx⟩
  · obtain ⟨m, after, -, hd⟩ := derefAt_derefs hT hfind hx h
    exact ⟨m, after, hd⟩
  · obtain ⟨root', st₁, hup, -⟩ := Node.run_updateAt_ok
      (f := fun q' m => derefNode ⟨q.scopeOf n, x⟩ ⟨read, write⟩ q' m) (Walking st.scopes) h0
      Place.top st.root hids
      (fun m q' s hs hf => by
        rw [hfind] at hf
        obtain ⟨rfl, rfl⟩ := Prod.mk.inj (Option.some.inj hf)
        obtain ⟨m', aft', s', hrun⟩ := hd.derefWalk_ok hx hs
        exact ⟨_, _, run_derefNode.2 ⟨_, hrun, rfl⟩, hs.derefWalk hrun⟩) hw
    exact ⟨_, Rewrite.run_bind_ok.2 ⟨_, _, Rewrite.run_targetAt hfind,
      Rewrite.run_updateAt_of_root (Node.hasId_of_find hfind) hup⟩⟩

/-- The module `let x; f($getter(y));`, as read. -/
def getterCallModule : Node :=
  .mk 1 ⟨0, 0⟩ none (.program [
    .mk 2 ⟨0, 0⟩ none (.varDecl .let
      [.mk 3 ⟨0, 0⟩ none (.declarator (.mk 4 ⟨0, 0⟩ none (.bindingIdent "x")) none)]),
    .mk 5 ⟨0, 0⟩ none (.exprStmt (.mk 6 ⟨0, 0⟩ none (.call (.mk 7 ⟨0, 0⟩ none (.ident "f"))
      [.mk 8 ⟨0, 0⟩ none (.call (.mk 9 ⟨0, 0⟩ none (.ident "$getter"))
        [.mk 10 ⟨0, 0⟩ none (.ident "y")] false)] false)))])

theorem derefAt_ok_iff_derefs_getterCall :
    ((∃ st', (Rewrite.derefAt 1 "x" "_x" "_setX").run (Session.start getterCallModule "") =
        .ok ((), st')) ↔
      ∃ m after, Derefs ⟨Place.top.scopeOf (Session.start getterCallModule "").root, "x"⟩
        ⟨"_x", "_setX"⟩ (Session.start getterCallModule "").scopes Place.top false
        (Session.start getterCallModule "").root m after) ∧
    ∀ st', (Rewrite.derefAt 1 "x" "_x" "_setX").run (Session.start getterCallModule "") =
        .ok ((), st') →
      ∃ m after, Occurs 0 st'.root Place.top.scope m ∧
        Derefs ⟨Place.top.scopeOf (Session.start getterCallModule "").root, "x"⟩ ⟨"_x", "_setX"⟩
          (Session.start getterCallModule "").scopes Place.top false
          (Session.start getterCallModule "").root m after := by
  have hnames : (Session.start getterCallModule "").scopes.names = ["y", "$getter", "f", "x"] := by
    cbv
  exact derefAt_ok_iff_derefs (ScopeWalk.analyzeScopes_wellScoped (by cbv) rfl).1 (by cbv; decide)
    (by decide) (by cbv) (by rw [hnames]; decide)

/-- The module `f($getter(y));`, as read, with the spans of its source. -/
def misplacedGetterModule : Node :=
  .mk 1 ⟨0, 14⟩ none (.program [
    .mk 2 ⟨0, 14⟩ none (.exprStmt (.mk 3 ⟨0, 13⟩ none (.call (.mk 4 ⟨0, 1⟩ none (.ident "f"))
      [.mk 5 ⟨2, 12⟩ none (.call (.mk 6 ⟨2, 9⟩ none (.ident "$getter"))
        [.mk 7 ⟨10, 11⟩ none (.ident "y")] false)] false)))])

/-- An accessor directive that is not the value of an object property fails the rewrite
whatever binding it applies to: dereferencing `x` in `f($getter(y))`, which applies `$getter` to
`y`, fails for the missing property around the directive instead of leaving the call as it is. -/
theorem derefAt_rejects_misplaced_accessor :
    (Rewrite.derefAt 1 "x" "_x" "_setX").run (Session.start misplacedGetterModule "") =
      .error (.missingContext "`$getter`" "object property" "CallExpression" ⟨2, 12⟩) := by
  cbv

/-! ### Children with their roles -/

@[simp] theorem Child.roles_ofList {parent : Kind} (xs : List Node) (r : Role)
    (h : sizeOf xs < sizeOf parent) :
    (Child.ofList xs r h).map (fun c => (c.node, c.role)) = xs.map fun c => (c, r) := by
  simp [Child.ofList]

@[simp] theorem Child.roles_ofKey {parent : Kind} (k : Key) (h : sizeOf k < sizeOf parent) :
    (Child.ofKey k h).map (fun c => (c.node, c.role)) = k.nodes.map fun c => (c, .other) := by
  cases k <;> rfl

/-! ### Every node the walk reaches

The walk takes apart each node that keeps the signal's binding and applies no directive to it,
so below such nodes it reaches every descendant. `Derefs.descend` follows one such path down a
rewrite, and `Derefs.derefForm` reads off the rewrite of a simple expression at its end. -/

section Reached

variable {T : Scopes} {t : Target} {acc : Accessors}

variable (T t) in
/-- `DerefReaches T t p n q e`: the walk for `t` from `n`, standing at `p`, passes down to `e`,
standing at `q`. Each node it passes through, `e` apart, keeps the signal's binding in its
scope and is no directive applied to the signal, so the walk takes it apart. -/
inductive DerefReaches : Place → Node → Place → Node → Prop
  | here {p : Place} {n : Node} : DerefReaches p n p n
  | child {p q : Place} {n c e : Node} {r : Role} : t.shadowedIn T (p.scopeOf n) = false →
      ¬ DirectsTo t.name n → (c, r) ∈ n.kind.children.map (fun c => (c.node, c.role)) →
      DerefReaches (p.child n r) c q e → DerefReaches p n q e

/-- From a node without children the walk reaches only the node itself. -/
theorem DerefReaches.eq_of_children_eq_nil {p q : Place} {n e : Node}
    (h : DerefReaches T t p n q e) (hc : n.kind.children = []) : q = p ∧ e = n := by
  cases h with
  | here => exact ⟨rfl, rfl⟩
  | child _ _ hmem _ => simp [hc] at hmem

/-- A reference has no children. -/
theorem Target.children_eq_nil_of_isReference {n : Node} (hr : t.isReference n = true) :
    n.kind.children = [] := by
  simp only [Target.isReference] at hr
  split at hr
  · rename_i heq
    rw [heq]
    rfl
  · cases hr

/-- The walk reaches a written place below a node only through a reference the node writes. -/
theorem DerefReaches.written_ref {p q : Place} {n a e : Node} {r : Role}
    (h : DerefReaches T t (p.child n r) a q e) (ha : t.isReference a = true)
    (hw : isWritten ((n, r) :: p.ancestors) = true) : isWritten q.ancestors = true := by
  obtain ⟨rfl, -⟩ := h.eq_of_children_eq_nil (Target.children_eq_nil_of_isReference ha)
  exact hw

/-- A node that is no directive call applies no directive. -/
theorem not_directsTo_of_directiveOf {y : String} {a : Node} (h : directiveOf a = none) :
    ¬ DirectsTo y a := by
  rintro ⟨d, hd, -⟩
  rw [h] at hd
  cases hd

/-- A walk that ends at a node that is no directive applied to the signal starts at one. -/
theorem DerefReaches.not_directsTo {p q : Place} {n e : Node} (h : DerefReaches T t p n q e)
    (he : ¬ DirectsTo t.name e) : ¬ DirectsTo t.name n := by
  cases h with
  | here => exact he
  | child _ hn _ _ => exact hn

theorem occurs_withKind {σ τ : Nat} {n c e : Node} {k : Kind} (hc : c ∈ k.children.map Child.node)
    (h : Occurs (n.scope.getD σ) c τ e) : Occurs σ (n.withKind k) τ e :=
  .child trivial hc h

/-- What stands in the body of an updater stands in the call of the writer with it. -/
theorem occurs_writeCall {σ τ : Nat} {n b e : Node} {acc : Accessors} {ps : List Node}
    (h : Occurs (n.scope.getD σ) b τ e) :
    Occurs σ (n.withKind (.call (identOf acc.write) [arrowOf ps b] false)) τ e :=
  occurs_withKind (by simp [Kind.children, arrowOf])
    (occurs_make_child (k := .arrow ps b true false) (by simp [Kind.children]) h)

section Keys

variable {key : Key} {c : Node}

theorem Key.mem_property_children {value : Node} {sh : Bool} (h : c ∈ key.nodes) :
    c ∈ (Kind.property key value sh).children.map Child.node := by
  simp [Kind.children, h]

theorem Key.mem_getterOf_children (h : c ∈ key.nodes) :
    c ∈ (getterOf acc key).children.map Child.node := by
  simp [getterOf, Kind.children, h]

theorem Key.mem_setterOf_children {value : String} (h : c ∈ key.nodes) :
    c ∈ (setterOf acc key value).children.map Child.node := by
  simp [setterOf, Kind.children, h]

end Keys

/-- The rewrite of a computed key's expression is the expression of the rewritten key. -/
theorem Key.mem_takeKey_of_mem_zip {key : Key} {ks : List (Node × List Node)} {c : Node}
    {r : Node × List Node} (h : (c, r) ∈ key.nodes.zip ks) :
    r.1 ∈ (Kind.takeKey key (ks.map Prod.fst)).1.nodes := by
  cases key with
  | computed c₀ =>
    cases ks with
    | nil => simp at h
    | cons r₀ ks =>
      simp only [Key.nodes, List.zip_cons_cons, List.zip_nil_left, List.mem_singleton,
        Prod.mk.injEq] at h
      obtain ⟨-, rfl⟩ := h
      simp [Kind.takeKey, Key.nodes]
  | _ => simp [Key.nodes] at h

/-- **A rewrite holds the rewrite of every node the walk reaches.** Where the walk from `n`
passes down to `e`, which stands in a place that is not written and is no directive applied
to the signal, the rewrite `m` that `Derefs` gives of `n` holds a rewrite of `e` that `Derefs`
gives, standing in the same scope. -/
theorem Derefs.descend {p q : Place} {v : Bool} {n m e : Node} {after : List Node}
    (hr : DerefReaches T t p n q e) (hwr : isWritten q.ancestors = false)
    (he : ¬ DirectsTo t.name e) (hd : Derefs t acc T p v n m after) :
    ∃ v' e' aft, Derefs t acc T q v' e e' aft ∧ Occurs p.scope m q.scope e' := by
  induction hr generalizing v m after with
  | here => exact ⟨v, m, after, hd, .here _ _⟩
  | @child p q n c e r hs hnd hc hr ih =>
    have into : ∀ {m' c' : Node} {v' : Bool} {aft : List Node},
        (∀ {τ e'}, Occurs (p.scopeOf n) c' τ e' → Occurs p.scope m' τ e') →
        Derefs t acc T (p.child n r) v' c c' aft →
        ∃ v' e' aft, Derefs t acc T q v' e e' aft ∧ Occurs p.scope m' q.scope e' := by
      intro m' c' v' aft hin hd'
      obtain ⟨v'', e', aft', hd'', ho⟩ := ih hwr he hd'
      exact ⟨v'', e', aft', hd'', hin ho⟩
    have written : ∀ {a : Node}, t.isReference a = true → (c, r) = (a, r) →
        isWritten ((n, r) :: p.ancestors) = true → False := by
      rintro a ha ⟨⟩ hw
      simp [hr.written_ref ha hw] at hwr
    have accessor : ∀ {d : Directive}, AccessorUse t T (p.child n .value) c d → False :=
      fun hu => hr.not_directsTo he ⟨_, hu.directive, hu.argument⟩
    cases hd with
    | shadowed h => simp [hs] at h
    | call rs _ hk _ hcallee hlen hargs =>
      rw [hk] at hc
      simp [Kind.children] at hc
      rcases hc with ⟨rfl, rfl⟩ | ⟨ha, rfl⟩
      · exact into (occurs_withKind (by simp [Kind.children])) hcallee
      · obtain ⟨r', hr'⟩ := List.exists_mem_zip hlen ha
        exact into (occurs_withKind (by simp [Kind.children]; exact Or.inr ⟨r'.2, (List.of_mem_zip hr').2⟩))
          (hargs c r' hr')
    | directive _ _ hdir harg _ => exact absurd ⟨_, hdir, harg⟩ hnd
    | updateRef _ hk href _ =>
      rw [hk] at hc
      simp [Kind.children] at hc
      obtain ⟨rfl, rfl⟩ := hc
      exact (written href rfl (by simp only [isWritten, hk]; rfl)).elim
    | update _ hk _ harg =>
      rw [hk] at hc
      simp [Kind.children] at hc
      obtain ⟨rfl, rfl⟩ := hc
      exact into (occurs_withKind (by simp [Kind.children])) harg
    | assignPlain _ hk href hright =>
      rw [hk] at hc
      simp [Kind.children] at hc
      rcases hc with ⟨rfl, rfl⟩ | ⟨rfl, rfl⟩
      · exact (written href rfl (by simp only [isWritten, hk]; rfl)).elim
      · exact into occurs_writeCall hright
    | assignBinary _ hk href hright _ =>
      rw [hk] at hc
      simp [Kind.children] at hc
      rcases hc with ⟨rfl, rfl⟩ | ⟨rfl, rfl⟩
      · exact (written href rfl (by simp only [isWritten, hk]; rfl)).elim
      · exact into (fun h => occurs_writeCall (occurs_make_child (by simp [Kind.children]) h))
          hright
    | assignLogical _ hk href hright _ =>
      rw [hk] at hc
      simp [Kind.children] at hc
      rcases hc with ⟨rfl, rfl⟩ | ⟨rfl, rfl⟩
      · exact (written href rfl (by simp only [isWritten, hk]; rfl)).elim
      · exact into (fun h => occurs_writeCall (occurs_make_child (by simp [Kind.children]) h))
          hright
    | assign _ hk _ hleft hright =>
      rw [hk] at hc
      simp [Kind.children] at hc
      rcases hc with ⟨rfl, rfl⟩ | ⟨rfl, rfl⟩
      · exact into (occurs_withKind (by simp [Kind.children])) hleft
      · exact into (occurs_withKind (by simp [Kind.children])) hright
    | identRef _ hk _ =>
      rw [hk] at hc
      simp [Kind.children] at hc
    | ident _ hk _ =>
      rw [hk] at hc
      simp [Kind.children] at hc
    | property ks _ hk hlen hkeys hvalue =>
      rw [hk] at hc
      simp [Kind.children] at hc
      rcases hc with ⟨hkey, rfl⟩ | ⟨rfl, rfl⟩
      · obtain ⟨r', hr'⟩ := List.exists_mem_zip hlen hkey
        exact into (occurs_withKind (Key.mem_property_children (Key.mem_takeKey_of_mem_zip hr')))
          (hkeys c r' hr')
      · exact into (occurs_withKind (by simp [Kind.children])) hvalue
    | propertyGetter ks _ hk hlen hkeys huse =>
      rw [hk] at hc
      simp [Kind.children] at hc
      rcases hc with ⟨hkey, rfl⟩ | ⟨rfl, rfl⟩
      · obtain ⟨r', hr'⟩ := List.exists_mem_zip hlen hkey
        exact into (occurs_withKind (Key.mem_getterOf_children (Key.mem_takeKey_of_mem_zip hr')))
          (hkeys c r' hr')
      · exact (accessor huse).elim
    | propertySetter ks _ hk hlen hkeys huse _ =>
      rw [hk] at hc
      simp [Kind.children] at hc
      rcases hc with ⟨hkey, rfl⟩ | ⟨rfl, rfl⟩
      · obtain ⟨r', hr'⟩ := List.exists_mem_zip hlen hkey
        exact into (occurs_withKind (Key.mem_setterOf_children (Key.mem_takeKey_of_mem_zip hr')))
          (hkeys c r' hr')
      · exact (accessor huse).elim
    | propertyBoth ks _ hk hlen hkeys huse _ =>
      rw [hk] at hc
      simp [Kind.children] at hc
      rcases hc with ⟨hkey, rfl⟩ | ⟨rfl, rfl⟩
      · obtain ⟨r', hr'⟩ := List.exists_mem_zip hlen hkey
        exact into (occurs_withKind (Key.mem_getterOf_children (Key.mem_takeKey_of_mem_zip hr')))
          (hkeys c r' hr')
      · exact (accessor huse).elim
    | object rs _ hk hlen hall =>
      rw [hk] at hc
      simp [Kind.children] at hc
      obtain ⟨hprop, rfl⟩ := hc
      obtain ⟨r', hr'⟩ := List.exists_mem_zip hlen hprop
      have hmem : r'.1 ∈ (rs.map fun r => r.1 :: r.2).flatten :=
        List.mem_flatten.2 ⟨_, List.mem_map_of_mem (List.of_mem_zip hr').2, List.mem_cons_self⟩
      exact into (occurs_withKind (by simpa [Kind.children] using hmem)) (hall c r' hr')
    | other rs _ _ hlen hall =>
      obtain ⟨c', hc', heq⟩ := List.mem_map.1 hc
      obtain ⟨rfl, rfl⟩ := Prod.mk.inj heq
      obtain ⟨r', hr'⟩ := List.exists_mem_zip hlen hc'
      refine into (occurs_withKind ?_) (hall c' r' hr')
      rw [Kind.children_setChildren _ (by simpa using hlen.symm)]
      exact List.mem_map_of_mem (List.of_mem_zip hr').2

/-- Where the signal keeps its binding, `Derefs` rewrites a construct that the walk takes apart
generically by rewriting its children in place. -/
theorem Derefs.of_not_special {p : Place} {v : Bool} {n m : Node} {aft : List Node}
    (hd : Derefs t acc T p v n m aft) (hsp : n.kind.derefSpecial = false)
    (hs : t.shadowedIn T (p.scopeOf n) = false) :
    ∃ rs : List (Node × List Node), m = n.withKind (n.kind.setChildren (rs.map Prod.fst)) ∧
      n.kind.children.length = rs.length ∧
      ∀ c r, (c, r) ∈ n.kind.children.zip rs →
        Derefs t acc T (p.child n c.role) false c.node r.1 r.2 := by
  cases hd with
  | shadowed h => simp [hs] at h
  | other rs _ _ hlen hall => exact ⟨rs, rfl, hlen, hall⟩
  | _ =>
    rw [‹n.kind = _›] at hsp
    cases hsp

/-- A name other than the signal's is kept. -/
theorem Derefs.ident_ne {p : Place} {v : Bool} {i : Nat} {s : Span} {y : String} {m : Node}
    {aft : List Node} (hy : y ≠ t.name) (hd : Derefs t acc T p v (.mk i s none (.ident y)) m aft) :
    m = .mk i s none (.ident y) := by
  cases hd with
  | shadowed => rfl
  | identRef _ hk _ =>
    cases hk
    exact absurd rfl hy
  | ident => rfl
  | _ => contradiction

theorem Kind.leaf_of_isLiteral {k : Kind} (hk : k.isLiteral = true) :
    k.children = [] ∧ k.derefSpecial = false := by
  cases k <;> first | exact ⟨rfl, rfl⟩ | simp [Kind.isLiteral] at hk

/-- `Derefs` of an operator whose children stand where nothing is written, each child's
rewrite given its shape by `ih`. -/
theorem Derefs.operator {q : Place} {v : Bool} {i : Nat} {sp : Span} {k : Kind} {m : Node}
    {aft : List Node} (hsp : k.derefSpecial = false)
    (hwk : ∀ r anc, isWritten ((Node.mk i sp none k, r) :: anc) = false)
    (ih : ∀ c ∈ k.children.map Child.node, ∀ {q : Place} {v : Bool} {c' : Node}
      {aft : List Node}, Derefs t acc T q v c c' aft → c.unmarked = true →
      t.shadowedIn T q.scope = false → isWritten q.ancestors = false →
      DerefForm t.name acc T.names c c')
    (hu : ∀ c ∈ k.children.map Child.node, c.unmarked = true) (hs : t.shadowedIn T q.scope = false)
    (hd : Derefs t acc T q v (.mk i sp none k) m aft) :
    ∃ cs, m = .mk i sp none (k.setChildren cs) ∧
      List.Forall₂ (DerefForm t.name acc T.names) (k.children.map Child.node) cs := by
  obtain ⟨rs, rfl, hlen, hall⟩ := hd.of_not_special hsp hs
  refine ⟨rs.map Prod.fst, rfl, ?_⟩
  rw [List.forall₂_map_left_iff, List.forall₂_map_right_iff]
  refine List.forall₂_iff_zip.2 ⟨hlen, fun {c r} hcr => ?_⟩
  have hc := List.mem_map_of_mem (f := Child.node) (List.of_mem_zip hcr).1
  exact ih c.node hc (hall c r hcr) (hu _ hc) hs (hwk _ _)

/-- **`Derefs` rewrites a simple expression into its rewritten shape** where the signal keeps
its binding and nothing is written. By induction on the expression, as `derefWalk_simple`. -/
theorem Derefs.derefForm {e : Node} (he : e.Simple) :
    ∀ {q : Place} {v : Bool} {e' : Node} {aft : List Node}, Derefs t acc T q v e e' aft →
      e.unmarked = true → t.shadowedIn T q.scope = false → isWritten q.ancestors = false →
      DerefForm t.name acc T.names e e' := by
  induction he with
  | ident =>
    intro q v e' aft hd hu hs _
    obtain ⟨rfl, -⟩ := Node.unmarked_mk hu
    cases hd with
    | shadowed h => simp [Place.scopeOf, hs] at h
    | identRef _ hk _ =>
      cases hk
      exact .read
    | ident _ hk hy =>
      cases hk
      exact .name hy
    | _ => contradiction
  | @literal i s o k hk =>
    intro q v e' aft hd hu hs _
    obtain ⟨rfl, -⟩ := Node.unmarked_mk hu
    obtain ⟨hnil, hsp⟩ := Kind.leaf_of_isLiteral hk
    obtain ⟨rs, rfl, hlen, -⟩ := hd.of_not_special hsp hs
    obtain rfl : rs = [] := List.eq_nil_of_length_eq_zero (by simpa [hnil] using hlen.symm)
    have hself : k.setChildren [] = k := by simpa [hnil] using Kind.setChildren_self k
    change DerefForm _ _ _ _ (.mk i s none (k.setChildren []))
    rw [hself]
    exact .literal hk
  | @unary i s o op a _ iha =>
    intro q v e' aft hd hu hs _
    obtain ⟨rfl, hcu⟩ := Node.unmarked_mk hu
    obtain ⟨cs, rfl, hR⟩ := hd.operator rfl (fun _ _ => rfl)
      (fun c hc => by
        simp only [Kind.children, List.map_cons, List.map_nil, List.mem_singleton] at hc
        subst hc
        exact iha) hcu hs
    simp only [Kind.children, List.map_cons, List.map_nil, List.forall₂_cons_left_iff,
      List.forall₂_nil_left_iff] at hR
    obtain ⟨a', _, ha, rfl, rfl⟩ := hR
    exact .unary ha
  | @binary i s o op a b _ _ iha ihb =>
    intro q v e' aft hd hu hs _
    obtain ⟨rfl, hcu⟩ := Node.unmarked_mk hu
    obtain ⟨cs, rfl, hR⟩ := hd.operator rfl (fun _ _ => rfl)
      (fun c hc => by
        simp only [Kind.children, List.map_cons, List.map_nil, List.mem_cons, List.not_mem_nil,
          or_false] at hc
        rcases hc with rfl | rfl
        · exact iha
        · exact ihb) hcu hs
    simp only [Kind.children, List.map_cons, List.map_nil, List.forall₂_cons_left_iff,
      List.forall₂_nil_left_iff] at hR
    obtain ⟨a', _, ha, ⟨b', _, hb, rfl, rfl⟩, rfl⟩ := hR
    exact .binary ha hb
  | @logical i s o op a b _ _ iha ihb =>
    intro q v e' aft hd hu hs _
    obtain ⟨rfl, hcu⟩ := Node.unmarked_mk hu
    obtain ⟨cs, rfl, hR⟩ := hd.operator rfl (fun _ _ => rfl)
      (fun c hc => by
        simp only [Kind.children, List.map_cons, List.map_nil, List.mem_cons, List.not_mem_nil,
          or_false] at hc
        rcases hc with rfl | rfl
        · exact iha
        · exact ihb) hcu hs
    simp only [Kind.children, List.map_cons, List.map_nil, List.forall₂_cons_left_iff,
      List.forall₂_nil_left_iff] at hR
    obtain ⟨a', _, ha, ⟨b', _, hb, rfl, rfl⟩, rfl⟩ := hR
    exact .logical ha hb
  | @cond i s o c d a _ _ _ ihc ihd iha =>
    intro q v e' aft hd hu hs _
    obtain ⟨rfl, hcu⟩ := Node.unmarked_mk hu
    obtain ⟨cs, rfl, hR⟩ := hd.operator rfl (fun _ _ => rfl)
      (fun n hn => by
        simp only [Kind.children, List.map_cons, List.map_nil, List.mem_cons, List.not_mem_nil,
          or_false] at hn
        rcases hn with rfl | rfl | rfl
        · exact ihc
        · exact ihd
        · exact iha) hcu hs
    simp only [Kind.children, List.map_cons, List.map_nil, List.forall₂_cons_left_iff,
      List.forall₂_nil_left_iff] at hR
    obtain ⟨c', _, hc, ⟨d', _, hdf, ⟨a', _, ha, rfl, rfl⟩, rfl⟩, rfl⟩ := hR
    exact .cond hc hdf ha
  | @seq i s o es _ ih =>
    intro q v e' aft hd hu hs _
    obtain ⟨rfl, hcu⟩ := Node.unmarked_mk hu
    obtain ⟨cs, rfl, hR⟩ := hd.operator rfl (fun _ _ => rfl)
      (fun c hc => ih c (by simpa [Kind.children] using hc)) hcu hs
    simp only [Kind.children, Child.node_ofList] at hR
    exact .seq hR.length_eq fun a a' h => (List.forall₂_iff_zip.1 hR).2 h
  | @assign i s o op i' s' o' y r _ ihr =>
    intro q v e' aft hd hu hs _
    obtain ⟨rfl, hcu⟩ := Node.unmarked_mk hu
    obtain ⟨rfl, -⟩ := Node.unmarked_mk (hcu (.mk i' s' o' (.ident y)) (by simp [Kind.children]))
    have hru := hcu r (by simp [Kind.children])
    cases hd with
    | shadowed h => simp [Place.scopeOf, hs] at h
    | assignPlain _ hk href hright =>
      cases hk
      obtain rfl : y = t.name := by simpa [Target.isReference] using href
      exact .set (ihr hright hru hs rfl)
    | assignBinary _ hk href hright hcur =>
      cases hk
      obtain rfl : y = t.name := by simpa [Target.isReference] using href
      exact .setBinary hcur (ihr hright hru hs rfl)
    | assignLogical _ hk href hright hcur =>
      cases hk
      obtain rfl : y = t.name := by simpa [Target.isReference] using href
      exact .setLogical hcur (ihr hright hru hs rfl)
    | assign _ hk href hleft hright =>
      cases hk
      have hy : y ≠ t.name := by simpa [Target.isReference] using href
      obtain rfl := hleft.ident_ne hy
      exact .assign hy (ihr hright hru hs rfl)
    | _ => contradiction
  | @update i s o op leading i' s' o' y =>
    intro q v e' aft hd hu hs _
    obtain ⟨rfl, hcu⟩ := Node.unmarked_mk hu
    obtain ⟨rfl, -⟩ := Node.unmarked_mk (hcu (.mk i' s' o' (.ident y)) (by simp [Kind.children]))
    cases hd with
    | shadowed h => simp [Place.scopeOf, hs] at h
    | updateRef _ hk href hcur =>
      cases hk
      obtain rfl : y = t.name := by simpa [Target.isReference] using href
      exact .step hcur
    | update _ hk href harg =>
      cases hk
      have hy : y ≠ t.name := by simpa [Target.isReference] using href
      obtain rfl := harg.ident_ne hy
      exact .update hy
    | _ => contradiction

/-- A simple expression applies no directive. -/
theorem Node.Simple.not_directsTo {e : Node} (he : e.Simple) (y : String) : ¬ DirectsTo y e := by
  rintro ⟨d, hd, -⟩
  obtain ⟨callee, args, o, hk⟩ := kind_of_directiveOf hd
  cases he with
  | literal hl =>
    cases hk
    simp [Kind.isLiteral] at hl
  | _ => cases hk

end Reached

/-! ### The meaning of a simple expression anywhere in a module -/

section Meaning

variable {st : Session} {x read write : String} {e : Node}

/-- **Dereferencing a signal keeps the meaning of every simple expression it rewrites.** Take a
session whose table is sound and knows the names of a simple expression `e` without scope
marks and the two accessors, which `e` does not spell. Run with the accessors bound to the
signal's reader and writer, the rewrite `e'` of `e` does what `e` does with `x` a variable: it
answers the same value, leaves the cell holding what `x` holds and every other variable holding
the same, and reads and writes the other variables in the same order, as long as each update
`++`/`--` of `x` finds a number there.

* Wherever `e` stands below the owner, in a place that is not written and in a scope that
  keeps the signal's binding, the walk reaching it through nodes that keep the binding and
  apply no directive to the signal, a successful dereference of the declared signal `x` leaves
  such a rewrite `e'` in the program, in `e`'s scope.
* When the module is the statement `e;` and the owner is the program, the dereference
  succeeds and answers the module `e';`. -/
theorem derefAt_preserves_meaning (hT : st.scopes.Sound) (he : e.Simple) (hu : e.unmarked = true)
    (hsp : e.spells ⊆ st.scopes.names) (hr : read ∈ st.scopes.names)
    (hw : write ∈ st.scopes.names) (hrs : read ∉ e.spells) (hws : write ∉ e.spells)
    (hrw : read ≠ write) :
    (∀ {st' : Session} {owner : Nat} {n : Node} {p q : Place},
      st.root.find owner Place.top = some (n, p) → x ∈ st.scopes.names →
      DerefReaches st.scopes ⟨p.scopeOf n, x⟩ p n q e →
      Target.shadowedIn ⟨p.scopeOf n, x⟩ st.scopes q.scope = false →
      isWritten q.ancestors = false →
      (Rewrite.derefAt owner x read write).run st = .ok ((), st') →
      ∃ e', Occurs 0 st'.root q.scope e' ∧
        ∀ {V : Type} (prims : Primitives V),
          Simulates prims x [(read, .reader), (write, .writer)] e e') ∧
    ∀ {j j' : Nat} {sp sp' : Span} {o : Option Nat},
      st.root = .mk j sp o (.program [.mk j' sp' none (.exprStmt e)]) →
      ∃ e' st', (Rewrite.derefAt j x read write).run st = .ok ((), st') ∧
        st'.root = .mk j sp o (.program [.mk j' sp' none (.exprStmt e')]) ∧
        ∀ {V : Type} (prims : Primitives V),
          Simulates prims x [(read, .reader), (write, .writer)] e e' := by
  refine ⟨fun hfind hx hreach hq hwr hrun => ?_, fun hroot =>
    derefAt_exprStmt_meaning hroot hT he hu hsp hr hw hrs hws hrw⟩
  obtain ⟨m, after, hocc, hd⟩ := derefAt_derefs hT hfind hx hrun
  obtain ⟨v', e', aft, hd', ho⟩ := hd.descend hreach hwr (he.not_directsTo x)
  refine ⟨e', hocc.trans ho, fun prims => ?_⟩
  exact (hd'.derefForm he hu hq hwr).simulates hr hw (binds_accessors hrw hrs hws) hsp

/-- The expression `x += x++`, as read. -/
def compoundUpdate : Node :=
  .mk 3 ⟨0, 0⟩ none (.assign (.binary .add) (.mk 4 ⟨0, 0⟩ none (.ident "x"))
    (.mk 5 ⟨0, 0⟩ none (.update .incr false (.mk 6 ⟨0, 0⟩ none (.ident "x")))))

/-- The module `x += x++;`, as read. -/
def compoundUpdateModule : Node :=
  .mk 1 ⟨0, 0⟩ none (.program [.mk 2 ⟨0, 0⟩ none (.exprStmt compoundUpdate)])

theorem derefAt_preserves_meaning_compoundUpdate :
    ∃ e' st', (Rewrite.derefAt 1 "x" "_x" "_setX").run (accessorSession compoundUpdateModule) =
        .ok ((), st') ∧
      st'.root = .mk 1 ⟨0, 0⟩ (some 0) (.program [.mk 2 ⟨0, 0⟩ none (.exprStmt e')]) ∧
      (∀ {V : Type} (prims : Primitives V),
        Simulates prims "x" [("_x", .reader), ("_setX", .writer)] compoundUpdate e') ∧
      ∃ e'', Occurs 0 st'.root 0 e'' ∧ ∀ {V : Type} (prims : Primitives V),
        Simulates prims "x" [("_x", .reader), ("_setX", .writer)] compoundUpdate e'' := by
  have hnames : (accessorSession compoundUpdateModule).scopes.names = ["_setX", "_x", "x"] := by
    cbv
  have hspells : compoundUpdate.spells = ["x", "x"] := by
    cbv
  have hmeaning := derefAt_preserves_meaning (x := "x")
    (show (accessorSession compoundUpdateModule).scopes.Sound from
      accessorSession_sound (by cbv) rfl)
    (show compoundUpdate.Simple from .assign .update) (by cbv) (by rw [hspells, hnames]; decide)
    (show "_x" ∈ _ by rw [hnames]; decide) (show "_setX" ∈ _ by rw [hnames]; decide)
    (by rw [hspells]; decide) (by rw [hspells]; decide) (by decide)
  obtain ⟨e', st', hrun, hroot, hsim⟩ := hmeaning.2 (by cbv)
  have hreach : DerefReaches (accessorSession compoundUpdateModule).scopes
      ⟨Place.top.scopeOf (.mk 1 ⟨0, 0⟩ (some 0) (.program [.mk 2 ⟨0, 0⟩ none
        (.exprStmt compoundUpdate)])), "x"⟩ Place.top
      (.mk 1 ⟨0, 0⟩ (some 0) (.program [.mk 2 ⟨0, 0⟩ none (.exprStmt compoundUpdate)]))
      ((Place.top.child (.mk 1 ⟨0, 0⟩ (some 0) (.program [.mk 2 ⟨0, 0⟩ none
        (.exprStmt compoundUpdate)])) .other).child (.mk 2 ⟨0, 0⟩ none (.exprStmt compoundUpdate))
          .other) compoundUpdate :=
    .child (by cbv) (not_directsTo_of_directiveOf rfl) (by simp [Kind.children])
      (.child (by cbv) (not_directsTo_of_directiveOf rfl) (by simp [Kind.children]) .here)
  exact ⟨e', st', hrun, hroot, hsim, hmeaning.1 (by cbv) (by rw [hnames]; decide) hreach (by cbv)
    rfl hrun⟩

end Meaning

end SignalSugar
