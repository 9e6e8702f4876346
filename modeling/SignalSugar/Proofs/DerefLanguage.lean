import SignalSugar.Proofs.AnalyzedScopes
import SignalSugar.Proofs.DerefScoping
import SignalSugar.Proofs.Flattening
/-!
# Dereferencing a signal against the language

The analysis's scope tree and the language's environments agree on a name `x` along every
descent on which each construct passed lets the child taken see every frame of its own that
binds `x` (`Descends`). So dereferencing a signal rewrites, on such descents, exactly the
references the language resolves to the signal's declaration.

The steps left out are where the two differ: a parameter, or a method's computed key, does not
see the frames of its function's body, nor a `catch` parameter those of its body, nor a
`switch`'s discriminant those of its cases, while the analysis gives each the one scope of its
construct (`derefAt_keeps_switch_discriminant`); and a class declaration binds its own name
inside as well as outside.

## Main results

* `resolve_step`: one step down keeps the language and the analysis agreeing on `x`.
* `Descends.resolve_iff`: so does a descent, by induction on it.
* `derefAt_follows_language_scopes`: dereferencing a signal rewrites a reference reached by
  such a descent from the owner of its scope exactly when the language resolves it to the owner.
-/

namespace SignalSugar

/-! ### Resolving a name on the way down -/

/-- A descent from a construct `a`, standing under a parent of kind `pk` in the environment
`E`, to a node `m` below it, reached in the environment `E'`: each step takes a child, pushing
the frames the language pushes for it. Each construct stepped out of applies no directive to
`x`, is no class declaration named `x`, and lets the child see every frame of its own that
binds `x`. -/
inductive Descends (x : String) : Option Kind → List Frame → Node → List Frame → Node → Prop
  | here {pk : Option Kind} {E : List Frame} {a : Node} : Descends x pk E a E a
  | child {pk : Option Kind} {E E' F : List Frame} {a c m : Node} :
      ¬ DirectsTo x a → c ∈ a.kind.children.map Child.node →
      (c.plain, F) ∈ (a.plain.frames pk).seen → ¬ a.plain.classNamed x →
      (x ∈ a.plain.frameNames pk → x ∈ F.flatMap Frame.names) →
      Descends x (some a.plain.kind) (F ++ E) c E' m → Descends x pk E a E' m

section Resolving

variable {T : Scopes} {x : String} {o s : Nat}

/-- The frames a construct pushes for a child resolve `x` to the construct when its scope binds
`x`, on a step that sees every frame binding it. -/
theorem resolve_seen {pk : Option Kind} {a c : Node} {F E : List Frame}
    (hF : (c, F) ∈ (a.frames pk).seen)
    (hop : a.PushesFrames pk) (ha : x ≠ "arguments")
    (hcls : ¬ a.classNamed x) (hall : x ∈ a.frameNames pk → x ∈ F.flatMap Frame.names) :
    Frame.resolve (F ++ E) x =
      if x ∈ a.scopeNames then some a.id else Frame.resolve E x := by
  rw [Frame.resolve_append fun f hf => Node.owner_of_mem_made (Node.mem_made_of_seen hF hf)]
  exact if_congr (Node.mem_seen_iff hF hop ha hcls hall) rfl rfl

/-- **One step down keeps the language and the analysis agreeing** on `x`: if, where `a` stands,
the language resolves `x` to the construct `o` exactly when the analysis resolves it to the scope
`s`, then so they do where `a`'s child stands. A construct that opens no scope pushes no frame; one
that opens a scope, a child of the one it stands in, pushes frames binding what the scope binds. -/
theorem resolve_step (hT : T.Sound) (ha : x ≠ "arguments") {pk : Option Kind} {a c : Node}
    {F E : List Frame} {τ : Nat} (hA : Analyzed T pk a) (hpk : pk.isSome = true)
    (hN : T.Nested τ [a]) (hid : a.id ≠ o) (hsτ : s ≤ τ)
    (hF : (c.plain, F) ∈ (a.plain.frames pk).seen) (hcls : ¬ a.plain.classNamed x)
    (hall : x ∈ a.plain.frameNames pk → x ∈ F.flatMap Frame.names)
    (hE : Frame.resolve E x = some o ↔ T.declaring τ x = s) :
    s ≤ a.scope.getD τ ∧
      (Frame.resolve (F ++ E) x = some o ↔ T.declaring (a.scope.getD τ) x = s) := by
  have hopens := hA.opens_iff hpk
  obtain ⟨hown, -, -⟩ := hA
  cases hsc : a.scope with
  | none =>
    have hop : a.plain.opens pk = false := by simpa [hsc] using hopens
    have hnil : F = [] := List.eq_nil_iff_forall_not_mem.2 fun f hf => by
      simpa [Node.made_of_not_opens hop hpk] using Node.mem_made_of_seen hF hf
    subst hnil
    exact ⟨hsτ, hE⟩
  | some s' =>
    have hop : a.plain.opens pk = true := by simpa [hsc] using hopens
    have hpar := hN.parent_of_mark List.mem_cons_self hsc
    have hlt := hT.parent_lt _ _ hpar
    rw [Option.getD_some, resolve_seen hF (Or.inl hop) ha hcls hall,
      Scopes.declaring_of_parent hT hpar, Node.id_plain]
    refine ⟨by omega, ?_⟩
    by_cases hx : T.owns s' x = true
    · rw [if_pos ((hown s' hsc x).1 hx), if_pos hx]
      simp [hid, Nat.ne_of_gt (Nat.lt_of_le_of_lt hsτ hlt)]
    · rw [if_neg (mt (hown s' hsc x).2 hx), if_neg hx]
      exact hE

/-- **Along a descent the language and the analysis agree** on `x`, from a node below the
scope owner `o`: the reached node is analyzed, and the language resolves `x` there to `o`
exactly when the analysis resolves it to `s`. By induction on the descent, one step at a time
(`resolve_step`). -/
theorem Descends.resolve_iff (hT : T.Sound) (ho : o ≠ 0) (ha : x ≠ "arguments")
    {pk : Option Kind} {E E' : List Frame} {a m : Node} (hd : Descends x pk E a E' m) :
    ∀ τ, Analyzed T pk a → pk.isSome = true → T.Nested τ [a] → o ∉ a.ids → s ≤ τ →
      (Frame.resolve E x = some o ↔ T.declaring τ x = s) →
      ∃ τ' pk', Inside (fun b => ¬ DirectsTo x b) τ a τ' m ∧ Analyzed T pk' m ∧
        pk'.isSome = true ∧ (Frame.resolve E' x = some o ↔ T.declaring τ' x = s) := by
  induction hd with
  | here => exact fun τ hA hpk _ _ _ hE => ⟨τ, _, .here τ _, hA, hpk, hE⟩
  | @child pk E E' F a c m hdir hc hF hcls hall _ ih =>
    intro τ hA hpk hN hids hsτ hE
    have hid : a.id ≠ o := fun h =>
      hids (h ▸ Node.id_mem_ids_of_occurs (.here τ a) (h ▸ ho))
    obtain ⟨hsτ', hE'⟩ := resolve_step hT ha hA hpk hN hid hsτ hF hcls hall hE
    obtain ⟨-, -, hchildren⟩ := hA
    obtain ⟨τ', pk', hin, hA', hpk', hres⟩ := ih (a.scope.getD τ) (hchildren c hc) rfl
      ((hN.child List.mem_cons_self).of_mem hc)
      (fun h => hids ((Node.ids_sublist_of_mem_children hc).subset h)) hsτ' hE'
    exact ⟨τ', pk', .child hdir hc hin, hA', hpk', hres⟩

end Resolving

/-! ### Dereferencing a signal, against the language -/

/-- Distinct ids in the module as read stay distinct below any node `find` answers. -/
theorem Node.nodup_ids_of_find {root m : Node} {hooks : String} {x : Nat} {q : Place}
    (hids : root.ids.Nodup)
    (hfind : (Session.start root hooks).root.find x Place.top = some (m, q)) : m.ids.Nodup := by
  have hstart : (Session.start root hooks).root.ids = root.ids := ScopeWalk.ids_analyzeScopes root
  exact (hstart ▸ hids).sublist (Node.ids_sublist_of_occurs (Node.occurs_of_find hfind))

/-- **Dereferencing a signal follows the language's scoping.** In a module as read, whose
source ids are distinct, take the node `owner` names, which owns a scope, and a name `x` other
than `arguments` declared there. A successful `derefAt` leaves in the node's place, in the same
scope, a subtree `n'`; and a reference to `x` read from the source, reached from the node by a
descent on which every construct passed lets it see every frame of its own binding `x`, stays
in `n'`, in the same scope, exactly when the language does not resolve it to the node. -/
theorem derefAt_follows_language_scopes {root : Node} {body : List Node} {hooks : String}
    {owner : Nat} {x read write : String} {n : Node} {q : Place} {st' : Session}
    (hm : root.unmarked = true) (hp : root.kind = .program body) (hids : root.ids.Nodup)
    (h0 : owner ≠ 0) (hfind : (Session.start root hooks).root.find owner Place.top = some (n, q))
    (hs : n.scope.isSome = true) (hx : x ∈ n.plain.scopeNames) (hw : write ≠ x)
    (ha : x ≠ "arguments")
    (h : (Rewrite.derefAt owner x read write).run (Session.start root hooks) = .ok ((), st')) :
    ∃ n', Occurs 0 st'.root q.scope n' ∧
      ∀ E E' m, Descends x q.parentKind E n E' m → m.id ≠ 0 → m.kind = .ident x →
        ∃ τ, Inside (fun a => ¬ DirectsTo x a) q.scope n τ m ∧
          (Occurs q.scope n' τ m ↔ Frame.resolve E' x ≠ some owner) := by
  obtain ⟨hA, hN, hroot⟩ := ScopeWalk.analyzed_of_find hm hp hfind
  -- owning a scope, the node pushes frames: below a parent it opens, at the root it is the module
  have hop := hA.pushesFrames hroot hs
  obtain ⟨s, hs⟩ := Option.isSome_iff_exists.1 hs
  obtain ⟨hown, -, hchildren⟩ := hA
  have hT := (ScopeWalk.analyzeScopes_wellScoped hm hp).1
  have hscope : q.scopeOf n = s := by simp [Place.scopeOf, hs]
  have hxs := (hown s hs x).2 hx
  obtain ⟨n', hocc, hnone, hkeep⟩ :=
    derefAt_follows_scopes hm hp hfind (by rw [hscope]; exact hxs) hw h
  rw [hscope] at hnone hkeep hN
  refine ⟨n', hocc, fun E E' m hd hm0 hmx => ?_⟩
  cases hd with
  | here =>
    -- the node opens a scope, which no identifier does
    exact absurd hop (Node.not_pushesFrames_ident (Node.plain_kind_ident hmx) _)
  | @child _ _ _ F _ c _ hdir hc hF hcls hall hrest =>
    have hnid : n.id = owner := Node.id_of_find hfind
    have hnd := Node.nodup_ids_of_find hids hfind
    have hfirst : Frame.resolve (F ++ E) x = some owner := by
      rw [resolve_seen hF hop ha hcls hall, if_pos hx, Node.id_plain, hnid]
    obtain ⟨τ, pk, hin, ⟨-, hmark', -⟩, hpk, hres⟩ := hrest.resolve_iff hT h0 ha s
      (hchildren c hc) rfl (hN.of_mem hc) (hnid ▸ Node.id_not_mem_child hnd (hnid ▸ h0) hc)
      (Nat.le_refl s) (iff_of_true hfirst (Scopes.declaring_of_owns hxs))
    -- a reference opens no scope
    have hms : m.scope = none := (hmark' hpk).2 (Node.opens_ident (Node.plain_kind_ident hmx) _)
    have hin' : Inside (fun a => ¬ DirectsTo x a) q.scope n τ m :=
      .child hdir hc (by rw [hs, Option.getD_some]; exact hin)
    refine ⟨τ, hin', ⟨fun hocc' => ?_, fun hne => ?_⟩⟩
    · have hd := hnone τ m hocc' hm0 hmx
      rw [hms, Option.getD_none] at hd
      exact mt hres.1 hd
    · exact hkeep τ m hin' hmx (by rw [hms, Option.getD_none]; exact mt hres.2 hne)

/-- The module `let a; { let a; a; } a;`, as read. -/
def shadowingBlockModule : Node :=
  .mk 1 ⟨0, 0⟩ none (.program [
    .mk 2 ⟨0, 0⟩ none (.varDecl .let
      [.mk 3 ⟨0, 0⟩ none (.declarator (.mk 4 ⟨0, 0⟩ none (.bindingIdent "a")) none)]),
    .mk 5 ⟨0, 0⟩ none (.block [
      .mk 6 ⟨0, 0⟩ none (.varDecl .let
        [.mk 7 ⟨0, 0⟩ none (.declarator (.mk 8 ⟨0, 0⟩ none (.bindingIdent "a")) none)]),
      .mk 9 ⟨0, 0⟩ none (.exprStmt (.mk 10 ⟨0, 0⟩ none (.ident "a")))]),
    .mk 11 ⟨0, 0⟩ none (.exprStmt (.mk 12 ⟨0, 0⟩ none (.ident "a")))])

theorem derefAt_follows_language_scopes_shadowingBlock :
    ∃ st', (Rewrite.derefAt 1 "a" "_a" "_setA").run (Session.start shadowingBlockModule "") =
        .ok ((), st') ∧
      ∃ n', Occurs 0 st'.root Place.top.scope n' ∧
        ∀ E E' m, Descends "a" Place.top.parentKind E (Session.start shadowingBlockModule "").root
            E' m → m.id ≠ 0 → m.kind = .ident "a" →
          ∃ τ, Inside (fun a => ¬ DirectsTo "a" a) Place.top.scope
              (Session.start shadowingBlockModule "").root τ m ∧
            (Occurs Place.top.scope n' τ m ↔ Frame.resolve E' "a" ≠ some 1) := by
  have hrun : ((Rewrite.derefAt 1 "a" "_a" "_setA").run
      (Session.start shadowingBlockModule "")).toBool = true := by cbv
  cases hr : (Rewrite.derefAt 1 "a" "_a" "_setA").run (Session.start shadowingBlockModule "") with
  | error e =>
    rw [hr] at hrun
    cases hrun
  | ok r =>
    obtain ⟨⟨⟩, st'⟩ := r
    have hm : shadowingBlockModule.unmarked = true := by cbv
    have hfind : (Session.start shadowingBlockModule "").root.find 1 Place.top =
        some ((Session.start shadowingBlockModule "").root, Place.top) := by
      rw [Node.find, if_pos (by rw [ScopeWalk.id_start hm]; rfl)]
    exact ⟨st', rfl, derefAt_follows_language_scopes hm rfl (by cbv; decide) (by decide) hfind
      rfl (by rw [ScopeWalk.plain_start hm]; cbv; exact .head _) (by decide) (by decide) hr⟩

/-- The module `let count; switch (count) { default: let count; }`, as read. -/
def shadowingSwitchModule : Node :=
  .mk 1 ⟨0, 0⟩ none (.program [
    .mk 2 ⟨0, 0⟩ none (.varDecl .let
      [.mk 3 ⟨0, 0⟩ none (.declarator (.mk 4 ⟨0, 0⟩ none (.bindingIdent "count")) none)]),
    .mk 5 ⟨0, 0⟩ none (.switchStmt (.mk 6 ⟨0, 0⟩ none (.ident "count"))
      [.mk 7 ⟨0, 0⟩ none (.switchCase none [.mk 8 ⟨0, 0⟩ none (.varDecl .let
        [.mk 9 ⟨0, 0⟩ none (.declarator (.mk 10 ⟨0, 0⟩ none (.bindingIdent "count")) none)])])])])

/-- A `switch` opens one scope for its discriminant and its cases, where the language
evaluates the discriminant outside the case block. So the discriminant `count`, which refers
to the first declaration, is left as it is when that declaration is dereferenced. -/
theorem derefAt_keeps_switch_discriminant :
    ((Rewrite.derefAt 1 "count" "_count" "_setCount").run
        (Session.start shadowingSwitchModule "")).toOption.map (fun r => r.2.root.print) =
      some "let count;\nswitch (count) \x7b\n  default:\n    let count;\n\x7d\n" := by
  cbv

end SignalSugar
