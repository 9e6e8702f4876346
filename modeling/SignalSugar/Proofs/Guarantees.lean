import SignalSugar.Proofs.LabelExpansion
import SignalSugar.Proofs.AnalysisNames
/-!
# What a transform guarantees of the program it leaves

The facts a user of the transform relies on, drawn from the theory of the rewrites: which label
calls an expansion expands (those read from the source, but not those in the copies a
flattening makes), that every name it hands out is fresh, that no rewrite holds a node read from
the source in two places, and which nodes of the source a rewrite moves under an arrow it builds
(the right sides of the assignments to a signal, which may hold an `await`).

## Main results

* `expandLabels_expands_source_sites`: the count an expansion answers is the number of label
  calls of the program unbound on their scope chain, and every label call read from the source
  that the program left holds was bound where it stood.
* `expandLabels_names_hygienic`: the names an expansion hands out are spelled nowhere in the
  module, are free where they are asked for, and are pairwise distinct.
* `rewrites_keep_sources_unshared`: every operation of a rewrite, and a whole expansion, keeps
  each node read from the source in one place.
* `rewrites_shelter_only_assigned_sides`: a dereferencing pass moves under new arrows only the
  right sides of the assignments to its name; flattening a pattern moves nothing there.

The witnesses run the rewrites on two small modules, each given as the analysis reads it.
-/

namespace SignalSugar

/-- The module `let a = $signal();`, as read. -/
def signalModule : Node :=
  .mk 1 ⟨0, 0⟩ none (.program [
    .mk 2 ⟨0, 0⟩ none (.varDecl .let
      [.mk 3 ⟨0, 0⟩ none (.declarator (.mk 4 ⟨0, 0⟩ none (.bindingIdent "a"))
        (some (.mk 5 ⟨0, 0⟩ none (.call (.mk 6 ⟨0, 0⟩ none (.ident "$signal")) [] false))))])])

theorem tidy_start_signalModule : (Session.start signalModule "").Tidy := by
  have h : (Session.start signalModule "").ids = [1, 2, 3, 4, 5, 6] := by cbv
  rw [Session.Tidy, h]
  decide

set_option maxRecDepth 100000 in
/-- The expansion of the module's one label succeeds. -/
theorem run_expandLabels_signalModule :
    ∃ st', (Rewrite.expandLabels true).run (Session.start signalModule "") = .ok (1, st') := by
  have h : ((Rewrite.expandLabels true).run (Session.start signalModule "")).toOption.map
      Prod.fst = some 1 := by cbv
  cases hr : (Rewrite.expandLabels true).run (Session.start signalModule "") with
  | error e =>
    rw [hr] at h
    cases h
  | ok r =>
    obtain ⟨count, st'⟩ := r
    rw [hr] at h
    obtain rfl : count = 1 := by simpa [Except.toOption] using h
    exact ⟨st', rfl⟩

/-! ### The labels of a module -/


open Rewrite in
/-- **Every label site read from the source is expanded.** From a tidy session over a numbered
program whose helpers are plain, a successful expansion answers the number of sites, which are
the program's label calls bound nowhere on their scope chain, each counted once; and every label
call read from the source that the program it leaves still holds was bound where it stood. Label
calls inside copies are not sites and are left as they are. -/
theorem expandLabels_expands_source_sites {st st' : Session} {verify : Bool} {count : Nat}
    (ht : st.Tidy) (hp : st.Plain) (hnum : st.root.numbered = true)
    (h : (expandLabels verify).run st = .ok (count, st')) :
    ∃ sites, collectSites st.scopes Place.top st.root [] = .ok sites ∧ count = sites.length ∧
      (sites.map Site.call).Nodup ∧
      (∀ i, i ∈ sites.map Site.call ↔ ∃ τ m l, Occurs 0 st.root τ m ∧ m.id = i ∧
        labelOf m = some l ∧ st.scopes.has (m.scope.getD τ) l.text = false) ∧
      ∀ e ∈ st'.root.standings 0 false, e.label = true →
        ∃ τ m l, Occurs 0 st.root τ m ∧ m.id = e.id ∧ labelOf m = some l ∧
          st.scopes.has (m.scope.getD τ) l.text = true := by
  obtain ⟨sites, hsites, rfl, he, hs⟩ := expandLabels_settles hp hnum h
  have hc := collected_top hnum hsites
  have hcalls : ∀ i, i ∈ sites.map Site.call ↔ ∃ τ m l, Occurs 0 st.root τ m ∧ m.id = i ∧
      labelOf m = some l ∧ st.scopes.has (m.scope.getD τ) l.text = false := by
    intro i
    constructor
    · intro hi
      obtain ⟨s, hs', rfl⟩ := List.mem_map.1 hi
      obtain ⟨n, hn, τ, m, hm, hid, hl, hb⟩ := hc.sound s hs'
      rw [List.mem_singleton] at hn
      subst hn
      exact ⟨τ, m, s.label, hm, hid, hl, hb⟩
    · rintro ⟨τ, m, l, hm, rfl, hl, hb⟩
      exact hc.complete st.root List.mem_cons_self τ m l hm hl hb
  refine ⟨sites, hsites, rfl, ?_, hcalls, fun e he' hl => ?_⟩
  · have hsub := hc.sublist
    rw [List.flatMap_singleton] at hsub
    exact hsub.nodup (List.Nodup.of_append_left ht)
  obtain ⟨e₀, he₀, hid, -, hl₀⟩ := he.traced ht e he'
  obtain ⟨τ, m, hm, hmid, hml⟩ := Node.exists_occurs_of_mem_standings 0 st.root he₀
  obtain ⟨l, hl'⟩ := Option.isSome_iff_exists.1 (hml ▸ hl₀ hl)
  refine ⟨τ, m, l, hm, hmid.trans hid, hl', ?_⟩
  cases hb : st.scopes.has (m.scope.getD τ) l.text
  · obtain ⟨s, hs', hcall⟩ := List.mem_map.1 ((hcalls m.id).2 ⟨τ, m, l, hm, rfl, hl', hb⟩)
    have := hs ht s hs' e he' (hid.symm.trans (hmid.symm.trans hcall.symm))
    rw [hl] at this
    cases this
  · rfl

theorem expandLabels_expands_source_sites_signalModule :
    ∃ st', (Rewrite.expandLabels true).run (Session.start signalModule "") = .ok (1, st') ∧
      ∃ sites, collectSites (Session.start signalModule "").scopes Place.top
          (Session.start signalModule "").root [] = .ok sites ∧ 1 = sites.length ∧
        (sites.map Site.call).Nodup ∧
        (∀ i, i ∈ sites.map Site.call ↔ ∃ τ m l, Occurs 0 (Session.start signalModule "").root τ m ∧
          m.id = i ∧ labelOf m = some l ∧
          (Session.start signalModule "").scopes.has (m.scope.getD τ) l.text = false) ∧
        ∀ e ∈ st'.root.standings 0 false, e.label = true →
          ∃ τ m l, Occurs 0 (Session.start signalModule "").root τ m ∧ m.id = e.id ∧
            labelOf m = some l ∧
            (Session.start signalModule "").scopes.has (m.scope.getD τ) l.text = true := by
  obtain ⟨st', hr⟩ := run_expandLabels_signalModule
  exact ⟨st', hr, expandLabels_expands_source_sites tidy_start_signalModule (fun _ he => by cases he)
    (by cbv) hr⟩

/-! ### The names an expansion hands out -/

namespace ScopeWalk

/-- The walk keeps the ids of the nodes, so it keeps a subtree numbered. -/
theorem numbered_walk (parent : Option Kind) (scope hoist : Nat) (n : Node) :
    ∀ t, ((walk parent scope hoist n).run t).1.numbered = n.numbered := by
  induction parent, scope, hoist, n using walk.induct with
  | case1 parent scope hoist n ih =>
  intro t
  rw [run_walk]
  generalize (enter parent scope hoist n).run t = e
  obtain ⟨⟨mark, scope', hoist'⟩, t₁⟩ := e
  obtain ⟨-, hkc, -⟩ := Kind.run_mapChildrenM n.kind
    (fun c _ _ => walk (some n.kind) scope' hoist' c) t₁
  rw [Node.numbered_eq, Node.numbered_eq n, Node.id_mk, Node.kind_mk, hkc]
  congr 1
  have h := StateT.run_mapM_forall₂ (l := n.kind.children)
    (f := fun c => walk (some n.kind) scope' hoist' c.node)
    (fun c b => b.numbered = c.node.numbered) (fun c _ s => ih scope' hoist' c.node c.lt s) t₁
  generalize ((n.kind.children.mapM fun c => walk (some n.kind) scope' hoist' c.node).run t₁).1 = bs
    at h ⊢
  generalize n.kind.children = l at h ⊢
  induction h with
  | nil => rfl
  | cons hb _ ih' => simp [hb, ih']

theorem numbered_analyzeScopes (root : Node) : (analyzeScopes root).1.numbered = root.numbered := by
  rw [analyzeScopes_eq, Node.numbered_eq, Node.id_mk, Node.kind_mk, ← Node.numbered_eq]
  exact numbered_walk none 0 0 root _

end ScopeWalk

/-- Any run of fresh-name requests from the table of a module as read hands out names that are
free where they are asked for, none of them spelled in the module, and no two alike. -/
theorem issues_start_hygienic {root : Node} {body : List Node} {hookSource : String}
    (hm : root.unmarked = true) (hprog : root.kind = .program body) {log : List (Nat × String)}
    {t' : Scopes} (h : (Session.start root hookSource).scopes.Issues log t') :
    (Session.start root hookSource).scopes.HandsOut log t' ∧ (∀ e ∈ log, e.2 ∉ root.spells) ∧
      (log.map Prod.snd).Nodup := by
  have hscopes : (Session.start root hookSource).scopes = (analyzeScopes root).2 := rfl
  obtain ⟨hout, -⟩ := h.handsOut (hscopes ▸ (ScopeWalk.analyzeScopes_wellScoped hm hprog).1)
  refine ⟨hout, fun e he hspell => ?_, hout.nodup⟩
  exact hout.not_mem_names e he (hscopes ▸ ScopeWalk.spells_subset_analyzeScopes root hspell)

open Rewrite in
/-- **The names a label expansion hands out are fresh.** Expanding the labels of a numbered
module as read hands out its names (for accessors, slots, the rest and the helpers' local names)
one request after another (`Scopes.Issues`); each is free where it is asked for, in the table of
that moment: no name of the table and bound nowhere on the scope chain of the request
(`Scopes.HandsOut`). So none is spelled in the module, and no two are the same. The same holds of
any sequence of fresh-name requests, in any scopes, made from the table of the module. -/
theorem expandLabels_names_hygienic {root : Node} {body : List Node} {hookSource : String}
    {verify : Bool} {count : Nat} {st' : Session} (hm : root.unmarked = true)
    (hprog : root.kind = .program body) (hnum : root.numbered = true)
    (h : (expandLabels verify).run (Session.start root hookSource) = .ok (count, st')) :
    (∃ log, (Session.start root hookSource).scopes.Issues log st'.scopes ∧
      (Session.start root hookSource).scopes.HandsOut log st'.scopes ∧
      (∀ e ∈ log, e.2 ∉ root.spells) ∧ (log.map Prod.snd).Nodup) ∧
    ∀ log t', (Session.start root hookSource).scopes.Issues log t' →
      (Session.start root hookSource).scopes.HandsOut log t' ∧
      (∀ e ∈ log, e.2 ∉ root.spells) ∧ (log.map Prod.snd).Nodup := by
  have hnum' : (Session.start root hookSource).root.numbered = true := by
    rw [show (Session.start root hookSource).root = (analyzeScopes root).1 from rfl,
      ScopeWalk.numbered_analyzeScopes, hnum]
  obtain ⟨-, -, -, ⟨X, hadv⟩, -⟩ := expandLabels_settles (fun e he => by cases he) hnum' h
  obtain ⟨log, hlog⟩ := hadv.issues
  exact ⟨⟨log, hlog, issues_start_hygienic hm hprog hlog⟩,
    fun log t' hl => issues_start_hygienic hm hprog hl⟩

theorem expandLabels_names_hygienic_signalModule :
    ∃ st', (Rewrite.expandLabels true).run (Session.start signalModule "") = .ok (1, st') ∧
      (∃ log, (Session.start signalModule "").scopes.Issues log st'.scopes ∧
        (Session.start signalModule "").scopes.HandsOut log st'.scopes ∧
        (∀ e ∈ log, e.2 ∉ signalModule.spells) ∧ (log.map Prod.snd).Nodup) ∧
      ∀ log t', (Session.start signalModule "").scopes.Issues log t' →
        (Session.start signalModule "").scopes.HandsOut log t' ∧
        (∀ e ∈ log, e.2 ∉ signalModule.spells) ∧ (log.map Prod.snd).Nodup := by
  obtain ⟨st', hr⟩ := run_expandLabels_signalModule
  exact ⟨st', hr, expandLabels_names_hygienic (by cbv) rfl (by cbv) hr⟩

/-! ### Nodes read from the source -/

open Rewrite in
/-- **No rewrite holds a node read from the source in two places.** From a tidy session, each
operation a rewrite is made of leaves a tidy session, when it is used as the rewrite uses it:
inserting or putting first a built node, importing a helper, replacing a label call by a call on
its own arguments or a node by a construct built afresh, dereferencing a signal or rewriting the
reads of a binding through plain accessors, flattening a pattern, and expanding all the labels of
a numbered program with plain helpers. A node used twice is copied, and a copy holds no node read
from the source. -/
theorem rewrites_keep_sources_unshared {st : Session} (ht : st.Tidy) :
    (∀ n : Node, n.copy.ids = []) ∧
    (∀ x node after st', node.ids = [] → (insertNear x node after).run st = .ok ((), st') →
      st'.Tidy) ∧
    (∀ statement st', statement.ids = [] → (prepend statement).run st = .ok ((), st') →
      st'.Tidy) ∧
    (∀ name l st', (hook name).run st = .ok (l, st') → st'.Tidy) ∧
    (∀ x c st', x ≠ 0 → Label.ofName? c = none →
      (callArguments x >>= fun args => replace x (.call (identOf c) args false)).run st =
        .ok ((), st') → st'.Tidy) ∧
    (∀ x (k : Kind) st', (k.children.map Child.node).flatMap Node.ids = [] →
      (∀ c args o, k ≠ .call c args o) → (∀ y, k ≠ .ident y) →
      (replace x k).run st = .ok ((), st') → st'.Tidy) ∧
    (∀ owner name read write st', Label.ofName? read = none → Label.ofName? write = none →
      (derefAt owner name read write).run st = .ok ((), st') → st'.Tidy) ∧
    (∀ owner (sub : Substitution) name st', Label.ofName? sub.name = none →
      (normalizeAt owner sub name).run st = .ok ((), st') → st'.Tidy) ∧
    (∀ fuel d source pattern rep st', (destructure fuel d source pattern rep).run st = .ok ((), st') →
      st'.Tidy) ∧
    (∀ verify count st', st.Plain → st.root.numbered = true →
      (expandLabels verify).run st = .ok (count, st') → st'.Tidy) := by
  refine ⟨Node.ids_copy, ?_, ?_, ?_, ?_, ?_, ?_, ?_, ?_, ?_⟩
  · exact fun x node after st' hnode h => ((advances_insertNear [] hnode _ _ _ h).tidy ht).1
  · exact fun statement st' hs h => ((advances_prepend [] hs _ _ _ h).tidy ht).1
  · exact fun name l st' h => ((advances_hook [] name _ _ _ h).tidy ht).1
  · exact fun x c st' hx hc h => ((advances_replaceCall hx hc _ _ _ h).tidy ht).1
  · exact fun x k st' hk hcall hident h =>
      ((advances_replace_built hk hcall hident _ _ _ h).tidy ht).1
  · exact fun owner name read write st' hread hwrite h =>
      ((advances_derefAt hread hwrite h).tidy ht).1
  · exact fun owner sub name st' hsub h => ((advances_normalizeAt hsub _ _ _ h).tidy ht).1
  · exact fun fuel d source pattern rep st' h =>
      ((advances_destructure fuel d source pattern rep _ _ _ h).tidy ht).1
  · intro verify count st' hp hnum h
    obtain ⟨-, -, -, he, -⟩ := expandLabels_settles hp hnum h
    exact he.tidy ht

/-- The module `let a; a = await b;`, as read. -/
def awaitedAssignModule : Node :=
  .mk 1 ⟨0, 0⟩ none (.program [
    .mk 2 ⟨0, 0⟩ none (.varDecl .let
      [.mk 3 ⟨0, 0⟩ none (.declarator (.mk 4 ⟨0, 0⟩ none (.bindingIdent "a")) none)]),
    .mk 5 ⟨0, 0⟩ none (.exprStmt (.mk 6 ⟨0, 0⟩ none
      (.assign .plain (.mk 7 ⟨0, 0⟩ none (.ident "a"))
        (.mk 8 ⟨0, 0⟩ none (.awaitExpr (.mk 9 ⟨0, 0⟩ none (.ident "b")))))))])

open Rewrite in
/-- **A rewrite moves under an arrow it builds only the right sides of the assignments to a
signal.** From a tidy session, every node read from the source that the program left by a
dereferencing pass for `name` holds stands where it stood, with the same nearest ancestor read
from the source, and if an arrow the pass built stands above it, it was under such an arrow
already or it lies in the right side of an assignment to `name`; such a right side, `await`
included, is the body of the arrow handed to the write accessor. Flattening a pattern moves no
node of the source under a new arrow: the accessors it builds read copies. -/
theorem rewrites_shelter_only_assigned_sides {st : Session} (ht : st.Tidy) :
    (∀ owner name read write st', Label.ofName? read = none → Label.ofName? write = none →
      (derefAt owner name read write).run st = .ok ((), st') →
      Traced (st.root.assignedIds name) (st.root.standings 0 false) (st'.root.standings 0 false)) ∧
    (∀ fuel d source pattern rep st', (destructure fuel d source pattern rep).run st = .ok ((), st') →
      Traced [] (st.root.standings 0 false) (st'.root.standings 0 false)) := by
  constructor
  · exact fun owner name read write st' hread hwrite h =>
      ((advances_derefAt hread hwrite h).tidy ht).2
  · exact fun fuel d source pattern rep st' h =>
      ((advances_destructure fuel d source pattern rep _ _ _ h).tidy ht).2

theorem rewrites_shelter_only_assigned_sides_awaitedAssign :
    ∃ st', (Rewrite.derefAt 1 "a" "_a" "_setA").run (Session.start awaitedAssignModule "") =
        .ok ((), st') ∧ (Session.start awaitedAssignModule "").root.assignedIds "a" = [8, 9] ∧
      Traced ((Session.start awaitedAssignModule "").root.assignedIds "a")
        ((Session.start awaitedAssignModule "").root.standings 0 false)
        (st'.root.standings 0 false) := by
  have ht : (Session.start awaitedAssignModule "").Tidy := by
    have h : (Session.start awaitedAssignModule "").ids = [1, 2, 3, 4, 5, 6, 7, 8, 9] := by cbv
    rw [Session.Tidy, h]
    decide
  have hrun : ((Rewrite.derefAt 1 "a" "_a" "_setA").run
      (Session.start awaitedAssignModule "")).toBool = true := by cbv
  cases hr : (Rewrite.derefAt 1 "a" "_a" "_setA").run (Session.start awaitedAssignModule "") with
  | error e =>
    rw [hr] at hrun
    cases hrun
  | ok r =>
    obtain ⟨⟨⟩, st'⟩ := r
    exact ⟨st', rfl, by cbv,
      (rewrites_shelter_only_assigned_sides ht).1 1 "a" "_a" "_setA" st' (by decide) (by decide) hr⟩

end SignalSugar
