import SignalSugar.Transform
import SignalSugar.Proofs.FreshNames
import SignalSugar.Proofs.AnalysisNames
import SignalSugar.Proofs.RewriteRun
/-!
# Runtime helpers are imported once

A rewrite asks for the local name of a runtime helper with `Rewrite.hook`. The first request for
a helper takes a fresh name in the program scope and puts `import { helper as local } from
"<source>";` first in the program; every later request for it answers the same name and
changes nothing.

Along a run of requests the session keeps one shape (`ImportsOnce`): the program is the imports
of the helpers recorded so far, latest first, then the body it started with; each helper is
recorded once, under a name the module did not know at the start, and no two names are alike.
One request keeps that shape (`Rewrite.importsOnce_hook`), so a run of them does
(`Rewrite.run_hooks`), and the record after the run is the run's requests with their answers,
repeats dropped, latest first.

## Main results

* `Rewrite.run_hook_of_lookup`, `Rewrite.run_hook_of_program`: the two ways a request goes.
* `ScopeWalk.importLocals_analyzeScopes`: the names an import of the program binds are names
  of the table the analysis leaves.
* `Rewrite.hooks_import_once`: on a module just read, requests for any helpers answer one
  fresh name per helper and leave one import per helper, in reverse order of first request,
  before the module's own statements, none of which imports those names.
-/

namespace SignalSugar

/-- The import a helper gets: `import { name as l } from "<source>";`. -/
def helperImport (source name l : String) : Node :=
  Node.make (.importDecl [.named name l] source)

/-! ### Lists of helpers and their names -/

section Records

variable {α β : Type} [BEq α] [LawfulBEq α]

/-- Removing the members of `a :: H` is removing those of `H`, then every `a`. -/
theorem removeAll_cons_right (xs : List α) (a : α) (H : List α) :
    xs.removeAll (a :: H) = (xs.removeAll H).filter fun b => !b == a := by
  simp only [List.removeAll, List.filter_filter, List.elem_cons]
  congr 1
  funext b
  cases b == a <;> simp

/-- An entry found by `lookup` is an entry of the list. -/
theorem mem_of_lookup_eq_some {H : List (α × β)} {a : α} {v : β} (h : H.lookup a = some v) :
    (a, v) ∈ H := by
  obtain ⟨l₁, l₂, rfl, -⟩ := List.lookup_eq_some_iff.1 h
  simp

/-- A key of `H` keeps its value behind entries with other keys. -/
theorem lookup_append_of_nodup {X H : List (α × β)} (hnd : ((X ++ H).map Prod.fst).Nodup)
    {a : α} {v : β} (h : H.lookup a = some v) : (X ++ H).lookup a = some v := by
  induction X with
  | nil => exact h
  | cons e X ih =>
    obtain ⟨k, w⟩ := e
    simp only [List.cons_append, List.map_cons, List.nodup_cons] at hnd
    have hne : a ≠ k := by
      rintro rfl
      exact hnd.1 (List.mem_map.2 ⟨(a, v), List.mem_append_right _ (mem_of_lookup_eq_some h), rfl⟩)
    simp [List.lookup_cons, beq_false_of_ne hne, ih hnd.2]

/-- Two keys with the same value are the same key, when no value is repeated. -/
theorem eq_of_lookup_eq_some {H : List (α × β)} (hnd : (H.map Prod.snd).Nodup) {a b : α} {v : β}
    (ha : H.lookup a = some v) (hb : H.lookup b = some v) : a = b := by
  have hpair := List.inj_on_of_nodup_map hnd (mem_of_lookup_eq_some ha)
    (mem_of_lookup_eq_some hb) rfl
  exact (Prod.ext_iff.1 hpair).1

end Records

/-! ### One request -/

namespace Rewrite

variable {st : Session} {name l : String}

/-- A helper imported before answers its local name and changes nothing. -/
theorem run_hook_of_lookup (h : st.hooks.lookup name = some l) :
    (hook name).run st = .ok (l, st) := by
  simp [hook, h]
  rfl

/-- A helper asked for the first time gets a fresh name in the program scope, its import goes
first in the program, and it is recorded with that name. -/
theorem run_hook_of_program {body : List Node} (hl : st.hooks.lookup name = none)
    (hp : st.root.kind = .program body) :
    (hook name).run st = .ok ((st.scopes.generateUid 0 name).2,
      { st with
        scopes := (st.scopes.generateUid 0 name).1
        root := st.root.withKind
          (.program (helperImport st.hookSource name (st.scopes.generateUid 0 name).2 :: body))
        hooks := (name, (st.scopes.generateUid 0 name).2) :: st.hooks }) := by
  simp [hook, hl, uidIn, prepend, hp]
  rfl

end Rewrite

/-- The shape a run of helper requests keeps, from the session `st₀` it started at, whose
program was `body₀`: the program is the imports of the helpers recorded, latest first, then
`body₀`; each helper is recorded once, under a name `st₀` did not know, no two names alike; the
table stays sound, knows every name recorded and every name `st₀` knew. -/
structure ImportsOnce (st₀ : Session) (body₀ : List Node) (st : Session) : Prop where
  root : st.root.kind =
    .program ((st.hooks.map fun e => helperImport st.hookSource e.1 e.2) ++ body₀)
  source : st.hookSource = st₀.hookSource
  keys : (st.hooks.map Prod.fst).Nodup
  locals : (st.hooks.map Prod.snd).Nodup
  fresh : ∀ e ∈ st.hooks, e.2 ∉ st₀.scopes.names
  known : ∀ e ∈ st.hooks, e.2 ∈ st.scopes.names
  names : st₀.scopes.names ⊆ st.scopes.names
  sound : st.scopes.Sound

namespace Rewrite

variable {st₀ st : Session} {body₀ : List Node}

/-- A session with no helper recorded yet is where a run starts. -/
theorem importsOnce_start (hp : st₀.root.kind = .program body₀) (hh : st₀.hooks = [])
    (hs : st₀.scopes.Sound) : ImportsOnce st₀ body₀ st₀ where
  root := by rw [hp, hh]; rfl
  source := rfl
  keys := by simp [hh]
  locals := by simp [hh]
  fresh e he := by simp [hh] at he
  known e he := by simp [hh] at he
  names := List.Subset.refl _
  sound := hs

/-- **One request keeps the shape**: it answers the name recorded for the helper, recording a
fresh one first when there is none. -/
theorem importsOnce_hook (hI : ImportsOnce st₀ body₀ st) (name : String) :
    ∃ l st', (hook name).run st = .ok (l, st') ∧ ImportsOnce st₀ body₀ st' ∧
      st'.hooks.lookup name = some l ∧
      (st.hooks.lookup name = some l ∧ st' = st ∨
        st.hooks.lookup name = none ∧ st'.hooks = (name, l) :: st.hooks) := by
  cases hl : st.hooks.lookup name with
  | some l => exact ⟨l, st, run_hook_of_lookup hl, hI, hl, Or.inl ⟨rfl, rfl⟩⟩
  | none =>
    refine ⟨_, _, run_hook_of_program hl hI.root, ?_, by simp, Or.inr ⟨rfl, rfl⟩⟩
    have hfresh := Scopes.generateUid_fresh hI.sound 0 name
    have hnew : name ∉ st.hooks.map Prod.fst := by
      intro hmem
      obtain ⟨e, he, rfl⟩ := List.mem_map.1 hmem
      have := List.lookup_eq_none_iff.1 hl e he
      simp at this
    exact {
      root := by
        simp only [Node.withKind, Node.kind_mk, List.map_cons, List.cons_append]
      source := hI.source
      keys := List.nodup_cons.2 ⟨hnew, hI.keys⟩
      locals := by
        refine List.nodup_cons.2 ⟨fun hmem => ?_, hI.locals⟩
        obtain ⟨e, he, heq⟩ := List.mem_map.1 hmem
        exact hfresh (heq ▸ hI.known e he)
      fresh := by
        rintro e (_ | ⟨_, he⟩)
        · exact fun h => hfresh (hI.names h)
        · exact hI.fresh e he
      known := by
        rintro e (_ | ⟨_, he⟩)
        · exact Scopes.mem_names_generateUid_self _ _ _
        · exact Scopes.mem_names_generateUid 0 name (hI.known e he)
      names := fun y hy => Scopes.mem_names_generateUid 0 name (hI.names hy)
      sound := hI.sound.generateUid 0 name }

/-- **A run of requests keeps the shape.** Each helper gets the name recorded for it at the
end, and the record is the one at the start with the run's requests and answers put before it:
repeats and helpers recorded before dropped, latest first. -/
theorem run_hooks (hI : ImportsOnce st₀ body₀ st) (helpers : List String) :
    ∃ locals st', (helpers.mapM hook).run st = .ok (locals, st') ∧ ImportsOnce st₀ body₀ st' ∧
      List.Forall₂ (fun h l => st'.hooks.lookup h = some l) helpers locals ∧
      st'.hooks = ((helpers.zip locals).removeAll st.hooks).eraseDups.reverse ++ st.hooks := by
  induction helpers generalizing st with
  | nil => exact ⟨[], st, rfl, hI, .nil, by simp⟩
  | cons name rest ih =>
    obtain ⟨l, st₁, hstep, hI₁, hl₁, hcase⟩ := importsOnce_hook hI name
    obtain ⟨ls, st', hrun, hI', hfor, hhooks⟩ := ih hI₁
    refine ⟨l :: ls, st', ?_, hI', .cons ?_ hfor, ?_⟩
    · rw [List.mapM_cons, run_bind_ok]
      refine ⟨l, st₁, hstep, ?_⟩
      rw [run_bind_ok]
      exact ⟨ls, st', hrun, run_pure_ok.2 ⟨rfl, rfl⟩⟩
    · exact hhooks ▸ lookup_append_of_nodup (hhooks ▸ hI'.keys) hl₁
    · rw [List.zip_cons_cons]
      rcases hcase with ⟨hl, hst⟩ | ⟨hl, hst₁⟩
      · have hdrop : ((name, l) :: rest.zip ls).removeAll st.hooks = (rest.zip ls).removeAll st.hooks := by
          simp [List.removeAll, mem_of_lookup_eq_some hl]
        rw [hhooks, hst, hdrop]
      · have hmem : (name, l) ∉ st.hooks := by
          intro hmem
          have := List.lookup_eq_none_iff.1 hl _ hmem
          simp at this
        have hkeep : ((name, l) :: rest.zip ls).removeAll st.hooks =
            (name, l) :: (rest.zip ls).removeAll st.hooks := by
          simp [List.removeAll, hmem]
        rw [hhooks, hst₁, hkeep, List.eraseDups_cons, ← removeAll_cons_right]
        simp

end Rewrite

/-! ### Imports the module already has -/

namespace ScopeWalk

/-- A construct that is an import once its children are put back was that import. -/
theorem Kind.eq_importDecl_of_setChildren {k : Kind} {ns : List Node} {specs : List ImportSpec}
    {src : String} (h : k.setChildren ns = .importDecl specs src) : k = .importDecl specs src := by
  cases k
  case objectPattern ps r => cases r <;> simp [Kind.setChildren] at h
  case arrayPattern es r => cases r <;> simp [Kind.setChildren] at h
  all_goals simp_all [Kind.setChildren]

/-- Declaring the local names of an import's specifiers makes them names of the table. -/
theorem mem_names_foldl_declare (s : Nat) (specs : List ImportSpec) :
    ∀ (t : Scopes), ∀ sp ∈ specs,
      sp.localName ∈ (specs.foldl (fun t sp => t.declare s sp.localName) t).names := by
  induction specs with
  | nil => intro t sp hsp; cases hsp
  | cons sp₀ specs ih =>
    intro t sp hsp
    rw [List.foldl_cons]
    rcases List.mem_cons.1 hsp with rfl | hsp
    · exact names_subset_foldl_declare s specs _ List.mem_insert_self
    · exact ih _ sp hsp
where
  /-- Declaring only adds names. -/
  names_subset_foldl_declare (s : Nat) (specs : List ImportSpec) (t : Scopes) :
      t.names ⊆ (specs.foldl (fun t sp => t.declare s sp.localName) t).names := by
    induction specs generalizing t with
    | nil => exact List.Subset.refl _
    | cons sp specs ih =>
      exact fun y hy => ih _ (List.mem_insert_iff.2 (Or.inr hy))

/-- The walk of a node ends with every name its own step recorded. -/
theorem names_enter_subset_walk (parent : Option Kind) (scope hoist : Nat) (n : Node)
    (t : Scopes) :
    ((enter parent scope hoist n).run t).2.names ⊆ ((walk parent scope hoist n).run t).2.names := by
  rw [run_walk]
  generalize (enter parent scope hoist n).run t = e
  obtain ⟨⟨mark, scope', hoist'⟩, t₁⟩ := e
  obtain ⟨-, -, hkt⟩ := Kind.run_mapChildrenM n.kind
    (fun c _ _ => walk (some n.kind) scope' hoist' c) t₁
  rw [hkt]
  exact (StateT.run_mapM_along (l := n.kind.children)
    (f := fun c => walk (some n.kind) scope' hoist' c.node) (fun _ => True)
    (fun t t' => t.names ⊆ t'.names)
    (fun _ _ => True) (fun _ => List.Subset.refl _) (fun h h' => List.Subset.trans h h')
    (fun _ _ => trivial) (fun c _ s _ => ⟨trivial, names_subset_walk _ _ _ c.node s, trivial⟩)
    trivial).2.1

/-- A node the walk leaves as an import binds names the table knows after it. -/
theorem importLocals_walk (parent : Option Kind) (scope hoist : Nat) (n : Node) (t : Scopes)
    {specs : List ImportSpec} {src : String}
    (hk : ((walk parent scope hoist n).run t).1.kind = .importDecl specs src) :
    ∀ sp ∈ specs, sp.localName ∈ ((walk parent scope hoist n).run t).2.names := by
  obtain ⟨ns, hns⟩ := kind_walk parent scope hoist n t
  have hn : n.kind = .importDecl specs src := Kind.eq_importDecl_of_setChildren (hns ▸ hk)
  intro sp hsp
  apply names_enter_subset_walk
  have henter : ((enter parent scope hoist n).run t).2 =
      specs.foldl (fun t sp => t.declare scope sp.localName) t := by
    simp only [enter, hn]
    rfl
  rw [henter]
  exact mem_names_foldl_declare scope specs t sp hsp

/-- **The names an import of the program binds are names of its table**: the analysis declares
the local names of every import it passes, and only adds names after. -/
theorem importLocals_analyzeScopes {root : Node} {body : List Node}
    (hp : root.kind = .program body) :
    ∃ body₀, (analyzeScopes root).1.kind = .program body₀ ∧
      ∀ m ∈ body₀, ∀ specs src, m.kind = .importDecl specs src →
        ∀ sp ∈ specs, sp.localName ∈ (analyzeScopes root).2.names := by
  rw [analyzeScopes_eq]
  dsimp only
  rw [run_walk]
  generalize (enter none 0 0 root).run _ = e
  obtain ⟨⟨mark, scope', hoist'⟩, t₁⟩ := e
  obtain ⟨hk, -, hkt⟩ := Kind.run_mapChildrenM root.kind
    (fun c _ _ => walk (some root.kind) scope' hoist' c) t₁
  have hset : ∀ ns, root.kind.setChildren ns = .program ns := fun ns => by rw [hp]; rfl
  refine ⟨_, by rw [Node.kind_mk, Node.kind_mk, hk, hset], ?_⟩
  rw [hkt]
  have hall := StateT.run_mapM_along (l := root.kind.children)
    (f := fun c => walk (some root.kind) scope' hoist' c.node) (fun _ => True)
    (fun t t' => t.names ⊆ t'.names)
    (fun t m => ∀ specs src, m.kind = .importDecl specs src →
      ∀ sp ∈ specs, sp.localName ∈ t.names)
    (fun _ => List.Subset.refl _) (fun h h' => List.Subset.trans h h')
    (fun hG hQ specs src hm sp hsp => hG (hQ specs src hm sp hsp))
    (fun c _ s _ => ⟨trivial, names_subset_walk _ _ _ c.node s,
      fun specs src hm => importLocals_walk _ _ _ c.node s hm⟩) (s := t₁) trivial
  exact hall.2.2

end ScopeWalk

/-! ### Requests on a module just read -/

namespace Rewrite

/-- **Runtime helpers are imported once.** On a module just read, requests for the helpers
`helpers`, one after another, succeed. Two requests get the same name exactly when they ask for
the same helper; no name is one the module knew, nor one its program scope binds. The program is
then one import per helper asked for, in reverse order of first request, followed by the
module's own statements unchanged, none of which imports one of those names. -/
theorem hooks_import_once {root : Node} {body : List Node} (hm : root.unmarked = true)
    (hp : root.kind = .program body) (source : String) (helpers : List String) :
    ∃ body₀ locals st, (Session.start root source).root.kind = .program body₀ ∧
      (helpers.mapM hook).run (Session.start root source) = .ok (locals, st) ∧
      (locals.length = helpers.length ∧
        ∀ e ∈ helpers.zip locals, ∀ e' ∈ helpers.zip locals, e.2 = e'.2 ↔ e.1 = e'.1) ∧
      (∀ l ∈ locals, l ∉ (Session.start root source).scopes.names ∧
        (Session.start root source).scopes.owns 0 l = false) ∧
      st.root.kind = .program
        (((helpers.zip locals).eraseDups.reverse.map fun e => helperImport source e.1 e.2) ++
          body₀) ∧
      ∀ m ∈ body₀, ∀ specs src, m.kind = .importDecl specs src →
        ∀ sp ∈ specs, sp.localName ∉ locals := by
  obtain ⟨hsound, -⟩ := ScopeWalk.analyzeScopes_wellScoped hm hp
  obtain ⟨body₀, hk, himports⟩ := ScopeWalk.importLocals_analyzeScopes hp
  have hI₀ : ImportsOnce (Session.start root source) body₀ (Session.start root source) :=
    importsOnce_start hk rfl hsound
  obtain ⟨locals, st, hrun, hI, hfor, hhooks⟩ := run_hooks hI₀ helpers
  have hrec : st.hooks = (helpers.zip locals).eraseDups.reverse := by
    have hnone : (Session.start root source).hooks = [] := rfl
    simpa [hnone, List.removeAll] using hhooks
  have hfresh : ∀ l ∈ locals, l ∉ (Session.start root source).scopes.names := by
    intro l hl
    obtain ⟨h, -, hlk⟩ := exists_of_forall₂_right hfor hl
    exact hI.fresh _ (mem_of_lookup_eq_some hlk)
  refine ⟨body₀, locals, st, hk, hrun, ⟨hfor.length_eq.symm, ?_⟩, ?_, ?_, ?_⟩
  · intro e he e' he'
    have hl := (List.forall₂_iff_zip.1 hfor).2 he
    have hl' := (List.forall₂_iff_zip.1 hfor).2 he'
    constructor
    · intro h
      exact eq_of_lookup_eq_some hI.locals hl (h ▸ hl')
    · intro h
      rw [h] at hl
      exact Option.some.inj (hl.symm.trans hl')
  · intro l hl
    refine ⟨hfresh l hl, ?_⟩
    cases ho : (Session.start root source).scopes.owns 0 l
    · rfl
    · exact absurd (hsound.mem_of_owns ho) (hfresh l hl)
  · rw [hI.root, hrec, hI.source]
    rfl
  · intro m hm specs src hmk sp hsp hloc
    exact hfresh _ hloc (himports m hm specs src hmk sp hsp)

/-- The module `foo();`, as read. -/
def callModule : Node :=
  .mk 1 ⟨0, 6⟩ none (.program [.mk 2 ⟨0, 6⟩ none
    (.exprStmt (.mk 3 ⟨0, 5⟩ none (.call (.mk 4 ⟨0, 3⟩ none (.ident "foo")) [] false)))])

/-- A helper asked for twice is imported once. -/
example :
    ((["splitProps", "splitProps"].mapM hook).run (Session.start callModule "solid-js")).toOption.map
        (fun r => (r.1, r.2.root.print)) =
      some (["_splitProps", "_splitProps"],
        "import \x7b splitProps as _splitProps \x7d from \"solid-js\";\nfoo();\n") := by
  cbv

theorem hooks_import_once_callModule :
    callModule.unmarked = true ∧
      callModule.kind = .program [.mk 2 ⟨0, 6⟩ none
        (.exprStmt (.mk 3 ⟨0, 5⟩ none (.call (.mk 4 ⟨0, 3⟩ none (.ident "foo")) [] false)))] ∧
      ∃ body₀ locals st, (Session.start callModule "solid-js").root.kind = .program body₀ ∧
        ((["splitProps", "createSignal", "splitProps"].mapM hook).run
          (Session.start callModule "solid-js")) = .ok (locals, st) ∧
        (locals.length = 3 ∧
          ∀ e ∈ ["splitProps", "createSignal", "splitProps"].zip locals,
            ∀ e' ∈ ["splitProps", "createSignal", "splitProps"].zip locals,
              e.2 = e'.2 ↔ e.1 = e'.1) ∧
        (∀ l ∈ locals, l ∉ (Session.start callModule "solid-js").scopes.names ∧
          (Session.start callModule "solid-js").scopes.owns 0 l = false) ∧
        st.root.kind = .program
          (((["splitProps", "createSignal", "splitProps"].zip locals).eraseDups.reverse.map
            fun e => helperImport "solid-js" e.1 e.2) ++ body₀) ∧
        ∀ m ∈ body₀, ∀ specs src, m.kind = .importDecl specs src →
          ∀ sp ∈ specs, sp.localName ∉ locals :=
  ⟨by cbv, rfl, hooks_import_once (by cbv) rfl "solid-js" _⟩

end Rewrite

end SignalSugar
