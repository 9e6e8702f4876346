import SignalSugar.Syntax.Node
import Mathlib
/-!
# Traversals of a construct's children

Every pass over a tree rebuilds a node's construct with `Kind.mapChildrenM`, which visits the
children one component at a time: a single child, an optional one, a list, a list with holes
or the expression of a computed key. Proofs about a pass want a flatter view: the children
of the rebuilt construct are the results of the visits, in the order `Kind.children` lists
them.

## Main results

* `Kind.children_mapChildrenM`: the children of the rebuilt construct, as nodes, are what
  visiting `Kind.children` in order gives, in any lawful monad.
* `Child.mapM_ofOption`, `Child.mapM_ofKey`, `Child.mapM_ofHoles`: the same for each kind of
  component, from which the main result is put together.
-/

namespace SignalSugar

/-- The expression of a computed key, as a list. -/
def Key.nodes : Key → List Node
  | .computed e => [e]
  | _ => []

namespace Kind

/-- The node standing for an optional child, taken from the front of `ns`, and the rest. -/
def takeOption : Option Node → List Node → Option Node × List Node
  | none, ns => (none, ns)
  | some c, ns => (some (ns.headD c), ns.tail)

/-- The key with its computed expression taken from the front of `ns`, and the rest. -/
def takeKey : Key → List Node → Key × List Node
  | .computed c, ns => (.computed (ns.headD c), ns.tail)
  | k, ns => (k, ns)

/-- A list with holes whose present entries are taken in order from the front of `ns`. -/
def fillHoles : List (Option Node) → List Node → List (Option Node)
  | [], _ => []
  | none :: xs, ns => none :: fillHoles xs ns
  | some c :: xs, ns => some (ns.headD c) :: fillHoles xs ns.tail

/-- The construct with its children replaced, in the order of `Kind.children`, by the nodes
of `ns`. -/
def setChildren : Kind → List Node → Kind
  | .program _, ns => .program ns
  | .varDecl d _, ns => .varDecl d ns
  | .declarator t i, ns => .declarator (ns.headD t) (takeOption i ns.tail).1
  | .exprStmt e, ns => .exprStmt (ns.headD e)
  | .returnStmt a, ns => .returnStmt (takeOption a ns).1
  | .block _, ns => .block ns
  | .ifStmt t c a, ns => .ifStmt (ns.headD t) (ns.tail.headD c) (takeOption a ns.tail.tail).1
  | .forStmt i t u b, ns =>
    let (i, ns) := takeOption i ns
    let (t, ns) := takeOption t ns
    let (u, ns) := takeOption u ns
    .forStmt i t u (ns.headD b)
  | .forIn l r b, ns => .forIn (ns.headD l) (ns.tail.headD r) (ns.tail.tail.headD b)
  | .forOf l r b w, ns => .forOf (ns.headD l) (ns.tail.headD r) (ns.tail.tail.headD b) w
  | .whileStmt t b, ns => .whileStmt (ns.headD t) (ns.tail.headD b)
  | .doWhile b t, ns => .doWhile (ns.headD b) (ns.tail.headD t)
  | .breakStmt l, _ => .breakStmt l
  | .continueStmt l, _ => .continueStmt l
  | .labeled l b, ns => .labeled l (ns.headD b)
  | .throwStmt a, ns => .throwStmt (ns.headD a)
  | .tryStmt b h f, ns =>
    let (h, tl) := takeOption h ns.tail
    .tryStmt (ns.headD b) h (takeOption f tl).1
  | .catchClause p b, ns =>
    let (p, ns) := takeOption p ns
    .catchClause p (ns.headD b)
  | .switchStmt d _, ns => .switchStmt (ns.headD d) ns.tail
  | .switchCase t _, ns =>
    let (t, ns) := takeOption t ns
    .switchCase t ns
  | .debugger, _ => .debugger
  | .empty, _ => .empty
  | .funcDecl i _ b fl, ns =>
    let (i, ns) := takeOption i ns
    .funcDecl i ns.dropLast (ns.getLastD b) fl
  | .classDecl i s _, ns =>
    let (i, ns) := takeOption i ns
    let (s, ns) := takeOption s ns
    .classDecl i s ns
  | .importDecl sp src, _ => .importDecl sp src
  | .exportDecl d, ns => .exportDecl (ns.headD d)
  | .exportList sp src, _ => .exportList sp src
  | .exportAll e src, _ => .exportAll e src
  | .exportDefault d, ns => .exportDefault (ns.headD d)
  | .classMethod mk k st _ b fl, ns =>
    let (k, ns) := takeKey k ns
    .classMethod mk k st ns.dropLast (ns.getLastD b) fl
  | .classProperty k v st acc, ns =>
    let (k, ns) := takeKey k ns
    .classProperty k (takeOption v ns).1 st acc
  | .staticBlock _, ns => .staticBlock ns
  | .ident n, _ => .ident n
  | .num v, _ => .num v
  | .str v, _ => .str v
  | .bool v, _ => .bool v
  | .nullLit, _ => .nullLit
  | .regex r, _ => .regex r
  | .bigint r, _ => .bigint r
  | .thisExpr, _ => .thisExpr
  | .superExpr, _ => .superExpr
  | .metaProp o p, _ => .metaProp o p
  | .template qs _, ns => .template qs ns
  | .tagged t q, ns => .tagged (ns.headD t) (ns.tail.headD q)
  | .array es, ns => .array (fillHoles es ns)
  | .object _, ns => .object ns
  | .property k v sh, ns =>
    let (k, ns) := takeKey k ns
    .property k (ns.headD v) sh
  | .objMethod mk k _ b fl, ns =>
    let (k, ns) := takeKey k ns
    .objMethod mk k ns.dropLast (ns.getLastD b) fl
  | .spread a, ns => .spread (ns.headD a)
  | .call c _ o, ns => .call (ns.headD c) ns.tail o
  | .newExpr c _, ns => .newExpr (ns.headD c) ns.tail
  | .importCall s o, ns => .importCall (ns.headD s) (takeOption o ns.tail).1
  | .member o p opt, ns => .member (ns.headD o) (takeKey p ns.tail).1 opt
  | .chain e, ns => .chain (ns.headD e)
  | .arrow _ b e a, ns => .arrow ns.dropLast (ns.getLastD b) e a
  | .funcExpr i _ b fl, ns =>
    let (i, ns) := takeOption i ns
    .funcExpr i ns.dropLast (ns.getLastD b) fl
  | .classExpr i s _, ns =>
    let (i, ns) := takeOption i ns
    let (s, ns) := takeOption s ns
    .classExpr i s ns
  | .unary op a, ns => .unary op (ns.headD a)
  | .update op l a, ns => .update op l (ns.headD a)
  | .binary op l r, ns => .binary op (ns.headD l) (ns.tail.headD r)
  | .privateIn n r, ns => .privateIn n (ns.headD r)
  | .logical op l r, ns => .logical op (ns.headD l) (ns.tail.headD r)
  | .assign op l r, ns => .assign op (ns.headD l) (ns.tail.headD r)
  | .cond t c a, ns => .cond (ns.headD t) (ns.tail.headD c) (ns.tail.tail.headD a)
  | .seq _, ns => .seq ns
  | .awaitExpr a, ns => .awaitExpr (ns.headD a)
  | .yieldExpr a d, ns => .yieldExpr (takeOption a ns).1 d
  | .jsxElement n as _ sc, ns => .jsxElement n (ns.take as.length) (ns.drop as.length) sc
  | .jsxFragment _, ns => .jsxFragment ns
  | .jsxAttr n v, ns => .jsxAttr n (takeOption v ns).1
  | .jsxSpreadAttr a, ns => .jsxSpreadAttr (ns.headD a)
  | .jsxContainer e, ns => .jsxContainer (takeOption e ns).1
  | .jsxSpreadChild e, ns => .jsxSpreadChild (ns.headD e)
  | .jsxText r, _ => .jsxText r
  | .bindingIdent n, _ => .bindingIdent n
  | .objectPattern _ none, ns => .objectPattern ns none
  | .objectPattern _ (some r), ns => .objectPattern ns.dropLast (some (ns.getLastD r))
  | .bindingProperty k v sh, ns =>
    let (k, ns) := takeKey k ns
    .bindingProperty k (ns.headD v) sh
  | .arrayPattern es none, ns => .arrayPattern (fillHoles es ns) none
  | .arrayPattern es (some r), ns =>
    .arrayPattern (fillHoles es ns.dropLast) (some (ns.getLastD r))
  | .assignPattern l r, ns => .assignPattern (ns.headD l) (ns.tail.headD r)
  | .rest a, ns => .rest (ns.headD a)

end Kind

section

variable {m : Type → Type} [Monad m] [LawfulMonad m] {parent : Kind}
  {f : (c : Node) → Role → sizeOf c < sizeOf parent → m Node}

theorem Child.mapListM_eq (xs : List Node) (r : Role) (h : sizeOf xs < sizeOf parent) :
    Child.mapListM xs r h f = (Child.ofList xs r h).mapM fun c => f c.node c.role c.lt := by
  simp [Child.mapListM, Child.ofList, List.mapM_map]
  rfl

@[simp] theorem Child.node_ofList (xs : List Node) (r : Role) (h : sizeOf xs < sizeOf parent) :
    (Child.ofList xs r h).map Child.node = xs := by
  simp [Child.ofList]

@[simp] theorem Child.node_ofOption (o : Option Node) (r : Role) (h : sizeOf o < sizeOf parent) :
    (Child.ofOption o r h).map Child.node = o.toList := by
  cases o <;> rfl

theorem Child.mapM_ofOption (o : Option Node) (r : Role) (h : sizeOf o < sizeOf parent) :
    (Child.ofOption o r h).mapM (fun c => f c.node c.role c.lt) =
      Option.toList <$> Child.mapOptionM o r h f := by
  cases o <;> simp [Child.ofOption, Child.mapOptionM]

@[simp] theorem Child.node_ofKey (k : Key) (h : sizeOf k < sizeOf parent) :
    (Child.ofKey k h).map Child.node = k.nodes := by
  cases k <;> rfl

theorem Child.mapM_ofKey (k : Key) (h : sizeOf k < sizeOf parent) :
    (Child.ofKey k h).mapM (fun c => f c.node c.role c.lt) = Key.nodes <$> Child.mapKeyM k h f := by
  cases k <;> simp [Child.ofKey, Child.mapKeyM, Key.nodes]

@[simp] theorem Child.node_ofHoles (xs : List (Option Node)) (r : Role)
    (h : sizeOf xs < sizeOf parent) : (Child.ofHoles xs r h).map Child.node = xs.reduceOption := by
  have flatten_toList : ∀ ys : List (Option Node),
      (ys.map Option.toList).flatten = ys.reduceOption := by
    intro ys
    induction ys with
    | nil => rfl
    | cons o ys ih =>
      cases o <;> simp [ih, List.reduceOption_cons_of_none, List.reduceOption_cons_of_some]
  simpa [Child.ofHoles, Function.comp_def] using flatten_toList xs

theorem Child.mapM_ofHoles (xs : List (Option Node)) (r : Role) (h : sizeOf xs < sizeOf parent) :
    (Child.ofHoles xs r h).mapM (fun c => f c.node c.role c.lt) =
      List.reduceOption <$> Child.mapHolesM xs r h f := by
  suffices ∀ L : List { o // o ∈ xs },
      (L.map fun o => Child.ofOption o.1 r
          (Nat.lt_trans (List.sizeOf_lt_of_mem o.2) h)).flatten.mapM
          (fun c => f c.node c.role c.lt) =
      List.reduceOption <$> L.mapM (fun o => Child.mapOptionM o.1 r
        (Nat.lt_trans (List.sizeOf_lt_of_mem o.2) h) f) by
    simpa [Child.mapHolesM, Child.ofHoles] using this xs.attach
  intro L
  induction L with
  | nil => simp
  | cons o L ih =>
    obtain ⟨o, ho⟩ := o
    cases o with
    | none =>
      simp only [List.mapM_cons, List.map_cons, List.flatten_cons, ih, Child.mapOptionM.eq_1,
        Child.ofOption.eq_1, List.nil_append, map_eq_pure_bind, bind_assoc, pure_bind,
        List.reduceOption_cons_of_none]
    | some c =>
      simp only [List.mapM_cons, List.map_cons, List.flatten_cons, ih, Child.mapOptionM.eq_2,
        Child.ofOption.eq_2, List.cons_append, List.nil_append, map_eq_pure_bind, bind_assoc, pure_bind, List.reduceOption_cons_of_some]

theorem Child.mapOptionM_eq (o : Option Node) (r : Role) (h : sizeOf o < sizeOf parent) :
    Child.mapOptionM o r h f =
      (fun ns => (Kind.takeOption o ns).1) <$> (Child.ofOption o r h).mapM
        fun c => f c.node c.role c.lt := by
  cases o <;> simp [Child.mapOptionM, Child.ofOption, Kind.takeOption]

theorem Child.mapKeyM_eq (k : Key) (h : sizeOf k < sizeOf parent) :
    Child.mapKeyM k h f =
      (fun ns => (Kind.takeKey k ns).1) <$> (Child.ofKey k h).mapM
        fun c => f c.node c.role c.lt := by
  cases k <;> simp [Child.mapKeyM, Child.ofKey, Kind.takeKey]

theorem Child.mapHolesM_eq (xs : List (Option Node)) (r : Role) (h : sizeOf xs < sizeOf parent) :
    Child.mapHolesM xs r h f =
      (fun ns => Kind.fillHoles xs ns) <$> (Child.ofHoles xs r h).mapM
        fun c => f c.node c.role c.lt := by
  suffices ∀ L : List { o // o ∈ xs },
      L.mapM (fun o => Child.mapOptionM o.1 r
        (Nat.lt_trans (List.sizeOf_lt_of_mem o.2) h) f) =
      (fun ns => Kind.fillHoles (L.map Subtype.val) ns) <$>
        (L.map fun o => Child.ofOption o.1 r
          (Nat.lt_trans (List.sizeOf_lt_of_mem o.2) h)).flatten.mapM
          fun c => f c.node c.role c.lt by
    simpa [Child.mapHolesM, Child.ofHoles] using this xs.attach
  intro L
  induction L with
  | nil => simp [Kind.fillHoles]
  | cons o L ih =>
    obtain ⟨o, ho⟩ := o
    cases o with
    | none =>
      simp only [List.mapM_cons, List.map_cons, List.flatten_cons, ih, Child.mapOptionM.eq_1,
        Child.ofOption.eq_1, Kind.fillHoles, List.nil_append, map_eq_pure_bind, bind_assoc,
        pure_bind]
    | some c =>
      simp only [List.mapM_cons, List.map_cons, List.flatten_cons, ih, Child.mapOptionM.eq_2,
        Child.ofOption.eq_2, Kind.fillHoles, List.cons_append, List.nil_append, map_eq_pure_bind,
        bind_assoc, pure_bind, List.headD_cons, List.tail_cons]

end

/-- Two computations that agree whenever the first result has the length of `l` agree after
mapping over `l`. -/
theorem List.mapM_bind_congr_length {m : Type → Type} [Monad m] [LawfulMonad m] {α β γ : Type}
    {f : α → m β} {g g' : List β → m γ} :
    ∀ (l : List α), (∀ r : List β, r.length = l.length → g r = g' r) →
      l.mapM f >>= g = l.mapM f >>= g'
  | [], h => by simpa using h [] rfl
  | a :: l, h => by
    simp only [List.mapM_cons, bind_assoc, pure_bind]
    congr 1
    funext b
    exact List.mapM_bind_congr_length l fun r hr => h (b :: r) (by simp [hr])

/-- Rebuilding a construct visits its children in the order `Kind.children` lists them, and
the rebuilt construct's children are the nodes the visits answered. -/
theorem Kind.children_mapChildrenM {m : Type → Type} [Monad m] [LawfulMonad m] (k : Kind)
    (f : (c : Node) → Role → sizeOf c < sizeOf k → m Node) :
    (fun k' => k'.children.map Child.node) <$> k.mapChildrenM f =
      k.children.mapM fun c => f c.node c.role c.lt := by
  cases k <;> (try simp only [Kind.mapChildrenM, map_bind, map_pure, Functor.map_map]) <;>
    (try simp only [Kind.children, List.map_cons, List.map_nil, List.map_append, List.mapM_cons,
      List.mapM_nil, List.mapM_append, Child.node_ofList, Child.node_ofOption, Child.node_ofKey,
      Child.node_ofHoles]) <;>
    (try simp [Child.mapListM_eq, Child.mapM_ofOption, Child.mapM_ofKey, Child.mapM_ofHoles,
      List.append_assoc])
  case classDecl n s b =>
    cases n <;> cases s <;> simp [Child.mapOptionM]
  case classExpr n s b =>
    cases n <;> cases s <;> simp [Child.mapOptionM]

-- one list of unfoldings serves every constructor; each uses part of it
set_option linter.unusedSimpArgs false in
/-- Rebuilding a construct is putting the visits' answers back in the order `Kind.children`
lists the children. -/
theorem Kind.mapChildrenM_eq {m : Type → Type} [Monad m] [LawfulMonad m] (k : Kind)
    (f : (c : Node) → Role → sizeOf c < sizeOf k → m Node) :
    k.mapChildrenM f = (fun ns => k.setChildren ns) <$> k.children.mapM
      fun c => f c.node c.role c.lt := by
  cases k <;> try (simp [Kind.mapChildrenM, Kind.children, Kind.setChildren, Child.mapListM_eq,
    Child.mapOptionM_eq, Child.mapKeyM_eq, Child.mapHolesM_eq, List.mapM_append]; done)
  case forStmt i t u b =>
    cases i <;> cases t <;> cases u <;> simp [Kind.mapChildrenM, Kind.children, Kind.setChildren, Child.mapOptionM_eq,
      Child.mapKeyM_eq, Child.mapListM_eq, Child.mapHolesM_eq, List.mapM_append, Child.ofOption,
      Child.ofKey, Kind.takeOption, Kind.takeKey]
  case tryStmt b h fin =>
    cases h <;> simp [Kind.mapChildrenM, Kind.children, Kind.setChildren, Child.mapOptionM_eq,
      Child.mapKeyM_eq, Child.mapListM_eq, Child.mapHolesM_eq, List.mapM_append, Child.ofOption,
      Child.ofKey, Kind.takeOption, Kind.takeKey]
  case catchClause p b =>
    cases p <;> simp [Kind.mapChildrenM, Kind.children, Kind.setChildren, Child.mapOptionM_eq,
      Child.mapKeyM_eq, Child.mapListM_eq, Child.mapHolesM_eq, List.mapM_append, Child.ofOption,
      Child.ofKey, Kind.takeOption, Kind.takeKey]
  case switchCase t cs =>
    cases t <;> simp [Kind.mapChildrenM, Kind.children, Kind.setChildren, Child.mapOptionM_eq,
      Child.mapKeyM_eq, Child.mapListM_eq, Child.mapHolesM_eq, List.mapM_append, Child.ofOption,
      Child.ofKey, Kind.takeOption, Kind.takeKey]
  case funcDecl i ps b fl =>
    cases i <;> simp [Kind.mapChildrenM, Kind.children, Kind.setChildren, Child.mapOptionM_eq,
      Child.mapKeyM_eq, Child.mapListM_eq, Child.mapHolesM_eq, List.mapM_append, Child.ofOption,
      Child.ofKey, Kind.takeOption, Kind.takeKey]
  case classDecl i sc b =>
    cases i <;> cases sc <;> simp [Kind.mapChildrenM, Kind.children, Kind.setChildren, Child.mapOptionM_eq,
      Child.mapKeyM_eq, Child.mapListM_eq, Child.mapHolesM_eq, List.mapM_append, Child.ofOption,
      Child.ofKey, Kind.takeOption, Kind.takeKey]
  case classMethod mk k st ps b fl =>
    cases k <;> simp [Kind.mapChildrenM, Kind.children, Kind.setChildren, Child.mapOptionM_eq,
      Child.mapKeyM_eq, Child.mapListM_eq, Child.mapHolesM_eq, List.mapM_append, Child.ofOption,
      Child.ofKey, Kind.takeOption, Kind.takeKey]
  case classProperty k v st acc =>
    cases k <;> simp [Kind.mapChildrenM, Kind.children, Kind.setChildren, Child.mapOptionM_eq,
      Child.mapKeyM_eq, Child.mapListM_eq, Child.mapHolesM_eq, List.mapM_append, Child.ofOption,
      Child.ofKey, Kind.takeOption, Kind.takeKey]
  case property k v sh =>
    cases k <;> simp [Kind.mapChildrenM, Kind.children, Kind.setChildren, Child.mapOptionM_eq,
      Child.mapKeyM_eq, Child.mapListM_eq, Child.mapHolesM_eq, List.mapM_append, Child.ofOption,
      Child.ofKey, Kind.takeOption, Kind.takeKey]
  case objMethod mk k ps b fl =>
    cases k <;> simp [Kind.mapChildrenM, Kind.children, Kind.setChildren, Child.mapOptionM_eq,
      Child.mapKeyM_eq, Child.mapListM_eq, Child.mapHolesM_eq, List.mapM_append, Child.ofOption,
      Child.ofKey, Kind.takeOption, Kind.takeKey]
  case funcExpr i ps b fl =>
    cases i <;> simp [Kind.mapChildrenM, Kind.children, Kind.setChildren, Child.mapOptionM_eq,
      Child.mapKeyM_eq, Child.mapListM_eq, Child.mapHolesM_eq, List.mapM_append, Child.ofOption,
      Child.ofKey, Kind.takeOption, Kind.takeKey]
  case classExpr i sc b =>
    cases i <;> cases sc <;> simp [Kind.mapChildrenM, Kind.children, Kind.setChildren, Child.mapOptionM_eq,
      Child.mapKeyM_eq, Child.mapListM_eq, Child.mapHolesM_eq, List.mapM_append, Child.ofOption,
      Child.ofKey, Kind.takeOption, Kind.takeKey]
  case objectPattern ps r =>
    cases r <;> simp [Kind.mapChildrenM, Kind.children, Kind.setChildren, Child.mapOptionM_eq,
      Child.mapKeyM_eq, Child.mapListM_eq, Child.mapHolesM_eq, List.mapM_append, Child.ofOption,
      Child.ofKey, Kind.takeOption, Kind.takeKey]
  case bindingProperty k v sh =>
    cases k <;> simp [Kind.mapChildrenM, Kind.children, Kind.setChildren, Child.mapOptionM_eq,
      Child.mapKeyM_eq, Child.mapListM_eq, Child.mapHolesM_eq, List.mapM_append, Child.ofOption,
      Child.ofKey, Kind.takeOption, Kind.takeKey]
  case arrayPattern es r =>
    cases r <;> simp [Kind.mapChildrenM, Kind.children, Kind.setChildren, Child.mapOptionM_eq,
      Child.mapKeyM_eq, Child.mapListM_eq, Child.mapHolesM_eq, List.mapM_append, Child.ofOption,
      Child.ofKey, Kind.takeOption, Kind.takeKey]
  case jsxElement n as cs sc =>
    simp only [Kind.mapChildrenM, Kind.children, Child.mapListM_eq, List.mapM_append,
      map_eq_pure_bind, bind_assoc, pure_bind]
    apply List.mapM_bind_congr_length
    intro r hr
    congr 1
    funext r'
    simp only [Child.ofList, List.length_map, List.length_attach] at hr
    simp [Kind.setChildren, hr]

/-- Putting children back never turns a construct into a reference. -/
theorem Kind.setChildren_ne_ident {k : Kind} (hk : ∀ y, k ≠ .ident y) (ns : List Node) (y : String) :
    k.setChildren ns ≠ .ident y := by
  cases k
  case objectPattern ps r => cases r <;> simp [Kind.setChildren]
  case arrayPattern es r => cases r <;> simp [Kind.setChildren]
  all_goals simp_all [Kind.setChildren]

/-- A construct that is a reference once its children are put back was that reference. -/
theorem Kind.eq_ident_of_setChildren {k : Kind} {ns : List Node} {y : String}
    (h : k.setChildren ns = .ident y) : k = .ident y := by
  cases k
  case ident z => simpa [Kind.setChildren] using h
  all_goals exact absurd h (Kind.setChildren_ne_ident (by simp) ns y)

/-! ### Putting children back

`Kind.children` and `Kind.setChildren` read and write the same components in the same order,
so they obey the laws of a lens: putting back the children read changes nothing, the children
read after putting some back are those put back, and a second put overrides the first. Each
law holds once the number of nodes put back is the number of children; it is checked
constructor by constructor, with the optional children and the keys split first so that the
number of nodes each component takes is known.
-/

theorem List.dropLast_append_getLast?_getD {α : Type} (a : α) (l : List α) (x : α) :
    (a :: l).dropLast ++ [(a :: l).getLast?.getD x] = a :: l := by
  obtain ⟨y, hy⟩ := Option.isSome_iff_exists.1 (List.getLast?_isSome.2 (List.cons_ne_nil a l))
  rw [hy, Option.getD_some]
  exact List.dropLast_append_getLast? y hy

namespace Kind

theorem fillHoles_reduceOption (es : List (Option Node)) : fillHoles es es.reduceOption = es := by
  induction es with
  | nil => rfl
  | cons e es ih =>
    cases e with
    | none => simp only [List.reduceOption_cons_of_none, fillHoles, ih]
    | some c =>
      simp only [List.reduceOption_cons_of_some, fillHoles, List.headD_cons, List.tail_cons, ih]

theorem reduceOption_fillHoles (es : List (Option Node)) (ns : List Node)
    (hn : ns.length = es.reduceOption.length) : (fillHoles es ns).reduceOption = ns := by
  induction es generalizing ns with
  | nil => simp_all [fillHoles]
  | cons e es ih =>
    cases e with
    | none =>
      rw [List.reduceOption_cons_of_none] at hn
      simp only [fillHoles, List.reduceOption_cons_of_none, ih ns hn]
    | some c =>
      rw [List.reduceOption_cons_of_some, List.length_cons] at hn
      obtain ⟨m, ns, rfl⟩ := List.exists_cons_of_length_pos (show 0 < ns.length by omega)
      rw [List.length_cons] at hn
      simp only [fillHoles, List.headD_cons, List.tail_cons, List.reduceOption_cons_of_some,
        ih ns (by omega)]

theorem fillHoles_fillHoles (es : List (Option Node)) (ns ms : List Node)
    (hm : es.reduceOption.length ≤ ms.length) : fillHoles (fillHoles es ns) ms = fillHoles es ms := by
  induction es generalizing ns ms with
  | nil => rfl
  | cons e es ih =>
    cases e with
    | none =>
      rw [List.reduceOption_cons_of_none] at hm
      simp only [fillHoles, ih ns ms hm]
    | some c =>
      rw [List.reduceOption_cons_of_some, List.length_cons] at hm
      obtain ⟨m, ms, rfl⟩ := List.exists_cons_of_length_pos (show 0 < ms.length by omega)
      rw [List.length_cons] at hm
      simp only [fillHoles, List.headD_cons, List.tail_cons, ih ns.tail ms (by omega)]

/-- Putting back the children read changes nothing. -/
theorem setChildren_self (k : Kind) : k.setChildren (k.children.map Child.node) = k := by
  cases k
  case' declarator _ i => cases i
  case' returnStmt a => cases a
  case' ifStmt _ _ a => cases a
  case' forStmt i t u _ => cases i <;> cases t <;> cases u
  case' tryStmt _ h f => cases h <;> cases f
  case' catchClause p _ => cases p
  case' switchCase t _ => cases t
  case' funcDecl i _ _ _ => cases i
  case' classDecl i s _ => cases i <;> cases s
  case' classMethod _ k _ _ _ _ => cases k
  case' classProperty k v _ _ => cases k <;> cases v
  case' property k _ _ => cases k
  case' objMethod _ k _ _ _ => cases k
  case' importCall _ o => cases o
  case' member _ p _ => cases p
  case' funcExpr i _ _ _ => cases i
  case' classExpr i s _ => cases i <;> cases s
  case' yieldExpr a _ => cases a
  case' jsxAttr _ v => cases v
  case' jsxContainer e => cases e
  case' objectPattern _ r => cases r
  case' bindingProperty k _ _ => cases k
  case' arrayPattern _ r => cases r
  all_goals
    simp [setChildren, children, takeOption, takeKey, Key.nodes, fillHoles_reduceOption]

/-- The children read after putting some back are those put back. -/
theorem children_setChildren (k : Kind) {ns : List Node}
    (hn : ns.length = (k.children.map Child.node).length) :
    (k.setChildren ns).children.map Child.node = ns := by
  cases k
  case' declarator _ i => cases i
  case' returnStmt a => cases a
  case' ifStmt _ _ a => cases a
  case' forStmt i t u _ => cases i <;> cases t <;> cases u
  case' tryStmt _ h f => cases h <;> cases f
  case' catchClause p _ => cases p
  case' switchCase t _ => cases t
  case' funcDecl i _ _ _ => cases i
  case' classDecl i s _ => cases i <;> cases s
  case' classMethod _ k _ _ _ _ => cases k
  case' classProperty k v _ _ => cases k <;> cases v
  case' property k _ _ => cases k
  case' objMethod _ k _ _ _ => cases k
  case' importCall _ o => cases o
  case' member _ p _ => cases p
  case' funcExpr i _ _ _ => cases i
  case' classExpr i s _ => cases i <;> cases s
  case' yieldExpr a _ => cases a
  case' jsxAttr _ v => cases v
  case' jsxContainer e => cases e
  case' objectPattern _ r => cases r
  case' bindingProperty k _ _ => cases k
  case' arrayPattern _ r => cases r
  all_goals
    simp only [children, Child.node_ofList, Child.node_ofOption, Child.node_ofKey,
      Child.node_ofHoles, List.map_cons, List.map_append, List.map_nil, Option.toList_some,
      Option.toList_none, Key.nodes, List.length_cons, List.length_append, List.length_nil,
      List.cons_append, List.nil_append] at hn
  case array es =>
    simp only [setChildren, children, Child.node_ofHoles]
    exact reduceOption_fillHoles es ns hn
  case arrayPattern.none es =>
    simp only [setChildren, children, Child.node_ofHoles, List.map_append, Child.node_ofOption,
      Option.toList_none, List.append_nil]
    exact reduceOption_fillHoles es ns hn
  case arrayPattern.some es r =>
    obtain ⟨m, ns, rfl⟩ := List.exists_cons_of_length_pos (show 0 < ns.length by omega)
    simp only [setChildren, children, Child.node_ofHoles, List.map_append, Child.node_ofOption,
      Option.toList_some]
    rw [reduceOption_fillHoles es _ (by simp at hn ⊢; omega), List.getLastD_eq_getLast?]
    exact List.dropLast_append_getLast?_getD m ns r
  case jsxElement n as cs sc =>
    simp only [setChildren, children, List.map_append, Child.node_ofList]
    exact List.take_append_drop _ _
  all_goals
    (rcases ns with _ | ⟨m₁, _ | ⟨m₂, _ | ⟨m₃, _ | ⟨m₄, ns⟩⟩⟩⟩) <;> (try (simp at hn; done)) <;>
    simp_all [setChildren, children, takeOption, takeKey, Key.nodes,
      List.dropLast_append_getLast?_getD]

set_option maxHeartbeats 400000 in
/-- A second put overrides the first. -/
theorem setChildren_setChildren (k : Kind) {ns ms : List Node}
    (hn : ns.length = (k.children.map Child.node).length)
    (hm : ms.length = (k.children.map Child.node).length) :
    (k.setChildren ns).setChildren ms = k.setChildren ms := by
  cases k
  case' declarator _ i => cases i
  case' returnStmt a => cases a
  case' ifStmt _ _ a => cases a
  case' forStmt i t u _ => cases i <;> cases t <;> cases u
  case' tryStmt _ h f => cases h <;> cases f
  case' catchClause p _ => cases p
  case' switchCase t _ => cases t
  case' funcDecl i _ _ _ => cases i
  case' classDecl i s _ => cases i <;> cases s
  case' classMethod _ k _ _ _ _ => cases k
  case' classProperty k v _ _ => cases k <;> cases v
  case' property k _ _ => cases k
  case' objMethod _ k _ _ _ => cases k
  case' importCall _ o => cases o
  case' member _ p _ => cases p
  case' funcExpr i _ _ _ => cases i
  case' classExpr i s _ => cases i <;> cases s
  case' yieldExpr a _ => cases a
  case' jsxAttr _ v => cases v
  case' jsxContainer e => cases e
  case' objectPattern _ r => cases r
  case' bindingProperty k _ _ => cases k
  case' arrayPattern _ r => cases r
  all_goals
    simp only [children, Child.node_ofList, Child.node_ofOption, Child.node_ofKey,
      Child.node_ofHoles, List.map_cons, List.map_append, List.map_nil, Option.toList_some,
      Option.toList_none, Key.nodes, List.length_cons, List.length_append, List.length_nil,
      List.cons_append, List.nil_append] at hm hn
  case array es =>
    simp only [setChildren]
    rw [fillHoles_fillHoles es ns ms (by omega)]
  case arrayPattern.none es =>
    simp only [setChildren]
    rw [fillHoles_fillHoles es ns ms (by omega)]
  case arrayPattern.some es r =>
    obtain ⟨m, ms, rfl⟩ := List.exists_cons_of_length_pos (show 0 < ms.length by omega)
    simp only [setChildren, List.getLastD_cons]
    rw [fillHoles_fillHoles es ns.dropLast _ (by simp at hm ⊢; omega)]
  case jsxElement n as cs sc =>
    simp only [setChildren, List.length_take]
    rw [Nat.min_eq_left (by omega)]
  all_goals
    (rcases ms with _ | ⟨m₁, _ | ⟨m₂, _ | ⟨m₃, _ | ⟨m₄, ms⟩⟩⟩⟩) <;> (try (simp at hm; done)) <;>
    simp only [setChildren, takeOption, takeKey, List.headD_cons, List.tail_cons,
      List.getLastD_cons]

end Kind

end SignalSugar
