import SignalSugar.Proofs.Traversal
import SignalSugar.Scope.Analyze
/-!
# The language's environments

The language resolves a name in a chain of environments. This module writes that chain as
frames: going from a construct to one of its children, the language pushes frames, innermost
first, each owned by the construct and binding some names (`Node.frames`):

* a module binds, in one frame, what its statements declare, lexically or by `var`;
* a function binds its parameters (and `arguments`, unless it is an arrow) in one frame, which
  its parameters see, and what its body declares in a second frame, which only its body sees;
  a function expression binds its own name in a third frame outside both; a method's computed
  key sees none of them;
* a class binds its name and what its members declare; loop heads, blocks that are no function
  or `catch` body, and static blocks bind what they declare; a `switch` binds what its cases
  declare, in a frame its discriminant does not see;
* a `catch` clause binds its parameter in a frame its body sees, and its body's declarations in
  a second frame.

A `var` is hoisted to the nearest function, module or static block (`Node.varNames`); a `let`,
`const`, function, class or import binds in the nearest construct pushing frames
(`Node.lexNames`). A name resolves to the owner of the innermost frame binding it
(`Frame.resolve`).

The analysis opens one scope where the language pushes frames, and binds there the names
`Node.scopeNames` gives: the union of the construct's frames' names, except `arguments` and a
class declaration's own name, which it binds outside.

## Main results

* `Frame.resolve_append`: frames pushed by one construct resolve a name they bind to it.
* `Node.mem_frameNames_iff`: a construct's frames bind a name exactly when the scope the
  analysis opens for it does, `arguments` and a class's own name aside.
* `Node.mem_seen_iff`: so do the frames a child sees, when they are all the frames binding it.
-/

namespace SignalSugar

/-! ### Environments -/

/-- A frame of an environment: the id of the construct that pushed it and the names it binds. -/
structure Frame where
  owner : Nat
  names : List String

namespace Frame

/-- The owner of the innermost frame of `E` that binds `x`. -/
def resolve : List Frame → String → Option Nat
  | [], _ => none
  | f :: E, x => if x ∈ f.names then some f.owner else resolve E x

/-- Frames pushed by one construct resolve a name they bind to it, and leave any other name to
the frames outside. -/
theorem resolve_append {F E : List Frame} {o : Nat} (hF : ∀ f ∈ F, f.owner = o) (x : String) :
    resolve (F ++ E) x = if x ∈ F.flatMap names then some o else resolve E x := by
  induction F with
  | nil => simp
  | cons f F ih =>
    have hf : f.owner = o := hF f List.mem_cons_self
    rw [List.cons_append, resolve, ih fun g hg => hF g (List.mem_cons_of_mem f hg), hf]
    by_cases hx : x ∈ f.names <;> simp [hx]

end Frame

/-- What the language pushes at a construct: the frames it makes, and each child with the ones
among them it sees, innermost first. -/
structure Frames where
  made : List Frame
  seen : List (Node × List Frame)

/-! ### What a construct binds -/

namespace Kind

/-- Whether a construct owns the block that is its body: a function's body and a `catch`
clause's body share their frames' owner with it. -/
def bodyOwner : Kind → Bool
  | .funcDecl .. | .funcExpr .. | .arrow .. | .objMethod .. | .classMethod .. | .catchClause .. =>
    true
  | _ => false

/-- Whether a construct is where `var` declarations inside it stop: a function or a static
block. -/
def functionScope : Kind → Bool
  | .funcDecl .. | .funcExpr .. | .arrow .. | .objMethod .. | .classMethod .. | .staticBlock _ =>
    true
  | _ => false

/-- Whether `var` declarations are bound in the construct's frames: a function, a static block
or the module. -/
def bindsVars : Kind → Bool
  | .program _ | .funcDecl .. | .funcExpr .. | .arrow .. | .objMethod .. | .classMethod ..
  | .staticBlock _ => true
  | _ => false

/-- Whether a construct starts a region of its own for lexical declarations inside it. The
module is the outermost region, which no construct stands around. -/
def opensRegion : Kind → Bool
  | .funcDecl .. | .funcExpr .. | .arrow .. | .objMethod .. | .classMethod .. | .staticBlock _
  | .classDecl .. | .classExpr .. | .forStmt .. | .forIn .. | .forOf .. | .switchStmt ..
  | .catchClause .. | .block _ => true
  | _ => false

end Kind

namespace Node

/-- The names a binding pattern binds: a binding identifier's own, the values of an object
pattern's binding properties and its rest, the present elements of an array pattern and its
rest, and the target of a default. -/
def boundNames (p : Node) : List String :=
  match p with
  | .mk _ _ _ (.bindingIdent name) => [name]
  | .mk _ _ _ (.objectPattern props rest) =>
    props.attach.flatMap (fun ⟨q, _⟩ =>
      match q with
      | .mk _ _ _ (.bindingProperty _ v _) => boundNames v
      | _ => []) ++
    match rest with
    | some r => boundNames r
    | none => []
  | .mk _ _ _ (.arrayPattern es rest) =>
    es.attach.flatMap (fun ⟨e, _⟩ =>
      match e with
      | some x => boundNames x
      | none => []) ++
    match rest with
    | some r => boundNames r
    | none => []
  | .mk _ _ _ (.assignPattern l _) => boundNames l
  | .mk _ _ _ (.rest a) => boundNames a
  | _ => []
termination_by p
decreasing_by
  all_goals simp_wf
  all_goals
    first
    | (have h := List.sizeOf_lt_of_mem ‹_›; simp at *; omega)
    | omega

/-- The names a declarator binds. -/
def declaratorNames (d : Node) : List String :=
  match d.kind with
  | .declarator p _ => p.boundNames
  | _ => []

/-- The names a declaration binds lexically where it stands: a `let` or `const` declaration's,
an import's local names, a function or class declaration's name. -/
def declaredLex (n : Node) : List String :=
  match n.kind with
  | .varDecl .var _ => []
  | .varDecl _ ds => ds.flatMap declaratorNames
  | .importDecl specs _ => specs.map ImportSpec.localName
  | .funcDecl name .. | .classDecl name .. => (ScopeWalk.nameOf name).toList
  | _ => []

/-- The names a `var` declaration binds. -/
def declaredVar (n : Node) : List String :=
  match n.kind with
  | .varDecl .var ds => ds.flatMap declaratorNames
  | _ => []

/-- The names a construct binds in the scope it opens before anything inside it: a function's
parameters, a function expression's and a class expression's own name, a `catch` parameter. -/
def ownBindings (n : Node) : List String :=
  match n.kind with
  | .funcDecl _ ps .. | .arrow ps .. | .objMethod _ _ ps .. | .classMethod _ _ _ ps .. =>
    ps.flatMap boundNames
  | .funcExpr name ps .. => (ScopeWalk.nameOf name).toList ++ ps.flatMap boundNames
  | .classExpr name .. => (ScopeWalk.nameOf name).toList
  | .catchClause p _ => p.toList.flatMap boundNames
  | _ => []

/-- The names a subtree declares lexically in the region it stands in, found through every
construct that starts no region of its own. -/
def lexNames (n : Node) : List String :=
  n.declaredLex ++
    if n.kind.opensRegion then [] else n.kind.children.flatMap fun c => lexNames c.node
termination_by sizeOf n
decreasing_by have := c.lt; have := Node.sizeOf_kind_lt n; omega

/-- The names a subtree declares by `var`, found through every construct but functions and
static blocks. -/
def varNames (n : Node) : List String :=
  n.declaredVar ++
    if n.kind.functionScope then [] else n.kind.children.flatMap fun c => varNames c.node
termination_by sizeOf n
decreasing_by have := c.lt; have := Node.sizeOf_kind_lt n; omega

/-- The names the body of a function or a `catch` clause declares lexically: a block body's
statements', or the body's own. -/
def bodyLexNames (n : Node) : List String :=
  match n.kind with
  | .block _ => n.kind.children.flatMap fun c => c.node.lexNames
  | _ => n.lexNames

/-- What a function's body, or one of its parameters, declares in the function's own scope. -/
def ownedNames (n : Node) : List String := n.bodyLexNames ++ n.varNames

/-- The names a child of a construct of kind `pk` declares lexically where the construct's
children stand. -/
def regionLex (pk : Option Kind) (n : Node) : List String :=
  if pk.any Kind.bodyOwner then n.bodyLexNames else n.lexNames

/-- Whether a construct standing under a parent of kind `pk` pushes frames for its children:
functions, classes, loop heads, `switch` statements, `catch` clauses, static blocks, and blocks
that are no function or `catch` body. (The module's frame is pushed at the root.) -/
def opens (pk : Option Kind) (n : Node) : Bool :=
  match n.kind with
  | .block _ => !(pk.any Kind.bodyOwner)
  | k => k.opensRegion

/-- Whether a construct standing under a parent of kind `pk` pushes frames: one that opens a
region there, or the module at the root. -/
def PushesFrames (pk : Option Kind) (n : Node) : Prop :=
  n.opens pk = true ∨ pk = none ∧ ∃ ss, n.kind = .program ss

/-- The frames the language pushes at a construct standing under a parent of kind `pk`. -/
def frames (pk : Option Kind) (n : Node) : Frames :=
  match n.kind with
  | .program ss =>
    let mf : Frame := ⟨n.id, ss.flatMap fun s => s.lexNames ++ s.varNames⟩
    if pk.isNone then ⟨[mf], ss.map (·, [mf])⟩ else ⟨[], ss.map (·, [])⟩
  | .funcDecl name ps b _ =>
    let pf : Frame :=
      ⟨n.id, "arguments" :: ps.flatMap boundNames ++ (name.toList ++ ps).flatMap ownedNames⟩
    let bf : Frame := ⟨n.id, b.ownedNames⟩
    ⟨[bf, pf], (name.toList ++ ps).map (·, [pf]) ++ [(b, [bf, pf])]⟩
  | .funcExpr name ps b _ =>
    let nf : Frame := ⟨n.id, (ScopeWalk.nameOf name).toList⟩
    let pf : Frame :=
      ⟨n.id, "arguments" :: ps.flatMap boundNames ++ (name.toList ++ ps).flatMap ownedNames⟩
    let bf : Frame := ⟨n.id, b.ownedNames⟩
    ⟨[bf, pf, nf], (name.toList ++ ps).map (·, [pf, nf]) ++ [(b, [bf, pf, nf])]⟩
  | .arrow ps b .. =>
    let pf : Frame := ⟨n.id, ps.flatMap boundNames ++ ps.flatMap ownedNames⟩
    let bf : Frame := ⟨n.id, b.ownedNames⟩
    ⟨[bf, pf], ps.map (·, [pf]) ++ [(b, [bf, pf])]⟩
  | .objMethod _ k ps b .. | .classMethod _ k _ ps b .. =>
    let pf : Frame :=
      ⟨n.id, "arguments" :: ps.flatMap boundNames ++ (k.nodes ++ ps).flatMap ownedNames⟩
    let bf : Frame := ⟨n.id, b.ownedNames⟩
    ⟨[bf, pf], k.nodes.map (·, []) ++ ps.map (·, [pf]) ++ [(b, [bf, pf])]⟩
  | .staticBlock ss =>
    let sf : Frame := ⟨n.id, ss.flatMap fun s => s.lexNames ++ s.varNames⟩
    ⟨[sf], ss.map (·, [sf])⟩
  | .classDecl name sup els | .classExpr name sup els =>
    let cs := name.toList ++ sup.toList ++ els
    let cf : Frame := ⟨n.id, (ScopeWalk.nameOf name).toList ++ cs.flatMap lexNames⟩
    ⟨[cf], cs.map (·, [cf])⟩
  | .forStmt i t u b =>
    let cs := i.toList ++ t.toList ++ u.toList ++ [b]
    let lf : Frame := ⟨n.id, cs.flatMap lexNames⟩
    ⟨[lf], cs.map (·, [lf])⟩
  | .forIn l r b | .forOf l r b _ =>
    let lf : Frame := ⟨n.id, [l, r, b].flatMap lexNames⟩
    ⟨[lf], [l, r, b].map (·, [lf])⟩
  | .switchStmt d cases =>
    -- the discriminant stands in the `switch`'s region but is evaluated outside its frame
    let sf : Frame := ⟨n.id, (d :: cases).flatMap lexNames⟩
    ⟨[sf], (d, []) :: cases.map (·, [sf])⟩
  | .catchClause p b =>
    let cpf : Frame := ⟨n.id, p.toList.flatMap fun q => q.boundNames ++ q.bodyLexNames⟩
    let bf : Frame := ⟨n.id, b.bodyLexNames⟩
    ⟨[bf, cpf], p.toList.map (·, [cpf]) ++ [(b, [bf, cpf])]⟩
  | .block ss =>
    let bf : Frame := ⟨n.id, ss.flatMap lexNames⟩
    if pk.any Kind.bodyOwner then ⟨[], ss.map (·, [])⟩ else ⟨[bf], ss.map (·, [bf])⟩
  | k => ⟨[], k.children.map fun c => (c.node, [])⟩

/-- Every name some frame of the construct binds. -/
def frameNames (pk : Option Kind) (n : Node) : List String :=
  (n.frames pk).made.flatMap Frame.names

/-- The names the analysis binds in the scope a construct opens, said in the language's terms:
its own bindings, what its children declare lexically where they stand, and, in a function, a
static block or the module, what they declare by `var`. -/
def scopeNames (n : Node) : List String :=
  n.ownBindings ++ n.kind.children.flatMap (fun c => regionLex (some n.kind) c.node) ++
    if n.kind.bindsVars then n.kind.children.flatMap fun c => c.node.varNames else []

/-- Whether the construct is a class declaration named `x`. -/
def classNamed (n : Node) (x : String) : Prop :=
  ∃ name sup els, n.kind = .classDecl name sup els ∧ ScopeWalk.nameOf name = some x

end Node

/-! ### What a subtree declares where it stands -/

-- Both tables are read off constructor by constructor: each goal either computes to
-- true = true or has a hypothesis computing to false = true.
theorem Kind.opensRegion_of_bodyOwner {k : Kind} (h : k.bodyOwner = true) :
    k.opensRegion = true := by
  cases k <;> first | rfl | cases h

theorem Kind.opensRegion_of_functionScope {k : Kind} (h : k.functionScope = true) :
    k.opensRegion = true := by
  cases k <;> first | rfl | cases h

namespace Node

theorem lexNames_eq (n : Node) :
    n.lexNames = n.declaredLex ++
      if n.kind.opensRegion then [] else (n.kind.children.map Child.node).flatMap lexNames := by
  rw [lexNames, List.flatMap_map]

theorem varNames_eq (n : Node) :
    n.varNames = n.declaredVar ++
      if n.kind.functionScope then [] else (n.kind.children.map Child.node).flatMap varNames := by
  rw [varNames, List.flatMap_map]

theorem bodyLexNames_of_not_block {n : Node} (h : ∀ ss, n.kind ≠ .block ss) :
    n.bodyLexNames = n.lexNames := by
  rw [bodyLexNames]
  split
  · exact absurd ‹_› (h _)
  · rfl

theorem opens_of_not_block {n : Node} (h : ∀ ss, n.kind ≠ .block ss) (pk : Option Kind) :
    n.opens pk = n.kind.opensRegion := by
  rw [opens]
  split
  · exact absurd ‹_› (h _)
  · rfl

/-- A construct's lexical names where it stands are its own declarations and, unless it pushes
frames, what its children declare where they stand. -/
theorem regionLex_eq (pk : Option Kind) (n : Node) :
    n.regionLex pk = n.declaredLex ++
      bif n.opens pk then []
      else (n.kind.children.map Child.node).flatMap (regionLex (some n.kind)) := by
  by_cases hb : ∃ ss, n.kind = .block ss
  · obtain ⟨ss, hk⟩ := hb
    have hlex : n.lexNames = [] := by simp [lexNames_eq, hk, declaredLex, Kind.opensRegion]
    cases hp : pk.any Kind.bodyOwner <;>
      simp [regionLex, opens, bodyLexNames, declaredLex, hk, hp, hlex, Kind.bodyOwner,
        List.flatMap_map]
  · have hb' : ∀ ss, n.kind ≠ .block ss := fun ss h => hb ⟨ss, h⟩
    rw [regionLex, bodyLexNames_of_not_block hb', opens_of_not_block hb', lexNames_eq, ite_self]
    cases hr : n.kind.opensRegion
    · have hbo : n.kind.bodyOwner = false := by
        cases h : n.kind.bodyOwner
        · rfl
        · exact absurd (Kind.opensRegion_of_bodyOwner h) (by simp [hr])
      have hc : regionLex (some n.kind) = lexNames := funext fun c => by simp [regionLex, hbo]
      simp [hc]
    · simp

/-- Functions and static blocks always push frames. -/
theorem opens_of_functionScope {n : Node} (h : n.kind.functionScope = true) (pk : Option Kind) :
    n.opens pk = true := by
  have hb : ∀ ss, n.kind ≠ .block ss := fun ss hk => by simp [hk, Kind.functionScope] at h
  rw [opens_of_not_block hb, Kind.opensRegion_of_functionScope h]

/-- A reference opens no region, nor pushes frames. -/
theorem opens_ident {n : Node} {y : String} (h : n.kind = .ident y) (pk : Option Kind) :
    n.opens pk = false := by
  rw [opens_of_not_block (by simp [h]), h]
  rfl

theorem not_pushesFrames_ident {n : Node} {y : String} (h : n.kind = .ident y)
    (pk : Option Kind) : ¬ n.PushesFrames pk := by
  rintro (hop | ⟨-, ss, hss⟩)
  · rw [opens_ident h] at hop
    cases hop
  · rw [h] at hss
    cases hss

/-- A construct pushing frames binds `var`s exactly when it is a function or a static block: the
module pushes none below the root. -/
theorem bindsVars_of_opens {n : Node} {pk : Option Kind} (h : n.opens pk = true) :
    n.kind.bindsVars = n.kind.functionScope := by
  -- only the module binds `var`s without being a function, and it never pushes frames
  unfold opens at h
  revert h
  cases n.kind <;> first | (intro; rfl) | (intro h; cases h)

theorem scopeNames_eq (n : Node) :
    n.scopeNames = n.ownBindings ++
      (n.kind.children.map Child.node).flatMap (regionLex (some n.kind)) ++
      if n.kind.bindsVars then (n.kind.children.map Child.node).flatMap varNames else [] := by
  rw [scopeNames, List.flatMap_map, List.flatMap_map]

theorem regionLex_some (k : Kind) :
    regionLex (some k) = bif k.bodyOwner then bodyLexNames else lexNames := by
  funext n
  cases h : k.bodyOwner <;> simp [regionLex, h]

theorem ownedNames_eq (n : Node) : n.ownedNames = n.bodyLexNames ++ n.varNames := rfl

theorem mem_flatMap_append {f g : Node → List String} {l : List Node} {x : String} :
    x ∈ l.flatMap (fun a => f a ++ g a) ↔ x ∈ l.flatMap f ∨ x ∈ l.flatMap g := by
  simp only [List.mem_flatMap, List.mem_append, and_or_left, exists_or]

theorem mem_flatMap_ownedNames {l : List Node} {x : String} :
    x ∈ l.flatMap ownedNames ↔ x ∈ l.flatMap bodyLexNames ∨ x ∈ l.flatMap varNames :=
  mem_flatMap_append

/-! ### The frames of a construct -/

/-- Every frame a construct makes is its own. -/
theorem owner_of_mem_made {pk : Option Kind} {n : Node} {f : Frame}
    (hf : f ∈ (n.frames pk).made) : f.owner = n.id := by
  unfold frames at hf
  split at hf <;> (try split at hf) <;> simp at hf <;> (try rcases hf with rfl | rfl | rfl) <;>
    rfl

/-- A child sees only frames the construct makes. -/
theorem mem_made_of_seen {pk : Option Kind} {n c : Node} {F : List Frame} {f : Frame}
    (he : (c, F) ∈ (n.frames pk).seen) (hf : f ∈ F) : f ∈ (n.frames pk).made := by
  unfold frames at he ⊢
  split at he <;> (try split at he) <;> simp at he ⊢ <;> aesop

/-- A construct pushing no frame below a parent makes none. -/
theorem made_of_not_opens {pk : Option Kind} {n : Node} (hop : n.opens pk = false)
    (hpk : pk.isSome = true) : (n.frames pk).made = [] := by
  obtain ⟨k, rfl⟩ := Option.isSome_iff_exists.1 hpk
  unfold frames
  unfold opens at hop
  revert hop
  cases n.kind <;> intro hop
  all_goals first | rfl | cases hop | skip
  case block ss =>
    have hb : k.bodyOwner = true := by simpa using hop
    simp [hb]

/-! ### Frames against scopes -/

/-- **The analysis binds what the language's frames bind.** A construct pushing frames binds in
its frames the names its scope binds, besides `arguments` and a class declaration's own name. -/
theorem mem_frameNames_iff {pk : Option Kind} {n : Node} {x : String}
    (hop : n.PushesFrames pk) (ha : x ≠ "arguments")
    (hc : ¬ n.classNamed x) : x ∈ n.frameNames pk ↔ x ∈ n.scopeNames := by
  unfold frameNames frames
  rw [scopeNames_eq]
  unfold PushesFrames opens at hop
  revert hop
  cases hk : n.kind <;> intro hop
  -- constructs that push no frame stand under a parent, where they open no scope
  all_goals first
    | (rcases hop with h | ⟨-, _, h⟩ <;> cases h; done)
    | skip
  case' program ss =>
    obtain rfl : pk = none := (hop.resolve_left Bool.false_ne_true).1
    simp only [Option.isNone_none, if_true]
  case' block ss =>
    have hb : pk.any Kind.bodyOwner = false := by
      rcases hop with h | ⟨-, _, h⟩
      · simpa using h
      · cases h
    simp only [hb, Bool.false_eq_true, if_false]
  all_goals simp only [ownBindings, hk, Kind.children, List.map_append, Child.node_ofOption,
    Child.node_ofList, Child.node_ofKey, List.map_cons, List.map_nil, Kind.bindsVars,
    regionLex_some, Kind.bodyOwner, cond_true, cond_false, List.flatMap_cons,
    List.flatMap_nil, List.flatMap_append, List.append_nil, List.mem_append, List.mem_cons,
    mem_flatMap_append, mem_flatMap_ownedNames, ownedNames_eq, ite_true, ite_false,
    Bool.false_eq_true, List.not_mem_nil, false_or]
  case classDecl name sup els =>
    have hn : x ∉ (ScopeWalk.nameOf name).toList := fun h =>
      hc ⟨name, sup, els, hk, by simpa using h⟩
    tauto
  all_goals tauto

/-- **A step that sees every frame binding a name agrees with the analysis on it**: the frames
it sees bind the name exactly when the construct's scope does. -/
theorem mem_seen_iff {pk : Option Kind} {n c : Node} {F : List Frame} {x : String}
    (he : (c, F) ∈ (n.frames pk).seen)
    (hop : n.PushesFrames pk) (ha : x ≠ "arguments")
    (hc : ¬ n.classNamed x) (hall : x ∈ n.frameNames pk → x ∈ F.flatMap Frame.names) :
    x ∈ F.flatMap Frame.names ↔ x ∈ n.scopeNames := by
  rw [← mem_frameNames_iff hop ha hc]
  refine ⟨fun hx => ?_, hall⟩
  obtain ⟨f, hf, hxf⟩ := List.mem_flatMap.1 hx
  exact List.mem_flatMap.2 ⟨f, mem_made_of_seen he hf, hxf⟩

end Node

end SignalSugar
