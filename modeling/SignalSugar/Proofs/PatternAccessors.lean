import SignalSugar.Proofs.Declarations
/-!
# The accessors and partitions of a pattern

A destructuring declaration `let P = s` is flattened into one accessor declarator per slot of
the pattern `P` and of every pattern nested in it, and one partition declarator per pattern.
This module says what they are, apart from the rewrite that builds them:

* `Node.Flattenable`: the patterns the flattening takes apart. An object or array pattern whose
  slots are names or nested patterns, either of them with a default, and whose rest, if any,
  binds a name.
* `Rewrite.Flattens helper s P accs parts σ`: the pattern `P` read from `s` gives the accessor
  declarators `accs`, in the order of the slots with each nested pattern's accessors right after
  the accessor of its slot; the partition declarators `parts`, the pattern's own first, then, for
  its nested patterns from the last to the first, the partitions each of them gives; and the
  respelling `σ` that sends each name the pattern binds to its accessor or partition.

An accessor is `() => s.k` for a static key, `() => s["k"]` when the key is no identifier,
`() => s[e]` for a computed key and `() => s[i]` for the slot at index `i`, each reading a copy of
`s`; with a default it is `() => { const v = s.k; return v == null ? d : v; }`. A nested pattern
is read from the call of its slot's accessor. The partition of a pattern with keys is
`helper(s, [keys])[1]`, and a copy of `s` when it has none.

The respellings of the parts of a pattern keep its shape: a respelled pattern has the same slots,
with respelled keys, defaults and nested patterns (`Node.Respelled.objectPattern` and its
neighbours).
-/

namespace SignalSugar

/-! ### Flattenable patterns -/

mutual

/-- A pattern the flattening takes apart: an object pattern whose properties are
`Node.FlattenableProperty`, or an array pattern whose present slots are
`Node.FlattenableSlot`, in either case with at most a rest element binding a name. -/
inductive Node.Flattenable : Node → Prop
  | object {P : Node} {props : List Node} {rest : Option Node} :
      P.kind = .objectPattern props rest → (∀ q ∈ props, Node.FlattenableProperty q) →
      (∀ r ∈ rest, ∃ a y, r.kind = .rest a ∧ a.kind = .bindingIdent y) → Node.Flattenable P
  | array {P : Node} {elems : List (Option Node)} {rest : Option Node} :
      P.kind = .arrayPattern elems rest → (∀ v, some v ∈ elems → Node.FlattenableSlot v) →
      (∀ r ∈ rest, ∃ a y, r.kind = .rest a ∧ a.kind = .bindingIdent y) → Node.Flattenable P

/-- A property of an object pattern with a static or computed key and a flattenable slot. -/
inductive Node.FlattenableProperty : Node → Prop
  | mk {q v : Node} {key : Key} {shorthand : Bool} :
      q.kind = .bindingProperty key v shorthand → (∀ name, key ≠ .privateName name) →
      Node.FlattenableSlot v → Node.FlattenableProperty q

/-- A slot of a pattern: a name or a nested pattern, either of them with a default. -/
inductive Node.FlattenableSlot : Node → Prop
  | name {v : Node} {x : String} : v.kind = .bindingIdent x → Node.FlattenableSlot v
  | nested {v : Node} : Node.Flattenable v → Node.FlattenableSlot v
  | defaultName {v l r : Node} {x : String} :
      v.kind = .assignPattern l r → l.kind = .bindingIdent x → Node.FlattenableSlot v
  | defaultNested {v l r : Node} :
      v.kind = .assignPattern l r → Node.Flattenable l → Node.FlattenableSlot v

end

/-! ### Respelled patterns keep their shape -/

/-- A list related to an append is an append of related lists. -/
theorem List.Forall₂.append_left_inv {α β : Type} {R : α → β → Prop} :
    ∀ {l₁ l₂ : List α} {m : List β}, List.Forall₂ R (l₁ ++ l₂) m →
      ∃ m₁ m₂, m = m₁ ++ m₂ ∧ List.Forall₂ R l₁ m₁ ∧ List.Forall₂ R l₂ m₂
  | [], _, m, h => ⟨[], m, rfl, .nil, h⟩
  | _ :: _, _, _ :: _, .cons hab h =>
    let ⟨m₁, m₂, he, h₁, h₂⟩ := append_left_inv h
    ⟨_ :: m₁, m₂, he ▸ rfl, .cons hab h₁, h₂⟩

/-- The entries of a list with holes, related to a list, fill the holes of a related list. -/
theorem List.Forall₂.fillHoles {R : Node → Node → Prop} :
    ∀ {es : List (Option Node)} {ns : List Node}, List.Forall₂ R es.reduceOption ns →
      List.Forall₂ (Option.Rel R) es (Kind.fillHoles es ns)
  | [], _, _ => .nil
  | none :: es, ns, h => .cons .none (fillHoles (by simpa [List.reduceOption_cons_of_none] using h))
  | some e :: es, ns, h => by
    rw [List.reduceOption_cons_of_some] at h
    cases h with
    | cons hab h => exact .cons (.some hab) (fillHoles h)

/-- A key respelled: a computed key has its expression respelled, any other key stays. -/
inductive Key.Respelled (σ : List (String × Substitution)) : Key → Key → Prop
  | refl (k : Key) : Key.Respelled σ k k
  | computed {e e' : Node} : Node.Respelled σ e e' → Key.Respelled σ (.computed e) (.computed e')

namespace Node.Respelled

variable {σ : List (String × Substitution)} {a b : Node}

/-- A binding name holds no reference: its respellings are itself. -/
theorem bindingIdent (h : Respelled σ a b) {x : String} (ha : a.kind = .bindingIdent x) : b = a := by
  obtain ⟨ns, rfl, hns⟩ := h.inv (by simp [ha])
  rw [ha] at hns
  simp only [Kind.children, List.map_nil, List.forall₂_nil_left_iff] at hns
  subst hns
  rw [ha, Kind.setChildren, ← ha, withKind_kind_self]

theorem objectPattern (h : Respelled σ a b) {ps : List Node} {r : Option Node}
    (ha : a.kind = .objectPattern ps r) :
    ∃ ps' r', b.kind = .objectPattern ps' r' ∧ List.Forall₂ (Respelled σ) ps ps' ∧
      Option.Rel (Respelled σ) r r' := by
  obtain ⟨ns, rfl, hns⟩ := h.inv (by simp [ha])
  rw [ha] at hns ⊢
  simp only [Kind.children, List.map_append, Child.node_ofList, Child.node_ofOption] at hns
  cases r with
  | none => exact ⟨ns, none, by simp [Kind.setChildren], by simpa using hns, .none⟩
  | some r =>
    obtain ⟨ns₁, ns₂, rfl, h₁, h₂⟩ := List.Forall₂.append_left_inv hns
    obtain ⟨r', hr, rfl⟩ : ∃ r', Respelled σ r r' ∧ ns₂ = [r'] := by
      cases h₂ with
      | cons hr hnil => exact ⟨_, hr, by cases hnil; rfl⟩
    exact ⟨ns₁, some r', by simp [Kind.setChildren], h₁, .some hr⟩

theorem arrayPattern (h : Respelled σ a b) {es : List (Option Node)} {r : Option Node}
    (ha : a.kind = .arrayPattern es r) :
    ∃ es' r', b.kind = .arrayPattern es' r' ∧ List.Forall₂ (Option.Rel (Respelled σ)) es es' ∧
      Option.Rel (Respelled σ) r r' := by
  obtain ⟨ns, rfl, hns⟩ := h.inv (by simp [ha])
  rw [ha] at hns ⊢
  simp only [Kind.children, List.map_append, Child.node_ofHoles, Child.node_ofOption] at hns
  cases r with
  | none =>
    exact ⟨Kind.fillHoles es ns, none, by simp [Kind.setChildren],
      List.Forall₂.fillHoles (by simpa using hns), .none⟩
  | some r =>
    obtain ⟨ns₁, ns₂, rfl, h₁, h₂⟩ := List.Forall₂.append_left_inv hns
    obtain ⟨r', hr, rfl⟩ : ∃ r', Respelled σ r r' ∧ ns₂ = [r'] := by
      cases h₂ with
      | cons hr hnil => exact ⟨_, hr, by cases hnil; rfl⟩
    exact ⟨Kind.fillHoles es ns₁, some r', by simp [Kind.setChildren],
      List.Forall₂.fillHoles h₁, .some hr⟩

theorem bindingProperty (h : Respelled σ a b) {k : Key} {v : Node} {sh : Bool}
    (ha : a.kind = .bindingProperty k v sh) :
    ∃ k' v', b.kind = .bindingProperty k' v' sh ∧ Key.Respelled σ k k' ∧ Respelled σ v v' := by
  obtain ⟨ns, rfl, hns⟩ := h.inv (by simp [ha])
  rw [ha] at hns ⊢
  simp only [Kind.children, List.map_append, Child.node_ofKey, List.map_cons, List.map_nil] at hns
  cases k with
  | computed e =>
    rcases hns with _ | ⟨he, _ | ⟨hv, hnil⟩⟩
    cases hnil
    exact ⟨_, _, by simp [Kind.setChildren, Kind.takeKey], .computed he, hv⟩
  | named name =>
    rcases hns with _ | ⟨hv, hnil⟩
    cases hnil
    exact ⟨_, _, by simp [Kind.setChildren, Kind.takeKey], .refl _, hv⟩
  | privateName name =>
    rcases hns with _ | ⟨hv, hnil⟩
    cases hnil
    exact ⟨_, _, by simp [Kind.setChildren, Kind.takeKey], .refl _, hv⟩

theorem assignPattern (h : Respelled σ a b) {l r : Node} (ha : a.kind = .assignPattern l r) :
    ∃ l' r', b.kind = .assignPattern l' r' ∧ Respelled σ l l' ∧ Respelled σ r r' := by
  obtain ⟨ns, rfl, hns⟩ := h.inv (by simp [ha])
  rw [ha] at hns ⊢
  simp only [Kind.children, List.map_cons, List.map_nil] at hns
  rcases hns with _ | ⟨hl, _ | ⟨hr, hnil⟩⟩
  cases hnil
  exact ⟨_, _, by simp [Kind.setChildren], hl, hr⟩

theorem rest (h : Respelled σ a b) {x : Node} (ha : a.kind = .rest x) :
    ∃ x', b.kind = .rest x' ∧ Respelled σ x x' := by
  obtain ⟨ns, rfl, hns⟩ := h.inv (by simp [ha])
  rw [ha] at hns ⊢
  simp only [Kind.children, List.map_cons, List.map_nil] at hns
  rcases hns with _ | ⟨hx, hnil⟩
  cases hnil
  exact ⟨_, by simp [Kind.setChildren], hx⟩

/-- A built construct with its children respelled is a respelling of the built construct. -/
theorem make {k k' : Kind} {l : List Node} (hk : k' = k.setChildren l)
    (h : List.Forall₂ (Respelled σ) (k.children.map Child.node) l) :
    Respelled σ (Node.make k) (Node.make k') := by
  subst hk
  exact congr h

theorem varDecl (h : Respelled σ a b) {kd : DeclKind} {ds : List Node}
    (ha : a.kind = .varDecl kd ds) :
    ∃ ds', b = a.withKind (.varDecl kd ds') ∧ List.Forall₂ (Respelled σ) ds ds' := by
  obtain ⟨ns, rfl, hns⟩ := h.inv (by simp [ha])
  rw [ha] at hns ⊢
  simp only [Kind.children, Child.node_ofList] at hns
  exact ⟨ns, rfl, hns⟩

end Node.Respelled

namespace Rewrite

/-! ### What a pattern flattens into -/

/-- The declarator `name = init`. -/
def declaratorOf (name : String) (init : Node) : Node :=
  Node.make (.declarator (bindingOf name) (some init))

/-- The key literal and the read of one property of `object`: `object.k`, or `object["k"]` when
`k` is no identifier, for a static key; `object[e]` for a computed one, with a copy of `e` as
the key. A private name keys no property of a pattern. -/
def keyAccess (object : Node) : Key → Option (Node × Node)
  | .named name => some (Node.make (.str name), memberOf object name)
  | .computed e => some (e.copy, Node.make (.member object (.computed e.copy) false))
  | .privateName _ => none

/-- The read of the slot at index `i` of `object`. -/
def indexAccess (object : Node) (i : Nat) : Node :=
  Node.make (.member object (.computed (indexLiteral i)) false)

/-- What is left of `src` once `helper` has split the keys off, or a copy of `src` when there
are no keys. -/
def partitionOf (helper : String) (src : Node) (keys : List Node) : Node :=
  if keys.isEmpty then src.copy
  else Node.make (.member (callOf helper [src.copy, Node.make (.array (keys.map some))])
    (.computed (indexLiteral 1)) false)

/-- The respelling a pattern's rest gives: its name becomes the partition `other`. -/
inductive RestRespelling (other : String) : Option Node → List (String × Substitution) → Prop
  | none : RestRespelling other none []
  | some {r a : Node} {y : String} : r.kind = .rest a → a.kind = .bindingIdent y →
      RestRespelling other (some r) [(y, .reference other)]

mutual

/-- `Flattens helper src P accs parts σ`: the pattern `P`, read from `src`, flattens into the
accessor declarators `accs` and the partition declarators `parts`, and its names are respelled
by `σ`. The pattern's own partition comes first in `parts`; it names what the keys of the
pattern leave of `src`, and the rest of the pattern, if any, reads it. -/
inductive Flattens (helper : String) :
    Node → Node → List Node → List Node → List (String × Substitution) → Prop
  | object {src P : Node} {props : List Node} {rest : Option Node} {keys accs parts : List Node}
      {σ τ : List (String × Substitution)} {other : String} :
      P.kind = .objectPattern props rest → FlattensProps helper src props keys accs parts σ →
      RestRespelling other rest τ →
      Flattens helper src P accs (declaratorOf other (partitionOf helper src keys) :: parts)
        (σ ++ τ)
  | array {src P : Node} {elems : List (Option Node)} {rest : Option Node}
      {keys accs parts : List Node} {σ τ : List (String × Substitution)} {other : String} :
      P.kind = .arrayPattern elems rest → FlattensElems helper src 0 elems keys accs parts σ →
      RestRespelling other rest τ →
      Flattens helper src P accs (declaratorOf other (partitionOf helper src keys) :: parts)
        (σ ++ τ)

/-- The properties of an object pattern read from `src`, with their keys: the accessors follow
the properties' order, and the partitions of a later property come before those of an earlier
one. -/
inductive FlattensProps (helper : String) :
    Node → List Node → List Node → List Node → List Node → List (String × Substitution) → Prop
  | nil (src : Node) : FlattensProps helper src [] [] [] [] []
  | cons {src q v keyNode access : Node} {key : Key} {shorthand : Bool}
      {qs keys accs parts accs' parts' : List Node} {σ σ' : List (String × Substitution)} :
      q.kind = .bindingProperty key v shorthand →
      keyAccess src.copy key = some (keyNode, access) →
      FlattensSlot helper access v accs parts σ →
      FlattensProps helper src qs keys accs' parts' σ' →
      FlattensProps helper src (q :: qs) (keyNode :: keys) (accs ++ accs') (parts' ++ parts)
        (σ ++ σ')

/-- The slots of an array pattern read from `src`, the first of them at index `i`: a hole has
no accessor and no key, but counts. -/
inductive FlattensElems (helper : String) :
    Node → Nat → List (Option Node) → List Node → List Node → List Node →
      List (String × Substitution) → Prop
  | nil (src : Node) (i : Nat) : FlattensElems helper src i [] [] [] [] []
  | hole {src : Node} {i : Nat} {es : List (Option Node)} {keys accs parts : List Node}
      {σ : List (String × Substitution)} :
      FlattensElems helper src (i + 1) es keys accs parts σ →
      FlattensElems helper src i (none :: es) keys accs parts σ
  | cons {src : Node} {i : Nat} {v : Node} {es : List (Option Node)} {keys accs parts accs' parts' : List Node}
      {σ σ' : List (String × Substitution)} :
      FlattensSlot helper (indexAccess src.copy i) v accs parts σ →
      FlattensElems helper src (i + 1) es keys accs' parts' σ' →
      FlattensElems helper src i (some v :: es) (indexLiteral i :: keys) (accs ++ accs')
        (parts' ++ parts) (σ ++ σ')

/-- One slot, read by `access`: its accessor, and after it the accessors of the pattern nested
in it, read from a call of that accessor. -/
inductive FlattensSlot (helper : String) :
    Node → Node → List Node → List Node → List (String × Substitution) → Prop
  | name {access v : Node} {x prop : String} : v.kind = .bindingIdent x →
      FlattensSlot helper access v [declaratorOf prop (accessorOf access none)] []
        [(x, .invoke prop)]
  | nested {access v : Node} {prop : String} {accs parts : List Node}
      {σ : List (String × Substitution)} :
      Flattens helper (callOf prop []) v accs parts σ →
      FlattensSlot helper access v (declaratorOf prop (accessorOf access none) :: accs) parts σ
  | defaultName {access v l r : Node} {x prop value : String} :
      v.kind = .assignPattern l r → l.kind = .bindingIdent x →
      FlattensSlot helper access v [declaratorOf prop (accessorOf access (some (r, value)))] []
        [(x, .invoke prop)]
  | defaultNested {access v l r : Node} {prop value : String} {accs parts : List Node}
      {σ : List (String × Substitution)} :
      v.kind = .assignPattern l r → Flattens helper (callOf prop []) l accs parts σ →
      FlattensSlot helper access v
        (declaratorOf prop (accessorOf access (some (r, value))) :: accs) parts σ

end

/-! ### The pieces respelled -/

/-- The holes of a list without holes are filled in order. -/
theorem fillHoles_map_some : ∀ {ks ks' : List Node}, ks'.length = ks.length →
    Kind.fillHoles (ks.map some) ks' = ks'.map some
  | [], [], _ => rfl
  | _ :: _, _ :: _, h => by
    simp only [List.map_cons, Kind.fillHoles, List.headD_cons, List.tail_cons]
    rw [fillHoles_map_some (by simpa using h)]

section Pieces

variable {σ : List (String × Substitution)} {o o' a a' d d' : Node}

theorem respelled_memberOf (h : Node.Respelled σ o o') (name : String) :
    Node.Respelled σ (memberOf o name) (memberOf o' name) := by
  unfold memberOf
  split
  · exact .make (l := [o']) (by simp [Kind.setChildren, Kind.takeKey])
      (by simpa [Kind.children, Key.nodes] using h)
  · exact .make (l := [o', Node.make (.str name)]) (by simp [Kind.setChildren, Kind.takeKey])
      (by simpa [Kind.children, Key.nodes] using ⟨h, .refl _ _⟩)

theorem respelled_indexAccess (h : Node.Respelled σ o o') (i : Nat) :
    Node.Respelled σ (indexAccess o i) (indexAccess o' i) :=
  .make (l := [o', indexLiteral i]) (by simp [Kind.setChildren, Kind.takeKey])
    (by simpa [Kind.children, Key.nodes] using ⟨h, .refl _ _⟩)

theorem respelled_keyAccess {k k' : Key} (hk : Key.Respelled σ k k') (h : Node.Respelled σ o o')
    {kn ac : Node} (he : keyAccess o k = some (kn, ac)) :
    ∃ kn' ac', keyAccess o' k' = some (kn', ac') ∧ Node.Respelled σ kn kn' ∧
      Node.Respelled σ ac ac' := by
  cases hk with
  | refl k =>
    cases k with
    | named name =>
      cases he
      exact ⟨_, _, rfl, .refl _ _, respelled_memberOf h name⟩
    | computed e =>
      cases he
      exact ⟨_, _, rfl, .refl _ _, .make (l := [o', e.copy])
        (by simp [Kind.setChildren, Kind.takeKey])
        (by simpa [Kind.children, Key.nodes] using ⟨h, .refl _ _⟩)⟩
    | privateName name => cases he
  | @computed e e' he' =>
    cases he
    exact ⟨_, _, rfl, he'.copy, .make (l := [o', e'.copy])
      (by simp [Kind.setChildren, Kind.takeKey])
      (by simpa [Kind.children, Key.nodes] using ⟨h, he'.copy⟩)⟩

theorem respelled_accessorOf_none (h : Node.Respelled σ a a') :
    Node.Respelled σ (accessorOf a none) (accessorOf a' none) :=
  .make (l := [a']) (by simp [Kind.setChildren]) (by simpa [Kind.children] using h)

theorem respelled_declaratorOf (h : Node.Respelled σ a a') (name : String) :
    Node.Respelled σ (declaratorOf name a) (declaratorOf name a') :=
  .make (l := [bindingOf name, a']) (by simp [Kind.setChildren, Kind.takeOption])
    (by simpa [Kind.children] using ⟨.refl _ _, h⟩)

theorem respelled_accessorOf_some (h : Node.Respelled σ a a') (hd : Node.Respelled σ d d')
    (value : String) :
    Node.Respelled σ (accessorOf a (some (d, value))) (accessorOf a' (some (d', value))) := by
  let test := Node.make (.binary .eq (identOf value) (Node.make .nullLit))
  have hdecl : Node.Respelled σ (Node.make (.varDecl .const [declaratorOf value a]))
      (Node.make (.varDecl .const [declaratorOf value a'])) :=
    .make (l := [declaratorOf value a']) (by simp [Kind.setChildren])
      (by simpa [Kind.children] using respelled_declaratorOf h value)
  have hchoice : Node.Respelled σ (Node.make (.cond test d.copy (identOf value)))
      (Node.make (.cond test d'.copy (identOf value))) :=
    .make (l := [test, d'.copy, identOf value]) (by simp [Kind.setChildren])
      (by simpa [Kind.children] using ⟨.refl _ _, hd.copy, .refl _ _⟩)
  have hret : Node.Respelled σ (returnOf (Node.make (.cond test d.copy (identOf value))))
      (returnOf (Node.make (.cond test d'.copy (identOf value)))) :=
    .make (l := [Node.make (.cond test d'.copy (identOf value))])
      (by simp [Kind.setChildren, Kind.takeOption]) (by simpa [Kind.children] using hchoice)
  have hblock : Node.Respelled σ
      (Node.make (.block [Node.make (.varDecl .const [declaratorOf value a]),
        returnOf (Node.make (.cond test d.copy (identOf value)))]))
      (Node.make (.block [Node.make (.varDecl .const [declaratorOf value a']),
        returnOf (Node.make (.cond test d'.copy (identOf value)))])) :=
    .make (l := [Node.make (.varDecl .const [declaratorOf value a']),
        returnOf (Node.make (.cond test d'.copy (identOf value)))]) (by simp [Kind.setChildren])
      (by simpa [Kind.children] using ⟨hdecl, hret⟩)
  exact .make (l := [Node.make (.block [Node.make (.varDecl .const [declaratorOf value a']),
      returnOf (Node.make (.cond test d'.copy (identOf value)))])])
    (by simp [Kind.setChildren, declaratorOf, test]) (by simpa [Kind.children, declaratorOf] using hblock)


theorem respelled_partitionOf (helper : String) (h : Node.Respelled σ o o') {keys keys' : List Node}
    (hk : List.Forall₂ (Node.Respelled σ) keys keys') :
    Node.Respelled σ (partitionOf helper o keys) (partitionOf helper o' keys') := by
  unfold partitionOf
  cases keys with
  | nil =>
    cases hk
    exact h.copy
  | cons k ks =>
    obtain ⟨k', ks', hk', hks, rfl⟩ := List.forall₂_cons_left_iff.1 hk
    have harr : Node.Respelled σ (Node.make (.array ((k :: ks).map some)))
        (Node.make (.array ((k' :: ks').map some))) :=
      .make (l := k' :: ks') (by
        rw [Kind.setChildren, fillHoles_map_some (by simpa using hks.length_eq.symm)])
        (by simpa [Kind.children, List.reduceOption] using List.Forall₂.cons hk' hks)
    have hcall : Node.Respelled σ (callOf helper [o.copy, Node.make (.array ((k :: ks).map some))])
        (callOf helper [o'.copy, Node.make (.array ((k' :: ks').map some))]) :=
      .make (l := [identOf helper, o'.copy, Node.make (.array ((k' :: ks').map some))])
        (by simp [Kind.setChildren, identOf])
        (by simpa [Kind.children] using ⟨.refl _ _, h.copy, harr⟩)
    exact .make (l := [callOf helper [o'.copy, Node.make (.array ((k' :: ks').map some))],
        indexLiteral 1]) (by simp [Kind.setChildren, Kind.takeKey])
      (by simpa [Kind.children, Key.nodes] using ⟨hcall, .refl _ _⟩)

end Pieces

end Rewrite

end SignalSugar
