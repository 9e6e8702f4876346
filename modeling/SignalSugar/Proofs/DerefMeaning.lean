import SignalSugar.Semantics.Evaluation
import SignalSugar.Proofs.DerefStep
import SignalSugar.Proofs.AnalysisNames
import SignalSugar.Proofs.ScopeAnalysis
import SignalSugar.Proofs.Locate
import SignalSugar.Transform
/-!
# What dereferencing a signal means

Dereferencing the signal `x` turns its reads into calls of the reader, its assignments into
calls of the writer with an updater, and its updates `++`/`--` into updaters or a closure
that reads, writes and answers the old value. This module shows that the rewritten
expression does what the source does, for the expressions built from names and literals by
operators, conditionals, sequences, assignments and updates of names (`Node.Simple`).

The source runs with `x` a variable of the memory; the rewritten expression runs with the
accessors bound to the signal's reader and writer (`Binds`), the signal's cell standing for
`x`. The two runs answer the same value and leave memories that mirror each other
(`Mirrors`): the cell holds what `x` holds, every other variable holds the same, and the two
traces list the same accesses to the other variables in the same order.

One difference is allowed for by a hypothesis: an update `++`/`--` converts the value it finds
to a numeric one first, and its rewrite computes with the value as it is. The two agree when
the value is a number (`UpdatesNumbers`); on a string they do not (`derefAt_updates_strings`).

## Main results

* `DerefForm.simulates`: the rewritten shape of an expression does what the expression does.
* `derefWalk_simple`: the walk of a simple expression in the signal's scope succeeds and
  answers its rewritten shape.
* `derefAt_exprStmt_meaning`: dereferencing the signal of the module `e;` answers a module
  `e';` whose expression does what `e` does. `derefAt_preserves_meaning` carries it to a
  simple expression anywhere in a module.
-/

namespace SignalSugar

/-! ### The expressions -/

/-- Expressions built from names and literals by unary, binary and logical operators,
conditionals and sequences, and by assignments (plain, compound and logical) and updates
`++`/`--` of names. -/
inductive Node.Simple : Node → Prop
  | ident {i s o y} : Simple (.mk i s o (.ident y))
  | literal {i s o k} : k.isLiteral = true → Simple (.mk i s o k)
  | unary {i s o op a} : Simple a → Simple (.mk i s o (.unary op a))
  | binary {i s o op a b} : Simple a → Simple b → Simple (.mk i s o (.binary op a b))
  | logical {i s o op a b} : Simple a → Simple b → Simple (.mk i s o (.logical op a b))
  | cond {i s o t c a} : Simple t → Simple c → Simple a → Simple (.mk i s o (.cond t c a))
  | seq {i s o es} : (∀ a ∈ es, Simple a) → Simple (.mk i s o (.seq es))
  | assign {i s o op i' s' o' y r} : Simple r →
      Simple (.mk i s o (.assign op (.mk i' s' o' (.ident y)) r))
  | update {i s o op leading i' s' o' y} :
      Simple (.mk i s o (.update op leading (.mk i' s' o' (.ident y))))

section Spells

variable {i : Nat} {s : Span} {o : Option Nat} {k : Kind}

theorem Node.spells_subset_of_child {c : Node} (hc : c ∈ k.children.map Child.node) :
    c.spells ⊆ (Node.mk i s o k).spells := by
  obtain ⟨c', hc', rfl⟩ := List.mem_map.1 hc
  conv_rhs => rw [Node.spells]
  exact List.subset_append_of_subset_right _ fun y hy => List.mem_flatMap.2 ⟨c', hc', hy⟩

theorem Node.mem_spells_ident (y : String) : y ∈ (Node.mk i s o (.ident y)).spells := by
  rw [Node.spells]
  simp [Node.spelling]

end Spells

/-! ### The rewritten shape -/

section Form

variable (x : String) (acc : Accessors) (taken : List String)

/-- `DerefForm x acc taken e e'`: `e'` is `e` with the signal `x` dereferenced through the
accessors `acc`, the parameter of each updater a name outside `taken`. A read of `x` calls
the reader; an assignment to `x` calls the writer with an updater; an update of `x` is
`updateOf`. Every other construct keeps its place. -/
inductive DerefForm : Node → Node → Prop
  | literal {i s o k} : k.isLiteral = true → DerefForm (.mk i s o k) (.mk i s o k)
  | name {i s o y} : y ≠ x → DerefForm (.mk i s o (.ident y)) (.mk i s o (.ident y))
  | read {i s o} :
      DerefForm (.mk i s o (.ident x)) (.mk i s o (.call (identOf acc.read) [] false))
  | unary {i s o op a a'} : DerefForm a a' →
      DerefForm (.mk i s o (.unary op a)) (.mk i s o (.unary op a'))
  | binary {i s o op a a' b b'} : DerefForm a a' → DerefForm b b' →
      DerefForm (.mk i s o (.binary op a b)) (.mk i s o (.binary op a' b'))
  | logical {i s o op a a' b b'} : DerefForm a a' → DerefForm b b' →
      DerefForm (.mk i s o (.logical op a b)) (.mk i s o (.logical op a' b'))
  | cond {i s o t t' c c' a a'} : DerefForm t t' → DerefForm c c' → DerefForm a a' →
      DerefForm (.mk i s o (.cond t c a)) (.mk i s o (.cond t' c' a'))
  | seq {i s o es es'} : es.length = es'.length →
      (∀ a a', (a, a') ∈ es.zip es' → DerefForm a a') →
      DerefForm (.mk i s o (.seq es)) (.mk i s o (.seq es'))
  | assign {i s o op i' s' o' y r r'} : y ≠ x → DerefForm r r' →
      DerefForm (.mk i s o (.assign op (.mk i' s' o' (.ident y)) r))
        (.mk i s o (.assign op (.mk i' s' o' (.ident y)) r'))
  | update {i s o op leading i' s' o' y} : y ≠ x →
      DerefForm (.mk i s o (.update op leading (.mk i' s' o' (.ident y))))
        (.mk i s o (.update op leading (.mk i' s' o' (.ident y))))
  | set {i s o i' s' o' r r'} : DerefForm r r' →
      DerefForm (.mk i s o (.assign .plain (.mk i' s' o' (.ident x)) r))
        (.mk i s o (.call (identOf acc.write) [arrowOf [] r'] false))
  | setBinary {i s o b i' s' o' r r' cur} : cur ∉ taken → DerefForm r r' →
      DerefForm (.mk i s o (.assign (.binary b) (.mk i' s' o' (.ident x)) r))
        (.mk i s o (.call (identOf acc.write)
          [arrowOf [bindingOf cur] (Node.make (.binary b (identOf cur) r'))] false))
  | setLogical {i s o l i' s' o' r r' cur} : cur ∉ taken → DerefForm r r' →
      DerefForm (.mk i s o (.assign (.logical l) (.mk i' s' o' (.ident x)) r))
        (.mk i s o (.call (identOf acc.write)
          [arrowOf [bindingOf cur] (Node.make (.logical l (identOf cur) r'))] false))
  | step {i s o op leading i' s' o' cur} : cur ∉ taken →
      DerefForm (.mk i s o (.update op leading (.mk i' s' o' (.ident x))))
        (.mk i s o (updateOf acc op leading cur))

end Form

/-! ### Memories that mirror each other -/

variable {V : Type}

/-- The memory `mt` of a run of the rewritten expression mirrors the memory `m` of the
source's run: the cell holds what `x` holds, every other variable holds the same, and the
trace is the source's without its accesses to `x`. -/
structure Mirrors (x : String) (m mt : Memory V) : Prop where
  cell : mt.cell = m.store x
  store : ∀ y, y ≠ x → mt.store y = m.store y
  trace : mt.trace = m.trace.filter fun a => a.name != x

namespace Mirrors

variable {x y : String} {m mt : Memory V}

theorem read_self (h : Mirrors x m mt) : Mirrors x (m.read x) mt where
  cell := h.cell
  store := h.store
  trace := by simp [Memory.read, h.trace, Access.name]

theorem read (h : Mirrors x m mt) (hy : y ≠ x) : Mirrors x (m.read y) (mt.read y) where
  cell := h.cell
  store := h.store
  trace := by simp [Memory.read, h.trace, Access.name, hy]

theorem write_self (h : Mirrors x m mt) (v : V) : Mirrors x (m.write x v) (mt.setCell v) where
  cell := by simp [Memory.write, Memory.setCell, Memory.assign]
  store z hz := by simp [Memory.write, Memory.setCell, Memory.assign, hz, h.store z hz]
  trace := by simp [Memory.write, Memory.setCell, h.trace, Access.name]

theorem write (h : Mirrors x m mt) (hy : y ≠ x) (v : V) :
    Mirrors x (m.write y v) (mt.write y v) where
  cell := by simp [Memory.write, Memory.assign, hy.symm, h.cell]
  store z hz := by by_cases hzy : z = y <;> simp [Memory.write, Memory.assign, hzy, h.store z hz]
  trace := by simp [Memory.write, h.trace, Access.name, hy]

theorem update_self (h : Mirrors x m mt) (found stored : V) :
    Mirrors x (m.update x found stored) (mt.setCell stored) where
  cell := by simp [Memory.update, Memory.setCell, Memory.assign]
  store z hz := by simp [Memory.update, Memory.setCell, Memory.assign, hz, h.store z hz]
  trace := by simp [Memory.update, Memory.setCell, h.trace, Access.name]

theorem update (h : Mirrors x m mt) (hy : y ≠ x) (found stored : V) :
    Mirrors x (m.update y found stored) (mt.update y found stored) where
  cell := by simp [Memory.update, Memory.assign, hy.symm, h.cell]
  store z hz := by by_cases hzy : z = y <;> simp [Memory.update, Memory.assign, hzy, h.store z hz]
  trace := by simp [Memory.update, h.trace, Access.name, hy]

end Mirrors

/-- Every update `++`/`--` of `x` in the trace found a number in `x`. -/
def UpdatesNumbers (prims : Primitives V) (x : String) (trace : List (Access V)) : Prop :=
  ∀ found stored, Access.update x found stored ∈ trace → prims.isNumber found = true

theorem UpdatesNumbers.of_prefix {prims : Primitives V} {x : String} {t t' : List (Access V)}
    (h : UpdatesNumbers prims x t') (ht : t <+: t') : UpdatesNumbers prims x t :=
  fun found stored hmem => h found stored (ht.subset hmem)

/-! ### The names the rewritten expression runs with -/

/-- The accessors bound to the signal's reader and writer, and the names `vars` free. -/
structure Binds (acc : Accessors) (vars : List String) (L : Locals V) : Prop where
  read : L.lookup acc.read = some .reader
  write : L.lookup acc.write = some .writer
  free : ∀ y ∈ vars, L.lookup y = none

namespace Binds

variable {acc : Accessors} {vars vars' : List String} {L : Locals V}

theorem mono (h : Binds acc vars L) (hsub : vars' ⊆ vars) : Binds acc vars' L :=
  ⟨h.read, h.write, fun y hy => h.free y (hsub hy)⟩

theorem lookup_cons_ne {y cur : String} {w : Value V} (hne : y ≠ cur) :
    List.lookup y ((cur, w) :: L) = L.lookup y := by
  simp [List.lookup, beq_false_of_ne hne]

/-- A fresh name bound on top keeps the binding. -/
theorem cons (h : Binds acc vars L) {cur : String} (hr : cur ≠ acc.read) (hw : cur ≠ acc.write)
    (hv : cur ∉ vars) (w : Value V) : Binds acc vars ((cur, w) :: L) where
  read := by rw [lookup_cons_ne (Ne.symm hr)]; exact h.read
  write := by rw [lookup_cons_ne (Ne.symm hw)]; exact h.write
  free y hy := by
    rw [lookup_cons_ne (by rintro rfl; exact hv hy)]
    exact h.free y hy

end Binds

/-! ### Runs of the rewritten shapes -/

section Runs

variable {prims : Primitives V} {acc : Accessors} {L : Locals V} {mt : Memory V} {i : Nat}
  {s : Span} {o : Option Nat}

/-- Calling the reader answers the cell. -/
theorem run_read (hr : L.lookup acc.read = some .reader) :
    Eval prims L (.mk i s o (.call (identOf acc.read) [] false)) mt (.prim mt.cell) mt :=
  .call (.bound hr) .nil .reader

/-- Calling the writer with an updater: the updater runs on the cell's value, and what it
answers is stored in the cell and answered. -/
theorem run_write (hw : L.lookup acc.write = some .writer) {f : Node} {fv : Value V} {v : V}
    {mt₁ : Memory V} (hf : Eval prims L f mt fv mt)
    (happ : Apply prims fv [.prim mt.cell] mt (.prim v) mt₁) :
    Eval prims L (.mk i s o (.call (identOf acc.write) [f] false)) mt (.prim v) (mt₁.setCell v) :=
  .call (.bound hw) (.cons hf .nil) (.writer happ)

theorem updateOf_leading (acc : Accessors) (op : UpdateOp) (cur : String) :
    updateOf acc op true cur = .call (identOf acc.write)
      [arrowOf [bindingOf cur] (Node.make (.binary op.binaryOp (identOf cur) one))] false := by
  cases op <;> rfl

theorem updateOf_trailing (acc : Accessors) (op : UpdateOp) (cur : String) :
    updateOf acc op false cur = .call (arrowBlock []
      [Node.make (.varDecl .const
          [Node.make (.declarator (bindingOf cur) (some (callOf acc.read [])))]),
        Node.make (.exprStmt
          (callOf acc.write [arrowOf [] (Node.make (.binary op.binaryOp (identOf cur) one))])),
        returnOf (identOf cur)]) [] false := by
  cases op <;> rfl

/-- The next value an updater computes from the value `c` bound to `cur`. -/
theorem run_next {L : Locals V} {op : UpdateOp} {cur : String} {c : V}
    (hc : L.lookup cur = some (.prim c)) :
    Eval prims L (Node.make (.binary op.binaryOp (identOf cur) one)) mt
      (.prim (prims.binary op.binaryOp c (prims.num Double.one))) mt :=
  .binary (.bound hc) (.literal rfl)

/-- An update of the signal: both forms store the next value; `++x` answers it, `x++` the
value found. -/
theorem run_updateOf (hr : L.lookup acc.read = some .reader)
    (hw : L.lookup acc.write = some .writer) {cur : String} (hcw : cur ≠ acc.write)
    (op : UpdateOp) (leading : Bool) :
    Eval prims L (.mk i s o (updateOf acc op leading cur)) mt
      (.prim (if leading then prims.binary op.binaryOp mt.cell (prims.num Double.one) else mt.cell))
      (mt.setCell (prims.binary op.binaryOp mt.cell (prims.num Double.one))) := by
  have hcur : ∀ (L' : Locals V) (c : V), List.lookup cur ((cur, .prim c) :: L') = some (.prim c) := by
    simp [List.lookup]
  cases leading with
  | true =>
    rw [updateOf_leading]
    exact run_write hw (.arrow rfl) (.expression (by simp) (run_next (hcur L mt.cell)))
  | false =>
    rw [updateOf_trailing]
    have hw' : List.lookup acc.write ((cur, .prim mt.cell) :: L) = some .writer := by
      rw [Binds.lookup_cons_ne (Ne.symm hcw)]
      exact hw
    exact .call (.arrow rfl) .nil (.block (by simp)
      (.const (run_read hr) (.expr (run_write hw' (.arrow rfl)
        (.expression (by simp) (run_next (hcur L mt.cell)))) (.ret (.bound (hcur L mt.cell))))))

end Runs

/-! ### Simulation -/

/-- `e'` does what `e` does, with the names `L` bound: from memories that mirror each other,
each run of `e` that updates `x` only where it holds a number has a run of `e'` answering the
same value and leaving a memory that mirrors the source's. -/
def Simulates (prims : Primitives V) (x : String) (L : Locals V) (e e' : Node) : Prop :=
  ∀ ⦃m m' mt : Memory V⦄ ⦃w : Value V⦄, Eval prims [] e m w m' →
    UpdatesNumbers prims x m'.trace → Mirrors x m mt → ∃ mt', Eval prims L e' mt w mt' ∧ Mirrors x m' mt'

namespace Simulates

variable {prims : Primitives V} {x : String} {acc : Accessors} {L : Locals V} {i : Nat}
  {s : Span} {o : Option Nat} {i' : Nat} {s' : Span} {o' : Option Nat} {a a' b b' r r' : Node}

theorem literal {k : Kind} (hk : k.isLiteral = true) :
    Simulates prims x L (.mk i s o k) (.mk i s o k) := by
  intro m m' mt w he _ hm
  obtain ⟨v, hv, rfl, rfl⟩ := Eval.literal_inv hk he
  exact ⟨mt, .literal hv, hm⟩

theorem name {y : String} (hy : y ≠ x) (hfree : L.lookup y = none) :
    Simulates prims x L (.mk i s o (.ident y)) (.mk i s o (.ident y)) := by
  intro m m' mt w he _ hm
  obtain ⟨rfl, rfl⟩ := Eval.stored_inv rfl he
  rw [← hm.store y hy]
  exact ⟨mt.read y, .stored hfree, hm.read hy⟩

theorem read (hr : L.lookup acc.read = some .reader) :
    Simulates prims x L (.mk i s o (.ident x)) (.mk i s o (.call (identOf acc.read) [] false)) := by
  intro m m' mt w he _ hm
  obtain ⟨rfl, rfl⟩ := Eval.stored_inv rfl he
  rw [← hm.cell]
  exact ⟨mt, run_read hr, hm.read_self⟩

theorem unary {op : UnaryOp} (ha : Simulates prims x L a a') :
    Simulates prims x L (.mk i s o (.unary op a)) (.mk i s o (.unary op a')) := by
  intro m m' mt w he hn hm
  obtain ⟨v, hea, rfl⟩ := Eval.unary_inv he
  obtain ⟨mt', hea', hm'⟩ := ha hea hn hm
  exact ⟨mt', .unary hea', hm'⟩

theorem binary {op : BinaryOp} (ha : Simulates prims x L a a') (hb : Simulates prims x L b b') :
    Simulates prims x L (.mk i s o (.binary op a b)) (.mk i s o (.binary op a' b')) := by
  intro m m' mt w he hn hm
  obtain ⟨v₁, m₁, v₂, hea, heb, rfl⟩ := Eval.binary_inv he
  obtain ⟨mt₁, hea', hm₁⟩ := ha hea (hn.of_prefix heb.trace_prefix) hm
  obtain ⟨mt₂, heb', hm₂⟩ := hb heb hn hm₁
  exact ⟨mt₂, .binary hea' heb', hm₂⟩

theorem logical {op : LogicalOp} (ha : Simulates prims x L a a') (hb : Simulates prims x L b b') :
    Simulates prims x L (.mk i s o (.logical op a b)) (.mk i s o (.logical op a' b')) := by
  intro m m' mt w he hn hm
  obtain ⟨v, m₁, hea, hrest⟩ := Eval.logical_inv he
  rcases hrest with ⟨hs, rfl, rfl⟩ | ⟨hs, heb⟩
  · obtain ⟨mt₁, hea', hm₁⟩ := ha hea hn hm
    exact ⟨mt₁, .settled hea' hs, hm₁⟩
  · obtain ⟨mt₁, hea', hm₁⟩ := ha hea (hn.of_prefix heb.trace_prefix) hm
    obtain ⟨mt₂, heb', hm₂⟩ := hb heb hn hm₁
    exact ⟨mt₂, .unsettled hea' hs heb', hm₂⟩

theorem cond {t t' c c' : Node} (ht : Simulates prims x L t t') (hc : Simulates prims x L c c')
    (ha : Simulates prims x L a a') :
    Simulates prims x L (.mk i s o (.cond t c a)) (.mk i s o (.cond t' c' a')) := by
  intro m m' mt w he hn hm
  obtain ⟨v, m₁, het, hrest⟩ := Eval.cond_inv he
  rcases hrest with ⟨hv, hec⟩ | ⟨hv, hea⟩
  · obtain ⟨mt₁, het', hm₁⟩ := ht het (hn.of_prefix hec.trace_prefix) hm
    obtain ⟨mt₂, hec', hm₂⟩ := hc hec hn hm₁
    exact ⟨mt₂, .condThen het' hv hec', hm₂⟩
  · obtain ⟨mt₁, het', hm₁⟩ := ht het (hn.of_prefix hea.trace_prefix) hm
    obtain ⟨mt₂, hea', hm₂⟩ := ha hea hn hm₁
    exact ⟨mt₂, .condElse het' hv hea', hm₂⟩

/-- Lists of expressions that do what each other do, element by element, run alike. -/
theorem list {es es' : List Node} (hlen : es.length = es'.length)
    (h : ∀ a a', (a, a') ∈ es.zip es' → Simulates prims x L a a') :
    ∀ ⦃m m' mt : Memory V⦄ ⦃ws : List (Value V)⦄, EvalList prims [] es m ws m' →
      UpdatesNumbers prims x m'.trace → Mirrors x m mt →
      ∃ mt', EvalList prims L es' mt ws mt' ∧ Mirrors x m' mt' := by
  induction es generalizing es' with
  | nil =>
    intro m m' mt ws he _ hm
    cases es' with
    | nil =>
      cases he
      exact ⟨mt, .nil, hm⟩
    | cons => simp at hlen
  | cons a es ih =>
    intro m m' mt ws he hn hm
    cases es' with
    | nil => simp at hlen
    | cons a' es' =>
      cases he with
      | cons hea hes =>
        obtain ⟨mt₁, hea', hm₁⟩ := h a a' (by simp) hea (hn.of_prefix hes.trace_prefix) hm
        obtain ⟨mt₂, hes', hm₂⟩ := ih (by simpa using hlen)
          (fun b b' hb => h b b' (List.mem_cons_of_mem _ hb)) hes hn hm₁
        exact ⟨mt₂, .cons hea' hes', hm₂⟩

theorem seq {es es' : List Node} (hlen : es.length = es'.length)
    (h : ∀ a a', (a, a') ∈ es.zip es' → Simulates prims x L a a') :
    Simulates prims x L (.mk i s o (.seq es)) (.mk i s o (.seq es')) := by
  intro m m' mt w he hn hm
  obtain ⟨ws, hes, hw⟩ := Eval.seq_inv he
  obtain ⟨mt', hes', hm'⟩ := list hlen h hes hn hm
  exact ⟨mt', .seq hes' hw, hm'⟩

/-- An assignment to another variable, of any kind, is kept. -/
theorem assign {op : AssignOp} {y : String} (hy : y ≠ x) (hfree : L.lookup y = none)
    (hr : Simulates prims x L r r') :
    Simulates prims x L (.mk i s o (.assign op (.mk i' s' o' (.ident y)) r))
      (.mk i s o (.assign op (.mk i' s' o' (.ident y)) r')) := by
  intro m m' mt w he hn hm
  cases op with
  | plain =>
    obtain ⟨v, m₁, her, rfl, rfl⟩ := Eval.assign_inv he
    obtain ⟨mt₁, her', hm₁⟩ := hr her (hn.of_prefix (List.prefix_append _ _)) hm
    exact ⟨mt₁.write y v, .assign hfree her', hm₁.write hy v⟩
  | binary op =>
    obtain ⟨v, m₁, her, rfl, rfl⟩ := Eval.compound_inv he
    obtain ⟨mt₁, her', hm₁⟩ := hr her (hn.of_prefix (List.prefix_append _ _)) (hm.read hy)
    rw [← hm.store y hy]
    exact ⟨_, .compound hfree her', hm₁.write hy _⟩
  | logical op =>
    rcases Eval.logicalAssign_inv he with ⟨hs, rfl, rfl⟩ | ⟨hs, v, m₁, her, rfl, rfl⟩
    · rw [← hm.store y hy] at hs ⊢
      exact ⟨mt.read y, .assignSettled hfree hs, hm.read hy⟩
    · obtain ⟨mt₁, her', hm₁⟩ := hr her (hn.of_prefix (List.prefix_append _ _)) (hm.read hy)
      rw [← hm.store y hy] at hs
      exact ⟨mt₁.write y v, .assignUnsettled hfree hs her', hm₁.write hy v⟩

/-- An update of another variable is kept. -/
theorem update {op : UpdateOp} {leading : Bool} {y : String} (hy : y ≠ x)
    (hfree : L.lookup y = none) :
    Simulates prims x L (.mk i s o (.update op leading (.mk i' s' o' (.ident y))))
      (.mk i s o (.update op leading (.mk i' s' o' (.ident y)))) := by
  intro m m' mt w he _ hm
  obtain ⟨rfl, rfl⟩ := Eval.update_inv he
  rw [← hm.store y hy]
  exact ⟨_, .update hfree, hm.update hy _ _⟩

/-- `x = r` becomes `write(() => r')`: the updater runs `r'` when the writer calls it. -/
theorem set (hw : L.lookup acc.write = some .writer) (hr : Simulates prims x L r r') :
    Simulates prims x L (.mk i s o (.assign .plain (.mk i' s' o' (.ident x)) r))
      (.mk i s o (.call (identOf acc.write) [arrowOf [] r'] false)) := by
  intro m m' mt w he hn hm
  obtain ⟨v, m₁, her, rfl, rfl⟩ := Eval.assign_inv he
  obtain ⟨mt₁, her', hm₁⟩ := hr her (hn.of_prefix (List.prefix_append _ _)) hm
  exact ⟨mt₁.setCell v, run_write hw (.arrow rfl) (.expression (by simp) her'), hm₁.write_self v⟩

/-- `x op= r` becomes `write(cur => cur op r')`: the writer hands the cell's value to the
updater before `r'` runs, as the source reads `x` before `r`. -/
theorem setBinary {op : BinaryOp} {cur : String} (hw : L.lookup acc.write = some .writer)
    (hr : ∀ c : V, Simulates prims x ((cur, .prim c) :: L) r r') :
    Simulates prims x L (.mk i s o (.assign (.binary op) (.mk i' s' o' (.ident x)) r))
      (.mk i s o (.call (identOf acc.write)
        [arrowOf [bindingOf cur] (Node.make (.binary op (identOf cur) r'))] false)) := by
  intro m m' mt w he hn hm
  obtain ⟨v, m₁, her, rfl, rfl⟩ := Eval.compound_inv he
  obtain ⟨mt₁, her', hm₁⟩ := hr mt.cell her (hn.of_prefix (List.prefix_append _ _)) hm.read_self
  rw [← hm.cell]
  exact ⟨_, run_write hw (.arrow rfl) (.expression (by simp)
    (.binary (.bound (by simp)) her')), hm₁.write_self _⟩

/-- `x op= r` for a logical `op` becomes `write(cur => cur op r')`. When the value settles
the result the updater answers it unchanged, so the cell keeps it. -/
theorem setLogical {op : LogicalOp} {cur : String} (hw : L.lookup acc.write = some .writer)
    (hr : ∀ c : V, Simulates prims x ((cur, .prim c) :: L) r r') :
    Simulates prims x L (.mk i s o (.assign (.logical op) (.mk i' s' o' (.ident x)) r))
      (.mk i s o (.call (identOf acc.write)
        [arrowOf [bindingOf cur] (Node.make (.logical op (identOf cur) r'))] false)) := by
  intro m m' mt w he hn hm
  rcases Eval.logicalAssign_inv he with ⟨hs, rfl, rfl⟩ | ⟨hs, v, m₁, her, rfl, rfl⟩
  · rw [← hm.cell] at hs ⊢
    exact ⟨mt.setCell mt.cell, run_write hw (.arrow rfl) (.expression (by simp)
      (.settled (.bound (by simp)) hs)), hm.read_self⟩
  · obtain ⟨mt₁, her', hm₁⟩ := hr mt.cell her (hn.of_prefix (List.prefix_append _ _)) hm.read_self
    rw [← hm.cell] at hs
    exact ⟨mt₁.setCell v, run_write hw (.arrow rfl) (.expression (by simp)
      (.unsettled (.bound (by simp)) hs her')), hm₁.write_self v⟩

/-- `++x`, `x++` and their `--` forms do what the source does when `x` holds a number: the
source converts the value to a numeric one, which a number already is. -/
theorem step {op : UpdateOp} {leading : Bool} {cur : String}
    (hr : L.lookup acc.read = some .reader) (hw : L.lookup acc.write = some .writer)
    (hcw : cur ≠ acc.write) :
    Simulates prims x L (.mk i s o (.update op leading (.mk i' s' o' (.ident x))))
      (.mk i s o (updateOf acc op leading cur)) := by
  intro m m' mt w he hn hm
  obtain ⟨rfl, rfl⟩ := Eval.update_inv he
  have hnum : prims.isNumber (m.store x) = true :=
    hn (m.store x) (prims.step op (prims.toNumeric (m.store x))) (by simp [Memory.update])
  rw [prims.toNumeric_of_isNumber _ hnum, prims.step_of_isNumber _ _ hnum, ← hm.cell]
  exact ⟨_, run_updateOf hr hw hcw op leading, hm.update_self _ _⟩

end Simulates

section Meaning

variable {prims : Primitives V} {x : String} {acc : Accessors} {taken : List String}
  {L : Locals V} {i : Nat} {s : Span} {o : Option Nat}

/-- What holds of a subexpression's names when it holds of the expression's. -/
theorem Simulates.of_child {k : Kind} {c c' : Node} (hc : c ∈ k.children.map Child.node)
    (ih : ∀ {L : Locals V}, Binds acc c.spells L → c.spells ⊆ taken → Simulates prims x L c c')
    (hL : Binds acc (Node.mk i s o k).spells L) (hsp : (Node.mk i s o k).spells ⊆ taken) :
    Simulates prims x L c c' :=
  ih (hL.mono (Node.spells_subset_of_child hc)) fun _ hy => hsp (Node.spells_subset_of_child hc hy)

/-- The right side of an assignment to `x` runs inside an updater, with the updater's
parameter bound on top: a name outside `taken`, so neither an accessor nor a name of the
source. -/
theorem Simulates.of_updater {k : Kind} {r r' : Node} {cur : String}
    (hr : acc.read ∈ taken) (hw : acc.write ∈ taken) (hcur : cur ∉ taken)
    (hc : r ∈ k.children.map Child.node)
    (ih : ∀ {L : Locals V}, Binds acc r.spells L → r.spells ⊆ taken → Simulates prims x L r r')
    (hL : Binds acc (Node.mk i s o k).spells L) (hsp : (Node.mk i s o k).spells ⊆ taken) (c : V) :
    Simulates prims x ((cur, .prim c) :: L) r r' := by
  have hsub := Node.spells_subset_of_child (i := i) (s := s) (o := o) hc
  refine ih ((hL.mono hsub).cons ?_ ?_ ?_ _) fun _ hy => hsp (hsub hy)
  · rintro rfl
    exact hcur hr
  · rintro rfl
    exact hcur hw
  · exact fun h => hcur (hsp (hsub h))

/-- **The rewritten shape of an expression does what the expression does**, with the
accessors bound to the reader and the writer and the names of the expression free, when the
accessors and those names are among the names the updaters' parameters avoid. -/
theorem DerefForm.simulates (hr : acc.read ∈ taken) (hw : acc.write ∈ taken) {e e' : Node}
    (hd : DerefForm x acc taken e e') :
    ∀ {L : Locals V}, Binds acc e.spells L → e.spells ⊆ taken → Simulates prims x L e e' := by
  induction hd with
  | literal hk => exact fun _ _ => .literal hk
  | name hy => exact fun hL _ => .name hy (hL.free _ (Node.mem_spells_ident _))
  | read => exact fun hL _ => .read hL.read
  | unary _ iha =>
    exact fun hL hsp => .unary (.of_child (by simp [Kind.children]) iha hL hsp)
  | binary _ _ iha ihb =>
    exact fun hL hsp => .binary (.of_child (by simp [Kind.children]) iha hL hsp)
      (.of_child (by simp [Kind.children]) ihb hL hsp)
  | logical _ _ iha ihb =>
    exact fun hL hsp => .logical (.of_child (by simp [Kind.children]) iha hL hsp)
      (.of_child (by simp [Kind.children]) ihb hL hsp)
  | cond _ _ _ iht ihc iha =>
    exact fun hL hsp => .cond (.of_child (by simp [Kind.children]) iht hL hsp)
      (.of_child (by simp [Kind.children]) ihc hL hsp)
      (.of_child (by simp [Kind.children]) iha hL hsp)
  | seq hlen _ ih =>
    exact fun hL hsp => .seq hlen fun a a' ha =>
      .of_child (by simpa [Kind.children] using (List.of_mem_zip ha).1) (ih a a' ha) hL hsp
  | @assign _ _ _ _ i' s' o' y _ _ hy _ ih =>
    intro L hL hsp
    have hfree := hL.free y (Node.spells_subset_of_child (by simp [Kind.children])
      (Node.mem_spells_ident (i := i') (s := s') (o := o') y))
    exact .assign hy hfree (.of_child (by simp [Kind.children]) ih hL hsp)
  | @update _ _ _ _ _ i' s' o' y hy =>
    intro L hL _
    exact .update hy (hL.free y (Node.spells_subset_of_child (by simp [Kind.children])
      (Node.mem_spells_ident (i := i') (s := s') (o := o') y)))
  | set _ ih => exact fun hL hsp => .set hL.write (.of_child (by simp [Kind.children]) ih hL hsp)
  | setBinary hcur _ ih =>
    exact fun hL hsp => .setBinary hL.write
      (.of_updater hr hw hcur (by simp [Kind.children]) ih hL hsp)
  | setLogical hcur _ ih =>
    exact fun hL hsp => .setLogical hL.write
      (.of_updater hr hw hcur (by simp [Kind.children]) ih hL hsp)
  | step hcur =>
    refine fun hL _ => .step hL.read hL.write ?_
    rintro rfl
    exact hcur hw

end Meaning

/-! ### The walk of a simple expression

In the signal's own scope no subtree is shadowed, and in a simple expression a name stands
in a written place only as the target of an assignment or an update, which the walk handles
before it reaches the name. So the walk never fails there, and it answers the rewritten
shape. Each branch of `derefWalk` it takes is run forward once here. -/

namespace Rewrite

variable {α β : Type} {st : Session}

/-- A `mapM` whose every step succeeds, keeping `I` and relating its input to its answer,
succeeds. -/
theorem run_mapM_exists {l : List α} {f : α → Rewrite β} (I : Session → Prop)
    (R : α → β → Prop) (hf : ∀ a ∈ l, ∀ s, I s → ∃ b s', (f a).run s = .ok (b, s') ∧ I s' ∧ R a b)
    (hI : I st) : ∃ bs st', (l.mapM f).run st = .ok (bs, st') ∧ I st' ∧ List.Forall₂ R l bs := by
  induction l generalizing st with
  | nil => exact ⟨[], st, rfl, hI, .nil⟩
  | cons a l ih =>
    obtain ⟨b, s₁, ha, hI₁, hR⟩ := hf a List.mem_cons_self st hI
    obtain ⟨bs, s₂, hl, hI₂, hRs⟩ := ih (fun a' ha' => hf a' (List.mem_cons_of_mem a ha')) hI₁
    refine ⟨b :: bs, s₂, ?_, hI₂, .cons hR hRs⟩
    simp only [List.mapM_cons, run_bind_ok, run_pure_ok]
    exact ⟨b, s₁, ha, bs, s₂, hl, rfl, rfl⟩

end Rewrite

section Walk

variable {T : Scopes} {t : Target} {acc : Accessors} {p : Place} {v : Bool} {st st₁ : Session}
  {i : Nat} {sp : Span} {i' : Nat} {s' : Span} {n : Node}

theorem Walking.fresh (hw : Walking T st) (s : Nat) (hint : String) :
    (st.scopes.generateUid s hint).2 ∉ T.names :=
  fun h => Scopes.generateUid_fresh hw.sound s hint (hw.keeps _ h).1

/-- A construct the walk takes apart generically, in the signal's scope: its children are
walked in place. -/
theorem derefWalk_of_children (hs : p.scopeOf n = t.scope)
    (hsp : n.kind.derefSpecial = false) {k' : Kind} {st' : Session}
    (h : (n.kind.mapChildrenM fun c r _ => derefNode t acc (p.child n r) c).run st = .ok (k', st')) :
    (derefWalk t acc p v n).run st = .ok (.done (n.withKind k') [], st') :=
  derefWalk_of_step (.other (by simp [hs, Target.shadowedIn]) hsp h)

/-- When the walk of every child succeeds, keeping `I` and relating the child to its
rewrite by `R`, so does the walk of a generic construct. -/
theorem derefWalk_children (hs : p.scopeOf n = t.scope) (hsp : n.kind.derefSpecial = false)
    (I : Session → Prop) (R : Node → Node → Prop)
    (hc : ∀ c ∈ n.kind.children, ∀ s, I s → ∃ c' s',
      (derefWalk t acc (p.child n c.role) false c.node).run s = .ok (.done c' [], s') ∧ I s' ∧
        R c.node c')
    (hI : I st) :
    ∃ cs st', (derefWalk t acc p v n).run st =
        .ok (.done (n.withKind (n.kind.setChildren cs)) [], st') ∧ I st' ∧
      List.Forall₂ R (n.kind.children.map Child.node) cs := by
  obtain ⟨cs, st', hl, hI', hR⟩ := Rewrite.run_mapM_exists (l := n.kind.children)
    (f := fun c => derefNode t acc (p.child n c.role) c.node) I (fun c b => R c.node b)
    (fun c hc' s hs => by
      obtain ⟨c', s', hwalk, hs', hR⟩ := hc c hc' s hs
      exact ⟨c', s', run_derefNode.2 ⟨_, hwalk, rfl⟩, hs', hR⟩) hI
  refine ⟨cs, st', derefWalk_of_children hs hsp ?_, hI', List.forall₂_map_left_iff.2 hR⟩
  rw [Kind.mapChildrenM_eq, StateT.run_map, hl]
  rfl

/-- The signal's own scope does not shadow it. -/
theorem unshadowed_of_scope (hp : p.scope = t.scope) (k : Kind) :
    t.shadowedIn st.scopes (p.scopeOf (.mk i sp none k)) = false := by
  simp [Place.scopeOf, hp, Target.shadowedIn]

theorem derefWalk_ident_ne (hp : p.scope = t.scope) {y : String} (hy : y ≠ t.name) :
    (derefWalk t acc p v (.mk i sp none (.ident y))).run st =
      .ok (.done (.mk i sp none (.ident y)) [], st) :=
  derefWalk_of_step (.ident (unshadowed_of_scope hp _) rfl hy)

/-- A name other than the signal's, as a part of a node in the signal's scope. -/
theorem derefWalk_child_ident_ne (hp : p.scope = t.scope) {k : Kind} {r : Role} {y : String}
    (hy : y ≠ t.name) :
    (derefWalk t acc (p.child (.mk i sp none k) r) v (.mk i' s' none (.ident y))).run st =
      .ok (.done (.mk i' s' none (.ident y)) [], st) :=
  derefWalk_ident_ne (p := p.child (.mk i sp none k) r) hp hy

theorem derefWalk_ident_self (hp : p.scope = t.scope) (hw : isWritten p.ancestors = false) :
    (derefWalk t acc p v (.mk i sp none (.ident t.name))).run st =
      .ok (.done (.mk i sp none (.call (identOf acc.read) [] false)) [], st) :=
  derefWalk_of_step (.identRef (unshadowed_of_scope hp _) rfl hw)

theorem derefWalk_literal (hp : p.scope = t.scope) {k : Kind} (hk : k.isLiteral = true) :
    (derefWalk t acc p v (.mk i sp none k)).run st = .ok (.done (.mk i sp none k) [], st) := by
  refine derefWalk_of_children (n := .mk i sp none k) hp ?_ ?_ <;>
    cases k <;> first | rfl | simp [Kind.isLiteral] at hk

theorem derefWalk_assign_ne (hp : p.scope = t.scope) {op : AssignOp} {y : String}
    (hy : y ≠ t.name) {r r' : Node}
    (hr : (derefWalk t acc (p.child (.mk i sp none (.assign op (.mk i' s' none (.ident y)) r)) .other)
      false r).run st = .ok (.done r' [], st₁)) :
    (derefWalk t acc p v (.mk i sp none (.assign op (.mk i' s' none (.ident y)) r))).run st =
      .ok (.done (.mk i sp none (.assign op (.mk i' s' none (.ident y)) r')) [], st₁) :=
  derefWalk_of_step (.assign (unshadowed_of_scope hp _) rfl (by simp [Target.isReference, hy])
    (derefWalk_child_ident_ne hp hy) hr)

theorem derefWalk_assign_plain (hp : p.scope = t.scope) {r r' : Node}
    (hr : (derefWalk t acc (p.child (.mk i sp none (.assign .plain (.mk i' s' none (.ident t.name)) r))
      .other) false r).run st = .ok (.done r' [], st₁)) :
    (derefWalk t acc p v (.mk i sp none (.assign .plain (.mk i' s' none (.ident t.name)) r))).run st =
      .ok (.done (.mk i sp none (.call (identOf acc.write) [arrowOf [] r'] false)) [], st₁) :=
  derefWalk_of_step (.assignPlain (unshadowed_of_scope hp _) rfl (by simp [Target.isReference]) hr)

theorem derefWalk_assign_binary (hp : p.scope = t.scope) {b : BinaryOp} {r r' : Node}
    (hr : (derefWalk t acc (p.child (.mk i sp none (.assign (.binary b) (.mk i' s' none (.ident t.name)) r))
      .other) false r).run st = .ok (.done r' [], st₁)) :
    (derefWalk t acc p v (.mk i sp none (.assign (.binary b) (.mk i' s' none (.ident t.name)) r))).run st =
      .ok (.done (.mk i sp none (.call (identOf acc.write)
        [arrowOf [bindingOf (st₁.scopes.generateUid t.scope "current").2]
          (Node.make (.binary b (identOf (st₁.scopes.generateUid t.scope "current").2) r'))] false)) [],
        { st₁ with scopes := (st₁.scopes.generateUid t.scope "current").1 }) := by
  rw [← hp]
  exact derefWalk_of_step (.assignBinary (unshadowed_of_scope hp _) rfl
    (by simp [Target.isReference]) hr (Rewrite.run_uidIn _ _))

theorem derefWalk_assign_logical (hp : p.scope = t.scope) {l : LogicalOp} {r r' : Node}
    (hr : (derefWalk t acc (p.child (.mk i sp none (.assign (.logical l) (.mk i' s' none (.ident t.name)) r))
      .other) false r).run st = .ok (.done r' [], st₁)) :
    (derefWalk t acc p v (.mk i sp none (.assign (.logical l) (.mk i' s' none (.ident t.name)) r))).run st =
      .ok (.done (.mk i sp none (.call (identOf acc.write)
        [arrowOf [bindingOf (st₁.scopes.generateUid t.scope "current").2]
          (Node.make (.logical l (identOf (st₁.scopes.generateUid t.scope "current").2) r'))] false)) [],
        { st₁ with scopes := (st₁.scopes.generateUid t.scope "current").1 }) := by
  rw [← hp]
  exact derefWalk_of_step (.assignLogical (unshadowed_of_scope hp _) rfl
    (by simp [Target.isReference]) hr (Rewrite.run_uidIn _ _))

theorem derefWalk_update_ne (hp : p.scope = t.scope) {op : UpdateOp} {leading : Bool} {y : String}
    (hy : y ≠ t.name) :
    (derefWalk t acc p v (.mk i sp none (.update op leading (.mk i' s' none (.ident y))))).run st =
      .ok (.done (.mk i sp none (.update op leading (.mk i' s' none (.ident y)))) [], st) :=
  derefWalk_of_step (.update (unshadowed_of_scope hp _) rfl (by simp [Target.isReference, hy])
    (derefWalk_child_ident_ne hp hy))

theorem derefWalk_update_self (hp : p.scope = t.scope) {op : UpdateOp} {leading : Bool} :
    (derefWalk t acc p v (.mk i sp none (.update op leading (.mk i' s' none (.ident t.name))))).run st =
      .ok (.done (.mk i sp none (updateOf acc op leading (st.scopes.generateUid t.scope "current").2)) [],
        { st with scopes := (st.scopes.generateUid t.scope "current").1 }) := by
  rw [← hp]
  exact derefWalk_of_step (.updateRef (unshadowed_of_scope hp _) rfl
    (by simp [Target.isReference]) (Rewrite.run_uidIn _ _))

theorem Node.unmarked_mk {k : Kind} {o : Option Nat} (h : (Node.mk i sp o k).unmarked = true) :
    o = none ∧ ∀ c ∈ k.children.map Child.node, c.unmarked = true := by
  obtain ⟨ho, hc⟩ := Node.unmarked_iff.1 h
  exact ⟨ho, hc⟩

/-- The walk of an operator (its children standing where nothing is written), each child's
walk given by `ih`. -/
theorem derefWalk_operator {k : Kind} (hsp : k.derefSpecial = false)
    (hwk : ∀ r anc, isWritten ((Node.mk i sp none k, r) :: anc) = false)
    (ih : ∀ c ∈ k.children.map Child.node, ∀ {p : Place} {st : Session}, Walking T st →
      c.unmarked = true → p.scope = t.scope → isWritten p.ancestors = false →
      ∃ c' st', (derefWalk t acc p false c).run st = .ok (.done c' [], st') ∧ Walking T st' ∧
        DerefForm t.name acc T.names c c')
    (hu : ∀ c ∈ k.children.map Child.node, c.unmarked = true) (hp : p.scope = t.scope)
    (hw : Walking T st) :
    ∃ cs st', (derefWalk t acc p v (.mk i sp none k)).run st =
        .ok (.done (.mk i sp none (k.setChildren cs)) [], st') ∧ Walking T st' ∧
      List.Forall₂ (DerefForm t.name acc T.names) (k.children.map Child.node) cs :=
  derefWalk_children (n := .mk i sp none k) hp hsp (Walking T) _ (fun c hc _ hs =>
    ih c.node (List.mem_map_of_mem hc) hs (hu _ (List.mem_map_of_mem hc)) hp (hwk _ _)) hw

/-- **The walk of a simple expression in the signal's scope succeeds and answers its
rewritten shape**, keeping the table. The parameters of the updaters it makes are fresh
names, none of the names the table knew when the walk began. By induction on the expression:
a name, a literal, an assignment and an update are taken by the branches of the walk run
forward above, and an operator by `derefWalk_operator`. -/
theorem derefWalk_simple {e : Node} (he : e.Simple) :
    ∀ {p : Place} {st : Session}, Walking T st → e.unmarked = true → p.scope = t.scope →
      isWritten p.ancestors = false →
      ∃ e' st', (derefWalk t acc p false e).run st = .ok (.done e' [], st') ∧ Walking T st' ∧
        DerefForm t.name acc T.names e e' := by
  induction he with
  | @ident i s o y =>
    intro p st hw hu hp hwr
    obtain ⟨rfl, -⟩ := Node.unmarked_mk hu
    by_cases hy : y = t.name
    · subst hy
      exact ⟨_, _, derefWalk_ident_self hp hwr, hw, .read⟩
    · exact ⟨_, _, derefWalk_ident_ne hp hy, hw, .name hy⟩
  | @literal i s o k hk =>
    intro p st hw hu hp _
    obtain ⟨rfl, -⟩ := Node.unmarked_mk hu
    exact ⟨_, _, derefWalk_literal hp hk, hw, .literal hk⟩
  | @unary i s o op a _ iha =>
    intro p st hw hu hp _
    obtain ⟨rfl, hcu⟩ := Node.unmarked_mk hu
    obtain ⟨cs, st', hrun, hw', hR⟩ := derefWalk_operator rfl (fun _ _ => rfl)
      (fun c hc => by
        simp only [Kind.children, List.map_cons, List.map_nil, List.mem_singleton] at hc
        subst hc
        exact iha) hcu hp hw
    simp only [Kind.children, List.map_cons, List.map_nil, List.forall₂_cons_left_iff,
      List.forall₂_nil_left_iff] at hR
    obtain ⟨a', _, ha, rfl, rfl⟩ := hR
    exact ⟨_, _, hrun, hw', .unary ha⟩
  | @binary i s o op a b _ _ iha ihb =>
    intro p st hw hu hp _
    obtain ⟨rfl, hcu⟩ := Node.unmarked_mk hu
    obtain ⟨cs, st', hrun, hw', hR⟩ := derefWalk_operator rfl (fun _ _ => rfl)
      (fun c hc => by
        simp only [Kind.children, List.map_cons, List.map_nil, List.mem_cons, List.not_mem_nil,
          or_false] at hc
        rcases hc with rfl | rfl
        · exact iha
        · exact ihb) hcu hp hw
    simp only [Kind.children, List.map_cons, List.map_nil, List.forall₂_cons_left_iff,
      List.forall₂_nil_left_iff] at hR
    obtain ⟨a', _, ha, ⟨b', _, hb, rfl, rfl⟩, rfl⟩ := hR
    exact ⟨_, _, hrun, hw', .binary ha hb⟩
  | @logical i s o op a b _ _ iha ihb =>
    intro p st hw hu hp _
    obtain ⟨rfl, hcu⟩ := Node.unmarked_mk hu
    obtain ⟨cs, st', hrun, hw', hR⟩ := derefWalk_operator rfl (fun _ _ => rfl)
      (fun c hc => by
        simp only [Kind.children, List.map_cons, List.map_nil, List.mem_cons, List.not_mem_nil,
          or_false] at hc
        rcases hc with rfl | rfl
        · exact iha
        · exact ihb) hcu hp hw
    simp only [Kind.children, List.map_cons, List.map_nil, List.forall₂_cons_left_iff,
      List.forall₂_nil_left_iff] at hR
    obtain ⟨a', _, ha, ⟨b', _, hb, rfl, rfl⟩, rfl⟩ := hR
    exact ⟨_, _, hrun, hw', .logical ha hb⟩
  | @cond i s o c d a _ _ _ ihc ihd iha =>
    intro p st hw hu hp _
    obtain ⟨rfl, hcu⟩ := Node.unmarked_mk hu
    obtain ⟨cs, st', hrun, hw', hR⟩ := derefWalk_operator rfl (fun _ _ => rfl)
      (fun n hn => by
        simp only [Kind.children, List.map_cons, List.map_nil, List.mem_cons, List.not_mem_nil,
          or_false] at hn
        rcases hn with rfl | rfl | rfl
        · exact ihc
        · exact ihd
        · exact iha) hcu hp hw
    simp only [Kind.children, List.map_cons, List.map_nil, List.forall₂_cons_left_iff,
      List.forall₂_nil_left_iff] at hR
    obtain ⟨c', _, hc, ⟨d', _, hd, ⟨a', _, ha, rfl, rfl⟩, rfl⟩, rfl⟩ := hR
    exact ⟨_, _, hrun, hw', .cond hc hd ha⟩
  | @seq i s o es _ ih =>
    intro p st hw hu hp _
    obtain ⟨rfl, hcu⟩ := Node.unmarked_mk hu
    obtain ⟨cs, st', hrun, hw', hR⟩ := derefWalk_operator rfl (fun _ _ => rfl)
      (fun c hc => ih c (by simpa [Kind.children] using hc)) hcu hp hw
    simp only [Kind.children, Child.node_ofList] at hR
    exact ⟨_, _, hrun, hw', .seq hR.length_eq fun a a' h => (List.forall₂_iff_zip.1 hR).2 h⟩
  | @assign i s o op i' s' o' y r _ ihr =>
    intro p st hw hu hp _
    obtain ⟨rfl, hcu⟩ := Node.unmarked_mk hu
    obtain ⟨rfl, -⟩ := Node.unmarked_mk (hcu (.mk i' s' o' (.ident y)) (by simp [Kind.children]))
    obtain ⟨r', st₁, hrun, hw₁, hd⟩ :=
      ihr (p := p.child (.mk i s none (.assign op (.mk i' s' none (.ident y)) r)) .other) hw
        (hcu r (by simp [Kind.children])) hp rfl
    by_cases hy : y = t.name
    · subst hy
      cases op with
      | plain => exact ⟨_, _, derefWalk_assign_plain hp hrun, hw₁, .set hd⟩
      | binary b =>
        exact ⟨_, _, derefWalk_assign_binary hp hrun, hw₁.uidIn (Rewrite.run_uidIn _ _),
          .setBinary (hw₁.fresh _ _) hd⟩
      | logical l =>
        exact ⟨_, _, derefWalk_assign_logical hp hrun, hw₁.uidIn (Rewrite.run_uidIn _ _),
          .setLogical (hw₁.fresh _ _) hd⟩
    · exact ⟨_, _, derefWalk_assign_ne hp hy hrun, hw₁, .assign hy hd⟩
  | @update i s o op leading i' s' o' y =>
    intro p st hw hu hp _
    obtain ⟨rfl, hcu⟩ := Node.unmarked_mk hu
    obtain ⟨rfl, -⟩ := Node.unmarked_mk (hcu (.mk i' s' o' (.ident y)) (by simp [Kind.children]))
    by_cases hy : y = t.name
    · subst hy
      exact ⟨_, _, derefWalk_update_self hp, hw.uidIn (Rewrite.run_uidIn _ _), .step (hw.fresh _ _)⟩
    · exact ⟨_, _, derefWalk_update_ne hp hy, hw, .update hy⟩

end Walk

/-! ### Dereferencing the signal of a module -/

section Module

variable {st st₁ : Session}

theorem Node.find_self (n : Node) (p : Place) : n.find n.id p = some (n, p) := by
  rw [Node.find]
  simp

theorem Node.updateAt_self {m : Type → Type} [Monad m] (n : Node) (f : Place → Node → m Node)
    (p : Place) : n.updateAt n.id f p = f p n := by
  rw [Node.updateAt]
  simp

namespace Rewrite

/-- The binding of a name seen from the program's root is in the root's scope. -/
theorem run_targetAt_root (name : String) :
    (targetAt st.root.id name).run st = .ok (⟨Place.top.scopeOf st.root, name⟩, st) :=
  run_targetAt (Node.find_self _ _)

/-- A rewrite of the root runs at the top of the program's tree. -/
theorem run_updateAt_root {f : Place → Node → Rewrite Node} {root' : Node}
    (h : (f Place.top st.root).run st = .ok (root', st₁)) :
    (updateAt st.root.id f).run st = .ok ((), { st₁ with root := root' }) :=
  run_updateAt_of_root (Node.hasId_self _) (by rw [Node.updateAt_self]; exact h)

end Rewrite

/-- The reader and the writer bound to two distinct names, none of the names `vars`. -/
theorem binds_accessors {read write : String} {vars : List String} (hrw : read ≠ write)
    (hr : read ∉ vars) (hw : write ∉ vars) :
    Binds ⟨read, write⟩ vars [(read, (.reader : Value V)), (write, .writer)] where
  read := by simp
  write := by simp [List.lookup, beq_false_of_ne (Ne.symm hrw)]
  free y hy := by
    have hyr : y ≠ read := by rintro rfl; exact hr hy
    have hyw : y ≠ write := by rintro rfl; exact hw hy
    simp [List.lookup, beq_false_of_ne hyr, beq_false_of_ne hyw]

/-- Dereferencing a signal keeps the meaning of a simple expression that is the one statement
of a module. Take a module `e;` whose expression is simple and carries no scope mark, and a
session over it whose table is sound and knows the names of `e` and the two accessors (a
rewrite declares the accessors when it makes them), the accessors being two names `e` does not
spell. Dereferencing the signal `x` at the program succeeds and answers the module `e';`,
where `e'`, run with the accessors bound to the signal's reader and writer, does what `e` does
with `x` a variable, as long as each update `++`/`--` of `x` finds a number there. -/
theorem derefAt_exprStmt_meaning {j j' : Nat} {sp sp' : Span} {o : Option Nat} {e : Node}
    {x read write : String} (hroot : st.root = .mk j sp o (.program [.mk j' sp' none (.exprStmt e)]))
    (hT : st.scopes.Sound) (he : e.Simple) (hu : e.unmarked = true)
    (hsp : e.spells ⊆ st.scopes.names) (hr : read ∈ st.scopes.names)
    (hw : write ∈ st.scopes.names) (hrs : read ∉ e.spells) (hws : write ∉ e.spells)
    (hrw : read ≠ write) :
    ∃ e' st', (Rewrite.derefAt j x read write).run st = .ok ((), st') ∧
      st'.root = .mk j sp o (.program [.mk j' sp' none (.exprStmt e')]) ∧
      ∀ {V : Type} (prims : Primitives V),
        Simulates prims x [(read, .reader), (write, .writer)] e e' := by
  obtain ⟨root, detached, T, hooks, imports⟩ := st
  simp only at hroot hT hsp hr hw
  subst hroot
  have hw0 : Walking T ⟨.mk j sp o (.program [.mk j' sp' none (.exprStmt e)]), detached, T, hooks,
      imports⟩ :=
    ⟨hT, fun y hy => ⟨hy, Scopes.Keeps.refl y _⟩⟩
  have hstmt : ∀ s, Walking T s → ∃ c' s',
      (derefWalk ⟨o.getD 0, x⟩ ⟨read, write⟩ (Place.top.child (.mk j sp o (.program
        [.mk j' sp' none (.exprStmt e)])) .other) false (.mk j' sp' none (.exprStmt e))).run s =
        .ok (.done c' [], s') ∧ Walking T s' ∧
      ∃ e', c' = .mk j' sp' none (.exprStmt e') ∧ DerefForm x ⟨read, write⟩ T.names e e' := by
    intro s hs
    obtain ⟨cs, s', hrun, hs', hR⟩ := derefWalk_children (n := .mk j' sp' none (.exprStmt e))
      (t := ⟨o.getD 0, x⟩) (v := false)
      (p := Place.top.child (.mk j sp o (.program [.mk j' sp' none (.exprStmt e)])) .other) rfl rfl
      (Walking T) (DerefForm x ⟨read, write⟩ T.names) (fun c hc s hs => by
        simp only [Node.kind, Kind.children] at hc
        obtain rfl := List.mem_singleton.1 hc
        exact derefWalk_simple he hs hu rfl rfl) hs
    simp only [Node.kind, Kind.children, List.map_cons, List.map_nil, List.forall₂_cons_left_iff,
      List.forall₂_nil_left_iff] at hR
    obtain ⟨e', _, hd, rfl, rfl⟩ := hR
    exact ⟨_, _, hrun, hs', e', rfl, hd⟩
  obtain ⟨cs, st₂, hrun, -, hR⟩ := derefWalk_children
    (n := .mk j sp o (.program [.mk j' sp' none (.exprStmt e)])) (t := ⟨o.getD 0, x⟩)
    (v := false) rfl rfl (Walking T)
    (fun _ c' => ∃ e', c' = .mk j' sp' none (.exprStmt e') ∧ DerefForm x ⟨read, write⟩ T.names e e')
    (fun c hc s hs => by
      simp only [Node.kind, Kind.children, Child.ofList] at hc
      obtain rfl := List.mem_singleton.1 hc
      exact hstmt s hs) hw0
  simp only [Node.kind, Kind.children, Child.node_ofList, List.forall₂_cons_left_iff,
    List.forall₂_nil_left_iff] at hR
  obtain ⟨_, _, ⟨e', rfl, hd⟩, rfl, rfl⟩ := hR
  refine ⟨e', _, Rewrite.run_bind_ok.2 ⟨_, _, Rewrite.run_targetAt_root x,
    Rewrite.run_updateAt_root (Rewrite.run_bind_ok.2 ⟨_, _, hrun, rfl⟩)⟩, rfl, fun prims => ?_⟩
  exact hd.simulates hr hw (binds_accessors hrw hrs hws) hsp

/-- A session over a module as read, in which the accessors `_x` and `_setX` of the signal `x`
are declared at the top. -/
def accessorSession (root : Node) : Session :=
  let st := Session.start root ""
  { st with scopes := ((st.scopes.generateUid 0 "x").1.generateUid 0 "setX").1 }

theorem accessorSession_sound {root : Node} {body : List Node} (hm : root.unmarked = true)
    (hp : root.kind = .program body) : (accessorSession root).scopes.Sound :=
  (((ScopeWalk.analyzeScopes_wellScoped hm hp).1.generateUid 0 "x").generateUid 0 "setX")

/-- The module `x++;`, as read. -/
def postfixModule : Node :=
  .mk 1 ⟨0, 0⟩ none (.program [.mk 2 ⟨0, 0⟩ none (.exprStmt
    (.mk 3 ⟨0, 0⟩ none (.update .incr false (.mk 4 ⟨0, 0⟩ none (.ident "x")))))])

/-- **An update of a signal does not convert the value it finds.** `x++` converts the value of
`x` to a numeric one, answers it, and stores it plus one. Its rewrite reads the cell, stores
the value read plus one and answers the value read. So when `x` holds the string `"1"` the
source answers ToNumeric(`"1"`) and stores its successor (in the language: the numbers 1 and
2), while every run of the rewrite answers the string `"1"` and stores `"1" + 1` (the string
`"11"`). -/
theorem derefAt_updates_strings :
    ∃ e' st', (Rewrite.derefAt 1 "x" "_x" "_setX").run (accessorSession postfixModule) =
        .ok ((), st') ∧
      st'.root = .mk 1 ⟨0, 0⟩ (some 0) (.program [.mk 2 ⟨0, 0⟩ none (.exprStmt e')]) ∧
      ∀ {V : Type} (prims : Primitives V),
        (∀ m : Memory V, m.store "x" = prims.str "1" →
          Eval prims [] (.mk 3 ⟨0, 0⟩ none (.update .incr false (.mk 4 ⟨0, 0⟩ none (.ident "x")))) m
            (.prim (prims.toNumeric (prims.str "1")))
            (m.update "x" (prims.str "1") (prims.step .incr (prims.toNumeric (prims.str "1"))))) ∧
        ∀ mt : Memory V, mt.cell = prims.str "1" → ∀ w mt',
          Eval prims [("_x", .reader), ("_setX", .writer)] e' mt w mt' →
            w = .prim (prims.str "1") ∧
              mt'.cell = prims.binary .add (prims.str "1") (prims.num Double.one) := by
  have hroot : ((Rewrite.derefAt 1 "x" "_x" "_setX").run (accessorSession postfixModule)).toOption.map
      (fun r => r.2.root) = some (.mk 1 ⟨0, 0⟩ (some 0) (.program [.mk 2 ⟨0, 0⟩ none (.exprStmt
        (.mk 3 ⟨0, 0⟩ none (updateOf ⟨"_x", "_setX"⟩ .incr false "_current")))])) := by
    cbv
  cases hr : (Rewrite.derefAt 1 "x" "_x" "_setX").run (accessorSession postfixModule) with
  | error e =>
    rw [hr] at hroot
    cases hroot
  | ok r =>
    obtain ⟨⟨⟩, st'⟩ := r
    rw [hr] at hroot
    refine ⟨_, st', rfl, by simpa [Except.toOption] using hroot, fun prims => ⟨?_, ?_⟩⟩
    · intro m hx
      rw [← hx]
      exact .update rfl
    · intro mt hcell w mt' h
      obtain ⟨rfl, rfl⟩ := Eval.deterministic h (run_updateOf rfl rfl (by decide) .incr false)
      simp [hcell, Memory.setCell, UpdateOp.binaryOp]

end Module

end SignalSugar
