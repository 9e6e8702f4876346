import SignalSugar.Syntax.Node
/-!
# Evaluating expressions

A big-step semantics for the expressions a signal's uses are written in and rewritten to:
names, literals, unary, binary and short-circuiting operators, conditionals, sequences,
assignments and updates of variables, arrows, calls, and the block bodies of arrows made of
`const` declarations, expression statements and `return`.

The primitive values are kept abstract: `Primitives V` says what the literals denote and what
the operators compute on a type `V`. Besides them a run handles closures and the two accessors
of a signal. Calling the `reader` answers the signal's cell; calling the `writer` with a
function `f` sets the cell to `f cell` and answers the new value.

The memory holds the variables, the cell and the trace of the run: each read, write and
update of a variable, in order. A name bound by a closure or a `const` (`Locals`) shadows the
variable of that name; any other name is a variable of the memory.

The order of evaluation is the language's: operands left to right, the target of a compound
assignment read before its right side, the right side of `||`, `&&` and `??` (and of their
assignments) only when the left does not settle the result. An update `++`/`--` converts the
value it finds to a numeric one first.

## Main results

* `Eval.trace_prefix`: a run only adds to the trace.
* `Eval.deterministic`: a run of an expression has one result and one final memory.
-/

namespace SignalSugar

/-- The number `1`. -/
def Double.one : Double := ⟨0x3FF0000000000000⟩

/-- The binary operator an update applies: `+` for `++`, `-` for `--`. -/
def UpdateOp.binaryOp : UpdateOp → BinaryOp
  | .incr => .add
  | .decr => .sub

/-- Literal constructs: numbers, strings, booleans, `null` and big integers. -/
def Kind.isLiteral : Kind → Bool
  | .num _ | .str _ | .bool _ | .nullLit | .bigint _ => true
  | _ => false

/-- What the literals denote and what the operators compute, on primitive values `V`. -/
structure Primitives (V : Type) where
  undefined : V
  num : Double → V
  str : String → V
  bool : Bool → V
  null : V
  /-- The value of a big integer literal, given its source text. -/
  bigint : String → V
  unary : UnaryOp → V → V
  binary : BinaryOp → V → V → V
  /-- Whether a value counts as true in a test. -/
  truthy : V → Bool
  /-- Whether a value is `null` or `undefined`. -/
  nullish : V → Bool
  /-- The numeric value an update starts from: a number or a big integer. -/
  toNumeric : V → V
  /-- What `++` or `--` makes of a numeric value: one more or one less, of the value's own
  numeric kind. -/
  step : UpdateOp → V → V
  isNumber : V → Bool
  /-- A number is its own numeric value. -/
  toNumeric_of_isNumber : ∀ v, isNumber v = true → toNumeric v = v
  /-- On a number, `++` and `--` add and take away the number one. -/
  step_of_isNumber : ∀ op v, isNumber v = true → step op v = binary op.binaryOp v (num Double.one)

namespace Primitives

variable {V : Type} (prims : Primitives V)

/-- The value of a literal construct. -/
def literal : Kind → Option V
  | .num d => some (prims.num d)
  | .str s => some (prims.str s)
  | .bool b => some (prims.bool b)
  | .nullLit => some prims.null
  | .bigint raw => some (prims.bigint raw)
  | _ => none

theorem isLiteral_of_literal {k : Kind} {v : V} (h : prims.literal k = some v) :
    k.isLiteral = true := by
  cases k <;> simp_all [literal, Kind.isLiteral]

/-- Whether the left operand `v` of `op` is the result, so that the right is not evaluated. -/
def settles : LogicalOp → V → Bool
  | .or, v => prims.truthy v
  | .and, v => !prims.truthy v
  | .nullish, v => !prims.nullish v

end Primitives

/-- The values a run handles. -/
inductive Value (V : Type) where
  | prim (v : V)
  /-- A function: its parameters, its body (an expression, or a block when `expression` is
  false), and the names bound where it was made. -/
  | closure (params : List String) (body : Node) (expression : Bool)
      (env : List (String × Value V))
  /-- The read accessor of a signal. -/
  | reader
  /-- The write accessor of a signal. -/
  | writer

/-- Names bound by closures and `const` declarations, innermost first. -/
abbrev Locals (V : Type) := List (String × Value V)

/-- One access of a run to a variable. -/
inductive Access (V : Type) where
  | read (name : String)
  | write (name : String) (value : V)
  /-- An update `++`/`--`: the value it found and the value it stored. -/
  | update (name : String) (found stored : V)

/-- The variable an access is to. -/
def Access.name {V : Type} : Access V → String
  | .read y | .write y _ | .update y _ _ => y

/-- The variables, the signal's cell and the trace of a run. -/
structure Memory (V : Type) where
  store : String → V
  cell : V
  trace : List (Access V)

namespace Memory

variable {V : Type}

/-- A variable read. -/
def read (m : Memory V) (y : String) : Memory V := { m with trace := m.trace ++ [.read y] }

/-- The store with `y` holding `v`. -/
def assign (m : Memory V) (y : String) (v : V) : String → V :=
  fun z => if z = y then v else m.store z

/-- A variable written. -/
def write (m : Memory V) (y : String) (v : V) : Memory V :=
  { m with store := m.assign y v, trace := m.trace ++ [.write y v] }

/-- A variable updated by `++`/`--`: it held `found` and now holds `stored`. -/
def update (m : Memory V) (y : String) (found stored : V) : Memory V :=
  { m with store := m.assign y stored, trace := m.trace ++ [.update y found stored] }

/-- The signal's cell set to `v`. -/
def setCell (m : Memory V) (v : V) : Memory V := { m with cell := v }

end Memory

/-- The names of a list of parameters, when each is a plain name. -/
def paramNames (ps : List Node) : Option (List String) :=
  ps.mapM fun p =>
    match p.kind with
    | .bindingIdent y => some y
    | _ => none

variable {V : Type}

mutual

/-- `Eval prims l n m w m'`: with the names `l` bound, the expression `n` run from memory `m`
answers `w` and leaves `m'`. -/
inductive Eval (prims : Primitives V) : Locals V → Node → Memory V → Value V → Memory V → Prop
  | bound {l i s o y w m} : l.lookup y = some w → Eval prims l (.mk i s o (.ident y)) m w m
  | stored {l i s o y m} : l.lookup y = none →
      Eval prims l (.mk i s o (.ident y)) m (.prim (m.store y)) (m.read y)
  | literal {l i s o k v m} : prims.literal k = some v → Eval prims l (.mk i s o k) m (.prim v) m
  | unary {l i s o op a m v m₁} : Eval prims l a m (.prim v) m₁ →
      Eval prims l (.mk i s o (.unary op a)) m (.prim (prims.unary op v)) m₁
  | binary {l i s o op a b m v₁ m₁ v₂ m₂} : Eval prims l a m (.prim v₁) m₁ →
      Eval prims l b m₁ (.prim v₂) m₂ →
      Eval prims l (.mk i s o (.binary op a b)) m (.prim (prims.binary op v₁ v₂)) m₂
  | settled {l i s o op a b m v m₁} : Eval prims l a m (.prim v) m₁ →
      prims.settles op v = true → Eval prims l (.mk i s o (.logical op a b)) m (.prim v) m₁
  | unsettled {l i s o op a b m v m₁ w m₂} : Eval prims l a m (.prim v) m₁ →
      prims.settles op v = false → Eval prims l b m₁ w m₂ →
      Eval prims l (.mk i s o (.logical op a b)) m w m₂
  | condThen {l i s o t c a m v m₁ w m₂} : Eval prims l t m (.prim v) m₁ →
      prims.truthy v = true → Eval prims l c m₁ w m₂ →
      Eval prims l (.mk i s o (.cond t c a)) m w m₂
  | condElse {l i s o t c a m v m₁ w m₂} : Eval prims l t m (.prim v) m₁ →
      prims.truthy v = false → Eval prims l a m₁ w m₂ →
      Eval prims l (.mk i s o (.cond t c a)) m w m₂
  | seq {l i s o es m ws w m'} : EvalList prims l es m ws m' → ws.getLast? = some w →
      Eval prims l (.mk i s o (.seq es)) m w m'
  | assign {l i s o i' s' o' y r m v m₁} : l.lookup y = none → Eval prims l r m (.prim v) m₁ →
      Eval prims l (.mk i s o (.assign .plain (.mk i' s' o' (.ident y)) r)) m (.prim v)
        (m₁.write y v)
  | compound {l i s o op i' s' o' y r m v m₁} : l.lookup y = none →
      Eval prims l r (m.read y) (.prim v) m₁ →
      Eval prims l (.mk i s o (.assign (.binary op) (.mk i' s' o' (.ident y)) r)) m
        (.prim (prims.binary op (m.store y) v)) (m₁.write y (prims.binary op (m.store y) v))
  | assignSettled {l i s o op i' s' o' y r m} : l.lookup y = none →
      prims.settles op (m.store y) = true →
      Eval prims l (.mk i s o (.assign (.logical op) (.mk i' s' o' (.ident y)) r)) m
        (.prim (m.store y)) (m.read y)
  | assignUnsettled {l i s o op i' s' o' y r m v m₁} : l.lookup y = none →
      prims.settles op (m.store y) = false → Eval prims l r (m.read y) (.prim v) m₁ →
      Eval prims l (.mk i s o (.assign (.logical op) (.mk i' s' o' (.ident y)) r)) m (.prim v)
        (m₁.write y v)
  | update {l i s o op leading i' s' o' y m} : l.lookup y = none →
      Eval prims l (.mk i s o (.update op leading (.mk i' s' o' (.ident y)))) m
        (.prim (if leading then prims.step op (prims.toNumeric (m.store y))
          else prims.toNumeric (m.store y)))
        (m.update y (m.store y) (prims.step op (prims.toNumeric (m.store y))))
  | arrow {l i s o ps body expression m xs} : paramNames ps = some xs →
      Eval prims l (.mk i s o (.arrow ps body expression false)) m
        (.closure xs body expression l) m
  | call {l i s o f args m fv m₁ vs m₂ w m₃} : Eval prims l f m fv m₁ →
      EvalList prims l args m₁ vs m₂ → Apply prims fv vs m₂ w m₃ →
      Eval prims l (.mk i s o (.call f args false)) m w m₃

/-- The expressions of a list run one after the other, answering their values in order. -/
inductive EvalList (prims : Primitives V) :
    Locals V → List Node → Memory V → List (Value V) → Memory V → Prop
  | nil {l m} : EvalList prims l [] m [] m
  | cons {l e es m w m₁ ws m₂} : Eval prims l e m w m₁ → EvalList prims l es m₁ ws m₂ →
      EvalList prims l (e :: es) m (w :: ws) m₂

/-- A value called with arguments. A closure binds its parameters to the first arguments;
the writer calls its function with the cell's value and stores what it answers. -/
inductive Apply (prims : Primitives V) :
    Value V → List (Value V) → Memory V → Value V → Memory V → Prop
  | expression {xs body env vs m w m'} : xs.length ≤ vs.length →
      Eval prims (xs.zip vs ++ env) body m w m' → Apply prims (.closure xs body true env) vs m w m'
  | block {xs i s o ss env vs m w m'} : xs.length ≤ vs.length →
      Exec prims (xs.zip vs ++ env) ss m w m' →
      Apply prims (.closure xs (.mk i s o (.block ss)) false env) vs m w m'
  | reader {m} : Apply prims .reader [] m (.prim m.cell) m
  | writer {f m v m₁} : Apply prims f [.prim m.cell] m (.prim v) m₁ →
      Apply prims .writer [f] m (.prim v) (m₁.setCell v)

/-- The statements of a block body run in order, answering what `return` gives, or
`undefined` when the body ends without one. -/
inductive Exec (prims : Primitives V) :
    Locals V → List Node → Memory V → Value V → Memory V → Prop
  | done {l m} : Exec prims l [] m (.prim prims.undefined) m
  | const {l i s o i' s' o' i'' s'' o'' y e ss m w m₁ r m₂} : Eval prims l e m w m₁ →
      Exec prims ((y, w) :: l) ss m₁ r m₂ →
      Exec prims l (.mk i s o (.varDecl .const
        [.mk i' s' o' (.declarator (.mk i'' s'' o'' (.bindingIdent y)) (some e))]) :: ss) m r m₂
  | expr {l i s o e ss m w m₁ r m₂} : Eval prims l e m w m₁ → Exec prims l ss m₁ r m₂ →
      Exec prims l (.mk i s o (.exprStmt e) :: ss) m r m₂
  | ret {l i s o e ss m w m₁} : Eval prims l e m w m₁ →
      Exec prims l (.mk i s o (.returnStmt (some e)) :: ss) m w m₁

end

/-! ### Inversion

Each construct of an expression is run by its own rules: what a run of it was, read off its
derivation. Only a literal's rule could apply to any node, and a non-literal has no value as a
literal. -/

namespace Eval

variable {prims : Primitives V} {l : Locals V} {i : Nat} {s : Span} {o : Option Nat}
  {m m' : Memory V} {w : Value V}

theorem literal_inv {k : Kind} (hk : k.isLiteral = true) (h : Eval prims l (.mk i s o k) m w m') :
    ∃ v, prims.literal k = some v ∧ w = .prim v ∧ m' = m := by
  cases h with
  | literal hv => exact ⟨_, hv, rfl, rfl⟩
  | _ => simp [Kind.isLiteral] at hk

theorem stored_inv {y : String} (hy : l.lookup y = none)
    (h : Eval prims l (.mk i s o (.ident y)) m w m') :
    w = .prim (m.store y) ∧ m' = m.read y := by
  cases h with
  | bound hb => simp [hy] at hb
  | stored _ => exact ⟨rfl, rfl⟩
  | literal hv => simp [Primitives.literal] at hv

theorem unary_inv {op : UnaryOp} {a : Node} (h : Eval prims l (.mk i s o (.unary op a)) m w m') :
    ∃ v, Eval prims l a m (.prim v) m' ∧ w = .prim (prims.unary op v) := by
  cases h with
  | unary ha => exact ⟨_, ha, rfl⟩
  | literal hv => simp [Primitives.literal] at hv

theorem binary_inv {op : BinaryOp} {a b : Node}
    (h : Eval prims l (.mk i s o (.binary op a b)) m w m') :
    ∃ v₁ m₁ v₂, Eval prims l a m (.prim v₁) m₁ ∧ Eval prims l b m₁ (.prim v₂) m' ∧
      w = .prim (prims.binary op v₁ v₂) := by
  cases h with
  | binary ha hb => exact ⟨_, _, _, ha, hb, rfl⟩
  | literal hv => simp [Primitives.literal] at hv

theorem logical_inv {op : LogicalOp} {a b : Node}
    (h : Eval prims l (.mk i s o (.logical op a b)) m w m') :
    ∃ v m₁, Eval prims l a m (.prim v) m₁ ∧
      (prims.settles op v = true ∧ w = .prim v ∧ m' = m₁ ∨
        prims.settles op v = false ∧ Eval prims l b m₁ w m') := by
  cases h with
  | settled ha hv => exact ⟨_, _, ha, .inl ⟨hv, rfl, rfl⟩⟩
  | unsettled ha hv hb => exact ⟨_, _, ha, .inr ⟨hv, hb⟩⟩
  | literal hv => simp [Primitives.literal] at hv

theorem cond_inv {t c a : Node} (h : Eval prims l (.mk i s o (.cond t c a)) m w m') :
    ∃ v m₁, Eval prims l t m (.prim v) m₁ ∧
      (prims.truthy v = true ∧ Eval prims l c m₁ w m' ∨
        prims.truthy v = false ∧ Eval prims l a m₁ w m') := by
  cases h with
  | condThen ht hv hc => exact ⟨_, _, ht, .inl ⟨hv, hc⟩⟩
  | condElse ht hv ha => exact ⟨_, _, ht, .inr ⟨hv, ha⟩⟩
  | literal hv => simp [Primitives.literal] at hv

theorem seq_inv {es : List Node} (h : Eval prims l (.mk i s o (.seq es)) m w m') :
    ∃ ws, EvalList prims l es m ws m' ∧ ws.getLast? = some w := by
  cases h with
  | seq hes hw => exact ⟨_, hes, hw⟩
  | literal hv => simp [Primitives.literal] at hv

theorem assign_inv {i' : Nat} {s' : Span} {o' : Option Nat} {y : String} {r : Node}
    (h : Eval prims l (.mk i s o (.assign .plain (.mk i' s' o' (.ident y)) r)) m w m') :
    ∃ v m₁, Eval prims l r m (.prim v) m₁ ∧ w = .prim v ∧ m' = m₁.write y v := by
  cases h with
  | assign _ hr => exact ⟨_, _, hr, rfl, rfl⟩
  | literal hv => simp [Primitives.literal] at hv

theorem compound_inv {op : BinaryOp} {i' : Nat} {s' : Span} {o' : Option Nat} {y : String}
    {r : Node} (h : Eval prims l (.mk i s o (.assign (.binary op) (.mk i' s' o' (.ident y)) r)) m w m') :
    ∃ v m₁, Eval prims l r (m.read y) (.prim v) m₁ ∧
      w = .prim (prims.binary op (m.store y) v) ∧
      m' = m₁.write y (prims.binary op (m.store y) v) := by
  cases h with
  | compound _ hr => exact ⟨_, _, hr, rfl, rfl⟩
  | literal hv => simp [Primitives.literal] at hv

theorem logicalAssign_inv {op : LogicalOp} {i' : Nat} {s' : Span} {o' : Option Nat} {y : String}
    {r : Node} (h : Eval prims l (.mk i s o (.assign (.logical op) (.mk i' s' o' (.ident y)) r)) m w m') :
    prims.settles op (m.store y) = true ∧ w = .prim (m.store y) ∧ m' = m.read y ∨
      prims.settles op (m.store y) = false ∧
        ∃ v m₁, Eval prims l r (m.read y) (.prim v) m₁ ∧ w = .prim v ∧ m' = m₁.write y v := by
  cases h with
  | assignSettled _ hv => exact .inl ⟨hv, rfl, rfl⟩
  | assignUnsettled _ hv hr => exact .inr ⟨hv, _, _, hr, rfl, rfl⟩
  | literal hv => simp [Primitives.literal] at hv

theorem update_inv {op : UpdateOp} {leading : Bool} {i' : Nat} {s' : Span} {o' : Option Nat}
    {y : String} (h : Eval prims l (.mk i s o (.update op leading (.mk i' s' o' (.ident y)))) m w m') :
    w = .prim (if leading then prims.step op (prims.toNumeric (m.store y))
      else prims.toNumeric (m.store y)) ∧
      m' = m.update y (m.store y) (prims.step op (prims.toNumeric (m.store y))) := by
  cases h with
  | update _ => exact ⟨rfl, rfl⟩
  | literal hv => simp [Primitives.literal] at hv

end Eval

/-! ### The trace only grows -/

section Trace

variable {prims : Primitives V}

mutual

/-- A run only adds to the trace. -/
theorem Eval.trace_prefix : ∀ {l : Locals V} {n : Node} {m m' : Memory V} {w : Value V},
    Eval prims l n m w m' → m.trace <+: m'.trace
  | _, _, _, _, _, .bound _ | _, _, _, _, _, .literal _ | _, _, _, _, _, .arrow _ =>
    List.prefix_refl _
  | _, _, _, _, _, .stored _ | _, _, _, _, _, .assignSettled _ _ | _, _, _, _, _, .update _ =>
    List.prefix_append _ _
  | _, _, _, _, _, .unary h | _, _, _, _, _, .settled h _ => h.trace_prefix
  | _, _, _, _, _, .seq h _ => h.trace_prefix
  | _, _, _, _, _, .binary h₁ h₂ | _, _, _, _, _, .unsettled h₁ _ h₂
  | _, _, _, _, _, .condThen h₁ _ h₂ | _, _, _, _, _, .condElse h₁ _ h₂ =>
    h₁.trace_prefix.trans h₂.trace_prefix
  | _, _, _, _, _, .assign _ h => h.trace_prefix.trans (List.prefix_append _ _)
  | _, _, _, _, _, .compound _ h | _, _, _, _, _, .assignUnsettled _ _ h =>
    (List.prefix_append _ _).trans (h.trace_prefix.trans (List.prefix_append _ _))
  | _, _, _, _, _, .call h₁ h₂ h₃ => h₁.trace_prefix.trans (h₂.trace_prefix.trans h₃.trace_prefix)

theorem EvalList.trace_prefix : ∀ {l : Locals V} {es : List Node} {m m' : Memory V}
    {ws : List (Value V)}, EvalList prims l es m ws m' → m.trace <+: m'.trace
  | _, _, _, _, _, .nil => List.prefix_refl _
  | _, _, _, _, _, .cons h₁ h₂ => h₁.trace_prefix.trans h₂.trace_prefix

theorem Apply.trace_prefix : ∀ {f : Value V} {vs : List (Value V)} {m m' : Memory V}
    {w : Value V}, Apply prims f vs m w m' → m.trace <+: m'.trace
  | _, _, _, _, _, .expression _ h | _, _, _, _, _, .block _ h => h.trace_prefix
  | _, _, _, _, _, .writer h => h.trace_prefix
  | _, _, _, _, _, .reader => List.prefix_refl _

theorem Exec.trace_prefix : ∀ {l : Locals V} {ss : List Node} {m m' : Memory V} {w : Value V},
    Exec prims l ss m w m' → m.trace <+: m'.trace
  | _, _, _, _, _, .done => List.prefix_refl _
  | _, _, _, _, _, .const h₁ h₂ | _, _, _, _, _, .expr h₁ h₂ => h₁.trace_prefix.trans h₂.trace_prefix
  | _, _, _, _, _, .ret h => h.trace_prefix

end

end Trace

/-! ### One result for each run

Only one rule applies to each construct and state: a name is bound or not, the left operand of
a logical operator settles the result or not, a test is truthy or not. So a run is determined
by where it starts. -/

section Deterministic

variable {prims : Primitives V}

mutual

/-- A run of an expression has one result and one final memory. -/
theorem Eval.deterministic : ∀ {l : Locals V} {n : Node} {m m₁ m₂ : Memory V} {w₁ w₂ : Value V},
    Eval prims l n m w₁ m₁ → Eval prims l n m w₂ m₂ → w₁ = w₂ ∧ m₁ = m₂
  | _, _, _, _, _, _, _, .bound h, h₂ => by
    cases h₂ with
    | bound h' => exact ⟨Option.some.inj (h.symm.trans h'), rfl⟩
    | stored h' => simp [h] at h'
    | literal hv => simp [Primitives.literal] at hv
  | _, _, _, _, _, _, _, .stored h, h₂ => by
    cases h₂ with
    | bound h' => simp [h] at h'
    | stored _ => exact ⟨rfl, rfl⟩
    | literal hv => simp [Primitives.literal] at hv
  | _, _, _, _, _, _, _, .literal hv, h₂ => by
    obtain ⟨v', hv', rfl, rfl⟩ := Eval.literal_inv (prims.isLiteral_of_literal hv) h₂
    rw [Option.some.inj (hv.symm.trans hv')]
    exact ⟨rfl, rfl⟩
  | _, _, _, _, _, _, _, .unary ha, h₂ => by
    obtain ⟨v', ha', rfl⟩ := Eval.unary_inv h₂
    obtain ⟨hv, rfl⟩ := Eval.deterministic ha ha'
    cases hv
    exact ⟨rfl, rfl⟩
  | _, _, _, _, _, _, _, .binary ha hb, h₂ => by
    obtain ⟨v₁, m₁, v₂, ha', hb', rfl⟩ := Eval.binary_inv h₂
    obtain ⟨hv₁, rfl⟩ := Eval.deterministic ha ha'
    cases hv₁
    obtain ⟨hv₂, rfl⟩ := Eval.deterministic hb hb'
    cases hv₂
    exact ⟨rfl, rfl⟩
  | _, _, _, _, _, _, _, .settled ha hs, h₂ => by
    obtain ⟨v', m₁, ha', h₂⟩ := Eval.logical_inv h₂
    obtain ⟨hv, rfl⟩ := Eval.deterministic ha ha'
    cases hv
    rcases h₂ with ⟨-, rfl, rfl⟩ | ⟨hs', -⟩
    · exact ⟨rfl, rfl⟩
    · simp [hs] at hs'
  | _, _, _, _, _, _, _, .unsettled ha hs hb, h₂ => by
    obtain ⟨v', m₁, ha', h₂⟩ := Eval.logical_inv h₂
    obtain ⟨hv, rfl⟩ := Eval.deterministic ha ha'
    cases hv
    rcases h₂ with ⟨hs', -⟩ | ⟨-, hb'⟩
    · simp [hs] at hs'
    · exact Eval.deterministic hb hb'
  | _, _, _, _, _, _, _, .condThen ht hv hc, h₂ => by
    obtain ⟨v', m₁, ht', h₂⟩ := Eval.cond_inv h₂
    obtain ⟨hv', rfl⟩ := Eval.deterministic ht ht'
    cases hv'
    rcases h₂ with ⟨-, hc'⟩ | ⟨hv', -⟩
    · exact Eval.deterministic hc hc'
    · simp [hv] at hv'
  | _, _, _, _, _, _, _, .condElse ht hv ha, h₂ => by
    obtain ⟨v', m₁, ht', h₂⟩ := Eval.cond_inv h₂
    obtain ⟨hv', rfl⟩ := Eval.deterministic ht ht'
    cases hv'
    rcases h₂ with ⟨hv', -⟩ | ⟨-, ha'⟩
    · simp [hv] at hv'
    · exact Eval.deterministic ha ha'
  | _, _, _, _, _, _, _, .seq hes hw, h₂ => by
    obtain ⟨ws', hes', hw'⟩ := Eval.seq_inv h₂
    obtain ⟨rfl, rfl⟩ := EvalList.deterministic hes hes'
    exact ⟨Option.some.inj (hw.symm.trans hw'), rfl⟩
  | _, _, _, _, _, _, _, .assign _ hr, h₂ => by
    obtain ⟨v', m₁, hr', rfl, rfl⟩ := Eval.assign_inv h₂
    obtain ⟨hv, rfl⟩ := Eval.deterministic hr hr'
    cases hv
    exact ⟨rfl, rfl⟩
  | _, _, _, _, _, _, _, .compound _ hr, h₂ => by
    obtain ⟨v', m₁, hr', rfl, rfl⟩ := Eval.compound_inv h₂
    obtain ⟨hv, rfl⟩ := Eval.deterministic hr hr'
    cases hv
    exact ⟨rfl, rfl⟩
  | _, _, _, _, _, _, _, .assignSettled _ hs, h₂ => by
    rcases Eval.logicalAssign_inv h₂ with ⟨-, rfl, rfl⟩ | ⟨hs', -⟩
    · exact ⟨rfl, rfl⟩
    · simp [hs] at hs'
  | _, _, _, _, _, _, _, .assignUnsettled _ hs hr, h₂ => by
    rcases Eval.logicalAssign_inv h₂ with ⟨hs', -⟩ | ⟨-, v', m₁, hr', rfl, rfl⟩
    · simp [hs] at hs'
    · obtain ⟨hv, rfl⟩ := Eval.deterministic hr hr'
      cases hv
      exact ⟨rfl, rfl⟩
  | _, _, _, _, _, _, _, .update _, h₂ => by
    obtain ⟨rfl, rfl⟩ := Eval.update_inv h₂
    exact ⟨rfl, rfl⟩
  | _, _, _, _, _, _, _, .arrow h, h₂ => by
    cases h₂ with
    | arrow h' => exact ⟨by rw [Option.some.inj (h.symm.trans h')], rfl⟩
    | literal hv => simp [Primitives.literal] at hv
  | _, _, _, _, _, _, _, .call hf hargs happ, h₂ => by
    cases h₂ with
    | call hf' hargs' happ' =>
      obtain ⟨rfl, rfl⟩ := Eval.deterministic hf hf'
      obtain ⟨rfl, rfl⟩ := EvalList.deterministic hargs hargs'
      exact Apply.deterministic happ happ'
    | literal hv => simp [Primitives.literal] at hv
termination_by structural _ _ _ _ _ _ _ h => h

/-- A run of a list of expressions has one list of results and one final memory. -/
theorem EvalList.deterministic : ∀ {l : Locals V} {es : List Node} {m m₁ m₂ : Memory V}
    {ws₁ ws₂ : List (Value V)}, EvalList prims l es m ws₁ m₁ → EvalList prims l es m ws₂ m₂ →
      ws₁ = ws₂ ∧ m₁ = m₂
  | _, _, _, _, _, _, _, .nil, .nil => ⟨rfl, rfl⟩
  | _, _, _, _, _, _, _, .cons h hs, .cons h' hs' => by
    obtain ⟨rfl, rfl⟩ := Eval.deterministic h h'
    obtain ⟨rfl, rfl⟩ := EvalList.deterministic hs hs'
    exact ⟨rfl, rfl⟩
termination_by structural _ _ _ _ _ _ _ h => h

/-- A call has one result and one final memory. -/
theorem Apply.deterministic : ∀ {f : Value V} {vs : List (Value V)} {m m₁ m₂ : Memory V}
    {w₁ w₂ : Value V}, Apply prims f vs m w₁ m₁ → Apply prims f vs m w₂ m₂ → w₁ = w₂ ∧ m₁ = m₂
  | _, _, _, _, _, _, _, .expression _ h, .expression _ h' => Eval.deterministic h h'
  | _, _, _, _, _, _, _, .block _ h, .block _ h' => Exec.deterministic h h'
  | _, _, _, _, _, _, _, .reader, .reader => ⟨rfl, rfl⟩
  | _, _, _, _, _, _, _, .writer h, .writer h' => by
    obtain ⟨hv, rfl⟩ := Apply.deterministic h h'
    cases hv
    exact ⟨rfl, rfl⟩
termination_by structural _ _ _ _ _ _ _ h => h

/-- A run of a block body has one result and one final memory. -/
theorem Exec.deterministic : ∀ {l : Locals V} {ss : List Node} {m m₁ m₂ : Memory V}
    {w₁ w₂ : Value V}, Exec prims l ss m w₁ m₁ → Exec prims l ss m w₂ m₂ → w₁ = w₂ ∧ m₁ = m₂
  | _, _, _, _, _, _, _, .done, .done => ⟨rfl, rfl⟩
  | _, _, _, _, _, _, _, .const h hs, .const h' hs' => by
    obtain ⟨rfl, rfl⟩ := Eval.deterministic h h'
    exact Exec.deterministic hs hs'
  | _, _, _, _, _, _, _, .expr h hs, .expr h' hs' => by
    obtain ⟨rfl, rfl⟩ := Eval.deterministic h h'
    exact Exec.deterministic hs hs'
  | _, _, _, _, _, _, _, .ret h, .ret h' => Eval.deterministic h h'
termination_by structural _ _ _ _ _ _ _ h => h

end

end Deterministic

end SignalSugar
