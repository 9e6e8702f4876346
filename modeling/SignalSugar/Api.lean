import SignalSugar.Transform
import SignalSugar.Name.Stem
import SignalSugar.Decimal.Stepwise
/-!
# Operations

The operations the rewriter offers, each on plain inputs:

* `transform` and `transformBatch` (in `SignalSugar.Transform`): the whole rewrite;
* `reprint`: read a module and print it back;
* `derefModule`, `normalizeModule`, `destructureModule`: one pass over a module, started at
  the program or at one of its top-level statements;
* `freshNames`, `importHooks`: fresh names and helper imports, in order, each seeing the
  ones before;
* `scopeReport`: the scope tree of a module;
* the helpers on names, numbers, strings and positions the rewrite is built from.

A request that names something the module does not have (a statement index out of range,
say) is answered with `OpError.request`.
-/

namespace SignalSugar

/-- Why an operation gave no result. -/
inductive OpError where
  /-- The request does not fit the module. -/
  | request (message : String)
  /-- The rewrite failed. -/
  | failed (e : RewriteError)

/-- Lifts a rewrite failure. -/
def OpError.lift {α : Type} : Except RewriteError α → Except OpError α
  | .ok a => .ok a
  | .error e => .error (.failed e)

/-- Reads a module (JSX unless it is TypeScript), refusing unsupported constructs, and
starts a session over it. -/
def loadModule (code : String) (typescript : Bool) (hookSource : String) :
    Except RewriteError Session := do
  let m ← parseModule code typescript (!typescript)
  if let some e := m.unsupported then throw e
  return Session.start m.root hookSource

/-- Reads a module and prints it back. -/
def reprint (code : String) (typescript : Bool) : Except RewriteError String := do
  return (← loadModule code typescript "").root.print

/-- The top-level statements of a session's program. -/
def Session.statements (st : Session) : List Node :=
  match st.root.kind with
  | .program body => body
  | _ => []

/-- The node a pass starts at: the program, or its `k`-th top-level statement. -/
def Session.owner (st : Session) : Option Nat → Except OpError Nat
  | none => .ok st.root.id
  | some k =>
    match st.statements[k]? with
    | some s => .ok s.id
    | none => .error (.request "scope index out of range")

/-- Runs a rewrite on a session; answers its result and the printed program. -/
def Session.run {α : Type} (st : Session) (r : Rewrite α) : Except OpError (α × String) :=
  match r.run st with
  | .ok (a, st) => .ok (a, st.root.print)
  | .error e => .error (.failed e)

/-- Dereferences the signal `name` with accessors `read` and `write`. -/
def derefModule (code name read write : String) (scope : Option Nat) (typescript : Bool) :
    Except OpError String := do
  let st ← OpError.lift (loadModule code typescript "")
  let owner ← st.owner scope
  return (← st.run (Rewrite.derefAt owner name read write)).2

/-- Rewrites the reads of `name`. -/
def normalizeModule (code name : String) (sub : Substitution) (scope : Option Nat) :
    Except OpError String := do
  let st ← OpError.lift (loadModule code false "")
  let owner ← st.owner scope
  return (← st.run (Rewrite.normalizeAt owner sub name)).2

/-- The first plain assignment `L = R` of an expression statement: the statement's own
expression, or the first such element of a sequence. -/
def assignmentOf (e : Node) : Option Node :=
  match e.kind with
  | .assign .plain .. => some e
  | .seq es => es.find? fun x => (x.kind matches .assign .plain ..)
  | _ => none

/-- Flattens a destructuring: declarator `declarator` of the `statement`-th top-level
declaration, or the assignment of the `statement`-th top-level expression statement. -/
def destructureModule (code : String) (statement declarator : Nat) (replace : Bool)
    (hookSource : String) : Except OpError String := do
  let st ← OpError.lift (loadModule code false hookSource)
  let some s := st.statements[statement]? | .error (.request "statement index out of range")
  let (anchor, pattern, source) ← match s.kind with
    | .varDecl _ ds =>
      match ds[declarator]? with
      | some d =>
        match d.kind with
        | .declarator t (some i) => pure (d, t, i)
        | _ => .error (.request "declarator has no initializer")
      | none => .error (.request "declarator index out of range")
    | .exprStmt e =>
      match assignmentOf e with
      | some a =>
        match a.kind with
        | .assign _ l r => pure (a, l, r)
        | _ => .error (.request "statement is not a variable declaration or assignment")
      | none => .error (.request "statement is not a variable declaration or assignment")
    | _ => .error (.request "statement is not a variable declaration or assignment")
  let fuel := pattern.count + 1
  return (← st.run (Rewrite.destructure fuel anchor.id source pattern replace)).2

/-- Fresh names for the hints, in order, as seen from the program or a top-level
statement. -/
def freshNames (code : String) (hints : List String) (scope : Option Nat) :
    Except OpError (List String) := do
  let st ← OpError.lift (loadModule code false "")
  let owner ← st.owner scope
  return (← st.run (hints.mapM fun h => Rewrite.uidAt owner h)).1

/-- The local names of the helpers, importing each on first use, and the printed module. -/
def importHooks (code : String) (helpers : List String) (hookSource : String) :
    Except OpError (List String × String) := do
  let st ← OpError.lift (loadModule code false hookSource)
  st.run (helpers.mapM Rewrite.hook)

/-- One scope as reported. -/
structure ScopeEntry where
  kind : String
  parent : Option Nat
  owner : String
  ownerSpan : Span
  /-- The names declared in the scope, in code point order. -/
  bindings : List String
  /-- The asked names bound in the scope or an enclosing one, in the order asked. -/
  has : List String
  /-- The asked names bound in the scope itself, in the order asked. -/
  owns : List String

/-- The scope tree of a module with the number of its nodes. -/
structure ScopeReport where
  scopes : List ScopeEntry
  nodes : Nat

/-- The scopes of a module, with the asked names looked up in each. -/
def scopeReport (code : String) (typescript : Bool) (names : List String) :
    Except OpError ScopeReport := do
  let st ← OpError.lift (loadModule code typescript "")
  let t := st.scopes
  let entries := (List.range t.table.size).map fun i =>
    let sc := t.get i
    { kind := sc.kind.text, parent := sc.parent, owner := sc.ownerType,
      ownerSpan := sc.ownerSpan,
      bindings := sc.bindings.mergeSort (fun a b => decide (a ≤ b)),
      has := names.filter (t.has i ·), owns := names.filter (t.owns i ·) : ScopeEntry }
  return ⟨entries, st.root.count⟩

/-- A number handed to the number printer: a JSON number as written, or one of the values
JSON cannot spell. -/
inductive NumberInput where
  | written (text : String)
  | infinity
  | negInfinity
  | nan
  | negZero

/-- The double a number input stands for (see `Double.readStepwise?`); none when the written
number is out of range. -/
def NumberInput.value : NumberInput → Option Double
  | .written text => Double.readStepwise? text
  | .infinity => some ⟨0x7FF0000000000000⟩
  | .negInfinity => some ⟨0xFFF0000000000000⟩
  | .nan => some ⟨0x7FF8000000000000⟩
  | .negZero => some ⟨0x8000000000000000⟩

/-- Prints a number the way numeric literals are printed; none when it is out of range. -/
def formatNumber (n : NumberInput) : Option String := n.value.map Double.text

end SignalSugar
