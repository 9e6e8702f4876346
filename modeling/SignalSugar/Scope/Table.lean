import SignalSugar.Name.Stem
import SignalSugar.Text.Position
/-!
# The scope table

A module's scopes, in the order their owners come in a pre-order walk. Each scope knows its
kind, its parent, the node that owns it and the names declared directly in it. The table
also keeps every name spelled anywhere in the module, together with every name handed out
since, each once (`List.insert` adds a name only when it is not there yet).

Fresh names (`generateUid`) follow the progression `_stem`, `_stem2`, `_stem3`, … of a
sanitized hint, starting after the last attempt made for that stem in that scope. A name is
taken when it is spelled in the module or bound on the scope chain. Every name bound in a
scope was spelled or handed out, so the progression meets a free name within
`names.length + 1` attempts, which is the fuel of the search.
-/

namespace SignalSugar

/-- What opens a scope. -/
inductive ScopeKind where
  | program
  | function
  | block
deriving Repr, BEq, DecidableEq, Inhabited

/-- The name of a scope kind. -/
def ScopeKind.text : ScopeKind → String
  | .program => "Program"
  | .function => "Function"
  | .block => "Block"

/-- One scope. -/
structure Scope where
  kind : ScopeKind
  parent : Option Nat
  /-- The id of the owning node. -/
  owner : Nat
  ownerType : String
  ownerSpan : Span
  /-- The names declared directly in the scope, latest first. -/
  bindings : List String
  /-- For each stem, the last attempt of a fresh name made in this scope. -/
  counters : List (String × Nat)
deriving Inhabited

/-- The scopes of a module and the names it spells. -/
structure Scopes where
  table : Array Scope
  names : List String

namespace Scopes

/-- The scope with index `s` (the program scope for an index out of range). -/
def get (t : Scopes) (s : Nat) : Scope := t.table[s]?.getD default

/-- Whether `name` is declared directly in scope `s`. -/
def owns (t : Scopes) (s : Nat) (name : String) : Bool := (t.get s).bindings.contains name

/-- Whether `name` is declared in scope `s` or one of its ancestors. The chain is followed
at most once per scope. -/
def has (t : Scopes) (s : Nat) (name : String) : Bool :=
  go t.table.size (some s)
where
  /-- Follows parents with `fuel` steps left. -/
  go : Nat → Option Nat → Bool
    | _, none => false
    | 0, some _ => false
    | fuel + 1, some c => t.owns c name || go fuel (t.get c).parent

/-- The nearest scope from `s` outwards that declares `name`; the outermost scope when none
does. -/
def declaring (t : Scopes) (s : Nat) (name : String) : Nat :=
  go t.table.size s
where
  /-- Follows parents with `fuel` steps left. -/
  go : Nat → Nat → Nat
    | 0, c => c
    | fuel + 1, c =>
      if t.owns c name then c
      else match (t.get c).parent with
        | some p => go fuel p
        | none => c

/-- Changes scope `s`. -/
def modify (t : Scopes) (s : Nat) (f : Scope → Scope) : Scopes :=
  { t with table := t.table.modify s f }

/-- Declares `name` in scope `s`. -/
def declare (t : Scopes) (s : Nat) (name : String) : Scopes :=
  let t := t.modify s fun sc =>
    if sc.bindings.contains name then sc else { sc with bindings := name :: sc.bindings }
  { t with names := t.names.insert name }

/-- Opens a scope and answers its index. -/
def openScope (t : Scopes) (kind : ScopeKind) (parent : Option Nat) (owner : Nat)
    (ownerType : String) (ownerSpan : Span) : Scopes × Nat :=
  ({ t with table := t.table.push ⟨kind, parent, owner, ownerType, ownerSpan, [], []⟩ },
    t.table.size)

/-- Whether a name is taken as seen from scope `s`. -/
def taken (t : Scopes) (s : Nat) (name : String) : Bool := t.names.contains name || t.has s name

/-- The first attempt after `attempt` whose name is free, within `fuel` attempts. -/
def firstFree (t : Scopes) (s : Nat) (stem : String) : Nat → Nat → Nat
  | 0, attempt => attempt + 1
  | fuel + 1, attempt =>
    if t.taken s (Name.candidate stem (attempt + 1)) then t.firstFree s stem fuel (attempt + 1)
    else attempt + 1

/-- A fresh name for `hint`, declared in scope `s`. -/
def generateUid (t : Scopes) (s : Nat) (hint : String) : Scopes × String :=
  let stem := Name.sanitize hint
  let last := ((t.get s).counters.lookup stem).getD 0
  let attempt := t.firstFree s stem (t.names.length + 1) last
  let name := Name.candidate stem attempt
  let t := t.modify s fun sc =>
    { sc with counters := (stem, attempt) :: sc.counters.filter (fun e => e.1 != stem) }
  (t.declare s name, name)

end Scopes

end SignalSugar
