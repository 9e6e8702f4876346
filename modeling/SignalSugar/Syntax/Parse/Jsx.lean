import SignalSugar.Syntax.Parse.State
/-!
# JSX

JSX is read by characters rather than by tokens: names may hold `-` and `:`, attribute
strings have no escapes, and text runs from `>` to the next `<` or `{`. Names, attribute
strings and text are kept exactly as written. Inside `{ }` the parser reads ordinary
expressions and then returns to JSX at the `}`.

An element's closing tag must name the same name as its opening tag, part by part; trivia
between the parts does not count. A closing tag that names another name is reported, and
reading goes on.
-/

namespace SignalSugar.Parse

variable (g : Grammar)

/-- Moves the parser to character position `p`, scanning the ordinary token there. -/
def moveTo (p : Nat) : P Unit := do
  setToken (Scan.next (← source) p) p

/-- The position after trivia at `p`. -/
def afterTrivia (p : Nat) : P Nat := do
  let (q, _, _) := Scan.skipTrivia (← source) p false .code
  noteComment p q
  return q

/-- Reads a JSX name part at `p`: its end, or a failure if there is none. -/
def jsxNamePart (p : Nat) : P Nat := do
  let src ← source
  if CharClass.isIdStart (src.get p) then return Scan.jsxNameEnd src p
  else
    let t := Scan.next src p
    failAt "Unexpected token" t.start t.stop

/-- A JSX element name as read: its range, and its parts with the `:` and `.` between
them. -/
structure JsxName where
  start : Nat
  stop : Nat
  parts : List String

/-- Reads a JSX element name at `p` (after trivia): `a`, `a-b`, the namespaced `a:b`, or
the member chain `A.B.C`, whose parts after a `.` may not hold a hyphen. -/
def jsxName (p : Nat) : P JsxName := do
  let src ← source
  let start ← afterTrivia p
  let first ← jsxNamePart start
  let q ← afterTrivia first
  if src.get q == ':' then
    let r ← afterTrivia (q + 1)
    let e ← jsxNamePart r
    return ⟨start, e, [src.slice start first, ":", src.slice r e]⟩
  let (stop, parts) ← loop (first, [src.slice start first]) fun (e, parts) => do
    let q ← afterTrivia e
    if src.get q == '.' then
      let r ← afterTrivia (q + 1)
      let e' ← jsxNamePart r
      let part := src.slice r e'
      if part.contains '-' then
        failAt "Identifiers in JSX cannot contain hyphens" r e'
      return .more (e', part :: "." :: parts)
    return .done (e, parts.reverse)
  return ⟨start, stop, parts⟩

/-- Reads an expression container at the `{` at `p`: the node and the position after `}`.
An empty container (comments only) holds nothing. -/
def jsxContainer (p : Nat) (allowEmpty : Bool) : P (Node × Nat) := do
  moveTo (p + 1)
  if ← atPunct "\x7d" then
    let t ← cur
    if !allowEmpty then
      failAt "JSX attributes must only be assigned a non-empty 'expression'." p t.stop
    let n ← node p t.stop (.jsxContainer none)
    return (n, t.stop)
  let e ← withContext (fun c => { c with noIn := false, inJsxContainer := true }) g.expression
  let t ← cur
  if !t.isPunct "\x7d" then
    failAt ("Expected `\x7d` but found `" ++ t.kind.describe ++ "`") t.start t.stop
  let n ← node p t.stop (.jsxContainer (some e))
  return (n, t.stop)

/-- Reads a spread `{...expr}` at the `{` at `p`, building the node with `k`. The
expression may be a comma sequence. -/
def jsxSpread (p : Nat) (k : Node → Kind) : P (Node × Nat) := do
  moveTo (p + 1)
  expectPunct "..."
  let e ← withContext (fun c => { c with noIn := false, inJsxContainer := true }) g.expression
  let t ← cur
  if !t.isPunct "\x7d" then
    failAt ("Expected `\x7d` but found `" ++ t.kind.describe ++ "`") t.start t.stop
  let n ← node p t.stop (k e)
  return (n, t.stop)

/-- Reads an attribute value at `p` (after `=` and trivia): the node and the position after
it. -/
def jsxAttrValue (p : Nat) : P (Node × Nat) := do
  let src ← source
  let c := src.get p
  if c == '"' || c == '\'' then
    match Scan.jsxStringEnd src c (p + 1) with
    | some stop =>
      let n ← node p stop (.jsxText (src.slice p stop))
      return (n, stop)
    | none => failAt "Unterminated string" p src.size
  else if c == '{' then jsxContainer g p false
  else if c == '<' then
    moveTo p
    let n ← g.jsx
    return (n, (← get).prevEnd)
  else
    let t := Scan.next src p
    failAt "Unexpected token" t.start t.stop

/-- Reads the attributes of an opening tag from `p`: the attributes, the position after the
tag, and whether it closed itself. -/
def jsxAttributes (p : Nat) : P (List Node × Nat × Bool) := do
  let src ← source
  loop (p, ([] : List Node)) fun (pos, acc) => do
    let q ← afterTrivia pos
    let c := src.get q
    if c == '/' then
      let r ← afterTrivia (q + 1)
      if src.get r == '>' then return .done (acc.reverse, r + 1, true)
      let t := Scan.next src r
      failAt ("Expected `>` but found `" ++ t.kind.describe ++ "`") t.start t.stop
    else if c == '>' then return .done (acc.reverse, q + 1, false)
    else if c == '{' then
      let (n, after) ← jsxSpread g q .jsxSpreadAttr
      return .more (after, n :: acc)
    else
      let nameStop ← jsxNamePart q
      let nameStop ← do
        let r ← afterTrivia nameStop
        if src.get r == ':' then jsxNamePart (← afterTrivia (r + 1)) else pure nameStop
      let name := src.slice q nameStop
      let r ← afterTrivia nameStop
      if src.get r == '=' then
        let v ← afterTrivia (r + 1)
        let (value, after) ← jsxAttrValue g v
        let n ← node q after (.jsxAttr name (some value))
        return .more (after, n :: acc)
      else
        let n ← node q nameStop (.jsxAttr name none)
        return .more (nameStop, n :: acc)

/-- Reads children from `p` up to a closing tag: the children, the position of the `<` of
the closing tag, and the position after its `</`. -/
def jsxChildren (p : Nat) : P (List Node × Nat × Nat) := do
  let src ← source
  loop (p, ([] : List Node)) fun (pos, acc) => do
    let t := Scan.nextJsxChild src pos
    match t.kind with
    | .jsxText =>
      noteScan t
      let n ← node t.start t.stop (.jsxText (src.slice t.start t.stop))
      return .more (t.stop, n :: acc)
    | .punct "\x7b" =>
      let q ← afterTrivia (pos + 1)
      if src.get q == '.' && src.get (q + 1) == '.' && src.get (q + 2) == '.' then
        let (n, after) ← jsxSpread g pos .jsxSpreadChild
        return .more (after, n :: acc)
      let (n, after) ← jsxContainer g pos true
      return .more (after, n :: acc)
    | .punct "<" =>
      let q ← afterTrivia (pos + 1)
      if src.get q == '/' then return .done (acc.reverse, pos, q + 1)
      moveTo pos
      let n ← g.jsx
      return .more ((← get).prevEnd, n :: acc)
    | _ =>
      setToken t pos
      unexpected

/-- Reads a JSX element or fragment at the current `<`. -/
def parseJsx : P Node := do
  let src ← source
  let start := (← cur).start
  let q ← afterTrivia (start + 1)
  if src.get q == '>' then
    let (children, _, after) ← jsxChildren g (q + 1)
    let r ← afterTrivia after
    if src.get r != '>' then
      let t := Scan.next src r
      failAt ("Expected `>` but found `" ++ t.kind.describe ++ "`") t.start t.stop
    moveTo (r + 1)
    finish start (.jsxFragment children)
  else
    let opening ← jsxName (start + 1)
    let name := src.slice opening.start opening.stop
    let (attrs, after, selfClosing) ← jsxAttributes g opening.stop
    if selfClosing then
      moveTo after
      finish start (.jsxElement name attrs [] true)
    else
      let (children, _, closeAt) ← jsxChildren g after
      let closing ← jsxName closeAt
      let r ← afterTrivia closing.stop
      if src.get r != '>' then
        let t := Scan.next src r
        failAt ("Expected `>` but found `" ++ t.kind.describe ++ "`") t.start t.stop
      moveTo (r + 1)
      if closing.parts != opening.parts then
        report ("Expected corresponding JSX closing tag for '" ++ name ++ "'.") closing.start
          closing.stop
      finish start (.jsxElement name attrs children false)

end SignalSugar.Parse
