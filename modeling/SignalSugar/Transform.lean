import SignalSugar.Rewrite.Labels
import SignalSugar.Syntax.Parse.Program
import SignalSugar.Print.Code
/-!
# Transforming a module

`transformSource` runs the whole rewrite on one module:

1. read it (TypeScript if asked; JSX unless it is TypeScript outside a `.tsx` file);
2. answer it unchanged when no call has a bare label callee;
3. refuse a construct outside the supported subset;
4. expand its labels; answer it unchanged when there are none;
5. print the result.

`transformModule` reports a failure against the file's name and text; `transformBatch`
transforms several files with the same options, each under its own name.
-/

namespace SignalSugar

/-- How a module is transformed. -/
structure TransformOptions where
  filename : String := "input.js"
  /-- The module the runtime helpers are imported from. -/
  hookSource : String := "solid-js"
  typescript : Bool := false
  /-- Fail when a bare read of an expanded binding is left. -/
  verify : Bool := true

/-- A transformed module. -/
structure Transformed where
  code : String
  changed : Bool
  labels : Nat

/-- A module given back as it came. -/
def Transformed.unchanged (code : String) : Transformed := ⟨code, false, 0⟩

/-- A session over a parsed module: its scopes analysed, no helper imported yet. -/
def Session.start (root : Node) (hookSource : String) : Session :=
  let (root, scopes) := analyzeScopes root
  { root := root, detached := [], scopes := scopes, hookSource := hookSource, hooks := [] }

/-- Transforms one module. -/
def transformSource (source : String) (o : TransformOptions) : Except RewriteError Transformed := do
  let jsx := !o.typescript || o.filename.endsWith ".tsx"
  let parsed ← parseModule source o.typescript jsx
  if !parsed.sawLabel then return .unchanged source
  if let some e := parsed.unsupported then throw e
  let (labels, st) ← (Rewrite.expandLabels o.verify).run (Session.start parsed.root o.hookSource)
  if labels == 0 then return .unchanged source
  return ⟨st.root.print, true, labels⟩

/-- Transforms one module, reporting a failure against the file. -/
def transformModule (source : String) (o : TransformOptions) : Except Report Transformed :=
  match transformSource source o with
  | .ok r => .ok r
  | .error e => .error (e.report o.filename source)

/-- Transforms files given as name and text, each with the options under its own name. -/
def transformBatch (files : List (String × String)) (o : TransformOptions) :
    List (Except Report Transformed) :=
  files.map fun (name, code) => transformModule code { o with filename := name }

end SignalSugar
