import SignalSugar.Text.Position
/-!
# Why a rewrite stops

`RewriteError` names the cause of a failure, with the span it concerns. Its message, its
stable code and the hints for the reader are functions of the cause. `Report` is the form a
failure takes for a whole module: the code, the message, the file, the line and column of the
span's start, the source line there, and a fixed sentence per code that says which promise
of the rewriter the input broke.
-/

namespace SignalSugar

/-- The cause of a failed rewrite. -/
inductive RewriteError where
  /-- A directive got something other than a bare identifier. -/
  | malformedArgument (directive : String) (found : String) (span : Span)
  /-- A construct stands outside the construct it needs around it. -/
  | missingContext (context : String) (expected : String) (found : String) (span : Span)
  /-- A destructuring target that is not a plain name. -/
  | patternTarget (found : String) (span : Span)
  /-- A node of a kind the rewrite cannot take at that place. -/
  | valueShape (found : String) (expected : String) (span : Span)
  /-- A write to a binding that became a read-only accessor. -/
  | readOnly (name : String) (span : Span)
  /-- A reference that survived the rewrite of its binding. -/
  | residual (name : String) (span : Span)
  /-- Syntax the rewriter does not take. -/
  | unsupported (found : String) (span : Span)
  /-- The source does not parse. -/
  | parse (message : String) (span : Span)
deriving Repr, BEq, Inhabited

namespace RewriteError

/-- The name of the kind of failure. -/
def kindName : RewriteError → String
  | .malformedArgument .. => "MalformedArgument"
  | .missingContext .. => "MissingEnclosingContext"
  | .patternTarget .. => "UnsupportedPatternTarget"
  | .valueShape .. => "UnsupportedValueShape"
  | .readOnly .. => "ReadOnlyBinding"
  | .residual .. => "ResidualReference"
  | .unsupported .. => "UnsupportedSyntax"
  | .parse .. => "Parse"

/-- The stable code of the kind of failure. -/
def code : RewriteError → String
  | .malformedArgument .. => "L-ERR-DIRECTIVE-001"
  | .missingContext .. => "L-ERR-DIRECTIVE-002"
  | .patternTarget .. => "L-ERR-PATTERN-001"
  | .valueShape .. => "L-ERR-PATTERN-002"
  | .readOnly .. => "L-ERR-BINDING-001"
  | .residual .. => "L-ERR-BINDING-002"
  | .unsupported .. => "L-ERR-SYNTAX-002"
  | .parse .. => "L-ERR-SYNTAX-001"

/-- The span the failure concerns. -/
def span : RewriteError → Span
  | .malformedArgument _ _ s | .missingContext _ _ _ s | .patternTarget _ s
  | .valueShape _ _ s | .readOnly _ s | .residual _ s | .unsupported _ s | .parse _ s => s

/-- The message of a failure. -/
def message : RewriteError → String
  | .malformedArgument d found _ => "`" ++ d ++ "` expects an identifier argument, found " ++ found
  | .missingContext c e found _ => c ++ " requires an enclosing " ++ e ++ ", found " ++ found
  | .patternTarget found _ => "unsupported destructuring target: " ++ found
  | .valueShape found e _ => "unexpected " ++ found ++ ", expected " ++ e
  | .readOnly n _ => "`" ++ n ++ "` is a lazily destructured binding and cannot be assigned"
  | .residual n _ => "`" ++ n ++ "` is still referenced after rewriting"
  | .unsupported found _ => "unsupported syntax: " ++ found
  | .parse m _ => m

/-- Advice for the reader, where there is one. -/
def hints : RewriteError → List String
  | .malformedArgument d _ _ => ["Pass the signal name directly, e.g. `" ++ d ++ "(count)`."]
  | .missingContext .. =>
    ["Use the directive as a property value: `\x7b value: $property(count) \x7d`."]
  | .patternTarget .. => ["Destructure into a local name and assign the member afterwards."]
  | .readOnly n _ => ["Copy `" ++ n ++ "` into a new local before mutating it."]
  | _ => []

/-- Whether the failure is about the syntax of the input rather than its rewrite. -/
def isSyntactic : RewriteError → Bool
  | .unsupported .. | .parse .. => true
  | _ => false

end RewriteError

/-- The promise of the rewriter that a failure with this code concerns. -/
def guaranteeOf (code : String) : String :=
  if code = "L-ERR-DIRECTIVE-001" then "Directives only accept a bare identifier argument."
  else if code = "L-ERR-DIRECTIVE-002" then
    "Accessor directives are only valid as the value of an object property."
  else if code = "L-ERR-PATTERN-001" then "Destructuring labels only bind plain identifiers."
  else if code = "L-ERR-PATTERN-002" then
    "Destructuring labels only accept object and array patterns."
  else if code = "L-ERR-BINDING-001" then "Lazily destructured bindings are read-only."
  else if code = "L-ERR-BINDING-002" then
    "Every reference to a rewritten binding is replaced by an accessor call."
  else if code = "L-ERR-SYNTAX-001" then "Input modules are syntactically valid."
  else if code = "L-ERR-SYNTAX-002" then
    "Only the supported JavaScript subset reaches the rewriter."
  else "Unknown invariant."

/-- A failure as reported for a whole module. -/
structure Report where
  code : String
  syntactic : Bool
  message : String
  guarantee : String
  file : String
  line : Nat
  column : Nat
  context : Option String
  hints : List String
deriving Repr, BEq

namespace Report

/-- A report with no source line and no hints. -/
def new (code message file : String) (line column : Nat) : Report :=
  ⟨code, false, message, guaranteeOf code, file, line, column, none, []⟩

/-- The kind of report: a syntax error or a transform error. -/
def kindText (r : Report) : String :=
  if r.syntactic then "SYNTAX_ERROR" else "TRANSFORM_ERROR"

/-- The one-line form `file:line:column [code] message`. -/
def display (r : Report) : String :=
  r.file ++ ":" ++ toString r.line ++ ":" ++ toString r.column ++ " [" ++ r.code ++ "] " ++
    r.message

end Report

/-- The report of a failure in the module `source` read from `file`. -/
def RewriteError.report (e : RewriteError) (file source : String) : Report :=
  let lc := lineColumn source e.span.start
  { code := e.code, syntactic := e.isSyntactic, message := e.message,
    guarantee := guaranteeOf e.code, file := file, line := lc.line, column := lc.column,
    context := sourceLine source lc.line, hints := e.hints }

end SignalSugar
