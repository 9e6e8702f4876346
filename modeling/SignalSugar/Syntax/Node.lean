import SignalSugar.Syntax.Operator
import SignalSugar.Decimal.Shortest
import SignalSugar.Text.Position
/-!
# The syntax tree of a module

A module is a tree of `Node`s. Each node carries

* an identity: parsed nodes are numbered from 1 in source order, and nodes the rewriter
  builds or copies carry 0, so a parsed node can be found again after the tree around it
  has changed;
* the byte span of the source it came from (`[0, 0)` for built nodes; copies keep the span
  of what they copy);
* the scope it opens, if scope analysis found that it opens one;
* its `Kind`: what construct it is, with its parts.

Object keys, class member keys and member properties share one type, `Key`: a name written
plainly, an expression in brackets, or a private `#name`.

## Walking the tree

`Kind.children` lists the child nodes of a construct in source order, each with its `Role`:
the few places whose meaning a rewrite must know (what is assigned to, what a declarator
starts with, what a property holds). Every child is smaller than its parent
(`Kind.sizeOf_lt_of_mem_children`), so walks recurse on `sizeOf` and stop.
`Kind.mapChildrenM` rebuilds a construct with each child replaced, in the same order.
-/

namespace SignalSugar

mutual

/-- A node: identity, source span, the scope it opens, and what it is. -/
inductive Node where
  | mk (id : Nat) (span : Span) (scope : Option Nat) (kind : Kind)

/-- The key of a property, of a class member, or of a member access. -/
inductive Key where
  /-- A key written as a name, a string or a number: its text. -/
  | named (name : String)
  /-- A key computed by an expression: `[expr]`. -/
  | computed (expr : Node)
  /-- A private name `#name`. -/
  | privateName (name : String)

/-- The constructs of a module. -/
inductive Kind where
  | program (body : List Node)
  | varDecl (kind : DeclKind) (declarators : List Node)
  | declarator (target : Node) (init : Option Node)
  | exprStmt (expr : Node)
  | returnStmt (arg : Option Node)
  | block (body : List Node)
  | ifStmt (test consequent : Node) (alternate : Option Node)
  | forStmt (init test update : Option Node) (body : Node)
  | forIn (left right body : Node)
  | forOf (left right body : Node) (isAwait : Bool)
  | whileStmt (test body : Node)
  | doWhile (body test : Node)
  | breakStmt (label : Option String)
  | continueStmt (label : Option String)
  | labeled (label : String) (body : Node)
  | throwStmt (arg : Node)
  | tryStmt (block : Node) (handler finalizer : Option Node)
  | catchClause (param : Option Node) (body : Node)
  | switchStmt (disc : Node) (cases : List Node)
  | switchCase (test : Option Node) (body : List Node)
  | debugger
  | empty
  | funcDecl (name : Option Node) (params : List Node) (body : Node) (flags : FunctionFlags)
  | classDecl (name superClass : Option Node) (body : List Node)
  | importDecl (specs : List ImportSpec) (source : String)
  | exportDecl (decl : Node)
  | exportList (specs : List ExportSpec) (source : Option String)
  | exportAll (exported : Option String) (source : String)
  | exportDefault (decl : Node)
  | classMethod (kind : MethodKind) (key : Key) (isStatic : Bool) (params : List Node)
      (body : Node) (flags : FunctionFlags)
  | classProperty (key : Key) (value : Option Node) (isStatic accessor : Bool)
  | staticBlock (body : List Node)
  | ident (name : String)
  | num (value : Double)
  | str (value : String)
  | bool (value : Bool)
  | nullLit
  | regex (raw : String)
  | bigint (raw : String)
  | thisExpr
  | superExpr
  | metaProp (object property : String)
  | template (quasis : List String) (exprs : List Node)
  | tagged (tag quasi : Node)
  | array (elements : List (Option Node))
  | object (props : List Node)
  | property (key : Key) (value : Node) (shorthand : Bool)
  | objMethod (kind : MethodKind) (key : Key) (params : List Node) (body : Node)
      (flags : FunctionFlags)
  | spread (arg : Node)
  | call (callee : Node) (args : List Node) (optional : Bool)
  | newExpr (callee : Node) (args : List Node)
  | importCall (source : Node) (options : Option Node)
  | member (object : Node) (prop : Key) (optional : Bool)
  | chain (expr : Node)
  | arrow (params : List Node) (body : Node) (expression isAsync : Bool)
  | funcExpr (name : Option Node) (params : List Node) (body : Node) (flags : FunctionFlags)
  | classExpr (name superClass : Option Node) (body : List Node)
  | unary (op : UnaryOp) (arg : Node)
  | update (op : UpdateOp) (leading : Bool) (arg : Node)
  | binary (op : BinaryOp) (left right : Node)
  | privateIn (name : String) (right : Node)
  | logical (op : LogicalOp) (left right : Node)
  | assign (op : AssignOp) (left right : Node)
  | cond (test consequent alternate : Node)
  | seq (exprs : List Node)
  | awaitExpr (arg : Node)
  | yieldExpr (arg : Option Node) (delegate : Bool)
  | jsxElement (name : String) (attrs children : List Node) (selfClosing : Bool)
  | jsxFragment (children : List Node)
  | jsxAttr (name : String) (value : Option Node)
  | jsxSpreadAttr (arg : Node)
  | jsxContainer (expr : Option Node)
  | jsxSpreadChild (expr : Node)
  | jsxText (raw : String)
  | bindingIdent (name : String)
  | objectPattern (props : List Node) (rest : Option Node)
  | bindingProperty (key : Key) (value : Node) (shorthand : Bool)
  | arrayPattern (elements : List (Option Node)) (rest : Option Node)
  | assignPattern (left right : Node)
  | rest (arg : Node)

end

instance : Inhabited Kind := ⟨.empty⟩
instance : Inhabited Node := ⟨.mk 0 ⟨0, 0⟩ none .empty⟩

namespace Node

/-- The identity of a node; 0 for built and copied nodes. -/
def id : Node → Nat
  | .mk i _ _ _ => i

/-- The source span of a node. -/
def span : Node → Span
  | .mk _ s _ _ => s

/-- The scope a node opens, if it opens one. -/
def scope : Node → Option Nat
  | .mk _ _ s _ => s

/-- What a node is. -/
def kind : Node → Kind
  | .mk _ _ _ k => k

/-- A built node: no identity, no source, no scope. -/
def built (k : Kind) : Node := .mk 0 ⟨0, 0⟩ none k

/-- The same node with another kind: identity, span and scope stay. -/
def withKind (n : Node) (k : Kind) : Node := .mk n.id n.span n.scope k

@[simp] theorem id_mk (i : Nat) (s : Span) (o : Option Nat) (k : Kind) :
    (Node.mk i s o k).id = i := rfl
@[simp] theorem span_mk (i : Nat) (s : Span) (o : Option Nat) (k : Kind) :
    (Node.mk i s o k).span = s := rfl
@[simp] theorem scope_mk (i : Nat) (s : Span) (o : Option Nat) (k : Kind) :
    (Node.mk i s o k).scope = o := rfl
@[simp] theorem kind_mk (i : Nat) (s : Span) (o : Option Nat) (k : Kind) :
    (Node.mk i s o k).kind = k := rfl

theorem sizeOf_kind_lt (n : Node) : sizeOf n.kind < sizeOf n := by
  cases n
  simp only [Node.mk.sizeOf_spec, kind_mk]
  omega

end Node

/-- The type name of a construct, as errors and scope reports show it. -/
def Kind.typeName : Kind → String
  | .program .. => "Program"
  | .varDecl .. => "VariableDeclaration"
  | .declarator .. => "VariableDeclarator"
  | .exprStmt .. => "ExpressionStatement"
  | .returnStmt .. => "ReturnStatement"
  | .block .. => "BlockStatement"
  | .ifStmt .. => "IfStatement"
  | .forStmt .. => "ForStatement"
  | .forIn .. => "ForInStatement"
  | .forOf .. => "ForOfStatement"
  | .whileStmt .. => "WhileStatement"
  | .doWhile .. => "DoWhileStatement"
  | .breakStmt .. => "BreakStatement"
  | .continueStmt .. => "ContinueStatement"
  | .labeled .. => "LabeledStatement"
  | .throwStmt .. => "ThrowStatement"
  | .tryStmt .. => "TryStatement"
  | .catchClause .. => "CatchClause"
  | .switchStmt .. => "SwitchStatement"
  | .switchCase .. => "SwitchCase"
  | .debugger => "DebuggerStatement"
  | .empty => "EmptyStatement"
  | .funcDecl .. => "FunctionDeclaration"
  | .classDecl .. => "ClassDeclaration"
  | .importDecl .. => "ImportDeclaration"
  | .exportDecl .. => "ExportNamedDeclaration"
  | .exportList .. => "ExportNamedDeclaration"
  | .exportAll .. => "ExportAllDeclaration"
  | .exportDefault .. => "ExportDefaultDeclaration"
  | .classMethod .. => "ClassMethod"
  | .classProperty .. => "ClassProperty"
  | .staticBlock .. => "StaticBlock"
  | .ident .. => "Identifier"
  | .num .. => "NumericLiteral"
  | .str .. => "StringLiteral"
  | .bool .. => "BooleanLiteral"
  | .nullLit => "NullLiteral"
  | .regex .. => "RegExpLiteral"
  | .bigint .. => "BigIntLiteral"
  | .thisExpr => "ThisExpression"
  | .superExpr => "Super"
  | .metaProp .. => "MetaProperty"
  | .template .. => "TemplateLiteral"
  | .tagged .. => "TaggedTemplateExpression"
  | .array .. => "ArrayExpression"
  | .object .. => "ObjectExpression"
  | .property .. => "ObjectProperty"
  | .objMethod .. => "ObjectMethod"
  | .spread .. => "SpreadElement"
  | .call .. => "CallExpression"
  | .newExpr .. => "NewExpression"
  | .importCall .. => "ImportExpression"
  | .member .. => "MemberExpression"
  | .chain .. => "ChainExpression"
  | .arrow .. => "ArrowFunctionExpression"
  | .funcExpr .. => "FunctionExpression"
  | .classExpr .. => "ClassExpression"
  | .unary .. => "UnaryExpression"
  | .update .. => "UpdateExpression"
  | .binary .. => "BinaryExpression"
  | .privateIn .. => "PrivateInExpression"
  | .logical .. => "LogicalExpression"
  | .assign .. => "AssignmentExpression"
  | .cond .. => "ConditionalExpression"
  | .seq .. => "SequenceExpression"
  | .awaitExpr .. => "AwaitExpression"
  | .yieldExpr .. => "YieldExpression"
  | .jsxElement .. => "JSXElement"
  | .jsxFragment .. => "JSXFragment"
  | .jsxAttr .. => "JSXAttribute"
  | .jsxSpreadAttr .. => "JSXSpreadAttribute"
  | .jsxContainer .. => "JSXExpressionContainer"
  | .jsxSpreadChild .. => "JSXSpreadChild"
  | .jsxText .. => "JSXText"
  | .bindingIdent .. => "BindingIdentifier"
  | .objectPattern .. => "ObjectPattern"
  | .bindingProperty .. => "BindingProperty"
  | .arrayPattern .. => "ArrayPattern"
  | .assignPattern .. => "AssignmentPattern"
  | .rest .. => "RestElement"

/-- The type name of a node. -/
def Node.typeName (n : Node) : String := n.kind.typeName

/-- Constructs that open a function scope. -/
def Kind.isFunctionLike : Kind → Bool
  | .funcDecl .. | .funcExpr .. | .arrow .. | .objMethod .. | .classMethod .. => true
  | _ => false

/-- The place a child has in its parent, where a rewrite needs to know it. -/
inductive Role where
  /-- What is assigned to: the left of an assignment, of `for … in`/`of`, or of a default. -/
  | target
  /-- The operand of `++` or `--`. -/
  | operand
  /-- The value of a property or of a binding property. -/
  | value
  /-- The initializer of a declarator. -/
  | init
  | other
deriving Repr, BEq, DecidableEq, Inhabited

/-- A child with its role and the proof that it is smaller than its parent. -/
structure Child (parent : Kind) where
  node : Node
  role : Role
  lt : sizeOf node < sizeOf parent

namespace Child

/-- The children in a list, all with the same role. -/
def ofList {parent : Kind} (xs : List Node) (r : Role) (h : sizeOf xs < sizeOf parent) :
    List (Child parent) :=
  xs.attach.map fun ⟨c, hc⟩ => ⟨c, r, Nat.lt_trans (List.sizeOf_lt_of_mem hc) h⟩

/-- The child in an option. -/
def ofOption {parent : Kind} :
    (o : Option Node) → Role → sizeOf o < sizeOf parent → List (Child parent)
  | none, _, _ => []
  | some c, r, h => [⟨c, r, by simp only [Option.some.sizeOf_spec] at h; omega⟩]

/-- The children in a list with holes, all with the same role. -/
def ofHoles {parent : Kind} (xs : List (Option Node)) (r : Role) (h : sizeOf xs < sizeOf parent) :
    List (Child parent) :=
  (xs.attach.map fun ⟨o, ho⟩ =>
    @ofOption parent o r (Nat.lt_trans (List.sizeOf_lt_of_mem ho) h)).flatten

/-- The child in a computed key. -/
def ofKey {parent : Kind} : (k : Key) → sizeOf k < sizeOf parent → List (Child parent)
  | .computed c, h => [⟨c, .other, by simp only [Key.computed.sizeOf_spec] at h; omega⟩]
  | _, _ => []

end Child

/-- The children of a construct in source order, each with its role. Holes of arrays and
the names in keys and labels are not children; expressions in computed keys are. -/
def Kind.children : (k : Kind) → List (Child k)
  | .program b =>
    have := Kind.program.sizeOf_spec b
    Child.ofList b .other (by omega)
  | .varDecl _kind ds =>
    have := Kind.varDecl.sizeOf_spec _kind ds
    Child.ofList ds .other (by omega)
  | .declarator t i =>
    have := Kind.declarator.sizeOf_spec t i
    ⟨t, .other, by omega⟩ :: Child.ofOption i .init (by omega)
  | .exprStmt e =>
    have := Kind.exprStmt.sizeOf_spec e
    [⟨e, .other, by omega⟩]
  | .returnStmt a =>
    have := Kind.returnStmt.sizeOf_spec a
    Child.ofOption a .other (by omega)
  | .block b =>
    have := Kind.block.sizeOf_spec b
    Child.ofList b .other (by omega)
  | .ifStmt t c a =>
    have := Kind.ifStmt.sizeOf_spec t c a
    ⟨t, .other, by omega⟩ :: ⟨c, .other, by omega⟩ ::
      Child.ofOption a .other (by omega)
  | .forStmt i t u b =>
    have := Kind.forStmt.sizeOf_spec i t u b
    Child.ofOption i .other (by omega) ++ Child.ofOption t .other (by omega) ++
      Child.ofOption u .other (by omega) ++ [⟨b, .other, by omega⟩]
  | .forIn l r b =>
    have := Kind.forIn.sizeOf_spec l r b
    [⟨l, .target, by omega⟩, ⟨r, .other, by omega⟩,
      ⟨b, .other, by omega⟩]
  | .forOf l r b _isAwait =>
    have := Kind.forOf.sizeOf_spec l r b _isAwait
    [⟨l, .target, by omega⟩, ⟨r, .other, by omega⟩,
      ⟨b, .other, by omega⟩]
  | .whileStmt t b =>
    have := Kind.whileStmt.sizeOf_spec t b
    [⟨t, .other, by omega⟩, ⟨b, .other, by omega⟩]
  | .doWhile b t =>
    have := Kind.doWhile.sizeOf_spec b t
    [⟨b, .other, by omega⟩, ⟨t, .other, by omega⟩]
  | .breakStmt _ | .continueStmt _ | .debugger | .empty => []
  | .labeled _label b =>
    have := Kind.labeled.sizeOf_spec _label b
    [⟨b, .other, by omega⟩]
  | .throwStmt a =>
    have := Kind.throwStmt.sizeOf_spec a
    [⟨a, .other, by omega⟩]
  | .tryStmt b h f =>
    have := Kind.tryStmt.sizeOf_spec b h f
    ⟨b, .other, by omega⟩ :: (Child.ofOption h .other (by omega) ++
      Child.ofOption f .other (by omega))
  | .catchClause p b =>
    have := Kind.catchClause.sizeOf_spec p b
    Child.ofOption p .other (by omega) ++ [⟨b, .other, by omega⟩]
  | .switchStmt d cs =>
    have := Kind.switchStmt.sizeOf_spec d cs
    ⟨d, .other, by omega⟩ :: Child.ofList cs .other (by omega)
  | .switchCase t cs =>
    have := Kind.switchCase.sizeOf_spec t cs
    Child.ofOption t .other (by omega) ++ Child.ofList cs .other (by omega)
  | .funcDecl i ps b _flags =>
    have := Kind.funcDecl.sizeOf_spec i ps b _flags
    Child.ofOption i .other (by omega) ++ Child.ofList ps .other (by omega) ++
      [⟨b, .other, by omega⟩]
  | .classDecl i s b =>
    have := Kind.classDecl.sizeOf_spec i s b
    Child.ofOption i .other (by omega) ++ Child.ofOption s .other (by omega) ++
      Child.ofList b .other (by omega)
  | .importDecl .. | .exportList .. | .exportAll .. => []
  | .exportDecl d =>
    have := Kind.exportDecl.sizeOf_spec d
    [⟨d, .other, by omega⟩]
  | .exportDefault d =>
    have := Kind.exportDefault.sizeOf_spec d
    [⟨d, .other, by omega⟩]
  | .classMethod _kind k _isStatic ps b _flags =>
    have := Kind.classMethod.sizeOf_spec _kind k _isStatic ps b _flags
    Child.ofKey k (by omega) ++ Child.ofList ps .other (by omega) ++
      [⟨b, .other, by omega⟩]
  | .classProperty k v _isStatic _accessor =>
    have := Kind.classProperty.sizeOf_spec k v _isStatic _accessor
    Child.ofKey k (by omega) ++ Child.ofOption v .other (by omega)
  | .staticBlock b =>
    have := Kind.staticBlock.sizeOf_spec b
    Child.ofList b .other (by omega)
  | .ident _ | .num _ | .str _ | .bool _ | .nullLit | .regex _ | .bigint _ | .thisExpr
  | .superExpr | .metaProp .. | .jsxText _ | .bindingIdent _ => []
  | .template _quasis es =>
    have := Kind.template.sizeOf_spec _quasis es
    Child.ofList es .other (by omega)
  | .tagged t q =>
    have := Kind.tagged.sizeOf_spec t q
    [⟨t, .other, by omega⟩, ⟨q, .other, by omega⟩]
  | .array es =>
    have := Kind.array.sizeOf_spec es
    Child.ofHoles es .other (by omega)
  | .object ps =>
    have := Kind.object.sizeOf_spec ps
    Child.ofList ps .other (by omega)
  | .property k v _shorthand =>
    have := Kind.property.sizeOf_spec k v _shorthand
    Child.ofKey k (by omega) ++ [⟨v, .value, by omega⟩]
  | .objMethod _kind k ps b _flags =>
    have := Kind.objMethod.sizeOf_spec _kind k ps b _flags
    Child.ofKey k (by omega) ++ Child.ofList ps .other (by omega) ++
      [⟨b, .other, by omega⟩]
  | .spread a =>
    have := Kind.spread.sizeOf_spec a
    [⟨a, .other, by omega⟩]
  | .call c as _optional =>
    have := Kind.call.sizeOf_spec c as _optional
    ⟨c, .other, by omega⟩ :: Child.ofList as .other (by omega)
  | .newExpr c as =>
    have := Kind.newExpr.sizeOf_spec c as
    ⟨c, .other, by omega⟩ :: Child.ofList as .other (by omega)
  | .importCall s o =>
    have := Kind.importCall.sizeOf_spec s o
    ⟨s, .other, by omega⟩ :: Child.ofOption o .other (by omega)
  | .member o p _optional =>
    have := Kind.member.sizeOf_spec o p _optional
    ⟨o, .other, by omega⟩ :: Child.ofKey p (by omega)
  | .chain e =>
    have := Kind.chain.sizeOf_spec e
    [⟨e, .other, by omega⟩]
  | .arrow ps b _expression _isAsync =>
    have := Kind.arrow.sizeOf_spec ps b _expression _isAsync
    Child.ofList ps .other (by omega) ++ [⟨b, .other, by omega⟩]
  | .funcExpr i ps b _flags =>
    have := Kind.funcExpr.sizeOf_spec i ps b _flags
    Child.ofOption i .other (by omega) ++ Child.ofList ps .other (by omega) ++
      [⟨b, .other, by omega⟩]
  | .classExpr i s b =>
    have := Kind.classExpr.sizeOf_spec i s b
    Child.ofOption i .other (by omega) ++ Child.ofOption s .other (by omega) ++
      Child.ofList b .other (by omega)
  | .unary _op a =>
    have := Kind.unary.sizeOf_spec _op a
    [⟨a, .other, by omega⟩]
  | .update _op _leading a =>
    have := Kind.update.sizeOf_spec _op _leading a
    [⟨a, .operand, by omega⟩]
  | .binary _op l r =>
    have := Kind.binary.sizeOf_spec _op l r
    [⟨l, .other, by omega⟩, ⟨r, .other, by omega⟩]
  | .privateIn _name r =>
    have := Kind.privateIn.sizeOf_spec _name r
    [⟨r, .other, by omega⟩]
  | .logical _op l r =>
    have := Kind.logical.sizeOf_spec _op l r
    [⟨l, .other, by omega⟩, ⟨r, .other, by omega⟩]
  | .assign _op l r =>
    have := Kind.assign.sizeOf_spec _op l r
    [⟨l, .target, by omega⟩, ⟨r, .other, by omega⟩]
  | .cond t c a =>
    have := Kind.cond.sizeOf_spec t c a
    [⟨t, .other, by omega⟩, ⟨c, .other, by omega⟩,
      ⟨a, .other, by omega⟩]
  | .seq es =>
    have := Kind.seq.sizeOf_spec es
    Child.ofList es .other (by omega)
  | .awaitExpr a =>
    have := Kind.awaitExpr.sizeOf_spec a
    [⟨a, .other, by omega⟩]
  | .yieldExpr a _delegate =>
    have := Kind.yieldExpr.sizeOf_spec a _delegate
    Child.ofOption a .other (by omega)
  | .jsxElement _name as cs _selfClosing =>
    have := Kind.jsxElement.sizeOf_spec _name as cs _selfClosing
    Child.ofList as .other (by omega) ++ Child.ofList cs .other (by omega)
  | .jsxFragment cs =>
    have := Kind.jsxFragment.sizeOf_spec cs
    Child.ofList cs .other (by omega)
  | .jsxAttr _name v =>
    have := Kind.jsxAttr.sizeOf_spec _name v
    Child.ofOption v .other (by omega)
  | .jsxSpreadAttr a =>
    have := Kind.jsxSpreadAttr.sizeOf_spec a
    [⟨a, .other, by omega⟩]
  | .jsxContainer e =>
    have := Kind.jsxContainer.sizeOf_spec e
    Child.ofOption e .other (by omega)
  | .jsxSpreadChild e =>
    have := Kind.jsxSpreadChild.sizeOf_spec e
    [⟨e, .other, by omega⟩]
  | .objectPattern ps r =>
    have := Kind.objectPattern.sizeOf_spec ps r
    Child.ofList ps .other (by omega) ++ Child.ofOption r .other (by omega)
  | .bindingProperty k v _shorthand =>
    have := Kind.bindingProperty.sizeOf_spec k v _shorthand
    Child.ofKey k (by omega) ++ [⟨v, .value, by omega⟩]
  | .arrayPattern es r =>
    have := Kind.arrayPattern.sizeOf_spec es r
    Child.ofHoles es .other (by omega) ++ Child.ofOption r .other (by omega)
  | .assignPattern l r =>
    have := Kind.assignPattern.sizeOf_spec l r
    [⟨l, .target, by omega⟩, ⟨r, .other, by omega⟩]
  | .rest a =>
    have := Kind.rest.sizeOf_spec a
    [⟨a, .other, by omega⟩]

/-! ### Rebuilding a construct -/

section Rebuild

variable {m : Type → Type} [Monad m] {parent : Kind}

/-- Replace each node of a list, in order. -/
def Child.mapListM (xs : List Node) (r : Role) (h : sizeOf xs < sizeOf parent)
    (f : (c : Node) → Role → sizeOf c < sizeOf parent → m Node) : m (List Node) :=
  xs.attach.mapM fun ⟨c, hc⟩ => f c r (Nat.lt_trans (List.sizeOf_lt_of_mem hc) h)

/-- Replace the node of an option. -/
def Child.mapOptionM : (o : Option Node) → Role → sizeOf o < sizeOf parent →
    ((c : Node) → Role → sizeOf c < sizeOf parent → m Node) → m (Option Node)
  | none, _, _, _ => pure none
  | some c, r, h, f => some <$> f c r (by simp only [Option.some.sizeOf_spec] at h; omega)

/-- Replace each node of a list with holes, in order. -/
def Child.mapHolesM (xs : List (Option Node)) (r : Role) (h : sizeOf xs < sizeOf parent)
    (f : (c : Node) → Role → sizeOf c < sizeOf parent → m Node) : m (List (Option Node)) :=
  xs.attach.mapM fun ⟨o, ho⟩ =>
    Child.mapOptionM o r (Nat.lt_trans (List.sizeOf_lt_of_mem ho) h) f

/-- Replace the expression of a computed key. -/
def Child.mapKeyM : (k : Key) → sizeOf k < sizeOf parent →
    ((c : Node) → Role → sizeOf c < sizeOf parent → m Node) → m Key
  | .computed c, h, f =>
    .computed <$> f c .other (by simp only [Key.computed.sizeOf_spec] at h; omega)
  | .named n, _, _ => pure (.named n)
  | .privateName n, _, _ => pure (.privateName n)

end Rebuild

open Child in
/-- A construct with each child replaced by `f`, visited in the order of `Kind.children`. -/
def Kind.mapChildrenM {m : Type → Type} [Monad m] :
    (k : Kind) → ((c : Node) → Role → sizeOf c < sizeOf k → m Node) → m Kind
  | .program b, f =>
    have := Kind.program.sizeOf_spec b
    .program <$> mapListM b .other (by omega) f
  | .varDecl d ds, f =>
    have := Kind.varDecl.sizeOf_spec d ds
    .varDecl d <$> mapListM ds .other (by omega) f
  | .declarator t i, f => do
    have := Kind.declarator.sizeOf_spec t i
    let t ← f t .other (by omega)
    let i ← mapOptionM i .init (by omega) f
    pure (.declarator t i)
  | .exprStmt e, f =>
    have := Kind.exprStmt.sizeOf_spec e
    .exprStmt <$> f e .other (by omega)
  | .returnStmt a, f =>
    have := Kind.returnStmt.sizeOf_spec a
    .returnStmt <$> mapOptionM a .other (by omega) f
  | .block b, f =>
    have := Kind.block.sizeOf_spec b
    .block <$> mapListM b .other (by omega) f
  | .ifStmt t c a, f => do
    have := Kind.ifStmt.sizeOf_spec t c a
    let t ← f t .other (by omega)
    let c ← f c .other (by omega)
    let a ← mapOptionM a .other (by omega) f
    pure (.ifStmt t c a)
  | .forStmt i t u b, f => do
    have := Kind.forStmt.sizeOf_spec i t u b
    let i ← mapOptionM i .other (by omega) f
    let t ← mapOptionM t .other (by omega) f
    let u ← mapOptionM u .other (by omega) f
    let b ← f b .other (by omega)
    pure (.forStmt i t u b)
  | .forIn l r b, f => do
    have := Kind.forIn.sizeOf_spec l r b
    let l ← f l .target (by omega)
    let r ← f r .other (by omega)
    let b ← f b .other (by omega)
    pure (.forIn l r b)
  | .forOf l r b w, f => do
    have := Kind.forOf.sizeOf_spec l r b w
    let l ← f l .target (by omega)
    let r ← f r .other (by omega)
    let b ← f b .other (by omega)
    pure (.forOf l r b w)
  | .whileStmt t b, f => do
    have := Kind.whileStmt.sizeOf_spec t b
    let t ← f t .other (by omega)
    let b ← f b .other (by omega)
    pure (.whileStmt t b)
  | .doWhile b t, f => do
    have := Kind.doWhile.sizeOf_spec b t
    let b ← f b .other (by omega)
    let t ← f t .other (by omega)
    pure (.doWhile b t)
  | .breakStmt l, _ => pure (.breakStmt l)
  | .continueStmt l, _ => pure (.continueStmt l)
  | .labeled l b, f =>
    have := Kind.labeled.sizeOf_spec l b
    .labeled l <$> f b .other (by omega)
  | .throwStmt a, f =>
    have := Kind.throwStmt.sizeOf_spec a
    .throwStmt <$> f a .other (by omega)
  | .tryStmt b h fin, f => do
    have := Kind.tryStmt.sizeOf_spec b h fin
    let b ← f b .other (by omega)
    let h ← mapOptionM h .other (by omega) f
    let fin ← mapOptionM fin .other (by omega) f
    pure (.tryStmt b h fin)
  | .catchClause p b, f => do
    have := Kind.catchClause.sizeOf_spec p b
    let p ← mapOptionM p .other (by omega) f
    let b ← f b .other (by omega)
    pure (.catchClause p b)
  | .switchStmt d cs, f => do
    have := Kind.switchStmt.sizeOf_spec d cs
    let d ← f d .other (by omega)
    let cs ← mapListM cs .other (by omega) f
    pure (.switchStmt d cs)
  | .switchCase t cs, f => do
    have := Kind.switchCase.sizeOf_spec t cs
    let t ← mapOptionM t .other (by omega) f
    let cs ← mapListM cs .other (by omega) f
    pure (.switchCase t cs)
  | .debugger, _ => pure .debugger
  | .empty, _ => pure .empty
  | .funcDecl i ps b fl, f => do
    have := Kind.funcDecl.sizeOf_spec i ps b fl
    let i ← mapOptionM i .other (by omega) f
    let ps ← mapListM ps .other (by omega) f
    let b ← f b .other (by omega)
    pure (.funcDecl i ps b fl)
  | .classDecl i s b, f => do
    have := Kind.classDecl.sizeOf_spec i s b
    let i ← mapOptionM i .other (by omega) f
    let s ← mapOptionM s .other (by omega) f
    let b ← mapListM b .other (by omega) f
    pure (.classDecl i s b)
  | .importDecl sp src, _ => pure (.importDecl sp src)
  | .exportDecl d, f =>
    have := Kind.exportDecl.sizeOf_spec d
    .exportDecl <$> f d .other (by omega)
  | .exportList sp src, _ => pure (.exportList sp src)
  | .exportAll e src, _ => pure (.exportAll e src)
  | .exportDefault d, f =>
    have := Kind.exportDefault.sizeOf_spec d
    .exportDefault <$> f d .other (by omega)
  | .classMethod mth k st ps b fl, f => do
    have := Kind.classMethod.sizeOf_spec mth k st ps b fl
    let k ← mapKeyM k (by omega) f
    let ps ← mapListM ps .other (by omega) f
    let b ← f b .other (by omega)
    pure (.classMethod mth k st ps b fl)
  | .classProperty k v st acc, f => do
    have := Kind.classProperty.sizeOf_spec k v st acc
    let k ← mapKeyM k (by omega) f
    let v ← mapOptionM v .other (by omega) f
    pure (.classProperty k v st acc)
  | .staticBlock b, f =>
    have := Kind.staticBlock.sizeOf_spec b
    .staticBlock <$> mapListM b .other (by omega) f
  | .ident n, _ => pure (.ident n)
  | .num v, _ => pure (.num v)
  | .str v, _ => pure (.str v)
  | .bool v, _ => pure (.bool v)
  | .nullLit, _ => pure .nullLit
  | .regex r, _ => pure (.regex r)
  | .bigint r, _ => pure (.bigint r)
  | .thisExpr, _ => pure .thisExpr
  | .superExpr, _ => pure .superExpr
  | .metaProp o p, _ => pure (.metaProp o p)
  | .template qs es, f =>
    have := Kind.template.sizeOf_spec qs es
    .template qs <$> mapListM es .other (by omega) f
  | .tagged t q, f => do
    have := Kind.tagged.sizeOf_spec t q
    let t ← f t .other (by omega)
    let q ← f q .other (by omega)
    pure (.tagged t q)
  | .array es, f =>
    have := Kind.array.sizeOf_spec es
    .array <$> mapHolesM es .other (by omega) f
  | .object ps, f =>
    have := Kind.object.sizeOf_spec ps
    .object <$> mapListM ps .other (by omega) f
  | .property k v sh, f => do
    have := Kind.property.sizeOf_spec k v sh
    let k ← mapKeyM k (by omega) f
    let v ← f v .value (by omega)
    pure (.property k v sh)
  | .objMethod mth k ps b fl, f => do
    have := Kind.objMethod.sizeOf_spec mth k ps b fl
    let k ← mapKeyM k (by omega) f
    let ps ← mapListM ps .other (by omega) f
    let b ← f b .other (by omega)
    pure (.objMethod mth k ps b fl)
  | .spread a, f =>
    have := Kind.spread.sizeOf_spec a
    .spread <$> f a .other (by omega)
  | .call c as o, f => do
    have := Kind.call.sizeOf_spec c as o
    let c ← f c .other (by omega)
    let as ← mapListM as .other (by omega) f
    pure (.call c as o)
  | .newExpr c as, f => do
    have := Kind.newExpr.sizeOf_spec c as
    let c ← f c .other (by omega)
    let as ← mapListM as .other (by omega) f
    pure (.newExpr c as)
  | .importCall s o, f => do
    have := Kind.importCall.sizeOf_spec s o
    let s ← f s .other (by omega)
    let o ← mapOptionM o .other (by omega) f
    pure (.importCall s o)
  | .member o p opt, f => do
    have := Kind.member.sizeOf_spec o p opt
    let o ← f o .other (by omega)
    let p ← mapKeyM p (by omega) f
    pure (.member o p opt)
  | .chain e, f =>
    have := Kind.chain.sizeOf_spec e
    .chain <$> f e .other (by omega)
  | .arrow ps b e a, f => do
    have := Kind.arrow.sizeOf_spec ps b e a
    let ps ← mapListM ps .other (by omega) f
    let b ← f b .other (by omega)
    pure (.arrow ps b e a)
  | .funcExpr i ps b fl, f => do
    have := Kind.funcExpr.sizeOf_spec i ps b fl
    let i ← mapOptionM i .other (by omega) f
    let ps ← mapListM ps .other (by omega) f
    let b ← f b .other (by omega)
    pure (.funcExpr i ps b fl)
  | .classExpr i s b, f => do
    have := Kind.classExpr.sizeOf_spec i s b
    let i ← mapOptionM i .other (by omega) f
    let s ← mapOptionM s .other (by omega) f
    let b ← mapListM b .other (by omega) f
    pure (.classExpr i s b)
  | .unary op a, f =>
    have := Kind.unary.sizeOf_spec op a
    .unary op <$> f a .other (by omega)
  | .update op l a, f =>
    have := Kind.update.sizeOf_spec op l a
    .update op l <$> f a .operand (by omega)
  | .binary op l r, f => do
    have := Kind.binary.sizeOf_spec op l r
    let l ← f l .other (by omega)
    let r ← f r .other (by omega)
    pure (.binary op l r)
  | .privateIn n r, f =>
    have := Kind.privateIn.sizeOf_spec n r
    .privateIn n <$> f r .other (by omega)
  | .logical op l r, f => do
    have := Kind.logical.sizeOf_spec op l r
    let l ← f l .other (by omega)
    let r ← f r .other (by omega)
    pure (.logical op l r)
  | .assign op l r, f => do
    have := Kind.assign.sizeOf_spec op l r
    let l ← f l .target (by omega)
    let r ← f r .other (by omega)
    pure (.assign op l r)
  | .cond t c a, f => do
    have := Kind.cond.sizeOf_spec t c a
    let t ← f t .other (by omega)
    let c ← f c .other (by omega)
    let a ← f a .other (by omega)
    pure (.cond t c a)
  | .seq es, f =>
    have := Kind.seq.sizeOf_spec es
    .seq <$> mapListM es .other (by omega) f
  | .awaitExpr a, f =>
    have := Kind.awaitExpr.sizeOf_spec a
    .awaitExpr <$> f a .other (by omega)
  | .yieldExpr a d, f =>
    have := Kind.yieldExpr.sizeOf_spec a d
    (.yieldExpr · d) <$> mapOptionM a .other (by omega) f
  | .jsxElement n as cs sc, f => do
    have := Kind.jsxElement.sizeOf_spec n as cs sc
    let as ← mapListM as .other (by omega) f
    let cs ← mapListM cs .other (by omega) f
    pure (.jsxElement n as cs sc)
  | .jsxFragment cs, f =>
    have := Kind.jsxFragment.sizeOf_spec cs
    .jsxFragment <$> mapListM cs .other (by omega) f
  | .jsxAttr n v, f =>
    have := Kind.jsxAttr.sizeOf_spec n v
    .jsxAttr n <$> mapOptionM v .other (by omega) f
  | .jsxSpreadAttr a, f =>
    have := Kind.jsxSpreadAttr.sizeOf_spec a
    .jsxSpreadAttr <$> f a .other (by omega)
  | .jsxContainer e, f =>
    have := Kind.jsxContainer.sizeOf_spec e
    .jsxContainer <$> mapOptionM e .other (by omega) f
  | .jsxSpreadChild e, f =>
    have := Kind.jsxSpreadChild.sizeOf_spec e
    .jsxSpreadChild <$> f e .other (by omega)
  | .jsxText r, _ => pure (.jsxText r)
  | .bindingIdent n, _ => pure (.bindingIdent n)
  | .objectPattern ps r, f => do
    have := Kind.objectPattern.sizeOf_spec ps r
    let ps ← mapListM ps .other (by omega) f
    let r ← mapOptionM r .other (by omega) f
    pure (.objectPattern ps r)
  | .bindingProperty k v sh, f => do
    have := Kind.bindingProperty.sizeOf_spec k v sh
    let k ← mapKeyM k (by omega) f
    let v ← f v .value (by omega)
    pure (.bindingProperty k v sh)
  | .arrayPattern es r, f => do
    have := Kind.arrayPattern.sizeOf_spec es r
    let es ← mapHolesM es .other (by omega) f
    let r ← mapOptionM r .other (by omega) f
    pure (.arrayPattern es r)
  | .assignPattern l r, f => do
    have := Kind.assignPattern.sizeOf_spec l r
    let l ← f l .target (by omega)
    let r ← f r .other (by omega)
    pure (.assignPattern l r)
  | .rest a, f =>
    have := Kind.rest.sizeOf_spec a
    .rest <$> f a .other (by omega)

end SignalSugar
