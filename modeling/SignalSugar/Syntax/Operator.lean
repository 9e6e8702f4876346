/-!
# Operators and small tags of the tree

The operators of expressions with their source text, and the binding strength the printer
gives each one. Binding strength runs from 1 (a comma sequence) to 19 (a primary
expression); a subexpression is put in parentheses when it binds more loosely than its place
asks for.
-/

namespace SignalSugar

/-- How a variable declaration binds: `var`, `let` or `const`. -/
inductive DeclKind where
  | var
  | «let»
  | const
deriving Repr, BEq, DecidableEq, Inhabited

/-- The keyword of a declaration kind. -/
def DeclKind.text : DeclKind → String
  | .var => "var"
  | .«let» => "let"
  | .const => "const"

/-- Binary operators other than the short-circuiting ones. -/
inductive BinaryOp where
  | add | sub | mul | div | rem | pow
  | shl | shr | ushr | bitOr | bitXor | bitAnd
  | eq | ne | strictEq | strictNe | lt | gt | le | ge | isIn | instanceOf
deriving Repr, BEq, DecidableEq, Inhabited

/-- The source text of a binary operator. -/
def BinaryOp.text : BinaryOp → String
  | .add => "+" | .sub => "-" | .mul => "*" | .div => "/" | .rem => "%" | .pow => "**"
  | .shl => "<<" | .shr => ">>" | .ushr => ">>>"
  | .bitOr => "|" | .bitXor => "^" | .bitAnd => "&"
  | .eq => "==" | .ne => "!=" | .strictEq => "===" | .strictNe => "!=="
  | .lt => "<" | .gt => ">" | .le => "<=" | .ge => ">="
  | .isIn => "in" | .instanceOf => "instanceof"

/-- Binding strength of a binary operator. -/
def BinaryOp.strength : BinaryOp → Nat
  | .bitOr => 6
  | .bitXor => 7
  | .bitAnd => 8
  | .eq | .ne | .strictEq | .strictNe => 9
  | .lt | .gt | .le | .ge | .isIn | .instanceOf => 10
  | .shl | .shr | .ushr => 11
  | .add | .sub => 12
  | .mul | .div | .rem => 13
  | .pow => 14

/-- The short-circuiting operators. -/
inductive LogicalOp where
  | or
  | and
  | nullish
deriving Repr, BEq, DecidableEq, Inhabited

/-- The source text of a short-circuiting operator. -/
def LogicalOp.text : LogicalOp → String
  | .or => "||"
  | .and => "&&"
  | .nullish => "??"

/-- Binding strength of a short-circuiting operator: `&&` binds tighter than `||` and
`??`. -/
def LogicalOp.strength : LogicalOp → Nat
  | .and => 5
  | _ => 4

/-- Assignment operators: plain `=`, or a binary or short-circuiting operator followed by
`=`. -/
inductive AssignOp where
  | plain
  | binary (op : BinaryOp)
  | logical (op : LogicalOp)
deriving Repr, BEq, DecidableEq, Inhabited

/-- The source text of an assignment operator. -/
def AssignOp.text : AssignOp → String
  | .plain => "="
  | .binary op => op.text ++ "="
  | .logical op => op.text ++ "="

/-- Prefix operators on one operand. -/
inductive UnaryOp where
  | neg | plus | not | bitNot | typeof | void | delete
deriving Repr, BEq, DecidableEq, Inhabited

/-- The source text of a unary operator. -/
def UnaryOp.text : UnaryOp → String
  | .neg => "-" | .plus => "+" | .not => "!" | .bitNot => "~"
  | .typeof => "typeof" | .void => "void" | .delete => "delete"

/-- Increment and decrement. -/
inductive UpdateOp where
  | incr
  | decr
deriving Repr, BEq, DecidableEq, Inhabited

/-- The source text of an update operator. -/
def UpdateOp.text : UpdateOp → String
  | .incr => "++"
  | .decr => "--"

/-- What a method of an object or class is: a plain method, an accessor, or a class
constructor. -/
inductive MethodKind where
  | method
  | get
  | set
  | ctor
deriving Repr, BEq, DecidableEq, Inhabited

/-- The `async` and `*` marks of a function. -/
structure FunctionFlags where
  isAsync : Bool := false
  generator : Bool := false
deriving Repr, BEq, DecidableEq, Inhabited

/-- One name brought in by an import declaration. -/
inductive ImportSpec where
  /-- `import a from "m"` -/
  | default (localName : String)
  /-- `import * as a from "m"` -/
  | star (localName : String)
  /-- `import { b as a } from "m"` -/
  | named (imported : String) (localName : String)
deriving Repr, BEq, DecidableEq, Inhabited

/-- The local name an import specifier binds. -/
def ImportSpec.localName : ImportSpec → String
  | .default x | .star x | .named _ x => x

/-- One name of an export list: `a as b`. -/
structure ExportSpec where
  localName : String
  exported : String
deriving Repr, BEq, DecidableEq, Inhabited

end SignalSugar
