import Stasis.Runtime.Program

namespace Stasis.Lang

open Stasis.Runtime (Path TypeKey)

abbrev FnId := ℕ

inductive AssignOp
  | set | add | sub | mul | div | mod
deriving DecidableEq, Repr

inductive ComparisonOp
  | eq | ne | lt | le | gt | ge
deriving DecidableEq, Repr

inductive ExprBinaryOp
  | add | subtract | multiply | divide | remainder
  | shiftLeft | shiftRight | bitAnd | bitXor | bitOr
deriving DecidableEq, Repr

namespace ExprBinaryOp

def requiresIntegerOperands : ExprBinaryOp → Bool
  | shiftLeft | shiftRight | bitAnd | bitXor | bitOr => true
  | _ => false

def isShift : ExprBinaryOp → Bool
  | shiftLeft | shiftRight => true
  | _ => false

end ExprBinaryOp

inductive ExprUnaryOp
  | negate | bitwiseNot
deriving DecidableEq, Repr

inductive ResolvedCallTarget
  | function (id : FnId)
  | external (name : Path)
deriving DecidableEq, Repr

inductive ResolvedConstantValue
  | scalar (bits : BitVec 64) (nominal : Bool)
  | string (value : String)
deriving DecidableEq, Repr

mutual

inductive SimpleExpr
  | defaultValue (type : TypeKey)
  | int (value : ℤ)
  | float (bits : BitVec 64)
  | bool (value : Bool)
  | stringLiteral (value : String)
  | resolvedConstant (id : Path) (type : TypeKey) (value : ResolvedConstantValue)
  | condition (condition : SimpleCondition)
  | identifier (path : Path)
  | indexedPath (collectionPath : Path) (index : SimpleExpr) (suffix : Path)
      (nestedIndex : Option SimpleExpr)
  | call (target : Path) (args : List SimpleExpr) (resolvedTarget : Option ResolvedCallTarget)
  | unary (op : ExprUnaryOp) (operand : SimpleExpr)
  | binary (lhs : SimpleExpr) (op : ExprBinaryOp) (rhs : SimpleExpr)

inductive SimpleCondition
  | comparison (lhs : SimpleExpr) (op : ComparisonOp) (rhs : SimpleExpr)
  | expr (expression : SimpleExpr)
  | and (lhs rhs : SimpleCondition)
  | or (lhs rhs : SimpleCondition)
  | not (inner : SimpleCondition)

end

inductive AssignTarget
  | local (name : String)
  | globalPath (path : Path)
  | indexedPath (collectionPath : Path) (index : SimpleExpr) (suffix : Path)
      (nestedIndex : Option SimpleExpr)

inductive ConversionKind
  | fromI32 | fromF32 | fromF64
deriving DecidableEq, Repr

inductive SimpleStmt
  | noop
  | let_ (name : String) (type : Option TypeKey) (expression : SimpleExpr)
  | assign (target : AssignTarget) (op : AssignOp) (expression : SimpleExpr)
  | convert (target : AssignTarget) (kind : ConversionKind) (source : SimpleExpr)
  | if_ (condition : SimpleCondition) (thenStatements : List SimpleStmt)
      (elseStatements : Option (List SimpleStmt))
  | for_ (init : SimpleStmt) (condition : SimpleCondition) (step : SimpleStmt)
      (bodyStatements : List SimpleStmt)
  | foreach (itemName : String) (indexName : Option String) (collectionPath : Path)
      (bodyStatements : List SimpleStmt)
  | expr (expression : SimpleExpr)
  | continue_
  | return_ (expression : SimpleExpr)
  | returnVoid

namespace SimpleExpr

def isInt : SimpleExpr → Bool
  | int _ => true
  | _ => false

def checkedNeg (value : ℤ) : Option ℤ :=
  if value = -(2 ^ 63) then none else some (-value)

/-- The signed value of an unsuffixed integer literal, with the parser's explicit
negations. -/
def contextualIntegerLiteralValue : SimpleExpr → Option ℤ
  | int value => some value
  | unary .negate operand => operand.contextualIntegerLiteralValue.bind checkedNeg
  | binary (int 0) .subtract rhs => rhs.contextualIntegerLiteralValue.bind checkedNeg
  | _ => none

/-- Made only from integer literals and bitwise operators, so that an enclosing
integer type can give its lane; shift counts are independent of it. -/
def isContextualIntegerExpression (e : SimpleExpr) : Bool :=
  e.contextualIntegerLiteralValue.isSome ||
    match e with
    | unary _ operand => operand.isContextualIntegerExpression
    | binary lhs op rhs =>
      match op with
      | .bitAnd | .bitXor | .bitOr =>
        lhs.isContextualIntegerExpression && rhs.isContextualIntegerExpression
      | .shiftLeft | .shiftRight => lhs.isContextualIntegerExpression
      | _ => false
    | _ => false

def checkedI64 (value : ℤ) : Option ℤ :=
  if -(2 ^ 63) ≤ value ∧ value < 2 ^ 63 then some value else none

/-- A resolved constant as a number, where its type is an integer or an enum. -/
def resolvedConstantI64 (type : TypeKey) (bits : BitVec 64) (nominal : Bool) : Option ℤ :=
  if nominal ∨ type = .scalar .i32 then some (bits.setWidth 32).toInt
  else match type with
  | .scalar .u8 => some (bits.setWidth 8).toNat
  | .scalar .u16 => some (bits.setWidth 16).toNat
  | .scalar .u32 => some (bits.setWidth 32).toNat
  | _ => none

def evalConstBinary (op : ExprBinaryOp) (lhs rhs : ℤ) : Option ℤ :=
  let l := BitVec.ofInt 32 lhs
  let r := BitVec.ofInt 32 rhs
  match op with
  | .add => checkedI64 (lhs + rhs)
  | .subtract => checkedI64 (lhs - rhs)
  | .multiply => checkedI64 (lhs * rhs)
  | .divide => if rhs = 0 then none else checkedI64 (lhs.tdiv rhs)
  | .remainder => if rhs = 0 then none else checkedI64 (lhs.tmod rhs)
  | .bitAnd => some (l &&& r).toInt
  | .bitXor => some (l ^^^ r).toInt
  | .bitOr => some (l ||| r).toInt
  | .shiftLeft => some (l <<< (r.toNat % 32)).toInt
  | .shiftRight => some (l.sshiftRight (r.toNat % 32)).toInt

def evalConstI64 : SimpleExpr → Option ℤ
  | int value => some value
  | resolvedConstant _ type (.scalar bits nominal) => resolvedConstantI64 type bits nominal
  | unary .negate operand => operand.evalConstI64.bind checkedNeg
  | unary .bitwiseNot operand => operand.evalConstI64.map fun value =>
    (~~~ BitVec.ofInt 32 value).toInt
  | binary lhs op rhs =>
    match lhs.evalConstI64, rhs.evalConstI64 with
    | some l, some r => evalConstBinary op l r
    | _, _ => none
  | _ => none

end SimpleExpr

end Stasis.Lang
