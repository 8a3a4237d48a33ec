import Stasis.Lang.Syntax
import Stasis.Lib.Word

namespace Stasis.Native

open Stasis.Lang Stasis.Runtime

inductive Lane
  | bool | i32 | u8 | u16 | u32
deriving DecidableEq, Repr

namespace Lane

def ofType : TypeKey → Option Lane
  | .scalar .bool => some bool
  | .scalar .i32 => some i32
  | .scalar .u8 => some u8
  | .scalar .u16 => some u16
  | .scalar .u32 => some u32
  | _ => none

def typeId : Lane → ℕ
  | bool => 3
  | i32 => 1
  | u8 => 5
  | u16 => 6
  | u32 => 7

def unsignedIntegerBits : Lane → Option ℕ
  | u8 => some 8
  | u16 => some 16
  | u32 => some 32
  | bool | i32 => none

def integerWidthBits : Lane → Option ℕ
  | i32 => some 32
  | lane => lane.unsignedIntegerBits

def isUnsigned (lane : Lane) : Bool := lane.unsignedIntegerBits.isSome

def isInteger (lane : Lane) : Bool := lane.integerWidthBits.isSome

def integerLiteralFits (lane : Lane) (value : ℤ) : Bool :=
  match lane.unsignedIntegerBits with
  | some bits => 0 ≤ value ∧ value ≤ 2 ^ bits - 1
  | none => lane = i32 ∧ -(2 ^ 31) ≤ value ∧ value < 2 ^ 31

def normalize (lane : Lane) (value : Word) : Word :=
  match lane with
  | u8 => value &&& 0xff
  | u16 => value &&& 0xffff
  | _ => value

end Lane

inductive Arg
  | word (value : Word)
  | view (collection : Path)
deriving DecidableEq

structure Store where
  globals : Path → Word
  elements : Path → Path → ℕ → Word

structure Frame where
  words : String → Word
  views : String → Path
  store : Store

/-- Why execution stops: a trap, an access outside the storage of a lane, or the
end of the fuel that bounds loops and calls. -/
inductive Fault
  | trap | wild | fuel
deriving DecidableEq, Repr

/-- What code runs against: the program's functions, and how often a loop may
iterate. -/
structure Linkage where
  call : FnId → List Arg → EStateM Fault Store (Option Word)
  fuel : ℕ

abbrev Code (α : Type) := ReaderT Linkage (EStateM Fault Frame) α

def Code.orTrap : Option Word → Code Word
  | some value => return value
  | none => throw .trap

def arithmetic (op : ExprBinaryOp) (unsigned : Bool) (a b : Word) : Option Word :=
  match op with
  | .add => some (a + b)
  | .subtract => some (a - b)
  | .multiply => some (a * b)
  | .divide => Word.quotient unsigned a b
  | .remainder => Word.remainder unsigned a b
  | _ => none

def bitwise (op : ExprBinaryOp) (unsigned : Bool) (a b : Word) : Word :=
  match op with
  | .bitAnd => a &&& b
  | .bitXor => a ^^^ b
  | .bitOr => a ||| b
  | .shiftLeft => a <<< b
  | .shiftRight => if unsigned then a >>> b else a.sshiftRight' b
  | _ => a

def compare (op : ComparisonOp) (unsigned : Bool) (a b : Word) : Bool :=
  match op with
  | .eq => a == b
  | .ne => a != b
  | .lt => Word.less unsigned a b
  | .le => !Word.less unsigned b a
  | .gt => Word.less unsigned b a
  | .ge => !Word.less unsigned a b

def assignOperator : AssignOp → Option ExprBinaryOp
  | .set => none
  | .add => some .add
  | .sub => some .subtract
  | .mul => some .multiply
  | .div => some .divide
  | .mod => some .remainder

mutual

def statementAssignsLocal (name : String) : SimpleStmt → Bool
  | .assign (.local target) _ _ | .convert (.local target) _ _ => target = name
  | .if_ _ thenStatements elseStatements =>
    statementsAssignLocal name thenStatements ||
      match elseStatements with
      | some statements => statementsAssignLocal name statements
      | none => false
  | .for_ init _ step body =>
    statementAssignsLocal name init || statementAssignsLocal name step ||
      statementsAssignLocal name body
  | .foreach _ _ _ body => statementsAssignLocal name body
  | _ => false

def statementsAssignLocal (name : String) : List SimpleStmt → Bool
  | [] => false
  | statement :: rest => statementAssignsLocal name statement || statementsAssignLocal name rest

end

def isForControlStatement : SimpleStmt → Bool
  | .noop | .let_ _ _ _ | .assign _ _ _ | .convert _ _ _ | .expr _ => true
  | _ => false

/-- The variable of a foreach index; without a name of its own it has one that no
local can have. -/
def foreachIndexVar (itemName : String) : Option String → String
  | some name => name
  | none => "foreach " ++ itemName

def integerBinaryResultType (expected : Option Lane) (lhs rhs : Lane) : Lane :=
  match expected.filter Lane.isInteger with
  | some lane => lane
  | none => if lhs = rhs ∧ lhs.isInteger then lhs else .i32

/-- The lane as the context of the other operand, if it is unsigned. -/
def unsignedContext (lane : Lane) : Option Lane := if lane.isUnsigned then some lane else none

end Stasis.Native
