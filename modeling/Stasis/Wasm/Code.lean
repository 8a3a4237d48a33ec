import Stasis.Lib.Effects
import Stasis.Lib.Word

namespace Stasis.Wasm

inductive I32Op
  | add | sub | mul | divS | divU | remS | remU | and | or | xor | shl | shrS | shrU
  | eq | ne | ltS | ltU | gtS | gtU | leS | leU | geS | geU
deriving DecidableEq, Repr

inductive I64Op
  | mul | divS | shl
deriving DecidableEq, Repr

inductive Instr
  | i32Const (value : Word)
  | i64Const (value : BitVec 64)
  | localGet (index : ℕ)
  | localSet (index : ℕ)
  | globalGet (index : ℕ)
  | globalSet (index : ℕ)
  | call (index : ℕ)
  | drop
  | return_
  | br (depth : ℕ)
  | brIf (depth : ℕ)
  | block (body : List Instr)
  | loop (body : List Instr)
  /-- The else part may be missing only if there is no result. -/
  | if_ (result : Bool) (thenBody : List Instr) (elseBody : Option (List Instr))
  | i32Eqz
  | i32 (op : I32Op)
  | i64 (op : I64Op)
  | i64ExtendI32S
  | i32WrapI64

def sleb {w : ℕ} : ℕ → BitVec w → List UInt8
  | 0, _ => []
  | rounds + 1, value =>
    let byte := UInt8.ofBitVec ((value &&& 0x7f).setWidth 8)
    let rest := value.sshiftRight 7
    if rest = 0 ∧ byte &&& 0x40 = 0 ∨ rest = -1 ∧ byte &&& 0x40 ≠ 0 then [byte]
    else (byte ||| 0x80) :: sleb rounds rest

def uleb : ℕ → ℕ → List UInt8
  | 0, _ => []
  | rounds + 1, value =>
    let byte := UInt8.ofNat (value % 128)
    if value / 128 = 0 then [byte] else (byte ||| 0x80) :: uleb rounds (value / 128)

def I32Op.opcode : I32Op → UInt8
  | add => 0x6a | sub => 0x6b | mul => 0x6c
  | divS => 0x6d | divU => 0x6e | remS => 0x6f | remU => 0x70
  | and => 0x71 | or => 0x72 | xor => 0x73 | shl => 0x74 | shrS => 0x75 | shrU => 0x76
  | eq => 0x46 | ne => 0x47 | ltS => 0x48 | ltU => 0x49 | gtS => 0x4a | gtU => 0x4b
  | leS => 0x4c | leU => 0x4d | geS => 0x4e | geU => 0x4f

def I64Op.opcode : I64Op → UInt8
  | mul => 0x7e | divS => 0x7f | shl => 0x86

mutual

def Instr.bytes : Instr → List UInt8
  | .i32Const value => 0x41 :: sleb 5 value
  | .i64Const value => 0x42 :: sleb 10 value
  | .localGet index => 0x20 :: uleb 5 index
  | .localSet index => 0x21 :: uleb 5 index
  | .globalGet index => 0x23 :: uleb 5 index
  | .globalSet index => 0x24 :: uleb 5 index
  | .call index => 0x10 :: uleb 5 index
  | .drop => [0x1a]
  | .return_ => [0x0f]
  | .br depth => 0x0c :: uleb 5 depth
  | .brIf depth => 0x0d :: uleb 5 depth
  | .block body => [0x02, 0x40] ++ bytesOf body ++ [0x0b]
  | .loop body => [0x03, 0x40] ++ bytesOf body ++ [0x0b]
  | .if_ result thenBody elseBody =>
    [0x04, if result then 0x7f else 0x40] ++ bytesOf thenBody ++
      (match elseBody with
      | some body => 0x05 :: bytesOf body
      | none => []) ++ [0x0b]
  | .i32Eqz => [0x45]
  | .i32 op => [op.opcode]
  | .i64 op => [op.opcode]
  | .i64ExtendI32S => [0xac]
  | .i32WrapI64 => [0xa7]

def bytesOf : List Instr → List UInt8
  | [] => []
  | instr :: rest => instr.bytes ++ bytesOf rest

end

inductive Value
  | i32 (value : Word)
  | i64 (value : BitVec 64)
deriving DecidableEq

structure Env where
  locals : ℕ → Word
  globals : ℕ → Word

/-- Why execution stops: a trap, the end of the fuel that bounds loops and calls, or
an operand stack that validation would have rejected. -/
inductive Fault
  | trap | fuel | invalid
deriving DecidableEq, Repr

/-- What code runs against: the module's functions with their numbers of parameters,
and how often a loop may iterate. -/
structure Linkage where
  arity : ℕ → ℕ
  call : ℕ → List Word → EStateM Fault (ℕ → Word) (Option Word)
  fuel : ℕ

abbrev Exec (α : Type) := ReaderT Linkage (EStateM Fault Env) α

inductive Exit
  | next
  | branch (depth : ℕ)
  | return_
deriving DecidableEq

def I32Op.eval (a b : Word) : I32Op → Option Word
  | add => some (a + b)
  | sub => some (a - b)
  | mul => some (a * b)
  | divS => Word.quotient false a b
  | divU => Word.quotient true a b
  | remS => Word.remainder false a b
  | remU => Word.remainder true a b
  | and => some (a &&& b)
  | or => some (a ||| b)
  | xor => some (a ^^^ b)
  | shl => some (a <<< (b.toNat % 32))
  | shrS => some (a.sshiftRight (b.toNat % 32))
  | shrU => some (a >>> (b.toNat % 32))
  | eq => some (Word.ofBool (a == b))
  | ne => some (Word.ofBool (a != b))
  | ltS => some (Word.ofBool (a.slt b))
  | ltU => some (Word.ofBool (a.ult b))
  | gtS => some (Word.ofBool (b.slt a))
  | gtU => some (Word.ofBool (b.ult a))
  | leS => some (Word.ofBool (!b.slt a))
  | leU => some (Word.ofBool (!b.ult a))
  | geS => some (Word.ofBool (!a.slt b))
  | geU => some (Word.ofBool (!a.ult b))

def I64Op.eval (a b : BitVec 64) : I64Op → Option (BitVec 64)
  | mul => some (a * b)
  | divS => if b = 0 ∨ a = BitVec.intMin 64 ∧ b = -1 then none else some (a.sdiv b)
  | shl => some (a <<< (b.toNat % 64))

def orTrap {α : Type} : Option α → Exec α
  | some value => return value
  | none => throw .trap

/-- The words on top of the stack, the last argument topmost. -/
def popArgs : ℕ → List Value → Exec (List Word × List Value)
  | 0, stack => return ([], stack)
  | n + 1, .i32 value :: stack => do
    let (args, stack) ← popArgs n stack
    return (args ++ [value], stack)
  | _ + 1, _ => throw .invalid

/-- A function has locals of its own and shares the globals. -/
def callIndex (index : ℕ) (args : List Word) : Exec (Option Word) := fun link env =>
  match link.call index args env.globals with
  | .ok value globals => .ok value { env with globals }
  | .error fault globals => .error fault { env with globals }

/-- Leaving a structured instruction: a branch to its label drops what the body
pushed. -/
def leave (entry : List Value) : Exit × List Value → Exit × List Value
  | (.branch 0, _) => (.next, entry)
  | (.branch (depth + 1), stack) => (.branch depth, stack)
  | (exit, stack) => (exit, stack)

/-- A loop of at most `n` rounds; a branch to its label starts the next one. -/
def repeatLoop (body : List Value → Exec (Exit × List Value)) (entry : List Value) :
    ℕ → Exec (Exit × List Value)
  | 0 => throw .fuel
  | n + 1 => do
    match ← body entry with
    | (.branch 0, _) => repeatLoop body entry n
    | (.branch (depth + 1), stack) => return (.branch depth, stack)
    | (exit, stack) => return (exit, stack)

mutual

def Instr.exec (instr : Instr) (stack : List Value) : Exec (Exit × List Value) :=
  match instr, stack with
  | .i32Const value, stack => return (.next, .i32 value :: stack)
  | .i64Const value, stack => return (.next, .i64 value :: stack)
  | .localGet index, stack => do return (.next, .i32 ((← get).locals index) :: stack)
  | .localSet index, .i32 value :: stack => do
    modify fun env => { env with locals := Function.update env.locals index value }
    return (.next, stack)
  | .globalGet index, stack => do return (.next, .i32 ((← get).globals index) :: stack)
  | .globalSet index, .i32 value :: stack => do
    modify fun env => { env with globals := Function.update env.globals index value }
    return (.next, stack)
  | .call index, stack => do
    let (args, stack) ← popArgs ((← read).arity index) stack
    match ← callIndex index args with
    | some value => return (.next, .i32 value :: stack)
    | none => return (.next, stack)
  | .drop, _ :: stack => return (.next, stack)
  | .return_, stack => return (.return_, stack)
  | .br depth, stack => return (.branch depth, stack)
  | .brIf depth, .i32 value :: stack =>
    return (if value = 0 then .next else .branch depth, stack)
  | .block body, stack => do return leave stack (← execAll body stack)
  | .loop body, stack => do repeatLoop (execAll body) stack (← read).fuel
  | .if_ _ thenBody elseBody, .i32 value :: stack => do
    if value = 0 then
      match elseBody with
      | some body => return leave stack (← execAll body stack)
      | none => return (.next, stack)
    else return leave stack (← execAll thenBody stack)
  | .i32Eqz, .i32 value :: stack => return (.next, .i32 (Word.ofBool (value == 0)) :: stack)
  | .i32 op, .i32 b :: .i32 a :: stack => do
    return (.next, .i32 (← orTrap (op.eval a b)) :: stack)
  | .i64 op, .i64 b :: .i64 a :: stack => do
    return (.next, .i64 (← orTrap (op.eval a b)) :: stack)
  | .i64ExtendI32S, .i32 value :: stack => return (.next, .i64 (value.signExtend 64) :: stack)
  | .i32WrapI64, .i64 value :: stack => return (.next, .i32 (value.setWidth 32) :: stack)
  | _, _ => throw .invalid

def execAll (code : List Instr) (stack : List Value) : Exec (Exit × List Value) :=
  match code with
  | [] => return (.next, stack)
  | instr :: rest => do
    match ← instr.exec stack with
    | (.next, stack) => execAll rest stack
    | (exit, stack) => return (exit, stack)

end

lemma execAll_nil (stack : List Value) : execAll [] stack = pure (.next, stack) := by
  rw [execAll]

lemma execAll_cons (instr : Instr) (rest : List Instr) (stack : List Value) :
    execAll (instr :: rest) stack = (do
      match ← instr.exec stack with
      | (.next, stack) => execAll rest stack
      | (exit, stack) => return (exit, stack)) := by
  rw [execAll]

section run

variable (rest : List Instr) (stack : List Value)

lemma execAll_of_next (h : instr.exec before = pure (.next, after)) :
    execAll (instr :: rest) before = execAll rest after := by
  rw [execAll_cons, h, pure_bind]

@[simp] lemma execAll_i32Const (value : Word) :
    execAll (.i32Const value :: rest) stack = execAll rest (.i32 value :: stack) :=
  execAll_of_next rest (by rw [Instr.exec])

@[simp] lemma execAll_i64Const (value : BitVec 64) :
    execAll (.i64Const value :: rest) stack = execAll rest (.i64 value :: stack) :=
  execAll_of_next rest (by rw [Instr.exec])

@[simp] lemma execAll_i64ExtendI32S (value : Word) :
    execAll (.i64ExtendI32S :: rest) (.i32 value :: stack) =
      execAll rest (.i64 (value.signExtend 64) :: stack) :=
  execAll_of_next rest (by rw [Instr.exec])

@[simp] lemma execAll_i32WrapI64 (value : BitVec 64) :
    execAll (.i32WrapI64 :: rest) (.i64 value :: stack) =
      execAll rest (.i32 (value.setWidth 32) :: stack) :=
  execAll_of_next rest (by rw [Instr.exec])

@[simp] lemma execAll_i32 (op : I32Op) (a b : Word) :
    execAll (.i32 op :: rest) (.i32 b :: .i32 a :: stack) = (do
      let value ← orTrap (op.eval a b)
      execAll rest (.i32 value :: stack)) := by
  rw [execAll_cons, Instr.exec, bind_assoc]
  simp only [pure_bind]

@[simp] lemma execAll_i64 (op : I64Op) (a b : BitVec 64) :
    execAll (.i64 op :: rest) (.i64 b :: .i64 a :: stack) = (do
      let value ← orTrap (op.eval a b)
      execAll rest (.i64 value :: stack)) := by
  rw [execAll_cons, Instr.exec, bind_assoc]
  simp only [pure_bind]

end run

lemma orTrap_some {α : Type} (value : α) : orTrap (some value) = pure value := rfl

lemma execAll_append (first rest : List Instr) (stack : List Value) :
    execAll (first ++ rest) stack = (do
      match ← execAll first stack with
      | (.next, stack) => execAll rest stack
      | (exit, stack) => return (exit, stack)) := by
  induction first generalizing stack with
  | nil => rw [execAll_nil, pure_bind, List.nil_append]
  | cons instr first ih =>
    rw [List.cons_append, execAll_cons, execAll_cons, bind_assoc]
    congr 1
    funext result
    obtain ⟨exit, stack⟩ := result
    cases exit with
    | next => exact ih stack
    | branch depth | return_ => rw [pure_bind]

lemma bytesOf_append (first rest : List Instr) :
    bytesOf (first ++ rest) = bytesOf first ++ bytesOf rest := by
  induction first with
  | nil => simp [bytesOf]
  | cons instr first ih => simp [bytesOf, ih]

def Computes (code : List Instr) (f : Exec Word) : Prop :=
  ∀ stack, execAll code stack = do
    let value ← f
    return (.next, .i32 value :: stack)

lemma Computes.append (h : Computes code f) (rest : List Instr) (stack : List Value) :
    execAll (code ++ rest) stack = (do
      let value ← f
      execAll rest (.i32 value :: stack)) := by
  rw [execAll_append, h, bind_assoc]
  simp only [pure_bind]

end Stasis.Wasm
