import Stasis.Native.Code
import Stasis.Wasm.Code

namespace Stasis

open List
open BitVec (ofInt toInt_inj toInt_sdiv toInt_ofInt le_toInt toInt_lt toInt_mul
  toInt_signExtend_of_le intMin toInt)

inductive Fixed32
  | fromI32 | toI32 | mul | div | fromRatio
deriving DecidableEq, Repr

namespace Fixed32

def target : Fixed32 → String
  | fromI32 => "fixed32_from_i32"
  | toI32 => "fixed32_to_i32"
  | mul => "fixed32_mul"
  | div => "fixed32_div"
  | fromRatio => "fixed32_from_ratio"

def arity : Fixed32 → ℕ
  | fromI32 | toI32 => 1
  | mul | div | fromRatio => 2

/-- The exact value, rounded toward zero and reduced to its low 32 bits. -/
def value : Fixed32 → List Word → Option Word
  | fromI32, [a] => some (ofInt 32 (a.toInt * 65536))
  | toI32, [a] => some (ofInt 32 (a.toInt.tdiv 65536))
  | mul, [a, b] => some (ofInt 32 ((a.toInt * b.toInt).tdiv 65536))
  | div, [a, b] | fromRatio, [a, b] =>
    if b = 0 then none else some (ofInt 32 ((a.toInt * 65536).tdiv b.toInt))
  | _, _ => none

lemma value_fromRatio (a b : Word) : fromRatio.value [a, b] = div.value [a, b] := rfl

lemma value_eq_none_iff (op : Fixed32) (args : List Word) (h : args.length = op.arity) :
    op.value args = none ↔ (op = div ∨ op = fromRatio) ∧ args[1]? = some 0 := by
  match op, args, h with
  | .fromI32, [a], _ | .toI32, [a], _ | .mul, [a, b], _ => simp [value]
  | .div, [a, b], _ | .fromRatio, [a, b], _ => simp [value]

end Fixed32

section arithmetic

variable {a b : Word} {x y : BitVec 64}

lemma toInt_narrow (x : BitVec 64) : (x.setWidth 32).toInt = x.toInt.bmod (2 ^ 32) := by
  rw [BitVec.toInt_setWidth, BitVec.toInt_eq_toNat_bmod, Int.bmod_bmod_of_dvd (by decide)]

lemma narrow_sdiv (x y : BitVec 64) : (x.sdiv y).setWidth 32 = ofInt 32 (x.toInt.tdiv y.toInt) := by
  rw [← toInt_inj, toInt_narrow, toInt_sdiv, Int.bmod_bmod_of_dvd (by decide), toInt_ofInt]

lemma sdiv_eq_ofInt (a b : Word) : a.sdiv b = ofInt 32 (a.toInt.tdiv b.toInt) := by
  rw [← toInt_inj, toInt_sdiv, toInt_ofInt]

variable (a : Word)

lemma natAbs_toInt_le : a.toInt.natAbs ≤ 2 ^ 31 := by
  have hle := le_toInt a
  have hlt := toInt_lt (x := a)
  omega

lemma toInt_mul_signExtend (a b : Word) :
    (a.signExtend 64 * b.signExtend 64).toInt = a.toInt * b.toInt := by
  have hbound : (a.toInt * b.toInt).natAbs ≤ 2 ^ 31 * 2 ^ 31 := by
    rw [Int.natAbs_mul]
    exact Nat.mul_le_mul (natAbs_toInt_le a) (natAbs_toInt_le b)
  rw [toInt_mul, toInt_signExtend_of_le (by decide),
    toInt_signExtend_of_le (by decide), Int.bmod_eq_of_le]
  · omega
  · omega

lemma toInt_shiftLeft_signExtend : (a.signExtend 64 <<< 16).toInt = a.toInt * 65536 := by
  have hbound := natAbs_toInt_le a
  have hscale : (BitVec.twoPow 64 16).toInt = 65536 := by decide
  rw [BitVec.shiftLeft_eq_mul_twoPow, toInt_mul, toInt_signExtend_of_le (by decide),
    hscale, Int.bmod_eq_of_le]
  · omega
  · omega

lemma shiftLeft_eq_ofInt : a <<< 16 = ofInt 32 (a.toInt * 65536) := by
  rw [BitVec.shiftLeft_eq_mul_twoPow, BitVec.ofInt_mul, BitVec.ofInt_toInt]
  rfl

lemma signExtend_eq_zero : b.signExtend 64 = 0 ↔ b = 0 := by
  rw [← toInt_inj, ← toInt_inj, toInt_signExtend_of_le (by decide)]
  rfl

lemma shifted_ne_intMin : a.signExtend 64 <<< 16 ≠ intMin 64 := by
  intro h
  have htoInt := congrArg toInt h
  rw [toInt_shiftLeft_signExtend, BitVec.toInt_intMin] at htoInt
  have hbound := natAbs_toInt_le a
  omega

lemma toInt_tdiv_shifted (x : ℤ) : ((x * 65536).bmod (2 ^ 32)).tdiv 65536 = x.bmod (2 ^ 16) := by
  have hsca : (x * 65536).bmod (2 ^ 32) = x.bmod (2 ^ 16) * 65536 := by
    simp only [Int.bmod]
    omega
  rw [hsca, Int.mul_tdiv_cancel _ (by decide)]

end arithmetic

namespace Native

def sdiv64 (a b : BitVec 64) : Option (BitVec 64) :=
  if b = 0 ∨ a = intMin 64 ∧ b = -1 then none else some (a.sdiv b)

def fixed32Instructions : Fixed32 → List Word → Option Word
  | .fromI32, [a] => some (a <<< 16)
  | .toI32, [a] => Word.quotient false a 65536
  | .mul, [a, b] =>
    (sdiv64 (a.signExtend 64 * b.signExtend 64) 65536).map fun scaled => scaled.setWidth 32
  | .div, [a, b] | .fromRatio, [a, b] =>
    (sdiv64 (a.signExtend 64 <<< 16) (b.signExtend 64)).map fun quotient => quotient.setWidth 32
  | _, _ => none

lemma narrow_sdiv64_scale (x : BitVec 64) :
    (sdiv64 x 65536).map (fun scaled => scaled.setWidth 32) =
      some (ofInt 32 (x.toInt.tdiv 65536)) := by
  have hdef : ¬((65536 : BitVec 64) = 0 ∨ x = intMin 64 ∧ (65536 : BitVec 64) = -1) :=
    not_or_intro (by decide) fun h => absurd h.2 (by decide)
  rw [sdiv64, if_neg hdef, Option.map_some, narrow_sdiv]
  rfl

lemma narrow_sdiv64_shifted (a b : Word) :
    (sdiv64 (a.signExtend 64 <<< 16) (b.signExtend 64)).map (fun quotient => quotient.setWidth 32) =
      if b = 0 then none else some (ofInt 32 ((a.toInt * 65536).tdiv b.toInt)) := by
  by_cases hb : b = 0
  · rw [sdiv64, if_pos (.inl (signExtend_eq_zero.mpr hb)), if_pos hb]
    rfl
  · have hdef : ¬(b.signExtend 64 = 0 ∨
        a.signExtend 64 <<< 16 = intMin 64 ∧ b.signExtend 64 = -1) :=
      not_or_intro (mt signExtend_eq_zero.mp hb) fun h => shifted_ne_intMin a h.1
    rw [sdiv64, if_neg hdef, if_neg hb, Option.map_some, narrow_sdiv,
      toInt_shiftLeft_signExtend, toInt_signExtend_of_le (by decide)]

lemma quotient_scale (a : Word) :
    Word.quotient false a 65536 = some (ofInt 32 (a.toInt.tdiv 65536)) := by
  have hne : ¬(a = intMin 32 ∧ (65536 : Word) = -1) := fun h => absurd h.2 (by decide)
  rw [Word.quotient, if_neg (by decide), if_neg (by decide), if_neg hne, sdiv_eq_ofInt]
  rfl

lemma fixed32Instructions_eq (op : Fixed32) (args : List Word) :
    fixed32Instructions op args = op.value args := by
  match op, args with
  | .fromI32, [a] => exact congrArg some (shiftLeft_eq_ofInt a)
  | .toI32, [a] => exact quotient_scale a
  | .mul, [a, b] =>
    refine (narrow_sdiv64_scale _).trans ?_
    rw [toInt_mul_signExtend]
    rfl
  | .div, [a, b] => exact narrow_sdiv64_shifted a b
  | .fromRatio, [a, b] => exact narrow_sdiv64_shifted a b
  | .fromI32, [] | .fromI32, _ :: _ :: _ | .toI32, [] | .toI32, _ :: _ :: _ | .mul, []
  | .mul, [_] | .mul, _ :: _ :: _ :: _ | .div, [] | .div, [_] | .div, _ :: _ :: _ :: _
  | .fromRatio, [] | .fromRatio, [_] | .fromRatio, _ :: _ :: _ :: _ => rfl

def emitFixed32 (op : Fixed32) (args : List (Lane × Code Word)) :
    Except String (Lane × Code Word) :=
  if args.length ≠ op.arity then
    .error ("deterministic numeric intrinsic '" ++ op.target ++ "' expects " ++
      toString op.arity ++ " argument(s), found " ++ toString args.length)
  else match args.find? fun arg => arg.1 ≠ .i32 with
  | some (lane, _) =>
    .error ("deterministic numeric intrinsic '" ++ op.target ++
      "' requires exact i32 arguments, found type " ++ toString lane.typeId)
  | none => .ok (.i32, do
      let values ← args.mapM Prod.snd
      Code.orTrap (fixed32Instructions op values))

lemma emitFixed32_eq (op : Fixed32) (args : List (Code Word)) (h : args.length = op.arity) :
    emitFixed32 op (args.map fun arg => (Lane.i32, arg)) = .ok (.i32, do
      let values ← args.mapM id
      Code.orTrap (op.value values)) := by
  have hexact : (args.map fun arg => (Lane.i32, arg)).find? (fun arg => arg.1 ≠ .i32) = none := by
    rw [find?_eq_none]
    intro arg harg
    obtain ⟨code, -, rfl⟩ := mem_map.mp harg
    simp
  rw [emitFixed32, if_neg (by simp [h]), hexact]
  simp only [mapM_map, fixed32Instructions_eq]
  rfl

end Native

namespace Wasm

open Native (Lane)

def encodeExactI32Arg : Lane × List UInt8 → Except String (List UInt8)
  | (.i32, bytes) => .ok bytes
  | (actual, _) => .error
      ("web deterministic numeric intrinsic requires exact i32 argument, found " ++
        toString actual.typeId)

def encodeInlineIntrinsic (op : Fixed32) (args : List (Lane × List UInt8)) :
    Except String (List UInt8) :=
  match op, args with
  | .fromI32, [a] => do return (← encodeExactI32Arg a) ++ [0x41, 16, 0x74]
  | .toI32, [a] => do return (← encodeExactI32Arg a) ++ [0x41] ++ sleb 5 (65536 : Word) ++ [0x6d]
  | .mul, [a, b] => do
    return (← encodeExactI32Arg a) ++ [0xac] ++ (← encodeExactI32Arg b) ++ [0xac, 0x7e, 0x42] ++
      sleb 10 (65536 : BitVec 64) ++ [0x7f, 0xa7]
  | .div, [a, b] | .fromRatio, [a, b] => do
    return (← encodeExactI32Arg a) ++ [0xac, 0x42] ++ sleb 10 (16 : BitVec 64) ++ [0x86] ++
      (← encodeExactI32Arg b) ++ [0xac, 0x7f, 0xa7]
  | op, args => .error ("web intrinsic '" ++ op.target ++ "' expects " ++ toString op.arity ++
      " argument(s), found " ++ toString args.length)

def fixed32Code : Fixed32 → List (List Instr) → List Instr
  | .fromI32, [a] => a ++ [.i32Const 16, .i32 .shl]
  | .toI32, [a] => a ++ [.i32Const 65536, .i32 .divS]
  | .mul, [a, b] => a ++ [.i64ExtendI32S] ++ b ++
      [.i64ExtendI32S, .i64 .mul, .i64Const 65536, .i64 .divS, .i32WrapI64]
  | .div, [a, b] | .fromRatio, [a, b] => a ++ [.i64ExtendI32S, .i64Const 16, .i64 .shl] ++ b ++
      [.i64ExtendI32S, .i64 .divS, .i32WrapI64]
  | _, _ => []

lemma encodeInlineIntrinsic_eq (op : Fixed32) (codes : List (List Instr))
    (h : codes.length = op.arity) :
    encodeInlineIntrinsic op (codes.map fun code => (Lane.i32, bytesOf code)) =
      .ok (bytesOf (fixed32Code op codes)) := by
  match op, codes, h with
  | .fromI32, [a], _ =>
    rw [fixed32Code, bytesOf_append]
    rfl
  | .toI32, [a], _ =>
    change Except.ok (bytesOf a ++ [0x41] ++ sleb 5 (65536 : Word) ++ [0x6d]) = _
    rw [fixed32Code, bytesOf_append, append_assoc, append_assoc]
    rfl
  | .mul, [a, b], _ =>
    change Except.ok (bytesOf a ++ [0xac] ++ bytesOf b ++ [0xac, 0x7e, 0x42] ++
      sleb 10 (65536 : BitVec 64) ++ [0x7f, 0xa7]) = _
    simp only [fixed32Code, bytesOf_append, append_assoc]
    rfl
  | .div, [a, b], _ | .fromRatio, [a, b], _ =>
    change Except.ok (bytesOf a ++ [0xac, 0x42] ++ sleb 10 (16 : BitVec 64) ++ [0x86] ++
      bytesOf b ++ [0xac, 0x7f, 0xa7]) = _
    simp only [fixed32Code, bytesOf_append, append_assoc]
    rfl

lemma orTrap_map_bind {α β γ : Type} (o : Option α) (f : α → β) (g : β → Exec γ) :
    orTrap (o.map f) >>= g = orTrap o >>= fun a => g (f a) := by
  cases o <;> rfl

lemma execAll_scale (a b : Word) (stack : List Value) :
    execAll [.i64 .mul, .i64Const 65536, .i64 .divS, .i32WrapI64]
        (.i64 (b.signExtend 64) :: .i64 (a.signExtend 64) :: stack) = (do
      let value ← orTrap (Fixed32.mul.value [a, b])
      return (.next, .i32 value :: stack)) := by
  rw [← Native.fixed32Instructions_eq, Native.fixed32Instructions, orTrap_map_bind]
  simp only [execAll_i64, execAll_i64Const, execAll_i32WrapI64, execAll_nil,
    show I64Op.mul.eval _ _ = some _ from rfl, orTrap_some, pure_bind]
  rfl

lemma execAll_numerator (a : BitVec 64) (rest : List Instr) (stack : List Value) :
    execAll (.i64 .shl :: rest) (.i64 16 :: .i64 a :: stack) =
      execAll rest (.i64 (a <<< 16) :: stack) := by
  rw [execAll_i64]
  rfl

lemma execAll_ratio (a b : Word) (stack : List Value) :
    execAll [.i64 .divS, .i32WrapI64]
        (.i64 (b.signExtend 64) :: .i64 (a.signExtend 64 <<< 16) :: stack) = (do
      let value ← orTrap (Fixed32.div.value [a, b])
      return (.next, .i32 value :: stack)) := by
  rw [← Native.fixed32Instructions_eq, Native.fixed32Instructions, orTrap_map_bind]
  simp only [execAll_i64, execAll_i32WrapI64, execAll_nil]
  rfl

lemma computes_fixed32Code (op : Fixed32) (args : List (List Instr × Exec Word))
    (hlen : args.length = op.arity) (hargs : ∀ arg ∈ args, Computes arg.1 arg.2) :
    Computes (fixed32Code op (args.map Prod.fst)) (do
      let values ← args.mapM Prod.snd
      orTrap (op.value values)) := by
  intro stack
  match op, args, hlen, hargs with
  | .fromI32, [(a, f)], _, hargs | .toI32, [(a, f)], _, hargs =>
    have ha : Computes a f := hargs (a, f) (by simp)
    simp only [map_cons, map_nil, fixed32Code, ha.append, mapM_cons, mapM_nil,
      bind_assoc, pure_bind, ← Native.fixed32Instructions_eq, execAll_i32Const, execAll_i32,
      execAll_nil]
    rfl
  | .mul, [(a, f), (b, g)], _, hargs =>
    have ha : Computes a f := hargs (a, f) (by simp)
    have hb : Computes b g := hargs (b, g) (by simp)
    simp only [map_cons, map_nil, fixed32Code, append_assoc, ha.append,
      mapM_cons, mapM_nil, bind_assoc, pure_bind, cons_append, nil_append,
      execAll_i64ExtendI32S, hb.append, execAll_scale]
  | .div, [(a, f), (b, g)], _, hargs | .fromRatio, [(a, f), (b, g)], _, hargs =>
    have ha : Computes a f := hargs (a, f) (by simp)
    have hb : Computes b g := hargs (b, g) (by simp)
    simp only [map_cons, map_nil, fixed32Code, append_assoc, ha.append,
      mapM_cons, mapM_nil, bind_assoc, pure_bind, cons_append, nil_append,
      execAll_i64ExtendI32S, execAll_i64Const, execAll_numerator, hb.append, execAll_ratio,
      Fixed32.value_fromRatio]

end Wasm

lemma Fixed32.roundTrip_iff (x : Word) :
    (fromI32.value [x]).bind (fun scaled => toI32.value [scaled]) = some x ↔
      -32768 ≤ x.toInt ∧ x.toInt ≤ 32767 := by
  simp only [value, Option.bind_some, Option.some.injEq, toInt_ofInt, toInt_tdiv_shifted]
  rw [← toInt_inj, toInt_ofInt]
  simp only [Int.bmod]
  omega

/-- Both backends compute the exact values of the intrinsics from arguments they
evaluate once and from left to right, and trap on a zero divisor only. -/
theorem fixed32_exact :
    (∀ (op : Fixed32) (args : List (Native.Code Word)), args.length = op.arity →
      Native.emitFixed32 op (args.map fun arg => (Native.Lane.i32, arg)) = .ok (.i32, do
        let values ← args.mapM id
        Native.Code.orTrap (op.value values))) ∧
    (∀ (op : Fixed32) (args : List (List Wasm.Instr × Wasm.Exec Word)), args.length = op.arity →
      (∀ arg ∈ args, Wasm.Computes arg.1 arg.2) →
      Wasm.encodeInlineIntrinsic op
          (args.map fun arg => (Native.Lane.i32, Wasm.bytesOf arg.1)) =
        .ok (Wasm.bytesOf (Wasm.fixed32Code op (args.map Prod.fst))) ∧
      Wasm.Computes (Wasm.fixed32Code op (args.map Prod.fst)) (do
        let values ← args.mapM Prod.snd
        Wasm.orTrap (op.value values))) ∧
    (∀ (op : Fixed32) (args : List Word), args.length = op.arity →
      (op.value args = none ↔ (op = .div ∨ op = .fromRatio) ∧ args[1]? = some 0)) ∧
    ∀ x : Word, (Fixed32.fromI32.value [x]).bind (fun scaled => Fixed32.toI32.value [scaled]) =
      some x ↔ -32768 ≤ x.toInt ∧ x.toInt ≤ 32767 := by
  refine ⟨Native.emitFixed32_eq, fun op args hlength hargs => ⟨?_, ?_⟩, Fixed32.value_eq_none_iff,
    Fixed32.roundTrip_iff⟩
  · have hencode := Wasm.encodeInlineIntrinsic_eq op (args.map Prod.fst) (by rwa [List.length_map])
    rwa [List.map_map] at hencode
  · exact Wasm.computes_fixed32Code op args hlength hargs

/-- Minus one unit times one half is zero, not minus one unit. -/
theorem fixed32_exact_toward_zero :
    Wasm.execAll (Wasm.fixed32Code .mul [[.i32Const (-1)], [.i32Const 32768]]) [] =
      pure (.next, [.i32 0]) := by
  have hconst : ∀ value, Wasm.Computes [.i32Const value] (pure value) := by
    intro value stack
    rw [Wasm.execAll_i32Const, Wasm.execAll_nil, pure_bind]
  have hmul := (fixed32_exact.2.1 .mul
    [([.i32Const (-1)], pure (-1)), ([.i32Const 32768], pure 32768)] rfl
    (by simp [hconst])).2
  exact hmul []

end Stasis
