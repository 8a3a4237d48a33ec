import Stasis.DataFlow.Execution

namespace Stasis.Native.Lane

variable {lane : Lane} {value : ℤ} (h : lane.integerLiteralFits value = true)
include h

lemma normalize_ofInt : lane.normalize (BitVec.ofInt 32 value) = BitVec.ofInt 32 value := by
  cases lane with
  | u8 =>
    simp only [integerLiteralFits, unsignedIntegerBits, decide_eq_true_eq] at h
    exact Word.ofInt_and_mask 8 (by decide) h.1 h.2
  | u16 =>
    simp only [integerLiteralFits, unsignedIntegerBits, decide_eq_true_eq] at h
    exact Word.ofInt_and_mask 16 (by decide) h.1 h.2
  | _ => rfl

lemma isInteger_of_fits : lane.isInteger = true := by
  cases lane <;> first | rfl | simp [integerLiteralFits, unsignedIntegerBits] at h

lemma range_of_fits : -(2 ^ 33) ≤ value ∧ value < 2 ^ 33 := by
  cases lane <;> simp [integerLiteralFits, unsignedIntegerBits] at h <;> omega

omit h in
lemma fits_between (hlow : lane.integerLiteralFits low = true)
    (hhigh : lane.integerLiteralFits high = true) (hle : low ≤ value) (hle' : value ≤ high) :
    lane.integerLiteralFits value = true := by
  cases lane <;> simp [integerLiteralFits, unsignedIntegerBits] at hlow hhigh ⊢ <;> omega

lemma represents_of_fits (hlane : lane.isUnsigned = true → unsigned = true)
    (hsign : unsigned = true → 0 ≤ value) :
    Word.Represents unsigned value := by
  cases unsigned with
  | true =>
    have hlow := hsign rfl
    cases lane <;> simp [integerLiteralFits, unsignedIntegerBits] at h <;>
      simp [Word.Represents] <;> omega
  | false =>
    cases lane <;> simp [integerLiteralFits, unsignedIntegerBits] at h <;>
      simp [isUnsigned, unsignedIntegerBits] at hlane
    simp [Word.Represents]
    omega

end Stasis.Native.Lane

namespace Stasis.DataFlow

open Stasis.Lang
open Stasis.Runtime (Path TypeKey)
open Stasis.Native (Lane)

def Below : ComparisonOp → ℤ → ℤ → Prop
  | .lt, value, stop => value < stop
  | .le, value, stop => value ≤ stop
  | _, _, _ => False

lemma below_of_compare (hop : op = .lt ∨ op = .le) (hvalue : Word.Represents unsigned value)
    (hstop : Word.Represents unsigned stop)
    (h : Native.compare op unsigned (BitVec.ofInt 32 value) (BitVec.ofInt 32 stop) = true) :
    Below op value stop := by
  rcases hop with rfl | rfl
  · rw [Native.compare, Word.less_ofInt hvalue hstop] at h
    simpa [Below] using h
  · rw [Native.compare, Word.less_ofInt hstop hvalue] at h
    simpa [Below] using h

lemma lt_div_of_mul_lt (hc : 0 < c) (h : k * c < d) : k < (d + c - 1) / c := by
  have hle : (k + 1) * c ≤ d + c - 1 := by
    rw [Nat.add_mul, Nat.one_mul]
    omega
  exact (Nat.le_div_iff_mul_le hc).mpr hle

lemma lt_of_roundsBetween {start stop increment : ℤ} {n k : ℕ}
    (h : roundsBetween op start stop increment = some n)
    (hstart : -(2 ^ 33) ≤ start ∧ start < 2 ^ 33) (hstop : -(2 ^ 33) ≤ stop ∧ stop < 2 ^ 33)
    (hbelow : Below op (start + k * increment) stop) : k < n := by
  unfold roundsBetween at h
  split_ifs at h with hincr
  have hcast : (increment.toNat : ℤ) = increment := Int.toNat_of_nonneg (by omega)
  have hkey : ∀ distance : ℤ, k * increment < distance →
      k < (distance.toNat + increment.toNat - 1) / increment.toNat := by
    intro distance hdis
    apply lt_div_of_mul_lt (by omega)
    have hmul : ((k * increment.toNat : ℕ) : ℤ) = k * increment := by
      rw [Int.natCast_mul, hcast]
    omega
  have hpos : 0 ≤ (k : ℤ) * increment := Int.mul_nonneg (by omega) (by omega)
  cases op with
  | lt =>
    simp only [Below] at hbelow
    simp only [Option.map_some, Option.some.injEq] at h
    have hsat : saturatingI64 (stop - start) = stop - start := by
      unfold saturatingI64
      omega
    rw [hsat, if_neg (by omega)] at h
    subst h
    exact hkey _ (by omega)
  | le =>
    simp only [Below] at hbelow
    simp only [Option.map_some, Option.some.injEq] at h
    have hsat : saturatingI64 (saturatingI64 (stop - start) + 1) = stop - start + 1 := by
      unfold saturatingI64
      omega
    rw [hsat, if_neg (by omega)] at h
    subst h
    exact hkey _ (by omega)
  | _ => exact hbelow.elim

abbrev Types := String → Option TypeKey

def Respects (scope : Scope) (types : Types) (locals : Locals) : Prop :=
  ∀ name ∈ scope.values, ∀ type ∈ types name, (locals name).type = type

/-- Statements do not change the types of the locals around them, and assign only to
those they name. -/
def KeepsLocals (scope : Scope) (assigns : String → Bool) (before after : Locals) : Prop :=
  ∀ name ∈ scope.values, (after name).type = (before name).type ∧
    (assigns name = false → after name = before name)

section Keeps

lemma KeepsLocals.refl : KeepsLocals scope assigns a a := fun _ _ => ⟨rfl, fun _ => rfl⟩

variable (h : KeepsLocals scope assigns a b)
include h

lemma KeepsLocals.trans (h' : KeepsLocals scope assigns b c) : KeepsLocals scope assigns a c := by
  intro name hname
  obtain ⟨htype, hvalue⟩ := h name hname
  obtain ⟨htype', hvalue'⟩ := h' name hname
  exact ⟨htype'.trans htype, fun hfree => (hvalue' hfree).trans (hvalue hfree)⟩

lemma KeepsLocals.mono (hscope : outer.values ⊆ scope.values)
    (hass : ∀ name, assigns' name = false →
      assigns name = false) : KeepsLocals outer assigns' a b := by
  intro name hname
  obtain ⟨htype, hvalue⟩ := h name (hscope hname)
  exact ⟨htype, fun hfree => hvalue (hass name hfree)⟩

lemma KeepsLocals.respects (ha : Respects scope types a) : Respects scope types b :=
  fun name hname type htype => (h name hname).1.trans (ha name hname type htype)

omit h

lemma keepsLocals_update (h : name ∉ scope.values) :
    KeepsLocals scope assigns a (Function.update a name value) := by
  intro other hother
  have hne : other ≠ name := fun heq => h (heq ▸ hother)
  rw [Function.update_of_ne hne]
  exact ⟨rfl, fun _ => rfl⟩

end Keeps

lemma subset_after (scope : Scope) (statement : SimpleStmt) :
    scope.values ⊆ (scope.after statement).values := by
  cases statement with
  | let_ name type expression => exact List.subset_cons_self _ _
  | _ => exact List.Subset.refl _

lemma subset_scopeAfterAll (scope : Scope) (statements : List SimpleStmt) :
    scope.values ⊆ (scopeAfterAll scope statements).values := by
  induction statements generalizing scope with
  | nil => exact List.Subset.refl _
  | cons statement rest ih => exact List.Subset.trans (subset_after scope statement) (ih _)

section Exact

variable {W : Type} (p : LinkedProgram) (machine : Machine W)

def Denotes (scope : Scope) (expected : Option TypeKey) (e : SimpleExpr) (lane : Lane)
    (value : ℤ) : Prop :=
  ∀ fuel s result s', (interpreter p machine fuel).eval scope expected e s = .ok result s' →
    result = .ofLane lane (BitVec.ofInt 32 value)

def HasType (scope : Scope) (types : Types) (e : SimpleExpr) (type : TypeKey) : Prop :=
  ∀ fuel s result s', Respects scope types s.locals →
    (interpreter p machine fuel).eval scope none e s = .ok result s' → result.type = type

def startType (types : Types) : SimpleStmt → Option TypeKey
  | .let_ _ type _ => type
  | .assign (.local name) _ _ => types name
  | _ => none

/-- The lane of the counter: the declared one, else that of the value it starts with. -/
def CountsIn (types : Types) (startLane lane : Lane) : SimpleStmt → Prop
  | .let_ _ none _ => startLane = lane
  | .let_ _ (some type) _ => type = lane.type
  | .assign (.local name) _ _ => types name = some lane.type
  | _ => False

/-- A `for` whose header means at run time what the analysis takes it to mean, and
whose counter does not wrap. -/
structure ExactCount (scope : Scope) (types : Types) (init : SimpleStmt)
    (condition : SimpleCondition) (step : SimpleStmt) (body : List SimpleStmt) (n : ℕ) where
  header : ForHeader
  header_eq : forHeader init condition step = some header
  start : ℤ
  stop : ℤ
  increment : ℤ
  rounds_eq : roundsBetween header.op start stop increment = some n
  counter_local : header.counter ∈ (scope.after init).values
  counter_kept : statementsWriteLocal body header.counter = false
  lane : Lane
  startLane : Lane
  stopLane : Lane
  incrementLane : Lane
  counts_in : CountsIn types startLane lane init
  start_denotes : Denotes p machine scope (startType types init) header.start startLane start
  stop_denotes : Denotes p machine (scope.after init)
    ((Native.unsignedContext lane).map Lane.type) header.stop stopLane stop
  increment_denotes : Denotes p machine (scopeAfterAll (scope.after init) body) (some lane.type)
    header.increment incrementLane increment
  start_fits : lane.integerLiteralFits start = true
  last_fits : lane.integerLiteralFits (start + n * increment) = true
  stop_fits : stopLane.integerLiteralFits stop = true
  signs : (lane.isUnsigned || stopLane.isUnsigned) = true → 0 ≤ start ∧ 0 ≤ stop

/-- A foreach over a collection that is no longer than the bound, and whose body does
not assign to the index. -/
structure ExactForeach (scope : Scope) (types : Types) (itemName : String)
    (indexName : Option String) (collectionPath : Path) (body : List SimpleStmt) (n : ℕ) :
    Prop where
  index_kept : statementsWriteLocal body (Native.foreachIndexVar itemName indexName) = false
  len_le : ∀ typeOf : String → TypeKey,
    (∀ name ∈ scope.values, ∀ type ∈ types name, typeOf name = type) →
      ∀ len ∈ foreachLen p scope typeOf collectionPath, len ≤ n

def isPlain : SimpleStmt → Bool
  | .let_ _ _ _ | .if_ _ _ _ | .for_ _ _ _ _ | .foreach _ _ _ _ => false
  | _ => true

mutual

/-- The statement declares no name a second time and its loops run as analysed; what
is known of the types of locals before it and after it. -/
inductive Exact (functionId : FnId) : Scope → Types → SimpleStmt → Types → Prop
  | plain {scope types statement} : isPlain statement = true →
    Exact functionId scope types statement types
  | let_ {scope types name declared expression} (known : Option TypeKey) :
    name ∉ scope.values →
    (∀ type ∈ known, declared = some type ∨
      declared = none ∧ HasType p machine scope types expression type) →
    Exact functionId scope types (.let_ name declared expression)
      (Function.update types name known)
  | if_ {scope types condition thenStatements elseStatements thenTypes elseTypes} :
    ExactAll functionId scope types thenStatements thenTypes →
    ExactAll functionId scope types (elseStatements.getD []) elseTypes →
    Exact functionId scope types (.if_ condition thenStatements elseStatements) types
  | for_ {scope types init condition step body loopTypes bodyTypes stepTypes} :
    Exact functionId scope types init loopTypes →
    ExactAll functionId (scope.after init) loopTypes body bodyTypes →
    -- the body may have been left before its last declaration
    Exact functionId (scopeAfterAll (scope.after init) body) (fun _ => none) step stepTypes →
    (∀ n, staticForMaxIterations p.toAnalysisContext init condition step body = some n →
      Nonempty (ExactCount p machine scope types init condition step body n)) →
    Exact functionId scope types (.for_ init condition step body) types
  | foreach {scope types itemName indexName collectionPath body bodyTypes} :
    Native.foreachIndexVar itemName indexName ∉ scope.values →
    ExactAll functionId
      (foreachScope p.toAnalysisContext scope itemName indexName collectionPath)
      (Function.update types (Native.foreachIndexVar itemName indexName) (some (.scalar .i32)))
      body bodyTypes →
    (∀ n, foreachMaxIterations p.toAnalysisContext functionId scope collectionPath = some n →
      ExactForeach p scope types itemName indexName collectionPath body n) →
    Exact functionId scope types (.foreach itemName indexName collectionPath body) types

inductive ExactAll (functionId : FnId) : Scope → Types → List SimpleStmt → Types → Prop
  | nil {scope types} : ExactAll functionId scope types [] types
  | cons {scope types statement rest types' types''} :
    Exact functionId scope types statement types' →
    ExactAll functionId (scope.after statement) types' rest types'' →
    ExactAll functionId scope types (statement :: rest) types''

end

/-- A function with parameters of different names whose loops run as analysed. -/
def ExactFunction (functionId : FnId) : Prop :=
  ∀ function, p.functions[functionId]? = some function →
    (function.params.map Prod.fst).Nodup ∧
      ∃ types, ExactAll p machine functionId function.scope
        (fun name => function.params.lookup name)
        function.statements types

end Exact

lemma forHeader_eq (h : forHeader init condition step = some header) :
    forStart init = some (header.counter, header.start) ∧
      forEnd header.counter condition = some (header.op, header.stop) ∧
        forIncrement header.counter step = some header.increment := by
  simp only [forHeader, Option.bind_eq_bind, Option.bind_eq_some_iff, Option.pure_def,
    Option.some.injEq] at h
  obtain ⟨⟨counter, start⟩, hstart, ⟨op, stop⟩, hend, increment, hincr, rfl⟩ := h
  exact ⟨hstart, hend, hincr⟩

def LoopsBounded {W : Type} (s : State W) : Prop :=
  ∀ n k, Event.iteration (some n) k ∈ s.log → k ≤ n

def EvalKeepsLocals {W : Type} (I : Interpreter W) : Prop :=
  ∀ scope expected e s value s', LoopsBounded s → I.eval scope expected e s = .ok value s' →
    s'.locals = s.locals

section Returns

variable {W : Type}

lemma coerce_ofLane (h : lane.integerLiteralFits value = true) :
    coerce machine lane.type (.ofLane valueLane (BitVec.ofInt 32 value)) =
      .ofLane lane (BitVec.ofInt 32 value) := by
  simp [coerce, Lane.normalize_ofInt h]

lemma binaryValue_add (hlane : lane.isInteger = true) (h : lane.integerLiteralFits (a + b) = true) :
    binaryValue machine (some lane.type) .add (.ofLane lane (BitVec.ofInt 32 a))
        (.ofLane valueLane (BitVec.ofInt 32 b)) =
      some (.ofLane lane (BitVec.ofInt 32 (a + b))) := by
  have hres : Native.integerBinaryResultType (some lane) lane valueLane = lane := by
    simp [Native.integerBinaryResultType, Option.filter, hlane]
  simp [binaryValue, ExprBinaryOp.requiresIntegerOperands, hres, Native.arithmetic,
    ← BitVec.ofInt_add, Lane.normalize_ofInt h]

lemma eval_local (hname : name ∈ scope.values)
    (h : (interpreter p machine fuel).eval scope expected (.identifier [name]) s = .ok value s') :
    value = s.locals name ∧ s' = s := by
  cases fuel with
  | zero => cases h
  | succ fuel =>
    change loadPath p machine scope [name] s = .ok value s' at h
    have hload : loadPath p machine scope [name] s = .ok (s.locals name) s := by
      simp [loadPath, Scope.local?, hname]
      rfl
    rw [hload] at h
    cases h
    exact ⟨rfl, rfl⟩

lemma integerContext_type (h : lane.isInteger = true) :
    integerContext (some lane.type) = some lane := by
  simp [integerContext, Option.filter, h]

lemma orTrap_eq_ok {α : Type} {o : Option α} {a : α} (h : (orTrap o : Run W α) s = .ok a s') :
    o = some a ∧ s' = s := by
  cases o with
  | none => cases h
  | some b =>
    cases h
    exact ⟨rfl, rfl⟩

lemma eval_add (hname : name ∈ scope.values) (ha : s.locals name = .ofLane lane (BitVec.ofInt 32 a))
    (hlane : lane.isInteger = true) (hrhs : Denotes p machine scope (some lane.type) rhs rhsLane b)
    (hfits : lane.integerLiteralFits (a + b) = true)
    (h : (interpreter p machine fuel).eval scope (some lane.type)
      (.binary (.identifier [name]) .add rhs) s = .ok result s') :
    result = .ofLane lane (BitVec.ofInt 32 (a + b)) := by
  cases fuel with
  | zero => cases h
  | succ fuel =>
    have hplan : operandPlan (some lane.type) (.identifier [name]) .add rhs =
        ⟨false, some lane, fun _ => some lane⟩ := by
      simp [operandPlan, ExprBinaryOp.requiresIntegerOperands, arithmeticPlan,
        integerContext_type hlane]
    obtain ⟨⟨x, y⟩, s₁, hope, hadd⟩ := bind_eq_ok h
    obtain ⟨hres, -⟩ := orTrap_eq_ok hadd
    rw [hplan] at hope
    obtain ⟨x, s₂, hx, hrest⟩ := bind_eq_ok hope
    obtain ⟨hx, -⟩ := eval_local hname hx
    obtain ⟨y, s₃, hy, hpair⟩ := bind_eq_ok hrest
    cases hpair
    rw [hx, ha, hrhs fuel s₂ y s₁ hy, binaryValue_add hlane hfits] at hres
    exact (Option.some.inj hres).symm

lemma let_returns
    (h : execStatement p machine below functionId scope (.let_ name type e) s = .ok signal s') :
    ∃ value s₁, below.eval scope type e s = .ok value s₁ ∧
      s'.locals = Function.update s₁.locals name (coerceTo machine type value) := by
  obtain ⟨value, s₁, heval, hset⟩ := bind_eq_ok h
  cases hset
  exact ⟨value, s₁, heval, rfl⟩

lemma assign_local_returns (hframe : EvalKeepsLocals below) (hs : LoopsBounded s)
    (hname : name ∈ scope.values)
    (h : execStatement p machine below functionId scope (.assign (.local name) op e) s =
      .ok signal s') :
    ∃ value new s₁, below.eval scope (some (s.locals name).type) e s = .ok value s₁ ∧
      assignedValue machine op (s.locals name) value = some new ∧
        s'.locals name = coerce machine (s.locals name).type new := by
  obtain ⟨value, s₁, heval, hass⟩ := bind_eq_ok (s := s) (f := fun value => do
    assignTo machine below scope op value (.local name)
    return Signal.next) h
  have htar : targetType p scope s.locals (.local name) = some (s.locals name).type := by
    simp [targetType, hname]
  rw [htar] at heval
  have hloc := hframe _ _ _ _ _ _ hs heval
  obtain ⟨_, s₂, hassi, hnext⟩ := bind_eq_ok hass
  cases hnext
  simp only [assignTo, hname, if_true] at hassi
  obtain ⟨new, s₃, hnew, hset⟩ := bind_eq_ok (s := s₁) (f := fun new =>
    setLocal name (coerce machine (s₁.locals name).type new)) hassi
  obtain ⟨hnew, rfl⟩ := orTrap_eq_ok hnew
  cases hset
  rw [hloc] at hnew
  exact ⟨value, new, s₃, heval, hnew, (Function.update_self _ _ _).trans (by rw [hloc])⟩

namespace ExactCount

variable (c : ExactCount p machine scope types init condition step body n)

lemma increment_pos : 0 < c.increment := by
  have h := c.rounds_eq
  unfold roundsBetween at h
  split_ifs at h with hincr
  omega

lemma op_eq : c.header.op = .lt ∨ c.header.op = .le := by
  have h := c.rounds_eq
  unfold roundsBetween at h
  split_ifs at h with hincr
  cases hop : c.header.op <;> simp [hop] at h <;> simp

def value (k : ℕ) : ℤ := c.start + k * c.increment

lemma value_fits (hk : k ≤ n) : c.lane.integerLiteralFits (c.value k) = true := by
  have hpos := c.increment_pos
  have hlow : 0 ≤ (k : ℤ) * c.increment := Int.mul_nonneg (by omega) (by omega)
  have hhigh : (k : ℤ) * c.increment ≤ n * c.increment :=
    Int.mul_le_mul_of_nonneg_right (by omega) (by omega)
  exact Lane.fits_between c.start_fits c.last_fits (by unfold value; omega) (by unfold value; omega)

lemma value_succ (k : ℕ) : c.value (k + 1) = c.value k + c.increment := by
  unfold value
  rw [Int.natCast_succ, Int.add_mul]
  omega

lemma init_returns (hframe : EvalKeepsLocals (interpreter p machine fuel))
    (hs : LoopsBounded s) (hresp : Respects scope types s.locals)
    (h : execStatement p machine (interpreter p machine fuel) functionId scope init s =
      .ok signal s') :
    s'.locals c.header.counter = .ofLane c.lane (BitVec.ofInt 32 (c.value 0)) := by
  have hvalue : c.value 0 = c.start := by simp [value]
  have hstart := (forHeader_eq c.header_eq).1
  have hcou := c.counts_in
  have hlocal := c.counter_local
  have hden := c.start_denotes
  rw [hvalue]
  unfold forStart at hstart
  split at hstart
  · -- the counter is declared in the header
    rename_i name type expression
    simp only [Option.some.injEq, Prod.mk.injEq] at hstart
    obtain ⟨hname, hexpression⟩ := hstart
    obtain ⟨result, s₁, heval, hloc⟩ := let_returns h
    rw [hexpression] at heval
    rw [hloc, ← hname, Function.update_self, hden fuel s result s₁ heval]
    cases type with
    | none => exact congrArg (Value.ofLane · _) hcou
    | some type =>
      have htype : type = c.lane.type := hcou
      exact (congrArg (coerce machine · _) htype).trans (coerce_ofLane c.start_fits)
  · -- the counter was declared before
    rename_i name expression
    simp only [Option.some.injEq, Prod.mk.injEq] at hstart
    obtain ⟨hname, hexpression⟩ := hstart
    rw [← hname] at hlocal ⊢
    have htypes : types name = some c.lane.type := hcou
    have htype : (s.locals name).type = c.lane.type := hresp name hlocal _ htypes
    obtain ⟨result, new, s₁, heval, hnew, hloc⟩ := assign_local_returns hframe hs hlocal h
    rw [hexpression, htype, ← htypes] at heval
    cases hnew
    rw [hloc, htype, hden fuel s result s₁ heval]
    exact coerce_ofLane c.start_fits
  · cases hstart

lemma condition_returns {value : ℤ}
    (hvalue : s.locals c.header.counter = .ofLane c.lane (BitVec.ofInt 32 value))
    (hfits : c.lane.integerLiteralFits value = true) (hle : c.start ≤ value)
    (h : (interpreter p machine fuel).condition (scope.after init) condition s = .ok test s')
    (htest : test = true) : Below c.header.op value c.stop := by
  have hend := (forHeader_eq c.header_eq).2.1
  have hop := c.op_eq
  have hden := c.stop_denotes
  unfold forEnd at hend
  split at hend
  · rename_i name op rhs
    split_ifs at hend with hname
    simp only [Option.some.injEq, Prod.mk.injEq] at hend
    rw [← hend.2] at hden
    rw [← hend.1] at hop ⊢
    cases fuel with
    | zero => cases h
    | succ fuel =>
      obtain ⟨⟨a, b⟩, s₁, hope, hcom⟩ := bind_eq_ok h
      obtain ⟨hres, -⟩ := orTrap_eq_ok hcom
      obtain ⟨a, s₂, hlhs, hrhs⟩ := bind_eq_ok hope
      obtain ⟨ha, hs₂⟩ := eval_local (hname ▸ c.counter_local) hlhs
      obtain ⟨b, s₃, hrhs, hpair⟩ := bind_eq_ok hrhs
      cases hpair
      rw [hname, hvalue] at ha
      rw [ha, Value.lane_ofLane] at hrhs
      rw [ha, hden fuel s₂ b _ hrhs, htest] at hres
      simp only [comparisonValue, Value.lane_ofLane, Value.word_ofLane, Option.some.injEq]
        at hres
      refine below_of_compare hop ?_ ?_ hres
      · exact Lane.represents_of_fits hfits (fun hlane => by simp [hlane])
          fun huns => (c.signs huns).1.trans hle
      · exact Lane.represents_of_fits c.stop_fits (fun hlane => by simp [hlane])
          fun huns => (c.signs huns).2
  · cases hend

lemma lt_of_condition {k : ℕ} (hk : k ≤ n)
    (hvalue : s.locals c.header.counter = .ofLane c.lane (BitVec.ofInt 32 (c.value k)))
    (h : (interpreter p machine fuel).condition (scope.after init) condition s = .ok true s') :
    k < n := by
  have hpos := c.increment_pos
  have hle : c.start ≤ c.value k := by
    have hmul : 0 ≤ (k : ℤ) * c.increment := Int.mul_nonneg (by omega) (by omega)
    unfold value
    omega
  exact lt_of_roundsBetween c.rounds_eq (Lane.range_of_fits c.start_fits)
    (Lane.range_of_fits c.stop_fits) (c.condition_returns hvalue (c.value_fits hk) hle h rfl)

lemma step_returns (hframe : EvalKeepsLocals (interpreter p machine fuel)) (hs : LoopsBounded s)
    {value : ℤ} (hvalue : s.locals c.header.counter = .ofLane c.lane (BitVec.ofInt 32 value))
    (hfits : c.lane.integerLiteralFits (value + c.increment) = true)
    (h : execStatement p machine (interpreter p machine fuel) functionId
      (scopeAfterAll (scope.after init) body) step s = .ok signal s') :
    s'.locals c.header.counter = .ofLane c.lane (BitVec.ofInt 32 (value + c.increment)) := by
  have hincr := (forHeader_eq c.header_eq).2.2
  have hlane := Lane.isInteger_of_fits c.start_fits
  have hlocal := subset_scopeAfterAll _ body c.counter_local
  have hden := c.increment_denotes
  unfold forIncrement at hincr
  split at hincr
  · -- `i += c`
    rename_i name expression
    split_ifs at hincr with hname
    rw [← Option.some.inj hincr] at hden
    rw [← hname] at hvalue hlocal ⊢
    obtain ⟨result, new, s₁, heval, hnew, hloc⟩ := assign_local_returns hframe hs hlocal h
    rw [hvalue] at heval hnew hloc
    rw [hden fuel s result s₁ heval] at hnew
    obtain rfl := Option.some.inj ((binaryValue_add hlane hfits).symm.trans hnew)
    exact hloc.trans (coerce_ofLane hfits)
  · -- `i = i + c`
    rename_i name name' rhs
    split_ifs at hincr with hname
    rw [← Option.some.inj hincr] at hden
    have hvalue' := hvalue
    have hlocal' := hlocal
    rw [← hname.2] at hvalue' hlocal'
    rw [← hname.1] at hvalue hlocal ⊢
    obtain ⟨result, new, s₁, heval, hnew, hloc⟩ := assign_local_returns hframe hs hlocal h
    obtain rfl := Option.some.inj hnew
    rw [hvalue] at heval hloc
    rw [eval_add hlocal' hvalue' hlane hden hfits heval] at hloc
    exact hloc.trans (coerce_ofLane hfits)
  · cases hincr

end ExactCount

end Returns

end Stasis.DataFlow
