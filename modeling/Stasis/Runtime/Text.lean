import Stasis.Runtime.Interference

namespace Stasis.Runtime

open StorageLane
open List

def utf8Bytes (text : String) : List UInt8 := text.toUTF8.data.toList

def hashStringLiteral (value : String) : UInt32 := hashGlobalPath [value]

def fnv1aExtend (hash : UInt32) (suffix : List UInt8) : UInt32 :=
  suffix.foldl (fun hash byte => (hash ^^^ byte.toUInt32) * 16777619) hash

def literalCollision (id : UInt32) (previous value : String) : String :=
  "string literal hash collision for id " ++ toString id.toInt32 ++ ": '" ++ previous ++ "' vs '" ++
    value ++ "'"

def collectLiteral (literals : List (UInt32 × String)) (value : String) :
    Except String (List (UInt32 × String)) :=
  let id := hashStringLiteral value
  match literals.lookup id with
  | some previous =>
    if previous ≠ value then .error (literalCollision id previous value) else .ok literals
  | none => .ok ((id, value) :: literals)

/-- `collect_program_literals`, from the texts of the string literals of all
files in their order. -/
def collectProgramLiterals (values : List String) : Except String (List (UInt32 × String)) :=
  values.foldlM collectLiteral []

def literalTable (literals : List (UInt32 × String)) : List (UInt32 × List UInt8) :=
  literals.map fun entry => (entry.1, utf8Bytes entry.2)

lemma lookup_literalTable (literals : List (UInt32 × String)) (id : UInt32) :
    (literalTable literals).lookup id = (literals.lookup id).map utf8Bytes := by
  induction literals with
  | nil => rfl
  | cons entry literals ih =>
    rw [literalTable, map_cons, lookup_cons, lookup_cons]
    cases id == entry.1 with
    | true => rfl
    | false => exact ih

variable {literals literals' : List (UInt32 × String)} {value : String} {values : List String}

lemma lookup_collectLiteral (h : collectLiteral literals value = .ok literals') :
    literals'.lookup (hashStringLiteral value) = some value ∧
      ∀ id text, literals.lookup id = some text → literals'.lookup id = some text := by
  dsimp only [collectLiteral] at h
  split at h <;> rename_i hlook
  · split_ifs at h with heq
    cases h
    exact ⟨hlook.trans (congrArg some (not_not.mp heq)), fun _ _ hid => hid⟩
  · cases h
    refine ⟨by simp, fun id text hid => ?_⟩
    have hne : (id == hashStringLiteral value) = false := by
      rw [beq_eq_false_iff_ne]
      rintro rfl
      rw [hlook] at hid
      cases hid
    rw [lookup_cons, hne]
    exact hid

lemma lookup_foldlM_collectLiteral (h : values.foldlM collectLiteral literals = .ok literals') :
    (∀ value ∈ values, literals'.lookup (hashStringLiteral value) = some value) ∧
      ∀ id text, literals.lookup id = some text → literals'.lookup id = some text := by
  induction values generalizing literals with
  | nil =>
    cases h
    exact ⟨fun value hvalue => absurd hvalue not_mem_nil, fun _ _ hid => hid⟩
  | cons value values ih =>
    rw [foldlM_cons] at h
    obtain ⟨next, hstep, h⟩ := bind_ok_iff.mp h
    obtain ⟨hval, hkept⟩ := ih h
    obtain ⟨hfound, hbef⟩ := lookup_collectLiteral hstep
    refine ⟨?_, fun id text hid => hkept id text (hbef id text hid)⟩
    intro v hv
    rcases mem_cons.mp hv with rfl | hv
    · exact hkept _ _ hfound
    · exact hval v hv

lemma eq_of_hashStringLiteral_eq (h : collectProgramLiterals values = .ok literals)
    (hvalue : value ∈ values) (hvalue' : value' ∈ values)
    (heq : hashStringLiteral value = hashStringLiteral value') : value = value' := by
  have hfound := (lookup_foldlM_collectLiteral h).1
  have hv := hfound value hvalue
  rw [heq, hfound value' hvalue'] at hv
  exact (Option.some.inj hv).symm

def metaSuffixBytes : ℤ → Option (List UInt8)
  | 1 => some (utf8Bytes ".length")
  | 2 => some (utf8Bytes ".max_length")
  | 3 => some (utf8Bytes ".char_length")
  | _ => none

/-- The characters of a text are the bytes that do not continue one. -/
def charCount (text : List UInt8) : ℕ := text.countP fun byte => byte &&& 0xC0 ≠ 0x80

namespace Registry

variable (reg : Registry)

/-- `stasis_jit_collection_i32_load`: a registered header, then the literal. -/
def collectionI32Load (collection : UInt32) (metaKind : ℤ) : BitVec 32 :=
  match metaSuffixBytes metaKind with
  | none => 0
  | some suffix =>
    match reg.scalars .int (fnv1aExtend collection suffix) with
    | some value => .ofNat 32 value
    | none =>
      match reg.literals collection with
      | none => 0
      | some text =>
        .ofNat 32 (min (if metaKind = 3 then charCount text else text.length) (2 ^ 31 - 1))

def textBufferIsRegistered (id : UInt32) : Bool :=
  (reg.scalars .int (fnv1aExtend id (utf8Bytes ".max_length"))).isSome ||
    (reg.lanes .int (id, 0)).any (fun lane => lane.kind ≠ .u16) ||
    !(reg.fallback .int (id, 0)).isEmpty

def textByte (id : UInt32) (index : ℕ) : Option UInt8 :=
  let value := BitVec.ofNat 32 (reg.arrayLoad .int (id, 0) index)
  if value.toNat < 256 then some (.ofNat value.toNat) else none

def textBytesFrom (id : UInt32) (index : ℕ) : ℕ → Option (List UInt8)
  | 0 => some []
  | n + 1 => do
    let byte ← reg.textByte id index
    let rest ← textBytesFrom id (index + 1) n
    some (byte :: rest)

def globalTextBytes (id : UInt32) : Option (List UInt8) :=
  if reg.textBufferIsRegistered id then
    let byteLen := reg.collectionI32Load id 1
    if byteLen.toInt < 0 then none else reg.textBytesFrom id 0 byteLen.toNat
  else none

/-- `jit_text_arg_bytes`: the argument of a host text function. -/
def textArgBytes (id : UInt32) : Option (List UInt8) :=
  match reg.globalTextBytes id with
  | some bytes => some bytes
  | none => reg.literals id

def boundedTextArgBytes (id : UInt32) (limit : ℕ) : Option (List UInt8) :=
  if reg.textBufferIsRegistered id then
    let length := reg.collectionI32Load id 1
    if length.toInt < 0 then none
    else if limit < length.toNat then none
    else reg.textBytesFrom id 0 length.toNat
  else (reg.literals id).filter fun text => text.length ≤ limit

def saturatingAdd (index : ℤ) (offset : ℕ) : ℤ := min (index + offset) (2 ^ 31 - 1)

/-- `stasis_jit_global_i32_array_load` at an index that may be negative. -/
def elementLoad (id : UInt32) (index : ℤ) : ℕ :=
  if index < 0 then 0 else reg.arrayLoad .int (id, 0) index.toNat

/-- `stasis_jit_global_i32_array_store` at an index that may be negative. -/
def elementStore (id : UInt32) (index : ℤ) (value : ℕ) : Registry :=
  if index < 0 then reg else reg.arrayStore .int (id, 0) index.toNat value

/-- What `stasis_jit_sys_memcpy_u8` reads at one index of its source. -/
def memcpySource (src : UInt32) (index : ℤ) : ℕ :=
  let literalBytes := if reg.textBufferIsRegistered src then none else reg.literals src
  match literalBytes with
  | some bytes => if index < 0 then 0 else (bytes.getD index.toNat 0).toNat
  | none => reg.elementLoad src index

def storeValues (dst : UInt32) (dstIndex : ℤ) (values : List ℕ) : Registry :=
  values.zipIdx.foldl (fun reg entry =>
    reg.elementStore dst (saturatingAdd dstIndex entry.2) entry.1) reg

/-- `stasis_jit_sys_memcpy_u8`: all values are read before the first is stored. -/
def memcpyU8 (dst : UInt32) (dstIndex : ℤ) (src : UInt32) (srcIndex : ℤ) (count : ℕ) : Registry :=
  reg.storeValues dst dstIndex
    ((List.range count).map fun offset => reg.memcpySource src (saturatingAdd srcIndex offset))

/-- Every use of the handle yields the bytes: as an argument of a host function,
indexed through a view, as the source of a copy, and in its length. -/
structure Denotes (id : UInt32) (bytes : List UInt8) : Prop where
  argument : reg.textArgBytes id = some bytes
  bounded : ∀ limit, reg.boundedTextArgBytes id limit =
    if bytes.length ≤ limit then some bytes else none
  indexed : ∀ i < bytes.length, reg.elementLoad id i = (bytes.getD i 0).toNat
  copied : ∀ dst dstIndex (start count : ℕ), start + count ≤ min bytes.length (2 ^ 31) →
    reg.memcpyU8 dst dstIndex id start count =
      reg.storeValues dst dstIndex (((bytes.drop start).take count).map UInt8.toNat)
  length : reg.collectionI32Load id 1 = .ofNat 32 (min bytes.length (2 ^ 31 - 1))

def Unoccupied (k : SlotKey) : Prop :=
  (reg.slotView k).scalar = none ∧ (reg.slotView k).lane = none ∧ (reg.slotView k).fallback = []

end Registry

def literalKeys (id : UInt32) : List SlotKey :=
  [.lane .int (id, 0), .scalar .int (fnv1aExtend id (utf8Bytes ".length")),
    .scalar .int (fnv1aExtend id (utf8Bytes ".max_length"))]

namespace Registry

variable {reg : Registry}

lemma elementLoad_natCast (reg : Registry) (id : UInt32) (i : ℕ) :
    reg.elementLoad id i = reg.arrayLoad .int (id, 0) i := by
  rw [elementLoad, if_neg (by omega), Int.toNat_natCast]

variable {id : UInt32} {bytes : List UInt8}

lemma memcpyU8_eq (hsou : ∀ i < bytes.length, reg.memcpySource id i = (bytes.getD i 0).toNat)
    (dst : UInt32) (dstIndex : ℤ) {start count : ℕ} (h :
      start + count ≤ min bytes.length (2 ^ 31)) :
    reg.memcpyU8 dst dstIndex id start count =
      reg.storeValues dst dstIndex (((bytes.drop start).take count).map UInt8.toNat) := by
  rw [memcpyU8]
  congr 1
  apply ext_getElem
  · simp only [length_map, length_range, length_take, length_drop]
    omega
  · intro i hi _
    have hlt : i < count := by simpa using hi
    have hindex : saturatingAdd start i = ((start + i : ℕ) : ℤ) := by
      rw [saturatingAdd]
      omega
    simp only [getElem_map, getElem_range, getElem_take, getElem_drop]
    have hin : start + i < bytes.length := by omega
    rw [hindex, hsou (start + i) hin]
    simp [hin]

lemma denotes_literal (hlit : reg.literals id = some bytes)
    (hfree : ∀ k ∈ literalKeys id, reg.Unoccupied k) : reg.Denotes id bytes := by
  obtain ⟨-, hlane, hfal⟩ : reg.Unoccupied (.lane .int (id, 0)) := hfree _ (by simp [literalKeys])
  obtain ⟨hlen, -, -⟩ : reg.Unoccupied (.scalar .int (fnv1aExtend id (utf8Bytes ".length"))) :=
    hfree _ (by simp [literalKeys])
  obtain ⟨hmaxLe, -, -⟩ :
      reg.Unoccupied (.scalar .int (fnv1aExtend id (utf8Bytes ".max_length"))) :=
    hfree _ (by simp [literalKeys])
  simp only [slotView] at hlane hfal hlen hmaxLe
  have hunr : reg.textBufferIsRegistered id = false := by
    simp [textBufferIsRegistered, hmaxLe, hlane, hfal]
  refine ⟨?_, fun limit => ?_, fun i hi => ?_,
    fun dst dstIndex start count => memcpyU8_eq (fun i hi => ?_) dst dstIndex, ?_⟩
  · simp [textArgBytes, globalTextBytes, hunr, hlit]
  · simp [boundedTextArgBytes, hunr, hlit, Option.filter]
  · simp [elementLoad_natCast, arrayLoad, hlane, hfal, hlit, hi]
  · simp [memcpySource, hunr, hlit]
  · simp [collectionI32Load, metaSuffixBytes, hlen, hlit]

lemma textBytesFrom_eq (h : ∀ i < bytes.length, reg.textByte id (index + i) =
    some (bytes.getD i 0)) :
    reg.textBytesFrom id index bytes.length = some bytes := by
  induction bytes generalizing index with
  | nil => rfl
  | cons byte bytes ih =>
    have hhead : reg.textByte id index = some byte := by simpa using h 0 (by simp)
    have htail : reg.textBytesFrom id (index + 1) bytes.length = some bytes := by
      apply ih
      intro i hi
      have hnext := h (i + 1) (by simpa using hi)
      rw [show index + 1 + i = index + (i + 1) by omega, hnext]
      rfl
    simp [textBytesFrom, hhead, htail]

end Registry

lemma intercalate_concat (hpath : path ≠ []) (name : String) :
    ".".intercalate (path ++ [name]) = ".".intercalate path ++ ("." ++ name) := by
  induction path with
  | nil => exact absurd rfl hpath
  | cons segment path ih =>
    cases path with
    | nil => simp [String.intercalate_cons_cons, String.append_assoc]
    | cons next path =>
      rw [cons_append, cons_append, String.intercalate_cons_cons, ← cons_append,
        ih (by simp), String.intercalate_cons_cons, String.append_assoc, String.append_assoc,
        String.append_assoc]

lemma hashGlobalPath_concat (hpath : path ≠ []) (name : String) :
    hashGlobalPath (path ++ [name]) =
      fnv1aExtend (hashGlobalPath path) (utf8Bytes ("." ++ name)) := by
  rw [hashGlobalPath, intercalate_concat hpath, hashGlobalPath, fnv1aExtend, utf8Bytes,
    ← foldl_append]
  simp

namespace Registry

variable {reg : Registry}

/-- The lane of a global holds the bytes, and its `length` header counts them. -/
structure HoldsText (reg : Registry) (path : Path) (bytes : List UInt8) : Prop where
  lane : ∃ lane, reg.lanes .int (Program.laneKey path []) = some lane ∧ lane.kind ≠ .u16 ∧
    ∀ i < bytes.length, lane.elements[i]? = some (bytes.getD i 0).toNat
  length : reg.scalars .int (hashGlobalPath (path ++ ["length"])) = some bytes.length
  fits : bytes.length < 2 ^ 31

lemma denotes_buffer (hpath : path ≠ []) (h : reg.HoldsText path bytes) :
    reg.Denotes (hashGlobalPath path) bytes := by
  obtain ⟨lane, hlane, hkind, hele⟩ := h.lane
  have hhead := h.length
  rw [hashGlobalPath_concat hpath, show "." ++ "length" = ".length" from rfl] at hhead
  change reg.lanes .int (hashGlobalPath path, 0) = some lane at hlane
  have hreg : reg.textBufferIsRegistered (hashGlobalPath path) = true := by
    simp [textBufferIsRegistered, hlane, hkind]
  have hlen : reg.collectionI32Load (hashGlobalPath path) 1 = .ofNat 32 bytes.length := by
    rw [collectionI32Load]
    simp only [metaSuffixBytes]
    rw [hhead]
  have hcount : (BitVec.ofNat 32 bytes.length).toNat = bytes.length :=
    Nat.mod_eq_of_lt (by have := h.fits; omega)
  have hsig : ¬(BitVec.ofNat 32 bytes.length).toInt < 0 := by
    have := h.fits
    rw [BitVec.toInt_eq_toNat_of_lt] <;> omega
  have hload : ∀ i < bytes.length,
      reg.arrayLoad .int (hashGlobalPath path, 0) i = (bytes.getD i 0).toNat := by
    intro i hi
    simp [arrayLoad, hlane, getD, hele i hi]
  have hbytes : reg.textBytesFrom (hashGlobalPath path) 0 bytes.length = some bytes := by
    apply textBytesFrom_eq
    intro i hi
    have hbyte : (bytes.getD i 0).toNat < 256 := (bytes.getD i 0).toNat_lt
    rw [textByte, Nat.zero_add, hload i hi]
    simp only [BitVec.toNat_ofNat]
    rw [Nat.mod_eq_of_lt (by omega), if_pos hbyte, UInt8.ofNat_toNat]
  refine ⟨?_, fun limit => ?_, fun i hi => ?_,
    fun dst dstIndex start count => memcpyU8_eq (fun i hi => ?_) dst dstIndex, ?_⟩
  · simp only [textArgBytes, globalTextBytes, hreg, if_true, hlen, hsig, if_false, hcount, hbytes]
  · simp only [boundedTextArgBytes, hreg, if_true, hlen, hsig, if_false, hcount, hbytes]
    split_ifs <;> first | rfl | omega
  · rw [elementLoad_natCast, hload i hi]
  · simp only [memcpySource, hreg, if_true]
    rw [elementLoad_natCast, hload i hi]
  · rw [hlen, Nat.min_eq_left (by have := h.fits; omega)]

lemma slotView_writeAll_of_ne (h : ∀ w ∈ ws, k ≠ w.1.slotKey) (reg : Registry) :
    (cells.writeAll reg ws).slotView k = reg.slotView k := by
  induction ws generalizing reg with
  | nil => rfl
  | cons w ws ih =>
    calc (cells.writeAll reg (w :: ws)).slotView k
        = (reg.store w.1 w.2).slotView k := ih (fun w' hw' => h w' (mem_cons_of_mem w hw')) _
      _ = reg.slotView k := reg.slotView_store_of_ne (h w mem_cons_self) w.2

end Registry

lemma provisionAll_eq (reg : Registry) (bound : List (StorageLane × ℕ)) :
    provisionAll reg bound =
      runOperations reg (bound.map fun b => (b.1, LaneOperation.provision b.2)) := by
  rw [runOperations, runSteps, foldl_map]
  rfl

namespace Program

variable {p : Program}

lemma slotKey_mem_boundKeys (h : lane ∈ p.boundLanes) : lane.slotKey ∈ p.boundKeys := by
  rw [mem_boundLanes] at h
  exact mem_filterMap.mpr ⟨_, h, rfl⟩

lemma slotView_runOperations (hk : k ∉ p.boundKeys) (hops : ∀ op ∈ ops, op.1 ∈ p.boundLanes)
    (reg : Registry) : (runOperations reg ops).slotView k = reg.slotView k := by
  refine runSteps_frame (fun reg => Registry.slotView reg k) ?_ reg
  intro op hop s
  refine slotView_apply_of_ne ?_ op.2 s
  exact fun heq => hk (heq ▸ slotKey_mem_boundKeys (hops op hop))

lemma slotView_seedMaxLengthHeaders (hk : k ∉ p.boundKeys) (reg : Registry) :
    (p.seedMaxLengthHeaders reg).slotView k = reg.slotView k := by
  apply Registry.slotView_writeAll_of_ne
  intro w hw heq
  obtain ⟨header, hhead, rfl⟩ := mem_map.mp hw
  -- the header is itself a scalar global, so its slot is bound
  have htype := p.wellFormed.max_length_global header hhead
  obtain ⟨lane, hlane, hkind, hkey, hlen⟩ :=
    scalar_storageLane (p := p) (t := .i32) (by rw [scalarTypeOf, htype]; rfl)
  have hbound := slotKey_mem_boundKeys (mem_boundLanes.mpr hlane)
  rw [StorageLane.slotKey, hlen, hkind, hkey] at hbound
  exact hk (heq ▸ hbound)

lemma literals_activated (h : p.activateStagedRuntime reg = .ok () reg') (id : UInt32) :
    reg'.literals id = p.stringLiterals.lookup id := by
  have hacc : p.Activates := ⟨reg, by rw [h]; rfl⟩
  obtain ⟨bound, -, hrun⟩ := hacc.exists_bound
  rw [hrun reg] at h
  obtain rfl : _ = reg' := (EStateM.Result.ok.inj h).2
  rfl

lemma unoccupied_activated (h : p.activateStagedRuntime reg = .ok () reg') (hk : k ∉ p.boundKeys)
    (hfree : reg.Unoccupied k) : reg'.Unoccupied k := by
  have hacc : p.Activates := ⟨reg, by rw [h]; rfl⟩
  obtain ⟨bound, hlanes, hrun⟩ := hacc.exists_bound
  rw [hrun reg] at h
  obtain rfl : _ = reg' := (EStateM.Result.ok.inj h).2
  have hpro : (p.seedMaxLengthHeaders (provisionAll reg bound)).slotView k = reg.slotView k := by
    rw [slotView_seedMaxLengthHeaders hk, provisionAll_eq]
    refine slotView_runOperations hk ?_ reg
    intro op hop
    obtain ⟨b, hb, rfl⟩ := mem_map.mp hop
    rw [mem_boundLanes, hlanes]
    exact mem_map.mpr ⟨b, hb, rfl⟩
  unfold Registry.Unoccupied at hfree ⊢
  rw [← hpro] at hfree
  cases k <;> exact hfree

/-- The slots the literals are looked up behind are not bound by the program. -/
def LiteralsApart (p : Program) : Prop :=
  ∀ entry ∈ p.stringLiterals, ∀ k ∈ literalKeys entry.1, k ∉ p.boundKeys

instance (p : Program) : Decidable p.LiteralsApart :=
  inferInstanceAs (Decidable (∀ entry ∈ p.stringLiterals, ∀ k ∈ literalKeys entry.1,
    k ∉ p.boundKeys))

/-- A step of a running program: an operation on the storage of a lane, or a store through
the handle of a view, whatever it stands for. -/
inductive RuntimeStep
  | lane (lane : StorageLane) (operation : LaneOperation)
  | store (address : Address) (value : ℕ)

namespace RuntimeStep

def apply : RuntimeStep → Registry → Registry
  | lane l operation, reg => l.apply operation reg
  | store address value, reg => reg.store address value

/-- The lane is one the program binds, or the store does not go to a slot that is looked
up before a literal. -/
def Admitted (p : Program) : RuntimeStep → Prop
  | lane l _ => l ∈ p.boundLanes
  | store address _ => ∀ entry ∈ p.stringLiterals, address.slotKey ∉ literalKeys entry.1

end RuntimeStep

def runProgram (reg : Registry) (steps : List RuntimeStep) : Registry :=
  steps.foldl (fun reg step => step.apply reg) reg

lemma slotView_runProgram (hapart : p.LiteralsApart) (hentry : entry ∈ p.stringLiterals)
    (hk : k ∈ literalKeys entry.1) {steps : List RuntimeStep}
    (hsteps : ∀ step ∈ steps, step.Admitted p) (reg : Registry) :
    (runProgram reg steps).slotView k = reg.slotView k := by
  induction steps generalizing reg with
  | nil => rfl
  | cons step steps ih =>
    have hstep : (step.apply reg).slotView k = reg.slotView k := by
      have hadmitted := hsteps step mem_cons_self
      cases step with
      | lane lane operation =>
        refine slotView_apply_of_ne (fun heq => ?_) operation reg
        exact hapart entry hentry k hk (heq ▸ slotKey_mem_boundKeys hadmitted)
      | store address value =>
        refine reg.slotView_store_of_ne (fun heq => ?_) value
        exact hadmitted entry hentry (heq ▸ hk)
    exact (ih (fun other hother => hsteps other (mem_cons_of_mem _ hother)) _).trans hstep

/-- After the activation of a program and any run of it that stores nothing through the
handle of a literal, every literal denotes its own text and every buffer what it holds, and
no two literals share a handle. -/
theorem text_handles_are_unambiguous {p : Program} {values : List String}
    {literals : List (UInt32 × String)} (hcollected : collectProgramLiterals values = .ok literals)
    (hliterals : p.stringLiterals = literalTable literals) (hapart : p.LiteralsApart)
    {start activated : Registry} (hactivated : p.activateStagedRuntime start = .ok () activated)
    (hclean : ∀ entry ∈ p.stringLiterals, ∀ k ∈ literalKeys entry.1, start.Unoccupied k)
    (steps : List RuntimeStep) (hsteps : ∀ step ∈ steps, step.Admitted p) :
    (∀ value ∈ values,
      (runProgram activated steps).Denotes (hashStringLiteral value) (utf8Bytes value)) ∧
    (∀ path, path ≠ [] → ∀ bytes, (runProgram activated steps).HoldsText path bytes →
      (runProgram activated steps).Denotes (hashGlobalPath path) bytes) ∧
    ∀ value ∈ values, ∀ value' ∈ values,
      hashStringLiteral value = hashStringLiteral value' → value = value' := by
  refine ⟨?_, fun path hpath bytes => Registry.denotes_buffer hpath,
    fun value hvalue value' hvalue' => eq_of_hashStringLiteral_eq hcollected hvalue hvalue'⟩
  intro value hvalue
  have hlookup : p.stringLiterals.lookup (hashStringLiteral value) = some (utf8Bytes value) := by
    rw [hliterals, lookup_literalTable, (lookup_foldlM_collectLiteral hcollected).1 value hvalue]
    rfl
  have hentry := mem_of_lookup hlookup
  have hview : ∀ k ∈ literalKeys (hashStringLiteral value),
      (runProgram activated steps).slotView k = activated.slotView k :=
    fun k hk => slotView_runProgram hapart hentry hk hsteps activated
  apply Registry.denotes_literal
  · -- the literals are part of what a read of the handle's own lane depends on
    have hlane := congrArg SlotView.literal (hview (.lane .int (hashStringLiteral value, 0))
      (by simp [literalKeys]))
    exact hlane.trans ((literals_activated hactivated _).trans hlookup)
  · intro k hk
    rw [Registry.Unoccupied, hview k hk]
    exact unoccupied_activated hactivated (hapart _ hentry k hk) (hclean _ hentry k hk)

/-- An array `score` of two integers, and one string literal. -/
def scoreMetadata (literal : String) : ProgramMetadata where
  globalPathTypes :=
    [(["score"], .arrayFixed (.scalar .i32) 2), (["score", "length"], .scalar .i32),
      (["score", "max_length"], .scalar .i32)]
  collectionInfos := [(["score"], ⟨2, some (.scalar .i32), [], "i32", true⟩)]
  typedCollectionDescriptors := []
  structNames := []
  initialization := ⟨[], []⟩
  stringLiterals := literalTable [(hashStringLiteral literal, literal)]

def scoreAndTitle : Program where
  toProgramMetadata := scoreMetadata "title"
  wellFormed := by constructor <;> decide +kernel

theorem title_is_unambiguous :
    collectProgramLiterals ["title"] = .ok [(hashStringLiteral "title", "title")] ∧
      scoreAndTitle.LiteralsApart ∧
      ∃ activated, scoreAndTitle.activateStagedRuntime .empty = .ok () activated ∧
        (runProgram activated [.store (.element .int (hashGlobalPath ["score"], 0) 1) 65]).Denotes
          (hashStringLiteral "title") (utf8Bytes "title") := by
  have hcollected : collectProgramLiterals ["title"] =
    .ok [(hashStringLiteral "title", "title")] := rfl
  have hapart : scoreAndTitle.LiteralsApart := by decide +kernel
  have haccepted : scoreAndTitle.Activates := ⟨.empty, by decide +kernel⟩
  obtain ⟨bound, -, hrun⟩ := haccepted.exists_bound
  refine ⟨hcollected, hapart, _, hrun .empty, ?_⟩
  refine (text_handles_are_unambiguous hcollected rfl hapart (hrun .empty) ?_ [_] ?_).1 "title" ?_
  · intro entry _ k _
    cases k <;> exact ⟨rfl, rfl, rfl⟩
  · have happart : ∀ entry ∈ scoreAndTitle.stringLiterals,
        SlotKey.lane .int (hashGlobalPath ["score"], 0) ∉ literalKeys entry.1 := by
      decide +kernel
    simpa [RuntimeStep.Admitted, Address.slotKey] using happart
  · simp

/-- The literal `"score"` has the handle of the array `score`. -/
def scoreAndScore : Program where
  toProgramMetadata := scoreMetadata "score"
  wellFormed := by constructor <;> decide +kernel

def scoreRegistry : Option Registry :=
  match scoreAndScore.activateStagedRuntime .empty with
  | .ok _ reg => some reg
  | .error _ _ => none

/-- The program is accepted, and its literal is lost: it reads as the empty text
and, byte by byte, as the elements of the array. -/
theorem literal_named_like_an_array_is_lost :
    collectProgramLiterals ["score"] = .ok [(hashStringLiteral "score", "score")] ∧
      ∃ activated, scoreAndScore.activateStagedRuntime .empty = .ok () activated ∧
        utf8Bytes "score" = [115, 99, 111, 114, 101] ∧
        activated.textArgBytes (hashStringLiteral "score") = some [] ∧
        activated.elementLoad (hashStringLiteral "score") 0 = 0 ∧
        activated.memcpySource (hashStringLiteral "score") 0 = 0 := by
  refine ⟨rfl, ?_⟩
  have hrun : (scoreRegistry.any fun reg =>
      reg.textArgBytes (hashStringLiteral "score") = some [] ∧
        reg.elementLoad (hashStringLiteral "score") 0 = 0 ∧
        reg.memcpySource (hashStringLiteral "score") 0 = 0) = true := by
    decide +kernel
  cases h : scoreAndScore.activateStagedRuntime .empty with
  | error e reg => simp [scoreRegistry, h] at hrun
  | ok u reg =>
    rw [scoreRegistry, h] at hrun
    exact ⟨reg, rfl, by decide +kernel, of_decide_eq_true hrun⟩

end Program

end Stasis.Runtime
