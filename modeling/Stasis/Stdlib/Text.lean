import Mathlib.Data.List.Infix

namespace Stasis.Stdlib

open List

def textOf (bytes : List UInt8) : List UInt8 := bytes.takeWhile (· ≠ 0)

@[simp] lemma textOf_nil : textOf [] = [] := rfl

@[simp] lemma textOf_zero (bytes : List UInt8) : textOf (0 :: bytes) = [] := rfl

@[simp] lemma textOf_cons (hb : b ≠ 0) (bytes : List UInt8) :
    textOf (b :: bytes) = b :: textOf bytes :=
  takeWhile_cons_of_pos (by simpa using hb)

structure Header where
  length : ℤ
  maxLength : ℤ
deriving DecidableEq, Repr

namespace Header

variable (h : Header)

def len : ℤ :=
  if h.length < 0 then 0
  else if h.maxLength > 0 ∧ h.length > h.maxLength then h.maxLength
  else h.length

def capacity : ℤ := if h.maxLength < 0 then 0 else h.maxLength

def scanLimit : ℤ :=
  if h.capacity > 0 then h.capacity
  else if h.len < 0 then 0
  else h.len

end Header

/-- A buffer or a view; its storage is what its headers allow to scan. -/
structure Ascii extends Header where
  bytes : List UInt8
  storage : toHeader.scanLimit = bytes.length

namespace Ascii

def buffer (bytes : List UInt8) (length : ℕ) (h : length ≤ bytes.length) : Ascii where
  bytes
  length
  maxLength := bytes.length
  storage := by
    simp only [Header.scanLimit, Header.capacity, Header.len]
    split_ifs <;> omega

def text (s : Ascii) : List UInt8 := textOf s.bytes

abbrev Terminated (s : Ascii) : Prop := 0 ∈ s.bytes

abbrev Counted (s : Ascii) : Prop := s.len = s.text.length

end Ascii

def cmpFrom (a b : Ascii) : ℕ → ℕ → Option ℤ
  | 0, _ =>
    if a.scanLimit = b.scanLimit then some 0
    else if a.scanLimit < b.scanLimit then some (-1)
    else some 1
  | rounds + 1, i => do
    let av ← a.bytes[i]?
    let bv ← b.bytes[i]?
    if av < bv then some (-1)
    else if av > bv then some 1
    else if av = 0 then some 0
    else cmpFrom a b rounds (i + 1)

def cmp (a b : Ascii) : Option ℤ :=
  let limit := if b.scanLimit < a.scanLimit then b.scanLimit else a.scanLimit
  cmpFrom a b limit.toNat 0

def eq (a b : Ascii) : Option Bool := do return (← cmp a b) == 0

def order (s t : List UInt8) : ℤ := if s < t then -1 else if t < s then 1 else 0

/-- What `cmp` compares: the texts, and at their end the storage left over. -/
def orderBytes : List UInt8 → List UInt8 → ℤ
  | [], [] => 0
  | [], _ :: _ => -1
  | _ :: _, [] => 1
  | x :: xs, y :: ys =>
    if x < y then -1 else if x > y then 1 else if x = 0 then 0 else orderBytes xs ys

lemma cmpFrom_eq (a b : Ascii) (rounds i : ℕ) (h : rounds + i = min a.bytes.length b.bytes.length) :
    cmpFrom a b rounds i = some (orderBytes (a.bytes.drop i) (b.bytes.drop i)) := by
  induction rounds generalizing i with
  | zero =>
    rw [cmpFrom, a.storage, b.storage]
    rcases lt_trichotomy a.bytes.length b.bytes.length with hlt | heq | hlt
    · have ha : a.bytes.drop i = [] := drop_of_length_le (by omega)
      have hb : i < b.bytes.length := by omega
      rw [if_neg (by omega), if_pos (by omega), ha, drop_eq_getElem_cons hb, orderBytes]
    · have ha : a.bytes.drop i = [] := drop_of_length_le (by omega)
      have hb : b.bytes.drop i = [] := drop_of_length_le (by omega)
      rw [if_pos (by omega), ha, hb, orderBytes]
    · have ha : i < a.bytes.length := by omega
      have hb : b.bytes.drop i = [] := drop_of_length_le (by omega)
      rw [if_neg (by omega), if_neg (by omega), hb, drop_eq_getElem_cons ha, orderBytes]
  | succ rounds ih =>
    have ha : i < a.bytes.length := by omega
    have hb : i < b.bytes.length := by omega
    rw [drop_eq_getElem_cons ha, drop_eq_getElem_cons hb, cmpFrom, orderBytes,
      getElem?_eq_getElem ha, getElem?_eq_getElem hb, ih (i + 1) (by omega)]
    simp only [Option.bind_eq_bind, Option.bind_some]
    split_ifs <;> rfl

lemma cmp_eq_orderBytes (a b : Ascii) : cmp a b = some (orderBytes a.bytes b.bytes) := by
  refine cmpFrom_eq a b _ 0 ?_
  rw [a.storage, b.storage]
  split_ifs <;> omega

lemma order_cons (x : UInt8) (s t : List UInt8) : order (x :: s) (x :: t) = order s t := by
  simp [order]

lemma textOf_lt_textOf (h : x < y) (xs ys : List UInt8) : textOf (x :: xs) < textOf (y :: ys) := by
  have hy : y ≠ 0 := by
    rintro rfl
    exact UInt8.not_lt_zero h
  by_cases hx : x = 0
  · simp [hx, hy]
  · simp [hx, hy, cons_lt_cons_iff, h]

lemma orderBytes_eq_order (xs ys : List UInt8) (h : textOf xs = textOf ys → (0 ∈ xs ↔ 0 ∈ ys)) :
    orderBytes xs ys = order (textOf xs) (textOf ys) := by
  induction xs generalizing ys with
  | nil =>
    cases ys with
    | nil => simp [orderBytes, order]
    | cons y ys =>
      by_cases hy : y = 0
      · simp [hy] at h
      · simp [orderBytes, order, hy]
  | cons x xs ih =>
    rcases ys with _ | ⟨y, ys⟩
    · by_cases hx : x = 0
      · simp [hx] at h
      · simp [orderBytes, order, hx]
    rw [orderBytes]
    by_cases hxy : x < y
    · rw [if_pos hxy, order, if_pos (textOf_lt_textOf hxy xs ys)]
    by_cases hyx : y < x
    · have hlt := textOf_lt_textOf hyx ys xs
      rw [if_neg hxy, if_pos hyx, order, if_neg (List.lt_asymm hlt), if_pos hlt]
    obtain rfl : x = y := UInt8.le_antisymm (UInt8.not_lt.mp hyx) (UInt8.not_lt.mp hxy)
    rw [if_neg hxy, if_neg hyx]
    by_cases hx : x = 0
    · simp [hx, order]
    · rw [if_neg hx, textOf_cons hx, textOf_cons hx, order_cons, ih]
      simpa [hx, eq_comm] using h

abbrev Comparable (a b : Ascii) : Prop := a.text = b.text → (a.Terminated ↔ b.Terminated)

lemma cmp_eq_order (h : Comparable a b) : cmp a b = some (order a.text b.text) := by
  rw [cmp_eq_orderBytes, orderBytes_eq_order _ _ h]
  rfl

lemma order_swap (s t : List UInt8) : order t s = -order s t := by
  unfold order
  by_cases hst : s < t
  · simp [hst, List.lt_asymm hst]
  · by_cases hts : t < s <;> simp [hst, hts]

lemma order_eq_zero : order s t = 0 ↔ s = t := by
  unfold order
  constructor
  · intro h
    by_cases hst : s < t
    · simp [hst] at h
    · by_cases hts : t < s
      · simp [hst, hts] at h
      · exact List.le_antisymm hts hst
  · rintro rfl
    simp [List.lt_irrefl]

lemma order_le : order s t ≤ 0 ↔ s ≤ t := by
  unfold order
  rw [← List.not_lt]
  split_ifs with hst hts
  · simp [List.lt_asymm hst]
  · simp [hts]
  · simp [hts]

lemma orderBytes_eq_zero (xs ys : List UInt8) (h : orderBytes xs ys = 0) :
    0 ∈ xs ↔ 0 ∈ ys := by
  induction xs generalizing ys with
  | nil =>
    rcases ys with _ | ⟨y, ys⟩
    · rfl
    · simp [orderBytes] at h
  | cons x xs ih =>
    rcases ys with _ | ⟨y, ys⟩
    · simp [orderBytes] at h
    rw [orderBytes] at h
    by_cases hxy : x < y
    · simp [hxy] at h
    by_cases hyx : y < x
    · simp [hxy, hyx] at h
    obtain rfl : x = y := UInt8.le_antisymm (UInt8.not_lt.mp hyx) (UInt8.not_lt.mp hxy)
    rw [if_neg hxy, if_neg hyx] at h
    by_cases hx : x = 0
    · simp [hx]
    rw [if_neg hx] at h
    rw [mem_cons, mem_cons, ih ys h]

lemma comparable_of_cmp (h : cmp a b = some (order a.text b.text)) : Comparable a b := by
  intro htext
  rw [cmp_eq_orderBytes, Option.some_inj, order_eq_zero.mpr htext] at h
  exact orderBytes_eq_zero _ _ h

/-- Comparison in both directions is the order on the texts, and equality is theirs. -/
structure OrdersTexts (a b : Ascii) : Prop where
  sign : cmp a b = some (order a.text b.text)
  swapped : cmp b a = some (-order a.text b.text)
  eq_iff : eq a b = some true ↔ a.text = b.text

lemma ordersTexts_iff : OrdersTexts a b ↔ Comparable a b := by
  refine ⟨fun h => comparable_of_cmp h.sign, fun h => ⟨cmp_eq_order h, ?_, ?_⟩⟩
  · rw [cmp_eq_order fun h' => (h h'.symm).symm, order_swap]
  · simp [eq, cmp_eq_order h, order_eq_zero]

/-- Comparison of three texts is their order, whatever the capacities and the bytes after
the texts, exactly if those that are equal agree on being terminated. -/
theorem cmp_orders_texts (a b c : Ascii) :
    (OrdersTexts a b ∧ OrdersTexts b c ∧ OrdersTexts a c ∧
      ∀ r r', cmp a b = some r → cmp b c = some r' → r ≤ 0 → r' ≤ 0 →
        ∃ r'' ≤ 0, cmp a c = some r'') ↔
      Comparable a b ∧ Comparable b c ∧ Comparable a c := by
  simp only [ordersTexts_iff]
  refine ⟨fun ⟨hab, hbc, hac, _⟩ => ⟨hab, hbc, hac⟩, fun ⟨hab, hbc, hac⟩ => ⟨hab, hbc, hac, ?_⟩⟩
  rw [cmp_eq_order hab, cmp_eq_order hbc, cmp_eq_order hac]
  rintro _ _ ⟨⟩ ⟨⟩ hr hr'
  exact ⟨_, order_le.mpr (List.le_trans (order_le.mp hr) (order_le.mp hr')), rfl⟩

def full : Ascii := .buffer [97, 98] 2 (by decide)

def roomy : Ascii := .buffer [97, 98, 0, 7] 2 (by decide)

theorem cmp_orders_roomy_texts :
    cmp roomy (.buffer [97, 0] 1 (by decide)) = some (order [97, 98] [97]) :=
  ((cmp_orders_texts roomy (.buffer [97, 0] 1 (by decide)) roomy).mpr (by decide)).1.sign

theorem cmp_separates_equal_texts :
    full.text = roomy.text ∧ cmp full roomy = some (-1) ∧ eq full roomy = some false := by
  decide

def startsWithFrom (s p : Ascii) : ℕ → ℕ → Option Bool
  | 0, _ => some true
  | rounds + 1, i => do
    let b ← p.bytes[i]?
    if b = 0 then some true
    else
      let v ← s.bytes[i]?
      if v = 0 then some false
      else if v ≠ b then some false
      else startsWithFrom s p rounds (i + 1)

def startsWith (s p : Ascii) : Option Bool := startsWithFrom s p p.scanLimit.toNat 0

/-- The inner loop of `find`, which leaves at the first byte that differs, and the loop
of `ends_with`. -/
def matchFrom (s p : Ascii) (start : ℕ) : ℕ → ℕ → Option Bool
  | 0, _ => some true
  | rounds + 1, j => do
    let v ← s.bytes[start + j]?
    let b ← p.bytes[j]?
    if v ≠ b then some false else matchFrom s p start rounds (j + 1)

def endsWith (s suffix : Ascii) : Option Bool :=
  if suffix.len > s.len then some false
  else matchFrom s suffix (s.len - suffix.len).toNat suffix.len.toNat 0

def findFrom (s needle : Ascii) : ℕ → ℕ → Option ℤ
  | 0, _ => some (-1)
  | rounds + 1, i => do
    if ← matchFrom s needle i needle.len.toNat 0 then some i
    else findFrom s needle rounds (i + 1)

def find (s needle : Ascii) : Option ℤ :=
  if needle.len = 0 then some 0
  else if needle.len > s.len then some (-1)
  else findFrom s needle (s.len - needle.len + 1).toNat 0

def contains (s needle : Ascii) : Option Bool := do return decide ((← find s needle) ≥ 0)

/-- The loop answers for the texts from `i` on, unless the text of `s` is a proper
beginning of the pattern that no zero byte ends. -/
lemma startsWithFrom_eq_iff (s p : Ascii) (rounds i : ℕ) (hr : rounds + i = p.bytes.length) :
    startsWithFrom s p rounds i =
        some ((textOf (p.bytes.drop i)).isPrefixOf (textOf (s.bytes.drop i))) ↔
      (textOf (s.bytes.drop i) <+: textOf (p.bytes.drop i) →
        textOf (s.bytes.drop i) = textOf (p.bytes.drop i) ∨ 0 ∈ s.bytes.drop i) := by
  induction rounds generalizing i with
  | zero =>
    rw [startsWithFrom, drop_of_length_le (l := p.bytes) (by omega)]
    simp +contextual
  | succ rounds ih =>
    have hp : i < p.bytes.length := by omega
    rw [startsWithFrom, getElem?_eq_getElem hp, drop_eq_getElem_cons hp]
    by_cases hb : p.bytes[i] = 0
    · simp +contextual [hb]
    · rw [textOf_cons hb]
      rcases Nat.lt_or_ge i s.bytes.length with hs | hs
      · rw [drop_eq_getElem_cons hs, getElem?_eq_getElem hs]
        by_cases hv : s.bytes[i] = 0
        · simp [hb, hv]
        · rw [textOf_cons hv, mem_cons, isPrefixOf_cons_cons]
          by_cases heq : p.bytes[i] = s.bytes[i]
          · simpa [heq, hv, Ne.symm hv] using ih (i + 1) (by omega)
          · simp [hb, hv, heq, Ne.symm heq]
      · -- the text of `s` has ended in front of this byte of the pattern
        simp [drop_of_length_le hs, getElem?_eq_none hs, hb]

lemma startsWith_eq_iff (s p : Ascii) : startsWith s p = some (p.text.isPrefixOf s.text) ↔
    (s.text <+: p.text → s.text = p.text ∨ s.Terminated) := by
  have hr : p.scanLimit.toNat + 0 = p.bytes.length := by simp [p.storage]
  exact startsWithFrom_eq_iff s p _ 0 hr

lemma matchFrom_eq (s p : Ascii) (start rounds j : ℕ) (hs : start + j + rounds ≤ s.bytes.length)
    (hp : j + rounds ≤ p.bytes.length) :
    matchFrom s p start rounds j =
      some (((p.bytes.drop j).take rounds).isPrefixOf (s.bytes.drop (start + j))) := by
  induction rounds generalizing j with
  | zero => simp [matchFrom]
  | succ rounds ih =>
    have hs' : start + j < s.bytes.length := by omega
    have hp' : j < p.bytes.length := by omega
    rw [matchFrom, getElem?_eq_getElem hs', getElem?_eq_getElem hp',
      drop_eq_getElem_cons hs', drop_eq_getElem_cons hp', take_succ_cons,
      isPrefixOf_cons_cons, ih (j + 1) (by omega) (by omega)]
    by_cases heq : p.bytes[j] = s.bytes[start + j]
    · simp [heq, Nat.add_assoc]
    · simp [heq, Ne.symm heq]

lemma Ascii.text_append (s : Ascii) : s.text ++ s.bytes.dropWhile (· ≠ 0) = s.bytes :=
  takeWhile_append_dropWhile

lemma matchFrom_text (hp : p.Counted) (h : start + p.text.length ≤ s.text.length) :
    matchFrom s p start p.len.toNat 0 = some (p.text.isPrefixOf (s.text.drop start)) := by
  have hslen := congrArg length s.text_append
  have hplen := congrArg length p.text_append
  rw [length_append] at hslen hplen
  rw [hp, Int.toNat_natCast, matchFrom_eq s p start _ 0 (by omega) (by omega), Option.some_inj,
    Bool.eq_iff_iff, isPrefixOf_iff_prefix, isPrefixOf_iff_prefix]
  have hptext : p.bytes.take p.text.length = p.text := by
    nth_rewrite 1 [← p.text_append]
    exact take_left
  have hstext : s.bytes.drop start = s.text.drop start ++ s.bytes.dropWhile (· ≠ 0) := by
    nth_rewrite 1 [← s.text_append]
    exact drop_append_of_le_length (by omega)
  rw [drop_zero, hptext, Nat.add_zero, hstext]
  refine ⟨fun hpre => ?_, fun hpre => hpre.trans (prefix_append _ _)⟩
  exact prefix_of_prefix_length_le hpre (prefix_append _ _) (by simp; omega)

lemma endsWith_eq (hs : s.Counted) (hp : p.Counted) :
    endsWith s p = some (p.text.isSuffixOf s.text) := by
  rw [endsWith, hs, hp]
  rcases Nat.lt_or_ge s.text.length p.text.length with hlt | hle
  · rw [if_pos (by omega), eq_comm, Option.some_inj, Bool.eq_false_iff]
    intro h
    have := (isSuffixOf_iff_suffix.mp h).length_le
    omega
  · rw [if_neg (by omega), ← hp, matchFrom_text hp (by omega), Option.some_inj, Bool.eq_iff_iff,
      isPrefixOf_iff_prefix, isSuffixOf_iff_suffix, suffix_iff_eq_drop]
    have hstart : (s.text.length - p.text.length : ℤ).toNat = s.text.length - p.text.length := by
      omega
    rw [hp, hstart]
    exact ⟨fun h => h.eq_of_length (by simp; omega), fun h => h ▸ prefix_rfl⟩

def FirstAt (needle s : List UInt8) (r : ℤ) : Prop :=
  (r = -1 ∧ ∀ m, ¬ needle <+: s.drop m) ∨
    ∃ n : ℕ, r = n ∧ needle <+: s.drop n ∧ ∀ m < n, ¬ needle <+: s.drop m

lemma findFrom_spec (hp : p.Counted) (hpos : p.text ≠ []) (rounds i : ℕ)
    (hr : rounds + i + p.text.length = s.text.length + 1)
    (hbefore : ∀ m < i, ¬ p.text <+: s.text.drop m) :
    ∃ r, findFrom s p rounds i = some r ∧ FirstAt p.text s.text r := by
  have hlen := length_pos_of_ne_nil hpos
  induction rounds generalizing i with
  | zero =>
    refine ⟨-1, rfl, .inl ⟨rfl, fun m hm => ?_⟩⟩
    have hle := hm.length_le
    rw [length_drop] at hle
    exact hbefore m (by omega) hm
  | succ rounds ih =>
    rw [findFrom, matchFrom_text hp (by omega)]
    by_cases hpre : p.text <+: s.text.drop i
    · exact ⟨i, by simp [ isPrefixOf_iff_prefix.mpr hpre], .inr ⟨i, rfl, hpre, hbefore⟩⟩
    · rw [Bool.eq_false_iff.mpr (mt isPrefixOf_iff_prefix.mp hpre)]
      refine ih (i + 1) (by omega) fun m hm => ?_
      rcases Nat.lt_succ_iff_lt_or_eq.mp hm with hm | rfl
      · exact hbefore m hm
      · exact hpre

lemma find_spec (hs : s.Counted) (hp : p.Counted) :
    ∃ r, find s p = some r ∧ FirstAt p.text s.text r := by
  rw [find, hs, hp]
  by_cases hnil : p.text = []
  · exact ⟨0, by simp [hnil], .inr ⟨0, rfl, by simp [hnil], by simp⟩⟩
  have hlen := length_pos_of_ne_nil hnil
  rw [if_neg (by omega)]
  split_ifs with hlt
  · refine ⟨-1, rfl, .inl ⟨rfl, fun m hm => ?_⟩⟩
    have hle := hm.length_le
    rw [length_drop] at hle
    omega
  · exact findFrom_spec hp hnil _ 0 (by omega) (by simp)

/-- Search among counted texts is correct and in bounds, exactly if `s` is terminated
unless its text is the whole pattern or no beginning of it. -/
theorem search_finds_texts (s p : Ascii) (hs : s.Counted) (hp : p.Counted) :
    (startsWith s p = some (p.text.isPrefixOf s.text) ∧
      endsWith s p = some (p.text.isSuffixOf s.text) ∧
      ∃ r, find s p = some r ∧ FirstAt p.text s.text r ∧
        contains s p = some (decide (r ≥ 0))) ↔
      (s.text <+: p.text → s.text = p.text ∨ s.Terminated) := by
  rw [startsWith_eq_iff]
  refine ⟨And.left, fun hend => ⟨hend, endsWith_eq hs hp, ?_⟩⟩
  obtain ⟨r, hr, hfirst⟩ := find_spec hs hp
  exact ⟨r, hr, hfirst, by simp [contains, hr]⟩

theorem search_finds_roomy_texts : startsWith roomy full = some true :=
  ((search_finds_texts roomy full (by decide) (by decide)).mpr (by decide)).1

/-- A full text is read past its storage by a longer pattern. -/
theorem startsWith_leaves_storage :
    startsWith full (.buffer [97, 98, 99] 3 (by decide)) = none := by
  decide

end Stasis.Stdlib
