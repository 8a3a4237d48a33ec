import Mathlib.Algebra.Order.Ring.Int
import Mathlib.Data.List.Basic

namespace Stasis.LanguageService

open List

abbrev Text := List UInt8

structure ByteRange where
  start : ℕ
  stop : ℕ

/-- `str::is_char_boundary`: no character goes on at this byte. -/
def isCharBoundary (text : Text) (index : ℕ) : Bool :=
  index == 0 || index == text.length || text[index]?.any fun byte => byte < 0x80 || 0xC0 ≤ byte

def slice (text : Text) (range : ByteRange) : Text :=
  (text.drop range.start).take (range.stop - range.start)

/-- `str::get`; indexing with the range panics where this is `none`. -/
def get (text : Text) (range : ByteRange) : Option Text :=
  if range.start ≤ range.stop ∧ isCharBoundary text range.start ∧ isCharBoundary text range.stop
  then some (slice text range) else none

def countEqual (pairs : List (UInt8 × UInt8)) : ℕ :=
  (pairs.takeWhile fun pair => pair.1 == pair.2).length

/-- `while !ok(n) { n = n.saturating_sub(1) }`, which does not end where `ok(0)` fails. -/
def lowerTo (ok : ℕ → Bool) : ℕ → Option ℕ
  | 0 => if ok 0 then some 0 else none
  | n + 1 => if ok (n + 1) then some (n + 1) else lowerTo ok n

/-- The lengths of the common ends, as both functions compute them. -/
def commonEnds (a b : Text) : Option (ℕ × ℕ) := do
  let front ← lowerTo (fun n => isCharBoundary a n && isCharBoundary b n) (countEqual (a.zip b))
  let maximumSuffix := min a.length b.length - front
  let back ← lowerTo
    (fun n => isCharBoundary a (a.length - n) && isCharBoundary b (b.length - n))
    (countEqual ((a.reverse.zip b.reverse).take maximumSuffix))
  return (front, back)

structure LanguageTextEdit where
  range : ByteRange
  newText : Text

/-- The outer `none` is a panic or a loop that does not end. -/
def minimalTextEdit (current formatted : Text) : Option (Option LanguageTextEdit) :=
  if current = formatted then some none
  else do
    let (front, back) ← commonEnds current formatted
    let newText ← get formatted ⟨front, formatted.length - back⟩
    return some ⟨⟨front, current.length - back⟩, newText⟩

structure UnchangedRegions where
  prefixLength : ℕ
  indexedSuffixStart : ℕ
  shift : ℤ

def UnchangedRegions.new (indexed current : Text) : Option UnchangedRegions := do
  let (front, back) ← commonEnds indexed current
  return ⟨front, indexed.length - back, current.length - indexed.length⟩

def checkedAddSigned (n : ℕ) (shift : ℤ) : Option ℕ :=
  if 0 ≤ n + shift ∧ n + shift < 2 ^ 64 then some (n + shift).toNat else none

/-- Where a range of the old text would lie in the new one. -/
def UnchangedRegions.currentRange (regions : UnchangedRegions) (range : ByteRange) :
    Option ByteRange :=
  if range.stop ≤ regions.prefixLength then some range
  else if range.start ≥ regions.indexedSuffixStart then do
    let start ← checkedAddSigned range.start regions.shift
    let stop ← checkedAddSigned range.stop regions.shift
    some ⟨start, stop⟩
  else none

def UnchangedRegions.remap (regions : UnchangedRegions) (indexed current : Text)
    (indexedRange : ByteRange) : Option ByteRange := do
  let currentRange ← regions.currentRange indexedRange
  if get indexed indexedRange = get current currentRange then some currentRange else none

section

variable {a b : Text} {k front back : ℕ}

lemma take_eq_of_le_countEqual (h : k ≤ countEqual ((a.zip b).take n)) :
    k ≤ n ∧ k ≤ a.length ∧ k ≤ b.length ∧ a.take k = b.take k := by
  induction a generalizing b k n with
  | nil => simp_all [countEqual]
  | cons x a ih =>
    cases k with
    | zero => simp
    | succ k =>
      cases b with
      | nil => simp [countEqual] at h
      | cons y b =>
        cases n with
        | zero => simp [countEqual] at h
        | succ n =>
          by_cases hxy : x = y
          · have hle : k ≤ countEqual ((a.zip b).take n) := by
              simpa [countEqual, hxy] using h
            simpa [hxy] using ih hle
          · simp [countEqual, hxy] at h

lemma lowerTo_spec (hzero : p 0 = true) (n : ℕ) : ∃ k ≤ n, lowerTo p n = some k ∧ p k = true := by
  induction n with
  | zero => exact ⟨0, le_rfl, by simp [lowerTo, hzero], hzero⟩
  | succ n ih =>
    by_cases hok : p (n + 1) = true
    · exact ⟨n + 1, le_rfl, by simp [lowerTo, hok], hok⟩
    · obtain ⟨k, hk, hrun, hokk⟩ := ih
      exact ⟨k, by omega, by simp [lowerTo, hok, hrun], hokk⟩

/-- The ends are equal, end at characters of both texts and do not overlap in either. -/
structure CommonEnds (a b : Text) (front back : ℕ) : Prop where
  room : front + back ≤ a.length ∧ front + back ≤ b.length
  front_eq : a.take front = b.take front
  back_eq : a.drop (a.length - back) = b.drop (b.length - back)
  front_boundary : isCharBoundary a front ∧ isCharBoundary b front
  back_boundary : isCharBoundary a (a.length - back) ∧ isCharBoundary b (b.length - back)

lemma commonEnds_spec (a b : Text) :
    ∃ front back, commonEnds a b = some (front, back) ∧ CommonEnds a b front back := by
  obtain ⟨front, hfront, hlower, hboundary⟩ := lowerTo_spec
    (p := fun n => isCharBoundary a n && isCharBoundary b n) (by simp [isCharBoundary])
    (countEqual (a.zip b))
  obtain ⟨back, hback, hlower', hboundary'⟩ := lowerTo_spec
    (p := fun n => isCharBoundary a (a.length - n) && isCharBoundary b (b.length - n))
    (by simp [isCharBoundary])
    (countEqual ((a.reverse.zip b.reverse).take (min a.length b.length - front)))
  rw [← take_length (l := a.zip b)] at hfront
  obtain ⟨-, hla, hlb, hsame⟩ := take_eq_of_le_countEqual hfront
  obtain ⟨hroom, -, -, hsame'⟩ := take_eq_of_le_countEqual hback
  rw [take_reverse, take_reverse] at hsame'
  refine ⟨front, back, ?_, by omega, hsame, reverse_injective hsame', ?_, ?_⟩
  · simp [commonEnds, hlower, hlower']
  · simpa using hboundary
  · simpa using hboundary'

variable (h : CommonEnds a b front back)
include h

lemma CommonEnds.replace :
    a.take front ++ slice b ⟨front, b.length - back⟩ ++ a.drop (a.length - back) = b := by
  have hend : front + (b.length - back - front) = b.length - back := by
    have := h.room.2
    omega
  rw [h.front_eq, h.back_eq, slice, ← take_add, hend, take_append_drop]

lemma CommonEnds.minimalTextEdit (hends : commonEnds a b = some (front, back)) (hne : a ≠ b) :
    minimalTextEdit a b =
      some (some ⟨⟨front, a.length - back⟩, slice b ⟨front, b.length - back⟩⟩) := by
  have hroom := h.room
  have hget : get b ⟨front, b.length - back⟩ = some (slice b ⟨front, b.length - back⟩) :=
    if_pos ⟨by dsimp only; omega, h.front_boundary.2, h.back_boundary.2⟩
  rw [LanguageService.minimalTextEdit, if_neg hne, hends]
  exact congrArg (Option.bind · _) hget

lemma CommonEnds.slice_front {range : ByteRange} (hstop : range.stop ≤ front) :
    slice a range = slice b range := by
  have hcut : ∀ text : Text, slice text range = slice (text.take front) range := by
    intro text
    rw [slice, slice, drop_take, take_take, min_eq_left (by omega)]
  rw [hcut a, hcut b, h.front_eq]

lemma CommonEnds.slice_back {range range' : ByteRange} (hstart : a.length - back ≤ range.start)
    (hstart' : range'.start + a.length = range.start + b.length)
    (hstop' : range'.stop + a.length = range.stop + b.length) :
    slice a range = slice b range' := by
  have hroom := h.room
  have hskip : a.length - back + (range.start - (a.length - back)) = range.start := by omega
  have hskip' : b.length - back + (range.start - (a.length - back)) = range'.start := by omega
  have hlength : range'.stop - range'.start = range.stop - range.start := by omega
  rw [slice, slice, hlength, ← hskip, ← hskip', ← drop_drop, ← drop_drop, h.back_eq]

end

lemma checkedAddSigned_eq_some (h : checkedAddSigned n shift = some m) : (m : ℤ) = n + shift := by
  unfold checkedAddSigned at h
  split_ifs at h
  cases h
  omega

def LanguageTextEdit.apply (edit : LanguageTextEdit) (text : Text) : Text :=
  text.take edit.range.start ++ edit.newText ++ text.drop edit.range.stop

/-- The edit of any two texts is inside the first, on boundaries of its characters, and
turns it into the second; a remapped range holds the bytes the old one held. -/
theorem text_edits_exact (current formatted : Text) :
    (∃ edit?, minimalTextEdit current formatted = some edit? ∧
      (edit? = none → current = formatted) ∧ ∀ edit, edit? = some edit →
        edit.range.start ≤ edit.range.stop ∧ edit.range.stop ≤ current.length ∧
        isCharBoundary current edit.range.start ∧ isCharBoundary current edit.range.stop ∧
        edit.apply current = formatted) ∧
    ∃ regions, UnchangedRegions.new current formatted = some regions ∧
      ∀ range range', range.start ≤ range.stop → range.stop ≤ current.length →
        regions.remap current formatted range = some range' →
          range'.start ≤ range'.stop ∧ range'.stop ≤ formatted.length ∧
          slice current range = slice formatted range' := by
  obtain ⟨front, back, hends, h⟩ := commonEnds_spec current formatted
  have hroom := h.room
  refine ⟨?_, _, by rw [UnchangedRegions.new, hends]; rfl, ?_⟩
  · by_cases hsame : current = formatted
    · exact ⟨none, if_pos hsame, fun _ => hsame, by simp⟩
    refine ⟨_, h.minimalTextEdit hends hsame, by simp, ?_⟩
    rintro _ ⟨⟩
    exact ⟨by dsimp only; omega, Nat.sub_le .., h.front_boundary.1, h.back_boundary.1, h.replace⟩
  · intro range range' horder hinside hremap
    obtain ⟨currentRange, hrange, hsome⟩ := Option.bind_eq_some_iff.mp hremap
    obtain rfl : currentRange = range' := by
      split_ifs at hsome
      exact Option.some.inj hsome
    unfold UnchangedRegions.currentRange at hrange
    split_ifs at hrange with hfront hback
    · cases hrange
      dsimp only at hfront
      exact ⟨horder, by omega, h.slice_front hfront⟩
    · obtain ⟨start, hstart, hrange⟩ := Option.bind_eq_some_iff.mp hrange
      obtain ⟨stop, hstop, ⟨⟩⟩ := Option.bind_eq_some_iff.mp hrange
      have hstart := checkedAddSigned_eq_some hstart
      have hstop := checkedAddSigned_eq_some hstop
      dsimp only at *
      exact ⟨by omega, by omega, h.slice_back hback (by dsimp only; omega) (by dsimp only; omega)⟩

end Stasis.LanguageService
