import Mathlib.Data.List.Basic
import Mathlib.Tactic.Ring

namespace Stasis.Live

structure FramePacer where
  interval : ℕ
  nextDeadline : ℕ

/-- One call of the pacer: when it was made, and the delay it gave. -/
structure PacedFrame where
  called : ℕ
  delay : ℕ

def PacedFrame.returned (frame : PacedFrame) : ℕ := frame.called + frame.delay

namespace FramePacer

def fromMicros (intervalMicros now : ℕ) : Option FramePacer :=
  if intervalMicros = 0 then none
  else some ⟨intervalMicros * 1000, now + intervalMicros * 1000⟩

def delayAt (pacer : FramePacer) (now : ℕ) : ℕ × FramePacer :=
  let deadline := pacer.nextDeadline
  if now < deadline then
    (deadline - now, { pacer with nextDeadline := deadline + pacer.interval })
  else if now - deadline ≥ pacer.interval then
    (0, { pacer with nextDeadline := now + pacer.interval })
  else (0, { pacer with nextDeadline := deadline + pacer.interval })

def run (pacer : FramePacer) : List ℕ → List PacedFrame
  | [] => []
  | now :: times => ⟨now, (pacer.delayAt now).1⟩ :: run (pacer.delayAt now).2 times

end FramePacer

def InTurn : ℕ → List PacedFrame → Prop
  | _, [] => True
  | returned, frame :: frames => returned ≤ frame.called ∧ InTurn frame.returned frames

namespace FramePacer

/-- The deadline lies ahead of the last return, by one interval at most. -/
structure Ahead (pacer : FramePacer) (returned : ℕ) : Prop where
  lt : returned < pacer.nextDeadline
  le : pacer.nextDeadline ≤ returned + pacer.interval

variable {pacer : FramePacer} {returned now : ℕ}

lemma Ahead.delayAt (h : pacer.Ahead returned) (hnow : returned ≤ now) :
    let called := pacer.delayAt now
    called.1 ≤ pacer.interval ∧ pacer.nextDeadline ≤ now + called.1 ∧
      called.2.interval = pacer.interval ∧ called.2.Ahead (now + called.1) ∧
      pacer.nextDeadline + pacer.interval ≤ called.2.nextDeadline := by
  obtain ⟨hlt, hle⟩ := h
  dsimp only [FramePacer.delayAt]
  split_ifs
  all_goals
    refine ⟨?_, ?_, rfl, ⟨?_, ?_⟩, ?_⟩ <;> first | omega | (dsimp only; omega)

section

variable {times : List ℕ} (h : pacer.Ahead returned) (hturn : InTurn returned (pacer.run times))
include h hturn

lemma Ahead.delay_le (hframe : frame ∈ pacer.run times) : frame.delay ≤ pacer.interval := by
  induction times generalizing pacer returned with
  | nil => cases hframe
  | cons now times ih =>
    obtain ⟨hdelay, -, hinterval, hahead, -⟩ := h.delayAt hturn.1
    rcases List.mem_cons.mp hframe with rfl | hframe
    · exact hdelay
    · rw [← hinterval]
      exact ih hahead hturn.2 hframe

lemma Ahead.le_returned (hframe : (pacer.run times)[j]? = some frame) :
    pacer.nextDeadline + j * pacer.interval ≤ frame.returned := by
  induction times generalizing pacer returned j with
  | nil => cases hframe
  | cons now times ih =>
    obtain ⟨-, hlate, hinterval, hahead, hnext⟩ := h.delayAt hturn.1
    cases j with
    | zero =>
      cases hframe
      rw [Nat.zero_mul]
      exact hlate
    | succ j =>
      have hrest := ih hahead hturn.2 hframe
      rw [hinterval] at hrest
      calc pacer.nextDeadline + (j + 1) * pacer.interval
          = pacer.nextDeadline + pacer.interval + j * pacer.interval := by ring
        _ ≤ frame.returned := (Nat.add_le_add_right hnext _).trans hrest

lemma Ahead.returned_lt (hij : i < j) (hfirst : (pacer.run times)[i]? = some first)
    (hlater : (pacer.run times)[j]? = some later) :
    first.returned + (j - i - 1) * pacer.interval < later.returned := by
  induction times generalizing pacer returned i j with
  | nil => cases hfirst
  | cons now times ih =>
    obtain ⟨-, -, hinterval, hahead, -⟩ := h.delayAt hturn.1
    obtain ⟨j, rfl⟩ := Nat.exists_eq_add_of_lt (Nat.zero_lt_of_lt hij)
    rw [Nat.zero_add] at hij hlater ⊢
    rw [← hinterval]
    cases i with
    | zero =>
      cases hfirst
      exact (Nat.add_lt_add_right hahead.lt _).trans_le (hahead.le_returned hturn.2 hlater)
    | succ i =>
      rw [Nat.add_sub_add_right]
      exact ih hahead hturn.2 (Nat.lt_of_succ_lt_succ hij) hfirst hlater

end

/-- No frame waits longer than an interval, and late frames are not made up for: between
two returns lie more intervals than there are frames in between. -/
theorem frame_pacing {intervalMicros created : ℕ}
    (hpacer : fromMicros intervalMicros created = some pacer) (times : List ℕ)
    (hturn : InTurn created (pacer.run times)) :
    (∀ frame ∈ pacer.run times, frame.delay ≤ pacer.interval) ∧
      ∀ i j first later, i < j → (pacer.run times)[i]? = some first →
        (pacer.run times)[j]? = some later →
        first.returned + (j - i - 1) * pacer.interval < later.returned := by
  have hahead : pacer.Ahead created := by
    unfold fromMicros at hpacer
    split_ifs at hpacer with hzero
    cases hpacer
    exact ⟨by dsimp only; omega, le_rfl⟩
  exact ⟨fun _ => hahead.delay_le hturn, fun _ _ _ _ hij => hahead.returned_lt hturn hij⟩

theorem frame_pacing_late : fromMicros 16 0 = some ⟨16000, 16000⟩ ∧
    InTurn 0 (run ⟨16000, 16000⟩ [4000, 90000, 91000]) ∧
    (∀ frame ∈ run ⟨16000, 16000⟩ [4000, 90000, 91000], frame.delay ≤ 16000) ∧
    run ⟨16000, 16000⟩ [4000, 90000, 91000] = [⟨4000, 12000⟩, ⟨90000, 0⟩, ⟨91000, 15000⟩] := by
  have hturn : InTurn 0 (run ⟨16000, 16000⟩ [4000, 90000, 91000]) :=
    ⟨by decide, by decide, by decide, trivial⟩
  have hpacer : fromMicros 16 0 = some ⟨16000, 16000⟩ := rfl
  exact ⟨hpacer, hturn, (frame_pacing hpacer _ hturn).1, rfl⟩

/-- **Lateness does not add up.** Unless a frame is late by an interval, every frame returns
at its place in the grid of deadlines, or at once if that is past. -/
theorem frames_keep_grid (pacer : FramePacer) (times : List ℕ) :
    (∃ i now, times[i]? = some now ∧ pacer.nextDeadline + (i + 1) * pacer.interval ≤ now) ∨
      (pacer.run times).map PacedFrame.returned =
        times.mapIdx fun j now => max now (pacer.nextDeadline + j * pacer.interval) := by
  induction times generalizing pacer with
  | nil => exact .inr rfl
  | cons now times ih =>
    by_cases hlate : pacer.nextDeadline + pacer.interval ≤ now
    · exact .inl ⟨0, now, rfl, by simpa using hlate⟩
    have hcall : pacer.delayAt now = (pacer.nextDeadline - now,
        { pacer with nextDeadline := pacer.nextDeadline + pacer.interval }) := by
      dsimp only [delayAt]
      split_ifs <;> simp <;> omega
    have hgrid : ∀ i, pacer.nextDeadline + pacer.interval + i * pacer.interval =
        pacer.nextDeadline + (i + 1) * pacer.interval := fun i => by ring
    rcases ih (pacer.delayAt now).2 with ⟨i, later, hlater, hle⟩ | hrest
    · rw [hcall, hgrid] at hle
      exact .inl ⟨i + 1, later, hlater, hle⟩
    · rw [run, List.map_cons, hrest, hcall, List.mapIdx_cons]
      refine .inr (congrArg₂ _ ?_ (by simp only [hgrid]))
      dsimp only [PacedFrame.returned]
      omega

end FramePacer
end Stasis.Live
