import Mathlib.Data.List.Basic
import Mathlib.Data.Nat.Notation

namespace Stasis

variable {σ ι ε : Type*}

/-- Run the inputs one after the other and collect the events. -/
def runLog (step : σ → ι → σ × List ε) (s : σ) : List ι → σ × List ε
  | [] => (s, [])
  | i :: is =>
    let (s, events) := step s i
    let (s, rest) := runLog step s is
    (s, events ++ rest)

lemma runLog_invariant (inv : σ → List ε → Prop) (is : List ι)
    (hstep : ∀ s history, ∀ i ∈ is, inv s history → inv (step s i).1 (history ++ (step s i).2))
    (h : inv s history) :
    inv (runLog step s is).1 (history ++ (runLog step s is).2) := by
  induction is generalizing s history with
  | nil => simpa [runLog] using h
  | cons i is ih =>
    have hhead := hstep s history i List.mem_cons_self h
    have htail := ih (fun s history j hj => hstep s history j (List.mem_cons_of_mem i hj)) hhead
    simpa [runLog, List.append_assoc] using htail

end Stasis
