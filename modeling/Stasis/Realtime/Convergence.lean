import Stasis.Realtime.Tracking

namespace Stasis.Realtime

open SlotTable
open RealtimeSession
open List

inductive Fate
  | untouched
  | pending (t : ScheduledTransition)
  | quarantined
deriving DecidableEq

/-- What an admitted transition does to the fate of its identity; a blocked identity was
applied before or lies below the floor. -/
def Fate.absorb (blocked : Bool) : Fate → ScheduledTransition → Fate
  | untouched, t => if blocked then untouched else pending t
  | pending u, t => if u = t then pending u else quarantined
  | quarantined, _ => quarantined

lemma Fate.absorb_comm (blocked : Bool) (f : Fate) (t u : ScheduledTransition) :
    (f.absorb blocked t).absorb blocked u = (f.absorb blocked u).absorb blocked t := by
  cases f with
  | quarantined => rfl
  | untouched =>
    cases blocked with
    | true => rfl
    | false =>
      by_cases htu : t = u
      · rw [htu]
      · simp [absorb, htu, Ne.symm htu]
  | pending w =>
    -- both orders keep `w` exactly if neither transition differs from it
    simp only [absorb]
    split_ifs with ht hu hu <;> simp_all

namespace RealtimeSession

variable {s l r : RealtimeSession} {t : ScheduledTransition} {i : Identity}

def fate (s : RealtimeSession) (i : Identity) : Fate :=
  if i ∈ s.quarantined.identities then .quarantined
  else
    match s.pending.occupants.find? (·.identity = i) with
    | some t => .pending t
    | none => .untouched

lemma fate_of_quarantined (h : i ∈ s.quarantined.identities) : s.fate i = .quarantined := if_pos h

lemma fate_of_untouched (h : i ∉ s.quarantined.identities) (h' : i ∉ s.pendingIdentities) :
    s.fate i = .untouched := by
  have hfind : s.pending.occupants.find? (·.identity = i) = none := by
    rw [find?_eq_none]
    intro t ht hid
    exact h' (mem_map.mpr ⟨t, ht, by simpa using hid⟩)
  rw [fate, if_neg h, hfind]

lemma Tracked.fate_of_pending (hs : Tracked s) (h : t ∈ s.pending.occupants) :
    s.fate t.identity = .pending t := by
  have hmem : t.identity ∈ s.pendingIdentities := mem_map_of_mem h
  have hfree : t.identity ∉ s.quarantined.identities := fun hq => hs.apart _ hq hmem
  cases hfind : s.pending.occupants.find? (·.identity = t.identity) with
  | none =>
    have hne := find?_eq_none.mp hfind t h
    simp at hne
  | some u =>
    have hid : u.identity = t.identity := by simpa using find?_some hfind
    rw [fate, if_neg hfree, hfind]
    simp only
    rw [hs.eq_of_identity_eq (mem_of_find?_eq_some hfind) h hid]

lemma Tracked.mem_quarantined_iff (hs : Tracked s) :
    i ∈ s.quarantined.identities ↔ s.fate i = .quarantined := by
  refine ⟨fate_of_quarantined, fun h => ?_⟩
  by_contra hq
  by_cases hp : i ∈ s.pendingIdentities
  · obtain ⟨t, ht, rfl⟩ := mem_map.mp hp
    rw [hs.fate_of_pending ht] at h
    cases h
  · rw [fate_of_untouched hq hp] at h
    cases h

lemma Tracked.mem_pending_iff (hs : Tracked s) :
    t ∈ s.pending.occupants ↔ s.fate t.identity = .pending t := by
  refine ⟨hs.fate_of_pending, fun h => ?_⟩
  by_cases hq : t.identity ∈ s.quarantined.identities
  · rw [fate_of_quarantined hq] at h
    cases h
  · by_cases hp : t.identity ∈ s.pendingIdentities
    · obtain ⟨u, hu, hid⟩ := mem_map.mp hp
      rw [← hid, hs.fate_of_pending hu] at h
      cases h
      exact hu
    · rw [fate_of_untouched hq hp] at h
      cases h

lemma Tracked.fate_congr (hl : Tracked l) (hr : Tracked r)
    (hq : i ∈ l.quarantined.identities ↔ i ∈ r.quarantined.identities)
    (hp : ∀ t, t.identity = i → (t ∈ l.pending.occupants ↔ t ∈ r.pending.occupants)) :
    l.fate i = r.fate i := by
  by_cases hquar : i ∈ l.quarantined.identities
  · rw [fate_of_quarantined hquar, fate_of_quarantined (hq.mp hquar)]
  by_cases hpend : i ∈ l.pendingIdentities
  · obtain ⟨t, ht, rfl⟩ := mem_map.mp hpend
    rw [hl.fate_of_pending ht, hr.fate_of_pending ((hp t rfl).mp ht)]
  · have hpend' : i ∉ r.pendingIdentities := by
      intro hmem
      obtain ⟨t, ht, rfl⟩ := mem_map.mp hmem
      exact hpend (mem_map_of_mem ((hp t rfl).mpr ht))
    rw [fate_of_untouched hquar hpend, fate_of_untouched (fun h => hquar (hq.mpr h)) hpend']

/-- The checks of `preflight` that do not depend on what is tracked. -/
def Admits (s : RealtimeSession) (t : ScheduledTransition) : Prop :=
  ¬ ((validateTransition t).isOk = false ∨ t.seat.toNat ≥ s.seats) ∧ s.resyncRequired = false ∧
    s.active.at t.seat.toNat false = true ∧ t.epoch = s.epochs.at t.seat.toNat 0 ∧
    ¬ t.applyTick < s.earliestApplyTick ∧ ¬ t.applyTick > s.latestApplyTick

instance (s : RealtimeSession) (t : ScheduledTransition) : Decidable (s.Admits t) :=
  inferInstanceAs (Decidable (_ ∧ _))

lemma preflight_eq_none_iff :
    s.preflight t = none ↔ s.Admits t ∧ t.identity ∉ s.quarantined.identities := by
  unfold preflight Admits
  split_ifs <;> simp_all

lemma mem_quarantined_of_admits (h : s.preflight t = some outcome) (hadm : s.Admits t) :
    t.identity ∈ s.quarantined.identities := by
  by_contra hfree
  rw [preflight_eq_none_iff.mpr ⟨hadm, hfree⟩] at h
  cases h

/-- The identity was applied lately, or it is at or below the floor of its seat. -/
def blocked (s : RealtimeSession) (i : Identity) : Bool :=
  i ∈ s.recentTransitions.map ScheduledTransition.identity ||
    i.sequence ≤ s.highestAppliedSequence.at i.seat.toNat 0

def Shut (s : RealtimeSession) (i : Identity) : Prop := s.fate i = .untouched ∧ s.blocked i = true

instance (s : RealtimeSession) (i : Identity) : Decidable (s.Shut i) :=
  inferInstanceAs (Decidable (_ ∧ _))

section

variable (h : s.preflight t = none)
  (hpend : t.identity ∉ s.pending.occupants.map ScheduledTransition.identity)
include h hpend

lemma shut_of_recent (hrec : s.recentTransitions.find? (sameSequence · t) = some u) :
    s.Shut t.identity := by
  obtain ⟨hmem, hid⟩ := of_find?_sameSequence hrec
  refine ⟨fate_of_untouched (preflight_eq_none_iff.mp h).2 hpend, ?_⟩
  simp only [blocked, Bool.or_eq_true, decide_eq_true_iff]
  exact .inl (hid ▸ mem_map_of_mem hmem)

lemma shut_of_stale (hfloor : t.sequence ≤ s.highestAppliedSequence.at t.seat.toNat 0) :
    s.Shut t.identity := by
  refine ⟨fate_of_untouched (preflight_eq_none_iff.mp h).2 hpend, ?_⟩
  simp only [blocked, Bool.or_eq_true, decide_eq_true_iff]
  exact .inr hfloor

end

def Clean (s : RealtimeSession) : List ScheduledTransition → Prop
  | [] => True
  | t :: ts => (s.submitTransition t).2 ≠ .full ∧ (s.submitTransition t).2 ≠ .resyncRequired ∧
      Clean (s.submitTransition t).1 ts

instance decidableClean (s : RealtimeSession) : (ts : List ScheduledTransition) →
    Decidable (s.Clean ts)
  | [] => isTrue trivial
  | t :: ts =>
    have := decidableClean (s.submitTransition t).1 ts
    inferInstanceAs (Decidable (_ ∧ _ ∧ _))

lemma fate_submitTransition (hs : Tracked s) (hfull : (s.submitTransition t).2 ≠ .full)
    (hres : (s.submitTransition t).2 ≠ .resyncRequired) (i : Identity) :
    (s.submitTransition t).1.fate i =
      if s.Admits t ∧ t.identity = i then (s.fate i).absorb (s.blocked i) t else s.fate i := by
  have htrack := hs.submitTransition t
  have hsub := submitTransition_submitted s t
  generalize s.submitTransition t = result at htrack hsub hfull hres ⊢
  split_ifs with h
  · obtain ⟨hadm, rfl⟩ := h
    cases hsub with
    | refused hpreflight =>
      rw [fate_of_quarantined (mem_quarantined_of_admits hpreflight hadm)]
      rfl
    | duplicate hpreflight hmem => rw [hs.fate_of_pending hmem, Fate.absorb, if_pos rfl]
    | recent hpreflight hpending hrec =>
      obtain ⟨hfate, hblo⟩ := shut_of_recent hpreflight hpending hrec
      rw [hfate, hblo]
      rfl
    | stale hpreflight hpending hrec hfloor =>
      obtain ⟨hfate, hblo⟩ := shut_of_stale hpreflight hpending hfloor
      rw [hfate, hblo]
      rfl
    | full => exact absurd rfl hfull
    | conflictWhileFull | quarantineFull => exact absurd rfl hres
    | @conflict existing hroom hpreflight hmem hid hne =>
      rw [← hid, hs.fate_of_pending hmem, Fate.absorb, if_neg hne]
      exact fate_of_quarantined (mem_append_right _ (mem_singleton.mpr rfl))
    | scheduled hroom hpreflight hpending hrec hfloor hquarantine =>
      have hblo : s.blocked t.identity = false := by
        simp only [blocked, Bool.or_eq_false_iff, decide_eq_false_iff_not]
        exact ⟨hrec, hfloor⟩
      rw [fate_of_untouched (preflight_eq_none_iff.mp hpreflight).2 hpending, hblo]
      exact htrack.fate_of_pending
        ((s.pending.occupants_insert_perm t hroom).mem_iff.mpr mem_cons_self)
  · have hother (hpreflight : s.preflight t = none) : i ≠ t.identity := by
      rintro rfl
      exact h ⟨(preflight_eq_none_iff.mp hpreflight).1, rfl⟩
    cases hsub with
    | conflict hroom hpreflight =>
      refine htrack.fate_congr hs ?_ ?_
      · change i ∈ s.quarantined.identities ++ [t.identity] ↔ _
        simp [hother hpreflight]
      · rintro u rfl
        change u ∈ (s.pending.removeWhere _).occupants ↔ _
        rw [mem_occupants_removeWhere]
        simp [hother hpreflight]
    | scheduled hroom hpreflight =>
      refine htrack.fate_congr hs Iff.rfl ?_
      rintro u rfl
      change u ∈ (s.pending.insert t hroom).occupants ↔ _
      rw [(s.pending.occupants_insert_perm t hroom).mem_iff, mem_cons, or_iff_right]
      rintro rfl
      exact hother hpreflight rfl
    | conflictWhileFull | quarantineFull => exact absurd rfl hres
    | _ => rfl

/-- The sequence number raises the highest one of its seat. -/
def raise (highest : SeatArray UInt32) (t : ScheduledTransition) : SeatArray UInt32 :=
  highest.put t.seat.toNat (max (highest.at t.seat.toNat 0) t.sequence)

lemma raise_of_le (hseat : t.seat.toNat < maxSeats) (h : t.sequence ≤ highest.at t.seat.toNat 0) :
    raise highest t = highest := by
  refine SeatArray.ext_at 0 fun seat hlt => ?_
  rw [raise, SeatArray.at_put _ _ _ hseat]
  split_ifs with heq
  · subst heq
    grind [max_sequence_eq]
  · rfl

lemma raise_comm (highest : SeatArray UInt32) (ht : t.seat.toNat < maxSeats)
    (hu : u.seat.toNat < maxSeats) :
    raise (raise highest t) u = raise (raise highest u) t := by
  refine SeatArray.ext_at 0 fun seat hlt => ?_
  simp only [raise, SeatArray.at_put _ _ _ ht, SeatArray.at_put _ _ _ hu]
  grind [max_sequence_eq]

lemma Admits.seat_lt (h : s.Admits t) : t.seat.toNat < maxSeats := by
  have hseat := not_or.mp h.1
  exact lt_of_lt_of_le (not_le.mp hseat.2) s.seats_le

lemma highestSequence_submitTransition (hs : Tracked s) (hfull : (s.submitTransition t).2 ≠ .full)
    (hres : (s.submitTransition t).2 ≠ .resyncRequired) :
    (s.submitTransition t).1.highestSequence =
      if s.Admits t ∧ ¬ s.Shut t.identity then raise s.highestSequence t
      else s.highestSequence := by
  have hsub := submitTransition_submitted s t
  generalize s.submitTransition t = result at hsub hfull hres ⊢
  -- a tracked identity is below the highest sequence number already
  have hpend : ∀ {u}, s.Admits t → u ∈ s.pending.occupants → u.identity = t.identity →
      raise s.highestSequence t = s.highestSequence := by
    intro u hadm hu hid
    have hle : u.identity.sequence ≤ s.highestSequence.at u.identity.seat.toNat 0 :=
      (hs.current u hu).2.2
    rw [hid] at hle
    exact raise_of_le hadm.seat_lt hle
  have hquar : s.Admits t → t.identity ∈ s.quarantined.identities →
      raise s.highestSequence t = s.highestSequence := fun hadm hmem =>
    raise_of_le hadm.seat_lt (hs.quarantined_le _ hmem)
  cases hsub with
  | refused hpreflight =>
    split_ifs with h
    · exact (hquar h.1 (mem_quarantined_of_admits hpreflight h.1)).symm
    · rfl
  | duplicate hpreflight hmem =>
    split_ifs with h
    · exact (hpend h.1 hmem rfl).symm
    · rfl
  | recent hpreflight hmem hrecent =>
    exact (if_neg fun h => h.2 (shut_of_recent hpreflight hmem hrecent)).symm
  | stale hpreflight hmem hrecent hfloor =>
    exact (if_neg fun h => h.2 (shut_of_stale hpreflight hmem hfloor)).symm
  | full => exact absurd rfl hfull
  | conflictWhileFull | quarantineFull => exact absurd rfl hres
  | conflict hroom hpreflight hmem hid hne =>
    split_ifs with h
    · exact (hpend h.1 hmem hid).symm
    · rfl
  | scheduled hroom hpreflight hmem hrecent hfloor hquarantine =>
    rw [if_pos]
    · rfl
    · refine ⟨(preflight_eq_none_iff.mp hpreflight).1, fun hshut => ?_⟩
      have hblo := hshut.2
      simp only [blocked, Bool.or_eq_true, decide_eq_true_iff] at hblo
      exact hblo.elim hrecent hfloor

def SameStatics (l r : RealtimeSession) : Prop :=
  r = { l with
    pending := r.pending, quarantined := r.quarantined, highestSequence := r.highestSequence
    replay := r.replay }

lemma sameStatics_submitTransition (hres : (s.submitTransition t).2 ≠ .resyncRequired) :
    SameStatics s (s.submitTransition t).1 := by
  have hsub := submitTransition_submitted s t
  generalize s.submitTransition t = result at hsub hres ⊢
  cases hsub with
  | conflictWhileFull | quarantineFull => exact absurd rfl hres
  | _ => rfl

lemma SameStatics.admits_iff (h : SameStatics l r) : r.Admits t ↔ l.Admits t := by
  rw [h]
  rfl

lemma SameStatics.blocked_eq (h : SameStatics l r) : r.blocked i = l.blocked i := by
  rw [h]
  rfl

lemma SameStatics.trans (h : SameStatics l m) (h' : SameStatics m r) : SameStatics l r := by
  unfold SameStatics at h' ⊢
  rw [h] at h'
  exact h'

def submitAll (s : RealtimeSession) (ts : List ScheduledTransition) : RealtimeSession :=
  ts.foldl (fun s t => (s.submitTransition t).1) s

lemma Fate.absorb_untouched_iff {f : Fate} {blocked : Bool} :
    (f.absorb blocked t = .untouched ∧ blocked = true) ↔ (f = .untouched ∧ blocked = true) := by
  cases blocked with
  | false => simp
  | true =>
    cases f with
    | pending u =>
      simp only [Fate.absorb]
      split_ifs <;> simp
    | _ => simp [Fate.absorb]

lemma shut_submitTransition (hs : Tracked s) (hfull : (s.submitTransition t).2 ≠ .full)
    (hres : (s.submitTransition t).2 ≠ .resyncRequired) (i : Identity) :
    (s.submitTransition t).1.Shut i ↔ s.Shut i := by
  unfold Shut
  rw [(sameStatics_submitTransition hres).blocked_eq, fate_submitTransition hs hfull hres]
  split_ifs
  · exact Fate.absorb_untouched_iff
  · exact Iff.rfl

/-- A clean batch changes the fate of each identity and the highest sequence numbers by folds
that read the session it started from. -/
lemma submitAll_eq (hs : Tracked s) (hclean : s.Clean ts) :
    SameStatics s (s.submitAll ts) ∧
    (∀ i, (s.submitAll ts).fate i = ts.foldl (fun f t =>
      if s.Admits t ∧ t.identity = i then f.absorb (s.blocked i) t else f) (s.fate i)) ∧
    (s.submitAll ts).highestSequence = ts.foldl (fun highest t =>
      if s.Admits t ∧ ¬ s.Shut t.identity then raise highest t else highest)
      s.highestSequence := by
  induction ts generalizing s with
  | nil => exact ⟨rfl, fun _ => rfl, rfl⟩
  | cons t ts ih =>
    obtain ⟨hfull, hres, hrest⟩ := hclean
    have hsta := sameStatics_submitTransition hres
    obtain ⟨ihstatics, ihfate, ihhighest⟩ := ih (hs.submitTransition t) hrest
    refine ⟨hsta.trans ihstatics, fun i => ?_, ?_⟩
    · have hfate := ihfate i
      simp only [hsta.admits_iff, hsta.blocked_eq, fate_submitTransition hs hfull hres] at hfate
      exact hfate
    · simp only [hsta.admits_iff, shut_submitTransition hs hfull hres,
        highestSequence_submitTransition hs hfull hres] at ihhighest
      exact ihhighest

/-- Equal up to the slots of the pending table, the order of the quarantine list and the log. -/
structure SameSchedule (l r : RealtimeSession) : Prop where
  pending : l.pending.occupants.Perm r.pending.occupants
  quarantined : l.quarantined.identities.Perm r.quarantined.identities
  rest : r = { l with pending := r.pending, quarantined := r.quarantined, replay := r.replay }

lemma Tracked.occupants_nodup (hs : Tracked s) : s.pending.occupants.Nodup :=
  List.Nodup.of_map _ hs.distinct

lemma sameSchedule_submitAll (hs : Tracked s) (hperm : ts.Perm ts') (hclean : s.Clean ts)
    (hclean' : s.Clean ts') :
    SameSchedule (s.submitAll ts) (s.submitAll ts') := by
  obtain ⟨hsta, hfate, hhig⟩ := submitAll_eq hs hclean
  obtain ⟨hsta', hfate', hhig'⟩ := submitAll_eq hs hclean'
  have hfates : ∀ i, (s.submitAll ts).fate i = (s.submitAll ts').fate i := by
    intro i
    rw [hfate, hfate']
    refine hperm.foldl_eq' (fun t _ u _ f => ?_) _
    split_ifs
    · exact Fate.absorb_comm ..
    all_goals rfl
  have hhigh : (s.submitAll ts).highestSequence = (s.submitAll ts').highestSequence := by
    rw [hhig, hhig']
    refine hperm.foldl_eq' (fun t _ u _ highest => ?_) _
    split_ifs with ht hu
    · exact raise_comm highest hu.1.seat_lt ht.1.seat_lt
    all_goals rfl
  have hl : Tracked (s.submitAll ts) := hs.submitAll ts
  have hr : Tracked (s.submitAll ts') := hs.submitAll ts'
  refine ⟨?_, ?_, ?_⟩
  · refine (perm_ext_iff_of_nodup hl.occupants_nodup hr.occupants_nodup).mpr fun t => ?_
    rw [hl.mem_pending_iff, hr.mem_pending_iff, hfates]
  · refine (perm_ext_iff_of_nodup hl.quarantined_distinct hr.quarantined_distinct).mpr
      fun i => ?_
    rw [hl.mem_quarantined_iff, hr.mem_quarantined_iff, hfates]
  · unfold SameStatics at hsta hsta'
    rw [hsta]
    rw [hhigh]
    exact hsta'

namespace SameSchedule

variable (h : SameSchedule l r)
include h

lemma find?_eq (hl : Tracked l) (t : ScheduledTransition) :
    r.pending.occupants.find? (sameSequence · t) =
      l.pending.occupants.find? (sameSequence · t) := by
  rcases hfind : l.pending.occupants.find? (sameSequence · t) with _ | _
  · rw [find?_sameSequence_eq_none] at hfind ⊢
    rwa [← (h.pending.map _).mem_iff]
  obtain ⟨hu, hid⟩ := of_find?_sameSequence hfind
  cases hfind' : r.pending.occupants.find? (sameSequence · t) with
  | none =>
    refine absurd ?_ (find?_sameSequence_eq_none.mp hfind')
    rw [← hid, ← (h.pending.map _).mem_iff]
    exact mem_map_of_mem hu
  | some v =>
    obtain ⟨hv, hid'⟩ := of_find?_sameSequence hfind'
    rw [hl.eq_of_identity_eq hu (h.pending.mem_iff.mpr hv) (hid.trans hid'.symm)]

lemma preflight_eq (t : ScheduledTransition) : r.preflight t = l.preflight t := by
  have hmem : t.identity ∈ r.quarantined.identities ↔ t.identity ∈ l.quarantined.identities :=
    h.quarantined.mem_iff.symm
  rw [h.rest]
  unfold preflight
  simp only [hmem]
  rfl

lemma count_eq : r.pending.count = l.pending.count := by
  rw [← length_occupants, ← length_occupants, h.pending.length_eq]

lemma quarantined_count_eq : r.quarantined.count = l.quarantined.count :=
  h.quarantined.length_eq.symm

omit h in
lemma of_perm {log : ReplayLog} (hp : l.pending.occupants.Perm p.occupants)
    (hq : l.quarantined.identities.Perm q.identities) :
    SameSchedule l { l with pending := p, quarantined := q, replay := log } := ⟨hp, hq, rfl⟩

lemma exists_eq : ∃ (p : PendingTable) (q : QuarantineTable) (log : ReplayLog),
    l.pending.occupants.Perm p.occupants ∧ l.quarantined.identities.Perm q.identities ∧
      r = { l with pending := p, quarantined := q, replay := log } :=
  ⟨_, _, _, h.pending, h.quarantined, h.rest⟩

lemma quarantineIdentity (i : Identity) :
    SameSchedule (l.quarantineIdentity i).1 (r.quarantineIdentity i).1 ∧
      (r.quarantineIdentity i).2 = (l.quarantineIdentity i).2 := by
  have hmem := h.quarantined.mem_iff (a := i)
  have hqco := h.quarantined_count_eq
  obtain ⟨p, q, log, hp, hq, rfl⟩ := h.exists_eq
  dsimp only at hmem hqco
  have hrem : (l.pending.removeWhere fun u => u.identity == i).occupants.Perm
      (p.removeWhere fun u => u.identity == i).occupants := by
    rw [occupants_removeWhere, occupants_removeWhere]
    exact hp.filter _
  dsimp only [RealtimeSession.quarantineIdentity]
  split_ifs
  all_goals first
    | exact ⟨⟨hrem, hq, rfl⟩, rfl⟩
    | exact ⟨⟨hrem, hq.append_right _, rfl⟩, rfl⟩
    | grind [removePendingSequence]

lemma submitTransition (hl : Tracked l) (t : ScheduledTransition) :
    SameSchedule (l.submitTransition t).1 (r.submitTransition t).1 ∧
      (r.submitTransition t).2 = (l.submitTransition t).2 := by
  have hpref := h.preflight_eq t
  have hfind := h.find?_eq hl t
  have hcount := h.count_eq
  have hqco := h.quarantined_count_eq
  have hquar := h.quarantineIdentity t.identity
  obtain ⟨p, q, log, hp, hq, rfl⟩ := h.exists_eq
  dsimp only at hfind hcount hqco
  simp only [RealtimeSession.submitTransition, hpref, hfind, hqco, hcount]
  split
  · exact ⟨h, rfl⟩
  split
  · split_ifs
    · exact ⟨h, rfl⟩
    · generalize l.quarantineIdentity t.identity = first at hquar ⊢
      generalize RealtimeSession.quarantineIdentity _ _ = second at hquar ⊢
      obtain ⟨s, outcome⟩ := first
      obtain ⟨s', outcome'⟩ := second
      obtain ⟨⟨hp', hq', hrest'⟩, rfl⟩ := hquar
      dsimp only at hrest'
      rw [hrest']
      cases outcome' <;> exact ⟨⟨hp', hq', rfl⟩, rfl⟩
  split
  · exact ⟨h, rfl⟩
  split_ifs with hs hfull hroom
  · exact ⟨h, rfl⟩
  · exact ⟨⟨hp, hq, rfl⟩, rfl⟩
  · refine ⟨⟨?_, hq, rfl⟩, rfl⟩
    exact (l.pending.occupants_insert_perm t hroom).trans
      ((hp.cons t).trans (p.occupants_insert_perm t (hcount.symm ▸ hroom)).symm)
  · exact ⟨h, rfl⟩

lemma dueTransitions_eq (hl : Tracked l) (tick : UInt64) :
    r.dueTransitions tick = l.dueTransitions tick := by
  have hperm : (r.dueTransitions tick).Perm (l.dueTransitions tick) :=
    (r.dueTransitions_perm tick).trans
      ((h.pending.symm.filter _).trans (l.dueTransitions_perm tick).symm)
  refine hperm.eq_of_pairwise ?_ (r.dueTransitions_sorted tick) (l.dueTransitions_sorted tick)
  intro t u ht hu htu hut
  -- transitions of one seat are in its current epoch, so seat and sequence tell them apart
  have ht' := ((l.mem_dueTransitions tick).mp (hperm.mem_iff.mp ht)).1
  have hu' := ((l.mem_dueTransitions tick).mp hu).1
  obtain ⟨hseat, hseq⟩ := seat_eq_of_appliesBefore htu hut
  refine hl.eq_of_identity_eq ht' hu' ?_
  have hepoch : t.epoch = u.epoch := by
    rw [(hl.current t ht').2.1, (hl.current u hu').2.1, hseat]
  rw [ScheduledTransition.identity, ScheduledTransition.identity, hseat, hepoch, hseq]

lemma foldl_settle (ts : List ScheduledTransition) :
    SameSchedule (ts.foldl settle l) (ts.foldl settle r) := by
  induction ts generalizing l r with
  | nil => exact h
  | cons t ts ih =>
    refine ih ?_
    obtain ⟨p, q, log, hp, hq, rfl⟩ := h.exists_eq
    exact ⟨hp, hq.filter _, rfl⟩

lemma applyTick (hl : Tracked l) (tick : UInt64) :
    SameSchedule (l.applyTick tick) (r.applyTick tick) := by
  have hat : SameSchedule { l with currentTick := tick } { r with currentTick := tick } := by
    refine ⟨h.pending, h.quarantined, ?_⟩
    rw [h.rest]
  have hfold := hat.foldl_settle (l.dueTransitions tick)
  rw [applyTick_eq, applyTick_eq, h.dueTransitions_eq hl]
  refine ⟨?_, hfold.quarantined, ?_⟩
  · dsimp only
    rw [occupants_removeWhere, occupants_removeWhere]
    exact h.pending.filter _
  · dsimp only
    rw [hfold.rest]

/-- The two sessions after a step that showed the same events. -/
def Alike (l r : RealtimeSession × List SessionEvent) : Prop :=
  SameSchedule l.1 r.1 ∧ l.2 = r.2

lemma advanceLog (hl : Tracked l) : Alike l.advanceLog r.advanceLog := by
  have htick : r.currentTick = l.currentTick := by rw [h.rest]
  have hseats : r.seats = l.seats := by rw [h.rest]
  simp only [RealtimeSession.advanceLog, advanceTick, advanceTickInner, htick]
  cases hsucc : checkedSucc l.currentTick with
  | none => exact ⟨h, rfl⟩
  | some tick =>
    have hnext := h.applyTick hl tick
    have hdue : (l.due tick).map (·.2) = (r.due tick).map (·.2) :=
      (h.dueTransitions_eq hl tick).symm
    have hcon : (r.applyTick tick).controls = (l.applyTick tick).controls := by
      rw [hnext.rest]
    simp only [Alike, currentTick_applyTick, seats_applyTick, hseats, hdue, hcon, and_true]
    refine ⟨hnext.pending, hnext.quarantined, ?_⟩
    simp only [log]
    rw [hnext.rest]

variable (event : SessionEvent)

lemma lifecycleEpoch (seat : ℕ) (active : Bool) (reason : ResetReason) :
    Alike (l.lifecycleLog event (l.lifecycleEpoch seat active reason))
      (r.lifecycleLog event (r.lifecycleEpoch seat active reason)) := by
  obtain ⟨p, q, log, hp, hq, rfl⟩ := h.exists_eq
  simp only [lifecycleEpoch, nextEpoch]
  split_ifs
  · exact ⟨of_perm hp hq, rfl⟩
  · refine ⟨⟨?_, hq.filter _, rfl⟩, rfl⟩
    change (l.pending.removeWhere _).occupants.Perm (p.removeWhere _).occupants
    rw [occupants_removeWhere, occupants_removeWhere]
    exact hp.filter _
  · exact ⟨of_perm hp hq, rfl⟩

lemma resetAll (reason : ResetReason) :
    Alike (l.lifecycleLog event (l.resetAll reason)) (r.lifecycleLog event (r.resetAll reason))
      := by
  have hepo : r.nextEpochs = l.nextEpochs := by
    rw [h.rest]
    rfl
  simp only [RealtimeSession.resetAll, hepo]
  cases l.nextEpochs with
  | error e => exact ⟨h, rfl⟩
  | ok epochs =>
    obtain ⟨p, q, log, -, -, rfl⟩ := h.exists_eq
    exact ⟨⟨.refl _, .refl _, rfl⟩, rfl⟩

lemma applyAuthoritativeSnapshot (snapshot : AuthoritativeSnapshot) :
    Alike (l.lifecycleLog event (l.applyAuthoritativeSnapshot snapshot))
      (r.lifecycleLog event (r.applyAuthoritativeSnapshot snapshot)) := by
  obtain ⟨p, q, log, hp, hq, rfl⟩ := h.exists_eq
  have hseat : ({ l with pending := p, quarantined := q, replay := log } :
      RealtimeSession).snapshotSeatError snapshot = l.snapshotSeatError snapshot := rfl
  have hepoch : ({ l with pending := p, quarantined := q, replay := log } :
      RealtimeSession).snapshotEpochError snapshot = l.snapshotEpochError snapshot := rfl
  simp only [applyAuthoritativeSnapshot, hseat, hepoch]
  repeat' split
  all_goals first
    | exact ⟨of_perm hp hq, rfl⟩
    | exact ⟨⟨.refl _, .refl _, rfl⟩, rfl⟩

lemma recordAuthoritativeHash (tick hash : UInt64) :
    SameSchedule (keepOnError l (l.recordAuthoritativeHash tick hash))
      (keepOnError r (r.recordAuthoritativeHash tick hash)) := by
  have hlog : ∀ s : RealtimeSession, ∃ log,
      keepOnError s (s.recordAuthoritativeHash tick hash) = { s with replay := log } := by
    intro s
    unfold RealtimeSession.recordAuthoritativeHash
    cases s.replay.recordHash tick hash with
    | error e => exact ⟨s.replay, rfl⟩
    | ok log => exact ⟨log, rfl⟩
  obtain ⟨left, hleft⟩ := hlog l
  obtain ⟨right, hright⟩ := hlog r
  rw [hleft, hright]
  refine ⟨h.pending, h.quarantined, ?_⟩
  rw [h.rest]

lemma submitLog (hl : Tracked l) (ts : List ScheduledTransition) :
    Alike (runLog submitLog l ts) (runLog submitLog r ts) := by
  induction ts generalizing l r with
  | nil => exact ⟨h, rfl⟩
  | cons t ts ih =>
    obtain ⟨hnext, hout⟩ := h.submitTransition hl t
    obtain ⟨hlast, heve⟩ := ih hnext (hl.submitTransition t)
    have hres : r.resyncRequired = l.resyncRequired := by rw [h.rest]
    refine ⟨hlast, ?_⟩
    simp only [runLog, submitLog, hout, hres]
    exact congrArg _ heve

lemma stepLog (hl : Tracked l) (op : Op) : Alike (l.stepLog op) (r.stepLog op) := by
  cases op with
  | submitTransition t => exact h.submitLog hl [t]
  | submitEnvelope e => exact h.submitLog hl e.transitions
  | submitPayload payload => exact h.submitLog hl _
  | advanceTick => exact h.advanceLog hl
  | recordAuthoritativeHash tick hash => exact ⟨h.recordAuthoritativeHash tick hash, rfl⟩
  | disconnect | reconnect => exact h.lifecycleEpoch ..
  | pause | focusLost | rematch => exact h.resetAll ..
  | applyAuthoritativeSnapshot => exact h.applyAuthoritativeSnapshot ..

lemma history_eq (hl : Tracked l) (ops : List Op) : l.history ops = r.history ops := by
  induction ops generalizing l r with
  | nil => rfl
  | cons op ops ih =>
    obtain ⟨hnext, heve⟩ := h.stepLog hl op
    have htrack : Tracked (l.stepLog op).1 := fst_stepLog l op ▸ hl.step op
    change (l.stepLog op).2 ++ (l.stepLog op).1.history ops =
      (r.stepLog op).2 ++ (r.stepLog op).1.history ops
    rw [heve, ih hnext htrack]

end SameSchedule

/-- In any two orders that hit neither limit, a batch leaves the same pending transitions and
quarantined identities, all other state but the log equal, and two sessions that no later
operations tell apart: the same outcomes, ticks, controls and applied transitions. -/
theorem arrival_order_converges {config : RealtimeConfig} {seats limit : ℕ}
    {fresh : RealtimeSession} (hfresh : newWithReplayLimit config seats limit = .ok fresh)
    (before : List Op) {ts ts' : List ScheduledTransition} (hperm : ts.Perm ts')
    (hclean : (fresh.run before).Clean ts) (hclean' : (fresh.run before).Clean ts') :
    let l := (fresh.run before).submitAll ts
    let r := (fresh.run before).submitAll ts'
    l.pending.occupants.Perm r.pending.occupants ∧
    l.quarantined.identities.Perm r.quarantined.identities ∧
    l.currentTick = r.currentTick ∧ l.controls = r.controls ∧ l.epochs = r.epochs ∧
    l.active = r.active ∧ l.highestSequence = r.highestSequence ∧
    l.highestAppliedSequence = r.highestAppliedSequence ∧ l.resyncRequired = r.resyncRequired ∧
    ∀ later, l.history later = r.history later := by
  have hs : Tracked (fresh.run before) := (tracked_new hfresh).run before
  have h := sameSchedule_submitAll hs hperm hclean hclean'
  have hl : Tracked ((fresh.run before).submitAll ts) := hs.submitAll ts
  intro l r
  have hrest : r = { l with
      pending := r.pending, quarantined := r.quarantined, replay := r.replay } := h.rest
  refine ⟨h.pending, h.quarantined, ?_, ?_, ?_, ?_, ?_, ?_, ?_, h.history_eq hl⟩
  all_goals rw [hrest]

def conflictingPresses : List ScheduledTransition := [press 1 1, press 1 2, press 2 1]

theorem conflictingPresses_converge :
    (sampleSession.submitAll conflictingPresses).pending.occupants = [press 2 1] ∧
    ∀ later, (sampleSession.submitAll conflictingPresses).history later =
      (sampleSession.submitAll conflictingPresses.reverse).history later := by
  have h := arrival_order_converges
    (show newWithReplayLimit sampleConfig 1 1000 = .ok sampleSession from rfl) []
    (List.reverse_perm conflictingPresses).symm (by decide +kernel) (by decide +kernel)
  obtain ⟨-, -, -, -, -, -, -, -, -, hlater⟩ := h
  exact ⟨by decide +kernel, hlater⟩

end RealtimeSession
end Stasis.Realtime
