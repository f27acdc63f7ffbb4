import Mathlib.Data.List.Perm.Basic
import MtcpStack.Model.Thread
import MtcpStack.Verification.Refusal

/-! # Rearranging the RTO store

Timers further away than the wheel reaches wait in an overflow list. `RearrangeRTOStore` takes the
time left to a deadline with the wrong sign: what it moves, and where to, is right for a few
distances only. It loses no entry. -/

namespace MtcpStack

namespace Thread

variable {t : Thread} {c : Conn} {i : ℕ}

/-- The time left to a deadline. -/
def timeLeft (t : Thread) (c : Conn) : ℤ := (c.tsRto - t.shared.rtoNowTs).toInt

/-- All entries of the store, slot by slot, the overflow list last. -/
def entries (t : Thread) : List ℕ := (List.range (rtoHash + 1)).flatMap t.shared.rtoList

/-- The overflow list links streams that exist, each once, and the wheel points to a slot. -/
structure Linked (t : Thread) : Prop where
  idx_lt : t.shared.rtoNowIdx < rtoHash
  nodup : (t.shared.rtoList rtoHash).Nodup
  present : ∀ i ∈ t.shared.rtoList rtoHash, (t.streams i).isSome

/-! ## One step -/

/-- Whether the loop moves a stream. -/
def moves (t : Thread) (i : ℕ) : Bool :=
  (t.streams i).any fun c => decide ((t.rearrangeDiff c).toInt < rtoHash)

/-- The slot it is moved to. -/
def slotOf (t : Thread) (i : ℕ) : ℕ :=
  match t.streams i with
  | none => 0
  | some c => t.rearrangeSlot c

theorem slotOf_lt (t : Thread) (i : ℕ) : t.slotOf i < rtoHash := by
  unfold slotOf
  split
  · decide
  · exact Nat.mod_lt _ (by decide)

/-- What the loop has done when it has gone through `l`. -/
structure Rearranged (t t' : Thread) (l : List ℕ) : Prop where
  idx : t'.shared.rtoNowIdx = t.shared.rtoNowIdx
  now : t'.shared.rtoNowTs = t.shared.rtoNowTs
  overflow : t'.shared.rtoList rtoHash =
    (t.shared.rtoList rtoHash).filter fun i => !(l.contains i && t.moves i)
  slots : ∀ k, k < rtoHash → t'.shared.rtoList k =
    t.shared.rtoList k ++ l.filter fun i => t.moves i && t.slotOf i == k
  streams : ∀ i, (t'.streams i).map (·.tsRto) = (t.streams i).map (·.tsRto)
  index : ∀ i ∈ l, t.moves i = true → (t'.streams i).map (·.onRtoIdx) = some (t.slotOf i : ℤ)
  others : ∀ i, i ∉ l → t'.streams i = t.streams i

theorem rearranged_nil (t : Thread) : Rearranged t t [] where
  idx := rfl
  now := rfl
  overflow := by simp
  slots := by simp
  streams _ := rfl
  index := by simp
  others _ _ := rfl

theorem rearrangeStep_spec (hnodup : (t.shared.rtoList rtoHash).Nodup)
    (hpresent : (t.streams i).isSome) : Rearranged t (t.rearrangeStep i) [i] := by
  obtain ⟨c, hc⟩ := Option.isSome_iff_exists.1 hpresent
  have hlook : t.look i = some { c with toShared := t.shared } := by simp [look, hc]
  by_cases hdiff : (t.rearrangeDiff c).toInt < rtoHash
  · have hmoves : t.moves i = true := by simp [moves, hc, hdiff]
    have hslot : t.slotOf i = t.rearrangeSlot c := by simp [slotOf, hc]
    have hlt := t.slotOf_lt i
    have hstep : t.rearrangeStep i = t.put i
        { c with
          toShared := { t.shared with
            rtoList := Function.update
              (Function.update t.shared.rtoList rtoHash ((t.shared.rtoList rtoHash).erase i))
              (t.slotOf i) (t.shared.rtoList (t.slotOf i) ++ [i]) }
          onRtoIdx := t.slotOf i } := by
      unfold rearrangeStep
      rw [hlook]
      simp only
      rw [if_pos (show (t.rearrangeDiff { c with toShared := t.shared }).toInt < rtoHash from hdiff),
        show t.rearrangeSlot { c with toShared := t.shared } = t.slotOf i from hslot.symm,
        Function.update_of_ne hlt.ne]
    rw [hstep]
    refine ⟨rfl, rfl, ?_, ?_, ?_, ?_, ?_⟩
    · simp only [put, Function.update_of_ne hlt.ne', Function.update_self]
      rw [hnodup.erase_eq_filter]
      refine List.filter_congr fun j _ => ?_
      by_cases hj : j = i
      · simp [hj, hmoves]
      · simp [hj]
    · intro k hk
      simp only [put]
      by_cases hki : k = t.slotOf i
      · simp [hki, hmoves]
      · simp [Function.update_of_ne hki, Function.update_of_ne hk.ne, hmoves, Ne.symm hki]
    · intro j
      by_cases hj : j = i
      · simp [put, hj, hc]
      · simp [put, Function.update_of_ne hj]
    · intro j hj _
      obtain rfl : j = i := by simpa using hj
      simp [put]
    · intro j hj
      exact Function.update_of_ne (by simpa using hj) _ _
  · have hmoves : t.moves i = false := by simp [moves, hc, hdiff]
    have hstep : t.rearrangeStep i = t := by
      unfold rearrangeStep
      rw [hlook]
      exact if_neg hdiff
    rw [hstep]
    refine ⟨rfl, rfl, ?_, ?_, fun _ => rfl, ?_, fun _ _ => rfl⟩
    · rw [eq_comm, List.filter_eq_self]
      intro j _
      by_cases hj : j = i
      · simp [hj, hmoves]
      · simp [hj]
    · simp [hmoves]
    · simp [hmoves]

/-! ## The whole list -/

section

variable {t' t'' : Thread} {l l' : List ℕ}

theorem Rearranged.diff_eq (h : Rearranged t t' l) {c' : Conn} (hts : c'.tsRto = c.tsRto) :
    t'.rearrangeDiff c' = t.rearrangeDiff c := by
  simp [rearrangeDiff, h.now, hts]

/-- Both threads have the stream, with the same deadline, or neither has it. -/
theorem Rearranged.stream_cases (h : Rearranged t t' l) (i : ℕ) :
    t.streams i = none ∧ t'.streams i = none ∨
      ∃ c c', t.streams i = some c ∧ t'.streams i = some c' ∧ c'.tsRto = c.tsRto := by
  have hts := h.streams i
  cases hc : t.streams i with
  | none =>
    rw [hc] at hts
    exact .inl ⟨rfl, Option.map_eq_none_iff.mp hts⟩
  | some c =>
    rw [hc] at hts
    obtain ⟨c', hc', heq⟩ := Option.map_eq_some_iff.mp hts
    exact .inr ⟨c, c', rfl, hc', heq⟩

theorem Rearranged.moves_eq (h : Rearranged t t' l) (i : ℕ) : t'.moves i = t.moves i := by
  rcases h.stream_cases i with ⟨hc, hc'⟩ | ⟨c, c', hc, hc', hts⟩
  · rw [moves, moves, hc, hc', Option.any_none, Option.any_none]
  · rw [moves, moves, hc, hc', Option.any_some, Option.any_some, h.diff_eq hts]

theorem Rearranged.slotOf_eq (h : Rearranged t t' l) (i : ℕ) : t'.slotOf i = t.slotOf i := by
  rcases h.stream_cases i with ⟨hc, hc'⟩ | ⟨c, c', hc, hc', hts⟩
  · rw [slotOf, slotOf, hc, hc']
  · rw [slotOf, slotOf, hc, hc']
    simp only [rearrangeSlot, h.diff_eq hts, h.idx]

theorem Rearranged.trans (h : Rearranged t t' l) (h' : Rearranged t' t'' l')
    (hdisj : l.Disjoint l') : Rearranged t t'' (l ++ l') where
  idx := h'.idx.trans h.idx
  now := h'.now.trans h.now
  overflow := by
    rw [h'.overflow, h.overflow, List.filter_filter]
    refine List.filter_congr fun j _ => ?_
    rw [h.moves_eq]
    cases t.moves j <;> simp [Bool.and_comm]
  slots k hk := by
    rw [h'.slots k hk, h.slots k hk, List.append_assoc, List.filter_append]
    simp only [h.moves_eq, h.slotOf_eq]
  streams i := (h'.streams i).trans (h.streams i)
  index i hi hmoves := by
    rcases List.mem_append.1 hi with hl | hl'
    · rw [h'.others i (hdisj hl)]
      exact h.index i hl hmoves
    · rw [← h.slotOf_eq]
      exact h'.index i hl' ((h.moves_eq i).trans hmoves)
  others i hi := by
    rw [List.mem_append, not_or] at hi
    rw [h'.others i hi.2, h.others i hi.1]

end

theorem foldl_rearranged (l : List ℕ) (hl : l.Nodup) (hnodup : (t.shared.rtoList rtoHash).Nodup)
    (hpresent : ∀ i ∈ l, (t.streams i).isSome) : Rearranged t (l.foldl rearrangeStep t) l := by
  induction l generalizing t with
  | nil => exact rearranged_nil t
  | cons i l ih =>
    have hstep := rearrangeStep_spec hnodup (hpresent i (by simp))
    have hi : i ∉ l := (List.nodup_cons.1 hl).1
    have hrest := ih (t := t.rearrangeStep i) (List.nodup_cons.1 hl).2
      (by rw [hstep.overflow]; exact hnodup.filter _) ?_
    · exact hstep.trans hrest (by simpa using hi)
    · intro j hj
      rw [hstep.others j (by simpa using fun hji : j = i => hi (hji ▸ hj))]
      exact hpresent j (by simp [hj])

theorem Linked.rearranged (h : t.Linked) :
    Rearranged t t.rearrangeRTOStore (t.shared.rtoList rtoHash) :=
  foldl_rearranged _ h.nodup h.nodup h.present

/-! ## No entry is lost -/

theorem flatMap_single {α : Type*} (x : α) (s n : ℕ) :
    ((List.range n).flatMap fun k => if s = k then [x] else []) = if s < n then [x] else [] := by
  induction n with
  | zero => rfl
  | succ n ih =>
    rw [List.range_succ, List.flatMap_append, ih]
    rcases Nat.lt_trichotomy s n with hlt | rfl | hgt
    · simp [hlt, hlt.ne, Nat.lt_succ_of_lt hlt]
    · simp
    · simp [hgt.not_gt, hgt.ne', show ¬ s < n + 1 by omega]

/-- Dealing the elements of a list out to slots keeps them. -/
theorem flatMap_filter_perm {α : Type*} (l : List α) (p : α → Bool) (s : α → ℕ) {n : ℕ}
    (hs : ∀ x, s x < n) :
    ((List.range n).flatMap fun k => l.filter fun x => p x && s x == k).Perm (l.filter p) := by
  induction l with
  | nil => simp
  | cons x l ih =>
    have hsplit : ∀ k, ((x :: l).filter fun y => p y && s y == k) =
        (if p x = true then (if s x = k then [x] else []) else []) ++
          l.filter fun y => p y && s y == k := by
      intro k
      by_cases hp : p x = true <;> by_cases hk : s x = k <;> simp [hp, hk]
    simp only [hsplit]
    refine (List.flatMap_append_perm _ _ _).symm.trans ?_
    by_cases hp : p x = true
    · simp only [hp, if_true, flatMap_single, hs x, List.filter_cons_of_pos]
      exact ih.cons x
    · have hnone : ((List.range n).flatMap fun _ => ([] : List α)) = [] :=
        List.flatMap_eq_nil_iff.2 fun _ _ => rfl
      simp only [if_neg hp, hnone, List.nil_append, List.filter_cons_of_neg hp]
      exact ih

theorem Linked.entries_perm (h : t.Linked) : t.rearrangeRTOStore.entries.Perm t.entries := by
  have hre := h.rearranged
  have hover : t.rearrangeRTOStore.shared.rtoList rtoHash =
      (t.shared.rtoList rtoHash).filter fun i => !t.moves i := by
    rw [hre.overflow]
    exact List.filter_congr fun i hi => by simp [hi]
  have hslots : (List.range rtoHash).flatMap t.rearrangeRTOStore.shared.rtoList =
      (List.range rtoHash).flatMap fun k => t.shared.rtoList k ++
        (t.shared.rtoList rtoHash).filter fun i => t.moves i && t.slotOf i == k :=
    List.flatMap_congr fun k hk => hre.slots k (List.mem_range.1 hk)
  unfold entries
  rw [List.range_succ, List.flatMap_append, List.flatMap_append, hslots]
  simp only [List.flatMap_cons, List.flatMap_nil, List.append_nil, hover]
  refine ((List.flatMap_append_perm _ _ _).symm.append_right _).trans ?_
  rw [List.append_assoc]
  have hdealt := flatMap_filter_perm (t.shared.rtoList rtoHash) t.moves t.slotOf t.slotOf_lt
  exact ((hdealt.append_right _).trans (List.filter_append_perm _ _)).append_left _

/-! ## The wheel turns one slot a tick -/

end Thread

/-- Where the wheel stands. -/
def Shared.wheel (sh : Shared) : ℕ × U32 := (sh.rtoNowIdx, sh.rtoNowTs)

section

variable (env : Env) (c : Conn)

@[simp] theorem wheel_addtoControlList : (addtoControlList c).wheel = c.wheel := by
  unfold addtoControlList
  split <;> rfl

@[simp] theorem wheel_addtoSendList : (addtoSendList c).wheel = c.wheel := by
  unfold addtoSendList
  split_ifs <;> rfl

@[simp] theorem wheel_raiseErrorEvent : (raiseErrorEvent c).wheel = c.wheel :=
  raiseEvent_view (fun c => c.wheel) _ rfl

@[simp] theorem wheel_removeFromControlList : (removeFromControlList c).wheel = c.wheel := by
  unfold removeFromControlList
  split <;> rfl

@[simp] theorem wheel_removeFromSendList : (removeFromSendList c).wheel = c.wheel := by
  unfold removeFromSendList
  split <;> rfl

@[simp] theorem wheel_removeFromACKList : (removeFromACKList c).wheel = c.wheel := by
  unfold removeFromACKList
  split <;> rfl

@[simp] theorem wheel_removeFromRTOList : (removeFromRTOList c).wheel = c.wheel := by
  unfold removeFromRTOList
  split <;> rfl

@[simp] theorem wheel_removeFromTimewaitList : (removeFromTimewaitList c).wheel = c.wheel := by
  unfold removeFromTimewaitList
  split <;> rfl

@[simp] theorem wheel_removeFromTimeoutList : (removeFromTimeoutList c).wheel = c.wheel := by
  unfold removeFromTimeoutList
  split <;> rfl

@[simp] theorem wheel_destroyTCPStream (cfg : Config) : (destroyTCPStream cfg c).wheel = c.wheel := by
  have hunlink : (unlinkStream cfg c).wheel = c.wheel := by
    unfold unlinkStream
    simp only
    split_ifs <;> simp
  unfold destroyTCPStream
  simp only
  rw [← hunlink]
  split <;> rfl

@[simp] theorem wheel_notifyOrDestroy : (notifyOrDestroy env c).wheel = c.wheel := by
  unfold notifyOrDestroy
  split <;> simp

theorem wheel_requeueRTO : (requeueRTO c).wheel = c.wheel := by
  have hfin : (if tcpSeqLt c.sndNxt c.fss then
      addtoSendList { removeFromControlList c with controlListWaiting := true }
      else addtoControlList c).wheel = c.wheel := by
    split
    · exact (wheel_addtoSendList _).trans (wheel_removeFromControlList c)
    · exact wheel_addtoControlList c
  unfold requeueRTO
  split
  case h_1 | h_2 => exact wheel_addtoSendList c
  case h_3 | h_4 | h_5 => exact hfin
  case h_6 => exact wheel_addtoControlList c

theorem wheel_retransmitRTO : (retransmitRTO env c).wheel = c.wheel := by
  unfold retransmitRTO
  split
  · split
    · exact wheel_notifyOrDestroy ..
    · exact wheel_requeueRTO _
  · split
    · exact wheel_destroyTCPStream ..
    · exact wheel_requeueRTO _
  all_goals first | exact wheel_requeueRTO _ | rfl

theorem wheel_giveUpRTO : (giveUpRTO env c).wheel = c.wheel := by
  unfold giveUpRTO
  split
  · exact wheel_destroyTCPStream ..
  · exact wheel_notifyOrDestroy ..

theorem wheel_handleRTO : (handleRTO env c).wheel = c.wheel := by
  have hbackoff : ∀ d : Conn, (shrinkWindow (backoffRTO (countRtx d))).wheel = d.wheel := by
    intro d
    unfold shrinkWindow backoffRTO
    split_ifs <;> rfl
  unfold handleRTO
  simp only
  split_ifs
  all_goals
    first
    | rfl
    | exact (wheel_retransmitRTO ..).trans (hbackoff _)
    | exact wheel_giveUpRTO ..

theorem wheel_rtoListStep (slot : ℕ) : (rtoListStep env slot c).wheel = c.wheel := by
  unfold rtoListStep
  split
  · exact wheel_handleRTO ..
  · rfl

end

namespace Thread

variable {t : Thread} {c : Conn} {i : ℕ}

theorem look_toShared (h : t.look i = some c) : c.toShared = t.shared := by
  obtain ⟨d, -, rfl⟩ := Option.map_eq_some_iff.1 h
  rfl

theorem wheel_visitSlot (env : Env) (thresh : ℤ) (slot : ℕ) (l : List ℕ) (cnt : ℤ) (t : Thread) :
    (visitSlot env thresh slot l cnt t).1.shared.wheel = t.shared.wheel := by
  induction l generalizing cnt t with
  | nil => rfl
  | cons walk rest ih =>
    unfold visitSlot
    split
    · rfl
    · cases hlook : t.look walk with
      | none => rfl
      | some c =>
        rw [ih, ← look_toShared hlook]
        exact wheel_rtoListStep env c slot

theorem wheel_rearrangeRTOStore (t : Thread) : t.rearrangeRTOStore.shared.wheel = t.shared.wheel := by
  have hstep : ∀ (t : Thread) walk, (t.rearrangeStep walk).shared.wheel = t.shared.wheel := by
    intro t walk
    unfold rearrangeStep
    cases hlook : t.look walk with
    | none => rfl
    | some c =>
      rw [← look_toShared hlook]
      simp only
      split
      · rfl
      · rw [look_toShared hlook]
  unfold rearrangeRTOStore
  generalize t.shared.rtoList rtoHash = l
  induction l generalizing t with
  | nil => rfl
  | cons walk rest ih => exact (ih _).trans (hstep t walk)

theorem wheel_turnWheel (t : Thread) :
    t.turnWheel.shared.wheel = ((t.shared.rtoNowIdx + 1) % rtoHash, t.shared.rtoNowTs + 1) := by
  unfold turnWheel
  simp only
  split
  · exact wheel_rearrangeRTOStore _
  · rfl

/-- The thread and the count when `CheckRtmTimeout` comes to its `n`-th round. -/
def roundAt (env : Env) (thresh : ℤ) (cnt : ℤ) (t : Thread) : ℕ → Thread × ℤ
  | 0 => (t, cnt)
  | n + 1 =>
    let s := roundAt env thresh cnt t n
    let r := rtoRound env thresh s.2 s.1
    (r.1.turnWheel, r.2)

/-- The loop comes to its `n`-th round if it does not end before. -/
theorem rtoRounds_roundAt {env : Env} {thresh cnt : ℤ} {n : ℕ} (rounds : ℕ)
    (hgoes : ∀ m < n, ¬ (env.curTs - (roundAt env thresh cnt t m).1.shared.rtoNowTs).toInt < 0 ∧
      ¬ thresh < (roundAt env thresh cnt t (m + 1)).2) :
    rtoRounds env thresh (n + rounds) cnt t =
      rtoRounds env thresh rounds (roundAt env thresh cnt t n).2 (roundAt env thresh cnt t n).1 := by
  induction n generalizing rounds with
  | zero => rw [Nat.zero_add, roundAt]
  | succ n ih =>
    obtain ⟨hdue, hcount⟩ := hgoes n n.lt_succ_self
    rw [Nat.add_right_comm, Nat.add_assoc, ih _ fun m hm => hgoes m (Nat.lt_succ_of_lt hm), rtoRounds,
      if_neg hdue]
    exact if_neg hcount

/-- In its `n`-th round the store stands `n` slots and `n` ticks further. -/
theorem wheel_roundAt (hidx : t.shared.rtoNowIdx < rtoHash) (env : Env) (thresh cnt : ℤ) (n : ℕ) :
    (roundAt env thresh cnt t n).1.shared.wheel =
      ((t.shared.rtoNowIdx + n) % rtoHash, t.shared.rtoNowTs + BitVec.ofNat 32 n) := by
  induction n with
  | zero => simp [roundAt, Shared.wheel, Nat.mod_eq_of_lt hidx]
  | succ n ih =>
    have hvisit := wheel_visitSlot env thresh (roundAt env thresh cnt t n).1.shared.rtoNowIdx
      ((roundAt env thresh cnt t n).1.shared.rtoList (roundAt env thresh cnt t n).1.shared.rtoNowIdx)
      (roundAt env thresh cnt t n).2 (roundAt env thresh cnt t n).1
    obtain ⟨hslot, hnow⟩ := Prod.mk.inj (hvisit.trans ih)
    rw [roundAt, wheel_turnWheel, rtoRound, hslot, hnow]
    simp [add_assoc, BitVec.ofNat_add]

theorem rtoNowTs_rtoRound (env : Env) (thresh cnt : ℤ) (t : Thread) :
    (rtoRound env thresh cnt t).1.turnWheel.shared.rtoNowTs = t.shared.rtoNowTs + 1 := by
  have hvisit := wheel_visitSlot env thresh t.shared.rtoNowIdx
    (t.shared.rtoList t.shared.rtoNowIdx) cnt t
  obtain ⟨-, hnow⟩ := Prod.mk.inj hvisit
  obtain ⟨-, hturn⟩ := Prod.mk.inj (wheel_turnWheel (rtoRound env thresh cnt t).1)
  rw [hturn, rtoRound, hnow]

/-- The pass allows as many rounds as there are ticks to catch up; more would change nothing. -/
theorem rtoRounds_enough {env : Env} {thresh cnt : ℤ} {rounds : ℕ} (more : ℕ)
    (hticks : (env.curTs - t.shared.rtoNowTs).toInt < rounds) :
    rtoRounds env thresh (rounds + more) cnt t = rtoRounds env thresh rounds cnt t := by
  induction rounds generalizing t cnt with
  | zero =>
    cases more with
    | zero => rfl
    | succ more =>
      rw [Nat.zero_add, rtoRounds]
      exact if_pos hticks
  | succ rounds ih =>
    rw [Nat.add_right_comm, rtoRounds, rtoRounds]
    split
    · rfl
    · rename_i hdue
      have hnext : (env.curTs - (rtoRound env thresh cnt t).1.turnWheel.shared.rtoNowTs).toInt <
          rounds := by
        have hlt := (env.curTs - t.shared.rtoNowTs).toInt_lt
        rw [rtoNowTs_rtoRound, ← sub_sub, BitVec.toInt_sub, show (1 : U32).toInt = 1 from rfl,
          Int.bmod_eq_of_le (by omega) (by omega)]
        omega
      simp only
      split
      · rfl
      · exact ih hnext

/-- `CheckRtmTimeout` comes to its `n`-th round if it does not end before, and goes on from there. -/
theorem checkRtmTimeout_roundAt {env : Env} {thresh : ℤ} {n rounds : ℕ}
    (hcnt : t.shared.rtoListCnt ≠ 0) (hticks : (env.curTs - t.shared.rtoNowTs).toInt < rounds)
    (hgoes : ∀ m < n, ¬ (env.curTs - (roundAt env thresh 0 t m).1.shared.rtoNowTs).toInt < 0 ∧
      ¬ thresh < (roundAt env thresh 0 t (m + 1)).2) :
    t.checkRtmTimeout env thresh =
      rtoRounds env thresh rounds (roundAt env thresh 0 t n).2 (roundAt env thresh 0 t n).1 := by
  rw [checkRtmTimeout, if_neg hcnt, ← rtoRounds_roundAt rounds hgoes,
    ← rtoRounds_enough (n + rounds) (by omega), Nat.add_comm, rtoRounds_enough _ (by omega)]

/-! ## Placement -/

/-- The clock at tick `ts`. -/
def tickEnv (ts : U32) : Env := { quietEnv with curTs := ts }

/-- A deadline for which the wrong sign makes no difference: the wheel reaches it, and the slot is
the same counted backwards. The sum in `uint32_t` wraps when the distance passes the present
slot. -/
def SignBlind (t : Thread) (c : Conn) : Prop :=
  0 ≤ t.timeLeft c ∧ t.timeLeft c < rtoHash ∧
    (t.timeLeft c ≤ t.shared.rtoNowIdx ∧ 2 * t.timeLeft c % rtoHash = 0 ∨
      t.shared.rtoNowIdx < t.timeLeft c ∧ 2 * t.timeLeft c % rtoHash = 2 ^ 32 % rtoHash)

/-- The slot of a deadline. -/
def deadlineSlot (t : Thread) (c : Conn) : ℤ := (t.shared.rtoNowIdx + t.timeLeft c) % rtoHash

/-- The distance the loop takes is the time left, negated. -/
theorem rearrangeDiff_eq (t : Thread) (c : Conn) :
    t.rearrangeDiff c = -(c.tsRto - t.shared.rtoNowTs) :=
  (neg_sub _ _).symm

theorem timeLeft_toNat (h : 0 ≤ t.timeLeft c) :
    ((c.tsRto - t.shared.rtoNowTs).toNat : ℤ) = t.timeLeft c := by
  unfold timeLeft at h ⊢
  rw [BitVec.toInt_eq_toNat_cond] at h ⊢
  have hlt := (c.tsRto - t.shared.rtoNowTs).isLt
  split at h <;> split <;> omega

/-- Whatever time is left, the stream is moved. -/
theorem rearrangeDiff_lt (h : 0 ≤ t.timeLeft c) : (t.rearrangeDiff c).toInt < rtoHash := by
  have hlt := (c.tsRto - t.shared.rtoNowTs).toInt_lt
  unfold timeLeft at h
  rw [rearrangeDiff_eq, BitVec.toInt_neg]
  rw [Int.bmod_eq_of_le (by omega) (by omega)]
  simp only [rtoHash]
  omega

/-- The slot is that of the deadline exactly when it is the same counted backwards. -/
theorem rearrangeSlot_eq_iff (hpos : 0 ≤ t.timeLeft c) (hlt : t.timeLeft c < rtoHash)
    (hidx : t.shared.rtoNowIdx < rtoHash) :
    (t.rearrangeSlot c : ℤ) = t.deadlineSlot c ↔ t.SignBlind c := by
  have hnat := timeLeft_toNat hpos
  unfold rearrangeSlot deadlineSlot SignBlind
  rw [rearrangeDiff_eq]
  generalize c.tsRto - t.shared.rtoNowTs = d at hnat ⊢
  simp only [rtoHash] at hlt hidx ⊢
  by_cases hle : t.timeLeft c ≤ t.shared.rtoNowIdx
  · have hsum : (-d + BitVec.ofNat 32 t.shared.rtoNowIdx).toNat = t.shared.rtoNowIdx - d.toNat := by
      bv_omega
    rw [hsum]
    omega
  · have hsum : (-d + BitVec.ofNat 32 t.shared.rtoNowIdx).toNat =
        2 ^ 32 + t.shared.rtoNowIdx - d.toNat := by
      bv_omega
    rw [hsum]
    omega

/-- The slot of a deadline within reach is the one the wheel comes to at the deadline, unless the
deadline has passed. -/
theorem deadlineSlot_visited_iff (hlt : t.timeLeft c < rtoHash) :
    (∀ n < rtoHash, (((t.shared.rtoNowIdx + n) % rtoHash : ℕ) : ℤ) = t.deadlineSlot c ↔
      t.shared.rtoNowTs + BitVec.ofNat 32 n = c.tsRto) ↔ 0 ≤ t.timeLeft c := by
  have htick : ∀ n < rtoHash, t.shared.rtoNowTs + BitVec.ofNat 32 n = c.tsRto ↔
      n = (c.tsRto - t.shared.rtoNowTs).toNat := by
    intro n hn
    rw [← eq_sub_iff_add_eq', ← BitVec.toNat_inj, BitVec.toNat_ofNat,
      Nat.mod_eq_of_lt (hn.trans (by decide))]
  constructor
  · intro hvisited
    -- The wheel comes to the slot, and then the tick is the deadline.
    have hround : (t.timeLeft c % rtoHash).toNat < rtoHash := by
      simp only [rtoHash]
      omega
    have hat := (hvisited _ hround).mp (by
      unfold deadlineSlot
      simp only [rtoHash]
      omega)
    rw [htick _ hround] at hat
    have hsmall : (c.tsRto - t.shared.rtoNowTs).toNat < 3000 := hat ▸ hround
    rw [timeLeft, BitVec.toInt_eq_toNat_cond, if_pos (by omega)]
    exact Int.natCast_nonneg _
  · intro hpos n hn
    have hnat := timeLeft_toNat hpos
    rw [htick n hn]
    unfold deadlineSlot
    simp only [rtoHash] at hlt hn ⊢
    omega

/-- What is asked of the overflow entry `i` with deadline `c.tsRto`: it is moved exactly when the
wheel reaches the deadline, and then to the slot that `CheckRtmTimeout` visits at the deadline and,
while the wheel goes round once, at no other time. -/
structure Placed (t : Thread) (i : ℕ) (c : Conn) (t' : Thread) : Prop where
  moved : i ∉ t'.shared.rtoList rtoHash ↔ t.timeLeft c < rtoHash
  slot : t.timeLeft c < rtoHash → i ∈ t'.shared.rtoList (t.deadlineSlot c).toNat
  index : t.timeLeft c < rtoHash → (t'.streams i).map (·.onRtoIdx) = some (t.deadlineSlot c)
  visited : t.timeLeft c < rtoHash → ∀ env thresh cnt n, n < rtoHash →
    ((((roundAt env thresh cnt t' n).1.shared.rtoNowIdx : ℕ) : ℤ) = t.deadlineSlot c ↔
      (roundAt env thresh cnt t' n).1.shared.rtoNowTs = c.tsRto)

/-- `RearrangeRTOStore` keeps every entry, and places a stream as it should exactly when its
deadline does not show the wrong sign. -/
theorem rearrange_places (hlinked : t.Linked) (hi : i ∈ t.shared.rtoList rtoHash)
    (hc : t.streams i = some c) :
    t.rearrangeRTOStore.entries.Perm t.entries ∧
      (t.Placed i c t.rearrangeRTOStore ↔ t.SignBlind c) := by
  have hre := hlinked.rearranged
  have hidx := hlinked.idx_lt
  have hidx' : t.rearrangeRTOStore.shared.rtoNowIdx < rtoHash := hre.idx ▸ hidx
  have hslot : t.slotOf i = t.rearrangeSlot c := by rw [slotOf, hc]
  have hmoves : 0 ≤ t.timeLeft c → t.moves i = true := fun h => by
    simp [moves, hc, rearrangeDiff_lt h]
  have hvisit : ∀ env thresh cnt n,
      ((((roundAt env thresh cnt t.rearrangeRTOStore n).1.shared.rtoNowIdx : ℕ) : ℤ)
          = t.deadlineSlot c ↔
        (roundAt env thresh cnt t.rearrangeRTOStore n).1.shared.rtoNowTs = c.tsRto) ↔
      ((((t.shared.rtoNowIdx + n) % rtoHash : ℕ) : ℤ) = t.deadlineSlot c ↔
        t.shared.rtoNowTs + BitVec.ofNat 32 n = c.tsRto) := by
    intro env thresh cnt n
    obtain ⟨hat, hnow⟩ := Prod.mk.inj (wheel_roundAt hidx' env thresh cnt n)
    rw [hat, hnow, hre.idx, hre.now]
  refine ⟨hlinked.entries_perm, fun hplaced => ?_, fun hsign => ?_⟩
  · have hlt : t.timeLeft c < rtoHash := by
      by_contra hfar
      have hmoved := hmoves ((Int.natCast_nonneg _).trans (not_lt.mp hfar))
      exact hfar (hplaced.moved.mp (by rw [hre.overflow]; simp [hi, hmoved]))
    have hpos : 0 ≤ t.timeLeft c := (deadlineSlot_visited_iff hlt).mp fun n hn =>
      (hvisit (tickEnv 0) 0 0 n).mp (hplaced.visited hlt _ _ _ n hn)
    have hat := (hre.index i hi (hmoves hpos)).symm.trans (hplaced.index hlt)
    rw [hslot] at hat
    exact (rearrangeSlot_eq_iff hpos hlt hidx).mp (Option.some.inj hat)
  · have hmoved := hmoves hsign.1
    have hat : (t.slotOf i : ℤ) = t.deadlineSlot c := by
      rw [hslot]
      exact (rearrangeSlot_eq_iff hsign.1 hsign.2.1 hidx).mpr hsign
    refine ⟨?_, fun _ => ?_, fun _ => ?_, fun hlt env thresh cnt n hn => ?_⟩
    · rw [hre.overflow]
      simp [hi, hmoved, hsign.2.1]
    · rw [← hat, Int.toNat_natCast, hre.slots _ (t.slotOf_lt i)]
      simp [hi, hmoved]
    · rw [← hat]
      exact hre.index i hi hmoved
    · exact (hvisit env thresh cnt n).mpr ((deadlineSlot_visited_iff hlt).mpr hsign.1 n hn)

/-! ## A timer that fires late -/

/-- Two connections to a silent peer. The SYN of the first has been sent four times, with
timeouts of 500, 1000, 2000 and 4000 ticks; the second has just sent its own for the first time. -/
def silentPeer : List ThreadEvent :=
  [.connect quietEnv.cfg 100 quietSocket 0 true, .connect quietEnv.cfg 900 quietSocket 1 true,
    .stream 0 .connectq, .stream 0 (.controlPass (tickEnv 0) [true]),
    .rtmTimeout (tickEnv 500) 10, .stream 0 (.controlPass (tickEnv 500) [true]),
    .rtmTimeout (tickEnv 1500) 10, .stream 0 (.controlPass (tickEnv 1500) [true]),
    .rtmTimeout (tickEnv 3500) 10, .stream 1 .connectq,
    .stream 1 (.controlPass (tickEnv 3500) [true]), .stream 0 (.controlPass (tickEnv 3500) [true])]

/-- The first stream waits in the overflow list, 3500 ticks before its deadline, and would be moved
into the wheel at once. In the pass that turns the wheel to slot 1000 it is moved, 2500 ticks before
its deadline, to slot 796 instead of 500: the wheel comes there 296 ticks too late. -/
theorem rearrange_misplaces :
    let t := silentPeer.foldl ThreadEvent.apply init
    let u := t.checkRtmTimeout (tickEnv 4999) 10
    ThreadEvent.allowed init silentPeer = true ∧
      t.shared.rtoList rtoHash = [0] ∧ (t.streams 0).map t.timeLeft = some 3500 ∧
      t.rearrangeRTOStore.shared.rtoList rtoHash = [] ∧
      u.shared.rtoNowIdx = 1000 ∧ u.shared.rtoNowTs = 5000 ∧
      (u.streams 0).map u.timeLeft = some 2500 ∧ (u.streams 0).map u.deadlineSlot = some 500 ∧
      (u.streams 0).map (·.onRtoIdx) = some 796 ∧ u.shared.rtoList 796 = [0] := by
  decide +kernel

/-- A deadline half a turn of the wheel ahead is placed where it should be. -/
theorem rearrange_places_halfway :
    let c : Conn := { mtcpConnect quietEnv.cfg 100 quietSocket 0 Shared.init true with
      tsRto := 1507, onRtoIdx := 3000 }
    let t : Thread := ⟨fun i => if i = 0 then some c else none, { Shared.init with
      rtoList := fun k => if k = 3000 then [0] else [], rtoListCnt := 1, rtoNowIdx := 2000,
      rtoNowTs := 7 }⟩
    0 ∈ t.rearrangeRTOStore.shared.rtoList 500 := by
  intro c t
  have hlinked : t.Linked := ⟨by decide, by decide, fun i hi => by
    obtain rfl : i = 0 := by simpa [t, rtoHash] using hi
    rfl⟩
  have hsign : t.SignBlind c := by
    unfold SignBlind
    decide +kernel
  have hslot : (t.deadlineSlot c).toNat = 500 := by decide +kernel
  have hplaced := (rearrange_places hlinked (i := 0) (by decide) rfl).2.mpr hsign
  have hmoved := hplaced.slot hsign.2.1
  rwa [hslot] at hmoved

end Thread

end MtcpStack
