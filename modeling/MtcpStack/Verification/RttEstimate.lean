import MtcpStack.Model.Ack

/-! # The round trip estimator

`EstimateRTT` filters the measurements in 32 bits: eight times the average, four times the
deviation. As long as no measurement reaches 2^29 the filter does not wrap, and the average stays
above zero. -/

namespace MtcpStack

/-! ## The filter -/

/-- The state of the filter. -/
structure Rtt where
  srtt : U32
  mdev : U32
  mdevMax : U32
  rttvar : U32
  deriving DecidableEq, Repr

namespace Rtt

def init : Rtt := ⟨0, 0, 0, 0⟩

/-- The timeout that follows from the estimate. -/
def timeout (r : Rtt) : U32 := r.srtt >>> 3 + r.rttvar

/-- The filter takes the measurement `mrtt`; `passed` says whether a round trip has gone by since
the deviation was last cut back. -/
def next (r : Rtt) (mrtt : U32) (passed : Bool) : Rtt :=
  let m : ℤ := if mrtt = 0 then 1 else mrtt.toNat
  if r.srtt ≠ 0 then
    let m := m - (r.srtt >>> 3).toNat
    let mdev := r.mdev + BitVec.ofInt 32 (rttDeviation m r.mdev)
    let mdevMax := if r.mdevMax.toNat < mdev.toNat then mdev else r.mdevMax
    let rttvar :=
      if r.mdevMax.toNat < mdev.toNat ∧ r.rttvar.toNat < mdevMax.toNat then mdevMax else r.rttvar
    let srtt := r.srtt + BitVec.ofInt 32 m
    if passed then
      ⟨srtt, mdev, 0,
        if mdevMax.toNat < rttvar.toNat then rttvar - (rttvar - mdevMax) >>> 2 else rttvar⟩
    else ⟨srtt, mdev, mdevMax, rttvar⟩
  else
    let mdev := BitVec.ofInt 32 (m * 2)
    ⟨BitVec.ofInt 32 (m * 8), mdev, mdev, mdev⟩

end Rtt

def Conn.rtt (c : Conn) : Rtt := ⟨c.srtt, c.mdev, c.mdevMax, c.rttvar⟩

theorem rtt_estimateRTT (mrtt : U32) (c : Conn) :
    (estimateRTT mrtt c).rtt = c.rtt.next mrtt (decide (tcpSeqGt c.sndUna c.rttSeq)) := by
  unfold estimateRTT Rtt.next
  simp only [decide_eq_true_eq]
  generalize (if mrtt = 0 then (1 : ℤ) else mrtt.toNat) = m
  by_cases hfirst : c.srtt ≠ 0
  · rw [if_pos hfirst, if_pos (show c.rtt.srtt ≠ 0 from hfirst)]
    split <;> rfl
  · rw [if_neg hfirst, if_neg (show ¬ c.rtt.srtt ≠ 0 from hfirst)]
    rfl

/-- `EstimateRTT` writes the filter and the place of its last cut, nothing else. -/
theorem estimateRTT_writes (mrtt : U32) (c : Conn) :
    ∃ (r : Rtt) (seq : U32), estimateRTT mrtt c =
      { c with
        srtt := r.srtt
        mdev := r.mdev
        mdevMax := r.mdevMax
        rttvar := r.rttvar
        rttSeq := seq } := by
  unfold estimateRTT
  simp only
  split
  · split
    · exact ⟨⟨_, _, _, _⟩, _, rfl⟩
    · exact ⟨⟨_, _, _, _⟩, _, rfl⟩
  · exact ⟨⟨_, _, _, _⟩, _, rfl⟩

/-! ## Bounds -/

theorem toNat_add_ofInt {x : U32} {d : ℤ} (h0 : 0 ≤ x.toNat + d) (hlt : x.toNat + d < 2 ^ 32) :
    ((x + BitVec.ofInt 32 d).toNat : ℤ) = x.toNat + d := by
  rw [BitVec.toNat_add, BitVec.toNat_ofInt]
  omega

/-- The bounds that measurements up to `M` give the filter. -/
structure Rtt.Measured (M : ℕ) (r : Rtt) : Prop where
  low : 8 ≤ r.srtt.toNat
  high : r.srtt.toNat ≤ 8 * M
  mdev : r.mdev.toNat ≤ 4 * M
  mdevMax : r.mdevMax.toNat ≤ 4 * M
  rttvar : r.rttvar.toNat ≤ 4 * M

theorem shiftRight_toNat (x : U32) (k : ℕ) : (x >>> k).toNat = x.toNat / 2 ^ k := by
  rw [BitVec.toNat_ushiftRight, Nat.shiftRight_eq_div_pow]

/-- The deviation moves towards the distance of a measurement from the average, from above or
below. -/
theorem rttDeviation_bounds {m : ℤ} {mdev : U32} {M : ℕ} (hlo : -(M : ℤ) ≤ m) (hhi : m ≤ M)
    (hdev : mdev.toNat ≤ 4 * M) :
    0 ≤ mdev.toNat + rttDeviation m mdev ∧ mdev.toNat + rttDeviation m mdev ≤ 4 * M := by
  have hquarter : (mdev >>> 2).toNat = mdev.toNat / 4 := shiftRight_toNat mdev 2
  unfold rttDeviation
  simp only [hquarter]
  split_ifs <;> omega

namespace Rtt

variable {M : ℕ} {r : Rtt} {mrtt : U32} {passed : Bool}

/-- A measurement counts at least one. -/
theorem measured_bounds (hM : 0 < M) (hm : mrtt.toNat ≤ M) :
    1 ≤ (if mrtt = 0 then (1 : ℤ) else mrtt.toNat) ∧
      (if mrtt = 0 then (1 : ℤ) else mrtt.toNat) ≤ M := by
  split
  · omega
  · next hne =>
      have hpos : mrtt.toNat ≠ 0 := fun h => hne (BitVec.eq_of_toNat_eq h)
      omega

/-- Cutting back the variance towards the largest deviation makes it smaller. -/
theorem cutBack_le {rttvar mdevMax : U32} (h : mdevMax.toNat < rttvar.toNat) :
    (rttvar - (rttvar - mdevMax) >>> 2).toNat ≤ rttvar.toNat := by
  have hdiff : (rttvar - mdevMax).toNat = rttvar.toNat - mdevMax.toNat :=
    BitVec.toNat_sub_of_le h.le
  have hquarter : ((rttvar - mdevMax) >>> 2).toNat = (rttvar - mdevMax).toNat / 4 :=
    shiftRight_toNat _ 2
  rw [BitVec.toNat_sub_of_le (BitVec.le_def.mpr (by omega))]
  omega

theorem measured_first (hM : 0 < M) (hlt : M < 2 ^ 29) (hm : mrtt.toNat ≤ M)
    (hfresh : r.srtt = 0) : (r.next mrtt passed).Measured M := by
  obtain ⟨hlo, hhi⟩ := measured_bounds hM hm
  rw [next, if_neg (not_not.mpr hfresh)]
  generalize (if mrtt = 0 then (1 : ℤ) else mrtt.toNat) = m at hlo hhi ⊢
  constructor <;>
  · simp only [BitVec.toNat_ofInt]
    omega

theorem measured_next (hM : 0 < M) (hlt : M < 2 ^ 29) (hm : mrtt.toNat ≤ M)
    (h : r = .init ∨ r.Measured M) (passed : Bool) : (r.next mrtt passed).Measured M := by
  by_cases hfresh : r.srtt = 0
  · exact measured_first hM hlt hm hfresh
  obtain rfl | ⟨hs8, hsM, hmdev, hmax, hvar⟩ := h
  · exact absurd rfl hfresh
  obtain ⟨hlo, hhi⟩ := measured_bounds hM hm
  rw [next, if_pos hfresh]
  generalize (if mrtt = 0 then (1 : ℤ) else mrtt.toNat) = m at hlo hhi ⊢
  have heighth : (r.srtt >>> 3).toNat = r.srtt.toNat / 8 := shiftRight_toNat r.srtt 3
  have hdev := rttDeviation_bounds (M := M) (m := m - (r.srtt >>> 3).toNat) (by omega) (by omega)
    hmdev
  have hsrtt := toNat_add_ofInt (x := r.srtt) (d := m - (r.srtt >>> 3).toNat) (by omega) (by omega)
  have hmdev' := toNat_add_ofInt hdev.1 (by omega)
  simp only
  generalize r.srtt + BitVec.ofInt 32 (m - (r.srtt >>> 3).toNat) = srtt at hsrtt ⊢
  generalize r.mdev + BitVec.ofInt 32 (rttDeviation (m - (r.srtt >>> 3).toNat) r.mdev) = mdev
    at hmdev' ⊢
  have hmax' : (if r.mdevMax.toNat < mdev.toNat then mdev else r.mdevMax).toNat ≤ 4 * M := by
    split <;> omega
  generalize (if r.mdevMax.toNat < mdev.toNat then mdev else r.mdevMax) = mdevMax at hmax' ⊢
  have hvar' : (if r.mdevMax.toNat < mdev.toNat ∧ r.rttvar.toNat < mdevMax.toNat then mdevMax
      else r.rttvar).toNat ≤ 4 * M := by
    split <;> omega
  generalize (if r.mdevMax.toNat < mdev.toNat ∧ r.rttvar.toNat < mdevMax.toNat then mdevMax
    else r.rttvar) = rttvar at hvar' ⊢
  have hnew : 8 ≤ srtt.toNat ∧ srtt.toNat ≤ 8 * M ∧ mdev.toNat ≤ 4 * M := by omega
  split
  · refine ⟨hnew.1, hnew.2.1, hnew.2.2, Nat.zero_le _, ?_⟩
    simp only
    split
    · next hlt' => exact (cutBack_le hlt').trans hvar'
    · exact hvar'
  · exact ⟨hnew.1, hnew.2.1, hnew.2.2, hmax', hvar'⟩

/-- Within the bounds the timeout does not wrap, and it is positive. -/
theorem Measured.timeout_ne_zero (hlt : M < 2 ^ 29) (h : r.Measured M) : r.timeout ≠ 0 := by
  intro hzero
  have heighth : (r.srtt >>> 3).toNat = r.srtt.toNat / 8 := shiftRight_toNat r.srtt 3
  have htimeout : r.timeout.toNat = 0 := by rw [hzero]; rfl
  have := h.low
  have := h.high
  have := h.rttvar
  rw [timeout, BitVec.toNat_add] at htimeout
  omega

end Rtt

/-! ## Sequences of measurements -/

/-- A measurement, and where the sequence space stands when it is taken. -/
structure Measurement where
  mrtt : U32
  sndUna : U32
  sndNxt : U32
  deriving DecidableEq, Repr

/-- `EstimateRTT` is called for a measurement. -/
def Conn.measure (c : Conn) (x : Measurement) : Conn :=
  estimateRTT x.mrtt { c with sndUna := x.sndUna, sndNxt := x.sndNxt }

theorem rtt_measure (c : Conn) (x : Measurement) :
    (c.measure x).rtt = c.rtt.next x.mrtt (decide (tcpSeqGt x.sndUna c.rttSeq)) :=
  rtt_estimateRTT x.mrtt { c with sndUna := x.sndUna, sndNxt := x.sndNxt }

/-- The filter after a sequence of measurements below 2^29. -/
theorem measured_foldl {c : Conn} {xs : List Measurement}
    (hxs : ∀ x ∈ xs, x.mrtt.toNat < 2 ^ 29) (h : c.rtt = .init ∨ c.rtt.Measured (2 ^ 29 - 1)) :
    xs ≠ [] → (xs.foldl Conn.measure c).rtt.Measured (2 ^ 29 - 1) := by
  induction xs generalizing c with
  | nil => exact fun hne => absurd rfl hne
  | cons x xs ih =>
      intro _
      have hx := hxs x List.mem_cons_self
      have hnext : (c.measure x).rtt.Measured (2 ^ 29 - 1) := by
        rw [rtt_measure]
        exact Rtt.measured_next (by omega) (by omega) (by omega) h _
      rw [List.foldl_cons]
      cases xs with
      | nil => exact hnext
      | cons y ys => exact ih (fun z hz => hxs z (List.mem_cons_of_mem x hz)) (.inr hnext) (by simp)

end MtcpStack
