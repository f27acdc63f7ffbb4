import MtcpStack.Verification.Adjustments

/-! # Slow start

Below the threshold an acknowledgement widens the congestion window by `mss` for every full segment
among the acknowledged bytes. The rest of the division is dropped: the test that should round up
compares the bytes with the quotient times the divisor, which is never larger. -/

namespace MtcpStack

namespace Gauge

variable {g g' : Gauge}

/-- The rounding test never succeeds. -/
theorem packets_eq (g : Gauge) (n : ℕ) : g.packets n = BitVec.ofNat 16 (n / g.effMss.toNat) :=
  if_neg (Nat.div_mul_le_self n g.effMss.toNat).not_gt

/-- Below the third duplicate only the counters move, and likewise where they start again. -/
theorem countDup_few {dup : Bool} (ackSeq : U32)
    (h : dup = true → g.dupAcks.toNat < 2 ∨ g.dupAcks = 255) :
    ∃ dupAcks lastAckSeq, g.countDup dup ackSeq = { g with dupAcks, lastAckSeq } := by
  unfold countDup
  cases dup with
  | false => exact ⟨0, ackSeq, rfl⟩
  | true =>
    have hone : BitVec.toNat (1 : U8) = 1 := rfl
    have hfew : (g.dupAcks + 1).toNat < 3 := by
      rcases h rfl with hsmall | hlast
      · rw [BitVec.toNat_add, hone]
        omega
      · rw [hlast]
        decide
    have hthree : g.dupAcks + 1 ≠ 3 := by
      intro heq
      rw [heq] at hfew
      exact absurd hfew (by decide)
    simp only [if_true, hthree, and_false, if_false, if_neg (by omega : ¬ 3 < (g.dupAcks + 1).toNat)]
    exact ⟨_, _, rfl⟩

theorem grow_cwnd_congr (n : U16) (hs : g'.state = g.state) (hcwnd : g'.cwnd = g.cwnd)
    (hss : g'.ssthresh = g.ssthresh) (hmss : g'.mss = g.mss) :
    (g'.grow n).cwnd = (g.grow n).cwnd := by
  have hzero : ∀ h : Gauge, (if g.cwnd = 0 then h.fault .divByZero else h).cwnd = h.cwnd := by
    intro h
    split <;> rfl
  have hz := hzero g
  have hz' := (hzero g').trans hcwnd
  unfold grow
  simp only [hs, hcwnd, hss, hmss]
  generalize (if g.cwnd = 0 then g.fault .divByZero else g) = h at hz ⊢
  generalize (if g.cwnd = 0 then g'.fault .divByZero else g') = h' at hz' ⊢
  simp only [hz, hz']
  split_ifs <;> simp only [hz, hz', hcwnd]

/-- What an acknowledgement of `n` bytes does to the counters of congestion control. -/
theorem acked_kept (n : ℕ) (m : U32) (passed : Bool) :
    (g.acked n m passed).timer.cwnd = (g.grow (g.packets n)).cwnd ∧
      (g.acked n m passed).timer.ssthresh = g.ssthresh ∧
      (g.acked n m passed).timer.dupAcks = g.dupAcks := by
  have htimer : ∀ h : Gauge, h.timer.cwnd = h.cwnd ∧ h.timer.ssthresh = h.ssthresh ∧
      h.timer.dupAcks = h.dupAcks := by
    intro h
    unfold timer checkRto
    split <;> exact ⟨rfl, rfl, rfl⟩
  have hgrow : ∀ (h : Gauge) (k : U16), (h.grow k).ssthresh = h.ssthresh ∧
      (h.grow k).dupAcks = h.dupAcks := by
    intro h k
    unfold grow
    simp only
    split_ifs <;> exact ⟨rfl, rfl⟩
  have hmeasured : ∀ h : Gauge, (if h.sawTimestamp then h.measure m passed else h).state = h.state ∧
      (if h.sawTimestamp then h.measure m passed else h).cwnd = h.cwnd ∧
      (if h.sawTimestamp then h.measure m passed else h).ssthresh = h.ssthresh ∧
      (if h.sawTimestamp then h.measure m passed else h).mss = h.mss ∧
      (if h.sawTimestamp then h.measure m passed else h).dupAcks = h.dupAcks := by
    intro h
    unfold measure checkRto
    split_ifs <;> exact ⟨rfl, rfl, rfl, rfl, rfl⟩
  obtain ⟨hcwnd, hss, hdups⟩ := htimer (g.acked n m passed)
  rw [hcwnd, hss, hdups]
  unfold acked
  simp only
  split
  · obtain ⟨hs, hc, ht, hm, hd⟩ := hmeasured (g.fault .divByZero)
    exact ⟨grow_cwnd_congr _ hs hc ht hm, (hgrow _ _).1.trans ht, (hgrow _ _).2.trans hd⟩
  · obtain ⟨hs, hc, ht, hm, hd⟩ := hmeasured g
    exact ⟨grow_cwnd_congr _ hs hc ht hm, (hgrow _ _).1.trans ht, (hgrow _ _).2.trans hd⟩

/-- What slow start adds. -/
theorem grow_slow (packets : U16) (hstate : TcpState.established.code ≤ g.state.code)
    (hslow : g.cwnd.toNat < g.ssthresh.toNat) :
    (g.grow packets).cwnd =
      if g.cwnd.toNat < (g.cwnd + g.mss.setWidth 32).toNat then
        g.cwnd + g.mss.setWidth 32 * packets.setWidth 32
      else g.cwnd := by
  unfold grow
  simp only [if_neg (not_lt.mpr hstate), if_pos hslow]
  split <;> rfl

end Gauge

theorem gauge_cwnd (c : Conn) : c.gauge.cwnd = c.cwnd := rfl

variable {env : Env} {seg : Segment} {c : Conn}

/-- The segment is counted as the third or a later duplicate: it passes the test for one, and the
count, which starts again behind 255, comes to three or more. -/
def lateDup (seg : Segment) (c : Conn) : Prop :=
  isDupAck seg (adjustAck seg.ackSeq c) (c.peerWnd + c.sndWl2)
      (updateWindow seg (adjustAck seg.ackSeq c) c) ∧
    2 ≤ c.dupAcks.toNat ∧ c.dupAcks ≠ 255

instance (seg : Segment) (c : Conn) : Decidable (lateDup seg c) :=
  inferInstanceAs (Decidable (_ ∧ _))

/-- The congestion window after an acknowledgement of new data in slow start. -/
theorem processACK_cwnd (env : Env) (hstate : TcpState.established.code ≤ c.state.code)
    (hslow : c.cwnd.toNat < c.ssthresh.toNat) (hnew : 0 < ackedBytes seg c)
    (hdup : ¬ lateDup seg c) :
    (processACK env seg c).cwnd =
      if c.cwnd.toNat < (c.cwnd + c.mss.setWidth 32).toNat then
        c.cwnd + c.mss.setWidth 32 *
          (BitVec.ofNat 16 (ackedBytes seg c / c.effMss.toNat)).setWidth 32
      else c.cwnd := by
  unfold processACK
  unfold lateDup at hdup
  unfold ackedBytes at hnew ⊢
  split
  · next hnone => simp [hnone] at hnew
  · next b hbuf =>
      simp only [hbuf] at hnew ⊢
      generalize adjustAck seg.ackSeq c = ackSeq at hnew hdup ⊢
      split at hnew
      · exact absurd hnew (lt_irrefl 0)
      · next hacks =>
          obtain ⟨hend, hhead⟩ := not_or.mp hacks
          rw [if_neg hacks]
          unfold processACKWith
          simp only [if_neg hend, if_neg hhead]
          obtain ⟨wnd, wl1, wl2, hwindow⟩ := gauge_updateWindow seg c ackSeq
          generalize updateWindow seg ackSeq c = c₁ at hwindow hdup ⊢
          have hfew : decide (isDupAck seg ackSeq (c.peerWnd + c.sndWl2) c₁) = true →
              c₁.gauge.dupAcks.toNat < 2 ∨ c₁.gauge.dupAcks = 255 := by
            intro hrepeat
            rw [hwindow]
            by_contra hlate
            obtain ⟨htwo, hlast⟩ := not_or.mp hlate
            exact hdup ⟨of_decide_eq_true hrepeat, not_lt.mp htwo, hlast⟩
          obtain ⟨dupAcks, lastAckSeq, hcounted⟩ := Gauge.countDup_few ackSeq hfew
          generalize decide (isDupAck seg ackSeq (c.peerWnd + c.sndWl2) c₁) = dup at hcounted ⊢
          have hgauge : (recoverSndNxt b ackSeq (dupAckStage dup ackSeq c₁)).gauge =
              { c.gauge with
                peerWnd := wnd, sndWl1 := wl1, sndWl2 := wl2, dupAcks := dupAcks
                lastAckSeq := lastAckSeq } := by
            rw [gauge_recoverSndNxt, gauge_dupAckStage, hcounted, hwindow]
          generalize recoverSndNxt b ackSeq (dupAckStage dup ackSeq c₁) = c₂ at hgauge ⊢
          rw [← gauge_cwnd (ackNewData env b ackSeq c₂), gauge_ackNewData, (Gauge.acked_kept ..).1,
            Gauge.packets_eq, hgauge]
          exact Gauge.grow_slow _ hstate hslow

/-- Rounding up and rounding down agree on the multiples of the divisor alone. -/
theorem add_sub_one_div_eq_iff {n e : ℕ} (he : 0 < e) : (n + e - 1) / e = n / e ↔ e ∣ n := by
  constructor
  · intro heq
    by_contra hdvd
    have hrest : 0 < n % e := Nat.pos_of_ne_zero fun h => hdvd (Nat.dvd_of_mod_eq_zero h)
    have hsplit := Nat.div_add_mod n e
    have hup : n / e + 1 ≤ (n + e - 1) / e := by
      rw [Nat.le_div_iff_mul_le he, Nat.succ_mul, Nat.mul_comm]
      omega
    omega
  · rintro ⟨k, rfl⟩
    rw [Nat.mul_div_cancel_left k he, Nat.add_sub_assoc he, Nat.add_comm,
      Nat.add_mul_div_left _ _ he, Nat.div_eq_of_lt (by omega), Nat.zero_add]

/-- A quotient cut to 16 bits is the number of segments, the last one perhaps not full, exactly
when they are all full and 16 bits hold their number. -/
theorem packets_eq_ceil_iff {n e : ℕ} (he : 0 < e) :
    n / e % 2 ^ 16 = (n + e - 1) / e ↔ e ∣ n ∧ n / e < 2 ^ 16 := by
  have hle : n / e ≤ (n + e - 1) / e := Nat.div_le_div_right (by omega)
  have hcut := Nat.mod_le (n / e) (2 ^ 16)
  rw [← add_sub_one_div_eq_iff he]
  constructor
  · intro heq
    have hlt := Nat.mod_lt (n / e) (by decide : 0 < 2 ^ 16)
    omega
  · rintro ⟨heq, hlt⟩
    rw [heq, Nat.mod_eq_of_lt hlt]

/-- In slow start the window grows by a segment for each that is acknowledged, the last one
perhaps not full, exactly when they are all full and 16 bits hold their number; the segment is
not at the same time counted as a third or later duplicate. -/
theorem slow_start_growth (hstate : TcpState.established.code ≤ c.state.code)
    (hslow : c.cwnd.toNat < c.ssthresh.toNat) (heff : 1 ≤ c.effMss.toNat)
    (hnew : 0 < ackedBytes seg c) (hdup : ¬ lateDup seg c)
    (hfit : c.cwnd.toNat + c.mss.toNat *
      ((ackedBytes seg c + c.effMss.toNat - 1) / c.effMss.toNat) < 2 ^ 32) :
    ((processACK env seg c).cwnd.toNat = c.cwnd.toNat + c.mss.toNat *
        ((ackedBytes seg c + c.effMss.toNat - 1) / c.effMss.toNat) ∧
      (0 < c.mss.toNat → c.cwnd.toNat < (processACK env seg c).cwnd.toNat)) ↔
    c.mss.toNat = 0 ∨
      c.effMss.toNat ∣ ackedBytes seg c ∧ ackedBytes seg c / c.effMss.toNat < 2 ^ 16 := by
  have hup : 0 < (ackedBytes seg c + c.effMss.toNat - 1) / c.effMss.toNat :=
    Nat.div_pos (by omega) heff
  have hcut : ackedBytes seg c / c.effMss.toNat % 2 ^ 16
      ≤ (ackedBytes seg c + c.effMss.toNat - 1) / c.effMss.toNat :=
    (Nat.mod_le _ _).trans (Nat.div_le_div_right (by omega))
  have hcwnd := processACK_cwnd env hstate hslow hnew hdup
  rw [← packets_eq_ceil_iff heff, hcwnd]
  generalize ackedBytes seg c / c.effMss.toNat = q at hcut ⊢
  generalize (ackedBytes seg c + c.effMss.toNat - 1) / c.effMss.toNat = k at hfit hup hcut ⊢
  have hmss := c.mss.isLt
  rcases Nat.eq_zero_or_pos c.mss.toNat with hzero | hpos
  · have hnone : c.mss.setWidth 32 = (0 : U32) := by
      rw [← BitVec.toNat_inj, BitVec.toNat_setWidth, hzero]
      rfl
    simp [hnone, hzero]
  · have hone : c.mss.toNat ≤ c.mss.toNat * k := Nat.le_mul_of_pos_right _ hup
    have hpart : c.mss.toNat * (q % 2 ^ 16) ≤ c.mss.toNat * k := Nat.mul_le_mul_left _ hcut
    have hsum : (c.cwnd + c.mss.setWidth 32).toNat = c.cwnd.toNat + c.mss.toNat := by
      rw [BitVec.toNat_add, BitVec.toNat_setWidth,
        Nat.mod_eq_of_lt (by omega : c.mss.toNat < 2 ^ 32), Nat.mod_eq_of_lt (by omega)]
    have hgrown : (c.cwnd + c.mss.setWidth 32 * (BitVec.ofNat 16 q).setWidth 32).toNat =
        c.cwnd.toNat + c.mss.toNat * (q % 2 ^ 16) := by
      rw [BitVec.toNat_add, BitVec.toNat_mul, BitVec.toNat_setWidth, BitVec.toNat_setWidth,
        BitVec.toNat_ofNat, Nat.mod_eq_of_lt (by omega : q % 2 ^ 16 < 2 ^ 32),
        Nat.mod_eq_of_lt (by omega : c.mss.toNat < 2 ^ 32),
        Nat.mod_eq_of_lt (by omega : c.mss.toNat * (q % 2 ^ 16) < 2 ^ 32),
        Nat.mod_eq_of_lt (by omega)]
    rw [hsum, if_pos (by omega), hgrown, or_iff_right hpos.ne', Nat.add_left_cancel_iff,
      Nat.mul_right_inj hpos.ne']
    refine and_iff_left_of_imp fun heq _ => ?_
    rw [heq]
    omega

/-- The stream of the exchange before its data is acknowledged. -/
def sentConn (opt : List U8) : Conn := (exchange opt []).dropLast.foldl Event.apply connectingConn

def threeAcked : Segment := { plainSegment with seq := 501, ack := true, ackSeq := 104 }

/-- Three bytes of a segment that could hold 1448 count as none. -/
theorem small_ack_ignored :
    let c := sentConn [2, 4, 5, 180]
    Reached (fun _ => False) c ∧ c.state = .established ∧ c.cwnd.toNat < c.ssthresh.toNat ∧
      c.effMss = 1448 ∧ ackedBytes threeAcked c = 3 ∧ c.dupAcks = 0 ∧ c.cwnd = 2920 ∧
      (processACK quietEnv threeAcked c).cwnd = 2920 := by
  exact ⟨reached_connectingConn.run (by decide +kernel), by decide +kernel⟩

theorem slow_start_growth_three :
    let c := sentConn [2, 4, 0, 15]
    ackedBytes threeAcked c = 3 ∧ (processACK quietEnv threeAcked c).cwnd.toNat = c.cwnd.toNat + 15 := by
  refine ⟨by decide +kernel, ?_⟩
  refine ((slow_start_growth (by decide +kernel) (by decide +kernel) (by decide +kernel)
    (by decide +kernel) (by decide +kernel) (by decide +kernel)).mpr (by decide +kernel)).1.trans ?_
  decide +kernel

end MtcpStack
