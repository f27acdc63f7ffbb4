import MtcpStack.Verification.Adjustments

/-! # Divisors and shifts

`ProcessACK` divides by `eff_mss` and by `cwnd`, and the windows of the peer are shifted by
`wscale_peer`. All three go back to the options of the segment that opened the stream. -/

namespace MtcpStack

/-! ## Sound gauges -/

/-- The options leave a segment size and a shift that can be used. -/
def Agreed.usable (a : Agreed) : Bool :=
  decide (a.mss ≠ 0 ∧ a.effMss ≠ 0 ∧ a.wscale.toNat < 32)

namespace Gauge

/-- No division by zero has been logged. -/
def Clean (g : Gauge) : Prop := Act.fault .divByZero ∉ g.faults

/-- The gauges of a stream whose options are usable. -/
structure Sound (g : Gauge) : Prop where
  mss : g.mss ≠ 0
  effMss : g.effMss ≠ 0
  near : g.mss.toNat ≤ g.effMss.toNat + 12
  wscale : g.wscalePeer.toNat < 32
  cwnd : g.cwnd ≠ 0
  ssthresh : g.ssthresh.toNat ≤ 2 ^ 31
  clean : g.Clean

variable {g : Gauge}

theorem toNat_ne_zero {w : ℕ} {x : BitVec w} (h : x ≠ 0) : x.toNat ≠ 0 :=
  fun hzero => h (BitVec.eq_of_toNat_eq (by simpa using hzero))

theorem ne_zero_of_toNat {w : ℕ} {x : BitVec w} (h : x.toNat ≠ 0) : x ≠ 0 :=
  fun hzero => h (by simp [hzero])

theorem Clean.fault {f : Fault} (h : g.Clean) (hf : f ≠ .divByZero) : (g.fault f).Clean := by
  unfold Clean Gauge.fault
  simp only [List.mem_append, List.mem_singleton, Act.fault.injEq, not_or]
  exact ⟨h, hf.symm⟩

theorem Clean.checkRto (h : g.Clean) : g.checkRto.Clean := by
  unfold Gauge.checkRto
  split
  · exact h.fault (by decide)
  · exact h

namespace Sound

theorem checkRto (h : g.Sound) : g.checkRto.Sound := by
  have hclean := h.clean.checkRto
  unfold Gauge.checkRto at hclean ⊢
  split_ifs at hclean ⊢
  · exact ⟨h.mss, h.effMss, h.near, h.wscale, h.cwnd, h.ssthresh, hclean⟩
  · exact h

theorem lossThreshold_bounds (g : Gauge) :
    2 * g.mss.toNat ≤ g.lossThreshold.toNat ∧ g.lossThreshold.toNat ≤ 2 ^ 31 := by
  have hmss := g.mss.isLt
  have hcwnd := g.cwnd.isLt
  unfold lossThreshold
  simp only
  split <;> simp only [BitVec.toNat_ofNat] at * <;> omega

theorem rewind (h : g.Sound) : g.rewind.Sound := by
  have hloss := lossThreshold_bounds g
  have hmss := toNat_ne_zero h.mss
  have hlt := g.mss.isLt
  refine ⟨h.mss, h.effMss, h.near, h.wscale, ne_zero_of_toNat ?_, hloss.2, h.clean⟩
  simp only [Gauge.rewind, BitVec.toNat_add, BitVec.toNat_ofNat]
  rw [Nat.mod_eq_of_lt (by omega : 3 * g.mss.toNat < 2 ^ 32), Nat.mod_eq_of_lt (by omega)]
  omega

theorem inflate (h : g.Sound) : g.inflate.Sound := by
  unfold Gauge.inflate
  simp only
  split
  · next hlt =>
      exact ⟨h.mss, h.effMss, h.near, h.wscale, ne_zero_of_toNat (Nat.zero_lt_of_lt hlt).ne',
        h.ssthresh, h.clean⟩
  · exact h

theorem countDup (h : g.Sound) (dup : Bool) (ackSeq : U32) : (g.countDup dup ackSeq).Sound := by
  unfold Gauge.countDup
  have hcount : (if dup then { g with dupAcks := g.dupAcks + 1 }
      else { g with dupAcks := 0, lastAckSeq := ackSeq }).Sound := by
    split <;> exact ⟨h.mss, h.effMss, h.near, h.wscale, h.cwnd, h.ssthresh, h.clean⟩
  simp only
  generalize (if dup then { g with dupAcks := g.dupAcks + 1 }
    else { g with dupAcks := 0, lastAckSeq := ackSeq }) = g' at hcount ⊢
  split_ifs
  · exact hcount.rewind
  · exact hcount.inflate
  · exact hcount

theorem measure (h : g.Sound) (m : U32) (passed : Bool) : (g.measure m passed).Sound :=
  checkRto ⟨h.mss, h.effMss, h.near, h.wscale, h.cwnd, h.ssthresh, h.clean⟩

/-- The segments counted for `n` bytes hold no more than `n` bytes. -/
theorem packets_mul_le (g : Gauge) (n : ℕ) : (g.packets n).toNat * g.effMss.toNat ≤ n := by
  have hdiv := Nat.div_mul_le_self n g.effMss.toNat
  have hmod := Nat.mod_le (n / g.effMss.toNat) (2 ^ 16)
  unfold packets
  simp only [if_neg hdiv.not_gt, BitVec.toNat_ofNat]
  exact (Nat.mul_le_mul_right _ hmod).trans hdiv

theorem grow (h : g.Sound) {packets : U16}
    (hfew : packets.toNat * g.effMss.toNat < 2 ^ 31 - 2 ^ 20) : (g.grow packets).Sound := by
  have hcwnd := toNat_ne_zero h.cwnd
  have hss := h.ssthresh
  unfold Gauge.grow
  simp only [if_neg h.cwnd]
  split_ifs with hstate hslow hroom hmore
  · exact h
  · -- the window stays below the threshold plus what was acknowledged, so it does not wrap to 0
    have hbytes : g.mss.toNat * packets.toNat < 2 ^ 31 := by
      have hmul := Nat.mul_le_mul_left packets.toNat h.near
      have hpk := packets.isLt
      rw [Nat.mul_add] at hmul
      rw [Nat.mul_comm]
      omega
    refine ⟨h.mss, h.effMss, h.near, h.wscale, ne_zero_of_toNat ?_, h.ssthresh, h.clean⟩
    simp only [BitVec.toNat_add, BitVec.toNat_mul, BitVec.toNat_setWidth]
    have hm := g.mss.isLt
    have hp := packets.isLt
    rw [Nat.mod_eq_of_lt (by omega : g.mss.toNat < 2 ^ 32),
      Nat.mod_eq_of_lt (by omega : packets.toNat < 2 ^ 32)]
    omega
  · exact h
  · exact ⟨h.mss, h.effMss, h.near, h.wscale, ne_zero_of_toNat (Nat.zero_lt_of_lt hmore).ne',
      h.ssthresh, h.clean⟩
  · exact h

theorem acked (h : g.Sound) {n : ℕ} (hn : n < 2 ^ 31 - 2 ^ 20) (m : U32) (passed : Bool) :
    (g.acked n m passed).Sound := by
  have hfew := (packets_mul_le g n).trans_lt hn
  unfold Gauge.acked
  simp only [if_neg h.effMss]
  have hmeasured : (if g.sawTimestamp then g.measure m passed else g).Sound ∧
      (if g.sawTimestamp then g.measure m passed else g).effMss = g.effMss := by
    split
    · refine ⟨h.measure m passed, ?_⟩
      unfold Gauge.measure Gauge.checkRto
      split <;> rfl
    · exact ⟨h, rfl⟩
  refine hmeasured.1.grow ?_
  rw [hmeasured.2]
  exact hfew

theorem expire (h : g.Sound) : g.expire.Sound := by
  have hmss := toNat_ne_zero h.mss
  have hlt := g.mss.isLt
  refine ⟨h.mss, h.effMss, h.near, h.wscale, ne_zero_of_toNat ?_, (lossThreshold_bounds _).2,
    h.clean⟩
  simp only [Gauge.expire, BitVec.toNat_ofNat]
  omega

theorem firstCwnd_ne_zero (hmss : g.mss ≠ 0) : g.firstCwnd ≠ 0 := by
  have hne := toNat_ne_zero hmss
  have hlt := g.mss.isLt
  unfold firstCwnd
  split
  · refine ne_zero_of_toNat ?_
    simp only [BitVec.toNat_mul, BitVec.toNat_setWidth, BitVec.reduceToNat]
    omega
  · refine ne_zero_of_toNat ?_
    simp only [BitVec.toNat_setWidth]
    omega

end Sound

/-- Usable options make the gauges sound once there are windows. -/
theorem agree_sound {a : Agreed} (ha : a.usable = true) (hnear : a.mss.toNat ≤ a.effMss.toNat + 12)
    (hclean : g.Clean) (saw : Bool) (wnd wl1 lastAck : U32) {cwnd ssthresh : U32} (hcwnd : cwnd ≠ 0)
    (hss : ssthresh.toNat ≤ 2 ^ 31) :
    Sound { g.agree a saw wnd wl1 lastAck with cwnd, ssthresh } := by
  obtain ⟨hmss, heff, hscale⟩ := of_decide_eq_true ha
  exact ⟨hmss, heff, hnear, hscale, hcwnd, hss, hclean⟩

theorem open_sound {a : Agreed} (ha : a.usable = true) (hnear : a.mss.toNat ≤ a.effMss.toNat + 12)
    (hclean : g.Clean) (saw : Bool) (wnd wl1 lastAck : U32) :
    (g.open a saw wnd wl1 lastAck).Sound := by
  have hten : (a.mss.setWidth 32 * 10 : U32).toNat ≤ 2 ^ 31 := by
    have hlt := a.mss.isLt
    have h10 : BitVec.toNat (10 : U32) = 10 := rfl
    rw [BitVec.toNat_mul, BitVec.toNat_setWidth, h10,
      Nat.mod_eq_of_lt (by omega : a.mss.toNat < 2 ^ 32), Nat.mod_eq_of_lt (by omega)]
    omega
  have hfirst : (g.agree a saw wnd wl1 lastAck).firstCwnd ≠ 0 := Sound.firstCwnd_ne_zero (of_decide_eq_true ha).1
  have hchecked : (g.agree a saw wnd wl1 lastAck).openWindows.checkRto.Sound :=
    (agree_sound ha hnear hclean saw wnd wl1 lastAck hfirst hten).checkRto
  unfold Gauge.open timer
  generalize (g.agree a saw wnd wl1 lastAck).openWindows.checkRto = g' at hchecked ⊢
  exact ⟨hchecked.mss, hchecked.effMss, hchecked.near, hchecked.wscale, hchecked.cwnd,
    hchecked.ssthresh, hchecked.clean⟩

/-- The gauges of a stream that no SYN/ACK has reached yet. -/
structure Unopened (g : Gauge) : Prop where
  state : g.state = .synSent ∨ g.state = .closed
  effMss : g.effMss = 0
  wscale : g.wscalePeer = 0
  clean : g.Clean

variable {g' : Gauge} {t : Terms}

theorem Sound.adjust (hfit : ∀ a, t.fit a → a.usable = true ∧ a.mss.toNat ≤ a.effMss.toNat + 12)
    (hrm : ∀ n, t.rm n → n < 2 ^ 31 - 2 ^ 20) (h : g.Sound) (hadj : Adjust t g g') : g'.Sound := by
  have hkept : ∀ {g₁ : Gauge}, g₁.mss = g.mss → g₁.effMss = g.effMss → g₁.wscalePeer = g.wscalePeer →
      g₁.cwnd ≠ 0 → g₁.ssthresh = g.ssthresh → g₁.faults = g.faults → g₁.Sound := by
    intro g₁ hmss heff hscale hcwnd hss hfaults
    exact ⟨hmss ▸ h.mss, heff ▸ h.effMss, by rw [hmss, heff]; exact h.near, hscale ▸ h.wscale, hcwnd,
      hss ▸ h.ssthresh, by rw [Clean, hfaults]; exact h.clean⟩
  cases hadj with
  | dup ht hg dup ackSeq => exact h.countDup dup ackSeq
  | acked passed ht hg hn hm => exact h.acked (hrm _ hn) _ passed
  | timer ht hg =>
    have hchecked := h.checkRto
    exact ⟨hchecked.mss, hchecked.effMss, hchecked.near, hchecked.wscale, hchecked.cwnd,
      hchecked.ssthresh, hchecked.clean⟩
  | opened saw wnd wl1 lastAck ha hg =>
    obtain ⟨husable, hnear⟩ := hfit _ ha
    exact open_sound husable hnear h.clean saw wnd wl1 lastAck
  | accepted hg => exact hkept rfl rfl rfl (firstCwnd_ne_zero h.mss) rfl rfl
  | checked => exact h.checkRto
  | expired hn => exact h.expire
  | drift | move | window | stamp | settle | listened | crossed | refused =>
    exact hkept rfl rfl rfl h.cwnd rfl rfl

theorem Unopened.adjust (hlate : ¬ t.late) (hhalf : ¬ t.half)
    (hfit : ∀ a, t.fit a → a.usable = true ∧ a.mss.toNat ≤ a.effMss.toNat + 12) (h : g.Unopened)
    (hadj : Adjust t g g') : g'.Unopened ∨ g'.Sound := by
  cases hadj with
  | drift hs =>
    refine .inl ⟨?_, h.effMss, h.wscale, h.clean⟩
    obtain rfl | rfl | ⟨hup, -⟩ := hs
    · exact h.state
    · exact .inr rfl
    · rcases h.state with hs | hs <;> simp [hs, TcpState.code] at hup
  | window | stamp => exact .inl ⟨h.state, h.effMss, h.wscale, h.clean⟩
  | opened saw wnd wl1 lastAck ha hg =>
    obtain ⟨husable, hnear⟩ := hfit _ ha
    exact .inr (open_sound husable hnear h.clean saw wnd wl1 lastAck)
  | checked =>
    have hclean := h.clean.checkRto
    unfold Gauge.checkRto at hclean ⊢
    split_ifs at hclean ⊢
    · exact .inl ⟨h.state, h.effMss, h.wscale, hclean⟩
    · exact .inl h
  | expired hn => exact .inl ⟨h.state, h.effMss, h.wscale, h.clean⟩
  | listened hg | accepted hg => rcases h.state with hs | hs <;> simp [hs] at hg
  | move ht | dup ht | acked _ ht | timer ht | settle ht => exact absurd ht hlate
  | crossed ht | refused ht => exact absurd ht hhalf

end Gauge

/-! ## The options -/

/-- The effective segment size is not set yet, or is 12 bytes below the segment size. -/
def Conn.Near (c : Conn) : Prop := c.effMss = 0 ∨ c.mss.toNat ≤ c.effMss.toNat + 12

theorem near_applyOption {curTs : U32} {opt : ℕ → U8} {kind : U8} {optlen i : ℕ} {c : Conn}
    (h : c.Near) : (applyOption curTs opt kind optlen i c).1.Near := by
  unfold applyOption
  split_ifs
  · right
    simp only [BitVec.toNat_sub, BitVec.reduceToNat]
    omega
  all_goals exact h

theorem near_parseOptionsFrom {curTs : U32} {opt : ℕ → U8} {len fuel i : ℕ} {c d : Conn}
    (h : c.Near) (hparse : parseOptionsFrom curTs opt len fuel i c = some d) : d.Near := by
  induction fuel generalizing i c with
  | zero => cases hparse
  | succ fuel ih =>
      unfold parseOptionsFrom at hparse
      simp only at hparse
      split_ifs at hparse
      · cases hparse
        exact h
      · exact ih h hparse
      · cases hparse
        exact h
      · exact ih (near_applyOption h) hparse
      · cases hparse
        exact h

theorem negotiated_near {c : Conn} (h : c.Near) (seg : Segment)
    (husable : (negotiated seg c).usable = true) :
    (negotiated seg c).mss.toNat ≤ (negotiated seg c).effMss.toNat + 12 := by
  have hnear : ((parseTCPOptions 0 seg.opt seg.optLen c).getD c).Near := by
    cases hparse : parseTCPOptions 0 seg.opt seg.optLen c with
    | none => exact h
    | some d => exact near_parseOptionsFrom h hparse
  exact hnear.resolve_left (of_decide_eq_true husable).2.1

/-! ## Runs -/

/-- What the events of a run may bring: no segment ends SYN_SENT but a SYN/ACK with usable options,
and no acknowledgement takes 2^31 - 2^20 bytes or more out of the send buffer. -/
def Event.usable (c : Conn) : Event → Bool
  | .packet _ seg =>
    decide (c.state = .synSent → (seg.rst = true → ¬ c.core.acceptable seg) ∧
      (seg.rst = false → seg.syn = true → seg.ack = true ∧ (negotiated seg c).usable = true)) &&
    decide (ackedBytes seg c < 2 ^ 31 - 2 ^ 20)
  | _ => true

/-- The terms of such runs. -/
def usableTerms (late half : Prop) : Terms where
  late := late
  half := half
  fit a := a.usable = true ∧ a.mss.toNat ≤ a.effMss.toNat + 12
  rm n := n < 2 ^ 31 - 2 ^ 20
  meas _ := True

section

variable {c : Conn} {e : Event}

theorem Event.usable_adjusts {late : Prop} (half : Prop) (h : e.usable c = true) (hnear : c.Near)
    (hlate : c.state ≠ .synSent → c.state ≠ .closed → late) :
    Adjusts (usableTerms late half) c.gauge (e.apply c).gauge := by
  refine Event.adjusts fun env seg d he hvalid => ?_
  subst he
  simp only [Event.usable, Bool.and_eq_true, decide_eq_true_eq] at h
  obtain ⟨hopen, hfew⟩ := h
  obtain ⟨recent, rcvd, upd, rfl⟩ := dispatched_eq hvalid
  refine ⟨fun hs hbad => ?_, fun hs hrst hsyn hack => ?_, fun hsent hclosed => ?_⟩
  · obtain ⟨hrst, hok⟩ | ⟨hrst, hsyn, hack⟩ := hbad
    · exact absurd hok ((hopen hs).1 hrst)
    · have := ((hopen hs).2 hrst hsyn).1
      simp [hack] at this
  · have husable := ((hopen hs).2 hrst hsyn).2
    have heq : negotiated seg { c with
        tsRecent := recent, tsLastackRcvd := rcvd, tsLastTsUpd := upd } = negotiated seg c :=
      negotiated_eq 0 seg rfl
    rw [heq]
    exact ⟨husable, negotiated_near hnear seg husable⟩
  · exact ⟨hlate hsent hclosed, fun _ => hfew, fun _ _ => trivial⟩

theorem Gauge.sound_adjusts {g g' : Gauge} {late half : Prop} (h : g.Sound)
    (hadj : Adjusts (usableTerms late half) g g') : g'.Sound := by
  induction hadj with
  | refl => exact h
  | tail _ hstep ih => exact ih.adjust (fun _ ha => ha) (fun _ hn => hn) hstep

theorem Gauge.unopened_adjusts {g g' : Gauge} (h : g.Unopened)
    (hadj : Adjusts (usableTerms False False) g g') : g'.Unopened ∨ g'.Sound := by
  induction hadj with
  | refl => exact .inl h
  | tail _ hstep ih =>
    rcases ih with hun | hsound
    · exact hun.adjust id id (fun _ ha => ha) hstep
    · exact .inr (hsound.adjust (fun _ ha => ha) (fun _ hn => hn) hstep)

theorem paced_gauge (h : Paced Agreed.usable Event.usable c) :
    c.gauge.Unopened ∨ c.gauge.Sound := by
  induction h with
  | active cfg iss socket sid sh queued =>
    left
    cases queued <;> exact ⟨.inl rfl, rfl, rfl, List.not_mem_nil⟩
  | passive env iss sid sh seg hsyn hack hfit =>
    right
    obtain ⟨saw, wnd, wl1, lastAck, hadj⟩ :=
      handlePassiveOpen_adjusts (t := usableTerms True True) trivial env iss sid sh seg
    have hnear := negotiated_near (c := freshConn env.cfg iss none sid sh) (.inl rfl) seg hfit
    have hclean : (freshConn env.cfg iss none sid sh).gauge.Clean := List.not_mem_nil
    have hzero : BitVec.toNat (0 : U32) ≤ 2 ^ 31 := by decide
    have hone : (1 : U32) ≠ 0 := by decide
    exact Gauge.sound_adjusts
      (Gauge.agree_sound hfit hnear hclean saw wnd wl1 lastAck hone hzero) hadj
  | @step c e _ _ hok ih =>
    rcases ih with hun | hsound
    · refine Gauge.unopened_adjusts hun (Event.usable_adjusts False hok (.inl hun.effMss) ?_)
      intro hsent hclosed
      exact (hun.state.elim hsent hclosed).elim
    · exact .inr (Gauge.sound_adjusts hsound
        (Event.usable_adjusts True hok (.inr hsound.near) fun _ _ => True.intro))

/-- In a run with usable options the divisors are never zero, and the shift stays below 32. -/
theorem divisors_never_zero (h : Paced Agreed.usable Event.usable c) :
    Act.fault .divByZero ∉ c.log ∧ c.wscalePeer.toNat < 32 := by
  have hclean : c.gauge.Clean ∧ c.gauge.wscalePeer.toNat < 32 := by
    rcases paced_gauge h with hun | hsound
    · exact ⟨hun.clean, by rw [hun.wscale]; decide⟩
    · exact ⟨hsound.clean, hsound.wscale⟩
  refine ⟨fun hmem => hclean.1 ?_, hclean.2⟩
  exact List.mem_filter.mpr ⟨hmem, rfl⟩

end

/-- Without a segment size `eff_mss` is zero, a segment size of zero leaves `cwnd` at zero, and the
shift is taken over as it comes. -/
theorem unusable_options_fault :
    (let c := (exchange [] []).foldl Event.apply connectingConn
     Reached (fun _ => False) c ∧ c.effMss = 0 ∧ .fault .divByZero ∈ c.log) ∧
    (let c := (exchange [2, 4, 0, 0] []).foldl Event.apply connectingConn
     Reached (fun _ => False) c ∧ c.effMss = 65524 ∧ c.cwnd = 0 ∧ .fault .divByZero ∈ c.log) ∧
    (let c := handlePassiveOpen quietEnv 100 0 Shared.init
       ({ plainSegment with syn := true }.withOptions [3, 3, 255, 1])
     Reached (fun _ => False) c ∧ c.wscalePeer = 255) := by
  exact ⟨⟨reached_connectingConn.run (by decide +kernel), by decide +kernel, by decide +kernel⟩,
    ⟨reached_connectingConn.run (by decide +kernel), by decide +kernel, by decide +kernel,
      by decide +kernel⟩,
    .born (.passive quietEnv 100 0 Shared.init _ rfl rfl), by decide +kernel⟩

theorem divisors_never_zero_exchange :
    let c := (exchange [2, 4, 5, 180] []).foldl Event.apply connectingConn
    Act.fault .divByZero ∉ c.log ∧ c.wscalePeer.toNat < 32 := by
  have hborn : Paced Agreed.usable Event.usable connectingConn :=
    .active quietEnv.cfg 100 quietSocket 0 Shared.init true
  exact divisors_never_zero (hborn.run (by decide +kernel))

end MtcpStack
