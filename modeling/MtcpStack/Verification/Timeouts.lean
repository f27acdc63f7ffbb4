import MtcpStack.Verification.Adjustments

/-! # The retransmission timeout

The timeout is asserted to be positive wherever it is used. It starts at 500 ticks, is doubled at
most six times during the handshake, and follows the measured round trips afterwards. -/

namespace MtcpStack

namespace Gauge

/-- The gauges of a stream whose timeout is positive and has always been. -/
structure Ticking (g : Gauge) : Prop where
  rto : g.rto ≠ 0
  clean : Act.fault .rtoZero ∉ g.faults
  rtt : g.rtt = .init ∨ g.rtt.Measured (2 ^ 29 - 1)
  opening : ¬ g.state.late → ∃ k, k ≤ g.nrtx.toNat ∧ k ≤ 6 ∧ g.rto = tcpInitialRto <<< k

variable {g g' : Gauge}

/-! ## One adjustment -/

namespace Ticking

theorem checkRto (h : g.Ticking) : g.checkRto = g := if_neg h.rto

/-- Past the handshake only the timeout and the estimate matter. -/
theorem of_late (h : g.Ticking) (hlate : g'.state.late) (hrto : g'.rto = g.rto)
    (hrtt : g'.rtt = g.rtt) (hfaults : .fault .rtoZero ∈ g'.faults → .fault .rtoZero ∈ g.faults) :
    g'.Ticking :=
  ⟨hrto ▸ h.rto, fun hmem => h.clean (hfaults hmem), hrtt ▸ h.rtt, fun hno => absurd hlate hno⟩

theorem timer (h : g.Ticking) (hlate : g.state.late) : g.timer.Ticking := by
  rw [Gauge.timer, h.checkRto]
  exact h.of_late hlate rfl rfl id

theorem countDup (h : g.Ticking) (hlate : g.state.late) (dup : Bool) (ackSeq : U32) :
    (g.countDup dup ackSeq).Ticking := by
  have hkept : (g.countDup dup ackSeq).state = g.state ∧ (g.countDup dup ackSeq).rto = g.rto ∧
      (g.countDup dup ackSeq).rtt = g.rtt ∧ (g.countDup dup ackSeq).faults = g.faults := by
    unfold Gauge.countDup inflate rewind
    simp only
    split_ifs <;> exact ⟨rfl, rfl, rfl, rfl⟩
  obtain ⟨hstate, hrto, hrtt, hfaults⟩ := hkept
  exact h.of_late (hstate ▸ hlate) hrto hrtt fun hmem => hfaults ▸ hmem

theorem grow (h : g.Ticking) (hlate : g.state.late) (packets : U16) : (g.grow packets).Ticking := by
  have hfault : Act.fault .rtoZero ∈ (g.fault .divByZero).faults → .fault .rtoZero ∈ g.faults := by
    simp [Gauge.fault]
  have hzero : (if g.cwnd = 0 then g.fault .divByZero else g).Ticking ∧
      (if g.cwnd = 0 then g.fault .divByZero else g).state.late := by
    split
    · exact ⟨h.of_late hlate rfl rfl hfault, hlate⟩
    · exact ⟨h, hlate⟩
  unfold Gauge.grow
  simp only
  generalize (if g.cwnd = 0 then g.fault .divByZero else g) = g' at hzero ⊢
  split_ifs
  · exact h
  · exact h.of_late hlate rfl rfl id
  · exact h
  · exact hzero.1.of_late hzero.2 rfl rfl id
  · exact hzero.1

/-- A measurement gives a positive timeout. -/
theorem measure (h : g.Ticking) (hlate : g.state.late) {m : U32} (hm : m.toNat < 2 ^ 29)
    (passed : Bool) : (g.measure m passed).Ticking := by
  have hnext := Rtt.measured_next (by omega) (by omega) (Nat.le_sub_one_of_lt hm) h.rtt passed
  have hrto := hnext.timeout_ne_zero (by omega)
  unfold Gauge.measure Gauge.checkRto
  rw [if_neg hrto]
  exact ⟨hrto, h.clean, .inr hnext, fun hno => absurd hlate hno⟩

theorem acked (h : g.Ticking) (hlate : g.state.late) {m : U32}
    (hm : g.sawTimestamp = true → m.toNat < 2 ^ 29) (n : ℕ) (passed : Bool) :
    (g.acked n m passed).Ticking := by
  have hzero : (if g.effMss = 0 then g.fault .divByZero else g).Ticking ∧
      (if g.effMss = 0 then g.fault .divByZero else g).state = g.state ∧
      (if g.effMss = 0 then g.fault .divByZero else g).sawTimestamp = g.sawTimestamp := by
    split
    · exact ⟨h.of_late hlate rfl rfl (by simp [Gauge.fault]), rfl, rfl⟩
    · exact ⟨h, rfl, rfl⟩
  unfold Gauge.acked
  simp only
  generalize (if g.effMss = 0 then g.fault .divByZero else g) = g' at hzero ⊢
  obtain ⟨htick, hstate, hsaw⟩ := hzero
  have hlate' : g'.state.late := hstate ▸ hlate
  split
  · next htrue =>
      refine (htick.measure hlate' (hm (hsaw ▸ htrue)) passed).grow ?_ _
      unfold Gauge.measure Gauge.checkRto
      split <;> exact hlate'
  · exact htick.grow hlate' _

theorem initialRto_shift_ne_zero : ∀ k ≤ 6, tcpInitialRto <<< k ≠ 0 := by decide

/-- During the handshake the timeout is doubled with every attempt, up to the sixth. -/
theorem backoff (h : g.Ticking)
    (hopening : ¬ g.state.late →
      ∃ k, k < g.nrtx.toNat ∧ k ≤ 6 ∧ g.rto = tcpInitialRto <<< k) :
    g.backoff ≠ 0 ∧ (¬ g.state.late →
      ∃ k, k ≤ g.nrtx.toNat ∧ k ≤ 6 ∧ g.backoff = tcpInitialRto <<< k) := by
  unfold Gauge.backoff
  split
  · next hopen =>
      refine ⟨?_, fun hno => absurd (.inr hopen) hno⟩
      simp only
      split
      · exact h.rto
      · assumption
  · next hcode =>
      split
      · next hdouble =>
          have hnot : ¬ g.state.late := by
            rintro (hclosed | hopen)
            · rw [hclosed] at hdouble
              exact absurd hdouble.1 (by decide)
            · exact hcode hopen
          obtain ⟨k, hk, hk6, hrto⟩ := hopening hnot
          have hseven : tcpMaxBackoff.toNat = 7 := rfl
          have hshift : g.rto <<< 1 = tcpInitialRto <<< (k + 1) := by
            rw [hrto, BitVec.shiftLeft_add]
          rw [hshift]
          exact ⟨initialRto_shift_ne_zero (k + 1) (by omega),
            fun _ => ⟨k + 1, by omega, by omega, rfl⟩⟩
      · refine ⟨h.rto, fun hno => ?_⟩
        obtain ⟨k, hk, hk6, hrto⟩ := hopening hno
        exact ⟨k, hk.le, hk6, hrto⟩

theorem expire (h : g.Ticking) (hn : g.nrtx.toNat < tcpMaxRtx.toNat) : g.expire.Ticking := by
  have hsixteen : tcpMaxRtx.toNat = 16 := rfl
  have hone : BitVec.toNat (1 : U8) = 1 := rfl
  have hnrtx : (g.nrtx + 1).toNat = g.nrtx.toNat + 1 := by
    rw [BitVec.toNat_add, hone]
    omega
  have hopening : ¬ g.state.late →
      ∃ k, k < (g.nrtx + 1).toNat ∧ k ≤ 6 ∧ g.rto = tcpInitialRto <<< k := by
    intro hno
    obtain ⟨k, hk, hk6, hrto⟩ := h.opening hno
    exact ⟨k, by omega, hk6, hrto⟩
  have hcounted : Ticking { g with nrtx := g.nrtx + 1 } :=
    ⟨h.rto, h.clean, h.rtt, fun hno => by
      obtain ⟨k, hk, hk6, hrto⟩ := hopening hno
      exact ⟨k, hk.le, hk6, hrto⟩⟩
  obtain ⟨hrto, hback⟩ := hcounted.backoff hopening
  exact ⟨hrto, h.clean, h.rtt, hback⟩

theorem adjust {t : Terms} (hmeas : ∀ m, t.meas m → m.toNat < 2 ^ 29) (h : g.Ticking)
    (hadj : Adjust t g g') : g'.Ticking := by
  have hopening : ∀ {s : TcpState}, ¬ g.state.late → Ticking { g with state := s } :=
    fun hno => ⟨h.rto, h.clean, h.rtt, fun _ => h.opening hno⟩
  cases hadj with
  | @drift s hs =>
    refine ⟨h.rto, h.clean, h.rtt, fun hno => h.opening ?_⟩
    obtain rfl | rfl | ⟨-, hup⟩ := hs
    · exact hno
    · exact absurd (.inl rfl) hno
    · exact absurd (.inr hup) hno
  | move ht hg hs => exact h.of_late hs rfl rfl id
  | window | stamp => exact ⟨h.rto, h.clean, h.rtt, h.opening⟩
  | dup ht hg dup ackSeq => exact h.countDup hg dup ackSeq
  | acked passed ht hg hn hm => exact h.acked hg (fun hsaw => hmeas _ (hm hsaw)) _ passed
  | timer ht hg => exact h.timer hg
  | settle ht hg => exact h.of_late hg rfl rfl id
  | listened hg =>
    refine hopening ?_
    rcases hg with hs | hs <;> simp [hs, TcpState.late, TcpState.code]
  | crossed ht hg => exact hopening (by simp [hg, TcpState.late, TcpState.code])
  | refused ht hg =>
    have hlate : TcpState.closeWait.late := .inr (by decide)
    exact h.of_late hlate rfl rfl id
  | @opened a saw wnd wl1 lastAck ha hg =>
    have hagreed : (g.agree a saw wnd wl1 lastAck).openWindows.Ticking :=
      ⟨h.rto, h.clean, h.rtt, h.opening⟩
    unfold Gauge.open Gauge.timer
    rw [hagreed.checkRto]
    exact h.of_late (.inr le_rfl) rfl rfl id
  | accepted hg => exact h.of_late (.inr le_rfl) rfl rfl id
  | checked => exact h.checkRto.symm ▸ h
  | expired hn => exact h.expire hn

end Ticking

end Gauge

/-! ## Runs -/

/-- What the events of a run may bring: when new data is acknowledged, the timestamp echo is less
than 2^29 ticks old. -/
def Event.timely (c : Conn) : Event → Bool
  | .packet env seg => (dispatched env seg c).all fun d =>
      decide (0 < ackedBytes seg d → d.sawTimestamp = true →
        (env.curTs - d.tsLastackRcvd).toNat < 2 ^ 29)
  | _ => true

/-- The terms of such runs. -/
def timelyTerms : Terms where
  late := True
  half := True
  fit _ := True
  rm _ := True
  meas m := m.toNat < 2 ^ 29

theorem Event.timely_adjusts {c : Conn} {e : Event} (h : e.timely c = true) :
    Adjusts timelyTerms c.gauge (e.apply c).gauge := by
  refine Event.adjusts fun env seg d he hvalid => ?_
  subst he
  simp only [Event.timely, hvalid, Option.all_some, decide_eq_true_eq] at h
  exact ⟨fun _ _ => trivial, fun _ _ _ _ => trivial, fun _ _ => ⟨trivial, fun _ => trivial, h⟩⟩

theorem Gauge.ticking_adjusts {g g' : Gauge} (h : g.Ticking) (hadj : Adjusts timelyTerms g g') :
    g'.Ticking := by
  induction hadj with
  | refl => exact h
  | tail _ hstep ih => exact ih.adjust (fun _ hm => hm) hstep

theorem paced_ticking {c : Conn} (h : Paced (fun _ => true) Event.timely c) : c.gauge.Ticking := by
  have hstart : ∀ g : Gauge, g.rto = tcpInitialRto → g.faults = [] → g.rtt = .init → g.Ticking := by
    intro g hrto hfaults hrtt
    refine ⟨?_, ?_, .inl hrtt, fun _ => ⟨0, Nat.zero_le _, by omega, hrto⟩⟩
    · rw [hrto]
      decide
    · rw [hfaults]
      exact List.not_mem_nil
  induction h with
  | active cfg iss socket sid sh queued => cases queued <;> exact hstart _ rfl rfl rfl
  | passive env iss sid sh seg hsyn hack hfit =>
    obtain ⟨saw, wnd, wl1, lastAck, hadj⟩ :=
      handlePassiveOpen_adjusts (t := timelyTerms) trivial env iss sid sh seg
    exact Gauge.ticking_adjusts (hstart _ rfl rfl rfl) hadj
  | step _ _ hok ih => exact Gauge.ticking_adjusts ih (Event.timely_adjusts hok)

/-- Measurements below 2^29 keep the timeout positive: after every call of the estimator, and in
every run, where no assertion on the timeout fails. -/
theorem rto_stays_positive (c : Conn) :
    (∀ xs ys : List Measurement, c.rtt = .init → (∀ x ∈ xs, x.mrtt.toNat < 2 ^ 29) →
      ys <+: xs → ys ≠ [] →
      0 < ((ys.foldl Conn.measure c).srtt >>> 3 + (ys.foldl Conn.measure c).rttvar).toNat) ∧
    (Paced (fun _ => true) Event.timely c → 0 < c.rto.toNat ∧ Act.fault .rtoZero ∉ c.log) := by
  refine ⟨fun xs ys hinit hxs hpre hne => ?_, fun hpaced => ?_⟩
  · have hmeasured := measured_foldl (fun y hy => hxs y (hpre.subset hy)) (.inl hinit) hne
    have hrto := hmeasured.timeout_ne_zero (by omega)
    exact Nat.pos_of_ne_zero fun hzero => hrto (BitVec.eq_of_toNat_eq hzero)
  · have htick := paced_ticking hpaced
    refine ⟨Nat.pos_of_ne_zero fun hzero => htick.rto (BitVec.eq_of_toNat_eq hzero), fun hmem => ?_⟩
    exact htick.clean (List.mem_filter.mpr ⟨hmem, rfl⟩)

/-- A segment size and a timestamp, and the timestamp with an echo of the given highest byte. -/
def echoExchange (high : U8) : List Event :=
  exchange [2, 4, 5, 180, 1, 1, 8, 10, 0, 0, 0, 101, 0, 0, 0, 0]
    [1, 1, 8, 10, 0, 0, 0, 101, high, 0, 0, 1]

/-- An echo 2^31 ticks away wraps the fresh estimate to zero, and the assertion fails. -/
theorem far_echo_zero_rto :
    (let c := connectingConn.measure ⟨2147483648, 101, 104⟩
     connectingConn.rtt = .init ∧ c.srtt >>> 3 + c.rttvar = 0) ∧
    (let c := (echoExchange 0x80).foldl Event.apply connectingConn
     Reached (fun _ => False) c ∧ c.rto = 0 ∧ .fault .rtoZero ∈ c.log) := by
  exact ⟨by decide +kernel, reached_connectingConn.run (by decide +kernel), by decide +kernel⟩

theorem rto_stays_positive_echo :
    (let c := [⟨3, 101, 104⟩, ⟨5, 104, 107⟩].foldl Conn.measure connectingConn
     0 < (c.srtt >>> 3 + c.rttvar).toNat) ∧
    (let c := (echoExchange 0).foldl Event.apply connectingConn
     0 < c.rto.toNat ∧ Act.fault .rtoZero ∉ c.log) := by
  have hborn : Paced (fun _ => true) Event.timely connectingConn :=
    .active quietEnv.cfg 100 quietSocket 0 Shared.init true
  exact ⟨(rto_stays_positive connectingConn).1 _ _ rfl (by decide) List.prefix_rfl (by decide),
    (rto_stays_positive _).2 (hborn.run (by decide +kernel))⟩

end MtcpStack
