import MtcpStack.Verification.HazardCheck
import MtcpStack.Verification.Pacing

/-! # Events as adjustments

Every event changes the gauges by a sequence of adjustments, under terms that say what the segments
of the run may bring: which options, how many acknowledged bytes, which round trips. -/

namespace MtcpStack

open Relation

/-! ## Adjustments under terms -/

/-- Closed, or past the handshake. -/
def TcpState.late (s : TcpState) : Prop := s = .closed ∨ TcpState.established.code ≤ s.code

/-- What the options of the peer set. -/
structure Agreed where
  mss : U16
  effMss : U16
  wscale : U8
  deriving DecidableEq, Repr

def Conn.agreed (c : Conn) : Agreed := ⟨c.mss, c.effMss, c.wscalePeer⟩

structure Terms where
  /-- the stream has been opened -/
  late : Prop
  /-- SYN_SENT may be left without a SYN/ACK -/
  half : Prop
  fit : Agreed → Prop
  rm : ℕ → Prop
  meas : U32 → Prop

/-- The options and the header of the opening segment. -/
def Gauge.agree (g : Gauge) (a : Agreed) (saw : Bool) (wnd wl1 lastAck : U32) : Gauge :=
  { g with
    mss := a.mss
    effMss := a.effMss
    wscalePeer := a.wscale
    sawTimestamp := saw
    peerWnd := wnd
    sndWl1 := wl1
    lastAckSeq := lastAck }

/-- The windows of a stream that is about to be established. -/
def Gauge.openWindows (g : Gauge) : Gauge :=
  { g with cwnd := g.firstCwnd, ssthresh := g.mss.setWidth 32 * 10 }

/-- The SYN/ACK of an active open. -/
def Gauge.open (g : Gauge) (a : Agreed) (saw : Bool) (wnd wl1 lastAck : U32) : Gauge :=
  { (g.agree a saw wnd wl1 lastAck).openWindows.timer with state := .established }

inductive Adjust (t : Terms) (g : Gauge) : Gauge → Prop
  | drift {s} (hs : g.state.drifts s) : Adjust t g { g with state := s }
  | move {s} (ht : t.late) (hg : g.state.late) (hs : s.late) : Adjust t g { g with state := s }
  | window (wnd wl1 wl2 : U32) :
      Adjust t g { g with peerWnd := wnd, sndWl1 := wl1, sndWl2 := wl2 }
  | stamp (ts : U32) : Adjust t g { g with tsLastackRcvd := ts }
  | dup (ht : t.late) (hg : g.state.late) (dup : Bool) (ackSeq : U32) :
      Adjust t g (g.countDup dup ackSeq)
  | acked {n m} (passed : Bool) (ht : t.late) (hg : g.state.late) (hn : t.rm n)
      (hm : g.sawTimestamp = true → t.meas m) : Adjust t g (g.acked n m passed)
  | timer (ht : t.late) (hg : g.state.late) : Adjust t g g.timer
  | settle (ht : t.late) (hg : g.state.late) : Adjust t g { g with nrtx := 0 }
  | listened (hg : g.state = .listen ∨ g.state = .synRcvd) :
      Adjust t g { g with state := .synRcvd }
  | crossed (ht : t.half) (hg : g.state = .synSent) : Adjust t g { g with state := .synRcvd }
  | refused (ht : t.half) (hg : g.state = .synSent) : Adjust t g { g with state := .closeWait }
  | opened {a} (saw : Bool) (wnd wl1 lastAck : U32) (ha : t.fit a) (hg : g.state = .synSent) :
      Adjust t g (g.open a saw wnd wl1 lastAck)
  | accepted (hg : g.state = .synRcvd) :
      Adjust t g { g with cwnd := g.firstCwnd, nrtx := 0, state := .established }
  | checked : Adjust t g g.checkRto
  | expired (hn : g.nrtx.toNat < tcpMaxRtx.toNat) : Adjust t g g.expire

abbrev Adjusts (t : Terms) : Gauge → Gauge → Prop := ReflTransGen (Adjust t)

variable {t : Terms} {env : Env} {seg : Segment} {c d e : Conn}

theorem Adjusts.of_drifts (h : Drifts c d) : Adjusts t c.gauge d.gauge := by
  obtain ⟨s, hs, hd⟩ := h
  rw [hd]
  exact .single (.drift hs)

/-! ## Streams past the handshake -/

theorem gauge_state (c : Conn) : c.gauge.state = c.state := rfl

namespace Gauge

variable (g : Gauge)

@[simp] theorem timer_state : g.timer.state = g.state := by
  unfold timer checkRto
  split <;> rfl

theorem countDup_kept (dup : Bool) (ackSeq : U32) :
    (g.countDup dup ackSeq).state = g.state ∧
      (g.countDup dup ackSeq).sawTimestamp = g.sawTimestamp ∧
      (g.countDup dup ackSeq).tsLastackRcvd = g.tsLastackRcvd := by
  unfold countDup inflate rewind
  simp only
  split_ifs <;> exact ⟨rfl, rfl, rfl⟩

@[simp] theorem acked_state (n : ℕ) (m : U32) (passed : Bool) :
    (g.acked n m passed).state = g.state := by
  have hgrow : ∀ (g : Gauge) (n : U16), (g.grow n).state = g.state := by
    intro g n
    unfold grow
    simp only
    split_ifs <;> rfl
  unfold acked measure checkRto
  simp only [hgrow]
  split_ifs <;> rfl

end Gauge

/-- The gauges of `d` come from `g` by adjustments, and `d` is past the handshake. -/
structure Later (t : Terms) (g : Gauge) (d : Conn) : Prop where
  late : t.late
  state : d.state.late
  adjusts : Adjusts t g d.gauge

namespace Later

variable {g : Gauge} {s : TcpState}

theorem of_gauge (h : Later t g d) (he : e.gauge = d.gauge) : Later t g e where
  late := h.late
  state := by
    have hs : e.state = d.state := congrArg (·.state) he
    rw [hs]
    exact h.state
  adjusts := by
    rw [he]
    exact h.adjusts

theorem move (h : Later t g d) (hs : s.late) (he : e.gauge = { d.gauge with state := s }) :
    Later t g e where
  late := h.late
  state := by
    have hstate : e.state = s := congrArg (·.state) he
    rwa [hstate]
  adjusts := by
    rw [he]
    exact h.adjusts.tail (.move h.late h.state hs)

theorem timer (h : Later t g d) (he : e.gauge = d.gauge.timer) : Later t g e where
  late := h.late
  state := by
    have hs : e.state = d.gauge.timer.state := congrArg (·.state) he
    rw [hs, Gauge.timer_state]
    exact h.state
  adjusts := by
    rw [he]
    exact h.adjusts.tail (.timer h.late h.state)

theorem settle (h : Later t g d) (he : e.gauge = { d.gauge with nrtx := 0 }) : Later t g e where
  late := h.late
  state := by
    have hs : e.state = d.state := congrArg (·.state) he
    rw [hs]
    exact h.state
  adjusts := by
    rw [he]
    exact h.adjusts.tail (.settle h.late h.state)

theorem receivePayload (h : Later t g d) (env : Env) (seg : Segment) :
    Later t g (receivePayload env seg d) := by
  obtain ⟨s, hs, hgauge, -⟩ := receivePayload_gauge env seg d
  refine h.move ?_ hgauge
  obtain rfl | rfl := hs
  · exact h.state
  · exact .inl rfl

end Later

/-! ## Acknowledgements -/

/-- How many bytes the segment takes out of the send buffer. -/
def ackedBytes (seg : Segment) (c : Conn) : ℕ :=
  match c.sndbuf with
  | none => 0
  | some b =>
    let ackSeq := adjustAck seg.ackSeq c
    if tcpSeqGt ackSeq (b.headSeq + BitVec.ofNat 32 b.len) ∨ tcpSeqGeq b.headSeq ackSeq then 0
    else (ackSeq - b.headSeq).toNat

theorem toNat_sub_pos_of_not_geq {a b : U32} (h : ¬ tcpSeqGeq a b) : 0 < (b - a).toNat := by
  rw [Nat.pos_iff_ne_zero]
  intro hzero
  have heq : b - a = 0 := BitVec.eq_of_toNat_eq hzero
  refine h ?_
  rw [tcpSeqGeq, show a = b by rw [← sub_eq_zero.mp heq], sub_self]
  decide

/-- The terms cover the acknowledgement of the segment. -/
structure Acking (t : Terms) (env : Env) (seg : Segment) (c : Conn) : Prop where
  late : t.late
  rm : 0 < ackedBytes seg c → t.rm (ackedBytes seg c)
  meas : 0 < ackedBytes seg c → c.sawTimestamp = true → t.meas (env.curTs - c.tsLastackRcvd)

namespace Acking

theorem congr (h : Acking t env seg c) (hbuf : d.sndbuf = c.sndbuf)
    (hack : adjustAck seg.ackSeq d = adjustAck seg.ackSeq c) (hsaw : d.sawTimestamp = c.sawTimestamp)
    (hts : d.tsLastackRcvd = c.tsLastackRcvd) : Acking t env seg d := by
  have hbytes : ackedBytes seg d = ackedBytes seg c := by
    unfold ackedBytes
    rw [hbuf, hack]
  refine ⟨h.late, ?_, ?_⟩
  · rw [hbytes]
    exact h.rm
  · rw [hbytes, hsaw, hts]
    exact h.meas

theorem start (h : Acking t env seg c) (hs : c.state.late) : Later t c.gauge c :=
  ⟨h.late, hs, .refl⟩

theorem processACK (h : Acking t env seg c) (hs : c.state.late) :
    Later t c.gauge (processACK env seg c) := by
  have hrm := h.rm
  have hmeas := h.meas
  unfold ackedBytes at hrm hmeas
  unfold MtcpStack.processACK
  split
  · exact h.start hs
  · next b hbuf =>
      simp only [hbuf] at hrm hmeas
      unfold processACKWith
      generalize adjustAck seg.ackSeq c = ackSeq at hrm hmeas ⊢
      simp only
      split
      · exact h.start hs
      · next hend =>
          obtain ⟨wnd, wl1, wl2, hwindow⟩ := gauge_updateWindow seg c ackSeq
          generalize updateWindow seg ackSeq c = c₁ at hwindow ⊢
          have hwin : Adjusts t c.gauge c₁.gauge := by
            rw [hwindow]
            exact .single (.window wnd wl1 wl2)
          have hs₁ : c₁.gauge.state.late := by
            rw [hwindow]
            exact hs
          generalize decide (isDupAck seg ackSeq (c.peerWnd + c.sndWl2) c₁) = dup
          have hdup : (recoverSndNxt b ackSeq (dupAckStage dup ackSeq c₁)).gauge =
              c₁.gauge.countDup dup ackSeq := by
            rw [gauge_recoverSndNxt, gauge_dupAckStage]
          generalize recoverSndNxt b ackSeq (dupAckStage dup ackSeq c₁) = c₂ at hdup ⊢
          obtain ⟨hstate, hsaw, hts⟩ := c₁.gauge.countDup_kept dup ackSeq
          rw [← hdup, hwindow] at hstate hsaw hts
          change c₂.state = c.state at hstate
          change c₂.sawTimestamp = c.sawTimestamp at hsaw
          change c₂.tsLastackRcvd = c.tsLastackRcvd at hts
          have hcounted : Later t c.gauge c₂ := by
            refine ⟨h.late, ?_, ?_⟩
            · rw [hstate]
              exact hs
            · rw [hdup]
              exact hwin.tail (.dup h.late hs₁ dup ackSeq)
          split
          · exact hcounted
          · next hhead =>
              have hpos := toNat_sub_pos_of_not_geq hhead
              rw [if_neg (not_or.mpr ⟨hend, hhead⟩)] at hrm hmeas
              have hmeas' : c₂.gauge.sawTimestamp = true → t.meas (env.curTs - c₂.tsLastackRcvd) := by
                change c₂.sawTimestamp = true → _
                rw [hsaw, hts]
                exact hmeas hpos
              have hacked := hcounted.adjusts.tail (.acked (decide (tcpSeqGt c₂.sndUna c₂.rttSeq))
                h.late hcounted.state (hrm hpos) hmeas')
              refine ⟨h.late, ?_, ?_⟩
              · rw [← gauge_state, gauge_ackNewData, Gauge.timer_state, Gauge.acked_state]
                exact hcounted.state
              · rw [gauge_ackNewData]
                refine hacked.tail (.timer h.late ?_)
                rw [Gauge.acked_state]
                exact hcounted.state

/-- ESTABLISHED takes the payload first. -/
theorem receivePayload (h : Acking t env seg c) (hs : c.state = .established) :
    Acking t env seg (receivePayload env seg c) := by
  obtain ⟨s, hkept, hgauge, hbuf⟩ := receivePayload_gauge env seg c
  generalize MtcpStack.receivePayload env seg c = d at hgauge hbuf ⊢
  have hstate : d.state = s := congrArg (·.state) hgauge
  have hsaw : d.sawTimestamp = c.sawTimestamp := congrArg (·.sawTimestamp) hgauge
  have hts : d.tsLastackRcvd = c.tsLastackRcvd := congrArg (·.tsLastackRcvd) hgauge
  obtain rfl | rfl := hkept
  all_goals
    refine h.congr hbuf ?_ hsaw hts
    simp only [adjustAck, hstate, hs]

end Acking

/-! ## The handlers past the handshake -/

section

variable (h : Acking t env seg c) (hs : c.state.late)
include h hs

omit hs in
theorem handleEstablished_later (hs : c.state = .established) :
    Later t c.gauge (handleEstablished env seg c) := by
  have hfin : ∀ {d : Conn}, Later t c.gauge d → Later t c.gauge (finEstablished seg d) := by
    intro d hd
    unfold finEstablished
    split
    · refine hd.move (s := .closeWait) (.inr (by decide)) ?_
      rw [raiseReadEvent, gauge_raiseEvent, gauge_addtoControlList]
      rfl
    · exact hd.of_gauge (gauge_enqueueACK _ d)
  have hstart := h.start (.inr (by rw [hs]))
  unfold handleEstablished
  split
  · exact hstart.of_gauge (gauge_addtoControlList _)
  · have hpayload := hstart.receivePayload env seg
    have hack : Later t c.gauge (processACK env seg (receivePayload env seg c)) := by
      have hlater := (h.receivePayload hs).processACK hpayload.state
      exact ⟨hlater.late, hlater.state, hpayload.adjusts.trans hlater.adjusts⟩
    simp only
    split_ifs
    · exact hfin hack
    · exact hfin hpayload
    · exact hack
    · exact hpayload

theorem handleCloseWait_later : Later t c.gauge (handleCloseWait env seg c) := by
  unfold handleCloseWait
  split
  · exact (h.start hs).of_gauge (gauge_addtoControlList c)
  · exact h.processACK hs

theorem handleLastAck_later : Later t c.gauge (handleLastAck env seg c) := by
  have hstart := h.start hs
  have hack := h.processACK hs
  unfold handleLastAck
  simp only
  generalize processACK env seg c = d at hack ⊢
  split_ifs
  · exact hstart
  · exact hack
  · have htimer := hack.timer (gauge_updateRetransmissionTimer env { d with sndUna := d.sndUna + 1 })
    generalize updateRetransmissionTimer env _ = e at htimer ⊢
    exact htimer.move (.inl rfl) (gauge_destroyTCPStream _ _)
  · exact hack.of_gauge (gauge_addtoControlList d)
  · exact hstart.of_gauge (gauge_addtoControlList c)

theorem handleFinWait1_later : Later t c.gauge (handleFinWait1 env seg c) := by
  have hacked : ∀ {d : Conn}, Later t c.gauge d → Later t c.gauge (finAcked seg d) := by
    intro d hd
    unfold finAcked
    split
    · simp only
      generalize hrise : (if tcpSeqGt seg.ackSeq d.sndNxt then
        { d with sndUna := seg.ackSeq, sndNxt := seg.ackSeq }
        else { d with sndUna := seg.ackSeq }) = e
      have hgauge : e.gauge = d.gauge := by
        rw [← hrise]
        split <;> rfl
      have hsettled := hd.settle (e := removeFromRTOList { e with nrtx := 0 }) (by
        rw [gauge_removeFromRTOList, ← hgauge]
        rfl)
      exact hsettled.move (s := .finWait2) (.inr (by decide)) rfl
    · exact hd
  have hclosing : ∀ {d : Conn}, Later t c.gauge d → Later t c.gauge (finClosing env seg d) := by
    intro d hd
    unfold finClosing
    simp only
    split_ifs
    · exact hd.move (s := .closing) (.inr (by decide)) (gauge_addtoControlList _)
    · refine hd.move (s := .timeWait) (.inr (by decide)) ?_
      rw [gauge_addtoControlList, gauge_addtoTimewaitList]
      rfl
    · exact hd.of_gauge (gauge_addtoControlList _)
    · exact hd
  have hstart := h.start hs
  have hpayload := (hacked (h.processACK hs)).receivePayload env seg
  unfold handleFinWait1
  simp only
  split_ifs
  · exact hstart.of_gauge (gauge_addtoControlList c)
  · exact hclosing hpayload
  · exact hpayload
  · exact hstart

theorem handleFinWait2_later : Later t c.gauge (handleFinWait2 env seg c) := by
  have hpayload := (h.processACK hs).receivePayload env seg
  unfold handleFinWait2
  simp only
  split_ifs
  · refine hpayload.move (s := .timeWait) (.inr (by decide)) ?_
    rw [gauge_addtoControlList, gauge_addtoTimewaitList]
    rfl
  · exact hpayload
  · exact hpayload
  · exact h.start hs

theorem handleClosing_later : Later t c.gauge (handleClosing env seg c) := by
  have hack := h.processACK hs
  unfold handleClosing
  simp only
  generalize processACK env seg c = d at hack ⊢
  split_ifs
  · exact hack
  · exact hack
  · have htimer := hack.timer (gauge_updateRetransmissionTimer env
      { d with sndUna := seg.ackSeq, sndNxt := seg.ackSeq })
    generalize updateRetransmissionTimer env _ = e at htimer ⊢
    refine htimer.move (s := .timeWait) (.inr (by decide)) ?_
    rw [gauge_addtoTimewaitList]
    rfl
  · exact h.start hs

end

/-! ## The options -/

/-- What the stream holds after the options of the segment. -/
def negotiated (seg : Segment) (c : Conn) : Agreed :=
  ((parseTCPOptions 0 seg.opt seg.optLen c).getD c).agreed

section

variable {curTs ts : U32} {opt : ℕ → U8} {len fuel i : ℕ}

theorem gauge_applyOption (kind : U8) (optlen j : ℕ) (c : Conn) :
    (applyOption curTs opt kind optlen j c).1.gauge =
      { c.gauge with
        mss := (applyOption curTs opt kind optlen j c).1.mss
        effMss := (applyOption curTs opt kind optlen j c).1.effMss
        wscalePeer := (applyOption curTs opt kind optlen j c).1.wscalePeer
        sawTimestamp := (applyOption curTs opt kind optlen j c).1.sawTimestamp } := by
  unfold applyOption
  split_ifs <;> rfl

theorem gauge_parseOptionsFrom (h : parseOptionsFrom curTs opt len fuel i c = some d) :
    d.gauge =
      { c.gauge with
        mss := d.mss, effMss := d.effMss, wscalePeer := d.wscalePeer
        sawTimestamp := d.sawTimestamp } := by
  induction fuel generalizing i c with
  | zero => cases h
  | succ fuel ih =>
      unfold parseOptionsFrom at h
      simp only at h
      split_ifs at h
      · cases h
        rfl
      · exact ih h
      · cases h
        rfl
      · rw [ih h, gauge_applyOption]
      · cases h
        rfl

/-- The options overwrite what they set, and read nothing of the stream. -/
theorem agreed_parseOptionsFrom (h : d.agreed = c.agreed) :
    (parseOptionsFrom ts opt len fuel i d).map Conn.agreed =
      (parseOptionsFrom curTs opt len fuel i c).map Conn.agreed := by
  have happly : ∀ (kind : U8) (optlen j : ℕ) {c d : Conn}, d.agreed = c.agreed →
      (applyOption ts opt kind optlen j d).1.agreed =
        (applyOption curTs opt kind optlen j c).1.agreed ∧
      (applyOption ts opt kind optlen j d).2 = (applyOption curTs opt kind optlen j c).2 := by
    intro kind optlen j c d hcd
    obtain ⟨hmss, heff, hscale⟩ := Agreed.mk.inj hcd
    unfold applyOption
    split_ifs <;> simp [Conn.agreed, hmss, heff, hscale]
  induction fuel generalizing i c d with
  | zero => rfl
  | succ fuel ih =>
      unfold parseOptionsFrom
      simp only
      split_ifs
      · simp [h]
      · exact ih h
      · simp [h]
      · obtain ⟨hagreed, hnext⟩ := happly (opt i) (opt (i + 1)).toNat (i + 2) h
        rw [hnext]
        exact ih hagreed
      · simp [h]

theorem negotiated_eq (ts : U32) (seg : Segment) (h : d.agreed = c.agreed) :
    ((parseTCPOptions ts seg.opt seg.optLen d).getD d).agreed = negotiated seg c := by
  have hmap : (parseTCPOptions ts seg.opt seg.optLen d).map Conn.agreed =
      (parseTCPOptions 0 seg.opt seg.optLen c).map Conn.agreed := agreed_parseOptionsFrom h
  unfold negotiated
  generalize parseTCPOptions ts seg.opt seg.optLen d = r at hmap ⊢
  generalize parseTCPOptions 0 seg.opt seg.optLen c = r' at hmap ⊢
  cases r <;> cases r' <;> simp_all

/-- The stream behind the option parser, which goes on as it was if the parser does not end. -/
theorem gauge_negotiated (curTs : U32) (seg : Segment) (h : d.agreed = c.agreed) :
    ((parseTCPOptions curTs seg.opt seg.optLen d).getD d).gauge =
      { d.gauge with
        mss := (negotiated seg c).mss
        effMss := (negotiated seg c).effMss
        wscalePeer := (negotiated seg c).wscale
        sawTimestamp := ((parseTCPOptions curTs seg.opt seg.optLen d).getD d).sawTimestamp } := by
  rw [← negotiated_eq curTs seg h]
  cases hparse : parseTCPOptions curTs seg.opt seg.optLen d with
  | none => rfl
  | some e => exact gauge_parseOptionsFrom hparse

end

/-! ## The handshake -/

theorem gauge_openWindows (e : Conn) :
    (updateRetransmissionTimer env
      { e with
        cwnd := if e.cwnd = 1 then e.mss.setWidth 32 * 2 else e.mss.setWidth 32
        ssthresh := e.mss.setWidth 32 * 10 }).gauge =
      e.gauge.openWindows.timer :=
  gauge_updateRetransmissionTimer env _

theorem gauge_handleActiveOpen (env : Env) (seg : Segment) (h : c.agreed = d.agreed) :
    ∃ saw, { (handleActiveOpen env seg c).gauge with nrtx := 0, state := .established } =
      c.gauge.open (negotiated seg d) saw (seg.window.setWidth 32) (seg.seq - 1) seg.ackSeq := by
  unfold handleActiveOpen
  have hoptions := gauge_negotiated (c := d)
    (d := { c with
      irs := seg.seq
      sndNxt := seg.ackSeq
      peerWnd := seg.window.setWidth 32
      sndWl1 := seg.seq - 1
      rcvNxt := seg.seq + 1
      lastAckSeq := seg.ackSeq }) env.curTs seg h
  simp only [gauge_openWindows] at hoptions ⊢
  cases hparse : parseTCPOptions env.curTs seg.opt seg.optLen _ with
  | none =>
    rw [hparse] at hoptions
    simp only [Option.getD_none] at hoptions
    exact ⟨c.sawTimestamp, by rw [gauge_fault _ rfl, hoptions]; rfl⟩
  | some e =>
    rw [hparse] at hoptions
    simp only [Option.getD_some] at hoptions
    exact ⟨e.sawTimestamp, by rw [hoptions]; rfl⟩

theorem gauge_completeActiveOpen (env : Env) (seg : Segment) (c : Conn) :
    (completeActiveOpen env seg c).gauge =
      { (handleActiveOpen env seg c).gauge with nrtx := 0, state := .established } := by
  unfold completeActiveOpen
  simp only
  generalize handleActiveOpen env seg c = d
  have hoff : (removeFromRTOList { d with nrtx := 0, rcvNxt := d.irs + 1 }).gauge =
      { d.gauge with nrtx := 0 } := gauge_removeFromRTOList _
  generalize removeFromRTOList { d with nrtx := 0, rcvNxt := d.irs + 1 } = e at hoff ⊢
  have hopen : Conn.gauge { e with state := .established } =
      { d.gauge with nrtx := 0, state := .established } :=
    congrArg (fun g : Gauge => { g with state := .established }) hoff
  have hwatch : ∀ e : Conn, (if 0 < env.cfg.tcpTimeout then addtoTimeoutList e else e).gauge =
      e.gauge := by
    intro e
    split <;> simp
  split
  · rw [hwatch, gauge_addtoControlList, raiseWriteEvent, gauge_raiseEvent]
    exact hopen
  · rw [gauge_destroyTCPStream]
    exact (gauge_act { e with state := .established } rfl).trans hopen

theorem handleSynSent_adjusts (hs : c.state = .synSent)
    (hhalf : seg.rst = true ∧ c.core.acceptable seg ∨
      seg.rst = false ∧ seg.syn = true ∧ seg.ack = false → t.half)
    (hfit : seg.rst = false → seg.syn = true → seg.ack = true → t.fit (negotiated seg c)) :
    Adjusts t c.gauge (handleSynSent env seg c).gauge := by
  unfold handleSynSent
  split
  · split
    · exact .refl
    · rw [gauge_act c rfl]
  · next haccept =>
      have hsame : (if seg.ack then { c with sndUna := c.sndUna + 1 } else c).gauge = c.gauge ∧
          (if seg.ack then { c with sndUna := c.sndUna + 1 } else c).agreed = c.agreed := by
        split <;> exact ⟨rfl, rfl⟩
      simp only
      generalize (if seg.ack then { c with sndUna := c.sndUna + 1 } else c) = d at hsame ⊢
      obtain ⟨hgauge, hagreed⟩ := hsame
      rw [← hgauge]
      have hd : d.gauge.state = .synSent := (congrArg (·.state) hgauge).trans hs
      split_ifs with hrst hack hsyn hack
      · have hok : c.core.acceptable seg := ⟨hack, not_or.mp fun hbad => haccept ⟨hack, hbad⟩⟩
        rw [gauge_notifyOrDestroy]
        exact .single (.refused (hhalf (.inl ⟨hrst, hok⟩)) hd)
      · exact .refl
      · obtain ⟨saw, hopen⟩ := gauge_handleActiveOpen env seg hagreed
        rw [gauge_completeActiveOpen, hopen]
        exact .single (.opened saw _ _ _ (hfit (Bool.eq_false_of_not_eq_true hrst) hsyn hack) hd)
      · rw [gauge_addtoControlList]
        have hcrossed := hhalf
          (.inr ⟨Bool.eq_false_of_not_eq_true hrst, hsyn, Bool.eq_false_of_not_eq_true hack⟩)
        exact .single (.crossed hcrossed hd)
      · exact .refl

/-- The ACK of the SYN/ACK opens the stream; a full listener closes it again. -/
theorem handleSynRcvd_gauge (env : Env) (seg : Segment) (c : Conn) :
    (handleSynRcvd env seg c).sndbuf = c.sndbuf ∧
      ((handleSynRcvd env seg c).gauge = c.gauge ∨ ∃ s, (s = .established ∨ s = .closed) ∧
        (handleSynRcvd env seg c).gauge =
          { c.gauge with cwnd := c.gauge.firstCwnd, nrtx := 0, state := s }) := by
  have hwatch : ∀ e : Conn, (if 0 < env.cfg.tcpTimeout then addtoTimeoutList e else e).gauge =
      e.gauge ∧ (if 0 < env.cfg.tcpTimeout then addtoTimeoutList e else e).sndbuf = e.sndbuf := by
    intro e
    unfold addtoTimeoutList
    split_ifs
    · exact ⟨gauge_fault e rfl, rfl⟩
    · exact ⟨rfl, rfl⟩
    · exact ⟨rfl, rfl⟩
  have hcontrol : ∀ e : Conn, (addtoControlList e).sndbuf = e.sndbuf := by
    intro e
    unfold addtoControlList
    split <;> rfl
  have hoffer : ∀ e : Conn, (offerToListener env e).sndbuf = e.sndbuf ∧
      ∃ s, (s = e.state ∨ s = .closed) ∧
        (offerToListener env e).gauge = { e.gauge with state := s } := by
    intro e
    unfold offerToListener
    split
    · exact ⟨rfl, e.state, .inl rfl, gauge_fault e rfl⟩
    · simp only [hwatch, hcontrol, gauge_addtoControlList]
      exact ⟨trivial, .closed, .inr rfl, rfl⟩
    · simp only [hwatch]
      exact ⟨trivial, e.state, .inl rfl, rfl⟩
  unfold handleSynRcvd
  split
  · split
    · exact ⟨rfl, .inl rfl⟩
    · simp only
      generalize hopen : ({ c with
        sndUna := c.sndUna + 1
        sndNxt := seg.ackSeq
        cwnd := if c.cwnd = 1 then c.mss.setWidth 32 * 2 else c.mss.setWidth 32
        nrtx := 0
        rcvNxt := c.irs + 1 } : Conn) = d
      have hd : d.gauge = { c.gauge with cwnd := c.gauge.firstCwnd, nrtx := 0 } ∧
          d.sndbuf = c.sndbuf := by
        rw [← hopen]
        exact ⟨rfl, rfl⟩
      have hoff : (removeFromRTOList d).gauge = d.gauge ∧ (removeFromRTOList d).sndbuf = d.sndbuf := by
        refine ⟨gauge_removeFromRTOList d, ?_⟩
        unfold removeFromRTOList
        split <;> rfl
      generalize removeFromRTOList d = e at hoff ⊢
      obtain ⟨hbuf, s, hs, hgauge⟩ := hoffer { e with state := .established }
      refine ⟨hbuf.trans (hoff.2.trans hd.2), .inr ⟨s, hs, hgauge.trans ?_⟩⟩
      have he := hoff.1.trans hd.1
      exact congrArg (fun g : Gauge => { g with state := s }) he
  · exact ⟨hcontrol _, .inl (gauge_addtoControlList _)⟩

/-- The segment that opens the stream may carry its first data. -/
theorem synRcvd_adjusts (hs : c.state = .synRcvd) (h : Acking t env seg c) :
    Adjusts t c.gauge
      (if 0 < seg.payload.length ∧ (handleSynRcvd env seg c).state = .established then
        handleEstablished env seg (handleSynRcvd env seg c)
      else handleSynRcvd env seg c).gauge := by
  obtain ⟨hbuf, hgauge⟩ := handleSynRcvd_gauge env seg c
  generalize handleSynRcvd env seg c = d at hbuf hgauge ⊢
  obtain hgauge | ⟨s, hopen, hgauge⟩ := hgauge
  · have hstate : d.state = .synRcvd := (congrArg (·.state) hgauge).trans hs
    rw [if_neg (by simp [hstate]), hgauge]
  · have hstate : d.state = s := congrArg (·.state) hgauge
    have haccepted : Adjusts t c.gauge
        { c.gauge with cwnd := c.gauge.firstCwnd, nrtx := 0, state := .established } :=
      .single (.accepted hs)
    obtain rfl | rfl := hopen
    · split
      · have hack : Acking t env seg d :=
          h.congr hbuf (by simp only [adjustAck, hstate, hs]) (congrArg (·.sawTimestamp) hgauge)
            (congrArg (·.tsLastackRcvd) hgauge)
        have hlater := handleEstablished_later hack hstate
        rw [hgauge] at hlater
        exact haccepted.trans hlater.adjusts
      · rw [hgauge]
        exact haccepted
    · rw [if_neg (by simp [hstate]), hgauge]
      exact haccepted.tail (.drift (.inr (.inl rfl)))

/-! ## Segments -/

/-- The terms cover a segment that has been admitted. -/
structure Terms.Covers (t : Terms) (env : Env) (seg : Segment) (c : Conn) : Prop where
  half : c.state = .synSent → (seg.rst = true ∧ c.core.acceptable seg ∨
    seg.rst = false ∧ seg.syn = true ∧ seg.ack = false) → t.half
  fit : c.state = .synSent → seg.rst = false → seg.syn = true → seg.ack = true →
    t.fit (negotiated seg c)
  acking : c.state ≠ .synSent → c.state ≠ .closed → Acking t env seg c

theorem handleState_adjusts (h : t.Covers env seg c) :
    Adjusts t c.gauge (handleState env seg c).gauge := by
  have hlisten : c.state = .listen ∨ c.state = .synRcvd →
      Adjusts t c.gauge (handleListen seg c).gauge := by
    intro hs
    have hfirst : (if c.state = .listen then { c with rcvNxt := c.rcvNxt + 1 } else c).gauge =
        c.gauge := by
      split <;> rfl
    unfold handleListen
    simp only
    split
    · rw [gauge_addtoControlList]
      generalize (if c.state = .listen then { c with rcvNxt := c.rcvNxt + 1 } else c) = d at hfirst ⊢
      change Adjusts t c.gauge { d.gauge with state := .synRcvd }
      rw [hfirst]
      exact .single (.listened hs)
    · exact .refl
  have hlate : TcpState.established.code ≤ c.state.code → Acking t env seg c ∧ c.state.late := by
    intro hcode
    refine ⟨h.acking (fun hs => ?_) (fun hs => ?_), .inr hcode⟩ <;>
    · rw [hs] at hcode
      exact absurd hcode (by decide)
  unfold handleState
  split
  case h_1 hs => exact hlisten (.inl hs)
  case h_2 hs => exact handleSynSent_adjusts hs (h.half hs) (h.fit hs)
  case h_3 hs =>
    split
    · exact hlisten (.inr hs)
    · refine synRcvd_adjusts hs (h.acking ?_ ?_) <;> simp [hs]
  case h_4 hs => exact (handleEstablished_later (hlate (by rw [hs])).1 hs).adjusts
  case h_5 hs =>
    obtain ⟨hack, hstate⟩ := hlate (by rw [hs]; decide)
    exact (handleCloseWait_later hack hstate).adjusts
  case h_6 hs =>
    obtain ⟨hack, hstate⟩ := hlate (by rw [hs]; decide)
    exact (handleLastAck_later hack hstate).adjusts
  case h_7 hs =>
    obtain ⟨hack, hstate⟩ := hlate (by rw [hs]; decide)
    exact (handleFinWait1_later hack hstate).adjusts
  case h_8 hs =>
    obtain ⟨hack, hstate⟩ := hlate (by rw [hs]; decide)
    exact (handleFinWait2_later hack hstate).adjusts
  case h_9 hs =>
    obtain ⟨hack, hstate⟩ := hlate (by rw [hs]; decide)
    exact (handleClosing_later hack hstate).adjusts
  case h_10 =>
    have htime : (handleTimeWait env c).gauge = c.gauge := by
      unfold handleTimeWait
      rw [gauge_addtoControlList]
      split <;> simp
    rw [htime]
  case h_11 => exact .refl

theorem processRST_left {ackSeq : U32} (h : (processRST env ackSeq c).2 = false) :
    c.state.code ≤ TcpState.synSent.code := by
  unfold processRST at h
  split at h
  case h_1 hs | h_2 hs | h_3 hs => simp [hs, TcpState.code]
  all_goals first
    | (split at h <;> cases h)
    | cases h

theorem adjustAck_congr (hstate : d.state = c.state) (hfin : d.isFinSent = c.isFinSent)
    (hfss : d.fss = c.fss) (ackSeq : U32) : adjustAck ackSeq d = adjustAck ackSeq c := by
  unfold adjustAck
  rw [hstate, hfin, hfss]

theorem Terms.Covers.congr {r : Bool} (h : t.Covers env seg c)
    (hcore : d.core = { c.core with haveReset := r }) (hagreed : d.agreed = c.agreed)
    (hsaw : d.sawTimestamp = c.sawTimestamp) (hts : d.tsLastackRcvd = c.tsLastackRcvd) :
    t.Covers env seg d := by
  have hstate : d.state = c.state := congrArg (·.state) hcore
  have hiss : d.iss = c.iss := congrArg (·.iss) hcore
  have hnxt : d.sndNxt = c.sndNxt := congrArg (·.sndNxt) hcore
  have hacceptable : d.core.acceptable seg = c.core.acceptable seg := by
    change (_ ∧ ¬ tcpSeqLeq _ d.iss ∧ ¬ tcpSeqGt _ d.sndNxt) = _
    rw [hiss, hnxt]
    rfl
  refine ⟨?_, ?_, ?_⟩
  · rw [hstate, hacceptable]
    exact h.half
  · rw [hstate, show negotiated seg d = negotiated seg c from negotiated_eq 0 seg hagreed]
    exact h.fit
  · rw [hstate]
    intro hsent hclosed
    exact (h.acking hsent hclosed).congr (congrArg (·.sndbuf) hcore)
      (adjustAck_congr hstate (congrArg (·.isFinSent) hcore) (congrArg (·.fss) hcore) seg.ackSeq)
      hsaw hts

theorem dispatchSegment_adjusts (h : t.Covers env seg c) :
    Adjusts t c.gauge (dispatchSegment env seg c).gauge := by
  have hentry := gauge_admitSegment env seg c
  have hcovers : t.Covers env seg (admitSegment env seg c) := by
    refine h.congr (core_admitSegment env seg c) ?_ (congrArg (·.sawTimestamp) hentry)
      (congrArg (·.tsLastackRcvd) hentry)
    exact congrArg (fun g : Gauge => Agreed.mk g.mss g.effMss g.wscalePeer) hentry
  have hwindow : Adjusts t c.gauge (admitSegment env seg c).gauge := by
    rw [hentry]
    exact .single (.window _ c.sndWl1 c.sndWl2)
  unfold dispatchSegment
  simp only
  generalize admitSegment env seg c = d at hcovers hwindow ⊢
  refine hwindow.trans ?_
  split
  · next hrst =>
      have hdrifts := processRST_drifts env seg.ackSeq d
      split
      · exact Adjusts.of_drifts hdrifts
      · next hleft =>
          have hcode := processRST_left (by simpa using hleft)
          omega
  · exact handleState_adjusts hcovers

/-- A refused segment may still have left its timestamp. -/
theorem validateSequence_refused (h : (validateSequence env seg c).2 = false) :
    ∃ ts, (validateSequence env seg c).1.gauge = { c.gauge with tsLastackRcvd := ts } := by
  have hstamp : ∃ ts, (checkTimestamp env seg c).1.gauge = { c.gauge with tsLastackRcvd := ts } := by
    have hout := checkTimestamp_outcome env seg c
    generalize checkTimestamp env seg c = r at hout ⊢
    cases hout with
    | unused | missing => exact ⟨c.tsLastackRcvd, rfl⟩
    | looped => exact ⟨c.tsLastackRcvd, gauge_fault c rfl⟩
    | stale => exact ⟨c.tsLastackRcvd, gauge_enqueueACK _ c⟩
    | taken _ recent rcvd upd => exact ⟨rcvd, rfl⟩
  have hrefuse : ∀ d : Conn, (refuseSequence env seg d).gauge = d.gauge := by
    intro d
    have hout := refuseSequence_outcome env seg d
    generalize refuseSequence env seg d = e at hout ⊢
    cases hout <;> simp
  have hout := validateSequence_outcome env seg c
  generalize validateSequence env seg c = r at hout h ⊢
  cases hout with
  | accepted => cases h
  | outside hd =>
    rw [hd] at hstamp
    rwa [hrefuse]
  | unchecked hd => rwa [hd] at hstamp

/-- The stream a segment is given to, if it is valid. -/
def dispatched (env : Env) (seg : Segment) (c : Conn) : Option Conn :=
  if TcpState.synRcvd.code < c.state.code then
    if (validateSequence env seg c).2 then some (validateSequence env seg c).1 else none
  else some c

theorem dispatched_eq (h : dispatched env seg c = some d) :
    ∃ recent rcvd upd, d = { c with tsRecent := recent, tsLastackRcvd := rcvd, tsLastTsUpd := upd } := by
  unfold dispatched at h
  split_ifs at h with _ hok
  · cases h
    exact validateSequence_accepted hok
  · cases h
    exact ⟨c.tsRecent, c.tsLastackRcvd, c.tsLastTsUpd, rfl⟩

theorem processTCPPacket_adjusts (h : ∀ d, dispatched env seg c = some d → t.Covers env seg d) :
    Adjusts t c.gauge (processTCPPacket env seg c).gauge := by
  unfold dispatched at h
  unfold processTCPPacket
  split
  · next hopen =>
      rw [if_pos hopen] at h
      simp only
      split
      · next hok =>
          obtain ⟨recent, rcvd, upd, hvalid⟩ := validateSequence_accepted hok
          rw [if_pos hok] at h
          refine .head (b := (validateSequence env seg c).1.gauge) ?_
            (dispatchSegment_adjusts (h _ rfl))
          rw [hvalid]
          exact .stamp rcvd
      · next hno =>
          obtain ⟨ts, hts⟩ := validateSequence_refused (Bool.eq_false_of_not_eq_true hno)
          rw [hts]
          exact .single (.stamp ts)
  · next hclosed =>
      rw [if_neg hclosed] at h
      exact dispatchSegment_adjusts (h c rfl)

/-! ## Timeouts and the other events -/

theorem gauge_backoffRTO (c : Conn) :
    (backoffRTO c).gauge = { c.gauge with rto := c.gauge.backoff } := by
  have hrto : (backoffRTO c).rto = c.gauge.backoff := by
    unfold backoffRTO Gauge.backoff
    change _ = if TcpState.established.code ≤ c.state.code then _ else
      if TcpState.synSent.code ≤ c.state.code ∧ c.nrtx.toNat < tcpMaxBackoff.toNat then _ else _
    split
    · rfl
    · split <;> rfl
  rw [← hrto]
  unfold backoffRTO
  simp only
  split_ifs <;> rfl

theorem gauge_expire (c : Conn) :
    (shrinkWindow (backoffRTO (countRtx c))).gauge = c.gauge.expire := by
  have hback := gauge_backoffRTO (countRtx c)
  generalize backoffRTO (countRtx c) = d at hback ⊢
  have hshrink : (shrinkWindow d).gauge = { d.gauge with
    ssthresh := d.gauge.lossThreshold, cwnd := BitVec.ofNat 32 d.gauge.mss.toNat } := rfl
  rw [hshrink, hback]
  rfl

theorem requeueRTO_gauge (c : Conn) : (requeueRTO c).gauge = c.gauge := by
  unfold requeueRTO
  split
  · simp
  · simp
  all_goals first
    | (split
       · rw [gauge_addtoSendList]
         exact gauge_removeFromControlList c
       · simp)
    | simp

theorem retransmitRTO_drifts (env : Env) (c : Conn) : Drifts c (retransmitRTO env c) := by
  unfold retransmitRTO
  split
  case h_1 =>
    split
    · exact .closing (gauge_notifyOrDestroy env _)
    · exact .of_gauge (requeueRTO_gauge _)
  case h_2 =>
    split
    · exact .of_gauge (gauge_destroyTCPStream _ c)
    · exact .of_gauge (requeueRTO_gauge _)
  all_goals first
    | exact .of_gauge (requeueRTO_gauge _)
    | exact .of_gauge (gauge_fault c rfl)

theorem giveUpRTO_drifts (env : Env) (c : Conn) : Drifts c (giveUpRTO env c) := by
  unfold giveUpRTO
  split
  · exact .closing (gauge_destroyTCPStream _ _)
  · exact .closing (gauge_notifyOrDestroy env _)

theorem handleRTO_adjusts (t : Terms) (env : Env) (c : Conn) :
    Adjusts t c.gauge (handleRTO env c).gauge := by
  have hchecked : (if (c.act .timedOut).rto = 0 then (c.act .timedOut).fault .rtoZero
      else c.act .timedOut).gauge = c.gauge.checkRto := by
    rw [gauge_checkRto, gauge_act c rfl]
  unfold handleRTO
  simp only
  generalize (if (c.act .timedOut).rto = 0 then (c.act .timedOut).fault .rtoZero
    else c.act .timedOut) = d at hchecked ⊢
  have hstart : Adjusts t c.gauge d.gauge := by
    rw [hchecked]
    exact .single .checked
  split
  · exact hstart
  · split
    · next hlt =>
        refine (hstart.tail (.expired hlt)).trans ?_
        rw [← gauge_expire]
        exact Adjusts.of_drifts (retransmitRTO_drifts env _)
    · exact hstart.trans (Adjusts.of_drifts (giveUpRTO_drifts env d))

theorem rtoListStep_adjusts (t : Terms) (env : Env) (slot : ℕ) (c : Conn) :
    Adjusts t c.gauge (rtoListStep env slot c).gauge := by
  unfold rtoListStep
  split
  · exact handleRTO_adjusts t env
      { c with
        rtoList := Function.update c.rtoList slot ((c.rtoList slot).erase c.sid)
        rtoListCnt := c.rtoListCnt - 1
        onRtoIdx := -1 }
  · exact .refl

/-- Every event is a sequence of adjustments. -/
theorem Event.adjusts {e : Event}
    (h : ∀ env seg d, e = .packet env seg → dispatched env seg c = some d → t.Covers env seg d) :
    Adjusts t c.gauge (e.apply c).gauge := by
  by_cases hquiet : e.quiet = true
  · exact Adjusts.of_drifts (Event.quiet_drifts hquiet)
  · cases e with
    | packet env seg => exact processTCPPacket_adjusts (h env seg · rfl)
    | rtoPass env => exact rtoListStep_adjusts t env _ c
    | _ => exact absurd rfl hquiet

/-! ## Runs -/

theorem handlePassiveOpen_adjusts (ht : t.late) (env : Env) (iss : U32) (sid : ℕ) (sh : Shared)
    (seg : Segment) :
    ∃ saw wnd wl1 lastAck, Adjusts t
      { (freshConn env.cfg iss none sid sh).gauge.agree
          (negotiated seg (freshConn env.cfg iss none sid sh)) saw wnd wl1 lastAck with cwnd := 1 }
      (handlePassiveOpen env iss sid sh seg).gauge := by
  have hpacket : ∀ {d : Conn}, d.state = .listen → d.sndbuf = none →
      Adjusts t d.gauge (processTCPPacket env seg d).gauge := by
    intro d hs hbuf
    refine processTCPPacket_adjusts fun e he => ?_
    rw [dispatched, if_neg (by simp [hs, TcpState.code])] at he
    cases he
    refine ⟨by simp [hs], by simp [hs], fun _ _ => ⟨ht, ?_, ?_⟩⟩ <;> simp [ackedBytes, hbuf]
  have hoptions := gauge_negotiated (c := freshConn env.cfg iss none sid sh)
    (d := { freshConn env.cfg iss none sid sh with
      irs := seg.seq, peerWnd := seg.window.setWidth 32, rcvNxt := seg.seq, cwnd := 1 })
    env.curTs seg rfl
  unfold handlePassiveOpen
  simp only
  cases hparse : parseTCPOptions env.curTs seg.opt seg.optLen _ with
  | none =>
    rw [hparse, Option.getD_none] at hoptions
    refine ⟨false, seg.window.setWidth 32, -1, 0, ?_⟩
    have hd := hpacket
      (d := Conn.fault { freshConn env.cfg iss none sid sh with
        irs := seg.seq, peerWnd := seg.window.setWidth 32, rcvNxt := seg.seq, cwnd := 1 }
        .optionLoop) rfl rfl
    rw [gauge_fault _ rfl, hoptions] at hd
    exact hd
  | some d =>
    rw [hparse, Option.getD_some] at hoptions
    refine ⟨d.sawTimestamp, seg.window.setWidth 32, -1, 0, ?_⟩
    have hcore := core_parseTCPOptions hparse
    have hd := hpacket (d := d) (congrArg (·.state) hcore) (congrArg (·.sndbuf) hcore)
    rw [hoptions] at hd
    exact hd

/-- The states of a stream whose opening options are in `fit` and whose events are all allowed by
`ok`. -/
inductive Paced (fit : Agreed → Bool) (ok : Conn → Event → Bool) : Conn → Prop
  | active (cfg : Config) (iss : U32) (socket : Socket) (sid : ℕ) (sh : Shared) (queued : Bool) :
      Paced fit ok (mtcpConnect cfg iss socket sid sh queued)
  | passive (env : Env) (iss : U32) (sid : ℕ) (sh : Shared) (seg : Segment)
      (hsyn : seg.syn = true) (hack : seg.ack = false)
      (hfit : fit (negotiated seg (freshConn env.cfg iss none sid sh)) = true) :
      Paced fit ok (handlePassiveOpen env iss sid sh seg)
  | step {c : Conn} {e : Event} (hpaced : Paced fit ok c) (henabled : e.enabled c = true)
      (hok : ok c e = true) : Paced fit ok (e.apply c)

/-- The events can happen one after the other, and each is allowed by `ok`. -/
def Event.pacedBy (ok : Conn → Event → Bool) : Conn → List Event → Bool
  | _, [] => true
  | c, e :: es => e.enabled c && ok c e && pacedBy ok (e.apply c) es

theorem Paced.run {fit : Agreed → Bool} {ok : Conn → Event → Bool} {es : List Event}
    (hpaced : Paced fit ok c) (hes : Event.pacedBy ok c es = true) :
    Paced fit ok (es.foldl Event.apply c) := by
  induction es generalizing c with
  | nil => exact hpaced
  | cons e es ih =>
      simp only [Event.pacedBy, Bool.and_eq_true] at hes
      exact ih (hpaced.step hes.1.1 hes.1.2) hes.2

/-! ### A short exchange -/

/-- A SYN/ACK with the given options, three bytes, and their acknowledgement. -/
def exchange (opt ackOpt : List U8) : List Event :=
  [.connectq, .controlPass quietEnv [true],
    .packet quietEnv ({ plainSegment with syn := true, ack := true }.withOptions opt),
    .controlPass quietEnv [true], .write quietEnv [1, 2, 3], .sendq, .dataPass quietEnv [true],
    .packet quietEnv
      ({ plainSegment with seq := 501, ack := true, ackSeq := 104 }.withOptions ackOpt)]

end MtcpStack
