import Mathlib.Logic.Relation
import MtcpStack.Verification.Gauge

/-! # What changes the gauges

Every change of the gauges is one of a few adjustments: a duplicate or an acknowledgement of new
data, a timeout, or the end of the handshake. -/

namespace MtcpStack

open Relation

/-! ## Adjustments -/

namespace Gauge

variable (g : Gauge)

def fault (f : Fault) : Gauge := { g with faults := g.faults ++ [.fault f] }

/-- The assertion that the timeout is positive. -/
def checkRto : Gauge := if g.rto = 0 then g.fault .rtoZero else g

/-- `UpdateRetransmissionTimer`. -/
def timer : Gauge := { g.checkRto with nrtx := 0 }

/-- The new slow start threshold after a loss. -/
def lossThreshold : U32 :=
  let half := BitVec.ofNat 32 (min g.cwnd.toNat g.peerWnd.toNat / 2)
  if half.toNat < 2 * g.mss.toNat then BitVec.ofNat 32 (2 * g.mss.toNat) else half

/-- Fast retransmission. -/
def rewind : Gauge :=
  { g with
    ssthresh := g.lossThreshold
    cwnd := g.lossThreshold + BitVec.ofNat 32 (3 * g.mss.toNat)
    nrtx := if g.nrtx.toNat < tcpMaxRtx.toNat then g.nrtx + 1 else g.nrtx }

/-- The congestion window grows by a segment. -/
def inflate : Gauge :=
  let cwnd := g.cwnd + BitVec.ofNat 32 g.mss.toNat
  if g.cwnd.toNat < cwnd.toNat then { g with cwnd } else g

/-- The duplicate count, with what it sets off. -/
def countDup (dup : Bool) (ackSeq : U32) : Gauge :=
  let g :=
    if dup then { g with dupAcks := g.dupAcks + 1 } else { g with dupAcks := 0, lastAckSeq := ackSeq }
  if dup ∧ g.dupAcks = 3 then g.rewind else if 3 < g.dupAcks.toNat then g.inflate else g

/-- A measurement of the round trip. -/
def measure (mrtt : U32) (passed : Bool) : Gauge :=
  checkRto { g with rtt := g.rtt.next mrtt passed, rto := (g.rtt.next mrtt passed).timeout }

/-- Slow start and congestion avoidance. -/
def grow (packets : U16) : Gauge :=
  let mss : U32 := g.mss.setWidth 32
  let n : U32 := packets.setWidth 32
  if g.state.code < TcpState.established.code then g
  else if g.cwnd.toNat < g.ssthresh.toNat then
    if g.cwnd.toNat < (g.cwnd + mss).toNat then { g with cwnd := g.cwnd + mss * n } else g
  else
    let g := if g.cwnd = 0 then g.fault .divByZero else g
    let cwnd := g.cwnd + n * mss * mss / g.cwnd
    if g.cwnd.toNat < cwnd.toNat then { g with cwnd } else g

/-- The number of segments that `rmlen` bytes are counted as. -/
def packets (rmlen : ℕ) : U16 :=
  let n := BitVec.ofNat 16 (rmlen / g.effMss.toNat)
  if rmlen < rmlen / g.effMss.toNat * g.effMss.toNat then n + 1 else n

/-- An acknowledgement of `rmlen` new bytes. -/
def acked (rmlen : ℕ) (mrtt : U32) (passed : Bool) : Gauge :=
  let g := if g.effMss = 0 then g.fault .divByZero else g
  (if g.sawTimestamp then g.measure mrtt passed else g).grow (g.packets rmlen)

/-- The next timeout: from the measured round trip once there is one, doubled before that. -/
def backoff : U32 :=
  if TcpState.established.code ≤ g.state.code then
    let rto := g.rtt.timeout <<< min g.nrtx.toNat tcpMaxBackoff.toNat
    if rto = 0 then g.rto else rto
  else if TcpState.synSent.code ≤ g.state.code ∧ g.nrtx.toNat < tcpMaxBackoff.toNat then g.rto <<< 1
  else g.rto

/-- A retransmission timeout after which the stream is tried again. -/
def expire : Gauge :=
  let g := { g with nrtx := g.nrtx + 1 }
  { g with rto := g.backoff, ssthresh := g.lossThreshold, cwnd := BitVec.ofNat 32 g.mss.toNat }

/-- The congestion window of a stream that has just been opened. -/
def firstCwnd : U32 :=
  if g.cwnd = 1 then g.mss.setWidth 32 * 2 else g.mss.setWidth 32

end Gauge

/-! ## The functions as adjustments -/

section

variable (env : Env) (seg : Segment) (c : Conn)

theorem gauge_checkRto : (if c.rto = 0 then c.fault .rtoZero else c).gauge = c.gauge.checkRto := by
  unfold Gauge.checkRto
  change _ = if c.rto = 0 then _ else _
  split
  · exact gauge_fault_arith c rfl
  · rfl

@[simp] theorem gauge_updateRetransmissionTimer :
    (updateRetransmissionTimer env c).gauge = c.gauge.timer := by
  have hcheck := gauge_checkRto c
  unfold updateRetransmissionTimer
  simp only
  generalize (if c.rto = 0 then c.fault .rtoZero else c) = d at hcheck ⊢
  have hoff : (removeFromRTOList { d with nrtx := 0 }).gauge = c.gauge.timer := by
    rw [gauge_removeFromRTOList, Gauge.timer, ← hcheck]
    rfl
  generalize removeFromRTOList { d with nrtx := 0 } = e at hoff ⊢
  split
  · rw [gauge_addtoRTOList]
    exact hoff
  · exact hoff

theorem gauge_fastRetransmit (ackSeq : U32) :
    (fastRetransmit ackSeq c).gauge = c.gauge.rewind := by
  unfold fastRetransmit
  rw [gauge_addtoSendList]
  have hback : (if tcpSeqLt ackSeq c.sndNxt then { c with sndNxt := ackSeq } else c).gauge =
      c.gauge := by
    split <;> rfl
  simp only [← hback]
  generalize (if tcpSeqLt ackSeq c.sndNxt then { c with sndNxt := ackSeq } else c) = d
  by_cases hlt : d.nrtx.toNat < tcpMaxRtx.toNat
  · simp only [if_pos hlt, Gauge.rewind, show d.gauge.nrtx = d.nrtx from rfl]
    rfl
  · simp only [if_neg hlt, Gauge.rewind, show d.gauge.nrtx = d.nrtx from rfl]
    rfl

theorem gauge_inflateCwnd : (inflateCwnd c).gauge = c.gauge.inflate := by
  unfold inflateCwnd Gauge.inflate
  simp only
  change _ = if c.cwnd.toNat < (c.cwnd + BitVec.ofNat 32 c.mss.toNat).toNat then _ else _
  split <;> rfl

@[simp] theorem gauge_dupAckStage (dup : Bool) (ackSeq : U32) :
    (dupAckStage dup ackSeq c).gauge = c.gauge.countDup dup ackSeq := by
  have hcount : (countDupAck dup ackSeq c).gauge =
      if dup then { c.gauge with dupAcks := c.gauge.dupAcks + 1 }
      else { c.gauge with dupAcks := 0, lastAckSeq := ackSeq } := by
    unfold countDupAck
    split <;> rfl
  unfold dupAckStage Gauge.countDup
  simp only [← hcount]
  generalize countDupAck dup ackSeq c = d
  change _ = if dup = true ∧ d.dupAcks = 3 then _ else if 3 < d.dupAcks.toNat then _ else _
  split_ifs
  · exact gauge_fastRetransmit d ackSeq
  · exact gauge_inflateCwnd d
  · rfl

theorem gauge_updateWindow (ackSeq : U32) :
    ∃ wnd wl1 wl2, (updateWindow seg ackSeq c).gauge =
      { c.gauge with peerWnd := wnd, sndWl1 := wl1, sndWl2 := wl2 } := by
  unfold updateWindow
  simp only [raiseWriteEvent]
  split_ifs
  · rw [gauge_raiseEvent]
    exact ⟨scaledWindow seg c, seg.seq, ackSeq, rfl⟩
  · exact ⟨scaledWindow seg c, seg.seq, ackSeq, rfl⟩
  · exact ⟨c.peerWnd, c.sndWl1, c.sndWl2, rfl⟩

@[simp] theorem gauge_recoverSndNxt (b : SendBuffer) (ackSeq : U32) :
    (recoverSndNxt b ackSeq c).gauge = c.gauge := by
  unfold recoverSndNxt
  simp only
  split_ifs
  · exact gauge_removeFromSendList { c with sndNxt := ackSeq }
  · rfl
  · rfl

theorem gauge_growCwnd (packets : U16) : (growCwnd packets c).gauge = c.gauge.grow packets := by
  have hzero : (if c.cwnd = 0 then c.fault .divByZero else c).gauge =
      if c.gauge.cwnd = 0 then c.gauge.fault .divByZero else c.gauge := by
    change _ = if c.cwnd = 0 then _ else _
    split
    · exact gauge_fault_arith c rfl
    · rfl
  unfold growCwnd Gauge.grow
  simp only [← hzero]
  generalize (if c.cwnd = 0 then c.fault .divByZero else c) = d
  change _ = if c.state.code < TcpState.established.code then _ else
    if c.cwnd.toNat < c.ssthresh.toNat then
      if c.cwnd.toNat < (c.cwnd + c.mss.setWidth 32).toNat then _ else _
    else if d.cwnd.toNat < (d.cwnd + packets.setWidth 32 * c.mss.setWidth 32 * c.mss.setWidth 32 /
      d.cwnd).toNat then _ else _
  split_ifs <;> rfl

theorem gauge_estimateRTT (mrtt : U32) :
    (estimateRTT mrtt c).gauge = { c.gauge with rtt := (estimateRTT mrtt c).rtt } := by
  obtain ⟨r, seq, h⟩ := estimateRTT_writes mrtt c
  rw [h]
  rfl

theorem gauge_updateRto : (updateRto env c).gauge =
    if c.sawTimestamp then
      c.gauge.measure (env.curTs - c.tsLastackRcvd) (decide (tcpSeqGt c.sndUna c.rttSeq))
    else c.gauge := by
  unfold updateRto
  split
  · have hrtt := rtt_estimateRTT (env.curTs - c.tsLastackRcvd) c
    have hkept := gauge_estimateRTT c (env.curTs - c.tsLastackRcvd)
    rw [hrtt] at hkept
    generalize estimateRTT (env.curTs - c.tsLastackRcvd) c = d at hrtt hkept ⊢
    refine (gauge_checkRto { d with rto := d.rtt.timeout }).trans ?_
    rw [hrtt]
    exact congrArg (fun g : Gauge => Gauge.checkRto { g with rto := (c.rtt.next _ _).timeout }) hkept
  · rfl

@[simp] theorem gauge_releaseAcked (b : SendBuffer) (rmlen : ℕ) (ackSeq : U32) :
    (releaseAcked b rmlen ackSeq c).gauge = c.gauge := by
  unfold releaseAcked
  simp only [raiseWriteEvent]
  split
  · rw [gauge_raiseEvent]
    rfl
  · rfl

theorem gauge_ackNewData (b : SendBuffer) (ackSeq : U32) :
    (ackNewData env b ackSeq c).gauge =
      (c.gauge.acked (ackSeq - b.headSeq).toNat (env.curTs - c.tsLastackRcvd)
        (decide (tcpSeqGt c.sndUna c.rttSeq))).timer := by
  have hzero : (if c.effMss = 0 then c.fault .divByZero else c).gauge =
      if c.gauge.effMss = 0 then c.gauge.fault .divByZero else c.gauge := by
    change _ = if c.effMss = 0 then _ else _
    split
    · exact gauge_fault_arith c rfl
    · rfl
  have hseq : tcpSeqGt c.sndUna c.rttSeq ↔
      tcpSeqGt (if c.effMss = 0 then c.fault .divByZero else c).sndUna
        (if c.effMss = 0 then c.fault .divByZero else c).rttSeq := by
    split <;> rfl
  unfold ackNewData Gauge.acked
  simp only [gauge_updateRetransmissionTimer, gauge_releaseAcked, gauge_growCwnd, gauge_updateRto,
    ← hzero, hseq]
  have hts : c.tsLastackRcvd =
      (if c.effMss = 0 then c.fault .divByZero else c).gauge.tsLastackRcvd := by
    split <;> rfl
  rw [hts]
  rfl

end

/-! ## Arriving segments -/

@[simp] theorem sndbuf_enqueueACK (opt : AckOpt) (c : Conn) :
    (enqueueACK opt c).sndbuf = c.sndbuf := by
  unfold enqueueACK addtoACKList
  cases opt <;> simp only <;> split_ifs <;> rfl

theorem sndbuf_raiseEvent (ev : AppEvent) (reg : Socket → Bool) (c : Conn) :
    (raiseEvent ev reg c).sndbuf = c.sndbuf :=
  raiseEvent_view (fun c => c.sndbuf) reg rfl

/-- A payload leaves the gauges alone, unless there is no memory for it. -/
theorem receivePayload_gauge (env : Env) (seg : Segment) (c : Conn) :
    ∃ s, (s = c.state ∨ s = .closed) ∧
      (receivePayload env seg c).gauge = { c.gauge with state := s } ∧
      (receivePayload env seg c).sndbuf = c.sndbuf := by
  have hpayload : ∃ s, (s = c.state ∨ s = .closed) ∧
      (processTCPPayload env seg.payload seg.seq c).1.gauge = { c.gauge with state := s } ∧
      (processTCPPayload env seg.payload seg.seq c).1.sndbuf = c.sndbuf := by
    refine processTCPPayload_rule (P := fun d => ∃ s, (s = c.state ∨ s = .closed) ∧
      d.gauge = { c.gauge with state := s } ∧ d.sndbuf = c.sndbuf) (fun e reg d hd => ?_)
      fun d hout => ?_
    · obtain ⟨s, hs, hgauge, hbuf⟩ := hd
      exact ⟨s, hs, (gauge_raiseEvent e reg d).trans hgauge,
        (sndbuf_raiseEvent e reg d).trans hbuf⟩
    · cases hout with
      | dropped => exact ⟨c.state, .inl rfl, rfl, rfl⟩
      | noMemory => exact ⟨.closed, .inr rfl, rfl, rfl⟩
      | faulted => exact ⟨c.state, .inl rfl, gauge_fault _ rfl, rfl⟩
      | stored =>
        split
        · exact ⟨c.state, .inl rfl, gauge_act c rfl, rfl⟩
        · exact ⟨c.state, .inl rfl, rfl, rfl⟩
  unfold receivePayload
  split
  · exact ⟨c.state, .inl rfl, rfl, rfl⟩
  · obtain ⟨s, hs, hgauge, hbuf⟩ := hpayload
    exact ⟨s, hs, (gauge_enqueueACK _ _).trans hgauge, (sndbuf_enqueueACK _ _).trans hbuf⟩

theorem processRST_drifts (env : Env) (ackSeq : U32) (c : Conn) :
    Drifts c (processRST env ackSeq c).1 := by
  have hclosed : ∀ reason : CloseReason,
      Drifts c (destroyTCPStream env.cfg { c with state := .closed, closeReason := reason }) :=
    fun _ => .closing (gauge_destroyTCPStream _ _)
  have hreset : TcpState.established.code ≤ c.state.code →
      Drifts c (raiseCloseEvent { c with state := .closeWait, closeReason := .reset }) :=
    fun hc => ⟨.closeWait, .inr (.inr ⟨hc, by decide⟩), gauge_raiseEvent _ _ _⟩
  unfold processRST
  split
  case h_4 =>
    split
    · exact hclosed _
    · exact .of_gauge rfl
  case h_10 hs =>
    split
    · exact .of_gauge rfl
    · exact hreset (by rw [hs])
  case h_11 hs =>
    split
    · exact .of_gauge rfl
    · exact hreset (by rw [hs]; decide)
  all_goals first
    | exact .of_gauge rfl
    | exact hclosed _

/-- Validation takes the timestamp of a segment it accepts. -/
theorem validateSequence_accepted {env : Env} {seg : Segment} {c : Conn}
    (h : (validateSequence env seg c).2 = true) :
    ∃ recent rcvd upd, (validateSequence env seg c).1 =
      { c with tsRecent := recent, tsLastackRcvd := rcvd, tsLastTsUpd := upd } := by
  have hout := validateSequence_outcome env seg c
  generalize validateSequence env seg c = r at hout h ⊢
  cases hout with
  | accepted hd =>
    have hpassed := checkTimestamp_passed (congrArg Prod.snd hd)
    rwa [hd] at hpassed
  | outside | unchecked => cases h

theorem gauge_admitSegment (env : Env) (seg : Segment) (c : Conn) :
    (admitSegment env seg c).gauge = { c.gauge with peerWnd := scaledWindow seg c } := by
  unfold admitSegment
  simp only
  split
  · exact gauge_updateTimeoutList _
  · exact gauge_updateTimeoutList _

end MtcpStack
