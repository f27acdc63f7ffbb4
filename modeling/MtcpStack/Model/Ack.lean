import MtcpStack.Model.Timer

/-! # Acknowledgements (`EstimateRTT` and `ProcessACK` of `tcp_in.c`)

`ProcessACK` is cut at its comments: the check against the buffer, the window update, the
duplicate count, fast retransmission, recovery, and the removal of acknowledged data. -/

namespace MtcpStack

/-! ## Round-trip time -/

/-- The deviation term of a measurement that differs by `m` from the average. -/
def rttDeviation (m : ℤ) (mdev : U32) : ℤ :=
  if m < 0 then
    let d := -m - (mdev >>> 2).toNat
    if 0 < d then d / 8 else d
  else m - (mdev >>> 2).toNat

def estimateRTT (mrtt : U32) (c : Conn) : Conn :=
  let m : ℤ := if mrtt = 0 then 1 else mrtt.toNat
  if c.srtt ≠ 0 then
    let m := m - (c.srtt >>> 3).toNat
    let mdev := c.mdev + BitVec.ofInt 32 (rttDeviation m c.mdev)
    let mdevMax := if c.mdevMax.toNat < mdev.toNat then mdev else c.mdevMax
    let rttvar :=
      if c.mdevMax.toNat < mdev.toNat ∧ c.rttvar.toNat < mdevMax.toNat then mdevMax else c.rttvar
    let c := { c with srtt := c.srtt + BitVec.ofInt 32 m, mdev, mdevMax, rttvar }
    if tcpSeqGt c.sndUna c.rttSeq then
      let rttvar :=
        if mdevMax.toNat < rttvar.toNat then rttvar - (rttvar - mdevMax) >>> 2 else rttvar
      { c with rttvar, rttSeq := c.sndNxt, mdevMax := 0 }
    else c
  else
    let mdev := BitVec.ofInt 32 (m * 2)
    { c with
      srtt := BitVec.ofInt 32 (m * 8)
      mdev
      mdevMax := mdev
      rttvar := mdev
      rttSeq := c.sndNxt }

/-! ## The stages of `ProcessACK` -/

/-- The acknowledgement of the FIN counts as one of the last data byte. -/
def adjustAck (ackSeq : U32) (c : Conn) : U32 :=
  match c.state with
  | .finWait1 | .finWait2 | .closing | .closeWait | .lastAck =>
    if c.isFinSent ∧ ackSeq = c.fss + 1 then ackSeq - 1 else ackSeq
  | _ => ackSeq

/-- The window field of the segment, scaled unless it is a SYN. -/
def scaledWindow (seg : Segment) (c : Conn) : U32 :=
  if seg.syn then seg.window.setWidth 32 else seg.window.setWidth 32 <<< c.wscalePeer.toNat

/-- The segment is newer than the one the window was last taken from. -/
def updatesWindow (seg : Segment) (ackSeq cwindow : U32) (c : Conn) : Prop :=
  tcpSeqLt c.sndWl1 seg.seq ∨ (c.sndWl1 = seg.seq ∧ tcpSeqLt c.sndWl2 ackSeq) ∨
    (c.sndWl2 = ackSeq ∧ c.peerWnd.toNat < cwindow.toNat)

instance (seg : Segment) (ackSeq cwindow : U32) (c : Conn) :
    Decidable (updatesWindow seg ackSeq cwindow c) :=
  inferInstanceAs (Decidable (_ ∨ _))

def updateWindow (seg : Segment) (ackSeq : U32) (c : Conn) : Conn :=
  let cwindow := scaledWindow seg c
  if updatesWindow seg ackSeq cwindow c then
    let prev := c.peerWnd
    let c := { c with peerWnd := cwindow, sndWl1 := seg.seq, sndWl2 := ackSeq }
    if prev.toNat < (c.sndNxt - c.sndUna).toNat ∧ (c.sndNxt - c.sndUna).toNat ≤ c.peerWnd.toNat then
      raiseWriteEvent c
    else c
  else c

/-- The segment repeats the last acknowledgement while data is outstanding; `edge` is the right
window edge before the update. -/
def isDupAck (seg : Segment) (ackSeq edge : U32) (c : Conn) : Prop :=
  tcpSeqLt ackSeq c.sndNxt ∧ ackSeq = c.lastAckSeq ∧ seg.payload.length = 0 ∧
    c.sndWl2 + c.peerWnd = edge

instance (seg : Segment) (ackSeq edge : U32) (c : Conn) :
    Decidable (isDupAck seg ackSeq edge c) :=
  inferInstanceAs (Decidable (_ ∧ _))

/-- The duplicate counter after this segment; the sum is taken in `int`, so it wraps at 256. -/
def countDupAck (dup : Bool) (ackSeq : U32) (c : Conn) : Conn :=
  if dup then { c with dupAcks := c.dupAcks + 1 } else { c with dupAcks := 0, lastAckSeq := ackSeq }

/-- The third duplicate rewinds `snd_nxt` to the acknowledged sequence number. -/
def fastRetransmit (ackSeq : U32) (c : Conn) : Conn :=
  let c := if tcpSeqLt ackSeq c.sndNxt then { c with sndNxt := ackSeq } else c
  let ssthresh := lossThreshold c
  let c := { c with ssthresh, cwnd := ssthresh + BitVec.ofNat 32 (3 * c.mss.toNat) }
  let c := if c.nrtx.toNat < tcpMaxRtx.toNat then { c with nrtx := c.nrtx + 1 } else c
  addtoSendList c

/-- Every further duplicate widens the congestion window by one segment. -/
def inflateCwnd (c : Conn) : Conn :=
  let cwnd := c.cwnd + BitVec.ofNat 32 c.mss.toNat
  if c.cwnd.toNat < cwnd.toNat then { c with cwnd } else c

def dupAckStage (dup : Bool) (ackSeq : U32) (c : Conn) : Conn :=
  let c := countDupAck dup ackSeq c
  if dup ∧ c.dupAcks = 3 then fastRetransmit ackSeq c
  else if 3 < c.dupAcks.toNat then inflateCwnd c
  else c

/-- An acknowledgement above `snd_nxt` shows that a rewind was not needed. -/
def recoverSndNxt (b : SendBuffer) (ackSeq : U32) (c : Conn) : Conn :=
  if tcpSeqGt ackSeq c.sndNxt then
    let c := { c with sndNxt := ackSeq }
    if b.len = 0 then removeFromSendList c else c
  else c

/-- `rmlen / eff_mss`, stored in a `uint16_t`; the test that should round it up compares the
wrong way. -/
def ackedPackets (rmlen : ℕ) (c : Conn) : U16 :=
  let packets := BitVec.ofNat 16 (rmlen / c.effMss.toNat)
  if rmlen < rmlen / c.effMss.toNat * c.effMss.toNat then packets + 1 else packets

/-- Slow start below the threshold, congestion avoidance above it. -/
def growCwnd (packets : U16) (c : Conn) : Conn :=
  let mss : U32 := c.mss.setWidth 32
  let n : U32 := packets.setWidth 32
  if c.state.code < TcpState.established.code then c
  else if c.cwnd.toNat < c.ssthresh.toNat then
    if c.cwnd.toNat < (c.cwnd + mss).toNat then { c with cwnd := c.cwnd + mss * n } else c
  else
    let c := if c.cwnd = 0 then c.fault .divByZero else c
    let cwnd := c.cwnd + n * mss * mss / c.cwnd
    if c.cwnd.toNat < cwnd.toNat then { c with cwnd } else c

/-- The timeout follows the measured round trip when the peer sends timestamps. -/
def updateRto (env : Env) (c : Conn) : Conn :=
  if c.sawTimestamp then
    let c := estimateRTT (env.curTs - c.tsLastackRcvd) c
    let c := { c with rto := c.srtt >>> 3 + c.rttvar }
    if c.rto = 0 then c.fault .rtoZero else c
  else c

/-- The acknowledged bytes leave the send buffer; a writer that found it full is told. -/
def releaseAcked (b : SendBuffer) (rmlen : ℕ) (ackSeq : U32) (c : Conn) : Conn :=
  let b := (sbRemove b rmlen).1
  let c' :=
    { c with
      sndbuf := some b
      sndUna := ackSeq
      sndWnd := BitVec.ofNat 32 b.size - BitVec.ofNat 32 b.len }
  if c.sndWnd = 0 then raiseWriteEvent c' else c'

def ackNewData (env : Env) (b : SendBuffer) (ackSeq : U32) (c : Conn) : Conn :=
  let rmlen := (ackSeq - b.headSeq).toNat
  let c := if c.effMss = 0 then c.fault .divByZero else c
  let c := growCwnd (ackedPackets rmlen c) (updateRto env c)
  updateRetransmissionTimer env (releaseAcked b rmlen ackSeq c)

/-- `ProcessACK` on a stream whose send buffer is `b`; `seg.ackSeq` is read once, adjusted. -/
def processACKWith (env : Env) (seg : Segment) (b : SendBuffer) (ackSeq : U32) (c : Conn) : Conn :=
  if tcpSeqGt ackSeq (b.headSeq + BitVec.ofNat 32 b.len) then c
  else
    let edge := c.peerWnd + c.sndWl2
    let c := updateWindow seg ackSeq c
    let c := dupAckStage (isDupAck seg ackSeq edge c) ackSeq c
    let c := recoverSndNxt b ackSeq c
    if tcpSeqGeq b.headSeq ackSeq then c else ackNewData env b ackSeq c

/-- `ProcessACK`; the handlers call it only when there is a send buffer. -/
def processACK (env : Env) (seg : Segment) (c : Conn) : Conn :=
  match c.sndbuf with
  | none => c
  | some b => processACKWith env seg b (adjustAck seg.ackSeq c) c

end MtcpStack
