import MtcpStack.Model.Lists

/-! # Sending (`tcp_out.c`)

Functions that can fail return the source's `int` next to the new state. `Conn.tx` holds the
answers of `IPOutput`: a segment leaves only on `true`. -/

namespace MtcpStack

open Slice

/-! ## One segment -/

/-- `CalculateOptionLength` with timestamps enabled and SACK disabled. -/
def calculateOptionLength (flags : TcpFlags) : ℕ := if flags.syn then 20 else 12

def ackFlag : TcpFlags := { TcpFlags.none with ack := true }
def synFlag : TcpFlags := { TcpFlags.none with syn := true }
def synAckFlag : TcpFlags := { TcpFlags.none with syn := true, ack := true }
def finAckFlag : TcpFlags := { TcpFlags.none with fin := true, ack := true }
def rstFlag : TcpFlags := { TcpFlags.none with rst := true }
def wackFlag : TcpFlags := { TcpFlags.none with ack := true, wack := true }

/-- The header bit `fin`: a window probe never carries it. -/
def TcpFlags.sendsFin (flags : TcpFlags) : Bool := flags.fin && !flags.wack

/-- A SYN or FIN takes one sequence number. -/
def TcpFlags.ctlLen (flags : TcpFlags) : ℕ := if flags.syn || flags.sendsFin then 1 else 0

/-- The sequence number in the header. -/
def txSeq (flags : TcpFlags) (c : Conn) : U32 :=
  if flags.wack then c.sndNxt - 1 else if flags.fin then c.fss else c.sndNxt

/-- The receive window before it is cut to 16 bits. -/
def window32 (flags : TcpFlags) (c : Conn) : U32 :=
  c.rcvWnd >>> (if flags.syn then 0 else c.wscaleMine.toNat)

/-- The segment as it leaves. -/
def txSegment (flags : TcpFlags) (payload : List U8) (c : Conn) : TxSegment where
  flags := { flags with fin := flags.sendsFin }
  seq := txSeq flags c
  ackSeq := if flags.ack then c.rcvNxt else 0
  window := if tcpMaxWindow.toNat < (window32 flags c).toNat then tcpMaxWindow
    else window32 flags c
  payload := payload
  sndNxt := c.sndNxt
  una := c.sndUna
  cwnd := c.cwnd
  peerWnd := c.peerWnd

/-- The header is filled in: the marks a FIN, an ACK and a closed window leave on the stream. -/
def fillHeader (env : Env) (flags : TcpFlags) (payload : List U8) (c : Conn) : Conn :=
  let t := txSegment flags payload c
  let c := if flags.sendsFin then { c with isFinSent := true } else c
  let c :=
    if flags.ack then
      updateTimeoutList { c with tsLastackSent := env.curTs, lastActiveTs := env.curTs }
    else c
  let c := if window32 flags c = 0 then { c with needWndAdv := true } else c
  c.act (.sent t)

def sendTCPPacket (env : Env) (flags : TcpFlags) (payload : List U8) (c : Conn) : Conn × ℤ :=
  if c.mss.toNat < payload.length + calculateOptionLength flags then (c, error)
  else
    match c.tx with
    | [] => (c, -2)
    | false :: tx => ({ c with tx }, -2)
    | true :: tx =>
      let c := fillHeader env flags payload { c with tx }
      let n := payload.length + flags.ctlLen
      let c := { c with sndNxt := c.sndNxt + BitVec.ofNat 32 n }
      let c := if 0 < n then addtoRTOList { c with tsRto := env.curTs + c.rto } else c
      (c, (n : ℤ))

/-! ## The flush loop -/

/-- `MIN(cwnd, peer_wnd) - (seq - snd_una)`, stored in an `int`. -/
def remainingWindow (c : Conn) : ℤ :=
  ((if c.cwnd.toNat < c.peerWnd.toNat then c.cwnd else c.peerWnd) - (c.sndNxt - c.sndUna)).toInt

/-- The window is closed, or too small for a full segment while data is in flight. -/
def windowFull (c : Conn) : Bool :=
  remainingWindow c ≤ 0 || (remainingWindow c < c.mss.toNat && 0 < (c.sndNxt - c.sndUna).toNat)

/-- The length of the next segment when `len` bytes wait behind `snd_nxt`. With an `mss` below
the option length the second bound is negative and, compared unsigned, does not bind. -/
def pktLen (c : Conn) (len : ℕ) : ℕ :=
  let len := min len (remainingWindow c).toNat
  if c.mss.toNat < calculateOptionLength ackFlag then len
  else min len (c.mss.toNat - calculateOptionLength ackFlag)

/-- A full peer window makes the stack ask for an update, at most every 500 ms. -/
def probeWindow (env : Env) (c : Conn) : Conn :=
  if c.peerWnd.toNat ≤ c.cwnd.toNat ∧
      500 < ((env.curTs - c.tsLastackSent) * 1000).toNat / 1000 then
    enqueueACK .wack c
  else c

/-- One iteration of the loop of `FlushTCPSendingBuffer`: `none` means the loop goes on, a value
is the result the loop ends with. -/
def flushStep (env : Env) (b : SendBuffer) (packets : ℤ) (c : Conn) : Conn × Option ℤ :=
  let off := (c.sndNxt - b.headSeq).toNat
  if tcpSeqLt c.sndNxt b.headSeq then (c.fault .flushBelowHead, some packets)
  else if tcpSeqLt c.sndNxt c.sndUna then (c.fault .flushBelowUna, some packets)
  else if b.len < off then (c.fault .flushPastEnd, some packets)
  else if b.len - off = 0 then (c, some packets)
  else if windowFull c then (probeWindow env c, some (-3))
  else
    -- the length passes through a `uint16_t` parameter
    match slice b.data (b.head + off) (pktLen c (b.len - off) % 2 ^ 16) with
    | none => (c.fault .sendRead, some (-3))
    | some payload =>
      let r := sendTCPPacket env ackFlag payload c
      if r.2 < 0 then (r.1, some (-3)) else (r.1, none)

/-- The loop; every round that goes on uses up one answer of `IPOutput`, so the fuel
`tx.length + 1` is never exhausted. -/
def flushLoop (env : Env) (b : SendBuffer) : ℕ → ℤ → Conn → Conn × ℤ
  | 0, packets, c => (c, packets)
  | fuel + 1, packets, c =>
    let r := flushStep env b packets c
    match r.2 with
    | some ret => (r.1, ret)
    | none => flushLoop env b fuel (packets + 1) r.1

def flushTCPSendingBuffer (env : Env) (c : Conn) : Conn × ℤ :=
  match c.sndbuf with
  | none => (c.fault .noSendBuffer, 0)
  | some b => if b.len = 0 then (c, 0) else flushLoop env b (c.tx.length + 1) 0 c

/-! ## Control packets -/

def sendControlPacket (env : Env) (c : Conn) : Conn × ℤ :=
  match c.state with
  | .synSent => sendTCPPacket env synFlag [] c
  | .synRcvd => sendTCPPacket env synAckFlag [] { c with sndNxt := c.iss }
  | .established | .closeWait | .finWait2 | .timeWait => sendTCPPacket env ackFlag [] c
  | .lastAck | .finWait1 =>
    if c.onSendList || c.onAckList then (c, -1) else sendTCPPacket env finAckFlag [] c
  | .closing =>
    if c.isFinSent then
      if c.sndNxt = c.fss then sendTCPPacket env finAckFlag [] c
      else sendTCPPacket env ackFlag [] c
    else sendTCPPacket env finAckFlag [] c
  | .closed =>
    if c.onSendList || c.onAckList then (c, -1)
    else
      let r := sendTCPPacket env rstFlag [] c
      if 0 ≤ r.2 then (destroyTCPStream env.cfg r.1, r.2) else r
  | .listen => (c, 0)

/-! ## The loop bodies of the list passes

Each works on the stream the pass has reached; `true` ends the pass. -/

/-- Body of `WriteTCPControlList`. -/
def controlListStep (env : Env) (c : Conn) : Conn × Bool :=
  let c :=
    { c with controlList := c.controlList.erase c.sid, controlListCnt := c.controlListCnt - 1 }
  if c.onControlList then
    let r := sendControlPacket env { c with onControlList := false }
    let c := r.1
    if r.2 = -2 then
      ({ c with
          controlList := c.sid :: c.controlList
          onControlList := true
          controlListCnt := c.controlListCnt + 1 }, true)
    else if r.2 < 0 then
      ({ c with
          controlList := c.controlList ++ [c.sid]
          onControlList := true
          controlListCnt := c.controlListCnt + 1 }, false)
    else (c, false)
  else (c, false)

/-- The control packet held back by `control_list_waiting` is queued now. -/
def releaseControl (c : Conn) : Conn :=
  addtoControlList { c with controlListWaiting := false }

/-- What `WriteTCPDataList` sends for a stream, by state. -/
def sendListed (env : Env) (c : Conn) : Conn × ℤ :=
  match c.state with
  | .established => if c.onControlList then (c, -1) else flushTCPSendingBuffer env c
  | .closeWait | .finWait1 | .lastAck => flushTCPSendingBuffer env c
  | _ => (c, 0)

/-- `ack_cnt` after `sent` segments have carried acknowledgements along. -/
def piggyback (ackCnt : BitVec 6) (sent : ℤ) : BitVec 6 :=
  if 0 < ackCnt.toNat then
    if sent < ackCnt.toNat then ackCnt - BitVec.ofInt 6 sent else 0
  else ackCnt

/-- Body of `WriteTCPDataList`. -/
def dataListStep (env : Env) (c : Conn) : Conn × Bool :=
  let c := { c with sendList := c.sendList.erase c.sid }
  if c.onSendList then
    let r := sendListed env c
    let c := r.1
    if r.2 < 0 then ({ c with sendList := c.sendList ++ [c.sid] }, true)
    else
      let c :=
        { c with
          onSendList := false
          sendListCnt := c.sendListCnt - 1
          ackCnt := piggyback c.ackCnt r.2 }
      if c.controlListWaiting && !c.onAckList then (releaseControl c, false) else (c, false)
  else (c, false)

/-- The queued acknowledgements, one segment each until one cannot be sent. -/
def sendAcks (env : Env) : ℕ → Conn → Conn
  | 0, c => c
  | fuel + 1, c =>
    if 0 < c.ackCnt.toNat then
      let r := sendTCPPacket env ackFlag [] c
      if r.2 < 0 then r.1 else sendAcks env fuel { r.1 with ackCnt := r.1.ackCnt - 1 }
    else c

/-- The window probe, if one is due. -/
def sendWack (env : Env) (c : Conn) : Conn :=
  if c.isWack then
    let r := sendTCPPacket env wackFlag [] { c with isWack := false }
    if r.2 < 0 then { r.1 with isWack := true } else r.1
  else c

/-- `to_ack`: the state acknowledges data and the receive buffer is not behind `rcv_nxt`. -/
def toAck (c : Conn) : Bool :=
  match c.state with
  | .established | .closeWait | .finWait1 | .finWait2 | .timeWait =>
    match c.rcvbuf with
    | none => false
    | some b => decide (tcpSeqLeq c.rcvNxt (b.headSeq + BitVec.ofNat 32 b.mergedLen))
  | _ => false

/-- Body of `WriteTCPACKList`. -/
def ackListStep (env : Env) (c : Conn) : Conn × Bool :=
  if c.onAckList then
    let c :=
      if toAck c then
        let c := sendWack env (sendAcks env c.ackCnt.toNat c)
        if c.ackCnt = 0 ∧ c.isWack = false then removeFromACKList c else c
      else
        removeFromACKList { c with ackCnt := 0, isWack := false }
    if c.controlListWaiting && !c.onSendList then (releaseControl c, false) else (c, false)
  else
    ({ c with ackList := c.ackList.erase c.sid, ackListCnt := c.ackListCnt - 1 }, false)

end MtcpStack
