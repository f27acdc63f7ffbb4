import MtcpStack.Model.Ack
import MtcpStack.Model.Options

/-! # Receiving (`tcp_in.c`)

`processTCPPacket` is `ProcessTCPPacket` for a segment whose flow lookup found the stream. -/

namespace MtcpStack

/-! ## Validation and reset -/

/-- The timestamp test of `ValidateSequence`. -/
def checkTimestamp (env : Env) (seg : Segment) (c : Conn) : Conn × Bool :=
  if !seg.rst && c.sawTimestamp then
    match parseTCPTimestamp seg.opt seg.optLen with
    | none => (c.fault .optionLoop, false)
    | some none => (c, false)
    | some (some ts) =>
      if tcpSeqLt ts.tsVal c.tsRecent then (enqueueACK .now c, false)
      else
        let c := if tcpSeqGt ts.tsVal c.tsRecent then { c with tsLastTsUpd := env.curTs } else c
        ({ c with tsRecent := ts.tsVal, tsLastackRcvd := ts.tsRef }, true)
  else (c, true)

/-- The sequence number behind the payload. -/
def Segment.payloadEnd (seg : Segment) : U32 := seg.seq + BitVec.ofNat 32 seg.payload.length

/-- The answer to a segment outside the window. -/
def refuseSequence (env : Env) (seg : Segment) (c : Conn) : Conn :=
  if seg.rst then c
  else if c.state = .established then
    if seg.seq + 1 = c.rcvNxt then enqueueACK .aggregate c
    else if tcpSeqLeq seg.seq c.rcvNxt then enqueueACK .aggregate c
    else enqueueACK .now c
  else
    addtoControlList (if c.state = .timeWait then addtoTimewaitList env c else c)

def validateSequence (env : Env) (seg : Segment) (c : Conn) : Conn × Bool :=
  let r := checkTimestamp env seg c
  let c := r.1
  if r.2 then
    if tcpSeqBetween seg.payloadEnd c.rcvNxt (c.rcvNxt + c.rcvWnd) then (c, true)
    else (refuseSequence env seg c, false)
  else (c, false)

/-- `ProcessRST`; `false` leaves the segment to the state handler. -/
def processRST (env : Env) (ackSeq : U32) (c : Conn) : Conn × Bool :=
  match c.state with
  | .closed | .listen | .synSent => (c, false)
  | .synRcvd =>
    if ackSeq = c.sndNxt then
      (destroyTCPStream env.cfg { c with state := .closed, closeReason := .reset }, true)
    else (c, true)
  | .finWait1 | .finWait2 | .lastAck | .closing | .timeWait =>
    (destroyTCPStream env.cfg { c with state := .closed, closeReason := .activeClose }, true)
  | .established | .closeWait =>
    if c.onCloseq || c.onCloseqInt || c.onResetq || c.onResetqInt then (c, true)
    else (raiseCloseEvent { c with state := .closeWait, closeReason := .reset }, true)

/-! ## Payload -/

/-- What `ProcessTCPPayload` does with the receive buffer: the segment is put, and after the
application has closed everything in order is thrown away. The number is the result of
`RBPut`. -/
def putPayload (state : TcpState) (b : RingBuffer) (payload : List U8) (seq : U32) :
    Option (RingBuffer × ℤ) :=
  (rbPut b payload seq).bind fun r =>
    if state = .finWait1 ∨ state = .finWait2 then
      (rbRemove r.1 r.1.mergedLen).map fun q => (q.1, r.2)
    else some r

/-- The receive buffer, allocated on first use. -/
def openRcvbuf (env : Env) (c : Conn) : Option RingBuffer :=
  match c.rcvbuf with
  | some b => some b
  | none => env.rcvChunk.map fun chunk => rbInit chunk (c.irs + 1)

/-- The stream after the buffer has taken the segment. -/
def storePayload (b : RingBuffer) (c : Conn) : Conn :=
  { c with
    rcvbuf := some b
    rcvNxt := b.headSeq + BitVec.ofNat 32 b.mergedLen
    rcvWnd := BitVec.ofNat 32 (b.size - b.mergedLen) }

/-- `ProcessTCPPayload`: `1`, `0` or `ERROR`. -/
def processTCPPayload (env : Env) (payload : List U8) (seq : U32) (c : Conn) : Conn × ℤ :=
  let endSeq := seq + BitVec.ofNat 32 payload.length
  if tcpSeqLt endSeq c.rcvNxt then (c, 0)
  else if tcpSeqGt endSeq (c.rcvNxt + c.rcvWnd) then (c, 0)
  else
    match openRcvbuf env c with
    | none => (raiseErrorEvent { c with state := .closed, closeReason := .noMem }, error)
    | some b =>
      match putPayload c.state b payload seq with
      | none => (Conn.fault { c with rcvbuf := some b } .ringBuffer, 0)
      | some (b', ret) =>
        let c' := storePayload b' (if 0 < ret then c.act (.accepted seq payload) else c)
        if tcpSeqLeq c'.rcvNxt c.rcvNxt then (c', 0)
        else (if c'.state = .established then raiseReadEvent c' else c', 1)

/-- The payload is processed and acknowledged, at once when a segment seems lost. -/
def receivePayload (env : Env) (seg : Segment) (c : Conn) : Conn :=
  if seg.payload.length = 0 then c
  else
    let r := processTCPPayload env seg.payload seg.seq c
    enqueueACK (if r.2 = 0 then .now else .aggregate) r.1

/-! ## State handlers -/

def handleListen (seg : Segment) (c : Conn) : Conn :=
  if seg.syn then
    let c := if c.state = .listen then { c with rcvNxt := c.rcvNxt + 1 } else c
    addtoControlList { c with state := .synRcvd }
  else c

/-- `HandleActiveOpen`. -/
def handleActiveOpen (env : Env) (seg : Segment) (c : Conn) : Conn :=
  let c :=
    { c with
      irs := seg.seq
      sndNxt := seg.ackSeq
      peerWnd := seg.window.setWidth 32
      sndWl1 := seg.seq - 1
      rcvNxt := seg.seq + 1
      lastAckSeq := seg.ackSeq }
  let c :=
    match parseTCPOptions env.curTs seg.opt seg.optLen c with
    | none => c.fault .optionLoop
    | some c => c
  let mss : U32 := c.mss.setWidth 32
  updateRetransmissionTimer env
    { c with cwnd := if c.cwnd = 1 then mss * 2 else mss, ssthresh := mss * 10 }

/-- The SYN/ACK of an active open. -/
def completeActiveOpen (env : Env) (seg : Segment) (c : Conn) : Conn :=
  let c := handleActiveOpen env seg c
  let c := removeFromRTOList { c with nrtx := 0, rcvNxt := c.irs + 1 }
  let c := { c with state := .established }
  if c.socket.isSome then
    let c := addtoControlList (raiseWriteEvent c)
    if 0 < env.cfg.tcpTimeout then addtoTimeoutList c else c
  else
    destroyTCPStream env.cfg
      { c.act (.sentReset 0 (seg.payloadEnd + 1) true) with closeReason := .activeClose }

def handleSynSent (env : Env) (seg : Segment) (c : Conn) : Conn :=
  if seg.ack ∧ (tcpSeqLeq seg.ackSeq c.iss ∨ tcpSeqGt seg.ackSeq c.sndNxt) then
    if seg.rst then c else c.act (.sentReset seg.ackSeq 0 false)
  else
    let c := if seg.ack then { c with sndUna := c.sndUna + 1 } else c
    if seg.rst then
      if seg.ack then
        notifyOrDestroy env { c with state := .closeWait, closeReason := .reset }
      else c
    else if seg.syn then
      if seg.ack then completeActiveOpen env seg c
      else addtoControlList { c with state := .synRcvd, sndNxt := c.iss }
    else c

/-- The established stream is offered to the listener of its port. -/
def offerToListener (env : Env) (c : Conn) : Conn :=
  match env.listener with
  | .absent => c.fault .noListener
  | .full =>
    let c := addtoControlList { c with closeReason := .notAccepted, state := .closed }
    if 0 < env.cfg.tcpTimeout then addtoTimeoutList c else c
  | .queued =>
    let c := { c with acceptq := c.acceptq + 1 }
    if 0 < env.cfg.tcpTimeout then addtoTimeoutList c else c

def handleSynRcvd (env : Env) (seg : Segment) (c : Conn) : Conn :=
  if seg.ack then
    if seg.ackSeq ≠ c.iss + 1 then c
    else
      let mss : U32 := c.mss.setWidth 32
      let c :=
        { c with
          sndUna := c.sndUna + 1
          sndNxt := seg.ackSeq
          cwnd := if c.cwnd = 1 then mss * 2 else mss
          nrtx := 0
          rcvNxt := c.irs + 1 }
      offerToListener env { removeFromRTOList c with state := .established }
  else addtoControlList { c with sndNxt := c.iss }

/-- The FIN of an established stream, taken only right behind the received data. -/
def finEstablished (seg : Segment) (c : Conn) : Conn :=
  if seg.payloadEnd = c.rcvNxt then
    raiseReadEvent (addtoControlList { c with state := .closeWait, rcvNxt := c.rcvNxt + 1 })
  else enqueueACK .now c

def handleEstablished (env : Env) (seg : Segment) (c : Conn) : Conn :=
  if seg.syn then addtoControlList { c with sndNxt := seg.ackSeq }
  else
    let c := receivePayload env seg c
    let c := if seg.ack then processACK env seg c else c
    if seg.fin then finEstablished seg c else c

def handleCloseWait (env : Env) (seg : Segment) (c : Conn) : Conn :=
  if tcpSeqLt seg.seq c.rcvNxt then addtoControlList c else processACK env seg c

def handleLastAck (env : Env) (seg : Segment) (c : Conn) : Conn :=
  if tcpSeqLt seg.seq c.rcvNxt then c
  else if seg.ack then
    let c := processACK env seg c
    if !c.isFinSent then c
    else if seg.ackSeq = c.fss + 1 then
      let c := updateRetransmissionTimer env { c with sndUna := c.sndUna + 1 }
      destroyTCPStream env.cfg { c with state := .closed, closeReason := .passiveClose }
    else addtoControlList c
  else addtoControlList c

/-- The acknowledgement of the FIN takes FIN_WAIT_1 to FIN_WAIT_2. -/
def finAcked (seg : Segment) (c : Conn) : Conn :=
  if c.isFinSent ∧ seg.ackSeq = c.fss + 1 then
    let c := { c with sndUna := seg.ackSeq }
    let c := if tcpSeqGt seg.ackSeq c.sndNxt then { c with sndNxt := seg.ackSeq } else c
    { removeFromRTOList { c with nrtx := 0 } with state := .finWait2 }
  else c

/-- The peer's FIN while our side has closed, taken only right behind the received data. -/
def finClosing (env : Env) (seg : Segment) (c : Conn) : Conn :=
  if seg.payloadEnd = c.rcvNxt then
    let c := { c with rcvNxt := c.rcvNxt + 1 }
    let c :=
      if c.state = .finWait1 then { c with state := .closing }
      else if c.state = .finWait2 then addtoTimewaitList env { c with state := .timeWait }
      else c
    addtoControlList c
  else c

def handleFinWait1 (env : Env) (seg : Segment) (c : Conn) : Conn :=
  if tcpSeqLt seg.seq c.rcvNxt then addtoControlList c
  else if seg.ack then
    let c := finAcked seg (processACK env seg c)
    let c := receivePayload env seg c
    if seg.fin then finClosing env seg c else c
  else c

def handleFinWait2 (env : Env) (seg : Segment) (c : Conn) : Conn :=
  if seg.ack then
    let c := receivePayload env seg (processACK env seg c)
    if seg.fin then
      if seg.payloadEnd = c.rcvNxt then
        addtoControlList
          (addtoTimewaitList env { c with state := .timeWait, rcvNxt := c.rcvNxt + 1 })
      else c
    else c
  else c

def handleClosing (env : Env) (seg : Segment) (c : Conn) : Conn :=
  if seg.ack then
    let c := processACK env seg c
    if !c.isFinSent then c
    else if seg.ackSeq ≠ c.fss + 1 then c
    else
      let c := updateRetransmissionTimer env { c with sndUna := seg.ackSeq, sndNxt := seg.ackSeq }
      addtoTimewaitList env { c with state := .timeWait }
  else c

def handleTimeWait (env : Env) (c : Conn) : Conn :=
  addtoControlList <|
    if c.onTimewaitList then addtoTimewaitList env (removeFromTimewaitList c) else c

/-! ## The packet -/

/-- The `switch` of `ProcessTCPPacket`. -/
def handleState (env : Env) (seg : Segment) (c : Conn) : Conn :=
  match c.state with
  | .listen => handleListen seg c
  | .synSent => handleSynSent env seg c
  | .synRcvd =>
    if seg.syn ∧ seg.seq = c.irs then handleListen seg c
    else
      let c := handleSynRcvd env seg c
      if 0 < seg.payload.length ∧ c.state = .established then handleEstablished env seg c else c
  | .established => handleEstablished env seg c
  | .closeWait => handleCloseWait env seg c
  | .lastAck => handleLastAck env seg c
  | .finWait1 => handleFinWait1 env seg c
  | .finWait2 => handleFinWait2 env seg c
  | .closing => handleClosing env seg c
  | .timeWait => handleTimeWait env c
  | .closed => c

/-- What an admitted segment changes before its state handler runs. -/
def admitSegment (env : Env) (seg : Segment) (c : Conn) : Conn :=
  let c := updateTimeoutList { c with peerWnd := scaledWindow seg c, lastActiveTs := env.curTs }
  if seg.rst then { c with haveReset := true } else c

/-- The part of `ProcessTCPPacket` behind the validation. -/
def dispatchSegment (env : Env) (seg : Segment) (c : Conn) : Conn :=
  let c := admitSegment env seg c
  if seg.rst ∧ TcpState.synSent.code < c.state.code then
    let r := processRST env seg.ackSeq c
    if r.2 then r.1 else handleState env seg r.1
  else handleState env seg c

def processTCPPacket (env : Env) (seg : Segment) (c : Conn) : Conn :=
  if TcpState.synRcvd.code < c.state.code then
    let r := validateSequence env seg c
    if r.2 then dispatchSegment env seg r.1 else r.1
  else dispatchSegment env seg c

end MtcpStack
