import MtcpStack.Model.Input
import MtcpStack.Model.Output

/-! # Application calls (`api.c`) and their queues (`core.c`)

Every call works on the socket map entry that points to the stream; without one it returns an
error and changes nothing. The queues that the source comments as never full take every stream;
the connect queue may refuse one. -/

namespace MtcpStack

open Slice

/-! ## Opening -/

/-- The fields `CreateTCPStream` and the zeroed memory give a new stream. -/
def createTCPStream (cfg : Config) (iss : U32) (socket : Option Socket) : TcpStream where
  mss := tcpDefaultMss
  effMss := 0
  wscaleMine := tcpDefaultWscale
  wscalePeer := 0
  sndUna := iss
  sndWnd := cfg.sndbufSize
  peerWnd := 0
  iss := iss
  fss := 0
  nrtx := 0
  maxNrtx := 0
  rto := tcpInitialRto
  tsRto := 0
  cwnd := 0
  ssthresh := 0
  tsLastackSent := 0
  isWack := false
  ackCnt := 0
  isFinSent := false
  sndbuf := none
  rcvWnd := tcpInitialWindow
  irs := 0
  sndWl1 := -1
  sndWl2 := 0
  dupAcks := 0
  lastAckSeq := 0
  tsRecent := 0
  tsLastackRcvd := 0
  tsLastTsUpd := 0
  tsTwExpire := 0
  srtt := 0
  mdev := 0
  mdevMax := 0
  rttvar := 0
  rttSeq := 0
  rcvbuf := none
  onControlList := false
  onSendList := false
  onAckList := false
  onRtoIdx := -1
  onTimewaitList := false
  onTimeoutList := false
  onSendq := false
  onAckq := false
  onCloseq := false
  onResetq := false
  onCloseqInt := false
  onResetqInt := false
  socket := socket
  state := .listen
  closeReason := .notClosed
  onHashTable := true
  closed := false
  needWndAdv := false
  sawTimestamp := false
  sackPermit := false
  controlListWaiting := false
  haveReset := false
  sndNxt := iss
  rcvNxt := 0
  lastActiveTs := 0

/-- The lists of a new thread. -/
def Shared.init : Shared where
  controlList := []
  sendList := []
  ackList := []
  rtoList := fun _ => []
  timewaitList := []
  timeoutList := []
  controlListCnt := 0
  sendListCnt := 0
  ackListCnt := 0
  rtoListCnt := 0
  timewaitListCnt := 0
  timeoutListCnt := 0
  rtoNowIdx := 0
  rtoNowTs := 0

def Refs.empty : Refs := ⟨0, 0, 0, 0, 0, 0, 0, 0, 0, false⟩

/-- A stream just created, in the lists `sh` of the other streams. -/
def freshConn (cfg : Config) (iss : U32) (socket : Option Socket) (sid : ℕ) (sh : Shared) : Conn :=
  { toTcpStream := createTCPStream cfg iss socket
    toShared := sh
    toRefs := Refs.empty
    sid := sid
    tx := []
    log := [] }

/-- `mtcp_connect` from the creation of the stream on; `queued` says whether the connect queue
had room. -/
def mtcpConnect (cfg : Config) (iss : U32) (socket : Socket) (sid : ℕ) (sh : Shared)
    (queued : Bool) : Conn :=
  let c := freshConn cfg iss (some socket) sid sh
  let c :=
    { c with
      smap := true
      cwnd := 1
      ssthresh := c.mss.setWidth 32 * 10
      state := .synSent }
  if queued then { c with connectq := c.connectq + 1 }
  else { c with destroyq := c.destroyq + 1 }

/-- `HandlePassiveOpen` followed by the rest of `ProcessTCPPacket` for the SYN. -/
def handlePassiveOpen (env : Env) (iss : U32) (sid : ℕ) (sh : Shared) (seg : Segment) : Conn :=
  let c := freshConn env.cfg iss none sid sh
  let c :=
    { c with irs := seg.seq, peerWnd := seg.window.setWidth 32, rcvNxt := seg.seq, cwnd := 1 }
  let c :=
    match parseTCPOptions env.curTs seg.opt seg.optLen c with
    | none => c.fault .optionLoop
    | some c => c
  processTCPPacket env seg c

/-- `mtcp_accept` on the stream at the head of the accept queue; `socket` is the entry
`AllocateSocket` finds, if any. -/
def mtcpAccept (socket : Option Socket) (c : Conn) : Conn :=
  if c.acceptq = 0 then c
  else
    let c := { c with acceptq := c.acceptq - 1 }
    if c.socket.isSome then c
    else
      match socket with
      | none => c
      | some s => { c with socket := some s, smap := true }

/-! ## Reading and writing -/

/-- The reader asks for a window update when the window had closed and has room again. -/
def advertiseWindow (c : Conn) : Conn :=
  if c.needWndAdv ∧ c.effMss.toNat < c.rcvWnd.toNat ∧ c.onAckq = false then
    { c with onAckq := true, ackq := c.ackq + 1, needWndAdv := false }
  else c

def copyToUser (b : RingBuffer) (len : ℕ) (c : Conn) : Conn × ℤ :=
  let copylen := min b.mergedLen len
  if copylen = 0 then (c, -1)
  else
    match slice b.data b.head copylen, rbRemove b copylen with
    | some bytes, some (b', _) =>
      (advertiseWindow
        { c.act (.delivered bytes) with
          rcvbuf := some b'
          rcvWnd := BitVec.ofNat 32 (b'.size - b'.mergedLen) }, (copylen : ℤ))
    | _, _ => (c.fault .ringBuffer, -1)

/-- The event a reader leaves behind: more data for a level-triggered socket, or the end of the
stream. -/
def remindReader (s : Socket) (ret : ℤ) (c : Conn) : Conn :=
  let merged := match c.rcvbuf with
    | none => 0
    | some b => b.mergedLen
  if (s.epollIn ∧ s.epollEt = false ∧ 0 < merged) ∨
      (c.state = .closeWait ∧ merged = 0 ∧ 0 < ret) then
    if s.epollIn ∨ s.epollOut ∨ s.epollErr ∨ s.epollRdhup ∨ s.epollEt then c.act (.raised .read)
    else c
  else c

/-- `mtcp_recv` without flags. -/
def mtcpRead (len : ℕ) (c : Conn) : Conn × ℤ :=
  match c.smap, c.socket with
  | true, some s =>
    if c.state.code < TcpState.established.code ∨ TcpState.closeWait.code < c.state.code then (c, -1)
    else
      match c.rcvbuf with
      | none =>
        if c.state = .closeWait then (c, 0)
        else if s.nonblock then (c, -1)
        else (c.fault .noRcvbuf, -1)
      | some b =>
        if b.mergedLen = 0 then (c, if c.state = .closeWait then 0 else -1)
        else
          let r := copyToUser b len c
          (remindReader s r.2 r.1, r.2)
  | _, _ => (c, -1)

/-- The send buffer, allocated on first use. -/
def openSndbuf (env : Env) (c : Conn) : Option SendBuffer :=
  match c.sndbuf with
  | some b => some b
  | none => env.sndChunk.map fun chunk => sbInit chunk (c.iss + 1)

def copyFromUser (env : Env) (buf : List U8) (c : Conn) : Conn × ℤ :=
  let sndlen := min c.sndWnd.toInt buf.length
  if sndlen ≤ 0 then (c, -1)
  else
    match openSndbuf env c with
    | none => ({ c with closeReason := .noMem }, -1)
    | some b =>
      match sbPut b (buf.take sndlen.toNat) with
      | none => (Conn.fault { c with sndbuf := some b } .sendWrite, -1)
      | some (b', ret) =>
        let c :=
          { c with
            sndbuf := some b'
            sndWnd := BitVec.ofNat 32 b'.size - BitVec.ofNat 32 b'.len }
        let c := if ret = sndlen then c else c.fault .sendWrite
        if ret ≤ 0 then (c, -1) else (c.act (.wrote (buf.take ret.toNat)), ret)

/-- Data waits in the buffer: the stream goes to the send queue unless it is on its way. -/
def enqueueSend (c : Conn) : Conn :=
  if c.onSendq || c.onSendList then c
  else { c with onSendq := true, sendq := c.sendq + 1 }

def mtcpWrite (env : Env) (buf : List U8) (c : Conn) : Conn × ℤ :=
  match c.smap, c.socket with
  | true, some s =>
    if c.state ≠ .established ∧ c.state ≠ .closeWait then (c, -1)
    else if buf.length = 0 then (c, if s.nonblock then -1 else 0)
    else
      let r := copyFromUser env buf c
      let c := if 0 < r.2 then enqueueSend r.1 else r.1
      let c := if 0 < c.sndWnd.toNat ∧ s.epollOut ∧ s.epollEt = false then c.act (.raised .write)
        else c
      (c, r.2)
  | _, _ => (c, -1)

/-! ## Closing -/

/-- `CloseStreamSocket`. -/
def closeStreamSocket (c : Conn) : Conn :=
  if c.closed then c
  else
    let c := { c with closed := true, socket := none }
    match c.state with
    | .closed | .synSent => { c with destroyq := c.destroyq + 1 }
    | .established | .closeWait => { c with onCloseq := true, closeq := c.closeq + 1 }
    | _ => c

/-- `mtcp_close`: the socket is freed whatever becomes of the stream. -/
def mtcpClose (c : Conn) : Conn :=
  if c.smap then { closeStreamSocket c with smap := false } else c

def mtcpAbort (c : Conn) : Conn :=
  if c.smap then
    let c := { c with smap := false, socket := none }
    match c.state with
    | .closed => c
    | .synSent | .closing | .lastAck | .timeWait =>
      { c with state := .closed, closeReason := .activeClose, destroyq := c.destroyq + 1 }
    | _ => if c.onResetq then c else { c with onResetq := true, resetq := c.resetq + 1 }
  else c

/-! ## `HandleApplicationCalls`

One definition for what is done with a stream taken from each queue. -/

def dequeueConnect (c : Conn) : Conn :=
  addtoControlList { c with connectq := c.connectq - 1 }

def dequeueSend (c : Conn) : Conn :=
  addtoSendList { c with sendq := c.sendq - 1, onSendq := false }

def dequeueAck (c : Conn) : Conn :=
  enqueueACK .aggregate { c with ackq := c.ackq - 1, onAckq := false }

/-- The state a close leads to. -/
def closingState (s : TcpState) : TcpState :=
  match s with
  | .established => .finWait1
  | .closeWait => .lastAck
  | s => s

/-- `fss`: the sequence number behind everything written. -/
def finalSeq (c : Conn) : U32 :=
  match c.sndbuf with
  | some b => b.headSeq + BitVec.ofNat 32 b.len
  | none => c.sndNxt

def dequeueClose (cfg : Config) (c : Conn) : Conn :=
  let c := { c with closeq := c.closeq - 1, onCloseq := false, fss := finalSeq c }
  let c := if 0 < cfg.tcpTimeout then removeFromTimeoutList c else c
  if c.haveReset then
    if c.state ≠ .closed then
      destroyTCPStream cfg { c with closeReason := .reset, state := .closed }
    else c
  else if c.onControlList then { c with onCloseqInt := true, closeqInt := c.closeqInt + 1 }
  else if c.onSendList || c.onAckList then
    { c with state := closingState c.state, controlListWaiting := true }
  else if c.state ≠ .closed then addtoControlList { c with state := closingState c.state }
  else c

def dequeueCloseInt (c : Conn) : Conn :=
  if c.onControlList then c
  else
    let c := { c with closeqInt := c.closeqInt - 1, onCloseqInt := false }
    if c.state ≠ .closed then addtoControlList { c with state := closingState c.state } else c

/-- The reset of a stream that is on no sender list: a RST will follow. -/
def resetStream (c : Conn) : Conn :=
  if c.state ≠ .closed then
    addtoControlList { c with closeReason := .activeClose, state := .closed }
  else c

def dequeueReset (cfg : Config) (c : Conn) : Conn :=
  let c := { c with resetq := c.resetq - 1, onResetq := false }
  let c := if 0 < cfg.tcpTimeout then removeFromTimeoutList c else c
  if c.haveReset then
    if c.state ≠ .closed then
      destroyTCPStream cfg { c with closeReason := .reset, state := .closed }
    else c
  else if c.onControlList || c.onSendList || c.onAckList then
    { c with onResetqInt := true, resetqInt := c.resetqInt + 1 }
  else resetStream c

def dequeueResetInt (c : Conn) : Conn :=
  if c.onControlList || c.onSendList || c.onAckList then c
  else resetStream { c with resetqInt := c.resetqInt - 1, onResetqInt := false }

def dequeueDestroy (cfg : Config) (c : Conn) : Conn :=
  destroyTCPStream cfg { c with destroyq := c.destroyq - 1 }

/-- `HandleApplicationCalls`, as it treats one stream: every queue is emptied in turn, the
internal ones being walked once. -/
def handleApplicationCalls (cfg : Config) (c : Conn) : Conn :=
  let c := dequeueConnect^[c.connectq] c
  let c := dequeueSend^[c.sendq] c
  let c := dequeueAck^[c.ackq] c
  let c := (dequeueClose cfg)^[c.closeq] c
  let c := dequeueCloseInt^[c.closeqInt] c
  let c := (dequeueReset cfg)^[c.resetq] c
  let c := dequeueResetInt^[c.resetqInt] c
  (dequeueDestroy cfg)^[c.destroyq] c

end MtcpStack
