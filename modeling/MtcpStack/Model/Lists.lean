import MtcpStack.Model.Stream
import Mathlib.Logic.Function.Basic

/-! # List primitives (`tcp_out.c`, `timer.c`, `tcp_stream.c`)

Linking a stream on the sender and timer lists, raising events, and destroying a stream.
`TAILQ_INSERT_TAIL` appends the stream's id, `TAILQ_REMOVE` erases it. -/

namespace MtcpStack

/-! ## Sender lists -/

def addtoControlList (c : Conn) : Conn :=
  if c.onControlList then c
  else
    { c with
      onControlList := true
      controlList := c.controlList ++ [c.sid]
      controlListCnt := c.controlListCnt + 1 }

def addtoSendList (c : Conn) : Conn :=
  if c.sndbuf.isNone then c.fault .noSendBuffer
  else if c.onSendList then c
  else
    { c with
      onSendList := true
      sendList := c.sendList ++ [c.sid]
      sendListCnt := c.sendListCnt + 1 }

def addtoACKList (c : Conn) : Conn :=
  if c.onAckList then c
  else
    { c with
      onAckList := true
      ackList := c.ackList ++ [c.sid]
      ackListCnt := c.ackListCnt + 1 }

def removeFromControlList (c : Conn) : Conn :=
  if c.onControlList then
    { c with
      onControlList := false
      controlList := c.controlList.erase c.sid
      controlListCnt := c.controlListCnt - 1 }
  else c

def removeFromSendList (c : Conn) : Conn :=
  if c.onSendList then
    { c with
      onSendList := false
      sendList := c.sendList.erase c.sid
      sendListCnt := c.sendListCnt - 1 }
  else c

def removeFromACKList (c : Conn) : Conn :=
  if c.onAckList then
    { c with
      onAckList := false
      ackList := c.ackList.erase c.sid
      ackListCnt := c.ackListCnt - 1 }
  else c

def enqueueACK (opt : AckOpt) (c : Conn) : Conn :=
  addtoACKList <|
    match opt with
    -- the guard against overflow compares in `int` and never holds the counter back
    | .now => { c with ackCnt := c.ackCnt + 1 }
    | .aggregate => if c.ackCnt = 0 then { c with ackCnt := 1 } else c
    | .wack => { c with isWack := true }

/-! ## Timer lists -/

/-- The wheel slot for the deadline of the current stream; the sum is taken in `uint32_t`. -/
def rtoSlot (c : Conn) : ℕ :=
  if (c.tsRto - c.rtoNowTs).toInt < rtoHash then
    (c.tsRto - c.rtoNowTs + BitVec.ofNat 32 c.rtoNowIdx).toNat % rtoHash
  else rtoHash

/-- An empty store takes the deadline of the stream to be inserted as its present time. -/
def rebaseRTOStore (c : Conn) : Conn :=
  if c.rtoListCnt = 0 then { c with rtoNowIdx := 0, rtoNowTs := c.tsRto } else c

/-- Links the stream into the slot of its deadline. -/
def insertRTO (c : Conn) : Conn :=
  { c with
    onRtoIdx := rtoSlot c
    rtoList := Function.update c.rtoList (rtoSlot c) (c.rtoList (rtoSlot c) ++ [c.sid])
    rtoListCnt := c.rtoListCnt + 1 }

def addtoRTOList (c : Conn) : Conn :=
  let c := rebaseRTOStore c
  if c.onRtoIdx < 0 then
    if c.onTimewaitList then c else insertRTO c
  else c

def removeFromRTOList (c : Conn) : Conn :=
  if c.onRtoIdx < 0 then c
  else
    { c with
      onRtoIdx := -1
      rtoList := Function.update c.rtoList c.onRtoIdx.toNat
        ((c.rtoList c.onRtoIdx.toNat).erase c.sid)
      rtoListCnt := c.rtoListCnt - 1 }

def addtoTimewaitList (env : Env) (c : Conn) : Conn :=
  let c := { c with tsTwExpire := env.curTs + env.cfg.tcpTimewait }
  if c.onTimewaitList then
    { c with timewaitList := c.timewaitList.erase c.sid ++ [c.sid] }
  else
    let c := removeFromRTOList c
    { c with
      onTimewaitList := true
      timewaitList := c.timewaitList ++ [c.sid]
      timewaitListCnt := c.timewaitListCnt + 1 }

def removeFromTimewaitList (c : Conn) : Conn :=
  if c.onTimewaitList then
    { c with
      onTimewaitList := false
      timewaitList := c.timewaitList.erase c.sid
      timewaitListCnt := c.timewaitListCnt - 1 }
  else c.fault .timewaitTwice

def addtoTimeoutList (c : Conn) : Conn :=
  if c.onTimeoutList then c.fault .timeoutTwice
  else
    { c with
      onTimeoutList := true
      timeoutList := c.timeoutList ++ [c.sid]
      timeoutListCnt := c.timeoutListCnt + 1 }

def removeFromTimeoutList (c : Conn) : Conn :=
  if c.onTimeoutList then
    { c with
      onTimeoutList := false
      timeoutList := c.timeoutList.erase c.sid
      timeoutListCnt := c.timeoutListCnt - 1 }
  else c

def updateTimeoutList (c : Conn) : Conn :=
  if c.onTimeoutList then
    { c with timeoutList := c.timeoutList.erase c.sid ++ [c.sid] }
  else c

def updateRetransmissionTimer (env : Env) (c : Conn) : Conn :=
  let c := if c.rto = 0 then c.fault .rtoZero else c
  let c := removeFromRTOList { c with nrtx := 0 }
  if tcpSeqGt c.sndNxt c.sndUna then addtoRTOList { c with tsRto := env.curTs + c.rto } else c

/-! ## Events and destruction -/

/-- An event is queued when the stream has a socket registered for it. -/
def raiseEvent (e : AppEvent) (registered : Socket → Bool) (c : Conn) : Conn :=
  match c.socket with
  | none => c
  | some s => if registered s then c.act (.raised e) else c

def raiseReadEvent : Conn → Conn := raiseEvent .read (·.epollIn)

def raiseWriteEvent : Conn → Conn := raiseEvent .write (·.epollOut)

def raiseCloseEvent : Conn → Conn := raiseEvent .close fun s => s.epollRdhup || s.epollIn

def raiseErrorEvent : Conn → Conn := raiseEvent .error (·.epollErr)

/-- Takes the stream off every sender and timer list, as `DestroyTCPStream` does first. -/
def unlinkStream (cfg : Config) (c : Conn) : Conn :=
  let c := removeFromACKList (removeFromSendList (removeFromControlList c))
  let c := removeFromRTOList c
  let c := if c.onTimewaitList then removeFromTimewaitList c else c
  if 0 < cfg.tcpTimeout then removeFromTimeoutList c else c

/-- `DestroyTCPStream`. The queues between the threads and the socket map are not touched; the
trace keeps the send buffer that is freed. -/
def destroyTCPStream (cfg : Config) (c : Conn) : Conn :=
  let c := unlinkStream cfg c
  let c := if c.onHashTable then c else c.fault .notOnHashTable
  Conn.act { c with sndbuf := none, rcvbuf := none, onHashTable := false } (.destroyed c.sndbuf)

end MtcpStack
