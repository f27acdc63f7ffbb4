import MtcpStack.Model.RingBuffer
import MtcpStack.Model.SendBuffer

/-! # Streams and the state a stack call works on

`TcpStream` is the source's `struct tcp_stream` with its send and receive variables. The
functions of the stack work on one stream at a time and on what it shares with the others: the
sender and timer lists with their counters, and the RTO wheel. `Conn` is that state, together
with the references other parts of the stack hold to the stream and a trace of what the stack
did to the outside. -/

namespace MtcpStack

/-! ## The stream -/

/-- The part of a socket map entry that the stack reads. -/
structure Socket where
  nonblock : Bool
  epollIn : Bool
  epollOut : Bool
  epollErr : Bool
  epollRdhup : Bool
  epollEt : Bool
  deriving DecidableEq, Repr

/-- The sending variables of `struct tcp_send_vars`. -/
structure SndVars where
  mss : U16
  effMss : U16
  wscaleMine : U8
  wscalePeer : U8
  sndUna : U32
  sndWnd : U32
  peerWnd : U32
  iss : U32
  fss : U32
  nrtx : U8
  maxNrtx : U8
  rto : U32
  tsRto : U32
  cwnd : U32
  ssthresh : U32
  tsLastackSent : U32
  isWack : Bool
  ackCnt : BitVec 6
  isFinSent : Bool
  sndbuf : Option SendBuffer

/-- `struct tcp_recv_vars`. -/
structure RcvVars where
  rcvWnd : U32
  irs : U32
  sndWl1 : U32
  sndWl2 : U32
  dupAcks : U8
  lastAckSeq : U32
  tsRecent : U32
  tsLastackRcvd : U32
  tsLastTsUpd : U32
  tsTwExpire : U32
  srtt : U32
  mdev : U32
  mdevMax : U32
  rttvar : U32
  rttSeq : U32
  rcvbuf : Option RingBuffer

/-- The flags that say on which of the intrusive lists a stream is linked. -/
structure ListFlags where
  onControlList : Bool
  onSendList : Bool
  onAckList : Bool
  onRtoIdx : ℤ
  onTimewaitList : Bool
  onTimeoutList : Bool

/-- The flags that say in which of the queues between threads a stream waits. -/
structure QueueFlags where
  onSendq : Bool
  onAckq : Bool
  onCloseq : Bool
  onResetq : Bool
  onCloseqInt : Bool
  onResetqInt : Bool

/-- `struct tcp_stream`. -/
structure TcpStream extends SndVars, RcvVars, ListFlags, QueueFlags where
  socket : Option Socket
  state : TcpState
  closeReason : CloseReason
  onHashTable : Bool
  closed : Bool
  needWndAdv : Bool
  sawTimestamp : Bool
  sackPermit : Bool
  controlListWaiting : Bool
  haveReset : Bool
  sndNxt : U32
  rcvNxt : U32
  lastActiveTs : U32

/-! ## What the streams of a thread share -/

/-- The lists of the sender and of the timers, as stream ids in list order, with the counters
the source keeps next to them, and the wheel of retransmission timers. -/
structure Shared where
  controlList : List ℕ
  sendList : List ℕ
  ackList : List ℕ
  rtoList : ℕ → List ℕ
  timewaitList : List ℕ
  timeoutList : List ℕ
  controlListCnt : ℤ
  sendListCnt : ℤ
  ackListCnt : ℤ
  rtoListCnt : ℤ
  timewaitListCnt : ℤ
  timeoutListCnt : ℤ
  rtoNowIdx : ℕ
  rtoNowTs : U32

/-- How often the queues between the threads hold the stream, and whether a socket map entry
points to it. -/
structure Refs where
  connectq : ℕ
  sendq : ℕ
  ackq : ℕ
  closeq : ℕ
  closeqInt : ℕ
  resetq : ℕ
  resetqInt : ℕ
  destroyq : ℕ
  acceptq : ℕ
  smap : Bool
  deriving DecidableEq, Repr

/-- The places where the source runs into an assertion, a null pointer, a division by zero, an
access outside a buffer or a loop without end. -/
inductive Fault where
  | noSendBuffer
  | noRcvbuf
  | noListener
  | flushBelowHead
  | flushBelowUna
  | flushPastEnd
  | sendRead
  | sendWrite
  | ringBuffer
  | rtoState
  | rtoZero
  | timewaitTwice
  | timeoutTwice
  | divByZero
  | optionLoop
  | notOnHashTable
  deriving DecidableEq, Repr

/-- A segment handed to the IP layer. `una`, `cwnd` and `peerWnd` are the send variables at that
moment. -/
structure TxSegment where
  flags : TcpFlags
  seq : U32
  ackSeq : U32
  window : U32
  payload : List U8
  sndNxt : U32
  una : U32
  cwnd : U32
  peerWnd : U32
  deriving DecidableEq, Repr

/-- What the stack does besides changing the stream. -/
inductive Act where
  | sent (t : TxSegment)
  | sentReset (seq ackSeq : U32) (ack : Bool)
  | raised (e : AppEvent)
  | wrote (bytes : List U8)
  | accepted (seq : U32) (bytes : List U8)
  | delivered (bytes : List U8)
  | timedOut
  | destroyed (freed : Option SendBuffer)
  | fault (f : Fault)
  deriving DecidableEq, Repr

/-- The state of a call of the stack: the current stream and its id, what it shares with the
others, the references to it, the answers the IP layer will give, and the trace so far. -/
structure Conn extends TcpStream, Shared, Refs where
  sid : ℕ
  tx : List Bool
  log : List Act

/-- Appends to the trace. -/
def Conn.act (c : Conn) (a : Act) : Conn := { c with log := c.log ++ [a] }

def Conn.fault (c : Conn) (f : Fault) : Conn := c.act (.fault f)

/-! ## The rest of the world -/

/-- The fields of `CONFIG` the stream functions read. -/
structure Config where
  tcpTimeout : ℤ
  tcpTimewait : U32
  sndbufSize : U32
  deriving DecidableEq, Repr

/-- What the listener lookup of the SYN_RCVD handler finds. -/
inductive ListenerAnswer where
  | absent
  | full
  | queued
  deriving DecidableEq, Repr

/-- What a call is given from outside: the clock, the memory blocks the pools would hand out,
and the listener of the port. -/
structure Env where
  cfg : Config
  curTs : U32
  rcvChunk : Option (List U8)
  sndChunk : Option (List U8)
  listener : ListenerAnswer
  deriving DecidableEq, Repr

/-- A received segment; `opt` reads the bytes behind the fixed header, of which `optLen` are
options. -/
structure Segment where
  seq : U32
  ackSeq : U32
  window : U16
  fin : Bool
  syn : Bool
  rst : Bool
  ack : Bool
  payload : List U8
  opt : ℕ → U8
  optLen : ℕ

end MtcpStack
