import MtcpStack.Model.Api

/-! # The life of one stream as a state machine

An event is one thing that can happen to a stream: a segment arrives, a pass of the main loop
reaches it on one of its lists, the thread takes it from one of the queues, or the application
makes a call. Each is one atomic step. -/

namespace MtcpStack

inductive Event where
  | packet (env : Env) (seg : Segment)
  | rtoPass (env : Env)
  | timewaitPass (env : Env)
  | timeoutPass (env : Env)
  | controlPass (env : Env) (tx : List Bool)
  | dataPass (env : Env) (tx : List Bool)
  | ackPass (env : Env) (tx : List Bool)
  | connectq
  | sendq
  | ackq
  | closeq (cfg : Config)
  | closeqInt
  | resetq (cfg : Config)
  | resetqInt
  | destroyq (cfg : Config)
  | accept (socket : Option Socket)
  | closeListener
  | read (len : ℕ)
  | write (env : Env) (buf : List U8)
  | close
  | abort
  | others (shared : Shared)

namespace Event

/-- When an event can happen: a pass reaches only a stream that is on its list, and a queue
yields only a stream that is in it. -/
def enabled (c : Conn) : Event → Bool
  | packet _ _ => c.onHashTable
  | rtoPass _ => decide (0 ≤ c.onRtoIdx)
  | timewaitPass _ => c.onTimewaitList
  | timeoutPass _ => c.onTimeoutList
  | controlPass _ _ => c.onControlList
  | dataPass _ _ => c.onSendList
  | ackPass _ _ => c.onAckList
  | connectq => decide (0 < c.connectq)
  | sendq => decide (0 < c.sendq)
  | ackq => decide (0 < c.ackq)
  | closeq _ => decide (0 < c.closeq)
  | closeqInt => decide (0 < c.closeqInt)
  | resetq _ => decide (0 < c.resetq)
  | resetqInt => decide (0 < c.resetqInt)
  | destroyq _ => decide (0 < c.destroyq)
  | accept _ => decide (0 < c.acceptq)
  | closeListener | read _ | write _ _ | close | abort | others _ => true

/-- What an event does to the stream; the passes are given the answers of the IP layer. -/
def apply (c : Conn) : Event → Conn
  | packet env seg => processTCPPacket env seg c
  | rtoPass env => rtoListStep env c.onRtoIdx.toNat c
  | timewaitPass env => (timewaitStep env c).1
  | timeoutPass env => (timeoutStep env c).1
  | controlPass env tx => (controlListStep env { c with tx }).1
  | dataPass env tx => (dataListStep env { c with tx }).1
  | ackPass env tx => (ackListStep env { c with tx }).1
  | connectq => dequeueConnect c
  | sendq => dequeueSend c
  | ackq => dequeueAck c
  | closeq cfg => dequeueClose cfg c
  | closeqInt => dequeueCloseInt c
  | resetq cfg => dequeueReset cfg c
  | resetqInt => dequeueResetInt c
  | destroyq cfg => dequeueDestroy cfg c
  | accept socket => mtcpAccept socket c
  | closeListener => { c with acceptq := 0 }
  | read len => (mtcpRead len c).1
  | write env buf => (mtcpWrite env buf c).1
  | close => mtcpClose c
  | abort => mtcpAbort c
  | others shared => { c with toShared := shared }

end Event

/-- The streams at the start of their lives: opened by the application, or by a SYN. -/
inductive Born : Conn → Prop
  | active (cfg : Config) (iss : U32) (socket : Socket) (sid : ℕ) (sh : Shared) (queued : Bool) :
      Born (mtcpConnect cfg iss socket sid sh queued)
  | passive (env : Env) (iss : U32) (sid : ℕ) (sh : Shared) (seg : Segment)
      (hsyn : seg.syn = true) (hack : seg.ack = false) :
      Born (handlePassiveOpen env iss sid sh seg)

end MtcpStack
