import Mathlib.Logic.Relation
import MtcpStack.Verification.Endpoint
import MtcpStack.Verification.Reassembly

/-! # What can happen to an endpoint

`Effect` lists every change a step of the stack can make to the endpoint of a stream, with the
conditions under which the code makes it. A property of the protocol is proved for these
effects; the stack itself is shown to make no others. Some effects break properties the code is
meant to keep. They carry the name of a hazard: with the hazard avoided, the condition that is
missing in the code holds. -/

namespace MtcpStack

/-! ## Vocabulary -/

/-- The sequence number behind the buffered bytes. -/
def SendBuffer.endSeq (b : SendBuffer) : U32 := b.headSeq + BitVec.ofNat 32 b.len

/-- The states in which `WriteTCPDataList` flushes the send buffer. -/
def TcpState.flushes (s : TcpState) : Prop :=
  s = .established ∨ s = .closeWait ∨ s = .finWait1 ∨ s = .lastAck

/-- The states behind a close by the application. -/
def TcpState.closes (s : TcpState) : Prop :=
  s = .finWait1 ∨ s = .finWait2 ∨ s = .closing ∨ s = .lastAck ∨ s = .timeWait

instance (s : TcpState) : Decidable s.flushes := inferInstanceAs (Decidable (_ ∨ _))

instance (s : TcpState) : Decidable s.closes := inferInstanceAs (Decidable (_ ∨ _))

/-- The FIN is out and waits for its acknowledgement. -/
def finOut (state : TcpState) (sndNxt fss : U32) : Prop :=
  (state = .finWait1 ∨ state = .lastAck) ∧ sndNxt = fss + 1

/-- The situations in which the code goes on although a property it relies on is lost. -/
inductive Hazard where
  /-- a SYN in ESTABLISHED whose acknowledgement number is not `snd_nxt` -/
  | synEstablished
  /-- an acceptable ACK without SYN in SYN_SENT -/
  | pureAck
  /-- the third duplicate acknowledges less than `snd_una` -/
  | staleRewind
  /-- the acknowledgement number is exactly 2^31 from the end of the buffer -/
  | farAck
  /-- a FIN is due while written data waits in the send queue -/
  | finBehindQueue
  /-- a stream whose FIN is out comes on the control list again -/
  | finRequeued
  /-- the peer's FIN arrives in FIN_WAIT_1 before the own FIN is sent -/
  | earlyFin
  /-- a memory pool is empty -/
  | noMemory
  /-- a send buffer of 2^31 - 1 bytes or more -/
  | bigBuffer
  /-- `mtcp_accept` returns a stream that has been closed -/
  | acceptClosed
  /-- a SYN without ACK in SYN_SENT -/
  | simultaneousOpen
  /-- a receive buffer that is smaller than the initial window, or too large to be compared -/
  | smallBuffer
  /-- payload that does not agree with the peer's stream `S`, or a buffer of 2^30 bytes or more -/
  | foreign (S : ℕ → U8)
  /-- no hazard, but avoided by the steps that leave the receive buffer alone: payload arrives -/
  | payload
  /-- likewise: the application reads -/
  | read

/-- A segment whose payload belongs to the peer's stream `S` at the frontier of `c`, small enough
for the receive buffer. -/
structure Genuine (S : ℕ → U8) (env : Env) (seg : Segment) (c : Conn) : Prop where
  length_lt : seg.payload.length < 2 ^ 31
  chunk_lt : ∀ chunk, env.rcvChunk = some chunk → chunk.length < 2 ^ 30
  agrees : Agrees S (c.irs + 1) (frontier (received c)) seg.seq seg.payload

/-- The receive buffer has room for the initial window. -/
structure Roomy (env : Env) (seg : Segment) : Prop where
  length_lt : seg.payload.length < 2 ^ 31
  chunk_ge : ∀ chunk, env.rcvChunk = some chunk → tcpInitialWindow.toNat ≤ chunk.length
  chunk_lt : ∀ chunk, env.rcvChunk = some chunk → chunk.length < 2 ^ 30

/-! ## The transitions of an endpoint -/

namespace Endpoint

/-- The control packet held back by `control_list_waiting` is queued. -/
def release (p : Endpoint) : Endpoint := { p with waiting := false, onControlList := true }

def leaveSend (p : Endpoint) : Endpoint :=
  let p := { p with onSendList := false }
  if p.waiting && !p.onAckList then p.release else p

def leaveAck (stays : Bool) (p : Endpoint) : Endpoint :=
  let p := { p with onAckList := stays }
  if p.waiting && !p.onSendList then p.release else p

/-- The list that will send again after a rewind. -/
def requeue (p : Endpoint) : Endpoint :=
  match p.state with
  | .established | .closeWait => { p with onSendList := p.onSendList || p.sndbuf.isSome }
  | .finWait1 | .closing | .lastAck =>
    if tcpSeqLt p.sndNxt p.fss then
      { p with
        onControlList := false
        waiting := true
        onSendList := p.onSendList || p.sndbuf.isSome }
    else { p with onControlList := true }
  | _ => { p with onControlList := true }

def finalSeq (p : Endpoint) : U32 :=
  match p.sndbuf with
  | some b => b.endSeq
  | none => p.sndNxt

def dequeueConnect (p : Endpoint) : Endpoint :=
  { p with connectq := p.connectq - 1, onControlList := true }

def dequeueSend (p : Endpoint) : Endpoint :=
  { p with
    sendq := p.sendq - 1
    onSendq := false
    onSendList := p.onSendList || p.sndbuf.isSome }

def dequeueAck (p : Endpoint) : Endpoint :=
  { p with ackq := p.ackq - 1, onAckq := false, onAckList := true }

/-- What becomes of a stream taken from the close queue, once `fss` is set. -/
def closeTaken (p : Endpoint) : Endpoint :=
  if p.haveReset then
    if p.state ≠ .closed then { p with closeReason := .reset, state := .closed }.destroy else p
  else if p.onControlList then { p with onCloseqInt := true, closeqInt := p.closeqInt + 1 }
  else if p.onSendList || p.onAckList then
    { p with state := closingState p.state, waiting := true }
  else if p.state ≠ .closed then { p with state := closingState p.state, onControlList := true }
  else p

def dequeueClose (p : Endpoint) : Endpoint :=
  { p with closeq := p.closeq - 1, onCloseq := false, fss := p.finalSeq }.closeTaken

/-- The ways of `closeTaken`. -/
inductive CloseTaken (p : Endpoint) : Endpoint → Prop
  | freed : CloseTaken p { p with closeReason := .reset, state := .closed }.destroy
  | kept (hclosed : p.state = .closed) : CloseTaken p p
  | requeued (hreset : ¬ p.haveReset = true) (hon : p.onControlList = true) :
      CloseTaken p { p with onCloseqInt := true, closeqInt := p.closeqInt + 1 }
  | waits (hreset : ¬ p.haveReset = true) (hlist : p.onSendList = true ∨ p.onAckList = true) :
      CloseTaken p { p with state := closingState p.state, waiting := true }
  | closes (hreset : ¬ p.haveReset = true) (hopen : p.state ≠ .closed) :
      CloseTaken p { p with state := closingState p.state, onControlList := true }

theorem closeTaken_cases (p : Endpoint) : CloseTaken p p.closeTaken := by
  unfold closeTaken
  split_ifs with hreset hopen hon hlist hopen'
  · exact .freed
  · exact .kept (not_not.1 hopen)
  · exact .requeued hreset hon
  · exact .waits hreset (Bool.or_eq_true_iff.1 hlist)
  · exact .closes hreset hopen'
  · exact .kept (not_not.1 hopen')

theorem dequeueClose_cases (p : Endpoint) :
    CloseTaken { p with closeq := p.closeq - 1, onCloseq := false, fss := p.finalSeq }
      p.dequeueClose :=
  closeTaken_cases _

def dequeueCloseInt (p : Endpoint) : Endpoint :=
  if p.onControlList then p
  else
    let p := { p with closeqInt := p.closeqInt - 1, onCloseqInt := false }
    if p.state ≠ .closed then { p with state := closingState p.state, onControlList := true } else p

/-- The ways of `dequeueCloseInt`. -/
inductive CloseIntTaken (p : Endpoint) : Endpoint → Prop
  | deferred : CloseIntTaken p p
  | closes (hopen : p.state ≠ .closed) : CloseIntTaken p
      { p with
        closeqInt := p.closeqInt - 1
        onCloseqInt := false
        state := closingState p.state
        onControlList := true }
  | kept (hclosed : p.state = .closed) :
      CloseIntTaken p { p with closeqInt := p.closeqInt - 1, onCloseqInt := false }

theorem dequeueCloseInt_cases (p : Endpoint) : CloseIntTaken p p.dequeueCloseInt := by
  unfold dequeueCloseInt
  simp only
  split_ifs with hon hopen
  · exact .deferred
  · exact .closes hopen
  · exact .kept (not_not.1 hopen)

def resetStream (p : Endpoint) : Endpoint :=
  if p.state ≠ .closed then
    { p with closeReason := .activeClose, state := .closed, onControlList := true }
  else p

/-- What becomes of a stream taken from the reset queue. -/
def resetTaken (p : Endpoint) : Endpoint :=
  if p.haveReset then
    if p.state ≠ .closed then { p with closeReason := .reset, state := .closed }.destroy else p
  else if p.onControlList || p.onSendList || p.onAckList then
    { p with onResetqInt := true, resetqInt := p.resetqInt + 1 }
  else p.resetStream

def dequeueReset (p : Endpoint) : Endpoint :=
  { p with resetq := p.resetq - 1, onResetq := false }.resetTaken

/-- The ways of `resetTaken`. -/
inductive ResetTaken (p : Endpoint) : Endpoint → Prop
  | freed : ResetTaken p { p with closeReason := .reset, state := .closed }.destroy
  | kept (hclosed : p.state = .closed) : ResetTaken p p
  | requeued : ResetTaken p { p with onResetqInt := true, resetqInt := p.resetqInt + 1 }
  | resets : ResetTaken p
      { p with closeReason := .activeClose, state := .closed, onControlList := true }

theorem resetTaken_cases (p : Endpoint) : ResetTaken p p.resetTaken := by
  unfold resetTaken resetStream
  split_ifs with hreset hopen hlist hopen'
  · exact .freed
  · exact .kept (not_not.1 hopen)
  · exact .requeued
  · exact .resets
  · exact .kept (not_not.1 hopen')

theorem dequeueReset_cases (p : Endpoint) :
    ResetTaken { p with resetq := p.resetq - 1, onResetq := false } p.dequeueReset :=
  resetTaken_cases _

def dequeueResetInt (p : Endpoint) : Endpoint :=
  if p.onControlList || p.onSendList || p.onAckList then p
  else { p with resetqInt := p.resetqInt - 1, onResetqInt := false }.resetStream

/-- The ways of `dequeueResetInt`. -/
inductive ResetIntTaken (p : Endpoint) : Endpoint → Prop
  | deferred : ResetIntTaken p p
  | resets : ResetIntTaken p
      { p with
        resetqInt := p.resetqInt - 1
        onResetqInt := false
        closeReason := .activeClose
        state := .closed
        onControlList := true }
  | kept (hclosed : p.state = .closed) :
      ResetIntTaken p { p with resetqInt := p.resetqInt - 1, onResetqInt := false }

theorem dequeueResetInt_cases (p : Endpoint) : ResetIntTaken p p.dequeueResetInt := by
  unfold dequeueResetInt resetStream
  simp only
  split_ifs with hlist hopen
  · exact .deferred
  · exact .resets
  · exact .kept (not_not.1 hopen)

def dequeueDestroy (p : Endpoint) : Endpoint := { p with destroyq := p.destroyq - 1 }.destroy

def enqueueSend (p : Endpoint) : Endpoint :=
  if p.onSendq || p.onSendList then p else { p with onSendq := true, sendq := p.sendq + 1 }

def closeSocket (p : Endpoint) : Endpoint :=
  if p.closed then p
  else
    let p := { p with closed := true, hasSocket := false }
    match p.state with
    | .closed | .synSent => { p with destroyq := p.destroyq + 1 }
    | .established | .closeWait => { p with onCloseq := true, closeq := p.closeq + 1 }
    | _ => p

def close (p : Endpoint) : Endpoint :=
  if p.smap then { p.closeSocket with smap := false } else p

def abort (p : Endpoint) : Endpoint :=
  if p.smap then
    let p := { p with smap := false, hasSocket := false }
    match p.state with
    | .closed => p
    | .synSent | .closing | .lastAck | .timeWait =>
      { p with state := .closed, closeReason := .activeClose, destroyq := p.destroyq + 1 }
    | _ => if p.onResetq then p else { p with onResetq := true, resetq := p.resetq + 1 }
  else p

/-- The ways of `abort`. -/
inductive Aborted (p : Endpoint) : Endpoint → Prop
  | unmapped : Aborted p p
  | closed (hmap : p.smap = true) (hclosed : p.state = .closed) :
      Aborted p { p with smap := false, hasSocket := false }
  | closes : Aborted p
      { p with
        smap := false
        hasSocket := false
        state := .closed
        closeReason := .activeClose
        destroyq := p.destroyq + 1 }
  | queued (hopen : p.state ≠ .closed) (hsent : p.state ≠ .synSent) (hon : p.onResetq = true) :
      Aborted p { p with smap := false, hasSocket := false }
  | resets (hopen : p.state ≠ .closed) (hsent : p.state ≠ .synSent) : Aborted p
      { p with smap := false, hasSocket := false, onResetq := true, resetq := p.resetq + 1 }

theorem abort_cases (p : Endpoint) : Aborted p p.abort := by
  unfold abort
  split
  case isFalse => exact .unmapped
  case isTrue hmap =>
    simp only
    split
    case h_1 hclosed => exact .closed hmap hclosed
    case h_6 hopen hsent _ _ _ =>
      split
      case isTrue hon => exact .queued hopen hsent hon
      case isFalse => exact .resets hopen hsent
    all_goals exact .closes

def accept (fresh : Bool) (p : Endpoint) : Endpoint :=
  if p.acceptq = 0 then p
  else
    let p := { p with acceptq := p.acceptq - 1 }
    if !p.hasSocket && fresh then { p with hasSocket := true, smap := true } else p

/-- One of the assertions of `FlushTCPSendingBuffer` has failed. -/
def faulted (p : Endpoint) : Prop :=
  .fault .flushBelowHead ∈ p.trace ∨ .fault .flushBelowUna ∈ p.trace ∨
    .fault .flushPastEnd ∈ p.trace

/-- The acknowledgement number with the one of the FIN counted as data. -/
def adjusted (p : Endpoint) (ackSeq : U32) : U32 :=
  match p.state with
  | .finWait1 | .finWait2 | .closing | .closeWait | .lastAck =>
    if p.isFinSent ∧ ackSeq = p.fss + 1 then ackSeq - 1 else ackSeq
  | _ => ackSeq

/-- The segment is a third duplicate acknowledgement. -/
def thirdDup (p : Endpoint) (seg : Segment) : Prop :=
  p.sndbuf.isSome = true ∧ seg.payload.length = 0 ∧ p.dupAcks = 2 ∧
    p.adjusted seg.ackSeq = p.lastAckSeq ∧ tcpSeqLt (p.adjusted seg.ackSeq) p.sndNxt

/-- The segment acknowledges what SYN_SENT accepts. -/
def acceptable (p : Endpoint) (seg : Segment) : Prop :=
  seg.ack = true ∧ ¬ tcpSeqLeq seg.ackSeq p.iss ∧ ¬ tcpSeqGt seg.ackSeq p.sndNxt

/-- `q` carries the same data and references as `p`. -/
structure SameData (p q : Endpoint) : Prop where
  refs_eq : q.refs = p.refs
  iss_eq : q.iss = p.iss
  sndbuf_eq : q.sndbuf = p.sndbuf
  trace_eq : q.trace = p.trace

/-- The buffer holds nothing below its end when that end is the final sequence number; the
second alternative is a buffer too long for the sequence comparison. -/
def drained (p : Endpoint) : Prop :=
  ∀ b, p.sndbuf = some b → b.endSeq = p.fss → b.len = 0 ∨ 2 ^ 31 ≤ b.len

end Endpoint

/-- What the hazards say about the payload of a segment that the live stream `c` processes. -/
structure PayloadSafe (avoid : Hazard → Prop) (env : Env) (seg : Segment) (c : Conn) : Prop where
  live : c.onHashTable = true
  allowed : ¬ avoid .payload
  roomy : avoid .smallBuffer → Roomy env seg
  genuine : ∀ S, avoid (.foreign S) → Genuine S env seg c

/-! ## Effects

`sg` is the segment being processed, if any. -/

/-- The changes a step of the stack can make to an endpoint when the hazards in `avoid` do not
occur. -/
inductive Effect (avoid : Hazard → Prop) (sg : Option Segment) : Endpoint → Endpoint → Prop
  -- lists
  | control {p} (hstate : p.state ≠ .synSent)
      (hfin : avoid .finRequeued → p.onControlList = false → ¬ finOut p.state p.sndNxt p.fss) :
      Effect avoid sg p { p with onControlList := true }
  | queueAck {p} : Effect avoid sg p { p with onAckList := true }
  | restartTimewait {p} {r : Bool} (hstate : p.state = .timeWait)
      (hr : r = true → p.inRto = true ∧ p.onTimewaitList = true) :
      Effect avoid sg p { p with onTimewaitList := true, inRto := r }
  -- transmission
  | sendHandshake {p t} (hstate : p.state = .synSent ∨ p.state = .synRcvd ∧ p.sndNxt = p.iss)
      (hon : p.onControlList = true) (hseq : t.seq = p.sndNxt) (hpay : t.payload = [])
      (hsyn : t.flags.syn = true) (hfin : t.flags.fin = false) :
      Effect avoid sg p
        (Endpoint.act
          { p with
            onControlList := false
            sndNxt := p.sndNxt + 1
            inRto := p.inRto || !p.onTimewaitList } (.sent t))
  | rewindSynAck {p} (hstate : p.state = .synRcvd) : Effect avoid sg p { p with sndNxt := p.iss }
  | sendFin {p t}
      (hstate : (p.state = .finWait1 ∨ p.state = .lastAck) ∧ p.onSendList = false ∧
          p.onAckList = false ∧ (avoid .finBehindQueue → p.onSendq = false) ∨
        p.state = .closing ∧ (p.isFinSent = true → p.sndNxt = p.fss))
      (hon : p.onControlList = true) (hseq : t.seq = p.fss) (hpay : t.payload = [])
      (hsyn : t.flags.syn = false) (hfin : t.flags.fin = true) (hwack : t.flags.wack = false)
      (hnxt : t.sndNxt = p.sndNxt) :
      Effect avoid sg p
        (Endpoint.act
          { p with
            onControlList := false
            isFinSent := true
            sndNxt := p.sndNxt + 1
            inRto := p.inRto || !p.onTimewaitList } (.sent t))
  | sendAck {p t} (hpay : t.payload = []) (hsyn : t.flags.syn = false)
      (hfin : t.flags.fin = false) : Effect avoid sg p (p.act (.sent t))
  | leaveControl {p}
      (hstate : p.state = .listen ∨ p.state = .established ∨ p.state = .closeWait ∨
        p.state = .finWait2 ∨ p.state = .timeWait ∨
        p.state = .closing ∧ p.isFinSent = true ∧ p.sndNxt ≠ p.fss) :
      Effect avoid sg p { p with onControlList := false }
  | sendReset {p t} (hstate : p.state = .closed) (hon : p.onControlList = true)
      (hpay : t.payload = []) (hfin : t.flags.fin = false) (hsyn : t.flags.syn = false) :
      Effect avoid sg p (Endpoint.act { p with onControlList := false } (.sent t)).destroy
  | data {p t b} (hstate : p.state.flushes) (hon : p.onSendList = true)
      (hbuf : p.sndbuf = some b) (hhead : ¬ tcpSeqLt p.sndNxt b.headSeq)
      (huna : ¬ tcpSeqLt p.sndNxt p.sndUna)
      (hlen : (p.sndNxt - b.headSeq).toNat + t.payload.length ≤ b.len)
      (hslice : Slice.slice b.data (b.head + (p.sndNxt - b.headSeq).toNat) t.payload.length =
        some t.payload)
      (hseq : t.seq = p.sndNxt) (htuna : t.una = p.sndUna)
      (hwin : (t.seq - t.una).toNat + t.payload.length ≤ min t.cwnd.toNat t.peerWnd.toNat)
      (hsyn : t.flags.syn = false) (hfin : t.flags.fin = false) :
      Effect avoid sg p
        (Endpoint.act
          { p with
            sndNxt := p.sndNxt + BitVec.ofNat 32 t.payload.length
            inRto := p.inRto || (decide (0 < t.payload.length) && !p.onTimewaitList) } (.sent t))
  | flushFault {p f b} (hstate : p.state.flushes) (hon : p.onSendList = true)
      (hbuf : p.sndbuf = some b)
      (hbad : f = .flushBelowHead ∧ tcpSeqLt p.sndNxt b.headSeq ∨
        f = .flushBelowUna ∧ tcpSeqLt p.sndNxt p.sndUna ∨
        f = .flushPastEnd ∧ b.len < (p.sndNxt - b.headSeq).toNat) :
      Effect avoid sg p (p.act (.fault f))
  | dataDone {p} (hon : p.onSendList = true)
      (hdone : p.state.flushes → p.faulted ∨ ∀ b, p.sndbuf = some b →
        b.len = 0 ∨ (p.sndNxt - b.headSeq).toNat = b.len) :
      Effect avoid sg p p.leaveSend
  | ackDone {p stays} (hstays : stays = true → p.onAckList = true)
      (hfin : avoid .finRequeued → p.waiting = true → p.onSendList = false →
        p.onControlList = false → ¬ finOut p.state p.sndNxt p.fss) :
      Effect avoid sg p (p.leaveAck stays)
  -- acknowledgements
  | dupAck {p} (dups : U8) (last : U32) :
      Effect avoid sg p { p with dupAcks := dups, lastAckSeq := last }
  | rewind {p b a} (hbuf : p.sndbuf = some b) (hend : ¬ tcpSeqGt a b.endSeq)
      (hlt : tcpSeqLt a p.sndNxt) (hstale : avoid .staleRewind → ¬ tcpSeqLt a p.sndUna) :
      Effect avoid sg p { p with sndNxt := a, onSendList := true }
  | recover {p b a} (hbuf : p.sndbuf = some b) (hend : ¬ tcpSeqGt a b.endSeq)
      (hgt : tcpSeqGt a p.sndNxt) (hfar : avoid .farAck → a - b.endSeq ≠ 2147483648#32) :
      Effect avoid sg p
        { p with sndNxt := a, onSendList := p.onSendList && decide (b.len ≠ 0) }
  | acked {p b a} (hbuf : p.sndbuf = some b) (hend : ¬ tcpSeqGt a b.endSeq)
      (hhead : ¬ tcpSeqGeq b.headSeq a) (hnxt : ¬ tcpSeqGt a p.sndNxt)
      (hfar : avoid .farAck → a - b.endSeq ≠ 2147483648#32) :
      Effect avoid sg p
        { p with
          sndbuf := some (sbRemove b (a - b.headSeq).toNat).1
          sndUna := a
          inRto := decide (tcpSeqGt p.sndNxt a) && !p.onTimewaitList }
  -- the handshake
  | listenSyn {p} (hstate : p.state = .listen) :
      Effect avoid sg p
        { p with rcvNxt := p.rcvNxt + 1, state := .synRcvd, onControlList := true }
  | synAck {p seg} (hsg : sg = some seg) (hstate : p.state = .synSent) (hsock : p.hasSocket = true)
      (hlo : ¬ tcpSeqLeq seg.ackSeq p.iss) (hhi : ¬ tcpSeqGt seg.ackSeq p.sndNxt) :
      Effect avoid sg p
        { p with
          sndUna := p.sndUna + 1
          irs := seg.seq
          sndNxt := seg.ackSeq
          rcvNxt := seg.seq + 1
          lastAckSeq := seg.ackSeq
          inRto := false
          state := .established
          onControlList := true }
  | answeredOrphan {p q : Endpoint} (hstate : p.state = .synSent) (hsock : p.hasSocket = false)
      (hq : p.SameData q) : Effect avoid sg p q.destroy
  | pureAck {p} (hstate : p.state = .synSent) (hpure : ¬ avoid .pureAck) :
      Effect avoid sg p { p with sndUna := p.sndUna + 1 }
  | rstAck {p seg} (hsg : sg = some seg) (hstate : p.state = .synSent) (hsock : p.hasSocket = true)
      (hrst : seg.rst = true) (hreset : p.haveReset = true) (hlo : ¬ tcpSeqLeq seg.ackSeq p.iss)
      (hhi : ¬ tcpSeqGt seg.ackSeq p.sndNxt) :
      Effect avoid sg p
        { p with sndUna := p.sndUna + 1, state := .closeWait, closeReason := .reset }
  | synOnly {p} (hstate : p.state = .synSent) (hopen : ¬ avoid .simultaneousOpen) :
      Effect avoid sg p { p with state := .synRcvd, sndNxt := p.iss, onControlList := true }
  | synRcvdBare {p} (hstate : p.state = .synRcvd) :
      Effect avoid sg p { p with sndNxt := p.iss, onControlList := true }
  | handshake {p seg} (answer : ListenerAnswer) (hsg : sg = some seg)
      (hstate : p.state = .synRcvd) :
      Effect avoid sg p
        { p with
          sndUna := p.sndUna + 1
          sndNxt := p.iss + 1
          rcvNxt := p.irs + 1
          inRto := false
          state := if answer = .full then .closed else .established
          closeReason := if answer = .full then .notAccepted else p.closeReason
          onControlList := p.onControlList || decide (answer = .full)
          acceptq := if answer = .queued then p.acceptq + 1 else p.acceptq }
  | synEstablished {p seg} (hsg : sg = some seg) (hstate : p.state = .established)
      (hack : avoid .synEstablished → seg.ackSeq = p.sndNxt) :
      Effect avoid sg p { p with sndNxt := seg.ackSeq, onControlList := true }
  -- payload and the peer's FIN
  | payload {c : Conn} {env seg} (hsg : sg = some seg)
      (hstate : c.state = .established ∨ c.state = .finWait1 ∨ c.state = .finWait2)
      (hmem : openRcvbuf env c ≠ none) (hsafe : PayloadSafe avoid env seg c) :
      Effect avoid sg c.core (processTCPPayload env seg.payload seg.seq c).1.core
  | noMem {p} (hstate : p.state = .established ∨ p.state = .finWait1 ∨ p.state = .finWait2)
      (hmem : ¬ avoid .noMemory) :
      Effect avoid sg p { p with state := .closed, closeReason := .noMem }
  | finEstablished {p seg} (hsg : sg = some seg)
      (hstate : p.state = .established ∨ p.state = .closed ∧ p.closeReason = .noMem)
      (hfin : seg.fin = true) (hseq : seg.payloadEnd = p.rcvNxt) :
      Effect avoid sg p
        { p with state := .closeWait, rcvNxt := p.rcvNxt + 1, onControlList := true }
  | finAcked {p seg} (hsg : sg = some seg) (hstate : p.state = .finWait1) (hack : seg.ack = true)
      (hsent : p.isFinSent = true) (hseq : seg.ackSeq = p.fss + 1) (hdrained : p.drained) :
      Effect avoid sg p
        { p with
          sndUna := seg.ackSeq
          sndNxt := if tcpSeqGt seg.ackSeq p.sndNxt then seg.ackSeq else p.sndNxt
          inRto := false
          state := .finWait2 }
  | finClosing {p seg} (hsg : sg = some seg) (hstate : p.state = .finWait1) (hfin : seg.fin = true)
      (hseq : seg.payloadEnd = p.rcvNxt) (hearly : avoid .earlyFin → p.isFinSent = true) :
      Effect avoid sg p
        { p with state := .closing, rcvNxt := p.rcvNxt + 1, onControlList := true }
  | finTimewait {p seg} (hsg : sg = some seg)
      (hstate : p.state = .finWait2 ∨ p.state = .closed ∧ p.closeReason = .noMem)
      (hfin : seg.fin = true) (hseq : seg.payloadEnd = p.rcvNxt) :
      Effect avoid sg p
        { p with
          state := .timeWait
          rcvNxt := p.rcvNxt + 1
          onTimewaitList := true
          inRto := p.inRto && p.onTimewaitList
          onControlList := true }
  | finLate {p seg} (hsg : sg = some seg) (hstate : p.state = .closed)
      (hseq : seg.payloadEnd = p.rcvNxt) :
      Effect avoid sg p { p with rcvNxt := p.rcvNxt + 1, onControlList := true }
  | closingAcked {p seg} (hsg : sg = some seg) (hstate : p.state = .closing)
      (hack : seg.ack = true) (hsent : p.isFinSent = true) (hseq : seg.ackSeq = p.fss + 1)
      (hdrained : p.drained) :
      Effect avoid sg p
        { p with
          sndUna := seg.ackSeq
          sndNxt := seg.ackSeq
          state := .timeWait
          onTimewaitList := true
          inRto := false }
  | lastAcked {p seg} (hsg : sg = some seg) (hstate : p.state = .lastAck) (hack : seg.ack = true)
      (hsent : p.isFinSent = true) (hseq : seg.ackSeq = p.fss + 1) (hdrained : p.drained) :
      Effect avoid sg p
        (Endpoint.destroy
          { p with
            sndUna := p.sndUna + 1
            state := .closed
            closeReason := .passiveClose
            inRto := decide (tcpSeqGt p.sndNxt (p.sndUna + 1)) && !p.onTimewaitList })
  -- resets
  | rstSeen {p} : Effect avoid sg p { p with haveReset := true }
  | rstHandshake {p} (hstate : p.state = .synRcvd) :
      Effect avoid sg p (Endpoint.destroy { p with state := .closed, closeReason := .reset })
  | rstClosing {p} (hstate : p.state.closes) :
      Effect avoid sg p (Endpoint.destroy { p with state := .closed, closeReason := .activeClose })
  | rstEstablished {p seg} (hsg : sg = some seg) (hrst : seg.rst = true)
      (hreset : p.haveReset = true) (hstate : p.state = .established ∨ p.state = .closeWait)
      (hqueues : p.onCloseq = false ∧ p.onCloseqInt = false ∧ p.onResetq = false ∧
        p.onResetqInt = false) :
      Effect avoid sg p { p with state := .closeWait, closeReason := .reset }
  -- timers
  | rtoIgnored {p} (hreason : p.closeReason ≠ .notClosed) :
      Effect avoid sg p { p with inRto := false }
  | rtoLost {p} (reason : CloseReason) (hreason : reason = .connFail ∨ reason = .connLost)
      (hsock : p.hasSocket = true) (hstate : p.state ≠ .closed) :
      Effect avoid sg p { p with inRto := false, state := .closed, closeReason := reason }
  | rtoDestroy {p q : Endpoint} (hstate : p.state.code < TcpState.established.code ∨
        p.hasSocket = false) (hq : p.SameData q) : Effect avoid sg p q.destroy
  | rtoRewind {p} (hin : p.inRto = true) (hreason : p.closeReason = .notClosed)
      (hstate : p.state ≠ .closed ∧ p.state ≠ .listen ∧ p.state ≠ .finWait2 ∧
        p.state ≠ .timeWait) :
      Effect avoid sg p (Endpoint.requeue { p with inRto := false, sndNxt := p.sndUna })
  | rtoStray {p} (hstate : p.state = .closed ∨ p.state = .listen ∨ p.state = .finWait2 ∨
        p.state = .timeWait) : Effect avoid sg p { p with inRto := false }
  | timewaitExpired {p} (hon : p.onTimewaitList = true) (hctl : p.onControlList = false) :
      Effect avoid sg p
        (Endpoint.destroy
          { p with onTimewaitList := false, state := .closed, closeReason := .activeClose })
  | timedOut {p} (hsock : p.hasSocket = true) :
      Effect avoid sg p { p with state := .closed, closeReason := .timedOut }
  | timedOutOrphan {p} (hsock : p.hasSocket = false) :
      Effect avoid sg p (Endpoint.destroy { p with state := .closed, closeReason := .timedOut })
  -- the queues
  | connectq {p} (hq : 0 < p.connectq)
      (hfin : avoid .finRequeued → p.onControlList = false → ¬ finOut p.state p.sndNxt p.fss) :
      Effect avoid sg p p.dequeueConnect
  | sendq {p} (hq : 0 < p.sendq) : Effect avoid sg p p.dequeueSend
  | ackq {p} (hq : 0 < p.ackq) : Effect avoid sg p p.dequeueAck
  | closeq {p} (hq : 0 < p.closeq) : Effect avoid sg p p.dequeueClose
  | closeqInt {p} (hq : 0 < p.closeqInt) : Effect avoid sg p p.dequeueCloseInt
  | resetq {p} (hq : 0 < p.resetq) : Effect avoid sg p p.dequeueReset
  | resetqInt {p} (hq : 0 < p.resetqInt) : Effect avoid sg p p.dequeueResetInt
  | destroyq {p} (hq : 0 < p.destroyq) : Effect avoid sg p p.dequeueDestroy
  -- the application
  | accept {p} (fresh : Bool) (hclosed : avoid .acceptClosed → p.closed = false) :
      Effect avoid sg p (p.accept fresh)
  | closeListener {p} : Effect avoid sg p { p with acceptq := 0 }
  | read {c : Conn} {b len} (hread : ¬ avoid .read) (hbuf : c.rcvbuf = some b)
      (hmap : c.smap = true) (hsock : c.socket.isSome = true) :
      Effect avoid sg c.core (copyToUser b len c).1.core
  | openBuffer {p chunk} (hstate : p.state = .established ∨ p.state = .closeWait)
      (hmap : p.smap = true) (hnone : p.sndbuf = none)
      (hbig : avoid .bigBuffer → chunk.length + 1 < 2 ^ 31) :
      Effect avoid sg p { p with sndbuf := some (sbInit chunk (p.iss + 1)) }
  | wrote {p b b' bytes n} (hstate : p.state = .established ∨ p.state = .closeWait)
      (hmap : p.smap = true) (hsock : p.hasSocket = true) (hbuf : p.sndbuf = some b)
      (hput : sbPut b bytes = some (b', n)) (hn : 0 < n) :
      Effect avoid sg p
        (Endpoint.act { p with sndbuf := some b' } (.wrote (bytes.take n.toNat))).enqueueSend
  | writeNoMem {p} (hmem : ¬ avoid .noMemory) : Effect avoid sg p { p with closeReason := .noMem }
  | close {p} : Effect avoid sg p p.close
  | abort {p} : Effect avoid sg p p.abort

/-- A step of the stack is a sequence of effects. -/
abbrev Effects (avoid : Hazard → Prop) (sg : Option Segment) : Endpoint → Endpoint → Prop :=
  Relation.ReflTransGen (Effect avoid sg)

/-! ## When an event meets a hazard -/

/-- The segment an event processes. -/
def Event.segment : Event → Option Segment
  | .packet _ seg => some seg
  | _ => none

/-- What puts a stream on the control list again while it waits for the acknowledgement of its FIN:
a segment outside the window, an old one in FIN_WAIT_1, one in LAST_ACK that does not acknowledge
the FIN, the ACK pass when the control list waits for it, and the connect queue. -/
def Event.requeues (c : Conn) : Event → Prop
  | .packet env seg => seg.rst = false ∧
      ((checkTimestamp env seg c).2 = true ∧ (validateSequence env seg c).2 = false ∨
        (validateSequence env seg c).2 = true ∧
          (c.state = .finWait1 ∧ tcpSeqLt seg.seq c.rcvNxt ∨
            c.state = .lastAck ∧ ¬ tcpSeqLt seg.seq c.rcvNxt ∧
              ¬ (seg.ack = true ∧ seg.ackSeq = c.fss + 1)))
  | .ackPass _ _ => c.controlListWaiting = true ∧ c.onSendList = false
  | .connectq => True
  | _ => False

/-- The event `e` in state `c` is an instance of the hazard. -/
def Hazard.hits (c : Conn) (e : Event) : Hazard → Prop
  | .synEstablished => ∃ env seg, e = .packet env seg ∧ c.state = .established ∧
      seg.syn = true ∧ seg.rst = false ∧ (validateSequence env seg c).2 = true ∧
      seg.ackSeq ≠ c.sndNxt
  | .pureAck => ∃ env seg, e = .packet env seg ∧ c.state = .synSent ∧ seg.syn = false ∧
      seg.rst = false ∧ c.core.acceptable seg
  | .staleRewind => ∃ env seg, e = .packet env seg ∧ c.core.thirdDup seg ∧
      tcpSeqLt (c.core.adjusted seg.ackSeq) c.sndUna
  | .farAck => ∃ env seg b, e = .packet env seg ∧ c.sndbuf = some b ∧
      c.core.adjusted seg.ackSeq - b.endSeq = 2147483648#32
  | .finBehindQueue => ∃ env tx, e = .controlPass env tx ∧
      (c.state = .finWait1 ∨ c.state = .lastAck) ∧ c.onSendList = false ∧ c.onAckList = false ∧
      c.onSendq = true
  | .finRequeued => c.onControlList = false ∧ finOut c.state c.sndNxt c.fss ∧ e.requeues c
  | .earlyFin => ∃ env seg, e = .packet env seg ∧ c.state = .finWait1 ∧ c.isFinSent = false ∧
      seg.fin = true ∧ seg.ack = true ∧ ¬ tcpSeqLt seg.seq c.rcvNxt
  | .noMemory => (∃ env seg, e = .packet env seg ∧ env.rcvChunk = none) ∨
      ∃ env buf, e = .write env buf ∧ env.sndChunk = none
  | .bigBuffer => ∃ env buf chunk, e = .write env buf ∧ env.sndChunk = some chunk ∧
      2 ^ 31 ≤ chunk.length + 1
  | .acceptClosed => ∃ socket, e = .accept socket ∧ c.closed = true
  | .simultaneousOpen => ∃ env seg, e = .packet env seg ∧ c.state = .synSent ∧ seg.syn = true ∧
      seg.ack = false ∧ seg.rst = false
  | .smallBuffer => ∃ env seg, e = .packet env seg ∧ ¬ Roomy env seg
  | .foreign S => ∃ env seg, e = .packet env seg ∧ 0 < seg.payload.length ∧
      ¬ Genuine S env seg c
  | .payload => ∃ env seg, e = .packet env seg ∧ 0 < seg.payload.length
  | .read => ∃ len, e = .read len

end MtcpStack
