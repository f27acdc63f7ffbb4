import Mathlib.Tactic.Simps.Basic
import MtcpStack.Model.Machine
import MtcpStack.Verification.Outcomes
import MtcpStack.Verification.RttEstimate

/-! # The protocol endpoint of a stream

The part of the state on which the sending protocol, the closing handshake and the life of a
stream depend. The links of the lists, the round trip estimation, the windows, the timeouts and
the events for the application are left out, so most calls of the stack leave it alone. -/

namespace MtcpStack

/-- What the properties of the protocol read of a stream. `inRto` says that it is in the store of
retransmission timers. -/
structure Endpoint where
  onSendq : Bool
  onAckq : Bool
  onCloseq : Bool
  onResetq : Bool
  onCloseqInt : Bool
  onResetqInt : Bool
  connectq : ℕ
  sendq : ℕ
  ackq : ℕ
  closeq : ℕ
  closeqInt : ℕ
  resetq : ℕ
  resetqInt : ℕ
  destroyq : ℕ
  acceptq : ℕ
  smap : Bool
  state : TcpState
  closeReason : CloseReason
  hasSocket : Bool
  live : Bool
  closed : Bool
  haveReset : Bool
  waiting : Bool
  iss : U32
  sndUna : U32
  sndNxt : U32
  fss : U32
  isFinSent : Bool
  sndbuf : Option SendBuffer
  dupAcks : U8
  lastAckSeq : U32
  irs : U32
  rcvNxt : U32
  rcvWnd : U32
  rcvbuf : Option RingBuffer
  onControlList : Bool
  onSendList : Bool
  onAckList : Bool
  inRto : Bool
  onTimewaitList : Bool
  trace : List Act

/-- The faults that concern the sequence invariants and the receive buffer. -/
def Fault.kept : Fault → Bool
  | .flushBelowHead | .flushBelowUna | .flushPastEnd | .ringBuffer => true
  | _ => false

/-- The acts that concern the byte streams and the life of the stream. -/
def Act.kept : Act → Bool
  | .sent _ | .wrote _ | .accepted _ _ | .delivered _ | .destroyed _ => true
  | .fault f => f.kept
  | .sentReset _ _ _ | .raised _ | .timedOut => false

/-- Whether `on_rto_idx` is the index of a slot. -/
def isSlot (i : ℤ) : Bool := decide (0 ≤ i)

@[simps] def Conn.core (c : Conn) : Endpoint where
  onSendq := c.onSendq
  onAckq := c.onAckq
  onCloseq := c.onCloseq
  onResetq := c.onResetq
  onCloseqInt := c.onCloseqInt
  onResetqInt := c.onResetqInt
  connectq := c.connectq
  sendq := c.sendq
  ackq := c.ackq
  closeq := c.closeq
  closeqInt := c.closeqInt
  resetq := c.resetq
  resetqInt := c.resetqInt
  destroyq := c.destroyq
  acceptq := c.acceptq
  smap := c.smap
  state := c.state
  closeReason := c.closeReason
  hasSocket := c.socket.isSome
  live := c.onHashTable
  closed := c.closed
  haveReset := c.haveReset
  waiting := c.controlListWaiting
  iss := c.iss
  sndUna := c.sndUna
  sndNxt := c.sndNxt
  fss := c.fss
  isFinSent := c.isFinSent
  sndbuf := c.sndbuf
  dupAcks := c.dupAcks
  lastAckSeq := c.lastAckSeq
  irs := c.irs
  rcvNxt := c.rcvNxt
  rcvWnd := c.rcvWnd
  rcvbuf := c.rcvbuf
  onControlList := c.onControlList
  onSendList := c.onSendList
  onAckList := c.onAckList
  inRto := isSlot c.onRtoIdx
  onTimewaitList := c.onTimewaitList
  trace := c.log.filter Act.kept

/-- The references to the stream. -/
def Endpoint.refs (p : Endpoint) : Refs :=
  ⟨p.connectq, p.sendq, p.ackq, p.closeq, p.closeqInt, p.resetq, p.resetqInt, p.destroyq,
    p.acceptq, p.smap⟩

/-- Appends to the trace of an endpoint. -/
def Endpoint.act (p : Endpoint) (a : Act) : Endpoint := { p with trace := p.trace ++ [a] }

theorem core_act_kept (c : Conn) {a : Act} (h : a.kept = true) :
    (c.act a).core = c.core.act a := by
  simp [Conn.core, Conn.act, Endpoint.act, h]

theorem core_act_skipped (c : Conn) {a : Act} (h : a.kept = false) : (c.act a).core = c.core := by
  simp [Conn.core, Conn.act, h]

theorem core_fault_skipped (c : Conn) {f : Fault} (h : f.kept = false) :
    (c.fault f).core = c.core :=
  core_act_skipped c h

/-! ## Lists and timers -/

@[simp] theorem core_addtoControlList (c : Conn) :
    (addtoControlList c).core = { c.core with onControlList := true } := by
  unfold addtoControlList
  split
  case isTrue h => simp [Conn.core, h]
  case isFalse => rfl

@[simp] theorem core_removeFromControlList (c : Conn) :
    (removeFromControlList c).core = { c.core with onControlList := false } := by
  unfold removeFromControlList
  split
  case isTrue => rfl
  case isFalse h => simp [Conn.core, h]

@[simp] theorem core_addtoSendList (c : Conn) :
    (addtoSendList c).core =
      { c.core with onSendList := c.onSendList || c.sndbuf.isSome } := by
  unfold addtoSendList
  split_ifs with hnone hon
  · rw [core_fault_skipped c rfl]
    cases hb : c.sndbuf <;> simp_all [Conn.core]
  · simp [Conn.core, hon]
  · cases hb : c.sndbuf <;> simp_all [Conn.core]

@[simp] theorem core_removeFromSendList (c : Conn) :
    (removeFromSendList c).core = { c.core with onSendList := false } := by
  unfold removeFromSendList
  split
  case isTrue => rfl
  case isFalse h => simp [Conn.core, h]

@[simp] theorem core_addtoACKList (c : Conn) :
    (addtoACKList c).core = { c.core with onAckList := true } := by
  unfold addtoACKList
  split
  case isTrue h => simp [Conn.core, h]
  case isFalse => rfl

@[simp] theorem core_removeFromACKList (c : Conn) :
    (removeFromACKList c).core = { c.core with onAckList := false } := by
  unfold removeFromACKList
  split
  case isTrue => rfl
  case isFalse h => simp [Conn.core, h]

@[simp] theorem core_enqueueACK (opt : AckOpt) (c : Conn) :
    (enqueueACK opt c).core = { c.core with onAckList := true } := by
  unfold enqueueACK
  rw [core_addtoACKList]
  cases opt with
  | now => rfl
  | aggregate =>
      simp only
      split <;> rfl
  | wack => rfl

@[simp] theorem core_addtoRTOList (c : Conn) :
    (addtoRTOList c).core = { c.core with inRto := c.core.inRto || !c.onTimewaitList } := by
  have hrebase : (rebaseRTOStore c).core = c.core := by
    unfold rebaseRTOStore
    split <;> rfl
  have hidx : (rebaseRTOStore c).onRtoIdx = c.onRtoIdx := by
    unfold rebaseRTOStore
    split <;> rfl
  have htw : (rebaseRTOStore c).onTimewaitList = c.onTimewaitList := congrArg (·.onTimewaitList) hrebase
  unfold addtoRTOList
  simp only [hidx, htw]
  split_ifs with hneg hon
  · rw [hrebase]
    simp [Conn.core, hon]
  · have hin : (insertRTO (rebaseRTOStore c)).core =
        { (rebaseRTOStore c).core with inRto := true } := by
      simp [Conn.core, insertRTO, isSlot]
    rw [hin, hrebase]
    simp [hon]
  · rw [hrebase]
    have hpos : 0 ≤ c.onRtoIdx := by omega
    simp [Conn.core, isSlot, hpos]

@[simp] theorem core_removeFromRTOList (c : Conn) :
    (removeFromRTOList c).core = { c.core with inRto := false } := by
  unfold removeFromRTOList
  split
  case isTrue h =>
    have hneg : ¬ 0 ≤ c.onRtoIdx := by omega
    simp [Conn.core, isSlot, hneg]
  case isFalse => rfl

@[simp] theorem core_addtoTimewaitList (env : Env) (c : Conn) :
    (addtoTimewaitList env c).core =
      { c.core with
        onTimewaitList := true
        inRto := c.core.inRto && c.onTimewaitList } := by
  unfold addtoTimewaitList
  simp only
  split_ifs with hon
  · simp [Conn.core, hon]
  · have h := core_removeFromRTOList { c with tsTwExpire := env.curTs + env.cfg.tcpTimewait }
    simp only [Conn.core, Endpoint.mk.injEq] at h ⊢
    simp [h, hon]

@[simp] theorem core_removeFromTimewaitList (c : Conn) :
    (removeFromTimewaitList c).core = { c.core with onTimewaitList := false } := by
  unfold removeFromTimewaitList
  split
  case isTrue => rfl
  case isFalse h =>
    rw [core_fault_skipped c rfl]
    simp [Conn.core, h]

@[simp] theorem core_addtoTimeoutList (c : Conn) : (addtoTimeoutList c).core = c.core := by
  unfold addtoTimeoutList
  split
  · exact core_fault_skipped c rfl
  · rfl

@[simp] theorem core_removeFromTimeoutList (c : Conn) :
    (removeFromTimeoutList c).core = c.core := by
  unfold removeFromTimeoutList
  split <;> rfl

@[simp] theorem core_updateTimeoutList (c : Conn) : (updateTimeoutList c).core = c.core := by
  unfold updateTimeoutList
  split <;> rfl

@[simp] theorem core_raiseEvent (e : AppEvent) (reg : Socket → Bool) (c : Conn) :
    (raiseEvent e reg c).core = c.core :=
  raiseEvent_view Conn.core reg (core_act_skipped c rfl)

@[simp] theorem core_raiseReadEvent (c : Conn) : (raiseReadEvent c).core = c.core :=
  core_raiseEvent _ _ c

@[simp] theorem core_raiseWriteEvent (c : Conn) : (raiseWriteEvent c).core = c.core :=
  core_raiseEvent _ _ c

@[simp] theorem core_raiseCloseEvent (c : Conn) : (raiseCloseEvent c).core = c.core :=
  core_raiseEvent _ _ c

@[simp] theorem core_raiseErrorEvent (c : Conn) : (raiseErrorEvent c).core = c.core :=
  core_raiseEvent _ _ c

/-- Payload that has been accepted is noted before the buffer is stored. -/
theorem core_storePayload_accepted (b : RingBuffer) (seq : U32) (payload : List U8) (c : Conn) :
    (storePayload b (c.act (.accepted seq payload))).core =
      { c.core.act (.accepted seq payload) with
        rcvbuf := some b
        rcvNxt := b.headSeq + BitVec.ofNat 32 b.mergedLen
        rcvWnd := BitVec.ofNat 32 (b.size - b.mergedLen) } := by
  rw [← core_act_kept c rfl]
  rfl

/-! ## The retransmission timer and the end of a stream -/

@[simp] theorem core_updateRetransmissionTimer (env : Env) (c : Conn) :
    (updateRetransmissionTimer env c).core =
      { c.core with inRto := decide (tcpSeqGt c.sndNxt c.sndUna) && !c.onTimewaitList } := by
  have hzero : (if c.rto = 0 then c.fault .rtoZero else c).core = c.core := by
    split
    · exact core_fault_skipped c rfl
    · rfl
  unfold updateRetransmissionTimer
  simp only
  generalize (if c.rto = 0 then c.fault .rtoZero else c) = d at hzero ⊢
  have hoff : (removeFromRTOList { d with nrtx := 0 }).core = { c.core with inRto := false } := by
    rw [core_removeFromRTOList, ← hzero]
    rfl
  generalize removeFromRTOList { d with nrtx := 0 } = e at hoff ⊢
  have hnxt : e.sndNxt = c.sndNxt := congrArg (·.sndNxt) hoff
  have huna : e.sndUna = c.sndUna := congrArg (·.sndUna) hoff
  have htw : e.onTimewaitList = c.onTimewaitList := congrArg (·.onTimewaitList) hoff
  rw [← hnxt, ← huna, ← htw]
  split
  case isTrue h =>
    rw [core_addtoRTOList]
    change { e.core with inRto := e.core.inRto || !e.onTimewaitList } = _
    rw [hoff]
    simp [h]
  case isFalse h =>
    rw [hoff]
    simp [h]

/-- What `DestroyTCPStream` leaves of an endpoint. -/
def Endpoint.destroy (p : Endpoint) : Endpoint :=
  { p with
    onControlList := false
    onSendList := false
    onAckList := false
    inRto := false
    onTimewaitList := false
    sndbuf := none
    rcvbuf := none
    live := false
    trace := p.trace ++ [.destroyed p.sndbuf] }

theorem core_unlinkStream (cfg : Config) (c : Conn) :
    (unlinkStream cfg c).core =
      { c.core with
        onControlList := false
        onSendList := false
        onAckList := false
        inRto := false
        onTimewaitList := false } := by
  unfold unlinkStream
  simp only
  have hoff : (removeFromRTOList
      (removeFromACKList (removeFromSendList (removeFromControlList c)))).core =
      { c.core with
        onControlList := false, onSendList := false, onAckList := false, inRto := false } := by
    simp
  generalize removeFromRTOList
    (removeFromACKList (removeFromSendList (removeFromControlList c))) = d at hoff ⊢
  have htw : (if d.onTimewaitList then removeFromTimewaitList d else d).core =
      { d.core with onTimewaitList := false } := by
    split
    case isTrue => exact core_removeFromTimewaitList d
    case isFalse h => simp [Conn.core, h]
  split
  · rw [core_removeFromTimeoutList, htw, hoff]
  · rw [htw, hoff]

@[simp] theorem core_destroyTCPStream (cfg : Config) (c : Conn) :
    (destroyTCPStream cfg c).core = c.core.destroy := by
  have hfault : ∀ d : Conn,
      (if d.onHashTable then d else d.fault .notOnHashTable).core = d.core := by
    intro d
    split
    · rfl
    · exact core_fault_skipped d rfl
  have hunlink := core_unlinkStream cfg c
  unfold destroyTCPStream
  simp only
  rw [← hfault] at hunlink
  generalize (if (unlinkStream cfg c).onHashTable then unlinkStream cfg c
    else (unlinkStream cfg c).fault .notOnHashTable) = d at hunlink ⊢
  have hbuf : d.sndbuf = c.sndbuf := congrArg (·.sndbuf) hunlink
  rw [core_act_kept _ rfl]
  simp only [Conn.core, Endpoint.mk.injEq] at hunlink
  simp [Endpoint.destroy, Endpoint.act, Conn.core, hunlink]

/-! ## Measurements, windows and options -/

@[simp] theorem core_countRtx (c : Conn) : (countRtx c).core = c.core := rfl

@[simp] theorem core_backoffRTO (c : Conn) : (backoffRTO c).core = c.core := by
  unfold backoffRTO
  simp only
  split_ifs <;> rfl

@[simp] theorem core_shrinkWindow (c : Conn) : (shrinkWindow c).core = c.core := rfl

@[simp] theorem core_inflateCwnd (c : Conn) : (inflateCwnd c).core = c.core := by
  unfold inflateCwnd
  simp only
  split <;> rfl

@[simp] theorem core_estimateRTT (mrtt : U32) (c : Conn) : (estimateRTT mrtt c).core = c.core := by
  obtain ⟨r, seq, h⟩ := estimateRTT_writes mrtt c
  rw [h]
  rfl

@[simp] theorem core_updateRto (env : Env) (c : Conn) : (updateRto env c).core = c.core := by
  unfold updateRto
  split
  · have h := core_estimateRTT (env.curTs - c.tsLastackRcvd) c
    simp only
    split
    · rw [core_fault_skipped _ rfl]
      exact h
    · exact h
  · rfl

@[simp] theorem core_growCwnd (packets : U16) (c : Conn) : (growCwnd packets c).core = c.core := by
  have hzero : (if c.cwnd = 0 then c.fault .divByZero else c).core = c.core := by
    split
    · exact core_fault_skipped c rfl
    · rfl
  unfold growCwnd
  simp only
  split_ifs <;> first | rfl | exact hzero | skip
  all_goals exact core_fault_skipped c rfl

@[simp] theorem core_updateWindow (seg : Segment) (ackSeq : U32) (c : Conn) :
    (updateWindow seg ackSeq c).core = c.core := by
  unfold updateWindow
  simp only
  split_ifs
  · rw [core_raiseWriteEvent]
    rfl
  · rfl
  · rfl

theorem core_applyOption (curTs : U32) (opt : ℕ → U8) (kind : U8) (optlen i : ℕ) (c : Conn) :
    (applyOption curTs opt kind optlen i c).1.core = c.core := by
  unfold applyOption
  split_ifs <;> rfl

theorem core_parseOptionsFrom {curTs : U32} {opt : ℕ → U8} {len fuel i : ℕ} {c c' : Conn}
    (h : parseOptionsFrom curTs opt len fuel i c = some c') : c'.core = c.core := by
  induction fuel generalizing i c with
  | zero => simp [parseOptionsFrom] at h
  | succ fuel ih =>
      simp only [parseOptionsFrom] at h
      split_ifs at h
      · simp_all
      · exact ih h
      · simp_all
      · rw [ih h, core_applyOption]
      · simp_all

theorem core_parseTCPOptions {curTs : U32} {opt : ℕ → U8} {len : ℕ} {c c' : Conn}
    (h : parseTCPOptions curTs opt len c = some c') : c'.core = c.core :=
  core_parseOptionsFrom h

end MtcpStack
