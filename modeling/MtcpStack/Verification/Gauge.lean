import MtcpStack.Model.Machine
import MtcpStack.Verification.FlushRules
import MtcpStack.Verification.Outcomes
import MtcpStack.Verification.RttEstimate

/-! # The gauges of a stream

The fields that pace a stream: segment sizes, windows, duplicate count, round trip and timeout.
Only segments and retransmission timeouts change them. -/

namespace MtcpStack

open Slice

/-- The faults of the arithmetic on the gauges. -/
def Act.arith : Act → Bool
  | .fault .divByZero | .fault .rtoZero => true
  | _ => false

structure Gauge where
  mss : U16
  effMss : U16
  wscalePeer : U8
  peerWnd : U32
  cwnd : U32
  ssthresh : U32
  nrtx : U8
  rto : U32
  sndWl1 : U32
  sndWl2 : U32
  dupAcks : U8
  lastAckSeq : U32
  rtt : Rtt
  sawTimestamp : Bool
  tsLastackRcvd : U32
  state : TcpState
  faults : List Act

def Conn.gauge (c : Conn) : Gauge where
  mss := c.mss
  effMss := c.effMss
  wscalePeer := c.wscalePeer
  peerWnd := c.peerWnd
  cwnd := c.cwnd
  ssthresh := c.ssthresh
  nrtx := c.nrtx
  rto := c.rto
  sndWl1 := c.sndWl1
  sndWl2 := c.sndWl2
  dupAcks := c.dupAcks
  lastAckSeq := c.lastAckSeq
  rtt := c.rtt
  sawTimestamp := c.sawTimestamp
  tsLastackRcvd := c.tsLastackRcvd
  state := c.state
  faults := c.log.filter Act.arith

theorem gauge_act (c : Conn) {a : Act} (h : a.arith = false) : (c.act a).gauge = c.gauge := by
  simp [Conn.gauge, Conn.rtt, Conn.act, h]

theorem gauge_fault (c : Conn) {f : Fault} (h : (Act.fault f).arith = false) :
    (c.fault f).gauge = c.gauge :=
  gauge_act c h

theorem gauge_fault_arith (c : Conn) {f : Fault} (h : (Act.fault f).arith = true) :
    (c.fault f).gauge = { c.gauge with faults := c.gauge.faults ++ [.fault f] } := by
  simp [Conn.gauge, Conn.rtt, Conn.fault, Conn.act, h]

/-! ## Lists, timers and events -/

@[simp] theorem gauge_addtoControlList (c : Conn) : (addtoControlList c).gauge = c.gauge := by
  unfold addtoControlList
  split <;> rfl

@[simp] theorem gauge_removeFromControlList (c : Conn) :
    (removeFromControlList c).gauge = c.gauge := by
  unfold removeFromControlList
  split <;> rfl

@[simp] theorem gauge_addtoSendList (c : Conn) : (addtoSendList c).gauge = c.gauge := by
  unfold addtoSendList
  split_ifs
  · exact gauge_fault c rfl
  · rfl
  · rfl

@[simp] theorem gauge_removeFromSendList (c : Conn) : (removeFromSendList c).gauge = c.gauge := by
  unfold removeFromSendList
  split <;> rfl

@[simp] theorem gauge_addtoACKList (c : Conn) : (addtoACKList c).gauge = c.gauge := by
  unfold addtoACKList
  split <;> rfl

@[simp] theorem gauge_removeFromACKList (c : Conn) : (removeFromACKList c).gauge = c.gauge := by
  unfold removeFromACKList
  split <;> rfl

@[simp] theorem gauge_enqueueACK (opt : AckOpt) (c : Conn) :
    (enqueueACK opt c).gauge = c.gauge := by
  unfold enqueueACK
  rw [gauge_addtoACKList]
  cases opt with
  | now => rfl
  | aggregate =>
      simp only
      split <;> rfl
  | wack => rfl

@[simp] theorem gauge_addtoRTOList (c : Conn) : (addtoRTOList c).gauge = c.gauge := by
  unfold addtoRTOList rebaseRTOStore
  simp only
  split_ifs <;> rfl

@[simp] theorem gauge_removeFromRTOList (c : Conn) : (removeFromRTOList c).gauge = c.gauge := by
  unfold removeFromRTOList
  split <;> rfl

@[simp] theorem gauge_removeFromTimewaitList (c : Conn) :
    (removeFromTimewaitList c).gauge = c.gauge := by
  unfold removeFromTimewaitList
  split
  · rfl
  · exact gauge_fault c rfl

@[simp] theorem gauge_addtoTimewaitList (env : Env) (c : Conn) :
    (addtoTimewaitList env c).gauge = c.gauge := by
  unfold addtoTimewaitList
  simp only
  split
  · rfl
  · exact gauge_removeFromRTOList { c with tsTwExpire := env.curTs + env.cfg.tcpTimewait }

@[simp] theorem gauge_addtoTimeoutList (c : Conn) : (addtoTimeoutList c).gauge = c.gauge := by
  unfold addtoTimeoutList
  split
  · exact gauge_fault c rfl
  · rfl

@[simp] theorem gauge_removeFromTimeoutList (c : Conn) :
    (removeFromTimeoutList c).gauge = c.gauge := by
  unfold removeFromTimeoutList
  split <;> rfl

@[simp] theorem gauge_updateTimeoutList (c : Conn) : (updateTimeoutList c).gauge = c.gauge := by
  unfold updateTimeoutList
  split <;> rfl

@[simp] theorem gauge_raiseEvent (e : AppEvent) (reg : Socket → Bool) (c : Conn) :
    (raiseEvent e reg c).gauge = c.gauge :=
  raiseEvent_view Conn.gauge reg (gauge_act c rfl)

@[simp] theorem gauge_destroyTCPStream (cfg : Config) (c : Conn) :
    (destroyTCPStream cfg c).gauge = c.gauge := by
  have hunlink : (unlinkStream cfg c).gauge = c.gauge := by
    unfold unlinkStream
    simp only
    split_ifs <;> simp
  unfold destroyTCPStream
  simp only
  rw [gauge_act _ rfl, ← hunlink]
  generalize unlinkStream cfg c = d
  split
  · rfl
  · exact gauge_fault d rfl

@[simp] theorem gauge_notifyOrDestroy (env : Env) (c : Conn) :
    (notifyOrDestroy env c).gauge = c.gauge := by
  unfold notifyOrDestroy raiseErrorEvent
  split <;> simp

/-! ## Sending -/

@[simp] theorem gauge_fillHeader (env : Env) (flags : TcpFlags) (payload : List U8) (c : Conn) :
    (fillHeader env flags payload c).gauge = c.gauge := by
  have hfin : (if flags.sendsFin then { c with isFinSent := true } else c).gauge = c.gauge := by
    split <;> rfl
  unfold fillHeader
  simp only
  rw [gauge_act _ rfl, ← hfin]
  generalize (if flags.sendsFin then { c with isFinSent := true } else c) = d
  have hack : (if flags.ack then updateTimeoutList
      { d with tsLastackSent := env.curTs, lastActiveTs := env.curTs } else d).gauge = d.gauge := by
    split
    · rw [gauge_updateTimeoutList]
      rfl
    · rfl
  rw [← hack]
  generalize (if flags.ack then updateTimeoutList _ else d) = e
  split <;> rfl

@[simp] theorem gauge_sendTCPPacket (env : Env) (flags : TcpFlags) (payload : List U8) (c : Conn) :
    (sendTCPPacket env flags payload c).1.gauge = c.gauge := by
  unfold sendTCPPacket
  split
  · rfl
  · split
    · rfl
    · rfl
    · rename_i tx htx
      have hfill := gauge_fillHeader env flags payload { c with tx }
      simp only
      generalize fillHeader env flags payload { c with tx } = d at hfill ⊢
      split
      · rw [gauge_addtoRTOList]
        exact hfill
      · exact hfill

@[simp] theorem gauge_flushStep (env : Env) (b : SendBuffer) (packets : ℤ) (c : Conn) :
    (flushStep env b packets c).1.gauge = c.gauge := by
  have hround := flushStep_outcome env b packets c
  generalize flushStep env b packets c = r at hround ⊢
  cases hround with
  | asserts hf => rcases hf with ⟨rfl, -⟩ | ⟨rfl, -⟩ | ⟨rfl, -⟩ <;> exact gauge_fault c rfl
  | flushed => rfl
  | full =>
    unfold probeWindow
    split <;> simp
  | unread => exact gauge_fault c rfl
  | refused | sent => exact gauge_sendTCPPacket env ackFlag _ c

@[simp] theorem gauge_flushTCPSendingBuffer (env : Env) (c : Conn) :
    (flushTCPSendingBuffer env c).1.gauge = c.gauge :=
  flushTCPSendingBuffer_keeps (P := fun d => d.gauge = c.gauge) (gauge_fault c rfl)
    (fun b packets d hd => (gauge_flushStep env b packets d).trans hd) rfl

@[simp] theorem gauge_sendControlPacket (env : Env) (c : Conn) :
    (sendControlPacket env c).1.gauge = c.gauge := by
  unfold sendControlPacket
  split
  · simp
  · rw [gauge_sendTCPPacket]
    rfl
  · simp
  · simp
  · simp
  · simp
  · split <;> simp
  · split <;> simp
  · split_ifs <;> simp
  · split
    · rfl
    · simp only
      split <;> simp
  · rfl

@[simp] theorem gauge_controlListStep (env : Env) (c : Conn) :
    (controlListStep env c).1.gauge = c.gauge := by
  unfold controlListStep
  simp only
  split
  · have hsend := gauge_sendControlPacket env
      { c with
        controlList := c.controlList.erase c.sid, controlListCnt := c.controlListCnt - 1
        onControlList := false }
    generalize sendControlPacket env _ = r at hsend ⊢
    split_ifs <;> exact hsend
  · rfl

@[simp] theorem gauge_releaseControl (c : Conn) : (releaseControl c).gauge = c.gauge := by
  rw [releaseControl, gauge_addtoControlList]
  rfl

@[simp] theorem gauge_dataListStep (env : Env) (c : Conn) :
    (dataListStep env c).1.gauge = c.gauge := by
  have hlisted : ∀ d : Conn, (sendListed env d).1.gauge = d.gauge := by
    intro d
    unfold sendListed
    split
    · split <;> simp
    · simp
    · simp
    · simp
    · rfl
  unfold dataListStep
  simp only
  split
  · have hsend := hlisted { c with sendList := c.sendList.erase c.sid }
    generalize sendListed env _ = r at hsend ⊢
    split_ifs
    · exact hsend
    · rw [gauge_releaseControl]
      exact hsend
    · exact hsend
  · rfl

@[simp] theorem gauge_sendAcks (env : Env) (fuel : ℕ) (c : Conn) :
    (sendAcks env fuel c).gauge = c.gauge := by
  induction fuel generalizing c with
  | zero => rfl
  | succ fuel ih =>
      unfold sendAcks
      simp only
      split_ifs
      · simp
      · rw [ih]
        exact gauge_sendTCPPacket env ackFlag [] c
      · rfl

@[simp] theorem gauge_sendWack (env : Env) (c : Conn) : (sendWack env c).gauge = c.gauge := by
  unfold sendWack
  split
  · have hsend := gauge_sendTCPPacket env wackFlag [] { c with isWack := false }
    simp only
    generalize sendTCPPacket env wackFlag [] { c with isWack := false } = r at hsend ⊢
    split <;> exact hsend
  · rfl

@[simp] theorem gauge_ackListStep (env : Env) (c : Conn) :
    (ackListStep env c).1.gauge = c.gauge := by
  have hacks : (if toAck c then
      let d := sendWack env (sendAcks env c.ackCnt.toNat c)
      if d.ackCnt = 0 ∧ d.isWack = false then removeFromACKList d else d
      else removeFromACKList { c with ackCnt := 0, isWack := false }).gauge = c.gauge := by
    simp only
    split_ifs
    · simp
    · simp
    · rw [gauge_removeFromACKList]
      rfl
  unfold ackListStep
  split
  · simp only at hacks ⊢
    generalize (if toAck c then _ else _) = d at hacks ⊢
    split
    · simpa using hacks
    · exact hacks
  · rfl

/-! ## Drifting

What the application and the other timers do: nothing to the gauges, and a state of the
handshake is only left by closing. -/

def TcpState.drifts (s t : TcpState) : Prop :=
  t = s ∨ t = .closed ∨
    TcpState.established.code ≤ s.code ∧ TcpState.established.code ≤ t.code

/-- The gauges of `d` are those of `c`, up to a drift of the state. -/
def Drifts (c d : Conn) : Prop :=
  ∃ s, c.state.drifts s ∧ d.gauge = { c.gauge with state := s }

theorem Drifts.of_gauge {c d : Conn} (h : d.gauge = c.gauge) : Drifts c d :=
  ⟨c.state, .inl rfl, h⟩

theorem Drifts.closing {c d : Conn} (h : d.gauge = { c.gauge with state := .closed }) :
    Drifts c d :=
  ⟨.closed, .inr (.inl rfl), h⟩

theorem closingState_drifts (s : TcpState) : s.drifts (closingState s) := by
  cases s <;> simp [TcpState.drifts, closingState, TcpState.code]

section
variable {c : Conn} (cfg : Config) (env : Env)

/-- The idle timer is taken off a stream that is being closed or reset. -/
theorem gauge_stopTimeout (d : Conn) :
    (if 0 < cfg.tcpTimeout then removeFromTimeoutList d else d).gauge = d.gauge := by
  split <;> simp

/-- A request closes the stream, or moves its state where the handshake is over. -/
theorem RequestOutcome.drifts {d e : Conn} (h : RequestOutcome d e)
    (hgauge : d.gauge = c.gauge) : Drifts c e := by
  have hstate : d.state = c.state := congrArg (·.state) hgauge
  cases h with
  | destroyed cfg =>
    refine .closing ?_
    rw [gauge_destroyTCPStream, ← hgauge]
    rfl
  | kept | closeRequeued | resetRequeued => exact .of_gauge hgauge
  | waits =>
    refine ⟨closingState c.state, closingState_drifts c.state, ?_⟩
    rw [← hgauge, ← hstate]
    rfl
  | closes =>
    refine ⟨closingState c.state, closingState_drifts c.state, ?_⟩
    rw [gauge_addtoControlList, ← hgauge, ← hstate]
    rfl
  | resets =>
    refine .closing ?_
    rw [gauge_addtoControlList, ← hgauge]
    rfl

theorem dequeueClose_drifts : Drifts c (dequeueClose cfg c) :=
  (dequeueClose_outcome cfg c).drifts (gauge_stopTimeout cfg _)

theorem dequeueReset_drifts : Drifts c (dequeueReset cfg c) :=
  (dequeueReset_outcome cfg c).drifts (gauge_stopTimeout cfg _)

theorem dequeueCloseInt_drifts : Drifts c (dequeueCloseInt c) := by
  rcases dequeueCloseInt_outcome c with hkept | hout
  · exact .of_gauge (by rw [hkept])
  · exact hout.drifts rfl

theorem dequeueResetInt_drifts : Drifts c (dequeueResetInt c) := by
  rcases dequeueResetInt_outcome c with hkept | hout
  · exact .of_gauge (by rw [hkept])
  · exact hout.drifts rfl

theorem mtcpAbort_drifts : Drifts c (mtcpAbort c) := by
  unfold mtcpAbort
  simp only
  split
  · split
    · exact .of_gauge rfl
    · exact .closing rfl
    · exact .closing rfl
    · exact .closing rfl
    · exact .closing rfl
    · split <;> exact .of_gauge rfl
  · exact .of_gauge rfl

theorem timewaitStep_drifts : Drifts c (timewaitStep env c).1 := by
  unfold timewaitStep
  split_ifs
  · exact .of_gauge rfl
  · refine .closing ?_
    rw [gauge_destroyTCPStream]
    rfl
  · exact .of_gauge rfl
  · exact .of_gauge rfl

theorem timeoutStep_drifts : Drifts c (timeoutStep env c).1 := by
  unfold timeoutStep
  split
  · refine .closing ?_
    rw [gauge_notifyOrDestroy]
    rfl
  · exact .of_gauge rfl

@[simp] theorem gauge_mtcpClose (c : Conn) : (mtcpClose c).gauge = c.gauge := by
  have hclose : (closeStreamSocket c).gauge = c.gauge := by
    unfold closeStreamSocket
    simp only
    split
    · rfl
    · split <;> rfl
  unfold mtcpClose
  split
  · exact hclose
  · rfl

@[simp] theorem gauge_mtcpAccept (socket : Option Socket) (c : Conn) :
    (mtcpAccept socket c).gauge = c.gauge := by
  unfold mtcpAccept
  simp only
  split_ifs
  · rfl
  · rfl
  · split <;> rfl

@[simp] theorem gauge_mtcpRead (len : ℕ) (c : Conn) : (mtcpRead len c).1.gauge = c.gauge := by
  have hadvertise : ∀ d : Conn, (advertiseWindow d).gauge = d.gauge := by
    intro d
    rcases advertiseWindow_cases d with heq | heq <;> rw [heq]
    rfl
  have hcopy : ∀ b : RingBuffer, (copyToUser b len c).1.gauge = c.gauge := by
    intro b
    have hout := copyToUser_outcome b len c
    generalize copyToUser b len c = r at hout ⊢
    cases hout with
    | nothing => rfl
    | taken =>
      rw [hadvertise]
      exact gauge_act c rfl
    | faulted => exact gauge_fault c rfl
  have hremind : ∀ (s : Socket) (ret : ℤ) (d : Conn), (remindReader s ret d).gauge = d.gauge := by
    intro s ret d
    unfold remindReader
    simp only
    split_ifs
    · exact gauge_act d rfl
    · rfl
    · rfl
  unfold mtcpRead
  split
  · split
    · rfl
    · split
      · split_ifs
        · rfl
        · rfl
        · exact gauge_fault c rfl
      · split
        · rfl
        · simp only
          rw [hremind, hcopy]
  · rfl

@[simp] theorem gauge_mtcpWrite (buf : List U8) (c : Conn) :
    (mtcpWrite env buf c).1.gauge = c.gauge := by
  have hcopy : (copyFromUser env buf c).1.gauge = c.gauge := by
    unfold copyFromUser
    simp only
    split
    · rfl
    · split
      · rfl
      · split
        · exact gauge_fault _ rfl
        · split_ifs
          · rfl
          · exact gauge_fault _ rfl
          · exact gauge_act _ rfl
          · rw [gauge_act _ rfl]
            exact gauge_fault _ rfl
  unfold mtcpWrite
  split
  · split_ifs
    · rfl
    · rfl
    · rfl
    · simp only
      generalize copyFromUser env buf c = r at hcopy ⊢
      have hqueue : (if 0 < r.2 then enqueueSend r.1 else r.1).gauge = c.gauge := by
        rw [← hcopy]
        unfold enqueueSend
        split_ifs <;> rfl
      generalize (if 0 < r.2 then enqueueSend r.1 else r.1) = d at hqueue ⊢
      split
      · rw [gauge_act _ rfl, hqueue]
      · exact hqueue
  · rfl

/-- Neither a segment nor a retransmission timeout. -/
def Event.quiet : Event → Bool
  | .packet _ _ | .rtoPass _ => false
  | _ => true

/-- Only segments and retransmission timeouts change the gauges. -/
theorem Event.quiet_drifts {e : Event} (h : e.quiet = true) : Drifts c (e.apply c) := by
  cases e with
  | packet env seg => cases h
  | rtoPass env => cases h
  | timewaitPass env => exact timewaitStep_drifts env
  | timeoutPass env => exact timeoutStep_drifts env
  | controlPass env tx => exact .of_gauge (gauge_controlListStep env { c with tx })
  | dataPass env tx => exact .of_gauge (gauge_dataListStep env { c with tx })
  | ackPass env tx => exact .of_gauge (gauge_ackListStep env { c with tx })
  | connectq => exact .of_gauge (gauge_addtoControlList _)
  | sendq => exact .of_gauge (gauge_addtoSendList _)
  | ackq => exact .of_gauge (gauge_enqueueACK _ _)
  | closeq cfg => exact dequeueClose_drifts cfg
  | closeqInt => exact dequeueCloseInt_drifts
  | resetq cfg => exact dequeueReset_drifts cfg
  | resetqInt => exact dequeueResetInt_drifts
  | destroyq cfg => exact .of_gauge (gauge_destroyTCPStream cfg _)
  | accept socket => exact .of_gauge (gauge_mtcpAccept socket c)
  | closeListener => exact .of_gauge rfl
  | read len => exact .of_gauge (gauge_mtcpRead len c)
  | write env buf => exact .of_gauge (gauge_mtcpWrite env buf c)
  | close => exact .of_gauge (gauge_mtcpClose c)
  | abort => exact mtcpAbort_drifts
  | others shared => exact .of_gauge rfl

end

end MtcpStack
