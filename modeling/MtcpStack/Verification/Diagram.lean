import MtcpStack.Verification.StepInput

/-! # The state diagram

What each operation on an endpoint leaves alone, and the diagram that the states of a live
stream follow. -/

namespace MtcpStack

variable {avoid : Hazard → Prop}

/-! ## Frames -/

namespace Endpoint

theorem leaveSend_frame (p : Endpoint) :
    p.leaveSend =
      { p with
        onSendList := false
        waiting := p.leaveSend.waiting
        onControlList := p.leaveSend.onControlList } := by
  unfold leaveSend
  simp only
  split <;> rfl

theorem leaveAck_frame (stays : Bool) (p : Endpoint) :
    p.leaveAck stays =
      { p with
        onAckList := stays
        waiting := (p.leaveAck stays).waiting
        onControlList := (p.leaveAck stays).onControlList } := by
  unfold leaveAck
  simp only
  split <;> rfl

theorem requeue_frame (p : Endpoint) :
    p.requeue =
      { p with
        onSendList := p.requeue.onSendList
        waiting := p.requeue.waiting
        onControlList := p.requeue.onControlList } := by
  unfold requeue
  split <;> first | rfl | (split <;> rfl)

theorem accept_frame (fresh : Bool) (p : Endpoint) :
    p.accept fresh =
      { p with
        acceptq := (p.accept fresh).acceptq
        hasSocket := (p.accept fresh).hasSocket
        smap := (p.accept fresh).smap } := by
  unfold accept
  simp only
  split_ifs <;> rfl

theorem close_frame (p : Endpoint) :
    p.close =
      { p with
        closed := p.close.closed
        hasSocket := p.close.hasSocket
        smap := p.close.smap
        onCloseq := p.close.onCloseq
        closeq := p.close.closeq
        destroyq := p.close.destroyq } := by
  unfold close closeSocket
  split_ifs
  · rfl
  · simp only
    split <;> rfl
  · rfl

/-- A close that leaves the stream alive changes its state and asks for a FIN. -/
theorem dequeueClose_frame {p : Endpoint} (hlive : p.dequeueClose.live = true) :
    p.dequeueClose =
      { p with
        closeq := p.closeq - 1
        onCloseq := false
        fss := p.finalSeq
        onCloseqInt := p.dequeueClose.onCloseqInt
        closeqInt := p.dequeueClose.closeqInt
        state := p.dequeueClose.state
        waiting := p.dequeueClose.waiting
        onControlList := p.dequeueClose.onControlList } := by
  have hcases := p.dequeueClose_cases
  generalize p.dequeueClose = q at hcases hlive ⊢
  cases hcases with
  | freed => cases hlive
  | kept | requeued | waits | closes => rfl

theorem dequeueCloseInt_frame (p : Endpoint) :
    p.dequeueCloseInt =
      { p with
        closeqInt := p.dequeueCloseInt.closeqInt
        onCloseqInt := p.dequeueCloseInt.onCloseqInt
        state := p.dequeueCloseInt.state
        onControlList := p.dequeueCloseInt.onControlList } := by
  have hcases := p.dequeueCloseInt_cases
  generalize p.dequeueCloseInt = q at hcases ⊢
  cases hcases with
  | deferred | closes | kept => rfl

theorem dequeueReset_frame {p : Endpoint} (hlive : p.dequeueReset.live = true) :
    p.dequeueReset =
      { p with
        resetq := p.resetq - 1
        onResetq := false
        onResetqInt := p.dequeueReset.onResetqInt
        resetqInt := p.dequeueReset.resetqInt
        state := p.dequeueReset.state
        closeReason := p.dequeueReset.closeReason
        onControlList := p.dequeueReset.onControlList } := by
  have hcases := p.dequeueReset_cases
  generalize p.dequeueReset = q at hcases hlive ⊢
  cases hcases with
  | freed => cases hlive
  | kept | requeued | resets => rfl

theorem dequeueResetInt_frame (p : Endpoint) :
    p.dequeueResetInt =
      { p with
        resetqInt := p.dequeueResetInt.resetqInt
        onResetqInt := p.dequeueResetInt.onResetqInt
        state := p.dequeueResetInt.state
        closeReason := p.dequeueResetInt.closeReason
        onControlList := p.dequeueResetInt.onControlList } := by
  have hcases := p.dequeueResetInt_cases
  generalize p.dequeueResetInt = q at hcases ⊢
  cases hcases with
  | deferred | resets | kept => rfl

theorem abort_frame (p : Endpoint) :
    p.abort =
      { p with
        smap := p.abort.smap
        hasSocket := p.abort.hasSocket
        state := p.abort.state
        closeReason := p.abort.closeReason
        destroyq := p.abort.destroyq
        onResetq := p.abort.onResetq
        resetq := p.abort.resetq } := by
  unfold abort
  split
  case isFalse => rfl
  case isTrue =>
    simp only
    split <;> first | rfl | (split <;> rfl)

theorem enqueueSend_frame (p : Endpoint) :
    p.enqueueSend = { p with onSendq := p.enqueueSend.onSendq, sendq := p.enqueueSend.sendq } := by
  unfold enqueueSend
  split <;> rfl

end Endpoint

/-! ## The state diagram -/

/-- The states before ESTABLISHED. -/
def TcpState.opens (s : TcpState) : Bool :=
  match s with
  | .listen | .synSent | .synRcvd => true
  | _ => false

theorem TcpState.flushes.not_opens {s : TcpState} (h : s.flushes) : s.opens = false := by
  rcases h with rfl | rfl | rfl | rfl <;> rfl

theorem closingState_opens {s : TcpState} (h : (closingState s).opens = true) :
    closingState s = s := by
  cases s <;> first | rfl | simp [closingState, TcpState.opens] at h

/-- The transitions of a live stream; those marked `packet` need a segment. -/
def TcpState.moves (packet : Bool) : TcpState → TcpState → Bool
  | .synSent, .established | .synSent, .closeWait | .synRcvd, .established
  | .established, .closeWait | .finWait1, .finWait2 | .finWait1, .closing | .finWait2, .timeWait
  | .closing, .timeWait | .closed, .closeWait | .closed, .timeWait => packet
  | .listen, .synRcvd | .synSent, .synRcvd | .established, .finWait1 | .closeWait, .lastAck
  | _, .closed => true
  | s, t => decide (s = t)

theorem TcpState.moves_refl (packet : Bool) (s : TcpState) : s.moves packet s = true := by
  cases s <;> rfl

theorem TcpState.moves_closed (packet : Bool) (s : TcpState) : s.moves packet .closed = true := by
  cases s <;> rfl

theorem TcpState.moves_closing (packet : Bool) (s : TcpState) :
    s.moves packet (closingState s) = true := by
  cases s <;> rfl

theorem TcpState.moves_listen {packet : Bool} {s : TcpState}
    (h : s.moves packet .listen = true) : s = .listen := by
  cases s <;> first | rfl | cases h

/-- `q` is alive only if `p` is, and its state follows the diagram. -/
def Endpoint.Moves (packet : Bool) (p q : Endpoint) : Prop :=
  q.live = true → p.live = true ∧ p.state.moves packet q.state = true

theorem Endpoint.Moves.same {packet : Bool} {p q : Endpoint} (hlive : q.live = p.live)
    (hstate : q.state = p.state) : p.Moves packet q :=
  fun hl => ⟨hlive ▸ hl, hstate ▸ TcpState.moves_refl packet q.state⟩

theorem Endpoint.Moves.closed {packet : Bool} {p q : Endpoint} (hlive : q.live = p.live)
    (hstate : q.state = .closed) : p.Moves packet q :=
  fun hl => ⟨hlive ▸ hl, hstate ▸ TcpState.moves_closed packet p.state⟩

theorem Endpoint.Moves.closing {packet : Bool} {p q : Endpoint} (hlive : q.live = p.live)
    (hstate : q.state = closingState p.state) : p.Moves packet q :=
  fun hl => ⟨hlive ▸ hl, hstate ▸ TcpState.moves_closing packet p.state⟩

/-- Every effect follows the diagram. -/
theorem Effect.moves {sg : Option Segment} {p q : Endpoint} (heff : Effect avoid sg p q) :
    p.Moves sg.isSome q := by
  cases heff with
  | @payload c env seg _ hstate =>
    have hrec := processTCPPayload_receives env seg.payload seg.seq c
    have hlive := congrArg (·.live) hrec.frame
    rcases hrec.state with ⟨hs, -⟩ | ⟨hs, -⟩
    · exact .same hlive hs
    · exact .closed hlive hs
  | @read c b len =>
    rw [core_copyToUser]
    exact .same rfl rfl
  | control | queueAck | restartTimewait | sendHandshake | rewindSynAck | sendFin | sendAck
  | leaveControl | data | flushFault | dupAck | rewind | recover | acked | pureAck | synRcvdBare
  | synEstablished | finLate | rstSeen | rtoIgnored | rtoStray | connectq | sendq | ackq
  | closeListener | openBuffer | writeNoMem => exact .same rfl rfl
  | sendReset | answeredOrphan | lastAcked | rstHandshake | rstClosing | rtoDestroy
  | timewaitExpired | timedOutOrphan | destroyq => exact nofun
  | noMem | rtoLost | timedOut => exact .closed rfl rfl
  | synAck hsg hstate | rstAck hsg hstate | finAcked hsg hstate | finClosing hsg hstate
  | closingAcked hsg hstate =>
    intro hl
    rw [hsg, hstate]
    exact ⟨hl, rfl⟩
  | handshake answer hsg hstate =>
    intro hl
    rw [hsg, hstate]
    exact ⟨hl, by cases answer <;> rfl⟩
  | listenSyn hstate | synOnly hstate =>
    intro hl
    rw [hstate]
    exact ⟨hl, rfl⟩
  | finEstablished hsg hstate | finTimewait hsg hstate =>
    intro hl
    rw [hsg]
    rcases hstate with hs | ⟨hs, -⟩ <;> rw [hs] <;> exact ⟨hl, rfl⟩
  | rstEstablished hsg _ _ hstate =>
    intro hl
    rw [hsg]
    rcases hstate with hs | hs <;> rw [hs] <;> exact ⟨hl, rfl⟩
  | dataDone =>
    rw [Endpoint.leaveSend_frame]
    exact .same rfl rfl
  | ackDone =>
    rw [Endpoint.leaveAck_frame]
    exact .same rfl rfl
  | rtoRewind =>
    rw [Endpoint.requeue_frame]
    exact .same rfl rfl
  | closeq =>
    have hcases := p.dequeueClose_cases
    generalize p.dequeueClose = q at hcases ⊢
    cases hcases with
    | freed => exact nofun
    | kept | requeued => exact .same rfl rfl
    | waits | closes => exact .closing rfl rfl
  | closeqInt =>
    have hcases := p.dequeueCloseInt_cases
    generalize p.dequeueCloseInt = q at hcases ⊢
    cases hcases with
    | deferred | kept => exact .same rfl rfl
    | closes => exact .closing rfl rfl
  | resetq =>
    have hcases := p.dequeueReset_cases
    generalize p.dequeueReset = q at hcases ⊢
    cases hcases with
    | freed => exact nofun
    | kept | requeued => exact .same rfl rfl
    | resets => exact .closed rfl rfl
  | resetqInt =>
    have hcases := p.dequeueResetInt_cases
    generalize p.dequeueResetInt = q at hcases ⊢
    cases hcases with
    | deferred | kept => exact .same rfl rfl
    | resets => exact .closed rfl rfl
  | accept =>
    rw [Endpoint.accept_frame]
    exact .same rfl rfl
  | wrote =>
    unfold Endpoint.enqueueSend
    split <;> exact .same rfl rfl
  | close =>
    rw [Endpoint.close_frame]
    exact .same rfl rfl
  | abort =>
    have hcases := p.abort_cases
    generalize p.abort = q at hcases ⊢
    cases hcases with
    | unmapped | closed | queued | resets => exact .same rfl rfl
    | closes => exact .closed rfl rfl

end MtcpStack
