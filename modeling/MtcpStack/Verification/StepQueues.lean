import MtcpStack.Verification.Effects
import MtcpStack.Verification.SendBuffer

/-! # Application calls, queues and timers as effects

The calls of the application and the work on each queue act on the endpoint by one transition;
the timer passes by one effect. -/

namespace MtcpStack

variable {avoid : Hazard → Prop} {sg : Option Segment}

/-! ## The queues -/

theorem core_dequeueConnect (c : Conn) : (dequeueConnect c).core = c.core.dequeueConnect := by
  unfold dequeueConnect
  rw [core_addtoControlList]
  rfl

theorem core_dequeueSend (c : Conn) : (dequeueSend c).core = c.core.dequeueSend := by
  unfold dequeueSend
  rw [core_addtoSendList]
  rfl

theorem core_dequeueAck (c : Conn) : (dequeueAck c).core = c.core.dequeueAck := by
  unfold dequeueAck
  rw [core_enqueueACK]
  rfl

/-- The timeout list is left, if idle streams are watched at all. -/
theorem core_leaveTimeoutList (cfg : Config) (c : Conn) :
    (if 0 < cfg.tcpTimeout then removeFromTimeoutList c else c).core = c.core := by
  split
  · exact core_removeFromTimeoutList c
  · rfl

theorem core_dequeueClose (cfg : Config) (c : Conn) :
    (dequeueClose cfg c).core = c.core.dequeueClose := by
  have hleave : _ = { c.core with closeq := c.closeq - 1, onCloseq := false, fss := c.core.finalSeq } :=
    core_leaveTimeoutList cfg
      { c with closeq := c.closeq - 1, onCloseq := false, fss := finalSeq c }
  unfold dequeueClose Endpoint.dequeueClose
  simp only [Conn.core_closeq, ← hleave]
  generalize (if 0 < cfg.tcpTimeout then removeFromTimeoutList _ else _) = d
  unfold Endpoint.closeTaken
  simp only [Conn.core_haveReset, Conn.core_state, Conn.core_onControlList, Conn.core_onSendList,
    Conn.core_onAckList]
  split_ifs
  · rw [core_destroyTCPStream]
    rfl
  · rfl
  · rfl
  · rfl
  · rw [core_addtoControlList]
    rfl
  · rfl

theorem core_dequeueCloseInt (c : Conn) :
    (dequeueCloseInt c).core = c.core.dequeueCloseInt := by
  unfold dequeueCloseInt Endpoint.dequeueCloseInt
  simp only [Conn.core_onControlList, Conn.core_state]
  split_ifs
  · rfl
  · rw [core_addtoControlList]
    rfl
  · rfl

theorem core_resetStream (c : Conn) : (resetStream c).core = c.core.resetStream := by
  unfold resetStream Endpoint.resetStream
  simp only [Conn.core_state]
  split_ifs
  · rw [core_addtoControlList]
    rfl
  · rfl

theorem core_dequeueReset (cfg : Config) (c : Conn) :
    (dequeueReset cfg c).core = c.core.dequeueReset := by
  have hleave : _ = { c.core with resetq := c.resetq - 1, onResetq := false } :=
    core_leaveTimeoutList cfg { c with resetq := c.resetq - 1, onResetq := false }
  unfold dequeueReset Endpoint.dequeueReset
  simp only [Conn.core_resetq, ← hleave]
  generalize (if 0 < cfg.tcpTimeout then removeFromTimeoutList _ else _) = d
  unfold Endpoint.resetTaken
  simp only [Conn.core_haveReset, Conn.core_state, Conn.core_onControlList, Conn.core_onSendList,
    Conn.core_onAckList]
  split_ifs
  · rw [core_destroyTCPStream]
    rfl
  · rfl
  · rfl
  · exact core_resetStream d

theorem core_dequeueResetInt (c : Conn) :
    (dequeueResetInt c).core = c.core.dequeueResetInt := by
  unfold dequeueResetInt Endpoint.dequeueResetInt
  simp only [Conn.core_onControlList, Conn.core_onSendList, Conn.core_onAckList]
  split_ifs
  · rfl
  · exact core_resetStream _

theorem core_dequeueDestroy (cfg : Config) (c : Conn) :
    (dequeueDestroy cfg c).core = c.core.dequeueDestroy := by
  unfold dequeueDestroy
  rw [core_destroyTCPStream]
  rfl

/-! ## The application -/

theorem core_closeStreamSocket (c : Conn) :
    (closeStreamSocket c).core = c.core.closeSocket := by
  unfold closeStreamSocket Endpoint.closeSocket
  simp only [Conn.core_closed, Conn.core_state]
  split
  · rfl
  · cases c.state <;> rfl

theorem core_mtcpClose (c : Conn) : (mtcpClose c).core = c.core.close := by
  unfold mtcpClose Endpoint.close
  simp only [Conn.core_smap]
  split
  · have h := core_closeStreamSocket c
    rw [← h]
    rfl
  · rfl

theorem core_mtcpAbort (c : Conn) : (mtcpAbort c).core = c.core.abort := by
  unfold mtcpAbort Endpoint.abort
  simp only [Conn.core_smap, Conn.core_state, Conn.core_onResetq]
  split
  · cases c.state <;> first | rfl | (simp only; split <;> rfl)
  · rfl

theorem core_mtcpAccept (socket : Option Socket) (c : Conn) :
    (mtcpAccept socket c).core = c.core.accept socket.isSome := by
  unfold mtcpAccept Endpoint.accept
  simp only [Conn.core_acceptq, Conn.core_hasSocket]
  split
  · rfl
  · cases hs : c.socket with
    | some s => simp [Conn.core, hs]
    | none => cases socket <;> simp [Conn.core, hs]

/-! ## Timers -/

theorem core_notifyOrDestroy (env : Env) (c : Conn) :
    (notifyOrDestroy env c).core = if c.socket.isSome then c.core else c.core.destroy := by
  unfold notifyOrDestroy
  split
  · exact core_raiseErrorEvent c
  · exact core_destroyTCPStream env.cfg c

theorem core_requeueRTO (c : Conn) : (requeueRTO c).core = c.core.requeue := by
  have hctl : (addtoControlList c).core = { c.core with onControlList := true } :=
    core_addtoControlList c
  have hsend : (addtoSendList c).core =
      { c.core with onSendList := c.core.onSendList || c.core.sndbuf.isSome } :=
    core_addtoSendList c
  have hwait : (addtoSendList { removeFromControlList c with controlListWaiting := true }).core =
      { c.core with
        onControlList := false
        waiting := true
        onSendList := c.core.onSendList || c.core.sndbuf.isSome } := by
    have h := core_removeFromControlList c
    rw [core_addtoSendList]
    simp only [Conn.core, Endpoint.mk.injEq] at h ⊢
    simp [h]
  have hstate : c.core.state = c.state := rfl
  have hlt : tcpSeqLt c.core.sndNxt c.core.fss ↔ tcpSeqLt c.sndNxt c.fss := Iff.rfl
  unfold requeueRTO Endpoint.requeue
  rw [← hstate]
  generalize c.core = p at hctl hsend hwait hlt ⊢
  split
  case h_1 hs => simp [hs, hsend]
  case h_2 hs => simp [hs, hsend]
  case h_6 => simp_all
  all_goals
    rename_i hs
    simp only [hs, hlt]
    split
    · simp [hwait, hs]
    · simp [hctl, hs]

theorem retransmitRTO_effects (env : Env) {c d : Conn} (hin : c.core.inRto = true)
    (hd : d.core = { c.core with inRto := false }) (hreason : c.closeReason = .notClosed) :
    Effects avoid sg c.core (retransmitRTO env d).core := by
  have hstate : d.state = c.state := congrArg (·.state) hd
  have hsock : d.socket.isSome = c.socket.isSome := congrArg (·.hasSocket) hd
  have hrewind : c.state ≠ .closed ∧ c.state ≠ .listen ∧ c.state ≠ .finWait2 ∧
      c.state ≠ .timeWait →
      Effects avoid sg c.core (requeueRTO { d with sndNxt := d.sndUna }).core := by
    intro hs
    rw [core_requeueRTO]
    change Effects avoid sg c.core (Endpoint.requeue { d.core with sndNxt := d.core.sndUna })
    rw [hd]
    exact .single (.rtoRewind hin hreason hs)
  have hstray : c.state = .closed ∨ c.state = .listen ∨ c.state = .finWait2 ∨
      c.state = .timeWait → Effects avoid sg c.core (d.fault .rtoState).core := by
    intro hs
    rw [core_fault_skipped d rfl, hd]
    exact .single (.rtoStray hs)
  unfold retransmitRTO
  split <;> rename_i hs <;> rw [hstate] at hs
  case h_1 =>
    split
    case isTrue hmax =>
      rw [core_notifyOrDestroy]
      change Effects avoid sg c.core (if d.socket.isSome = true then
        { d.core with state := .closed, closeReason := .connFail }
        else Endpoint.destroy { d.core with state := .closed, closeReason := .connFail })
      rw [hsock, hd]
      split
      case isTrue h =>
        exact .single (.rtoLost (p := c.core) .connFail (Or.inl rfl) h (by simp [hs]))
      case isFalse h =>
        exact .single (.rtoDestroy (p := c.core) (Or.inl (by simp [hs, TcpState.code]))
          ⟨rfl, rfl, rfl, rfl⟩)
    case isFalse => exact hrewind (by simp [hs])
  case h_2 =>
    split
    case isTrue h =>
      rw [core_destroyTCPStream, hd]
      exact .single (.rtoDestroy (p := c.core) (Or.inl (by simp [hs, TcpState.code]))
        ⟨rfl, rfl, rfl, rfl⟩)
    case isFalse => exact hrewind (by simp [hs])
  case h_8 => exact hstray (Or.inl hs)
  case h_9 => exact hstray (Or.inr (Or.inl hs))
  case h_10 => exact hstray (Or.inr (Or.inr (Or.inl hs)))
  case h_11 => exact hstray (Or.inr (Or.inr (Or.inr hs)))
  all_goals exact hrewind (by simp [hs])

/-- Giving up destroys a stream without a socket, or whose handshake is not complete. -/
theorem giveUpRTO_effects (env : Env) {c d : Conn} (hd : d.core = { c.core with inRto := false }) :
    Effects avoid sg c.core (giveUpRTO env d).core := by
  have hstate : d.state = c.state := congrArg (·.state) hd
  have hsock : d.socket.isSome = c.socket.isSome := congrArg (·.hasSocket) hd
  unfold giveUpRTO
  rw [hstate]
  split
  case isTrue hlt =>
    rw [core_destroyTCPStream]
    change Effects avoid sg c.core
      (Endpoint.destroy { d.core with state := .closed, closeReason := .connFail })
    rw [hd]
    exact .single (.rtoDestroy (p := c.core) (Or.inl hlt) ⟨rfl, rfl, rfl, rfl⟩)
  case isFalse hge =>
    rw [core_notifyOrDestroy]
    change Effects avoid sg c.core (if d.socket.isSome = true then
      { d.core with state := .closed, closeReason := .connLost }
      else Endpoint.destroy { d.core with state := .closed, closeReason := .connLost })
    rw [hsock, hd]
    split
    case isTrue h =>
      refine .single (.rtoLost (p := c.core) .connLost (Or.inr rfl) h fun hc => hge ?_)
      rw [show c.state = .closed from hc]
      decide
    case isFalse h =>
      have hnone : c.socket = none := by simpa using h
      exact .single (.rtoDestroy (p := c.core) (Or.inr (by simp [hnone])) ⟨rfl, rfl, rfl, rfl⟩)

theorem rtoListStep_effects (env : Env) (slot : ℕ) {c : Conn} (hin : 0 ≤ c.onRtoIdx) :
    Effects avoid sg c.core (rtoListStep env slot c).core := by
  have hslot : c.core.inRto = true := by simp [isSlot, hin]
  unfold rtoListStep
  rw [if_pos hin]
  have htaken : ∀ d : Conn, d.core = { c.core with inRto := false } →
      (if d.rto = 0 then d.fault .rtoZero else d).core = { c.core with inRto := false } := by
    intro d hd
    split
    · rw [core_fault_skipped d rfl, hd]
    · exact hd
  unfold handleRTO
  simp only
  have hcore := htaken (Conn.act
    { c with
      rtoList := Function.update c.rtoList slot ((c.rtoList slot).erase c.sid)
      rtoListCnt := c.rtoListCnt - 1
      onRtoIdx := -1 } .timedOut) (core_act_skipped _ rfl)
  generalize (if _ = (0 : U32) then Conn.fault _ .rtoZero else _) = d at hcore ⊢
  have hreason : d.closeReason = c.closeReason := congrArg (·.closeReason) hcore
  rw [hreason]
  split_ifs with hclosed hmax
  · rw [hcore]
    exact .single (.rtoIgnored hclosed)
  · refine retransmitRTO_effects env hslot ?_ (by simpa using hclosed)
    rw [core_shrinkWindow, core_backoffRTO, core_countRtx, hcore]
  · exact giveUpRTO_effects env hcore

theorem timewaitStep_effects (env : Env) (c : Conn) :
    Effects avoid sg c.core (timewaitStep env c).1.core := by
  unfold timewaitStep
  split_ifs with hon hexp hctl
  · exact .refl
  · rw [core_destroyTCPStream]
    exact .single (.timewaitExpired (p := c.core) hon (by simpa using hctl))
  · exact .refl
  · exact .refl

theorem timeoutStep_effects (env : Env) (c : Conn) :
    Effects avoid sg c.core (timeoutStep env c).1.core := by
  unfold timeoutStep
  split_ifs with hexp
  · rw [core_notifyOrDestroy]
    change Effects avoid sg c.core (if c.socket.isSome = true then
      { c.core with state := .closed, closeReason := .timedOut }
      else Endpoint.destroy { c.core with state := .closed, closeReason := .timedOut })
    split
    case isTrue h => exact .single (.timedOut h)
    case isFalse h =>
      have hnone : c.socket = none := by simpa using h
      exact .single (.timedOutOrphan (p := c.core) (by simp [hnone]))
  · exact .refl

/-! ## Reading and writing -/

theorem core_remindReader (s : Socket) (ret : ℤ) (c : Conn) :
    (remindReader s ret c).core = c.core := by
  unfold remindReader
  simp only
  split_ifs <;> first | rfl | exact core_act_skipped c rfl

theorem core_advertiseWindow (c : Conn) :
    (advertiseWindow c).core =
      { c.core with onAckq := (advertiseWindow c).onAckq, ackq := (advertiseWindow c).ackq } := by
  rcases advertiseWindow_cases c with heq | heq <;> rw [heq] <;> rfl

/-- Reading changes the receive buffer and may queue a window update. -/
theorem core_copyToUser (b : RingBuffer) (len : ℕ) (c : Conn) :
    (copyToUser b len c).1.core =
      { c.core with
        onAckq := (copyToUser b len c).1.onAckq
        ackq := (copyToUser b len c).1.ackq
        rcvbuf := (copyToUser b len c).1.rcvbuf
        rcvWnd := (copyToUser b len c).1.rcvWnd
        trace := (copyToUser b len c).1.core.trace } := by
  have hout := copyToUser_outcome b len c
  generalize copyToUser b len c = r at hout ⊢
  cases hout with
  | nothing | faulted => rfl
  | @taken bytes b' =>
    rcases advertiseWindow_cases { c.act (.delivered bytes) with
      rcvbuf := some b'
      rcvWnd := BitVec.ofNat 32 (b'.size - b'.mergedLen) } with heq | heq <;> rw [heq] <;> rfl

theorem mtcpRead_effects (len : ℕ) (c : Conn) (hread : ¬ avoid .read) :
    Effects avoid sg c.core (mtcpRead len c).1.core := by
  unfold mtcpRead
  split
  case h_1 s hmap hsock =>
    split
    case isTrue => exact .refl
    case isFalse =>
      cases hbuf : c.rcvbuf with
      | none =>
          simp only
          split_ifs
          · exact .refl
          · exact .refl
          · rw [core_fault_skipped c rfl]
      | some b =>
          simp only
          split
          · exact .refl
          · rw [core_remindReader]
            exact .single (.read hread hbuf hmap (by simp [hsock]))
  case h_2 => exact .refl

theorem core_enqueueSend (c : Conn) : (enqueueSend c).core = c.core.enqueueSend := by
  unfold enqueueSend Endpoint.enqueueSend
  simp only [Conn.core_onSendq, Conn.core_onSendList]
  split <;> rfl

theorem openSndbuf_effects {env : Env} {c : Conn} {b : SendBuffer}
    (hstate : c.state = .established ∨ c.state = .closeWait) (hmap : c.smap = true)
    (hbig : avoid .bigBuffer → ∀ chunk, env.sndChunk = some chunk → chunk.length + 1 < 2 ^ 31)
    (hopen : openSndbuf env c = some b) :
    Effects avoid sg c.core { c.core with sndbuf := some b } := by
  unfold openSndbuf at hopen
  split at hopen
  case h_1 b₀ hb =>
    have hsame : c.core = { c.core with sndbuf := some b } := by
      rw [← hopen, ← hb]
      rfl
    rw [← hsame]
  case h_2 hb =>
    obtain ⟨chunk, hchunk, rfl⟩ := Option.map_eq_some_iff.mp hopen
    exact .single (.openBuffer hstate hmap hb fun ha => hbig ha chunk hchunk)

/-- A write puts bytes into the buffer, opened if need be, and queues the stream for sending; or
it changes nothing but the close reason. -/
theorem copyFromUser_effects (env : Env) (buf : List U8) {c : Conn}
    (hstate : c.state = .established ∨ c.state = .closeWait) (hmap : c.smap = true)
    (hsock : c.socket.isSome = true) (hmem : avoid .noMemory → env.sndChunk ≠ none)
    (hbig : avoid .bigBuffer → ∀ chunk, env.sndChunk = some chunk → chunk.length + 1 < 2 ^ 31) :
    Effects avoid sg c.core
      (if 0 < (copyFromUser env buf c).2 then enqueueSend (copyFromUser env buf c).1
        else (copyFromUser env buf c).1).core := by
  unfold copyFromUser
  simp only
  split
  case isTrue => exact .refl
  case isFalse hpos =>
    cases hopen : openSndbuf env c with
    | none =>
        have hnone : env.sndChunk = none := by
          unfold openSndbuf at hopen
          split at hopen
          · simp at hopen
          · simpa using hopen
        exact .single (.writeNoMem (p := c.core) fun ha => hmem ha hnone)
    | some b =>
        have hopened : Effects avoid sg c.core { c.core with sndbuf := some b } :=
          openSndbuf_effects hstate hmap hbig hopen
        simp only
        cases hput : sbPut b (buf.take (min c.sndWnd.toInt buf.length).toNat) with
        | none =>
            simp only [Int.reduceNeg, Int.reduceLT, if_false]
            rw [core_fault_skipped _ rfl]
            exact hopened
        | some res =>
            obtain ⟨b', ret⟩ := res
            have hfault : ∀ d : Conn,
                (if ret = min c.sndWnd.toInt buf.length then d else d.fault .sendWrite).core =
                  d.core := by
              intro d
              split
              · rfl
              · exact core_fault_skipped d rfl
            have hcore := hfault
              { c with
                sndbuf := some b'
                sndWnd := BitVec.ofNat 32 b'.size - BitVec.ofNat 32 b'.len }
            simp only
            generalize (if ret = min c.sndWnd.toInt buf.length then _ else _) = d at hcore ⊢
            have hd : d.core = { c.core with sndbuf := some b' } := hcore
            rcases sbPut_shape hput with ⟨hn, rfl⟩ | ⟨hn, hlen, -⟩
            · rw [if_pos hn]
              simp only [Int.reduceNeg, Int.reduceLT, if_false]
              rw [hd]
              exact hopened
            · simp only [if_neg (by omega : ¬ ret ≤ 0), if_pos hn]
              rw [core_enqueueSend, core_act_kept _ rfl, hd]
              have htake : buf.take ret.toNat =
                  (buf.take (min c.sndWnd.toInt buf.length).toNat).take ret.toNat := by
                rw [List.length_take] at hlen
                rw [List.take_take, min_eq_left (by omega)]
              rw [htake]
              exact hopened.tail (.wrote (p := { c.core with sndbuf := some b }) hstate hmap hsock
                rfl hput hn)

theorem mtcpWrite_effects (env : Env) (buf : List U8) {c : Conn}
    (hmem : avoid .noMemory → env.sndChunk ≠ none)
    (hbig : avoid .bigBuffer → ∀ chunk, env.sndChunk = some chunk → chunk.length + 1 < 2 ^ 31) :
    Effects avoid sg c.core (mtcpWrite env buf c).1.core := by
  unfold mtcpWrite
  split
  case h_1 s hmap hsock =>
    split
    case isTrue => exact .refl
    case isFalse hst =>
      split
      case isTrue => exact .refl
      case isFalse =>
        have hwrite : Effects avoid sg c.core _ :=
          copyFromUser_effects env buf (by tauto) hmap (by simp [hsock]) hmem hbig
        simp only
        generalize (if 0 < (copyFromUser env buf c).2 then _ else _) = d at hwrite ⊢
        split
        · rw [core_act_skipped _ rfl]
          exact hwrite
        · exact hwrite
  case h_2 => exact .refl

end MtcpStack
