import MtcpStack.Verification.Receive
import MtcpStack.Verification.Simulation

/-! # What a step does to the receiving side

Most steps leave `rcv_nxt`, the window and the receive buffer alone. Payload, a read, the peer's SYN
and the peer's FIN are the others. -/

namespace MtcpStack

variable {avoid : Hazard → Prop} {sg : Option Segment} {p q : Endpoint}

/-- The receiving side. -/
def Endpoint.receiving (p : Endpoint) : Bool × U32 × U32 × U32 × Option RingBuffer :=
  (p.live, p.irs, p.rcvNxt, p.rcvWnd, p.rcvbuf)

inductive ReceiveStep (avoid : Hazard → Prop) (sg : Option Segment) (p q : Endpoint) : Prop
  | payload {c : Conn} {env : Env} {seg : Segment} (hp : p = c.core)
      (hq : q = (processTCPPayload env seg.payload seg.seq c).1.core) (hstate : c.state.receives)
      (hmem : openRcvbuf env c ≠ none) (hsafe : PayloadSafe avoid env seg c)
  | read {c : Conn} {b : RingBuffer} {len : ℕ} (hread : ¬ avoid .read) (hp : p = c.core)
      (hq : q = (copyToUser b len c).1.core) (hbuf : c.rcvbuf = some b)
  | dead (hlive : q.live = false) (hbuf : q.rcvbuf = none)
  | kept (hside : q.receiving = p.receiving) (hlisten : q.state = .listen → p.state = .listen)
      (hopens : q.state.opens = true → p.state.opens = true)
      (hrecv : q.state.receives → p.state.receives)
  | fin {seg : Segment} (hsg : sg = some seg) (hseq : seg.payloadEnd = p.rcvNxt)
      (hside : q.receiving = { p with rcvNxt := p.rcvNxt + 1 }.receiving)
      (hopens : q.state.opens = false) (hrecv : ¬ q.state.receives)
  | listened (hstate : p.state = .listen)
      (hside : q.receiving = { p with rcvNxt := p.rcvNxt + 1 }.receiving)
  | opened (hstate : p.state = .synSent ∨ p.state = .synRcvd ∧ q.irs = p.irs)
      (hside : q.receiving = { p with irs := q.irs, rcvNxt := q.irs + 1 }.receiving)
      (hopens : q.state.opens = false)

theorem closingState_receives {s : TcpState} (h : (closingState s).receives) : s.receives := by
  cases s <;> simp_all [closingState, TcpState.receives]

/-- Every state in which payload is processed comes after the opening. -/
theorem TcpState.receives.not_opens {s : TcpState} (h : s.receives) : s.opens = false := by
  rcases h with rfl | rfl | rfl <;> rfl

namespace ReceiveStep

/-- Neither the receiving side nor the state changes. -/
theorem same (hside : q.receiving = p.receiving) (hstate : q.state = p.state) :
    ReceiveStep avoid sg p q :=
  .kept hside (hstate ▸ id) (hstate ▸ id) (hstate ▸ id)

/-- The stream leaves the states in which it receives. -/
theorem ended (hside : q.receiving = p.receiving) (hopens : q.state.opens = false)
    (hrecv : ¬ q.state.receives) : ReceiveStep avoid sg p q := by
  refine .kept hside (fun hs => ?_) (fun ho => ?_) fun hr => absurd hr hrecv
  · rw [hs] at hopens
    cases hopens
  · rw [hopens] at ho
    cases ho

/-- The application's close moves the stream on. -/
theorem closing (hside : q.receiving = p.receiving) (hstate : q.state = closingState p.state) :
    ReceiveStep avoid sg p q := by
  refine .kept hside (fun hs => ?_) (fun ho => ?_) fun hr => closingState_receives (hstate ▸ hr)
  · have hopens : (closingState p.state).opens = true := by
      rw [← hstate, hs]
      rfl
    rw [← closingState_opens hopens, ← hstate, hs]
  · rw [hstate] at ho
    exact closingState_opens ho ▸ ho

end ReceiveStep

theorem Effect.receiveStep (heff : Effect avoid sg p q) : ReceiveStep avoid sg p q := by
  cases heff with
  | payload hsg hstate hmem hsafe => exact .payload rfl rfl hstate hmem hsafe
  | read hread hbuf => exact .read hread rfl rfl hbuf
  | control | queueAck | restartTimewait | sendHandshake | rewindSynAck | sendFin | sendAck
  | leaveControl | data | flushFault | dupAck | rewind | recover | acked | pureAck | synRcvdBare
  | synEstablished | rstSeen | rtoIgnored | rtoStray | connectq | sendq | ackq | closeListener
  | openBuffer | writeNoMem => exact .same rfl rfl
  | sendReset | answeredOrphan | lastAcked | rstHandshake | rstClosing | rtoDestroy
  | timewaitExpired | timedOutOrphan | destroyq => exact .dead rfl rfl
  | rstAck | noMem | closingAcked | rstEstablished | rtoLost | timedOut =>
    exact .ended rfl rfl (by simp [TcpState.receives])
  | finEstablished hsg _ _ hseq | finClosing hsg _ _ hseq | finTimewait hsg _ _ hseq =>
    exact .fin hsg hseq rfl rfl (by simp [TcpState.receives])
  | finLate hsg hstate hseq =>
    exact .fin hsg hseq rfl (by simp [hstate, TcpState.opens]) (by simp [hstate, TcpState.receives])
  | finAcked _ hstate =>
    exact .kept rfl (by simp) (by simp [TcpState.opens]) fun _ => .inr (.inl hstate)
  | listenSyn hstate => exact .listened hstate rfl
  | synAck _ hstate => exact .opened (.inl hstate) rfl rfl
  | handshake answer _ hstate => exact .opened (.inr ⟨hstate, rfl⟩) rfl (by cases answer <;> rfl)
  | synOnly hstate =>
    exact .kept rfl (by simp) (fun _ => by simp [hstate, TcpState.opens]) (by simp [TcpState.receives])
  | dataDone =>
    rw [Endpoint.leaveSend_frame]
    exact .same rfl rfl
  | ackDone =>
    rw [Endpoint.leaveAck_frame]
    exact .same rfl rfl
  | rtoRewind =>
    rw [Endpoint.requeue_frame]
    exact .same rfl rfl
  | accept =>
    rw [Endpoint.accept_frame]
    exact .same rfl rfl
  | close =>
    rw [Endpoint.close_frame]
    exact .same rfl rfl
  | closeq =>
    have hcases := p.dequeueClose_cases
    generalize p.dequeueClose = q at hcases ⊢
    cases hcases with
    | freed => exact .dead rfl rfl
    | kept | requeued => exact .same rfl rfl
    | waits | closes => exact .closing rfl rfl
  | closeqInt =>
    have hcases := p.dequeueCloseInt_cases
    generalize p.dequeueCloseInt = q at hcases ⊢
    cases hcases with
    | deferred | kept => exact .same rfl rfl
    | closes => exact .closing rfl rfl
  | resetq =>
    have hcases := p.dequeueReset_cases
    generalize p.dequeueReset = q at hcases ⊢
    cases hcases with
    | freed => exact .dead rfl rfl
    | kept | requeued => exact .same rfl rfl
    | resets => exact .ended rfl rfl (by simp [TcpState.receives])
  | resetqInt =>
    have hcases := p.dequeueResetInt_cases
    generalize p.dequeueResetInt = q at hcases ⊢
    cases hcases with
    | deferred | kept => exact .same rfl rfl
    | resets => exact .ended rfl rfl (by simp [TcpState.receives])
  | wrote =>
    unfold Endpoint.enqueueSend
    split <;> exact .same rfl rfl
  | abort =>
    have hcases := p.abort_cases
    generalize p.abort = q at hcases ⊢
    cases hcases with
    | unmapped | closed | queued | resets => exact .same rfl rfl
    | closes => exact .ended rfl rfl (by simp [TcpState.receives])

/-! ## Where the receive buffer ends -/

/-- `rcv_nxt` is behind the bytes that are in order, or behind the SYN while there is no buffer. -/
structure Aligned (p : Endpoint) : Prop where
  dead : p.live = false → p.rcvbuf = none
  listen : p.live = true → p.state ≠ .listen
  opens : p.live = true → p.state.opens = true → p.rcvbuf = none
  fresh : p.live = true → p.state.receives → p.rcvbuf = none → p.rcvNxt = p.irs + 1
  buffered : p.state.receives → ∀ b, p.rcvbuf = some b →
    p.rcvNxt = b.headSeq + BitVec.ofNat 32 b.mergedLen

/-- What is removed from the front of the buffer leaves its end where it was. -/
theorem rbRemove_end {b b' : RingBuffer} {len n : ℕ} (h : rbRemove b len = some (b', n)) :
    b'.headSeq + BitVec.ofNat 32 b'.mergedLen = b.headSeq + BitVec.ofNat 32 b.mergedLen := by
  unfold rbRemove at h
  simp only at h
  have hle : (if b.mergedLen < len then b.mergedLen else len) ≤ b.mergedLen := by
    split <;> omega
  generalize (if b.mergedLen < len then b.mergedLen else len) = k at h hle
  split at h
  case isTrue =>
    cases h
    rfl
  case isFalse =>
    obtain ⟨fctx, -, heq⟩ := Option.map_eq_some_iff.mp h
    cases heq
    simp only
    rw [add_assoc, ← BitVec.ofNat_add, Nat.add_sub_cancel' hle]

namespace Aligned

/-- The states in which payload counts have passed, or the buffer ends at `rcv_nxt`. -/
theorem of_buffer {p : Endpoint} {b : RingBuffer} (hlive : p.live = true)
    (hopens : p.state.opens = false) (hbuf : p.rcvbuf = some b)
    (hnxt : p.state.receives → p.rcvNxt = b.headSeq + BitVec.ofNat 32 b.mergedLen) : Aligned p := by
  refine ⟨fun hd => ?_, fun _ hs => ?_, fun _ ho => ?_, fun _ _ hn => ?_, fun hr b' hb' => ?_⟩
  · rw [hlive] at hd
    cases hd
  · rw [hs] at hopens
    cases hopens
  · rw [hopens] at ho
    cases ho
  · rw [hbuf] at hn
    cases hn
  · rw [hbuf] at hb'
    cases hb'
    exact hnxt hr

/-- The buffer that a segment meets. -/
theorem openRcvbuf {c : Conn} {env : Env} {b : RingBuffer} (h : Aligned c.core)
    (hlive : c.onHashTable = true) (hstate : c.state.receives)
    (hopen : MtcpStack.openRcvbuf env c = some b) :
    c.rcvNxt = b.headSeq + BitVec.ofNat 32 b.mergedLen := by
  unfold MtcpStack.openRcvbuf at hopen
  split at hopen
  case h_1 b' hbuf =>
    cases hopen
    exact h.buffered hstate b hbuf
  case h_2 hbuf =>
    obtain ⟨chunk, -, rfl⟩ := Option.map_eq_some_iff.mp hopen
    have hnxt : c.rcvNxt = c.irs + 1 := h.fresh hlive hstate hbuf
    simpa [rbInit] using hnxt

theorem payload {c : Conn} {env : Env} {bytes : List U8} {seq : U32} (h : Aligned c.core)
    (hlive : c.onHashTable = true) (hstate : c.state.receives)
    (hmem : MtcpStack.openRcvbuf env c ≠ none) :
    Aligned (processTCPPayload env bytes seq c).1.core := by
  refine processTCPPayload_rule (P := fun d => Aligned d.core)
    (fun e reg d hd => (core_raiseEvent e reg d).symm ▸ hd) fun d hout => ?_
  cases hout with
  | dropped => exact h
  | noMemory hnone => exact absurd hnone hmem
  | @faulted b _ _ hopen =>
    exact of_buffer (b := b) hlive hstate.not_opens rfl fun _ => h.openRcvbuf hlive hstate hopen
  | @stored b b' ret =>
    have hstored : ∀ d : Conn, d.onHashTable = true → d.state = c.state →
        Aligned (storePayload b' d).core :=
      fun d hd hs => of_buffer (b := b') hd ((congrArg TcpState.opens hs).trans hstate.not_opens)
        rfl fun _ => rfl
    refine hstored _ ?_ ?_ <;> split <;> first | exact hlive | rfl

theorem read {c : Conn} {b : RingBuffer} (h : Aligned c.core) (len : ℕ) (hbuf : c.rcvbuf = some b) :
    Aligned (copyToUser b len c).1.core := by
  have hlive : c.onHashTable = true := by
    by_contra hdead
    have hnone : c.rcvbuf = none := h.dead (Bool.eq_false_of_not_eq_true hdead)
    rw [hbuf] at hnone
    cases hnone
  have hopens : c.state.opens = false := by
    by_contra ho
    have hnone : c.rcvbuf = none := h.opens hlive (Bool.eq_true_of_not_eq_false ho)
    rw [hbuf] at hnone
    cases hnone
  have hout := copyToUser_outcome b len c
  generalize copyToUser b len c = r at hout ⊢
  cases hout with
  | nothing => exact h
  | @taken bytes b' n _ _ hrem =>
    rw [core_advertiseWindow]
    refine of_buffer (b := b') hlive hopens rfl fun hr => ?_
    rw [rbRemove_end hrem]
    exact h.buffered hr b hbuf
  | faulted => exact of_buffer (b := b) hlive hopens hbuf fun hr => h.buffered hr b hbuf

theorem effect (h : Aligned p) (heff : Effect avoid sg p q) : Aligned q := by
  cases heff.receiveStep with
  | payload hp hq hstate hmem hsafe =>
    subst hp hq
    exact h.payload hsafe.live hstate hmem
  | read _ hp hq hbuf =>
    subst hp hq
    exact h.read _ hbuf
  | dead hlive hbuf =>
    refine ⟨fun _ => hbuf, fun hl => ?_, fun _ _ => hbuf, fun hl => ?_, fun _ b hb => ?_⟩
    · simp [hlive] at hl
    · simp [hlive] at hl
    · simp [hbuf] at hb
  | kept hside hlisten hopens hrecv =>
    simp only [Endpoint.receiving, Prod.mk.injEq] at hside
    obtain ⟨hlive, hirs, hnxt, -, hbuf⟩ := hside
    constructor
    · rw [hlive, hbuf]
      exact h.dead
    · rw [hlive]
      exact fun hl hs => h.listen hl (hlisten hs)
    · rw [hlive, hbuf]
      exact fun hl ho => h.opens hl (hopens ho)
    · rw [hlive, hbuf, hnxt, hirs]
      exact fun hl hr => h.fresh hl (hrecv hr)
    · rw [hbuf, hnxt]
      exact fun hr => h.buffered (hrecv hr)
  | fin _ _ hside hopens hrecv =>
    simp only [Endpoint.receiving, Prod.mk.injEq] at hside
    obtain ⟨hlive, -, -, -, hbuf⟩ := hside
    refine ⟨hlive ▸ hbuf ▸ h.dead, fun _ hs => ?_, fun _ ho => ?_, fun _ hr => absurd hr hrecv,
      fun hr => absurd hr hrecv⟩
    · simp [hs, TcpState.opens] at hopens
    · simp [hopens] at ho
  | listened hstate hside =>
    simp only [Endpoint.receiving, Prod.mk.injEq] at hside
    obtain ⟨hlive, -, -, -, hbuf⟩ := hside
    have hdead : p.live = false := Bool.eq_false_of_not_eq_true fun hl => h.listen hl hstate
    have hnone : q.rcvbuf = none := hbuf.trans (h.dead hdead)
    refine ⟨fun _ => hnone, fun hl => ?_, fun _ _ => hnone, fun hl => ?_, fun _ b hb => ?_⟩
    · simp [hlive, hdead] at hl
    · simp [hlive, hdead] at hl
    · simp [hnone] at hb
  | opened hstate hside hopens =>
    simp only [Endpoint.receiving, Prod.mk.injEq] at hside
    obtain ⟨hlive, -, hnxt, -, hbuf⟩ := hside
    have hnone : q.rcvbuf = none := by
      rw [hbuf]
      cases hl : p.live with
      | false => exact h.dead hl
      | true => exact h.opens hl (by rcases hstate with hs | ⟨hs, -⟩ <;> simp [hs, TcpState.opens])
    refine ⟨fun _ => hnone, fun _ hs => ?_, fun _ _ => hnone, fun _ _ _ => hnxt, fun _ b hb => ?_⟩
    · simp [hs, TcpState.opens] at hopens
    · simp [hnone] at hb

end Aligned

theorem Born.aligned {c : Conn} (hborn : Born c) : Aligned c.core := by
  have hopens := hborn.fresh.opens
  have hnone := hborn.fresh.rcvbuf
  refine ⟨fun _ => hnone, fun _ hs => ?_, fun _ _ => hnone, fun _ hr => ?_, fun hr => ?_⟩
  · rcases hborn.fresh.state with hs' | hs' <;> cases hs.symm.trans hs'
  all_goals cases hopens.symm.trans hr.not_opens

theorem Reached.aligned {c : Conn} (hreached : Reached avoid c) : Aligned c.core :=
  hreached.invariant Born.aligned fun heff h => h.effect heff

end MtcpStack
