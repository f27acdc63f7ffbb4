import MtcpStack.Verification.SentData

/-! # How far a close has got

From `mtcp_close` to the FIN a stream passes through the close queue and, while a control packet is
due, through the internal close queue. It is in one of them at most once, and from the moment the
final sequence number is set nothing is written any more. -/

namespace MtcpStack

variable {avoid : Hazard → Prop} {p q : Endpoint}

/-- The states in which the application has closed and the closing handshake is under way. -/
def TcpState.leaving (s : TcpState) : Prop :=
  s = .finWait1 ∨ s = .finWait2 ∨ s = .closing ∨ s = .lastAck

structure Closing (p : Endpoint) : Prop where
  socket_eq : p.hasSocket = p.smap
  unmapped : p.closed = true → p.smap = false
  queued_le : p.closeq + p.closeqInt ≤ 1
  flagged : 0 < p.closeq → p.onCloseq = true
  flaggedInt : 0 < p.closeqInt → p.onCloseqInt = true
  queued : 0 < p.closeq + p.closeqInt → p.closed = true ∧ p.isFinSent = false
  sent : p.isFinSent = true → p.closed = true
  opening : p.state.opens = true → p.closeq + p.closeqInt = 0
  leaving : p.state.leaving → p.closed = true ∧ p.closeq + p.closeqInt = 0
  final : p.state.leaving ∨ 0 < p.closeqInt → ∀ b, p.sndbuf = some b → p.fss = b.endSeq

/-! ## Effects -/

/-- What a close depends on, the state apart. -/
def Endpoint.closeView (p : Endpoint) :
    (Bool × Bool × Bool) × (ℕ × ℕ × Bool × Bool) × Bool × U32 × Option U32 :=
  ((p.hasSocket, p.smap, p.closed), (p.closeq, p.closeqInt, p.onCloseq, p.onCloseqInt),
    p.isFinSent, p.fss, p.sndbuf.map SendBuffer.endSeq)

theorem Closing.moved (h : Closing p) (hview : q.closeView = p.closeView)
    (hopens : q.state.opens = true → p.state.opens = true)
    (hleaving : q.state.leaving → p.state.leaving) : Closing q := by
  simp only [Endpoint.closeView, Prod.mk.injEq] at hview
  obtain ⟨⟨hsock, hmap, hclosed⟩, ⟨hq, hqi, hon, honi⟩, hsent, hfss, hend⟩ := hview
  refine ⟨?_, ?_, ?_, ?_, ?_, ?_, ?_, ?_, ?_, ?_⟩
  · rw [hsock, hmap]
    exact h.socket_eq
  · rw [hclosed, hmap]
    exact h.unmapped
  · rw [hq, hqi]
    exact h.queued_le
  · rw [hq, hon]
    exact h.flagged
  · rw [hqi, honi]
    exact h.flaggedInt
  · rw [hq, hqi, hclosed, hsent]
    exact h.queued
  · rw [hclosed, hsent]
    exact h.sent
  · rw [hq, hqi]
    exact fun hs => h.opening (hopens hs)
  · rw [hq, hqi, hclosed]
    exact fun hs => h.leaving (hleaving hs)
  · rw [hqi, hfss]
    intro hs b hb
    rw [hb] at hend
    obtain ⟨b', hb', hend'⟩ := Option.map_eq_some_iff.mp hend.symm
    rw [← hend']
    exact h.final (hs.imp_left hleaving) b' hb'

theorem Closing.congr (h : Closing p) (hview : q.closeView = p.closeView)
    (hstate : q.state = p.state) : Closing q := by
  refine h.moved hview ?_ ?_ <;> rw [hstate] <;> exact id

theorem Closing.closed (h : Closing p) (hview : q.closeView = p.closeView)
    (hstate : q.state = .closed) : Closing q := by
  refine h.moved hview ?_ ?_ <;> simp [hstate, TcpState.opens, TcpState.leaving]

theorem endSeq_sbRemove (b : SendBuffer) (len : ℕ) : (sbRemove b len).1.endSeq = b.endSeq := by
  obtain ⟨hlen, hhead, -⟩ := sbRemove_shape b len
  have hsplit : b.len = min len b.len + (b.len - min len b.len) :=
    (Nat.add_sub_cancel' (min_le_right len b.len)).symm
  rw [SendBuffer.endSeq, SendBuffer.endSeq, hlen, hhead, add_assoc, ← BitVec.ofNat_add, ← hsplit]

/-- A stream that can be written to has not been closed, so its final sequence number is open. -/
theorem Closing.write (h : Closing p)
    (hstate : p.state = .established ∨ p.state = .closeWait) (hmap : p.smap = true)
    (hq : q = { p with
      sndbuf := q.sndbuf, trace := q.trace, onSendq := q.onSendq, sendq := q.sendq }) :
    Closing q := by
  have hleaving : ¬ p.state.leaving := by
    rcases hstate with hs | hs <;> simp [hs, TcpState.leaving]
  have hopen : ¬ 0 < p.closeqInt := by
    intro hpos
    have hclosed := (h.queued (Nat.add_pos_right _ hpos)).1
    simp [h.unmapped hclosed] at hmap
  rw [hq]
  exact ⟨h.socket_eq, h.unmapped, h.queued_le, h.flagged, h.flaggedInt, h.queued, h.sent, h.opening,
    h.leaving, fun hs => absurd hs (not_or.mpr ⟨hleaving, hopen⟩)⟩

theorem Closing.finSent (h : Closing p) (hstate : p.state.leaving) (hq : q = { p with
      isFinSent := q.isFinSent, onControlList := q.onControlList, sndNxt := q.sndNxt,
      inRto := q.inRto, trace := q.trace }) : Closing q := by
  obtain ⟨hclosed, hnone⟩ := h.leaving hstate
  rw [hq]
  refine ⟨h.socket_eq, h.unmapped, h.queued_le, h.flagged, h.flaggedInt, fun hpos => ?_,
    fun _ => hclosed, h.opening, h.leaving, h.final⟩
  exact absurd hnone (Nat.ne_of_gt hpos)

/-- No close is queued. -/
theorem Closing.unqueued (hsock : p.hasSocket = p.smap)
    (hmap : p.closed = true → p.smap = false) (hq : p.closeq = 0) (hqi : p.closeqInt = 0)
    (hsent : p.isFinSent = true → p.closed = true)
    (hleaving : p.state.leaving → p.closed = true ∧ ∀ b, p.sndbuf = some b → p.fss = b.endSeq) :
    Closing p := by
  have hnone : p.closeq + p.closeqInt = 0 := by omega
  refine ⟨hsock, hmap, by omega, fun hpos => ?_, fun hpos => ?_, fun hpos => ?_, hsent,
    fun _ => hnone, fun hs => ⟨(hleaving hs).1, hnone⟩, fun hs => (hleaving (hs.resolve_right ?_)).2⟩
  all_goals omega

theorem Closing.dequeueClose (h : Closing p) (hq : 0 < p.closeq)
    (hlive : p.dequeueClose.live = true) : Closing p.dequeueClose := by
  have hle := h.queued_le
  have hzero : p.closeq - 1 = 0 := by omega
  have hzeroInt : p.closeqInt = 0 := by omega
  obtain ⟨hclosed, hsent⟩ := h.queued (by omega)
  have hstay : ¬ p.state.leaving := fun hs => by
    have := (h.leaving hs).2
    omega
  have hpast : ¬ p.state.opens = true := fun hs => by
    have := h.opening hs
    omega
  have hfinal : ∀ b, p.sndbuf = some b → p.finalSeq = b.endSeq := by
    intro b hb
    simp only [Endpoint.finalSeq, hb]
  have hdone : ∀ q : Endpoint, q.closeView = { p with
      closeq := p.closeq - 1, onCloseq := false, fss := p.finalSeq }.closeView → Closing q := by
    intro q hview
    simp only [Endpoint.closeView, Prod.mk.injEq] at hview
    obtain ⟨⟨hsock, hmap, hcl⟩, ⟨hcq, hcqi, -, -⟩, hfs, hfss, hend⟩ := hview
    refine .unqueued ?_ ?_ (hcq.trans hzero) (hcqi.trans hzeroInt) (fun _ => hcl.trans hclosed)
      fun _ => ⟨hcl.trans hclosed, fun b hb => ?_⟩
    · rw [hsock, hmap]
      exact h.socket_eq
    · rw [hcl, hmap]
      exact h.unmapped
    · rw [hb] at hend
      obtain ⟨b', hb', hend'⟩ := Option.map_eq_some_iff.mp hend.symm
      rw [hfss, ← hend']
      exact hfinal b' hb'
  have hcases := p.dequeueClose_cases
  generalize p.dequeueClose = q at hcases hlive ⊢
  cases hcases with
  | freed => cases hlive
  | kept | waits | closes => exact hdone _ rfl
  | requeued =>
    refine ⟨h.socket_eq, h.unmapped, ?_, fun hpos => ?_, fun _ => rfl, fun _ => ⟨hclosed, hsent⟩,
      h.sent, fun hs => absurd hs hpast, fun hs => absurd hs hstay, fun _ => hfinal⟩
    · simp only
      omega
    · simp only at hpos
      omega

theorem Closing.dequeueCloseInt (h : Closing p) (hq : 0 < p.closeqInt) :
    Closing p.dequeueCloseInt := by
  have hle := h.queued_le
  have hzero : p.closeq = 0 := by omega
  have hzeroInt : p.closeqInt - 1 = 0 := by omega
  have hclosed := (h.queued (by omega)).1
  have hfinal := h.final (.inr hq)
  have hcases := p.dequeueCloseInt_cases
  generalize p.dequeueCloseInt = q at hcases ⊢
  cases hcases with
  | deferred => exact h
  | closes | kept =>
    exact .unqueued h.socket_eq h.unmapped hzero hzeroInt h.sent fun _ => ⟨hclosed, hfinal⟩

theorem Closing.resetTaken (h : Closing p) (hlive : p.resetTaken.live = true) :
    Closing p.resetTaken := by
  have hcases := p.resetTaken_cases
  generalize p.resetTaken = q at hcases hlive ⊢
  cases hcases with
  | freed => cases hlive
  | kept => exact h
  | requeued => exact h.congr rfl rfl
  | resets => exact h.closed rfl rfl

theorem Closing.dequeueResetInt (h : Closing p) : Closing p.dequeueResetInt := by
  have hcases := p.dequeueResetInt_cases
  generalize p.dequeueResetInt = q at hcases ⊢
  cases hcases with
  | deferred => exact h
  | resets => exact h.closed rfl rfl
  | kept => exact h.congr rfl rfl

theorem Closing.accept (h : Closing p) (fresh : Bool) (hclosed : p.closed = false) :
    Closing (p.accept fresh) := by
  unfold Endpoint.accept
  simp only
  split_ifs
  · exact h
  · refine ⟨rfl, ?_, h.queued_le, h.flagged, h.flaggedInt, h.queued, h.sent,
      h.opening, h.leaving, h.final⟩
    simp [hclosed]
  · exact h.congr rfl rfl

theorem Closing.close (h : Closing p) : Closing p.close := by
  unfold Endpoint.close Endpoint.closeSocket
  split_ifs with hmap hclosed
  · simp [h.unmapped hclosed] at hmap
  · have hnone : p.closeq = 0 ∧ p.closeqInt = 0 := by
      by_contra hpos
      exact hclosed (h.queued (by omega)).1
    have hstay : ¬ p.state.leaving := fun hs => hclosed (h.leaving hs).1
    have hsent : p.isFinSent = false := by
      by_contra hs
      exact hclosed (h.sent (by simpa using hs))
    have hidle : ∀ q : Endpoint, q.closeView = { p with
        hasSocket := false, smap := false, closed := true }.closeView → q.state = p.state →
        Closing q := by
      intro q hview hs
      simp only [Endpoint.closeView, Prod.mk.injEq] at hview
      obtain ⟨⟨hsock, hmap, hcl⟩, ⟨hcq, hcqi, -, -⟩, hfs, -, -⟩ := hview
      exact .unqueued (hsock.trans hmap.symm) (fun _ => hmap) (hcq.trans hnone.1)
        (hcqi.trans hnone.2) (fun _ => hcl) fun hq => absurd (hs ▸ hq) hstay
    simp only
    split
    case h_3 | h_4 =>
      refine ⟨rfl, fun _ => rfl, ?_, fun _ => rfl, ?_, fun _ => ⟨rfl, hsent⟩, fun _ => rfl,
        fun hs => ?_, fun hs => absurd hs hstay, ?_⟩
      · simp only
        omega
      · simp [hnone.2]
      · simp_all [TcpState.opens]
      · rintro (hs | hpos)
        · exact absurd hs hstay
        · simp [hnone.2] at hpos
    all_goals exact hidle _ rfl rfl
  · exact h

theorem Closing.abort (h : Closing p) : Closing p.abort := by
  have hgone : Closing { p with smap := false, hasSocket := false } :=
    ⟨rfl, fun _ => rfl, h.queued_le, h.flagged, h.flaggedInt, h.queued, h.sent,
      h.opening, h.leaving, h.final⟩
  have hcases := p.abort_cases
  generalize p.abort = q at hcases ⊢
  cases hcases with
  | unmapped => exact h
  | closed | queued => exact hgone
  | closes => exact hgone.closed rfl rfl
  | resets => exact hgone.congr rfl rfl

theorem Closing.effect {sg : Option Segment} (haccept : avoid .acceptClosed)
    (h : Closing p) (heff : Effect avoid sg p q) (hlive : q.live = true) : Closing q := by
  cases heff with
  | @payload c env seg _ _ hmem =>
    rw [(processTCPPayload_takes seg.payload seg.seq hmem).frame]
    exact h.congr rfl rfl
  | @read c b len =>
    rw [core_copyToUser]
    exact h.congr rfl rfl
  | control | queueAck | restartTimewait | sendHandshake | rewindSynAck | sendAck | leaveControl
  | data | flushFault | dupAck | rewind | recover | pureAck | synRcvdBare | synEstablished | finLate
  | rstSeen | rtoIgnored | rtoStray | connectq | sendq | ackq | closeListener | writeNoMem =>
    exact h.congr rfl rfl
  | noMem | rtoLost | timedOut => exact h.closed rfl rfl
  | synAck | rstAck | finEstablished | finTimewait | closingAcked | rstEstablished =>
    exact h.moved rfl (by simp [TcpState.opens]) (by simp [TcpState.leaving])
  | listenSyn hstate | synOnly hstate =>
    exact h.moved rfl (by simp [hstate, TcpState.opens]) (by simp [TcpState.leaving])
  | handshake answer =>
    exact h.moved rfl (by cases answer <;> simp [TcpState.opens])
      (by cases answer <;> simp [TcpState.leaving])
  | finAcked _ hstate | finClosing _ hstate =>
    exact h.moved rfl (by simp [TcpState.opens]) fun _ => .inl hstate
  | sendFin hstate =>
    refine h.finSent ?_ rfl
    rcases hstate with ⟨hs | hs, -⟩ | ⟨hs, -⟩ <;> simp [hs, TcpState.leaving]
  | acked hbuf =>
    refine h.congr ?_ rfl
    simp only [Endpoint.closeView, hbuf, Option.map_some, endSeq_sbRemove]
  | openBuffer hstate hmap => exact h.write hstate hmap rfl
  | wrote hstate hmap =>
    rw [Endpoint.enqueueSend_frame]
    exact h.write hstate hmap rfl
  | sendReset | answeredOrphan | lastAcked | rstHandshake | rstClosing | rtoDestroy
  | timewaitExpired | timedOutOrphan | destroyq => cases hlive
  | dataDone =>
    rw [Endpoint.leaveSend_frame]
    exact h.congr rfl rfl
  | ackDone =>
    rw [Endpoint.leaveAck_frame]
    exact h.congr rfl rfl
  | rtoRewind =>
    rw [Endpoint.requeue_frame]
    exact h.congr rfl rfl
  | closeq hq => exact h.dequeueClose hq hlive
  | closeqInt hq => exact h.dequeueCloseInt hq
  | resetq =>
    have htaken : Closing { p with resetq := p.resetq - 1, onResetq := false } := h.congr rfl rfl
    exact htaken.resetTaken hlive
  | resetqInt => exact h.dequeueResetInt
  | accept fresh hclosed => exact h.accept fresh (hclosed haccept)
  | close => exact h.close
  | abort => exact h.abort

/-! ## Runs -/

theorem Born.closing {c : Conn} (hborn : Born c) : Closing c.core := by
  cases hborn with
  | active =>
    rw [core_mtcpConnect]
    exact .unqueued rfl nofun rfl rfl nofun fun hs => by simp [TcpState.leaving] at hs
  | passive env iss sid sh seg hsyn =>
    rw [core_handlePassiveOpen env iss sid sh hsyn]
    exact .unqueued rfl nofun rfl rfl nofun fun hs => by simp [TcpState.leaving] at hs

end MtcpStack
