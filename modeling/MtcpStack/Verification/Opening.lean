import MtcpStack.Verification.Simulation

/-! # Streams that are being opened

The send variables of a stream up to the moment at which its handshake is complete. -/

namespace MtcpStack

variable {avoid : Hazard → Prop} {A : Prop} {B : U32 → Prop} {p : Endpoint}

/-- The SYN is still to be sent, or has been sent once since the last rewind. -/
def Endpoint.synOnce (p : Endpoint) : Prop :=
  p.connectq ≤ 1 ∧ p.onControlList = false ∧ p.inRto = false ∧ p.sndNxt = p.iss ∨
    p.connectq = 0 ∧ (p.sndNxt = p.iss ∨ p.sndNxt = p.iss + 1 ∧ p.onControlList = false)

/-- The variables of a stream in SYN_SENT and in SYN_RCVD. `A` is what else is known in SYN_SENT, and
`B` what is known of the peer's initial sequence number in SYN_RCVD. -/
structure Opening (A : Prop) (B : U32 → Prop) (p : Endpoint) : Prop where
  synSent : p.live = true → p.state = .synSent →
    A ∧ p.sndUna = p.iss ∧ p.sndbuf = none ∧ p.waiting = false ∧ p.closeq = 0 ∧ p.closeqInt = 0 ∧
      p.synOnce
  synRcvd : p.live = true → p.state = .synRcvd →
    B p.irs ∧ p.sndUna = p.iss ∧ p.sndbuf = none
  listen : p.live = true → p.state ≠ .listen

theorem Opening.dead (h : p.live = false) : Opening A B p := by
  refine ⟨fun hl => ?_, fun hl => ?_, fun hl => ?_⟩ <;> simp [h] at hl

theorem Opening.away (h : p.state.opens = false) : Opening A B p := by
  refine ⟨fun _ hs => ?_, fun _ hs => ?_, fun _ hs => ?_⟩ <;> simp [hs, TcpState.opens] at h

/-- A stream with a send buffer has been established. -/
theorem Opening.buffered {p q : Endpoint} (h : Opening A B p) {b : SendBuffer}
    (hbuf : p.sndbuf = some b) (hlive : q.live = p.live) (hstate : q.state = p.state) :
    Opening A B q := by
  refine ⟨fun hl hs => ?_, fun hl hs => ?_, fun hl hs => ?_⟩
  · have := (h.synSent (hlive ▸ hl) (hstate ▸ hs)).2.2.1
    simp [hbuf] at this
  · have := (h.synRcvd (hlive ▸ hl) (hstate ▸ hs)).2.2
    simp [hbuf] at this
  · exact h.listen (hlive ▸ hl) (hstate ▸ hs)

/-- A stream that has left SYN_SENT stays in SYN_RCVD with its variables, or leaves it. -/
theorem Opening.past {p q : Endpoint} (h : Opening A B p)
    (hsent : p.live = true → p.state ≠ .synSent)
    (hq : q.live = true → p.live = true ∧ (q.state.opens = true → q.state = p.state) ∧
      q.irs = p.irs ∧ q.iss = p.iss ∧ q.sndUna = p.sndUna ∧ q.sndbuf = p.sndbuf) :
    Opening A B q := by
  refine ⟨fun hl hs => ?_, fun hl hs => ?_, fun hl hs => ?_⟩ <;>
    obtain ⟨hp, hstate, hirs, hiss, huna, hbuf⟩ := hq hl <;>
    have hsame := hstate (by simp [hs, TcpState.opens])
  · exact absurd (hsame ▸ hs) (hsent hp)
  · rw [hirs, hiss, huna, hbuf]
    exact h.synRcvd hp (hsame ▸ hs)
  · exact h.listen hp (hsame ▸ hs)

theorem Opening.dequeueClose (h : Opening A B p) (hq : 0 < p.closeq) :
    Opening A B p.dequeueClose := by
  refine h.past (fun hl hs => ?_) fun hl => ?_
  · have := (h.synSent hl hs).2.2.2.2.1
    omega
  · have hcases := p.dequeueClose_cases
    generalize p.dequeueClose = q at hcases hl ⊢
    cases hcases with
    | freed => cases hl
    | kept | requeued => exact ⟨hl, fun _ => rfl, rfl, rfl, rfl, rfl⟩
    | waits | closes => exact ⟨hl, closingState_opens, rfl, rfl, rfl, rfl⟩

theorem Opening.dequeueCloseInt (h : Opening A B p)
    (hq : 0 < p.closeqInt) : Opening A B p.dequeueCloseInt := by
  refine h.past (fun hl hs => ?_) fun hl => ?_
  · have := (h.synSent hl hs).2.2.2.2.2.1
    omega
  · have hcases := p.dequeueCloseInt_cases
    generalize p.dequeueCloseInt = q at hcases hl ⊢
    cases hcases with
    | deferred | kept => exact ⟨hl, fun _ => rfl, rfl, rfl, rfl, rfl⟩
    | closes => exact ⟨hl, closingState_opens, rfl, rfl, rfl, rfl⟩

theorem Opening.resetTaken (h : Opening A B p) :
    Opening A B p.resetTaken := by
  have hcases := p.resetTaken_cases
  generalize p.resetTaken = q at hcases ⊢
  cases hcases with
  | freed => exact .dead rfl
  | kept => exact h
  | requeued => exact ⟨h.synSent, h.synRcvd, h.listen⟩
  | resets => exact .away rfl

theorem Opening.dequeueResetInt (h : Opening A B p) :
    Opening A B p.dequeueResetInt := by
  have hcases := p.dequeueResetInt_cases
  generalize p.dequeueResetInt = q at hcases ⊢
  cases hcases with
  | deferred => exact h
  | resets => exact .away rfl
  | kept => exact ⟨h.synSent, h.synRcvd, h.listen⟩

/-- The retransmission timer takes a handshake back to its start. -/
theorem Opening.rewound (h : Opening A B p) (hin : p.inRto = true) :
    Opening A B (Endpoint.requeue { p with inRto := false, sndNxt := p.sndUna }) := by
  unfold Endpoint.requeue
  simp only
  split
  case h_1 hs | h_2 hs => exact .away (by simp [hs, TcpState.opens])
  case h_3 hs | h_4 hs | h_5 hs => split_ifs <;> exact .away (by simp [hs, TcpState.opens])
  case h_6 =>
    refine ⟨fun hl hs => ?_, h.synRcvd, h.listen⟩
    obtain ⟨ho, huna, hbuf, hwait, hc, hci, honce⟩ := h.synSent hl hs
    refine ⟨ho, huna, hbuf, hwait, hc, hci, .inr ?_⟩
    rcases honce with ⟨-, -, hout, -⟩ | ⟨hq, -⟩
    · simp [hout] at hin
    · exact ⟨hq, .inl huna⟩

/-- A stream in SYN_SENT has no control packet waiting, so leaving a list releases none. -/
theorem Opening.released (h : Opening A B p) (b : Bool)
    (hb : b = true → p.waiting = true) : Opening A B (if b then p.release else p) := by
  split
  case isTrue hw =>
    refine h.past (fun hl hs => ?_) fun hl => ⟨hl, fun _ => rfl, rfl, rfl, rfl, rfl⟩
    have := (h.synSent hl hs).2.2.2.1
    simp [hb hw] at this
  case isFalse => exact h

theorem Opening.leaveSend (h : Opening A B p) : Opening A B p.leaveSend := by
  have hoff : Opening A B { p with onSendList := false } := ⟨h.synSent, h.synRcvd, h.listen⟩
  exact hoff.released _ fun hw => (Bool.and_eq_true_iff.mp hw).1

theorem Opening.leaveAck (h : Opening A B p) (stays : Bool) :
    Opening A B (p.leaveAck stays) := by
  have hoff : Opening A B { p with onAckList := stays } := ⟨h.synSent, h.synRcvd, h.listen⟩
  exact hoff.released _ fun hw => (Bool.and_eq_true_iff.mp hw).1

theorem Opening.offRto (h : Opening A B p) :
    Opening A B { p with inRto := false } := by
  refine ⟨fun hl hs => ?_, h.synRcvd, h.listen⟩
  obtain ⟨ho, huna, hbuf, hwait, hc, hci, honce⟩ := h.synSent hl hs
  exact ⟨ho, huna, hbuf, hwait, hc, hci, honce.imp_left fun h => ⟨h.1, h.2.1, rfl, h.2.2.2⟩⟩

theorem Opening.close (h : Opening A B p) : Opening A B p.close := by
  unfold Endpoint.close Endpoint.closeSocket
  split_ifs
  · exact ⟨h.synSent, h.synRcvd, h.listen⟩
  · simp only
    split
    case h_3 hs | h_4 hs => exact .away (by simp [hs, TcpState.opens])
    all_goals exact ⟨h.synSent, h.synRcvd, h.listen⟩
  · exact h

theorem Opening.abort (h : Opening A B p) : Opening A B p.abort := by
  have hcases := p.abort_cases
  generalize p.abort = q at hcases ⊢
  cases hcases with
  | unmapped => exact h
  | closed | queued | resets => exact ⟨h.synSent, h.synRcvd, h.listen⟩
  | closes => exact .away rfl

theorem Opening.effect {sg : Option Segment} {p q : Endpoint}
    (hpure : avoid .pureAck) (hopen : avoid .simultaneousOpen ∨ ∀ irs, B irs) (h : Opening A B p)
    (heff : Effect avoid sg p q) : Opening A B q := by
  cases heff with
  | @payload c env seg hsg hstate hmem hgen =>
    refine .away ?_
    rcases (processTCPPayload_receives env seg.payload seg.seq c).state with ⟨hs, -⟩ | ⟨hs, -⟩
    · rw [hs]
      rcases hstate with hc | hc | hc <;> simp [hc, TcpState.opens]
    · rw [hs]
      rfl
  | @read c b len =>
    rw [core_copyToUser]
    exact ⟨h.synSent, h.synRcvd, h.listen⟩
  | sendHandshake hstate hon =>
    refine ⟨fun hl hs => ?_, h.synRcvd, h.listen⟩
    obtain ⟨ho, huna, hbuf, hwait, hc, hci, honce⟩ := h.synSent hl hs
    refine ⟨ho, huna, hbuf, hwait, hc, hci, .inr ?_⟩
    rcases honce with ⟨-, hoff, -⟩ | ⟨hq, hn | ⟨-, hoff⟩⟩
    · simp [hoff] at hon
    · exact ⟨hq, .inr ⟨by simp [Endpoint.act, hn], rfl⟩⟩
    · simp [hoff] at hon
  | connectq hq =>
    refine ⟨fun hl hs => ?_, h.synRcvd, h.listen⟩
    obtain ⟨ho, huna, hbuf, hwait, hc, hci, honce⟩ := h.synSent hl hs
    refine ⟨ho, huna, hbuf, hwait, hc, hci, .inr ?_⟩
    rcases honce with ⟨hle, -, -, hn⟩ | ⟨hzero, -⟩
    · exact ⟨by simp only [Endpoint.dequeueConnect]; omega, .inl hn⟩
    · omega
  | rtoRewind hin => exact h.rewound hin
  | closeq hq => exact h.dequeueClose hq
  | closeqInt hq => exact h.dequeueCloseInt hq
  | resetq => exact Opening.resetTaken ⟨h.synSent, h.synRcvd, h.listen⟩
  | resetqInt => exact h.dequeueResetInt
  | control hstate => exact ⟨fun _ hs => absurd hs hstate, h.synRcvd, h.listen⟩
  | rewindSynAck hstate | synRcvdBare hstate =>
    exact ⟨fun _ hs => by simp [hstate] at hs, h.synRcvd, h.listen⟩
  | queueAck | sendAck | dupAck | flushFault | rstSeen | closeListener | writeNoMem | sendq | ackq =>
    exact ⟨h.synSent, h.synRcvd, h.listen⟩
  | synOnly hstate hno =>
    refine ⟨fun _ hs => (by cases hs), fun hl _ => ?_, fun _ hs => (by cases hs)⟩
    obtain ⟨-, huna, hbuf, -⟩ := h.synSent hl hstate
    exact ⟨hopen.resolve_left hno _, huna, hbuf⟩
  | pureAck _ hno => exact absurd hpure hno
  | answeredOrphan | lastAcked | rstHandshake | rstClosing | rtoDestroy | timewaitExpired
  | timedOutOrphan | destroyq | sendReset =>
    exact .dead rfl
  | synAck | rstAck | noMem | finEstablished | finAcked | finClosing | finTimewait | closingAcked
  | rstEstablished | timedOut | rtoLost =>
    exact .away rfl
  | restartTimewait hstate | finLate _ hstate | synEstablished _ hstate =>
    exact .away (by simp [hstate, TcpState.opens])
  | openBuffer hstate =>
    exact .away (by rcases hstate with hs | hs <;> simp [hs, TcpState.opens])
  | sendFin hstate =>
    exact .away (by rcases hstate with ⟨hs | hs, -⟩ | ⟨hs, -⟩ <;> simp [hs, TcpState.opens, Endpoint.act])
  | data hstate => exact .away hstate.not_opens
  | rewind hbuf | recover hbuf | acked hbuf => exact h.buffered hbuf rfl rfl
  | handshake answer => exact .away (by cases answer <;> rfl)
  | listenSyn hstate =>
    refine ⟨by simp, fun hl _ => absurd hstate (h.listen hl), by simp⟩
  | leaveControl hstate =>
    exact ⟨fun _ (hs : p.state = .synSent) => by simp [hs] at hstate, h.synRcvd, h.listen⟩
  | dataDone => exact h.leaveSend
  | ackDone => exact h.leaveAck _
  | rtoIgnored | rtoStray => exact h.offRto
  | accept =>
    unfold Endpoint.accept
    simp only
    split_ifs <;> exact ⟨h.synSent, h.synRcvd, h.listen⟩
  | wrote hstate =>
    refine .away ?_
    unfold Endpoint.enqueueSend
    split_ifs <;> rcases hstate with hs | hs <;> simp [hs, TcpState.opens, Endpoint.act]
  | close => exact h.close
  | abort => exact h.abort

/-- A SYN that has been sent once can only be acknowledged by the number behind it. -/
theorem synAck_acks_syn {seg : Segment} (hlo : ¬ tcpSeqLeq seg.ackSeq p.iss)
    (hhi : ¬ tcpSeqGt seg.ackSeq p.sndNxt) (hnxt : p.sndNxt = p.iss ∨ p.sndNxt = p.iss + 1) :
    seg.ackSeq = p.iss + 1 := by
  unfold tcpSeqLeq at hlo
  unfold tcpSeqGt at hhi
  rcases hnxt with hn | hn
  · rw [hn] at hhi
    omega
  · have hprev : seg.ackSeq - p.sndNxt = seg.ackSeq - p.iss - 1 := by
      rw [hn]
      ring
    have hdiff : (seg.ackSeq - p.iss - 1).toInt = (seg.ackSeq - p.iss).toInt - 1 := by
      have hlt := BitVec.toInt_lt (x := seg.ackSeq - p.iss)
      rw [BitVec.toInt_sub, show (1 : U32).toInt = 1 from rfl]
      exact Int.bmod_eq_of_le (by omega) (by omega)
    rw [hprev, hdiff] at hhi
    have hone : seg.ackSeq - p.iss = 1 := BitVec.eq_of_toInt_eq (by
      rw [show (1 : U32).toInt = 1 from rfl]
      omega)
    rw [← hone]
    ring

/-- Before the SYN is sent nothing acknowledges it. -/
theorem synSent_of_acked {seg : Segment} (hlo : ¬ tcpSeqLeq seg.ackSeq p.iss)
    (hhi : ¬ tcpSeqGt seg.ackSeq p.sndNxt) (hnxt : p.sndNxt = p.iss ∨ p.sndNxt = p.iss + 1) :
    p.sndNxt = p.iss + 1 := by
  refine hnxt.resolve_left fun hn => hhi ?_
  rw [synAck_acks_syn hlo hhi hnxt, hn, tcpSeqGt, add_sub_cancel_left]
  decide

theorem Endpoint.synOnce.sndNxt (h : p.synOnce) :
    p.sndNxt = p.iss ∨ p.sndNxt = p.iss + 1 := by
  rcases h with ⟨-, -, -, hn⟩ | ⟨-, hn | ⟨hn, -⟩⟩
  · exact .inl hn
  · exact .inl hn
  · exact .inr hn

end MtcpStack
