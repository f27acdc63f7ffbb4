import MtcpStack.Verification.HazardCheck
import MtcpStack.Verification.SendSequence

/-! # The states of the streams in the RTO store

`HandleRTO` knows what to do in seven states. FIN_WAIT_2 is not one of them, and there `ProcessACK`
still runs: it must find the send buffer empty and no number half the space away. -/

namespace MtcpStack

open Serial

variable {avoid : Hazard → Prop} {sg : Option Segment} {p q : Endpoint}

/-- The states in which `HandleRTO` sends again. -/
def TcpState.retransmits : TcpState → Bool
  | .synSent | .synRcvd | .established | .closeWait | .finWait1 | .closing | .lastAck => true
  | .closed | .listen | .finWait2 | .timeWait => false

structure RtoSafe (avoid : Hazard → Prop) : Prop where
  farAck : avoid .farAck
  bigBuffer : avoid .bigBuffer
  acceptClosed : avoid .acceptClosed

/-- The other states keep out of the store: FIN_WAIT_2 has nothing to be acknowledged, TIME_WAIT is
on its own list, and a closed stream has its reason. -/
structure Armed (p : Endpoint) : Prop where
  not_listen : p.state ≠ .listen
  reason : p.state = .closed → p.closeReason ≠ .notClosed
  waits : p.state = .timeWait → p.onTimewaitList = true
  drained : p.state = .finWait2 → p.buffered = 0
  store : p.inRto = true → p.state.retransmits = true ∨ p.closeReason ≠ .notClosed

namespace Armed

/-- A step to a state that is sent again. -/
theorem active (hstate : q.state.retransmits = true) : Armed q := by
  refine ⟨?_, ?_, ?_, ?_, fun _ => .inl hstate⟩ <;> intro hs <;> rw [hs] at hstate <;> cases hstate

/-- A step to CLOSED, with a reason. -/
theorem closed (hstate : q.state = .closed) (hreason : q.closeReason ≠ .notClosed) : Armed q := by
  refine ⟨?_, fun _ => hreason, ?_, ?_, fun _ => .inr hreason⟩ <;> rw [hstate] <;> exact nofun

/-- The store is not entered. -/
theorem kept (h : Armed p) (hstate : q.state = p.state)
    (hreason : q.closeReason = p.closeReason ∨ q.closeReason ≠ .notClosed)
    (hlist : q.onTimewaitList = p.onTimewaitList) (hbuf : q.buffered = p.buffered)
    (hrto : q.inRto = true → p.inRto = true) : Armed q := by
  have hkeep : p.closeReason ≠ .notClosed → q.closeReason ≠ .notClosed := by
    rcases hreason with hr | hr
    · rw [hr]
      exact id
    · exact fun _ => hr
  constructor
  · rw [hstate]
    exact h.not_listen
  · rw [hstate]
    exact fun hs => hkeep (h.reason hs)
  · rw [hstate, hlist]
    exact h.waits
  · rw [hstate, hbuf]
    exact h.drained
  · rw [hstate]
    exact fun hin => (h.store (hrto hin)).imp_right hkeep

theorem frame (h : Armed p) (hstate : q.state = p.state) (hreason : q.closeReason = p.closeReason)
    (hlist : q.onTimewaitList = p.onTimewaitList) (hbuf : q.sndbuf = p.sndbuf)
    (hrto : q.inRto = true → p.inRto = true) : Armed q :=
  h.kept hstate (.inl hreason) hlist (by rw [Endpoint.buffered, hbuf, Endpoint.buffered]) hrto

/-- With an empty buffer only a number half the space away acknowledges anything. -/
theorem not_acked {b : SendBuffer} {a : U32} (hlen : b.len = 0) (hend : ¬ tcpSeqGt a b.endSeq)
    (hhead : ¬ tcpSeqGeq b.headSeq a) : a - b.endSeq = 2147483648#32 := by
  have hempty : b.endSeq = b.headSeq := by simp [SendBuffer.endSeq, hlen]
  rw [hempty] at hend ⊢
  rw [tcpSeqGt] at hend
  rw [tcpSeqGeq] at hhead
  have hneg : b.headSeq - a = -(a - b.headSeq) := (neg_sub a b.headSeq).symm
  rw [hneg] at hhead
  generalize a - b.headSeq = x at hend hhead ⊢
  apply BitVec.eq_of_toNat_eq
  rw [BitVec.toInt_eq_toNat_cond] at hend hhead
  rw [BitVec.toNat_neg] at hhead
  have hlt := x.isLt
  simp only [BitVec.toNat_ofNat]
  split at hend <;> split at hhead <;> omega

/-- The acknowledgement of the FIN leaves nothing in the buffer. -/
theorem buffered_of_drained (hclosing : Closing p) (hsmall : p.buffered + 1 < 2 ^ 31)
    (hstate : p.state = .finWait1) (hdrained : p.drained) : p.buffered = 0 := by
  cases hb : p.sndbuf with
  | none => simp [Endpoint.buffered, hb]
  | some b =>
    have hlen : p.buffered = b.len := by simp [Endpoint.buffered, hb]
    have hfss := hclosing.final (.inl (.inl hstate)) b hb
    rcases hdrained b hb hfss.symm with h | h <;> omega

/-- What is acknowledged arms the timer again only in the states that send again. -/
theorem acked {b : SendBuffer} {a : U32} (ha : RtoSafe avoid) (h : Armed p) (hbuf : p.sndbuf = some b)
    (hend : ¬ tcpSeqGt a b.endSeq) (hhead : ¬ tcpSeqGeq b.headSeq a)
    (hfar : avoid .farAck → a - b.endSeq ≠ 2147483648#32) :
    Armed { p with
      sndbuf := some (sbRemove b (a - b.headSeq).toNat).1
      sndUna := a
      inRto := decide (tcpSeqGt p.sndNxt a) && !p.onTimewaitList } := by
  have hfull : p.state ≠ .finWait2 := by
    intro hs
    have hlen : b.len = 0 := by simpa [Endpoint.buffered, hbuf] using h.drained hs
    exact hfar ha.farAck (not_acked hlen hend hhead)
  refine ⟨h.not_listen, h.reason, h.waits, fun hs => absurd hs hfull, fun hin => ?_⟩
  cases hs : p.state with
  | closed => exact .inr (h.reason hs)
  | listen => exact absurd hs h.not_listen
  | finWait2 => exact absurd hs hfull
  | timeWait => simp [h.waits hs] at hin
  | synSent | synRcvd | established | closeWait | finWait1 | closing | lastAck => exact .inl rfl

/-- The application's close moves the stream on. -/
theorem moved (h : Armed p) (hstate : q.state = closingState p.state)
    (hreason : q.closeReason = p.closeReason) (hlist : q.onTimewaitList = p.onTimewaitList)
    (hbuf : q.sndbuf = p.sndbuf) (hrto : q.inRto = p.inRto) : Armed q := by
  by_cases hsame : closingState p.state = p.state
  · exact h.frame (hstate.trans hsame) hreason hlist hbuf (hrto ▸ id)
  · refine active ?_
    rw [hstate]
    cases hs : p.state <;> simp_all [closingState, TcpState.retransmits]

theorem dequeueClose (h : Armed p) (hlive : p.dequeueClose.live = true) : Armed p.dequeueClose := by
  have hcases := p.dequeueClose_cases
  generalize p.dequeueClose = q at hcases hlive ⊢
  cases hcases with
  | freed => cases hlive
  | kept | requeued => exact h.frame rfl rfl rfl rfl id
  | waits | closes => exact h.moved rfl rfl rfl rfl rfl

theorem dequeueCloseInt (h : Armed p) : Armed p.dequeueCloseInt := by
  have hcases := p.dequeueCloseInt_cases
  generalize p.dequeueCloseInt = q at hcases ⊢
  cases hcases with
  | deferred => exact h
  | closes => exact h.moved rfl rfl rfl rfl rfl
  | kept => exact h.frame rfl rfl rfl rfl id

theorem dequeueReset (h : Armed p) (hlive : p.dequeueReset.live = true) : Armed p.dequeueReset := by
  have hcases := p.dequeueReset_cases
  generalize p.dequeueReset = q at hcases hlive ⊢
  cases hcases with
  | freed => cases hlive
  | kept | requeued => exact h.frame rfl rfl rfl rfl id
  | resets => exact closed rfl nofun

theorem dequeueResetInt (h : Armed p) : Armed p.dequeueResetInt := by
  have hcases := p.dequeueResetInt_cases
  generalize p.dequeueResetInt = q at hcases ⊢
  cases hcases with
  | deferred => exact h
  | resets => exact closed rfl nofun
  | kept => exact h.frame rfl rfl rfl rfl id

theorem abort (h : Armed p) : Armed p.abort := by
  have hcases := p.abort_cases
  generalize p.abort = q at hcases ⊢
  cases hcases with
  | unmapped => exact h
  | closed | queued | resets => exact h.frame rfl rfl rfl rfl id
  | closes => exact closed rfl nofun

theorem effect (ha : RtoSafe avoid) (hsender : Sender avoid p) (hclosing : Closing p) (h : Armed p)
    (heff : Effect avoid sg p q) (hlive : q.live = true) : Armed q := by
  cases heff with
  | @payload c env seg _ _ hmem =>
    rw [(processTCPPayload_takes seg.payload seg.seq hmem).frame]
    exact h.frame rfl rfl rfl rfl id
  | @read c b len =>
    rw [core_copyToUser]
    exact h.frame rfl rfl rfl rfl id
  | control | queueAck | rewindSynAck | sendAck | leaveControl | flushFault | dupAck | rewind
  | recover | pureAck | synRcvdBare | synEstablished | finLate | rstSeen | connectq | sendq | ackq
  | closeListener => exact h.frame rfl rfl rfl rfl id
  | rtoIgnored | rtoStray => exact h.frame rfl rfl rfl rfl (by simp)
  | writeNoMem => exact h.kept rfl (.inr (by simp)) rfl rfl id
  | restartTimewait hstate hr =>
    refine ⟨h.not_listen, h.reason, fun _ => rfl, h.drained, fun hin => h.store (hr hin).1⟩
  | sendHandshake hstate =>
    exact active (by rcases hstate with hs | ⟨hs, -⟩ <;> simp [Endpoint.act, hs, TcpState.retransmits])
  | sendFin hstate =>
    refine active ?_
    rcases hstate with ⟨hs | hs, -⟩ | ⟨hs, -⟩ <;> simp [Endpoint.act, hs, TcpState.retransmits]
  | data hstate =>
    refine active ?_
    rcases hstate with hs | hs | hs | hs <;> simp [Endpoint.act, hs, TcpState.retransmits]
  | acked hbuf hend hhead _ hfar => exact h.acked ha hbuf hend hhead hfar
  | listenSyn hstate => exact absurd hstate h.not_listen
  | synAck | rstAck | synOnly | finEstablished | finClosing | rstEstablished => exact active rfl
  | handshake answer =>
    cases answer with
    | full => exact closed rfl (by simp)
    | absent | queued => exact active rfl
  | noMem | timedOut => exact closed rfl (by simp)
  | rtoLost reason hreason =>
    refine closed rfl ?_
    rcases hreason with rfl | rfl <;> simp
  | finAcked _ hstate _ _ _ hdrained =>
    refine ⟨by simp, by simp, by simp, fun _ => ?_, by simp⟩
    change p.buffered = 0
    exact buffered_of_drained hclosing (hsender.small ha.bigBuffer) hstate hdrained
  | finTimewait _ hstate =>
    refine ⟨by simp, by simp, fun _ => rfl, by simp, fun hin => .inr ?_⟩
    rcases hstate with hs | ⟨-, hr⟩
    · refine (h.store (Bool.and_eq_true_iff.mp hin).1).resolve_left ?_
      simp [hs, TcpState.retransmits]
    · rw [hr]
      simp
  | closingAcked => exact ⟨by simp, by simp, fun _ => rfl, by simp, by simp⟩
  | sendReset | answeredOrphan | lastAcked | rstHandshake | rstClosing | rtoDestroy
  | timewaitExpired | timedOutOrphan | destroyq => cases hlive
  | rtoRewind =>
    rw [Endpoint.requeue_frame]
    exact h.frame rfl rfl rfl rfl (by simp)
  | dataDone =>
    rw [Endpoint.leaveSend_frame]
    exact h.frame rfl rfl rfl rfl id
  | ackDone =>
    rw [Endpoint.leaveAck_frame]
    exact h.frame rfl rfl rfl rfl id
  | accept =>
    rw [Endpoint.accept_frame]
    exact h.frame rfl rfl rfl rfl id
  | close =>
    rw [Endpoint.close_frame]
    exact h.frame rfl rfl rfl rfl id
  | openBuffer hstate =>
    exact active (by rcases hstate with hs | hs <;> simp [hs, TcpState.retransmits])
  | wrote hstate =>
    rw [Endpoint.enqueueSend_frame]
    exact active (by rcases hstate with hs | hs <;> simp [Endpoint.act, hs, TcpState.retransmits])
  | closeq => exact h.dequeueClose hlive
  | closeqInt => exact h.dequeueCloseInt
  | resetq => exact h.dequeueReset hlive
  | resetqInt => exact h.dequeueResetInt
  | abort => exact h.abort

end Armed

/-! ## Runs -/

theorem Born.armed {c : Conn} (hborn : Born c) : Armed c.core :=
  .active (by rcases hborn.fresh.state with hs | hs <;> rw [hs] <;> rfl)

theorem Reached.armed {c : Conn} (ha : RtoSafe avoid) (hreached : Reached avoid c)
    (hlive : c.onHashTable = true) : Armed c.core := by
  refine (hreached.invariant
    (P := fun p => p.live = true → Sender avoid p ∧ Closing p ∧ Armed p)
    (fun hborn _ => ⟨hborn.sender, hborn.closing, hborn.armed⟩) (fun heff h hl => ?_) hlive).2.2
  obtain ⟨hsender, hclosing, harmed⟩ := h (heff.moves hl).1
  exact ⟨hsender.effect heff hl, hclosing.effect ha.acceptClosed heff hl,
    harmed.effect ha hsender hclosing heff hl⟩

/-! ## The assertion of `HandleRTO` -/

/-- The default case of the switch over the states has not been reached. -/
def Conn.sound (c : Conn) : Prop := .fault .rtoState ∉ c.log

section
variable {c : Conn}

theorem Conn.sound.act (h : c.sound) {a : Act} (ha : a ≠ .fault .rtoState) : (c.act a).sound := by
  intro hmem
  rcases List.mem_append.mp hmem with hmem | hmem
  · exact h hmem
  · exact ha (List.mem_singleton.mp hmem).symm

theorem Conn.sound.addtoControlList (h : c.sound) : (addtoControlList c).sound := by
  unfold MtcpStack.addtoControlList
  split <;> exact h

theorem Conn.sound.removeFromControlList (h : c.sound) : (removeFromControlList c).sound := by
  unfold MtcpStack.removeFromControlList
  split <;> exact h

theorem Conn.sound.addtoSendList (h : c.sound) : (addtoSendList c).sound := by
  unfold MtcpStack.addtoSendList
  split
  · exact h.act nofun
  · split <;> exact h

theorem Conn.sound.requeueRTO (h : c.sound) : (requeueRTO c).sound := by
  have hnext : Conn.sound { MtcpStack.removeFromControlList c with controlListWaiting := true } :=
    h.removeFromControlList
  unfold MtcpStack.requeueRTO
  split
  · exact h.addtoSendList
  · exact h.addtoSendList
  · split
    · exact hnext.addtoSendList
    · exact h.addtoControlList
  · split
    · exact hnext.addtoSendList
    · exact h.addtoControlList
  · split
    · exact hnext.addtoSendList
    · exact h.addtoControlList
  · exact h.addtoControlList

theorem Conn.sound.ite {P : Prop} [Decidable P] {d : Conn} (hc : c.sound) (hd : d.sound) :
    Conn.sound (if P then c else d) := by
  split <;> assumption

theorem Conn.sound.removeFromSendList (h : c.sound) : (removeFromSendList c).sound := by
  unfold MtcpStack.removeFromSendList
  split <;> exact h

theorem Conn.sound.removeFromACKList (h : c.sound) : (removeFromACKList c).sound := by
  unfold MtcpStack.removeFromACKList
  split <;> exact h

theorem Conn.sound.removeFromRTOList (h : c.sound) : (removeFromRTOList c).sound := by
  unfold MtcpStack.removeFromRTOList
  split <;> exact h

theorem Conn.sound.removeFromTimewaitList (h : c.sound) : (removeFromTimewaitList c).sound := by
  unfold MtcpStack.removeFromTimewaitList
  split
  · exact h
  · exact h.act nofun

theorem Conn.sound.removeFromTimeoutList (h : c.sound) : (removeFromTimeoutList c).sound := by
  unfold MtcpStack.removeFromTimeoutList
  split <;> exact h

theorem Conn.sound.unlinkStream (h : c.sound) (cfg : Config) : (unlinkStream cfg c).sound := by
  have hlists : (MtcpStack.removeFromRTOList (MtcpStack.removeFromACKList
      (MtcpStack.removeFromSendList (MtcpStack.removeFromControlList c)))).sound :=
    h.removeFromControlList.removeFromSendList.removeFromACKList.removeFromRTOList
  unfold MtcpStack.unlinkStream
  simp only
  generalize MtcpStack.removeFromRTOList _ = d at hlists ⊢
  have hwait : Conn.sound (if d.onTimewaitList then MtcpStack.removeFromTimewaitList d else d) :=
    hlists.removeFromTimewaitList.ite hlists
  exact hwait.removeFromTimeoutList.ite hwait

theorem Conn.sound.destroyTCPStream (h : c.sound) (cfg : Config) :
    (destroyTCPStream cfg c).sound := by
  have hc := h.unlinkStream cfg
  unfold MtcpStack.destroyTCPStream
  generalize MtcpStack.unlinkStream cfg c = d at hc ⊢
  have htable : Conn.sound (if d.onHashTable then d else d.fault .notOnHashTable) := by
    split
    · exact hc
    · exact hc.act nofun
  simp only
  generalize (if d.onHashTable then d else d.fault .notOnHashTable) = e at htable ⊢
  exact Conn.sound.act (c := { e with sndbuf := none, rcvbuf := none, onHashTable := false }) htable
    nofun

theorem Conn.sound.notifyOrDestroy (h : c.sound) (env : Env) : (notifyOrDestroy env c).sound := by
  unfold MtcpStack.notifyOrDestroy
  split
  · rcases raiseEvent_cases .error (·.epollErr) c with heq | heq
    · exact (congrArg Conn.sound heq).mpr h
    · exact (congrArg Conn.sound heq).mpr (h.act nofun)
  · exact h.destroyTCPStream env.cfg

theorem Conn.sound.retransmitRTO (h : c.sound) (env : Env) (hstate : c.state.retransmits = true) :
    (retransmitRTO env c).sound := by
  have hback : Conn.sound { c with sndNxt := c.sndUna } := h
  have hfail : Conn.sound { c with state := .closed, closeReason := .connFail } := h
  unfold MtcpStack.retransmitRTO
  split
  · split
    · exact hfail.notifyOrDestroy env
    · exact hback.requeueRTO
  · split
    · exact h.destroyTCPStream env.cfg
    · exact hback.requeueRTO
  iterate 5 exact hback.requeueRTO
  all_goals
    rename_i hs
    rw [hs] at hstate
    cases hstate

theorem Conn.sound.handleRTO (h : c.sound) (env : Env)
    (hstate : c.state.retransmits = true ∨ c.closeReason ≠ .notClosed) : (handleRTO env c).sound := by
  have hzero : ∃ d : Conn, (if (c.act .timedOut).rto = 0 then (c.act .timedOut).fault .rtoZero
      else c.act .timedOut) = d ∧ d.sound ∧ d.state = c.state ∧ d.closeReason = c.closeReason := by
    refine ⟨_, rfl, ?_⟩
    split
    · exact ⟨(h.act (a := .timedOut) nofun).act (a := .fault .rtoZero) nofun, rfl, rfl⟩
    · exact ⟨h.act (a := .timedOut) nofun, rfl, rfl⟩
  obtain ⟨d, heq, hd, hs, hr⟩ := hzero
  unfold MtcpStack.handleRTO
  simp only [heq]
  split
  case isTrue => exact hd
  case isFalse hreason =>
    have hagain : d.state.retransmits = true := by
      rw [hs]
      exact hstate.resolve_right (hr ▸ hreason)
    split
    · refine Conn.sound.retransmitRTO ?_ env ?_
      · unfold shrinkWindow backoffRTO countRtx
        simp only
        split_ifs <;> exact hd
      · unfold shrinkWindow backoffRTO countRtx
        simp only
        split_ifs <;> exact hagain
    · have hfail : Conn.sound { d with state := .closed, closeReason := .connFail } := hd
      have hlost : Conn.sound { d with state := .closed, closeReason := .connLost } := hd
      unfold giveUpRTO
      split
      · exact hfail.destroyTCPStream env.cfg
      · exact hlost.notifyOrDestroy env

end

/-- A live stream in the RTO store is in a state that `HandleRTO` knows or has a reason to be closed,
and its timeout does not meet the assertion. -/
theorem rto_state_known {c : Conn} (ha : RtoSafe avoid) (hreached : Reached avoid c)
    (hlive : c.onHashTable = true) (hin : 0 ≤ c.onRtoIdx) :
    (c.state = .synSent ∨ c.state = .synRcvd ∨ c.state = .established ∨ c.state = .closeWait ∨
        c.state = .finWait1 ∨ c.state = .closing ∨ c.state = .lastAck ∨
        c.closeReason ≠ .notClosed) ∧
      ∀ env, .fault .rtoState ∈ ((Event.rtoPass env).apply c).log → .fault .rtoState ∈ c.log := by
  have hstore := (hreached.armed ha hlive).store (decide_eq_true hin)
  refine ⟨?_, fun env hmem => ?_⟩
  · rcases hstore with hs | hr
    · have hs' : c.state.retransmits = true := hs
      cases hstate : c.state <;> simp_all [TcpState.retransmits]
    · exact .inr (.inr (.inr (.inr (.inr (.inr (.inr hr))))))
  · by_contra hsound
    have hstep : ((Event.rtoPass env).apply c).sound := by
      change (rtoListStep env c.onRtoIdx.toNat c).sound
      rw [rtoListStep, if_pos hin]
      exact Conn.sound.handleRTO (c := { c with
        rtoList := Function.update c.rtoList c.onRtoIdx.toNat
          ((c.rtoList c.onRtoIdx.toNat).erase c.sid)
        rtoListCnt := c.rtoListCnt - 1
        onRtoIdx := -1 }) hsound env hstore
    exact hstep hmem

/-- One byte is sent and acknowledged, then the FIN: the stream is in FIN_WAIT_2. -/
def finishedRun : List Event :=
  activeOpen quietEnv ++ [.write quietEnv [7], .sendq, .dataPass quietEnv [true],
    .packet quietEnv { plainSegment with seq := 501, ack := true, ackSeq := 102 }, .close,
    .closeq quietEnv.cfg, .controlPass quietEnv [true],
    .packet quietEnv { plainSegment with seq := 501, ack := true, ackSeq := 103 }]

/-- An old acknowledgement, repeated until `snd_nxt` is rewound, and then one half the number space
away. -/
def strayedRun : List Event :=
  finishedRun ++ List.replicate 4
      (.packet quietEnv { plainSegment with seq := 501, ack := true, ackSeq := 101 }) ++
    [.packet quietEnv { plainSegment with seq := 501, ack := true, ackSeq := 102 + 2147483648 }]

/-- FIN_WAIT_2 is armed again, and the timeout runs into the assertion. -/
theorem rto_state_unknown :
    let c := strayedRun.foldl Event.apply connectingConn
    Reached (fun _ => False) c ∧ c.onHashTable = true ∧ 0 ≤ c.onRtoIdx ∧ c.state = .finWait2 ∧
      c.closeReason = .notClosed ∧
      ((Event.rtoPass quietEnv).apply c).log.getLast? = some (.fault .rtoState) := by
  exact ⟨reached_connectingConn.run (by decide +kernel), by decide +kernel⟩

/-- While the FIN is on its way the stream is in the store. -/
theorem rto_state_known_fin :
    let c := finishedRun.dropLast.foldl Event.apply connectingConn
    0 ≤ c.onRtoIdx ∧ c.state = .finWait1 ∧
      ∀ env, .fault .rtoState ∈ ((Event.rtoPass env).apply c).log → .fault .rtoState ∈ c.log := by
  have hreached : Reached (· ∈ [.farAck, .bigBuffer, .acceptClosed])
      (finishedRun.dropLast.foldl Event.apply connectingConn) :=
    (Reached.born (.active quietEnv.cfg 100 quietSocket 0 Shared.init true)).clear (fun _ hz => hz)
      (by decide +kernel)
  have hin : 0 ≤ (finishedRun.dropLast.foldl Event.apply connectingConn).onRtoIdx := by
    decide +kernel
  exact ⟨hin, by decide +kernel, (rto_state_known
    ⟨by simp, by simp, by simp⟩ hreached (by decide +kernel) hin).2⟩

end MtcpStack
