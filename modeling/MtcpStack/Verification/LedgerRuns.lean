import MtcpStack.Verification.Ledger
import MtcpStack.Verification.RttEstimate

/-! # The ledger along the events of a stream

Segments, timeouts and application calls as chains of ledger steps. -/

namespace MtcpStack

/-! ## Acknowledgements -/

section

variable (env : Env) (seg : Segment) (c : Conn)

@[simp] theorem ledger_estimateRTT (mrtt : U32) : (estimateRTT mrtt c).ledger = c.ledger := by
  obtain ⟨r, seq, hwrites⟩ := estimateRTT_writes mrtt c
  rw [hwrites]
  rfl

@[simp] theorem ledger_updateRto : (updateRto env c).ledger = c.ledger := by
  have hrtt := ledger_estimateRTT c (env.curTs - c.tsLastackRcvd)
  unfold updateRto
  split
  · simp only
    generalize estimateRTT _ c = d at hrtt ⊢
    split <;> exact hrtt
  · rfl

@[simp] theorem ledger_growCwnd (packets : U16) : (growCwnd packets c).ledger = c.ledger := by
  have hzero : (if c.cwnd = 0 then c.fault .divByZero else c).ledger = c.ledger := by
    split <;> rfl
  unfold growCwnd
  simp only
  generalize (if c.cwnd = 0 then c.fault .divByZero else c) = d at hzero ⊢
  split_ifs <;> first | rfl | exact hzero

@[simp] theorem ledger_updateWindow (ackSeq : U32) : (updateWindow seg ackSeq c).ledger = c.ledger := by
  unfold updateWindow
  simp only
  split_ifs
  · exact ledger_raiseEvent ..
  · rfl
  · rfl

@[simp] theorem ledger_dupAckStage (dup : Bool) (ackSeq : U32) :
    (dupAckStage dup ackSeq c).ledger = c.ledger := by
  have hcount : (countDupAck dup ackSeq c).ledger = c.ledger := by
    unfold countDupAck
    split <;> rfl
  have hfast : ∀ d : Conn, (fastRetransmit ackSeq d).ledger = d.ledger := by
    intro d
    unfold fastRetransmit
    simp only
    rw [ledger_addtoSendList]
    split_ifs <;> rfl
  have hinflate : ∀ d : Conn, (inflateCwnd d).ledger = d.ledger := by
    intro d
    unfold inflateCwnd
    simp only
    split <;> rfl
  unfold dupAckStage
  simp only
  generalize countDupAck dup ackSeq c = d at hcount ⊢
  split_ifs
  · exact (hfast d).trans hcount
  · exact (hinflate d).trans hcount
  · exact hcount

@[simp] theorem ledger_recoverSndNxt (b : SendBuffer) (ackSeq : U32) :
    (recoverSndNxt b ackSeq c).ledger = c.ledger := by
  unfold recoverSndNxt
  simp only
  split_ifs
  · exact ledger_removeFromSendList _
  · rfl
  · rfl

variable {seg c}

theorem releaseAcked_booked {b : SendBuffer} (hbuf : c.sndbuf = some b) (rmlen : ℕ) (ackSeq : U32) :
    Booked env c (releaseAcked b rmlen ackSeq c) := by
  have hstep : LedgerStep env c.ledger _ := .released rmlen hbuf
  unfold releaseAcked
  simp only
  split
  · refine (Booked.of_step (d := { c with
      sndbuf := some (sbRemove b rmlen).1
      sndUna := ackSeq
      sndWnd := BitVec.ofNat 32 (sbRemove b rmlen).1.size -
        BitVec.ofNat 32 (sbRemove b rmlen).1.len }) hstep).trans ?_
    exact .of_eq (ledger_raiseEvent ..)
  · exact .of_step hstep

theorem ackNewData_booked {b : SendBuffer} (hbuf : c.sndbuf = some b) (ackSeq : U32) :
    Booked env c (ackNewData env b ackSeq c) := by
  have hzero : (if c.effMss = 0 then c.fault .divByZero else c).ledger = c.ledger := by
    split <;> rfl
  unfold ackNewData
  simp only
  generalize (if c.effMss = 0 then c.fault .divByZero else c) = d at hzero ⊢
  have hgrown : (growCwnd (ackedPackets (ackSeq - b.headSeq).toNat d) (updateRto env d)).ledger =
      c.ledger := by
    rw [ledger_growCwnd, ledger_updateRto, hzero]
  generalize growCwnd _ (updateRto env d) = e at hgrown ⊢
  have hbuf' : e.sndbuf = some b := (congrArg (·.sndbuf) hgrown).trans hbuf
  exact (Booked.of_eq hgrown).trans ((releaseAcked_booked env hbuf' _ _).trans
    (.of_eq (ledger_updateRetransmissionTimer ..)))

variable (seg c) in
theorem processACK_booked : Booked env c (processACK env seg c) := by
  unfold processACK
  split
  case h_1 => exact .refl env c
  case h_2 b hbuf =>
    generalize adjustAck seg.ackSeq c = ackSeq
    unfold processACKWith
    split
    · exact .refl env c
    simp only
    have hstages : (recoverSndNxt b ackSeq (dupAckStage (isDupAck seg ackSeq
        (c.peerWnd + c.sndWl2) (updateWindow seg ackSeq c)) ackSeq
          (updateWindow seg ackSeq c))).ledger = c.ledger := by simp
    generalize recoverSndNxt b ackSeq _ = d at hstages ⊢
    have hbuf' : d.sndbuf = some b := (congrArg (·.sndbuf) hstages).trans hbuf
    split
    · exact .of_eq hstages
    · exact (Booked.of_eq hstages).trans (ackNewData_booked env hbuf' ackSeq)

end

/-! ## Segments -/

section

variable (env : Env) (seg : Segment) (c : Conn)

@[simp] theorem ledger_processTCPPayload (payload : List U8) (seq : U32) :
    (processTCPPayload env payload seq c).1.ledger = c.ledger := by
  refine processTCPPayload_rule (P := fun d => d.ledger = c.ledger)
    (fun e reg d hd => (ledger_raiseEvent d e reg).trans hd) fun d hout => ?_
  cases hout with
  | dropped | noMemory | faulted => rfl
  | stored => split <;> rfl

@[simp] theorem ledger_receivePayload : (receivePayload env seg c).ledger = c.ledger := by
  unfold receivePayload
  split <;> simp

@[simp] theorem ledger_handleListen : (handleListen seg c).ledger = c.ledger := by
  unfold handleListen
  simp only
  split_ifs
  · exact ledger_addtoControlList _
  · exact ledger_addtoControlList _
  · rfl

theorem ledger_parsed (curTs : U32) :
    (match parseTCPOptions curTs seg.opt seg.optLen c with
      | none => c.fault .optionLoop
      | some c => c).ledger = c.ledger := by
  split
  case h_1 => rfl
  case h_2 d hparse => exact ledger_parseOptionsFrom hparse

@[simp] theorem ledger_handleActiveOpen : (handleActiveOpen env seg c).ledger = c.ledger := by
  have hparsed := ledger_parsed seg
    { c with
      irs := seg.seq
      sndNxt := seg.ackSeq
      peerWnd := seg.window.setWidth 32
      sndWl1 := seg.seq - 1
      rcvNxt := seg.seq + 1
      lastAckSeq := seg.ackSeq } env.curTs
  unfold handleActiveOpen
  simp only
  rw [ledger_updateRetransmissionTimer]
  exact hparsed

variable {env seg c}

theorem completeActiveOpen_booked (hstamp : c.lastActiveTs = env.curTs) :
    Booked env c (completeActiveOpen env seg c) := by
  have hopened := ledger_handleActiveOpen env seg c
  unfold completeActiveOpen
  simp only
  generalize handleActiveOpen env seg c = d at hopened ⊢
  have hremoved := ledger_removeFromRTOList { d with nrtx := 0, rcvNxt := d.irs + 1 }
  generalize removeFromRTOList { d with nrtx := 0, rcvNxt := d.irs + 1 } = e at hremoved ⊢
  have hledger : e.ledger = c.ledger := hremoved.trans hopened
  split
  · have hlisted : (addtoControlList (raiseWriteEvent { e with state := .established })).ledger =
        c.ledger := (ledger_addtoControlList _).trans ((ledger_raiseEvent ..).trans hledger)
    generalize addtoControlList _ = f at hlisted ⊢
    have hstamp' : f.lastActiveTs = env.curTs :=
      (congrArg (·.lastActiveTs) hlisted).trans hstamp
    split
    · exact (Booked.of_eq hlisted).trans (addtoTimeoutList_booked hstamp')
    · exact .of_eq hlisted
  · refine Booked.destroy ?_ env.cfg
    exact .of_eq hledger

theorem handleSynSent_booked (hstamp : c.lastActiveTs = env.curTs) :
    Booked env c (handleSynSent env seg c) := by
  unfold handleSynSent
  split
  · split <;> exact .of_eq rfl
  simp only
  have hacked : (if seg.ack then { c with sndUna := c.sndUna + 1 } else c).ledger = c.ledger := by
    split <;> rfl
  generalize (if seg.ack then { c with sndUna := c.sndUna + 1 } else c) = d at hacked ⊢
  have hstamp' : d.lastActiveTs = env.curTs := (congrArg (·.lastActiveTs) hacked).trans hstamp
  refine (Booked.of_eq hacked).trans ?_
  split_ifs
  · exact notifyOrDestroy_booked env { d with state := .closeWait, closeReason := .reset }
  · exact .refl env d
  · exact completeActiveOpen_booked hstamp'
  · exact .of_eq (ledger_addtoControlList _)
  · exact .refl env d

theorem offerToListener_booked (hstamp : c.lastActiveTs = env.curTs) :
    Booked env c (offerToListener env c) := by
  have htimed : ∀ d : Conn, d.ledger = c.ledger →
      Booked env c (if 0 < env.cfg.tcpTimeout then addtoTimeoutList d else d) := by
    intro d hledger
    have hstamp' : d.lastActiveTs = env.curTs := (congrArg (·.lastActiveTs) hledger).trans hstamp
    split
    · exact (Booked.of_eq hledger).trans (addtoTimeoutList_booked hstamp')
    · exact .of_eq hledger
  unfold offerToListener
  split
  · exact .of_eq rfl
  · exact htimed _ (ledger_addtoControlList _)
  · exact htimed _ rfl

theorem handleSynRcvd_booked (hstamp : c.lastActiveTs = env.curTs) :
    Booked env c (handleSynRcvd env seg c) := by
  unfold handleSynRcvd
  split
  · split
    · exact .refl env c
    · simp only
      have hremoved : ∀ d : Conn, d.ledger = c.ledger →
          Conn.ledger { removeFromRTOList d with state := .established } = c.ledger :=
        fun d hd => (ledger_removeFromRTOList d).trans hd
      have hledger := hremoved
        { c with
          sndUna := c.sndUna + 1
          sndNxt := seg.ackSeq
          cwnd := if c.cwnd = 1 then c.mss.setWidth 32 * 2 else c.mss.setWidth 32
          nrtx := 0
          rcvNxt := c.irs + 1 } rfl
      refine (Booked.of_eq hledger).trans (offerToListener_booked ?_)
      exact (congrArg (·.lastActiveTs) hledger).trans hstamp
  · exact .of_eq (ledger_addtoControlList _)

variable (env seg c)

@[simp] theorem ledger_finEstablished : (finEstablished seg c).ledger = c.ledger := by
  unfold finEstablished
  split
  · exact (ledger_raiseEvent ..).trans (ledger_addtoControlList _)
  · simp

theorem handleEstablished_booked : Booked env c (handleEstablished env seg c) := by
  unfold handleEstablished
  split
  · exact .of_eq (ledger_addtoControlList _)
  · have hpayload := ledger_receivePayload env seg c
    simp only
    generalize receivePayload env seg c = d at hpayload ⊢
    have hack : Booked env d (if seg.ack then processACK env seg d else d) := by
      split
      · exact processACK_booked env seg d
      · exact .refl env d
    generalize (if seg.ack then processACK env seg d else d) = e at hack ⊢
    refine (Booked.of_eq hpayload).trans (hack.trans ?_)
    split
    · exact .of_eq (ledger_finEstablished seg e)
    · exact .refl env e

theorem handleCloseWait_booked : Booked env c (handleCloseWait env seg c) := by
  unfold handleCloseWait
  split
  · exact .of_eq (ledger_addtoControlList c)
  · exact processACK_booked env seg c

theorem handleLastAck_booked : Booked env c (handleLastAck env seg c) := by
  unfold handleLastAck
  split
  · exact .refl env c
  split
  · have hack := processACK_booked env seg c
    simp only
    generalize processACK env seg c = d at hack ⊢
    refine hack.trans ?_
    split_ifs
    · exact .refl env d
    · have htimer : (updateRetransmissionTimer env { d with sndUna := d.sndUna + 1 }).ledger =
          d.ledger := ledger_updateRetransmissionTimer ..
      generalize updateRetransmissionTimer env _ = e at htimer ⊢
      refine Booked.destroy ?_ env.cfg
      exact .of_eq htimer
    · exact .of_eq (ledger_addtoControlList d)
  · exact .of_eq (ledger_addtoControlList c)

theorem ledger_finAcked : (finAcked seg c).ledger = c.ledger := by
  unfold finAcked
  split
  · simp only
    split <;> exact ledger_removeFromRTOList _
  · rfl

theorem finClosing_booked : Booked env c (finClosing env seg c) := by
  unfold finClosing
  split
  · simp only
    have hstate : Booked env c (if c.state = .finWait1 then
        { c with rcvNxt := c.rcvNxt + 1, state := .closing }
        else if c.state = .finWait2 then
          addtoTimewaitList env { c with rcvNxt := c.rcvNxt + 1, state := .timeWait }
        else { c with rcvNxt := c.rcvNxt + 1 }) := by
      split_ifs
      · exact .of_eq rfl
      · exact addtoTimewaitList_booked env { c with rcvNxt := c.rcvNxt + 1, state := .timeWait }
      · exact .of_eq rfl
    exact hstate.trans (.of_eq (ledger_addtoControlList _))
  · exact .refl env c

theorem handleFinWait1_booked : Booked env c (handleFinWait1 env seg c) := by
  unfold handleFinWait1
  split
  · exact .of_eq (ledger_addtoControlList c)
  split
  · simp only
    have hack := processACK_booked env seg c
    generalize processACK env seg c = d at hack ⊢
    have hpayload : (receivePayload env seg (finAcked seg d)).ledger = d.ledger :=
      (ledger_receivePayload ..).trans (ledger_finAcked seg d)
    generalize receivePayload env seg (finAcked seg d) = e at hpayload ⊢
    refine hack.trans ((Booked.of_eq hpayload).trans ?_)
    split
    · exact finClosing_booked env seg e
    · exact .refl env e
  · exact .refl env c

theorem handleFinWait2_booked : Booked env c (handleFinWait2 env seg c) := by
  unfold handleFinWait2
  split
  · simp only
    have hack := processACK_booked env seg c
    generalize processACK env seg c = d at hack ⊢
    have hpayload := ledger_receivePayload env seg d
    generalize receivePayload env seg d = e at hpayload ⊢
    refine hack.trans ((Booked.of_eq hpayload).trans ?_)
    split_ifs
    · exact (addtoTimewaitList_booked env
        { e with state := .timeWait, rcvNxt := e.rcvNxt + 1 }).trans
          (.of_eq (ledger_addtoControlList _))
    · exact .refl env e
    · exact .refl env e
  · exact .refl env c

theorem handleClosing_booked : Booked env c (handleClosing env seg c) := by
  unfold handleClosing
  split
  · have hack := processACK_booked env seg c
    simp only
    generalize processACK env seg c = d at hack ⊢
    refine hack.trans ?_
    split_ifs
    · exact .refl env d
    · exact .refl env d
    · have htimer := ledger_updateRetransmissionTimer env
        { d with sndUna := seg.ackSeq, sndNxt := seg.ackSeq }
      generalize updateRetransmissionTimer env _ = e at htimer ⊢
      exact (Booked.of_eq (d := e) htimer).trans
        (addtoTimewaitList_booked env { e with state := .timeWait })
  · exact .refl env c

theorem handleTimeWait_booked : Booked env c (handleTimeWait env c) := by
  have hrestart : Booked env c
      (if c.onTimewaitList then addtoTimewaitList env (removeFromTimewaitList c) else c) := by
    split
    · exact (removeFromTimewaitList_booked env c).trans (addtoTimewaitList_booked env _)
    · exact .refl env c
  exact hrestart.trans (.of_eq (ledger_addtoControlList _))

variable {env seg c}

theorem handleState_booked (hstamp : c.lastActiveTs = env.curTs) :
    Booked env c (handleState env seg c) := by
  unfold handleState
  split
  case h_1 => exact .of_eq (ledger_handleListen seg c)
  case h_2 => exact handleSynSent_booked hstamp
  case h_3 =>
    split
    · exact .of_eq (ledger_handleListen seg c)
    · have hrcvd : Booked env c (handleSynRcvd env seg c) := handleSynRcvd_booked hstamp
      simp only
      generalize handleSynRcvd env seg c = d at hrcvd ⊢
      split
      · exact hrcvd.trans (handleEstablished_booked env seg d)
      · exact hrcvd
  case h_4 => exact handleEstablished_booked env seg c
  case h_5 => exact handleCloseWait_booked env seg c
  case h_6 => exact handleLastAck_booked env seg c
  case h_7 => exact handleFinWait1_booked env seg c
  case h_8 => exact handleFinWait2_booked env seg c
  case h_9 => exact handleClosing_booked env seg c
  case h_10 => exact handleTimeWait_booked env c
  case h_11 => exact .refl env c

variable (env seg c)

theorem admitSegment_booked :
    Booked env c (admitSegment env seg c) ∧ (admitSegment env seg c).lastActiveTs = env.curTs := by
  have htouched : Booked env c (updateTimeoutList
      { c with peerWnd := scaledWindow seg c, lastActiveTs := env.curTs }) :=
    touched_booked env { c with peerWnd := scaledWindow seg c }
  have hstamp : (updateTimeoutList
      { c with peerWnd := scaledWindow seg c, lastActiveTs := env.curTs }).lastActiveTs =
      env.curTs := by
    unfold updateTimeoutList
    split <;> rfl
  unfold admitSegment
  simp only
  generalize updateTimeoutList _ = d at htouched hstamp ⊢
  split <;> exact ⟨htouched, hstamp⟩

/-- A RST the handler still sees has changed nothing. -/
theorem processRST_booked (ackSeq : U32) :
    Booked env c (processRST env ackSeq c).1 ∧
      ((processRST env ackSeq c).2 = false → (processRST env ackSeq c).1 = c) := by
  have hclosed : ∀ d : Conn, d.ledger = c.ledger → Booked env c (destroyTCPStream env.cfg d) :=
    fun d hd => (Booked.of_eq hd).destroy env.cfg
  unfold processRST
  split
  case h_1 | h_2 | h_3 => exact ⟨.refl env c, fun _ => rfl⟩
  case h_4 =>
    split
    · exact ⟨hclosed _ rfl, nofun⟩
    · exact ⟨.refl env c, nofun⟩
  case h_5 | h_6 | h_7 | h_8 | h_9 => exact ⟨hclosed _ rfl, nofun⟩
  case h_10 | h_11 =>
    split
    · exact ⟨.refl env c, nofun⟩
    · exact ⟨.of_eq (ledger_raiseEvent ..), nofun⟩

theorem dispatchSegment_booked : Booked env c (dispatchSegment env seg c) := by
  obtain ⟨hadmitted, hstamp⟩ := admitSegment_booked env seg c
  unfold dispatchSegment
  simp only
  generalize admitSegment env seg c = d at hadmitted hstamp ⊢
  refine hadmitted.trans ?_
  split
  · obtain ⟨hreset, hkept⟩ := processRST_booked env d seg.ackSeq
    split
    case isTrue => exact hreset
    case isFalse hfalse =>
      rw [hkept (by simpa using hfalse)]
      exact handleState_booked hstamp
  · exact handleState_booked hstamp

theorem validateSequence_booked : Booked env c (validateSequence env seg c).1 := by
  have hcheck : (checkTimestamp env seg c).1.ledger = c.ledger := by
    have hstamp := checkTimestamp_outcome env seg c
    generalize checkTimestamp env seg c = r at hstamp ⊢
    cases hstamp with
    | unused | looped | missing | taken => rfl
    | stale => exact ledger_enqueueACK ..
  have hrefuse : ∀ d : Conn, Booked env d (refuseSequence env seg d) := by
    intro d
    have hout := refuseSequence_outcome env seg d
    generalize refuseSequence env seg d = r at hout ⊢
    cases hout with
    | silent => exact .refl env d
    | acked => exact .of_eq (ledger_enqueueACK ..)
    | restarted =>
      exact (addtoTimewaitList_booked env d).trans (.of_eq (ledger_addtoControlList _))
    | control => exact .of_eq (ledger_addtoControlList d)
  have hvalid := validateSequence_outcome env seg c
  generalize validateSequence env seg c = r at hvalid ⊢
  cases hvalid with
  | @accepted d hd =>
    rw [hd] at hcheck
    exact .of_eq hcheck
  | @outside d hd =>
    rw [hd] at hcheck
    exact (Booked.of_eq hcheck).trans (hrefuse d)
  | @unchecked d hd =>
    rw [hd] at hcheck
    exact .of_eq hcheck

theorem processTCPPacket_booked : Booked env c (processTCPPacket env seg c) := by
  unfold processTCPPacket
  split
  · have hvalid := validateSequence_booked env seg c
    simp only
    generalize validateSequence env seg c = r at hvalid ⊢
    split
    · exact hvalid.trans (dispatchSegment_booked env seg r.1)
    · exact hvalid
  · exact dispatchSegment_booked env seg c

end

/-! ## Timers -/

section

variable {env : Env} {c : Conn}

theorem ledger_requeueRTO (c : Conn) : (requeueRTO c).ledger = c.ledger := by
  have hfin : (if tcpSeqLt c.sndNxt c.fss then
      addtoSendList { removeFromControlList c with controlListWaiting := true }
      else addtoControlList c).ledger = c.ledger := by
    split
    · exact (ledger_addtoSendList _).trans (ledger_removeFromControlList c)
    · exact ledger_addtoControlList c
  unfold requeueRTO
  split
  case h_1 | h_2 => exact ledger_addtoSendList c
  case h_3 | h_4 | h_5 => exact hfin
  case h_6 => exact ledger_addtoControlList c

variable (env c)

theorem retransmitRTO_booked : Booked env c (retransmitRTO env c) := by
  have hagain : (requeueRTO { c with sndNxt := c.sndUna }).ledger = c.ledger := ledger_requeueRTO _
  unfold retransmitRTO
  split
  case h_1 =>
    split
    · exact notifyOrDestroy_booked env { c with state := .closed, closeReason := .connFail }
    · exact .of_eq hagain
  case h_2 =>
    split
    · exact destroyTCPStream_booked env env.cfg c
    · exact .of_eq hagain
  case h_3 | h_4 | h_5 | h_6 | h_7 => exact .of_eq hagain
  case h_8 | h_9 | h_10 | h_11 => exact .of_eq rfl

theorem giveUpRTO_booked : Booked env c (giveUpRTO env c) := by
  unfold giveUpRTO
  split
  · exact destroyTCPStream_booked env env.cfg { c with state := .closed, closeReason := .connFail }
  · exact notifyOrDestroy_booked env { c with state := .closed, closeReason := .connLost }

theorem handleRTO_booked : Booked env c (handleRTO env c) := by
  have hbackoff : ∀ d : Conn, (shrinkWindow (backoffRTO (countRtx d))).ledger = d.ledger := by
    intro d
    unfold shrinkWindow backoffRTO
    split_ifs <;> rfl
  have htimed : (if (c.act .timedOut).rto = 0 then (c.act .timedOut).fault .rtoZero
      else c.act .timedOut).ledger = c.ledger := by
    split <;> rfl
  unfold handleRTO
  simp only
  generalize (if (c.act .timedOut).rto = 0 then (c.act .timedOut).fault .rtoZero
      else c.act .timedOut) = d at htimed ⊢
  refine (Booked.of_eq htimed).trans ?_
  split_ifs
  · exact .refl env d
  · exact (Booked.of_eq (hbackoff d)).trans (retransmitRTO_booked env _)
  · exact giveUpRTO_booked env d

theorem rtoListStep_booked (slot : ℕ) : Booked env c (rtoListStep env slot c) := by
  unfold rtoListStep
  split
  · exact handleRTO_booked env
      { c with
        rtoList := Function.update c.rtoList slot ((c.rtoList slot).erase c.sid)
        rtoListCnt := c.rtoListCnt - 1
        onRtoIdx := -1 }
  · exact .refl env c

theorem timewaitStep_booked : Booked env c (timewaitStep env c).1 := by
  unfold timewaitStep
  split_ifs with hon hdue hcontrol
  · exact .refl env c
  · refine Booked.destroy ?_ env.cfg
    exact .of_step (.unwaited hon)
  · exact .refl env c
  · exact .refl env c

variable {env c} in
theorem timeoutStep_booked (hon : c.onTimeoutList = true) : Booked env c (timeoutStep env c).1 := by
  unfold timeoutStep
  split
  · exact (Booked.of_step (d := { c with
      onTimeoutList := false
      timeoutList := c.timeoutList.erase c.sid
      timeoutListCnt := c.timeoutListCnt - 1
      state := .closed
      closeReason := .timedOut }) (.untimed hon)).trans (notifyOrDestroy_booked env _)
  · exact .refl env c

end

/-! ## Application calls and their queues -/

section

variable (env : Env) (cfg : Config) (c : Conn)

variable {env c} in
theorem RequestOutcome.booked {d : Conn} (h : RequestOutcome c d) : Booked env c d := by
  cases h with
  | destroyed cfg =>
    exact destroyTCPStream_booked env cfg { c with closeReason := .reset, state := .closed }
  | kept => exact .refl env c
  | closeRequeued | resetRequeued | waits => exact .of_eq rfl
  | closes | resets => exact .of_eq (ledger_addtoControlList _)

theorem dequeueClose_booked : Booked env c (dequeueClose cfg c) :=
  (stopTimeout_booked env cfg
    { c with closeq := c.closeq - 1, onCloseq := false, fss := finalSeq c }).trans
    (dequeueClose_outcome cfg c).booked

theorem dequeueReset_booked : Booked env c (dequeueReset cfg c) :=
  (stopTimeout_booked env cfg { c with resetq := c.resetq - 1, onResetq := false }).trans
    (dequeueReset_outcome cfg c).booked

theorem dequeueCloseInt_booked : Booked env c (dequeueCloseInt c) := by
  rcases dequeueCloseInt_outcome c with hkept | hout
  · exact .of_eq (by rw [hkept])
  · exact hout.booked

theorem dequeueResetInt_booked : Booked env c (dequeueResetInt c) := by
  rcases dequeueResetInt_outcome c with hkept | hout
  · exact .of_eq (by rw [hkept])
  · exact hout.booked

theorem ledger_mtcpAccept (socket : Option Socket) : (mtcpAccept socket c).ledger = c.ledger := by
  unfold mtcpAccept
  simp only
  split_ifs
  · rfl
  · rfl
  · split <;> rfl

theorem ledger_mtcpRead (len : ℕ) : (mtcpRead len c).1.ledger = c.ledger := by
  have hcopy : ∀ b : RingBuffer, (copyToUser b len c).1.ledger = c.ledger := by
    intro b
    have hout := copyToUser_outcome b len c
    generalize copyToUser b len c = r at hout ⊢
    cases hout with
    | nothing | faulted => rfl
    | taken =>
      unfold advertiseWindow
      split <;> rfl
  have hremind : ∀ (s : Socket) (ret : ℤ) (d : Conn), (remindReader s ret d).ledger = d.ledger := by
    intro s ret d
    unfold remindReader
    simp only
    split_ifs <;> rfl
  unfold mtcpRead
  split
  · split
    · rfl
    · split
      · split_ifs <;> rfl
      · split
        · rfl
        · exact (hremind ..).trans (hcopy _)
  · rfl

theorem ledger_mtcpClose : (mtcpClose c).ledger = c.ledger := by
  have hclose : (closeStreamSocket c).ledger = c.ledger := by
    unfold closeStreamSocket
    simp only
    split
    · rfl
    · split <;> rfl
  unfold mtcpClose
  split
  · exact hclose
  · rfl

theorem ledger_mtcpAbort : (mtcpAbort c).ledger = c.ledger := by
  unfold mtcpAbort
  simp only
  split
  · split
    case h_6 => split <;> rfl
    all_goals rfl
  · rfl

theorem copyFromUser_booked (buf : List U8) : Booked env c (copyFromUser env buf c).1 := by
  unfold copyFromUser
  simp only
  split
  case isTrue => exact .refl env c
  case isFalse hlen =>
    split
    case h_1 => exact .of_eq rfl
    case h_2 b hopen =>
      have hbuffer : Booked env c { c with sndbuf := some b } := by
        unfold openSndbuf at hopen
        split at hopen
        case h_1 b' hbuf => exact .of_eq (by simp [Conn.ledger, hbuf, ← hopen])
        case h_2 hbuf =>
          obtain ⟨chunk, hchunk, rfl⟩ := Option.map_eq_some_iff.1 hopen
          have hroom : 0 < c.sndWnd.toInt := by omega
          exact .of_step (.opened (c.iss + 1) hbuf hchunk hroom)
      split
      case h_1 => exact hbuffer
      case h_2 b' ret hput =>
        have hwrote : Booked env c { c with
            sndbuf := some b'
            sndWnd := BitVec.ofNat 32 b'.size - BitVec.ofNat 32 b'.len } :=
          hbuffer.trans (.of_step (.wrote (p := Conn.ledger { c with sndbuf := some b }) rfl hput))
        split_ifs <;> exact hwrote

theorem mtcpWrite_booked (buf : List U8) : Booked env c (mtcpWrite env buf c).1 := by
  have hcopy := copyFromUser_booked env c buf
  unfold mtcpWrite
  split
  · split_ifs
    · exact .refl env c
    · exact .refl env c
    · exact .refl env c
    · simp only
      generalize copyFromUser env buf c = r at hcopy ⊢
      refine hcopy.trans (.of_eq ?_)
      have hqueue : (if 0 < r.2 then enqueueSend r.1 else r.1).ledger = r.1.ledger := by
        unfold enqueueSend
        split_ifs <;> rfl
      generalize (if 0 < r.2 then enqueueSend r.1 else r.1) = d at hqueue ⊢
      split <;> exact hqueue
  · exact .refl env c

end

/-! ## Events -/

/-- What an event is given from outside. -/
def Event.env? : Event → Option Env
  | .packet env _ | .rtoPass env | .timewaitPass env | .timeoutPass env | .controlPass env _
  | .dataPass env _ | .ackPass env _ | .write env _ => some env
  | _ => none

/-- Every event of a stream, but for what others do to the lists, is a chain of ledger steps. -/
theorem Event.booked {e : Event} {c : Conn} {env : Env} (henabled : e.enabled c = true)
    (henv : ∀ env', e.env? = some env' → env' = env) (hown : ∀ sh, e ≠ .others sh) :
    Booked env c (e.apply c) := by
  cases e with
  | packet env' seg =>
    obtain rfl := henv env' rfl
    exact processTCPPacket_booked env' seg c
  | rtoPass env' =>
    obtain rfl := henv env' rfl
    exact rtoListStep_booked env' c _
  | timewaitPass env' =>
    obtain rfl := henv env' rfl
    exact timewaitStep_booked env' c
  | timeoutPass env' =>
    obtain rfl := henv env' rfl
    exact timeoutStep_booked henabled
  | controlPass env' tx =>
    obtain rfl := henv env' rfl
    exact controlListStep_booked env' { c with tx }
  | dataPass env' tx =>
    obtain rfl := henv env' rfl
    exact dataListStep_booked env' { c with tx }
  | ackPass env' tx =>
    obtain rfl := henv env' rfl
    exact ackListStep_booked env' { c with tx }
  | write env' buf =>
    obtain rfl := henv env' rfl
    exact mtcpWrite_booked env' c buf
  | connectq => exact .of_eq (ledger_addtoControlList _)
  | sendq => exact .of_eq (ledger_addtoSendList _)
  | ackq => exact .of_eq (ledger_enqueueACK _ _)
  | closeq cfg => exact dequeueClose_booked env cfg c
  | closeqInt => exact dequeueCloseInt_booked env c
  | resetq cfg => exact dequeueReset_booked env cfg c
  | resetqInt => exact dequeueResetInt_booked env c
  | destroyq cfg => exact destroyTCPStream_booked env cfg { c with destroyq := c.destroyq - 1 }
  | accept socket => exact .of_eq (ledger_mtcpAccept c socket)
  | closeListener => exact .of_eq rfl
  | read len => exact .of_eq (ledger_mtcpRead c len)
  | close => exact .of_eq (ledger_mtcpClose c)
  | abort => exact .of_eq (ledger_mtcpAbort c)
  | others sh => exact absurd rfl (hown sh)

/-- A stream starts with an empty ledger. -/
theorem ledger_mtcpConnect (cfg : Config) (iss : U32) (socket : Socket) (sid : ℕ) (sh : Shared)
    (queued : Bool) : (mtcpConnect cfg iss socket sid sh queued).ledger =
      (freshConn cfg iss none sid sh).ledger := by
  cases queued <;> rfl

theorem handlePassiveOpen_booked (env : Env) (iss : U32) (sid : ℕ) (sh : Shared) (seg : Segment) :
    Booked env (freshConn env.cfg iss none sid sh) (handlePassiveOpen env iss sid sh seg) := by
  have hparsed := ledger_parsed seg
    { freshConn env.cfg iss none sid sh with
      irs := seg.seq, peerWnd := seg.window.setWidth 32, rcvNxt := seg.seq, cwnd := 1 } env.curTs
  unfold handlePassiveOpen
  exact Booked.trans (.of_eq hparsed) (processTCPPacket_booked env seg _)

end MtcpStack
