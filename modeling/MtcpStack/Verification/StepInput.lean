import MtcpStack.Verification.Refusal
import MtcpStack.Verification.StepAck
import MtcpStack.Verification.StepQueues

/-! # The processing of a segment as effects

Each state handler is a short sequence of effects. What the hazards say about the segment is
collected in `PacketSafe`. -/

namespace MtcpStack

variable {avoid : Hazard → Prop} {env : Env} {seg : Segment} {sg : Option Segment} {c : Conn}

/-! ## What the trace keeps -/

theorem acceptedSegs_kept (log : List Act) :
    acceptedSegs (log.filter Act.kept) = acceptedSegs log := by
  unfold acceptedSegs
  rw [List.filterMap_filter]
  congr 1
  funext a
  cases a with
  | fault f =>
    simp only
    split <;> rfl
  | _ => rfl

theorem received_congr {c d : Conn} (hirs : d.irs = c.irs) (htrace : d.core.trace = c.core.trace) :
    received d = received c := by
  have hacc : acceptedSegs d.log = acceptedSegs c.log := by
    rw [← acceptedSegs_kept d.log, ← acceptedSegs_kept c.log]
    exact congrArg acceptedSegs htrace
  rw [received, received, hirs, hacc]

theorem Genuine.congr {S : ℕ → U8} {c d : Conn}
    (h : Genuine S env seg c) (hirs : d.irs = c.irs) (htrace : d.core.trace = c.core.trace) :
    Genuine S env seg d :=
  ⟨h.length_lt, h.chunk_lt, by rw [received_congr hirs htrace, hirs]; exact h.agrees⟩

theorem PayloadSafe.congr {c d : Conn} (h : PayloadSafe avoid env seg c)
    (hlive : d.onHashTable = c.onHashTable) (hirs : d.irs = c.irs)
    (htrace : d.core.trace = c.core.trace) : PayloadSafe avoid env seg d :=
  ⟨hlive.trans h.live, h.allowed, h.roomy, fun S ha => (h.genuine S ha).congr hirs htrace⟩

/-! ## Hazards of a segment -/

/-- What the hazards say about a segment that is handled in state `c`. -/
structure PacketSafe (avoid : Hazard → Prop) (env : Env) (seg : Segment) (c : Conn) : Prop where
  ack : AckSafe avoid seg c.core
  payload : 0 < seg.payload.length → PayloadSafe avoid env seg c
  memory : avoid .noMemory → env.rcvChunk ≠ none
  old : avoid .finRequeued → c.state = .finWait1 → seg.rst = false → tcpSeqLt seg.seq c.rcvNxt →
    c.onControlList = false → c.sndNxt ≠ c.fss + 1
  unacked : avoid .finRequeued → c.state = .lastAck → seg.rst = false →
    ¬ tcpSeqLt seg.seq c.rcvNxt → ¬ (seg.ack = true ∧ seg.ackSeq = c.fss + 1) →
    c.onControlList = false → c.sndNxt ≠ c.fss + 1
  early : avoid .earlyFin → c.state = .finWait1 → seg.fin = true → seg.ack = true →
    ¬ tcpSeqLt seg.seq c.rcvNxt → c.isFinSent = true
  established : avoid .synEstablished → c.state = .established → seg.syn = true → seg.rst = false →
    seg.ackSeq = c.sndNxt
  pure : avoid .pureAck → c.state = .synSent → seg.syn = false → seg.rst = false →
    ¬ c.core.acceptable seg
  bare : avoid .simultaneousOpen → c.state = .synSent → seg.syn = true → seg.rst = false →
    seg.ack = true

/-! ## Lists -/

theorem control_effects (hstate : c.state ≠ .synSent)
    (hreq : avoid .finRequeued → c.onControlList = false → ¬ finOut c.state c.sndNxt c.fss) :
    Effects avoid sg c.core (addtoControlList c).core := by
  rw [core_addtoControlList]
  exact .single (.control hstate hreq)

theorem enqueueACK_effects (opt : AckOpt) (c : Conn) :
    Effects avoid sg c.core (enqueueACK opt c).core := by
  rw [core_enqueueACK]
  exact .single .queueAck

/-! ## Validation -/

theorem checkTimestamp_effects (env : Env) (seg : Segment) (c : Conn) :
    Effects avoid sg c.core (checkTimestamp env seg c).1.core ∧
      (checkTimestamp env seg c).1.core = { c.core with
        onAckList := (checkTimestamp env seg c).1.onAckList } ∧
      ((checkTimestamp env seg c).2 = true → (checkTimestamp env seg c).1.core = c.core) := by
  have hout := checkTimestamp_outcome env seg c
  generalize checkTimestamp env seg c = r at hout ⊢
  cases hout with
  | unused | taken => exact ⟨.refl, rfl, fun _ => rfl⟩
  | looped =>
    rw [core_fault_skipped c rfl]
    exact ⟨.refl, rfl, nofun⟩
  | missing => exact ⟨.refl, rfl, nofun⟩
  | stale =>
    have hon : (enqueueACK .now c).onAckList = true :=
      congrArg (·.onAckList) (core_enqueueACK .now c)
    refine ⟨enqueueACK_effects .now c, ?_, nofun⟩
    simp only
    rw [core_enqueueACK, hon]

/-- A segment outside the window is answered; the stream keeps its state. -/
theorem refuseSequence_effects (env : Env) (seg : Segment) (hstate : c.state ≠ .synSent)
    (hreq : avoid .finRequeued → seg.rst = false → c.onControlList = false →
      ¬ finOut c.state c.sndNxt c.fss) :
    Effects avoid sg c.core (refuseSequence env seg c).core := by
  have hout := refuseSequence_outcome env seg c
  generalize refuseSequence env seg c = d at hout ⊢
  cases hout with
  | silent => exact .refl
  | acked opt => exact enqueueACK_effects opt c
  | control hrst => exact control_effects hstate fun ha => hreq ha hrst
  | restarted htw =>
    have hcore := core_addtoTimewaitList env c
    have hrestart : Effects avoid sg c.core (addtoTimewaitList env c).core := by
      rw [hcore]
      exact .single (.restartTimewait htw fun hr => Bool.and_eq_true_iff.mp hr)
    have hs : (addtoTimewaitList env c).state = .timeWait := (congrArg (·.state) hcore).trans htw
    exact hrestart.trans (control_effects (by simp [hs]) fun _ _ => by simp [finOut, hs])

theorem validateSequence_effects (env : Env) (seg : Segment) (hstate : c.state ≠ .synSent)
    (hreq : avoid .finRequeued → seg.rst = false → (checkTimestamp env seg c).2 = true →
      (validateSequence env seg c).2 = false → c.onControlList = false →
      ¬ finOut c.state c.sndNxt c.fss) :
    Effects avoid sg c.core (validateSequence env seg c).1.core ∧
      ((validateSequence env seg c).2 = true → (validateSequence env seg c).1.core = c.core) := by
  obtain ⟨heff, hframe, hkept⟩ : Effects avoid sg c.core _ ∧ _ := checkTimestamp_effects env seg c
  have hout := validateSequence_outcome env seg c
  generalize validateSequence env seg c = r at hout hreq ⊢
  cases hout with
  | accepted hd =>
    rw [hd] at heff hkept
    exact ⟨heff, fun _ => hkept rfl⟩
  | unchecked hd =>
    rw [hd] at heff
    exact ⟨heff, nofun⟩
  | outside hd =>
    rw [hd] at heff hkept hreq
    refine ⟨heff.trans (refuseSequence_effects env seg ?_ fun ha hrst => ?_), nofun⟩
    · exact fun hs => hstate ((congrArg (·.state) (hkept rfl)).symm.trans hs)
    · have hout := hreq ha hrst rfl rfl
      change c.core.onControlList = false → ¬ finOut c.core.state c.core.sndNxt c.core.fss at hout
      rwa [← hkept rfl] at hout

/-! ## Resets -/

theorem core_admitSegment (env : Env) (seg : Segment) (c : Conn) :
    (admitSegment env seg c).core = { c.core with haveReset := c.haveReset || seg.rst } := by
  have hupdate := core_updateTimeoutList
    { c with peerWnd := scaledWindow seg c, lastActiveTs := env.curTs }
  unfold admitSegment
  simp only
  generalize updateTimeoutList _ = d at hupdate ⊢
  have hd : d.core = c.core := hupdate
  cases seg.rst with
  | true =>
    simp only [if_true, Bool.or_true]
    rw [← hd]
    rfl
  | false =>
    simp only [Bool.false_eq_true, if_false, Bool.or_false]
    exact hd

theorem admitSegment_reset (env : Env) (c : Conn) (hrst : seg.rst = true) :
    (admitSegment env seg c).haveReset = true := by
  have hcore := congrArg (·.haveReset) (core_admitSegment env seg c)
  simpa [hrst] using hcore

theorem admitSegment_effects (env : Env) (seg : Segment) (c : Conn) :
    Effects avoid sg c.core (admitSegment env seg c).core := by
  rw [core_admitSegment]
  cases seg.rst with
  | true =>
    rw [Bool.or_true]
    exact .single .rstSeen
  | false =>
    rw [Bool.or_false]
    exact .refl

theorem processRST_effects (env : Env) (hrst : seg.rst = true) (hreset : c.haveReset = true) :
    Effects avoid (some seg) c.core (processRST env seg.ackSeq c).1.core := by
  have hqueues : ¬ (c.onCloseq || c.onCloseqInt || c.onResetq || c.onResetqInt) = true →
      c.onCloseq = false ∧ c.onCloseqInt = false ∧ c.onResetq = false ∧ c.onResetqInt = false := by
    simp [and_assoc]
  unfold processRST
  split
  case h_4 hs =>
    split
    · rw [core_destroyTCPStream]
      exact .single (.rstHandshake hs)
    · exact .refl
  case h_10 hs =>
    split
    case isTrue => exact .refl
    case isFalse hno =>
      rw [core_raiseCloseEvent]
      exact .single (.rstEstablished rfl hrst hreset (.inl hs) (hqueues hno))
  case h_11 hs =>
    split
    case isTrue => exact .refl
    case isFalse hno =>
      rw [core_raiseCloseEvent]
      exact .single (.rstEstablished rfl hrst hreset (.inr hs) (hqueues hno))
  all_goals first
    | exact .refl
    | next hs =>
      rw [core_destroyTCPStream]
      exact .single (.rstClosing (by simp [TcpState.closes, hs]))

/-! ## Payload -/

/-- Only the receiving side has changed, or memory has run out. -/
structure Endpoint.Receives (p q : Endpoint) : Prop where
  frame : q = { p with
    onAckList := q.onAckList
    rcvbuf := q.rcvbuf
    rcvNxt := q.rcvNxt
    rcvWnd := q.rcvWnd
    trace := q.trace
    state := q.state
    closeReason := q.closeReason }
  state : q.state = p.state ∧ q.closeReason = p.closeReason ∨
    q.state = .closed ∧ q.closeReason = .noMem

theorem Endpoint.Receives.refl (p : Endpoint) : p.Receives p := ⟨rfl, .inl ⟨rfl, rfl⟩⟩

theorem processTCPPayload_receives (env : Env) (payload : List U8) (seq : U32) (c : Conn) :
    c.core.Receives (processTCPPayload env payload seq c).1.core := by
  refine processTCPPayload_rule (P := fun d => c.core.Receives d.core)
    (fun e reg d hd => (core_raiseEvent e reg d).symm ▸ hd) fun d hout => ?_
  cases hout with
  | dropped => exact .refl _
  | noMemory => exact ⟨rfl, .inr ⟨rfl, rfl⟩⟩
  | faulted =>
    rw [Conn.fault, core_act_kept _ rfl]
    exact ⟨rfl, .inl ⟨rfl, rfl⟩⟩
  | @stored b b' ret =>
    split
    · rw [core_storePayload_accepted]
      exact ⟨rfl, .inl ⟨rfl, rfl⟩⟩
    · exact ⟨rfl, .inl ⟨rfl, rfl⟩⟩

theorem processTCPPayload_effects (env : Env)
    (hstate : c.state = .established ∨ c.state = .finWait1 ∨ c.state = .finWait2)
    (hsafe : PayloadSafe avoid env seg c) (hmem : avoid .noMemory → env.rcvChunk ≠ none) :
    Effects avoid (some seg) c.core (processTCPPayload env seg.payload seg.seq c).1.core := by
  by_cases hopen : openRcvbuf env c = none
  · have hnone : env.rcvChunk = none := by
      unfold openRcvbuf at hopen
      split at hopen
      · cases hopen
      · simpa using hopen
    refine processTCPPayload_rule (P := fun d => Effects avoid (some seg) c.core d.core)
      (fun e reg d hd => (core_raiseEvent e reg d).symm ▸ hd) fun d hout => ?_
    cases hout with
    | dropped => exact .refl
    | noMemory => exact .single (.noMem hstate fun ha => hmem ha hnone)
    | faulted _ _ hsome => cases hopen.symm.trans hsome
    | stored _ _ hsome => cases hopen.symm.trans hsome
  · exact .single (.payload rfl hstate hopen hsafe)

theorem receivePayload_receives (env : Env) (seg : Segment) (c : Conn) :
    c.core.Receives (receivePayload env seg c).core := by
  unfold receivePayload
  split
  case isTrue => exact .refl _
  case isFalse =>
    obtain ⟨hframe, hst⟩ := processTCPPayload_receives env seg.payload seg.seq c
    simp only [core_enqueueACK]
    exact ⟨by rw [hframe], hst⟩

/-- An empty segment is not processed; the others are acknowledged. -/
theorem receivePayload_effects (env : Env)
    (hstate : c.state = .established ∨ c.state = .finWait1 ∨ c.state = .finWait2)
    (hsafe : 0 < seg.payload.length → PayloadSafe avoid env seg c)
    (hmem : avoid .noMemory → env.rcvChunk ≠ none) :
    Effects avoid (some seg) c.core (receivePayload env seg c).core := by
  unfold receivePayload
  split
  case isTrue => exact .refl
  case isFalse hlen =>
    exact (processTCPPayload_effects env hstate (hsafe (Nat.pos_of_ne_zero hlen)) hmem).trans
      (enqueueACK_effects _ _)

/-- A handler takes the stream from `c` to `d`, processes the payload there, and ends in `r`. -/
structure AroundPayload (avoid : Hazard → Prop) (env : Env) (seg : Segment) (c d r : Conn) :
    Prop where
  before : Effects avoid (some seg) c.core d.core
  state : d.state = .established ∨ d.state = .finWait1 ∨ d.state = .finWait2
  live_eq : d.onHashTable = c.onHashTable
  irs_eq : d.irs = c.irs
  trace_eq : d.core.trace = c.core.trace
  after : Effects avoid (some seg) (receivePayload env seg d).core r.core

theorem AroundPayload.effects {c d r : Conn} (h : AroundPayload avoid env seg c d r)
    (hsafe : 0 < seg.payload.length → PayloadSafe avoid env seg c)
    (hmem : avoid .noMemory → env.rcvChunk ≠ none) :
    Effects avoid (some seg) c.core r.core := by
  have hpayload := receivePayload_effects env h.state
    (fun hpay => (hsafe hpay).congr h.live_eq h.irs_eq h.trace_eq) hmem
  exact (h.before.trans hpayload).trans h.after

/-- The sending side has not changed, so neither has what the hazards say about it. -/
theorem AckSafe.received {p q : Endpoint} (h : AckSafe avoid seg p)
    (hrecv : p.Receives q) (hpay : 0 < seg.payload.length)
    (hadjust : q.adjusted seg.ackSeq = p.adjusted seg.ackSeq) : AckSafe avoid seg q := by
  have hbuf : q.sndbuf = p.sndbuf := congrArg (·.sndbuf) hrecv.frame
  refine ⟨fun _ hd => absurd hd.2.1 hpay.ne', ?_⟩
  rw [hadjust, hbuf]
  exact h.far

/-! ## Opening -/

theorem handleListen_effects (hstate : c.state = .listen ∨ c.state = .synRcvd) :
    Effects avoid (some seg) c.core (handleListen seg c).core := by
  unfold handleListen
  split
  case isFalse => exact .refl
  case isTrue =>
    simp only
    rcases hstate with hs | hs
    · rw [if_pos hs, core_addtoControlList]
      exact .single (.listenSyn hs)
    · have hne : c.state ≠ .listen := by simp [hs]
      have hcore : (addtoControlList { c with state := .synRcvd }).core =
          { c.core with onControlList := true } := by
        rw [core_addtoControlList, ← hs]
      rw [if_neg hne, hcore]
      refine .single (.control (by simp [hs]) fun _ _ hout => ?_)
      simp [finOut, hs] at hout

theorem core_handleActiveOpen (env : Env) (seg : Segment) (c : Conn) :
    (handleActiveOpen env seg c).core =
      { c.core with
        irs := seg.seq
        sndNxt := seg.ackSeq
        rcvNxt := seg.seq + 1
        lastAckSeq := seg.ackSeq
        inRto := decide (tcpSeqGt seg.ackSeq c.sndUna) && !c.onTimewaitList } := by
  let c₁ : Conn :=
    { c with
      irs := seg.seq
      sndNxt := seg.ackSeq
      peerWnd := seg.window.setWidth 32
      sndWl1 := seg.seq - 1
      rcvNxt := seg.seq + 1
      lastAckSeq := seg.ackSeq }
  have htimer : ∀ (d : Conn) (w s : U32), d.core = c₁.core →
      (updateRetransmissionTimer env { d with cwnd := w, ssthresh := s }).core =
        { c₁.core with inRto := decide (tcpSeqGt seg.ackSeq c.sndUna) && !c.onTimewaitList } := by
    intro d w s hd
    have hnxt : d.sndNxt = seg.ackSeq := congrArg (·.sndNxt) hd
    have huna : d.sndUna = c.sndUna := congrArg (·.sndUna) hd
    have htw : d.onTimewaitList = c.onTimewaitList := congrArg (·.onTimewaitList) hd
    rw [core_updateRetransmissionTimer]
    change { d.core with inRto := decide (tcpSeqGt d.sndNxt d.sndUna) && !d.onTimewaitList } = _
    rw [hnxt, huna, htw, hd]
  unfold handleActiveOpen
  simp only
  cases hparse : parseTCPOptions env.curTs seg.opt seg.optLen c₁ with
  | none => exact htimer _ _ _ (core_fault_skipped c₁ rfl)
  | some d => exact htimer d _ _ (core_parseTCPOptions hparse)

/-- The stream is watched by the idle timer, if there is one. -/
theorem core_watchTimeout (cfg : Config) (c : Conn) :
    (if 0 < cfg.tcpTimeout then addtoTimeoutList c else c).core = c.core := by
  split
  · exact core_addtoTimeoutList c
  · rfl

/-- What the SYN/ACK sets before it is known whether there is a socket. -/
def Endpoint.opened (p : Endpoint) (seg : Segment) : Endpoint :=
  { p with
    irs := seg.seq
    sndNxt := seg.ackSeq
    rcvNxt := seg.seq + 1
    lastAckSeq := seg.ackSeq
    inRto := false
    state := .established }

theorem core_completeActiveOpen (env : Env) (seg : Segment) (c : Conn) :
    (completeActiveOpen env seg c).core =
      if c.socket.isSome then { c.core.opened seg with onControlList := true }
      else Endpoint.destroy { c.core.opened seg with closeReason := .activeClose } := by
  have hfinish : ∀ e : Conn, e.core = c.core.opened seg →
      (if e.socket.isSome then
        (if 0 < env.cfg.tcpTimeout then addtoTimeoutList (addtoControlList (raiseWriteEvent e))
          else addtoControlList (raiseWriteEvent e))
      else
        destroyTCPStream env.cfg
          { e.act (.sentReset 0 (seg.payloadEnd + 1) true) with closeReason := .activeClose }).core =
        if c.socket.isSome then { c.core.opened seg with onControlList := true }
        else Endpoint.destroy { c.core.opened seg with closeReason := .activeClose } := by
    intro e he
    have hsock : e.socket.isSome = c.socket.isSome := congrArg (·.hasSocket) he
    rw [hsock]
    split
    · rw [core_watchTimeout, core_addtoControlList, core_raiseWriteEvent, he]
    · have hreset := core_act_skipped e (a := .sentReset 0 (seg.payloadEnd + 1) true) rfl
      rw [core_destroyTCPStream]
      change Endpoint.destroy { (e.act (.sentReset 0 (seg.payloadEnd + 1) true)).core with
        closeReason := .activeClose } = _
      rw [hreset, he]
  have hopen := core_handleActiveOpen env seg c
  unfold completeActiveOpen
  simp only
  generalize handleActiveOpen env seg c = d at hopen ⊢
  have hirs : d.irs = seg.seq := congrArg (·.irs) hopen
  have hoff := core_removeFromRTOList { d with nrtx := 0, rcvNxt := d.irs + 1 }
  refine hfinish { removeFromRTOList { d with nrtx := 0, rcvNxt := d.irs + 1 } with
    state := .established } ?_
  change { (removeFromRTOList { d with nrtx := 0, rcvNxt := d.irs + 1 }).core with
    state := .established } = _
  rw [hoff]
  change { d.core with rcvNxt := d.irs + 1, inRto := false, state := .established } = _
  rw [hopen, hirs]
  rfl

theorem handleSynSent_effects (env : Env)
    (hstate : c.state = .synSent) (hreset : seg.rst = true → c.haveReset = true)
    (hsafe : PacketSafe avoid env seg c) :
    Effects avoid (some seg) c.core (handleSynSent env seg c).core := by
  have hanswer : (c.act (.sentReset seg.ackSeq 0 false)).core = c.core := core_act_skipped c rfl
  unfold handleSynSent
  split
  case isTrue =>
    split
    · exact .refl
    · rw [hanswer]
  case isFalse hack =>
    cases hseg : seg.ack with
    | false =>
      simp only [Bool.false_eq_true, if_false]
      split_ifs with hrst hsyn
      · exact .refl
      · rw [core_addtoControlList]
        refine .single (.synOnly hstate fun ha => ?_)
        have := hsafe.bare ha hstate hsyn (by simpa using hrst)
        simp [hseg] at this
      · exact .refl
    | true =>
      simp only [hseg, true_and, not_or] at hack
      have hacc : c.core.acceptable seg := ⟨hseg, hack⟩
      simp only [if_true]
      split_ifs with hrst hsyn
      · rw [core_notifyOrDestroy]
        by_cases hsock : c.socket.isSome = true
        · rw [if_pos hsock]
          exact .single (.rstAck rfl hstate hsock hrst (hreset hrst) hack.1 hack.2)
        · rw [if_neg hsock]
          exact .single (.answeredOrphan hstate (by simpa using hsock) ⟨rfl, rfl, rfl, rfl⟩)
      · rw [core_completeActiveOpen]
        by_cases hsock : c.socket.isSome = true
        · rw [if_pos hsock]
          exact .single (.synAck rfl hstate hsock hack.1 hack.2)
        · rw [if_neg hsock]
          exact .single (.answeredOrphan hstate (by simpa using hsock) ⟨rfl, rfl, rfl, rfl⟩)
      · refine .single (.pureAck hstate fun ha => ?_)
        exact hsafe.pure ha hstate (by simpa using hsyn) (by simpa using hrst) hacc

theorem core_offerToListener (env : Env) (c : Conn) :
    (offerToListener env c).core =
      { c.core with
        state := if env.listener = .full then .closed else c.state
        closeReason := if env.listener = .full then .notAccepted else c.closeReason
        onControlList := c.onControlList || decide (env.listener = .full)
        acceptq := if env.listener = .queued then c.acceptq + 1 else c.acceptq } := by
  unfold offerToListener
  cases env.listener with
  | absent =>
    simp only [reduceCtorEq, decide_false, Bool.or_false, if_false]
    exact core_fault_skipped c rfl
  | full =>
    simp only [decide_true, Bool.or_true, if_true, reduceCtorEq, if_false]
    rw [core_watchTimeout, core_addtoControlList]
    rfl
  | queued =>
    simp only [reduceCtorEq, decide_false, Bool.or_false, if_false, if_true]
    rw [core_watchTimeout]
    rfl

theorem core_handleSynRcvd (env : Env) (hack : seg.ack = true) (hseq : seg.ackSeq = c.iss + 1) :
    (handleSynRcvd env seg c).core =
      { c.core with
        sndUna := c.sndUna + 1
        sndNxt := c.iss + 1
        rcvNxt := c.irs + 1
        inRto := false
        state := if env.listener = .full then .closed else .established
        closeReason := if env.listener = .full then .notAccepted else c.closeReason
        onControlList := c.onControlList || decide (env.listener = .full)
        acceptq := if env.listener = .queued then c.acceptq + 1 else c.acceptq } := by
  have hoff := core_removeFromRTOList
    { c with
      sndUna := c.sndUna + 1
      sndNxt := c.iss + 1
      cwnd := if c.cwnd = 1 then c.mss.setWidth 32 * 2 else c.mss.setWidth 32
      nrtx := 0
      rcvNxt := c.irs + 1 }
  unfold handleSynRcvd
  simp only [hack, hseq, if_true, ne_eq, not_true_eq_false, if_false]
  generalize removeFromRTOList _ = d at hoff ⊢
  have hctl : d.onControlList = c.onControlList := congrArg (·.onControlList) hoff
  have hreason : d.closeReason = c.closeReason := congrArg (·.closeReason) hoff
  have hacc : d.acceptq = c.acceptq := congrArg (·.acceptq) hoff
  rw [core_offerToListener]
  change { d.core with
    state := if env.listener = ListenerAnswer.full then .closed else .established
    closeReason := if env.listener = ListenerAnswer.full then .notAccepted else d.closeReason
    onControlList := d.onControlList || decide (env.listener = ListenerAnswer.full)
    acceptq := if env.listener = ListenerAnswer.queued then d.acceptq + 1 else d.acceptq } = _
  rw [hctl, hreason, hacc, hoff]
  rfl

theorem handleSynRcvd_effects (env : Env) (hstate : c.state = .synRcvd) :
    Effects avoid (some seg) c.core (handleSynRcvd env seg c).core := by
  by_cases hack : seg.ack = true
  · by_cases hseq : seg.ackSeq = c.iss + 1
    · rw [core_handleSynRcvd env hack hseq]
      exact .single (.handshake env.listener rfl hstate)
    · have hsame : handleSynRcvd env seg c = c := by
        rw [handleSynRcvd, if_pos hack, if_pos hseq]
      rw [hsame]
  · have hbare : handleSynRcvd env seg c = addtoControlList { c with sndNxt := c.iss } := by
      rw [handleSynRcvd, if_neg hack]
    rw [hbare, core_addtoControlList]
    exact .single (.synRcvdBare hstate)

/-! ## Established -/

theorem finEstablished_effects (hfin : seg.fin = true)
    (hstate : c.state = .established ∨ c.state = .closed ∧ c.closeReason = .noMem) :
    Effects avoid (some seg) c.core (finEstablished seg c).core := by
  unfold finEstablished
  split
  case isTrue hseq =>
    rw [core_raiseReadEvent, core_addtoControlList]
    exact .single (.finEstablished rfl hstate hfin hseq)
  case isFalse => exact enqueueACK_effects .now c

theorem handleEstablished_around (env : Env)
    (hstate : c.state = .established) (hsyn : seg.syn = false) (hsafe : AckSafe avoid seg c.core) :
    AroundPayload avoid env seg c c (handleEstablished env seg c) := by
  refine ⟨.refl, .inl hstate, rfl, rfl, rfl, ?_⟩
  have hrecv := receivePayload_receives env seg c
  have hack : AckSafe avoid seg (receivePayload env seg c).core := by
    rcases Nat.eq_zero_or_pos seg.payload.length with hz | hp
    · rw [receivePayload, if_pos hz]
      exact hsafe
    · refine hsafe.received hrecv hp ?_
      have hcs : c.core.state = .established := hstate
      rcases hrecv.state with ⟨hs, -⟩ | ⟨hs, -⟩
      · rw [hcs] at hs
        simp only [Endpoint.adjusted, hs, hcs]
      · simp only [Endpoint.adjusted, hs, hcs]
  have hst := hrecv.state
  unfold handleEstablished
  simp only [hsyn, Bool.false_eq_true, if_false]
  generalize receivePayload env seg c = d at hack hst ⊢
  obtain ⟨heff, hs, hr⟩ : Effects avoid (some seg) d.core
      (if seg.ack then processACK env seg d else d).core ∧
      (if seg.ack then processACK env seg d else d).state = d.state ∧
      (if seg.ack then processACK env seg d else d).closeReason = d.closeReason := by
    split
    · obtain ⟨he, hframe, -⟩ : Effects avoid (some seg) d.core _ ∧ _ := processACK_effects env hack
      exact ⟨he, congrArg (·.state) hframe, congrArg (·.closeReason) hframe⟩
    · exact ⟨.refl, rfl, rfl⟩
  generalize (if seg.ack then processACK env seg d else d) = e at heff hs hr ⊢
  split
  case isFalse => exact heff
  case isTrue hfin =>
    refine heff.trans (finEstablished_effects hfin ?_)
    rw [hs, hr]
    exact hst.imp (fun h => h.1.trans hstate) id

theorem handleEstablished_effects (env : Env)
    (hstate : c.state = .established) (hrst : seg.rst = false)
    (hsafe : PacketSafe avoid env seg c) :
    Effects avoid (some seg) c.core (handleEstablished env seg c).core := by
  cases hsyn : seg.syn with
  | true =>
    rw [handleEstablished, if_pos hsyn, core_addtoControlList]
    exact .single (.synEstablished rfl hstate fun ha => hsafe.established ha hstate hsyn hrst)
  | false =>
    exact (handleEstablished_around env hstate hsyn hsafe.ack).effects hsafe.payload hsafe.memory

/-! ## Closing -/

theorem handleCloseWait_effects (env : Env)
    (hstate : c.state = .closeWait) (hsafe : AckSafe avoid seg c.core) :
    Effects avoid sg c.core (handleCloseWait env seg c).core := by
  unfold handleCloseWait
  split
  · rw [core_addtoControlList]
    refine .single (.control (by simp [hstate]) fun _ _ hout => ?_)
    simp [finOut, hstate] at hout
  · exact (processACK_effects env hsafe).1

/-- The acknowledgement of the FIN empties the buffer that ends at the FIN. -/
theorem drained_of_finAck {c d : Conn} (hframe : c.core.Acks d.core)
    (hdrains : AckDrains (c.core.adjusted seg.ackSeq) d.sndbuf)
    (hstate : c.state = .finWait1 ∨ c.state = .closing ∨ c.state = .lastAck)
    (hsent : d.isFinSent = true) (hseq : seg.ackSeq = d.fss + 1) : d.core.drained := by
  have hfin : c.isFinSent = true := (congrArg (·.isFinSent) hframe).symm.trans hsent
  have hfss : d.fss = c.fss := congrArg (·.fss) hframe
  have hadjust : c.core.adjusted seg.ackSeq = d.fss := by
    have hack : seg.ackSeq - 1 = d.fss := by
      rw [hseq]
      ring
    rw [hfss] at hseq
    rcases hstate with hs | hs | hs <;>
      simp only [Endpoint.adjusted, Conn.core_state, hs, Conn.core_isFinSent, hfin,
        Conn.core_fss, hseq, and_self, if_true] <;> rw [← hseq, hack]
  intro b hb hend
  exact hdrains b hb (hend.trans hadjust.symm)

theorem handleLastAck_effects (env : Env) (hstate : c.state = .lastAck)
    (hsafe : AckSafe avoid seg c.core)
    (hreq : avoid .finRequeued → ¬ tcpSeqLt seg.seq c.rcvNxt →
      ¬ (seg.ack = true ∧ seg.ackSeq = c.fss + 1) → c.onControlList = false →
      c.sndNxt ≠ c.fss + 1) :
    Effects avoid (some seg) c.core (handleLastAck env seg c).core := by
  unfold handleLastAck
  split
  case isTrue => exact .refl
  next hnew =>
  split
  case isFalse hno =>
    exact control_effects (by simp [hstate]) fun ha hoff hout =>
      hreq ha hnew (fun h => hno h.1) hoff hout.2
  case isTrue hack =>
    obtain ⟨heff, hframe, hdrains, hmoved⟩ : Effects avoid (some seg) c.core _ ∧ _ :=
      processACK_effects env hsafe
    simp only
    generalize processACK env seg c = d at heff hframe hdrains hmoved ⊢
    have hs : d.state = c.state := congrArg (·.state) hframe
    have hctl : d.onControlList = c.onControlList := congrArg (·.onControlList) hframe
    have hfss : d.fss = c.fss := congrArg (·.fss) hframe
    split_ifs with hsent hseq
    · exact heff
    · have hfin : d.isFinSent = true := by simpa using hsent
      have htimer := core_updateRetransmissionTimer env { d with sndUna := d.sndUna + 1 }
      rw [core_destroyTCPStream]
      refine heff.tail ?_
      generalize updateRetransmissionTimer env { d with sndUna := d.sndUna + 1 } = e at htimer ⊢
      have hcore : ({ e with state := .closed, closeReason := .passiveClose } : Conn).core =
          { d.core with
            sndUna := d.sndUna + 1
            state := .closed
            closeReason := .passiveClose
            inRto := decide (tcpSeqGt d.sndNxt (d.sndUna + 1)) && !d.onTimewaitList } := by
        change { e.core with state := .closed, closeReason := .passiveClose } = _
        rw [htimer]
        rfl
      rw [hcore]
      exact .lastAcked rfl (hs.trans hstate) hack hfin hseq
        (drained_of_finAck hframe hdrains (.inr (.inr hstate)) hfin hseq)
    · -- a number that does not acknowledge the FIN does not move `snd_nxt` behind it either
      refine heff.trans (control_effects (by simp [hs, hstate]) fun ha hoff hout => ?_)
      rw [hfss] at hseq
      have hnxt : d.sndNxt = c.fss + 1 := hfss ▸ hout.2
      rcases hmoved with h | h
      · exact hreq ha hnew (fun hacked => hseq hacked.2) (hctl ▸ hoff) (h.symm.trans hnxt)
      · refine hseq (Eq.trans ?_ (h.symm.trans hnxt))
        simp only [Endpoint.adjusted, Conn.core_state, hstate, Conn.core_fss, hseq, and_false,
          if_false]

/-- The acknowledgement of our FIN in FIN_WAIT_1. -/
theorem core_finAcked (h : c.isFinSent ∧ seg.ackSeq = c.fss + 1) :
    (finAcked seg c).core =
      { c.core with
        sndUna := seg.ackSeq
        sndNxt := if tcpSeqGt seg.ackSeq c.sndNxt then seg.ackSeq else c.sndNxt
        inRto := false
        state := .finWait2 } := by
  have hwaits : ∀ d : Conn, ({ removeFromRTOList { d with nrtx := 0 } with state := .finWait2 } : Conn).core =
      { d.core with inRto := false, state := .finWait2 } := by
    intro d
    have hoff := core_removeFromRTOList { d with nrtx := 0 }
    generalize removeFromRTOList { d with nrtx := 0 } = e at hoff ⊢
    change { e.core with state := .finWait2 } = _
    rw [hoff]
    rfl
  unfold finAcked
  rw [if_pos h, hwaits]
  by_cases hgt : tcpSeqGt seg.ackSeq c.sndNxt
  · simp only [if_pos hgt]
    rfl
  · simp only [if_neg hgt]
    rfl

theorem finAcked_effects (hstate : c.state = .finWait1) (hack : seg.ack = true)
    (hdrained : c.isFinSent = true → seg.ackSeq = c.fss + 1 → c.core.drained) :
    Effects avoid (some seg) c.core (finAcked seg c).core ∧
      (finAcked seg c).core = { c.core with
        sndUna := (finAcked seg c).sndUna
        sndNxt := (finAcked seg c).sndNxt
        inRto := (finAcked seg c).core.inRto
        state := (finAcked seg c).state } ∧
      ((finAcked seg c).state = .finWait1 ∨ (finAcked seg c).state = .finWait2) := by
  by_cases h : c.isFinSent = true ∧ seg.ackSeq = c.fss + 1
  · have hcore := core_finAcked h
    generalize finAcked seg c = d at hcore ⊢
    have huna : d.sndUna = seg.ackSeq := congrArg (·.sndUna) hcore
    have hnxt : d.sndNxt = if tcpSeqGt seg.ackSeq c.sndNxt then seg.ackSeq else c.sndNxt :=
      congrArg (·.sndNxt) hcore
    have hwaits : d.state = .finWait2 := congrArg (·.state) hcore
    refine ⟨?_, ?_, .inr hwaits⟩
    · rw [hcore]
      exact .single (.finAcked rfl hstate hack h.1 h.2 (hdrained h.1 h.2))
    · rw [hcore, huna, hnxt, hwaits]
  · have hsame : finAcked seg c = c := if_neg h
    rw [hsame]
    exact ⟨.refl, rfl, .inl hstate⟩

/-- The peer's FIN in FIN_WAIT_1 or FIN_WAIT_2, or after memory ran out there. -/
theorem finClosing_effects (env : Env) {d : Conn} (hfin : seg.fin = true)
    (hstate : d.state = .finWait1 ∨ d.state = .finWait2 ∨
      d.state = .closed ∧ d.closeReason = .noMem)
    (hearly : avoid .earlyFin → d.isFinSent = true) :
    Effects avoid (some seg) d.core (finClosing env seg d).core := by
  by_cases hseq : seg.payloadEnd = d.rcvNxt
  case neg =>
    have hsame : finClosing env seg d = d := by rw [finClosing, if_neg hseq]
    rw [hsame]
  case pos =>
    rcases hstate with hs | hs | ⟨hs, -⟩
    · have hres : finClosing env seg d =
          addtoControlList { d with rcvNxt := d.rcvNxt + 1, state := .closing } := by
        simp [finClosing, hseq, hs]
      rw [hres, core_addtoControlList]
      exact .single (.finClosing rfl hs hfin hseq hearly)
    · have hres : finClosing env seg d = addtoControlList
          (addtoTimewaitList env { d with rcvNxt := d.rcvNxt + 1, state := .timeWait }) := by
        simp [finClosing, hseq, hs]
      rw [hres, core_addtoControlList, core_addtoTimewaitList]
      exact .single (.finTimewait rfl (.inl hs) hfin hseq)
    · have hres : finClosing env seg d = addtoControlList { d with rcvNxt := d.rcvNxt + 1 } := by
        simp [finClosing, hseq, hs]
      rw [hres, core_addtoControlList]
      exact .single (.finLate rfl hs hseq)

/-- FIN_WAIT_1 takes the acknowledgement, then the payload, then the FIN. -/
theorem handleFinWait1_around (env : Env) (hstate : c.state = .finWait1)
    (hnew : ¬ tcpSeqLt seg.seq c.rcvNxt) (hack : seg.ack = true) (hsafe : AckSafe avoid seg c.core)
    (hearly : avoid .earlyFin → seg.fin = true → c.isFinSent = true) :
    AroundPayload avoid env seg c (finAcked seg (processACK env seg c))
      (handleFinWait1 env seg c) := by
  unfold handleFinWait1
  simp only [hnew, hack, if_false, if_true]
  obtain ⟨heff, hframe, hdrains, -⟩ : Effects avoid (some seg) c.core _ ∧ _ :=
    processACK_effects env hsafe
  generalize processACK env seg c = d at heff hframe hdrains ⊢
  have hs : d.state = .finWait1 := (congrArg (·.state) hframe).trans hstate
  obtain ⟨heff₁, hframe₁, hs₁⟩ : Effects avoid (some seg) d.core _ ∧ _ :=
    finAcked_effects hs hack fun hsent hseq =>
      drained_of_finAck hframe hdrains (.inl hstate) hsent hseq
  generalize finAcked seg d = e at heff₁ hframe₁ hs₁ ⊢
  refine ⟨heff.trans heff₁, .inr hs₁, (congrArg (·.live) hframe₁).trans (congrArg (·.live) hframe),
    (congrArg (·.irs) hframe₁).trans (congrArg (·.irs) hframe),
    (congrArg (·.trace) hframe₁).trans (congrArg (·.trace) hframe), ?_⟩
  have hrecv := receivePayload_receives env seg e
  have hsent : (receivePayload env seg e).isFinSent = c.isFinSent :=
    (congrArg (·.isFinSent) hrecv.frame).trans
      ((congrArg (·.isFinSent) hframe₁).trans (congrArg (·.isFinSent) hframe))
  have hs₂ := hrecv.state
  generalize receivePayload env seg e = g at hs₂ hsent ⊢
  split
  case isFalse => exact .refl
  case isTrue hfin =>
    refine finClosing_effects env hfin ?_ fun ha => hsent.trans (hearly ha hfin)
    rcases hs₂ with ⟨hsame, -⟩ | hmem
    · exact hs₁.imp (fun h => hsame.trans h) fun h => .inl (hsame.trans h)
    · exact .inr (.inr hmem)

theorem handleFinWait1_effects (env : Env) (hstate : c.state = .finWait1)
    (hrst : seg.rst = false) (hsafe : PacketSafe avoid env seg c) :
    Effects avoid (some seg) c.core (handleFinWait1 env seg c).core := by
  by_cases hold : tcpSeqLt seg.seq c.rcvNxt
  · rw [handleFinWait1, if_pos hold]
    exact control_effects (by simp [hstate]) fun ha hoff hout =>
      hsafe.old ha hstate hrst hold hoff hout.2
  · by_cases hack : seg.ack = true
    · exact (handleFinWait1_around env hstate hold hack hsafe.ack
        fun ha hfin => hsafe.early ha hstate hfin hack hold).effects hsafe.payload hsafe.memory
    · rw [handleFinWait1, if_neg hold, if_neg hack]

theorem handleFinWait2_around (env : Env) (hstate : c.state = .finWait2)
    (hack : seg.ack = true) (hsafe : AckSafe avoid seg c.core) :
    AroundPayload avoid env seg c (processACK env seg c) (handleFinWait2 env seg c) := by
  unfold handleFinWait2
  simp only [hack, if_true]
  obtain ⟨heff, hframe, -⟩ : Effects avoid (some seg) c.core _ ∧ _ := processACK_effects env hsafe
  generalize processACK env seg c = d at heff hframe ⊢
  have hs : d.state = .finWait2 := (congrArg (·.state) hframe).trans hstate
  refine ⟨heff, .inr (.inr hs), congrArg (·.live) hframe, congrArg (·.irs) hframe,
    congrArg (·.trace) hframe, ?_⟩
  have hs₁ := (receivePayload_receives env seg d).state
  generalize receivePayload env seg d = e at hs₁ ⊢
  split_ifs with hfin hseq
  · refine .single ?_
    rw [core_addtoControlList, core_addtoTimewaitList]
    exact .finTimewait rfl (hs₁.imp (fun h => h.1.trans hs) id) hfin hseq
  · exact .refl
  · exact .refl

theorem handleFinWait2_effects (env : Env) (hstate : c.state = .finWait2)
    (hsafe : PacketSafe avoid env seg c) :
    Effects avoid (some seg) c.core (handleFinWait2 env seg c).core := by
  by_cases hack : seg.ack = true
  · exact (handleFinWait2_around env hstate hack hsafe.ack).effects hsafe.payload hsafe.memory
  · rw [handleFinWait2, if_neg hack]

theorem handleClosing_effects (env : Env) (hstate : c.state = .closing)
    (hsafe : AckSafe avoid seg c.core) :
    Effects avoid (some seg) c.core (handleClosing env seg c).core := by
  unfold handleClosing
  split
  case isFalse => exact .refl
  case isTrue hack =>
    obtain ⟨heff, hframe, hdrains, -⟩ : Effects avoid (some seg) c.core _ ∧ _ :=
      processACK_effects env hsafe
    simp only
    generalize processACK env seg c = d at heff hframe hdrains ⊢
    have hs : d.state = .closing := (congrArg (·.state) hframe).trans hstate
    split_ifs with hsent hseq
    · exact heff
    · exact heff
    · have hfin : d.isFinSent = true := by simpa using hsent
      have hseq' : seg.ackSeq = d.fss + 1 := by simpa using hseq
      have htimer := core_updateRetransmissionTimer env
        { d with sndUna := seg.ackSeq, sndNxt := seg.ackSeq }
      refine heff.tail ?_
      generalize updateRetransmissionTimer env
        { d with sndUna := seg.ackSeq, sndNxt := seg.ackSeq } = e at htimer ⊢
      have hin : e.core.inRto = false := by
        have := congrArg (·.inRto) htimer
        simpa [tcpSeqGt] using this
      have hcore : (addtoTimewaitList env { e with state := .timeWait }).core =
          { d.core with
            sndUna := seg.ackSeq
            sndNxt := seg.ackSeq
            state := .timeWait
            onTimewaitList := true
            inRto := false } := by
        rw [core_addtoTimewaitList]
        change { e.core with
          state := .timeWait
          onTimewaitList := true
          inRto := e.core.inRto && e.onTimewaitList } = _
        rw [hin, Bool.false_and, htimer]
        rfl
      rw [hcore]
      exact .closingAcked rfl hs hack hfin hseq'
        (drained_of_finAck hframe hdrains (.inr (.inl hstate)) hfin hseq')

theorem handleTimeWait_effects (env : Env)
    (hstate : c.state = .timeWait) : Effects avoid sg c.core (handleTimeWait env c).core := by
  have hquiet : ∀ d : Conn, d.state = .timeWait →
      Effects avoid sg d.core (addtoControlList d).core := by
    intro d hd
    rw [core_addtoControlList]
    refine .single (.control (by simp [hd]) fun _ _ hout => ?_)
    simp [finOut, hd] at hout
  unfold handleTimeWait
  split
  case isFalse => exact hquiet c hstate
  case isTrue hon =>
    have hcore : (addtoTimewaitList env (removeFromTimewaitList c)).core =
        { c.core with onTimewaitList := true, inRto := false } := by
      have hoff := core_removeFromTimewaitList c
      have htw : (removeFromTimewaitList c).onTimewaitList = false :=
        congrArg (·.onTimewaitList) hoff
      rw [core_addtoTimewaitList, htw, Bool.and_false, hoff]
    have hrestart : Effects avoid sg c.core
        (addtoTimewaitList env (removeFromTimewaitList c)).core := by
      rw [hcore]
      exact .single (.restartTimewait hstate (by simp))
    exact hrestart.trans (hquiet _ ((congrArg (·.state) hcore).trans hstate))

/-! ## The packet -/

theorem AckSafe.congr {p q : Endpoint} (h : AckSafe avoid seg p)
    (hq : q = { p with haveReset := q.haveReset }) : AckSafe avoid seg q := by
  rw [hq]
  exact ⟨h.stale, h.far⟩

/-- Only the acknowledgement of the SYN/ACK takes SYN_RCVD to ESTABLISHED. -/
theorem handshake_segment (hstate : c.state = .synRcvd)
    (hest : (handleSynRcvd env seg c).state = .established) :
    seg.ack = true ∧ seg.ackSeq = c.iss + 1 := by
  by_contra hcon
  have hsame : (handleSynRcvd env seg c).state = c.state := by
    by_cases hack : seg.ack = true
    · rw [handleSynRcvd, if_pos hack, if_pos fun hseq => hcon ⟨hack, hseq⟩]
    · rw [handleSynRcvd, if_neg hack]
      exact congrArg (·.state) (core_addtoControlList { c with sndNxt := c.iss })
  rw [hsame, hstate] at hest
  cases hest

/-- The handshake is complete, and the payload of the segment is handled in ESTABLISHED. -/
theorem PacketSafe.established_of_handshake
    (hsafe : PacketSafe avoid env seg c) (hstate : c.state = .synRcvd)
    (hest : (handleSynRcvd env seg c).state = .established) (hpay : 0 < seg.payload.length) :
    PacketSafe avoid env seg (handleSynRcvd env seg c) := by
  obtain ⟨hack, hseq⟩ := handshake_segment hstate hest
  have hcore := core_handleSynRcvd env hack hseq
  have htrace : (handleSynRcvd env seg c).core.trace = c.core.trace := congrArg (·.trace) hcore
  have hlive : (handleSynRcvd env seg c).onHashTable = c.onHashTable := congrArg (·.live) hcore
  have hirs : (handleSynRcvd env seg c).irs = c.irs := congrArg (·.irs) hcore
  have hbuf : (handleSynRcvd env seg c).core.sndbuf = c.core.sndbuf := congrArg (·.sndbuf) hcore
  have hnxt : (handleSynRcvd env seg c).sndNxt = c.iss + 1 := congrArg (·.sndNxt) hcore
  have hadjust : (handleSynRcvd env seg c).core.adjusted seg.ackSeq =
      c.core.adjusted seg.ackSeq := by
    simp only [Endpoint.adjusted, Conn.core_state, hest, hstate]
  generalize handleSynRcvd env seg c = d at hest htrace hlive hirs hbuf hnxt hadjust ⊢
  have hnot : ¬ d.core.thirdDup seg := fun hd => hpay.ne' hd.2.1
  constructor
  case ack =>
    refine ⟨fun _ hd => absurd hd hnot, ?_⟩
    rw [hadjust, hbuf]
    exact hsafe.ack.far
  case payload => exact fun hp => (hsafe.payload hp).congr hlive hirs htrace
  case memory => exact hsafe.memory
  case old | unacked | early => exact fun _ h => absurd h (by simp [hest])
  case established => exact fun _ _ _ _ => hseq.trans hnxt.symm
  case pure | bare => exact fun _ h => absurd h (by simp [hest])

theorem handleState_effects (env : Env)
    (hrst : c.state.code ≤ TcpState.synSent.code ∨ seg.rst = false)
    (hreset : seg.rst = true → c.haveReset = true)
    (hsafe : PacketSafe avoid env seg c) :
    Effects avoid (some seg) c.core (handleState env seg c).core := by
  have hnot : ∀ s : TcpState, c.state = s → TcpState.synSent.code < s.code → seg.rst = false := by
    rintro s rfl hlt
    exact hrst.resolve_left (by omega)
  unfold handleState
  cases hs : c.state with
  | closed =>
    simp only
    exact .refl
  | listen =>
    simp only
    exact handleListen_effects (.inl hs)
  | synSent =>
    simp only
    exact handleSynSent_effects env hs hreset hsafe
  | synRcvd =>
    simp only
    split_ifs with hsyn hpay
    · exact handleListen_effects (.inr hs)
    · refine (handleSynRcvd_effects env hs).trans ?_
      exact handleEstablished_effects env hpay.2 (hnot _ hs (by decide))
        (hsafe.established_of_handshake hs hpay.2 hpay.1)
    · exact handleSynRcvd_effects env hs
  | established =>
    simp only
    exact handleEstablished_effects env hs (hnot _ hs (by decide)) hsafe
  | closeWait =>
    simp only
    exact handleCloseWait_effects env hs hsafe.ack
  | lastAck =>
    simp only
    exact handleLastAck_effects env hs hsafe.ack fun ha =>
      hsafe.unacked ha hs (hnot _ hs (by decide))
  | finWait1 =>
    simp only
    exact handleFinWait1_effects env hs (hnot _ hs (by decide)) hsafe
  | finWait2 =>
    simp only
    exact handleFinWait2_effects env hs hsafe
  | closing =>
    simp only
    exact handleClosing_effects env hs hsafe.ack
  | timeWait =>
    simp only
    exact handleTimeWait_effects env hs

/-- The hazards, seen from the stream the state handler works on. -/
theorem PacketSafe.of_hazards {c d : Conn}
    (hlive : c.onHashTable = true) (hsafe : ∀ z, avoid z → ¬ z.hits c (.packet env seg))
    (hd : d.core = { c.core with haveReset := d.haveReset })
    (hvalid : TcpState.synRcvd.code < c.state.code → (validateSequence env seg c).2 = true) :
    PacketSafe avoid env seg d := by
  have hstate : d.state = c.state := congrArg (·.state) hd
  have hctl : d.onControlList = c.onControlList := congrArg (·.onControlList) hd
  have hnxt : d.sndNxt = c.sndNxt := congrArg (·.sndNxt) hd
  have hfss : d.fss = c.fss := congrArg (·.fss) hd
  have hrcv : d.rcvNxt = c.rcvNxt := congrArg (·.rcvNxt) hd
  have hsent : d.isFinSent = c.isFinSent := congrArg (·.isFinSent) hd
  have hacc : d.core.acceptable seg ↔ c.core.acceptable seg := by rw [hd]; rfl
  have hirs : d.irs = c.irs := congrArg (·.irs) hd
  have htrace : d.core.trace = c.core.trace := congrArg (·.trace) hd
  constructor
  case ack =>
    refine AckSafe.congr (p := c.core) ⟨?_, ?_⟩ hd
    · exact fun ha hdup hlt => hsafe _ ha ⟨env, seg, rfl, hdup, hlt⟩
    · exact fun ha b hb hfar => hsafe _ ha ⟨env, seg, b, rfl, hb, hfar⟩
  case payload =>
    intro hpay
    refine ⟨(congrArg (·.live) hd).trans hlive, fun ha => hsafe _ ha ⟨env, seg, rfl, hpay⟩,
      fun ha => ?_, fun S ha => ?_⟩
    · by_contra hcon
      exact hsafe _ ha ⟨env, seg, rfl, hcon⟩
    · by_contra hcon
      exact hsafe _ ha ⟨env, seg, rfl, hpay, fun hgen => hcon (hgen.congr hirs htrace)⟩
  case memory => exact fun ha hnone => hsafe _ ha (.inl ⟨env, seg, rfl, hnone⟩)
  case old =>
    rw [hstate, hctl, hnxt, hfss, hrcv]
    intro ha hs hrst hold hoff hout
    exact hsafe _ ha ⟨hoff, ⟨.inl hs, hout⟩, hrst,
      .inr ⟨hvalid (by simp [hs, TcpState.code]), .inl ⟨hs, hold⟩⟩⟩
  case unacked =>
    rw [hstate, hctl, hnxt, hfss, hrcv]
    intro ha hs hrst hnew hack hoff hout
    exact hsafe _ ha ⟨hoff, ⟨.inr hs, hout⟩, hrst,
      .inr ⟨hvalid (by simp [hs, TcpState.code]), .inr ⟨hs, hnew, hack⟩⟩⟩
  case early =>
    rw [hstate, hsent, hrcv]
    intro ha hs hfin hack hnew
    by_contra hunsent
    exact hsafe _ ha ⟨env, seg, rfl, hs, by simpa using hunsent, hfin, hack, hnew⟩
  case established =>
    intro ha hs hsyn hrst
    rw [hstate] at hs
    rw [hnxt]
    by_contra hne
    exact hsafe _ ha
      ⟨env, seg, rfl, hs, hsyn, hrst, hvalid (by simp [hs, TcpState.code]), hne⟩
  case pure =>
    exact fun ha hs hsyn hrst h => hsafe _ ha ⟨env, seg, rfl, hstate ▸ hs, hsyn, hrst, hacc.mp h⟩
  case bare =>
    intro ha hs hsyn hrst
    by_contra hack
    exact hsafe _ ha ⟨env, seg, rfl, hstate ▸ hs, hsyn, by simpa using hack, hrst⟩

theorem dispatchSegment_effects (env : Env)
    (hsafe : PacketSafe avoid env seg (admitSegment env seg c)) :
    Effects avoid (some seg) c.core (dispatchSegment env seg c).core := by
  have hmarked : seg.rst = true → (admitSegment env seg c).haveReset = true :=
    admitSegment_reset env c
  refine (admitSegment_effects env seg c).trans ?_
  unfold dispatchSegment
  simp only
  generalize admitSegment env seg c = d at hsafe hmarked ⊢
  split
  case isTrue h =>
    rw [if_pos (processRST_taken env seg.ackSeq h.2)]
    exact processRST_effects env h.1 (hmarked h.1)
  case isFalse h =>
    refine handleState_effects env ?_ hmarked hsafe
    rcases Bool.eq_false_or_eq_true seg.rst with hrst | hrst
    · exact .inl (not_lt.mp fun hlt => h ⟨hrst, hlt⟩)
    · exact .inr hrst

/-- A segment changes the endpoint of a live stream only by effects. -/
theorem processTCPPacket_effects
    (hlive : c.onHashTable = true) (hsafe : ∀ z, avoid z → ¬ z.hits c (.packet env seg)) :
    Effects avoid (some seg) c.core (processTCPPacket env seg c).core := by
  have hadmitted : ∀ d : Conn, d.core = c.core →
      (admitSegment env seg d).core = { c.core with haveReset := (admitSegment env seg d).haveReset } := by
    intro d hd
    have hcore := core_admitSegment env seg d
    have hreset : (admitSegment env seg d).haveReset = (d.haveReset || seg.rst) :=
      congrArg (·.haveReset) hcore
    rw [hcore, hreset, hd]
  by_cases hopen : TcpState.synRcvd.code < c.state.code
  · have hne : c.state ≠ .synSent := by
      intro hs
      simp [hs, TcpState.code] at hopen
    have hres : processTCPPacket env seg c = if (validateSequence env seg c).2 then
        dispatchSegment env seg (validateSequence env seg c).1
        else (validateSequence env seg c).1 := if_pos hopen
    obtain ⟨heff, hkept⟩ : Effects avoid (some seg) c.core _ ∧ _ :=
      validateSequence_effects env seg hne fun ha hrst hts hno hoff hout =>
        hsafe _ ha ⟨hoff, hout, hrst, .inl ⟨hts, hno⟩⟩
    by_cases hok : (validateSequence env seg c).2 = true
    · have hval := hres.trans (if_pos hok)
      rw [hval]
      exact heff.trans (dispatchSegment_effects env
        (.of_hazards hlive hsafe (hadmitted _ (hkept hok)) fun _ => hok))
    · rw [hres, if_neg hok]
      exact heff
  · have hres : processTCPPacket env seg c = dispatchSegment env seg c := if_neg hopen
    rw [hres]
    exact dispatchSegment_effects env
      (.of_hazards hlive hsafe (hadmitted c rfl) fun h => absurd h hopen)

end MtcpStack
