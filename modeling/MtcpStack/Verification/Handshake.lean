import MtcpStack.Verification.Opening

/-! # The opening handshake

Which sequence numbers a stream has settled on when it enters ESTABLISHED. A run is followed
together with the way the stream was opened and the SYN that made the peer's numbering known. -/

namespace MtcpStack

variable {avoid : Hazard → Prop} {seg : Segment} {c : Conn}

/-! ## Where a stream comes from -/

/-- Whether `mtcp_connect` opened the stream, and the sequence number of the peer's SYN once one
has been taken. -/
structure Origin where
  active : Bool
  peerSyn : Option U32
  deriving DecidableEq

/-- The sequence number of the SYN that the event makes the stream take in SYN_SENT. -/
def Event.synTaken (c : Conn) : Event → Option U32
  | .packet _ seg =>
    if c.state = .synSent ∧ seg.syn = true ∧ seg.rst = false ∧
        ¬ (seg.ack = true ∧ (tcpSeqLeq seg.ackSeq c.iss ∨ tcpSeqGt seg.ackSeq c.sndNxt)) then
      some seg.seq
    else none
  | _ => none

/-- The states a stream reaches, with its origin. -/
inductive ReachedFrom (avoid : Hazard → Prop) : Origin → Conn → Prop
  | active (cfg : Config) (iss : U32) (socket : Socket) (sid : ℕ) (sh : Shared) (queued : Bool) :
      ReachedFrom avoid ⟨true, none⟩ (mtcpConnect cfg iss socket sid sh queued)
  | passive (env : Env) (iss : U32) (sid : ℕ) (sh : Shared) (seg : Segment)
      (hsyn : seg.syn = true) (hack : seg.ack = false) :
      ReachedFrom avoid ⟨false, some seg.seq⟩ (handlePassiveOpen env iss sid sh seg)
  | step {o c e} (hreached : ReachedFrom avoid o c) (henabled : e.enabled c = true)
      (hsafe : ∀ z, avoid z → ¬ z.hits c e) :
      ReachedFrom avoid { o with peerSyn := o.peerSyn.or (e.synTaken c) } (e.apply c)

/-! ## Entering ESTABLISHED -/

/-- What the handlers of SYN_SENT and SYN_RCVD make of a segment. -/
def openingStep (env : Env) (seg : Segment) (c : Conn) : Conn :=
  let c := admitSegment env seg c
  if c.state = .synSent then handleSynSent env seg c else handleSynRcvd env seg c

/-- The segment takes the stream to ESTABLISHED. A listener without room closes the stream at
once, so in SYN_RCVD it is leaving that state that counts. -/
def Establishes (env : Env) (seg : Segment) (c : Conn) : Prop :=
  c.state = .synSent ∧ (openingStep env seg c).state = .established ∨
    c.state = .synRcvd ∧ seg.rst = false ∧ ¬ (seg.syn = true ∧ seg.seq = c.irs) ∧
      (openingStep env seg c).state ≠ .synRcvd

instance (env : Env) (seg : Segment) (c : Conn) : Decidable (Establishes env seg c) :=
  inferInstanceAs (Decidable (_ ∨ _))

theorem openingStep_synSent (env : Env) (seg : Segment) (hs : c.state = .synSent) :
    openingStep env seg c = handleSynSent env seg (admitSegment env seg c) := by
  have hd : (admitSegment env seg c).state = .synSent :=
    (congrArg (·.state) (core_admitSegment env seg c)).trans hs
  rw [openingStep, if_pos hd]

theorem processTCPPacket_synSent (env : Env) (seg : Segment) (hs : c.state = .synSent) :
    processTCPPacket env seg c = openingStep env seg c := by
  have hd : (admitSegment env seg c).state = .synSent :=
    (congrArg (·.state) (core_admitSegment env seg c)).trans hs
  have hcode : ¬ TcpState.synRcvd.code < c.state.code := by simp [hs, TcpState.code]
  have hrst : ¬ (seg.rst = true ∧ TcpState.synSent.code < (admitSegment env seg c).state.code) := by
    simp [hd]
  rw [processTCPPacket, if_neg hcode, dispatchSegment]
  simp only
  rw [if_neg hrst, handleState, hd, openingStep_synSent env seg hs]

/-- The SYN/ACK that SYN_SENT accepts. -/
theorem openingStep_synAck (env : Env) (hs : c.state = .synSent)
    (hsyn : seg.syn = true) (hrst : seg.rst = false) (hacc : c.core.acceptable seg) :
    (openingStep env seg c).core =
      if c.socket.isSome then
        { Endpoint.opened { c.core with sndUna := c.sndUna + 1 } seg with onControlList := true }
      else Endpoint.destroy
        { Endpoint.opened { c.core with sndUna := c.sndUna + 1 } seg with
          closeReason := .activeClose } := by
  have hadmitted := core_admitSegment env seg c
  unfold openingStep
  simp only
  generalize admitSegment env seg c = d at hadmitted ⊢
  rw [hrst, Bool.or_false] at hadmitted
  have hd : d.core = c.core := hadmitted
  have hstate : d.state = .synSent := (congrArg (·.state) hd).trans hs
  have hiss : d.iss = c.iss := congrArg (·.iss) hd
  have hnxt : d.sndNxt = c.sndNxt := congrArg (·.sndNxt) hd
  have huna : d.sndUna = c.sndUna := congrArg (·.sndUna) hd
  have hsock : d.socket.isSome = c.socket.isSome := congrArg (·.hasSocket) hd
  obtain ⟨hack, hlo, hhi⟩ := hacc
  have hin : ¬ (seg.ack = true ∧ (tcpSeqLeq seg.ackSeq d.iss ∨ tcpSeqGt seg.ackSeq d.sndNxt)) := by
    rw [hiss, hnxt]
    exact fun h => h.2.elim hlo hhi
  rw [if_pos hstate, handleSynSent, if_neg hin]
  simp only [hack, hsyn, hrst, if_true, Bool.false_eq_true, if_false]
  rw [core_completeActiveOpen]
  change (if d.socket.isSome = true then
    { Endpoint.opened { d.core with sndUna := d.sndUna + 1 } seg with onControlList := true }
    else Endpoint.destroy { Endpoint.opened { d.core with sndUna := d.sndUna + 1 } seg with
      closeReason := .activeClose }) = _
  rw [hsock, huna, hd]

theorem addtoControlList_state (c : Conn) : (addtoControlList c).state = c.state :=
  congrArg (·.state) (core_addtoControlList c)

theorem notifyOrDestroy_state (env : Env) (c : Conn) :
    (notifyOrDestroy env c).state = c.state := by
  have hcore := congrArg (·.state) (core_notifyOrDestroy env c)
  split at hcore <;> exact hcore

/-- Only an acceptable SYN/ACK takes SYN_SENT to ESTABLISHED. -/
theorem synAck_of_established {env : Env} (hs : c.state = .synSent)
    (hest : (openingStep env seg c).state = .established) :
    seg.syn = true ∧ seg.rst = false ∧ c.core.acceptable seg := by
  have hadmitted := core_admitSegment env seg c
  revert hest
  unfold openingStep
  simp only
  generalize admitSegment env seg c = d at hadmitted ⊢
  have hstate : d.state = .synSent := (congrArg (·.state) hadmitted).trans hs
  have hiss : d.iss = c.iss := congrArg (·.iss) hadmitted
  have hnxt : d.sndNxt = c.sndNxt := congrArg (·.sndNxt) hadmitted
  rw [if_pos hstate, handleSynSent]
  split
  case isTrue => split <;> intro hest <;> simp [Conn.act, hstate] at hest
  case isFalse hin =>
    rw [hiss, hnxt] at hin
    cases hack : seg.ack with
    | false =>
      simp only [Bool.false_eq_true, if_false]
      split_ifs <;> intro hest
      · simp [hstate] at hest
      · simp [addtoControlList_state] at hest
      · simp [hstate] at hest
    | true =>
      simp only [hack, true_and, not_or] at hin
      simp only [if_true]
      split_ifs with hrst hsyn <;> intro hest
      · simp [notifyOrDestroy_state] at hest
      · exact ⟨hsyn, by simpa using hrst, hack, hin⟩
      · simp [hstate] at hest

/-- Only an ACK of the own SYN makes a stream leave SYN_RCVD. -/
theorem ack_of_left_synRcvd {env : Env} (hs : c.state = .synRcvd)
    (hleft : (openingStep env seg c).state ≠ .synRcvd) :
    seg.ack = true ∧ seg.ackSeq = c.iss + 1 ∧
      (openingStep env seg c).core =
        (handleSynRcvd env seg (admitSegment env seg c)).core := by
  have hadmitted := core_admitSegment env seg c
  revert hleft
  unfold openingStep
  simp only
  generalize admitSegment env seg c = d at hadmitted ⊢
  have hstate : d.state = .synRcvd := (congrArg (·.state) hadmitted).trans hs
  have hiss : d.iss = c.iss := congrArg (·.iss) hadmitted
  have hnot : d.state ≠ .synSent := by simp [hstate]
  rw [if_neg hnot, ← hiss]
  intro hleft
  refine ⟨?_, ?_, rfl⟩
  · by_contra hack
    rw [handleSynRcvd, if_neg hack, addtoControlList_state] at hleft
    exact hleft hstate
  · by_contra hseq
    unfold handleSynRcvd at hleft
    split_ifs at hleft
    · exact hleft hstate
    · rw [addtoControlList_state] at hleft
      exact hleft hstate

/-! ## The listener

SYN_SENT is left without asking a listener. -/

section
variable (env : Env) (answer : ListenerAnswer) (seg : Segment) (c : Conn)

theorem updateRetransmissionTimer_listener :
    updateRetransmissionTimer { env with listener := answer } c = updateRetransmissionTimer env c := by
  unfold updateRetransmissionTimer
  rfl

theorem handleActiveOpen_listener :
    handleActiveOpen { env with listener := answer } seg c = handleActiveOpen env seg c := by
  unfold handleActiveOpen
  simp only [updateRetransmissionTimer_listener]

theorem completeActiveOpen_listener :
    completeActiveOpen { env with listener := answer } seg c = completeActiveOpen env seg c := by
  unfold completeActiveOpen
  rw [handleActiveOpen_listener]

theorem notifyOrDestroy_listener :
    notifyOrDestroy { env with listener := answer } c = notifyOrDestroy env c := by
  unfold notifyOrDestroy
  rfl

theorem handleSynSent_listener :
    handleSynSent { env with listener := answer } seg c = handleSynSent env seg c := by
  unfold handleSynSent
  simp only [completeActiveOpen_listener, notifyOrDestroy_listener]

end

/-! ## Runs -/

/-- Without simultaneous opens a SYN taken in SYN_SENT ends that state. -/
theorem synTaken_completes {env : Env} {n : U32}
    (htaken : (Event.packet env seg).synTaken c = some n)
    (hcross : ¬ Hazard.simultaneousOpen.hits c (.packet env seg)) :
    c.state = .synSent ∧ seg.syn = true ∧ seg.rst = false ∧ n = seg.seq ∧
      c.core.acceptable seg := by
  simp only [Event.synTaken] at htaken
  split at htaken
  case isFalse => cases htaken
  case isTrue h =>
    obtain ⟨hs, hsyn, hrst, hacc⟩ := h
    have hack : seg.ack = true := by
      by_contra hno
      exact hcross ⟨env, seg, rfl, hs, hsyn, by simpa using hno, hrst⟩
    simp only [hack, true_and, not_or] at hacc
    exact ⟨hs, hsyn, hrst, (Option.some.inj htaken).symm, hack, hacc⟩

/-- Every stream that is being opened keeps to the handshake of its origin. -/
theorem ReachedFrom.opening {o : Origin} (hpure : avoid .pureAck)
    (hcross : avoid .simultaneousOpen) (hreached : ReachedFrom avoid o c) :
    Opening (o.active = true ∧ o.peerSyn = none) (fun irs => o.active = false ∧ o.peerSyn = some irs)
      c.core := by
  induction hreached with
  | active cfg iss socket sid sh queued =>
    rw [core_mtcpConnect]
    refine ⟨fun _ _ => ⟨⟨rfl, rfl⟩, rfl, rfl, rfl, rfl, rfl, .inl ⟨?_, rfl, rfl, rfl⟩⟩, nofun, nofun⟩
    cases queued <;> simp
  | passive env iss sid sh seg hsyn =>
    rw [core_handlePassiveOpen env iss sid sh hsyn]
    exact ⟨nofun, fun _ _ => ⟨⟨rfl, rfl⟩, rfl, rfl⟩, nofun⟩
  | @step o c e _ henabled hsafe ih =>
    cases htaken : e.synTaken c with
    | none =>
      rw [Option.or_none]
      exact Effects.preserves (fun heff h => h.effect hpure (.inl hcross) heff)
        (Event.apply_effects henabled hsafe) ih
    | some n =>
      -- the SYN ends SYN_SENT, so nothing is left to show
      cases e with
      | packet env seg =>
        obtain ⟨hs, hsyn, hrst, -, hacc⟩ := synTaken_completes htaken (hsafe _ hcross)
        rw [Event.apply, processTCPPacket_synSent env seg hs, openingStep_synAck env hs hsyn hrst hacc]
        split
        · exact .away rfl
        · exact .dead rfl
      | _ => cases htaken

/-- The state of the handshake when a segment takes the stream to ESTABLISHED. -/
structure HandshakeDone (o : Origin) (env : Env) (seg : Segment) (c : Conn) : Prop where
  irs : o.peerSyn.or ((Event.packet env seg).synTaken c) = some (openingStep env seg c).irs
  rcvNxt : (openingStep env seg c).rcvNxt = (openingStep env seg c).irs + 1
  sndUna : (openingStep env seg c).sndUna = (openingStep env seg c).iss + 1
  sndNxt : (openingStep env seg c).sndNxt = (openingStep env seg c).iss + 1
  acked : seg.ack = true ∧ seg.ackSeq = (openingStep env seg c).iss + 1
  unaided : o.active = true → ∀ answer,
    openingStep { env with listener := answer } seg c = openingStep env seg c

theorem handshake_postcondition {o : Origin} {c : Conn} (hpure : avoid .pureAck)
    (hcross : avoid .simultaneousOpen) (hreached : ReachedFrom avoid o c)
    (hlive : c.onHashTable = true) {env : Env} {seg : Segment} (hest : Establishes env seg c) :
    HandshakeDone o env seg c := by
  have hopening := hreached.opening hpure hcross
  rcases hest with ⟨hs, hest⟩ | ⟨hs, -, -, hleft⟩
  · obtain ⟨hsyn, hrst, hacc⟩ := synAck_of_established hs hest
    obtain ⟨⟨-, hpeer⟩, huna, -, -, -, -, honce⟩ := hopening.synSent hlive hs
    have hack : seg.ackSeq = c.iss + 1 := synAck_acks_syn hacc.2.1 hacc.2.2 honce.sndNxt
    have hfields : (openingStep env seg c).irs = seg.seq ∧
        (openingStep env seg c).rcvNxt = seg.seq + 1 ∧
        (openingStep env seg c).sndUna = c.sndUna + 1 ∧
        (openingStep env seg c).sndNxt = seg.ackSeq ∧ (openingStep env seg c).iss = c.iss := by
      have hcore := openingStep_synAck env hs hsyn hrst hacc
      split at hcore <;>
        exact ⟨congrArg (·.irs) hcore, congrArg (·.rcvNxt) hcore, congrArg (·.sndUna) hcore,
          congrArg (·.sndNxt) hcore, congrArg (·.iss) hcore⟩
    obtain ⟨hirs, hrcv, huna', hnxt, hiss⟩ := hfields
    have htaken : (Event.packet env seg).synTaken c = some seg.seq := by
      rw [Event.synTaken, if_pos ⟨hs, hsyn, hrst, fun h => h.2.elim hacc.2.1 hacc.2.2⟩]
    refine ⟨?_, ?_, ?_, ?_, ⟨hacc.1, ?_⟩, fun _ answer => ?_⟩
    · rw [hpeer, htaken, hirs]
      rfl
    · rw [hrcv, hirs]
    · rw [huna', hiss]
      exact congrArg (· + 1) huna
    · rw [hnxt, hiss, hack]
    · rw [hiss, hack]
    · rw [openingStep_synSent _ seg hs, openingStep_synSent env seg hs, handleSynSent_listener]
      rfl
  · obtain ⟨hack, hseq, hcore⟩ := ack_of_left_synRcvd hs hleft
    obtain ⟨⟨hactive, hpeer⟩, huna, -⟩ := hopening.synRcvd hlive hs
    have hadmitted := core_admitSegment env seg c
    generalize admitSegment env seg c = d at hadmitted hcore
    have hirs : d.irs = c.irs := congrArg (·.irs) hadmitted
    have hiss : d.iss = c.iss := congrArg (·.iss) hadmitted
    have huna' : d.sndUna = c.sndUna := congrArg (·.sndUna) hadmitted
    rw [core_handleSynRcvd env hack (hiss ▸ hseq)] at hcore
    have hirs' : (openingStep env seg c).irs = d.irs := congrArg (·.irs) hcore
    have hiss' : (openingStep env seg c).iss = d.iss := congrArg (·.iss) hcore
    refine ⟨?_, ?_, ?_, ?_, ⟨hack, ?_⟩, fun ha => ?_⟩
    · rw [hpeer, hirs', hirs]
      rfl
    · rw [hirs']
      exact congrArg (·.rcvNxt) hcore
    · rw [hiss', hiss]
      exact (congrArg (·.sndUna) hcore).trans (congrArg (· + 1) (huna'.trans huna))
    · rw [hiss']
      exact congrArg (·.sndNxt) hcore
    · rw [hiss', hiss, hseq]
    · simp [hactive] at ha

/-! ### Crossing SYNs, and an ACK before the SYN/ACK -/

/-- The origin after a run. -/
def Origin.after (o : Origin) : Conn → List Event → Origin
  | _, [] => o
  | c, e :: es => after { o with peerSyn := o.peerSyn.or (e.synTaken c) } (e.apply c) es

theorem ReachedFrom.run {o : Origin} {es : List Event}
    (hreached : ReachedFrom (fun _ => False) o c) (hallowed : Event.allowed c es = true) :
    ReachedFrom (fun _ => False) (o.after c es) (es.foldl Event.apply c) := by
  induction es generalizing o c with
  | nil => exact hreached
  | cons e es ih =>
      obtain ⟨henabled, hrest⟩ := Bool.and_eq_true_iff.mp hallowed
      exact ih (.step hreached henabled fun _ ha => ha.elim) hrest

/-- A host on which nothing listens. -/
def deafEnv : Env := { quietEnv with listener := .absent }

/-- The stream that `mtcp_connect` opens with sequence number 100. -/
def connectingConn : Conn := mtcpConnect quietEnv.cfg 100 quietSocket 0 Shared.init true

theorem reached_connectingConn : Reached avoid connectingConn :=
  .born (.active quietEnv.cfg 100 quietSocket 0 Shared.init true)

/-- The SYN leaves, the peer answers it, and the answer is acknowledged. -/
def activeOpen (env : Env) : List Event :=
  [.connectq, .controlPass env [true], .packet env synAckSegment, .controlPass env [true]]

/-- The SYN leaves and meets the peer's SYN, with sequence number 500. -/
def crossingSyns : List Event :=
  [.connectq, .controlPass deafEnv [true], .packet deafEnv { plainSegment with syn := true },
    .controlPass deafEnv [true]]

/-- The SYN leaves and is acknowledged by a segment without SYN. -/
def earlyAck : List Event :=
  [.connectq, .controlPass deafEnv [true], .packet deafEnv { plainSegment with ack := true }]

/-- When SYNs cross, the ACK that completes the opening finds `irs` unset and asks for a listener
that does not exist. An ACK before the SYN/ACK moves `snd_una` twice. -/
theorem handshake_broken :
    (let c := crossingSyns.foldl Event.apply connectingConn
     let seg := { plainSegment with seq := 501, ack := true }
     ReachedFrom (fun _ => False) ⟨true, some 500⟩ c ∧ c.onHashTable = true ∧
       Establishes deafEnv seg c ∧ ¬ HandshakeDone ⟨true, some 500⟩ deafEnv seg c ∧
       (openingStep deafEnv seg c).irs = 0 ∧ (openingStep deafEnv seg c).rcvNxt = 1 ∧
       .fault .noListener ∈ (openingStep deafEnv seg c).log) ∧
    (let c := earlyAck.foldl Event.apply connectingConn
     let seg := { plainSegment with syn := true, ack := true }
     ReachedFrom (fun _ => False) ⟨true, none⟩ c ∧ c.onHashTable = true ∧
       Establishes deafEnv seg c ∧ ¬ HandshakeDone ⟨true, none⟩ deafEnv seg c ∧
       (openingStep deafEnv seg c).sndUna = (openingStep deafEnv seg c).iss + 2) := by
  have hborn : ReachedFrom (fun _ => False) ⟨true, none⟩ connectingConn :=
    .active quietEnv.cfg 100 quietSocket 0 Shared.init true
  have hcross : Origin.after ⟨true, none⟩ connectingConn crossingSyns = ⟨true, some 500⟩ := by
    decide +kernel
  have hearly : Origin.after ⟨true, none⟩ connectingConn earlyAck = ⟨true, none⟩ := by
    decide +kernel
  refine ⟨⟨hcross ▸ hborn.run (by decide +kernel), by decide +kernel, by decide +kernel,
    fun hdone => absurd hdone.irs (by decide +kernel), by decide +kernel⟩,
    hearly ▸ hborn.run (by decide +kernel), by decide +kernel, by decide +kernel,
    fun hdone => absurd hdone.sndUna (by decide +kernel), by decide +kernel⟩

theorem handshake_postcondition_active :
    let c := [Event.connectq, .controlPass deafEnv [true]].foldl Event.apply connectingConn
    HandshakeDone ⟨true, none⟩ deafEnv { plainSegment with syn := true, ack := true } c := by
  have hborn : ReachedFrom (fun z => z = .pureAck ∨ z = .simultaneousOpen) ⟨true, none⟩
      connectingConn := .active quietEnv.cfg 100 quietSocket 0 Shared.init true
  have hqueued := hborn.step (e := .connectq) (by decide +kernel) <| by
    rintro z (rfl | rfl) ⟨_, _, he, _⟩ <;> cases he
  have hsent := hqueued.step (e := .controlPass deafEnv [true]) (by decide +kernel) <| by
    rintro z (rfl | rfl) ⟨_, _, he, _⟩ <;> cases he
  exact handshake_postcondition (.inl rfl) (.inr rfl) hsent (by decide +kernel) (by decide +kernel)

/-! ### Every way into ESTABLISHED -/

theorem ReachedFrom.reached {o : Origin} (h : ReachedFrom avoid o c) :
    Reached avoid c := by
  induction h with
  | active => exact .born (.active ..)
  | passive env iss sid sh seg hsyn hack => exact .born (.passive env iss sid sh seg hsyn hack)
  | step _ henabled hsafe ih => exact .step ih henabled hsafe

/-- In SYN_RCVD only the handler of that state leads to ESTABLISHED. -/
theorem establishes_of_synRcvd {env : Env} (hs : c.state = .synRcvd)
    (hest : (processTCPPacket env seg c).state = .established) : Establishes env seg c := by
  refine .inr ⟨hs, ?_⟩
  have hadmitted := core_admitSegment env seg c
  have hcode : ¬ TcpState.synRcvd.code < c.state.code := by simp [hs]
  rw [processTCPPacket, if_neg hcode, dispatchSegment] at hest
  unfold openingStep
  simp only at hest ⊢
  generalize admitSegment env seg c = d at hadmitted hest ⊢
  have hstate : d.state = .synRcvd := (congrArg (·.state) hadmitted).trans hs
  have hirs : d.irs = c.irs := congrArg (·.irs) hadmitted
  have hnot : d.state ≠ .synSent := by simp [hstate]
  rw [if_neg hnot, ← hirs]
  split at hest
  case isTrue hreset =>
    rw [if_pos (processRST_taken env seg.ackSeq hreset.2)] at hest
    simp only [processRST, hstate] at hest
    split at hest
    · have hdestroyed := congrArg (·.state)
        (core_destroyTCPStream env.cfg { d with state := .closed, closeReason := .reset })
      cases hdestroyed.symm.trans hest
    · simp [hstate] at hest
  case isFalse hrst =>
    have hno : seg.rst = false := by simpa [hstate, TcpState.code] using hrst
    simp only [handleState, hstate] at hest
    split at hest
    case isTrue hdup =>
      simp [handleListen, hdup.1, hstate, addtoControlList_state] at hest
    case isFalse hdup =>
      refine ⟨hno, hdup, ?_⟩
      split_ifs at hest with hgo
      · simp [hgo.2]
      · simp [hest]

/-- A live stream enters ESTABLISHED by no other event than such a segment. -/
theorem established_by_segment {c : Conn} {e : Event} (hreached : Reached avoid c)
    (hlive : c.onHashTable = true) (henabled : e.enabled c = true) (hstate : c.state ≠ .established)
    (hlive' : (e.apply c).onHashTable = true) (hest : (e.apply c).state = .established) :
    ∃ env seg, e = .packet env seg ∧ Establishes env seg c := by
  have heff : Effects (fun _ => False) e.segment c.core (e.apply c).core :=
    Event.apply_effects henabled fun _ ha => ha.elim
  cases e with
  | packet env seg =>
    refine ⟨env, seg, rfl, ?_⟩
    by_cases hsent : c.state = .synSent
    · exact .inl ⟨hsent, processTCPPacket_synSent env seg hsent ▸ hest⟩
    by_cases hrcvd : c.state = .synRcvd
    · exact establishes_of_synRcvd hrcvd hest
    -- every other state is past the opening
    have hlisten := hreached.not_listen hlive
    refine absurd hest (heff.stays (A := fun s => s.opens = false ∧ s ≠ .established)
      (fun s t => ?_) (fun _ => ⟨?_, hstate⟩) hlive').2
    · cases s <;> cases t <;> simp [TcpState.opens, TcpState.moves]
    · revert hsent hrcvd hlisten
      change _ → _ → _ → c.state.opens = false
      cases c.state <;> simp [TcpState.opens]
  | _ =>
    refine absurd hest (heff.stays (A := (· ≠ .established)) (fun s t hs hm ht => ?_)
      (fun _ => hstate) hlive')
    subst ht
    cases s <;> first | exact hs rfl | cases hm

theorem established_by_segment_active :
    let c := [Event.connectq, .controlPass deafEnv [true]].foldl Event.apply connectingConn
    ∃ env seg, Event.packet deafEnv { plainSegment with syn := true, ack := true } =
      .packet env seg ∧ Establishes env seg c := by
  have hborn : Reached (fun _ => False) connectingConn := .born (.active ..)
  exact established_by_segment (hborn.run (by decide +kernel)) (by decide +kernel)
    (by decide +kernel) (by decide +kernel) (by decide +kernel) (by decide +kernel)

end MtcpStack
