import MtcpStack.Verification.Pacing
import MtcpStack.Verification.Refusal

/-! # The window of the peer

`ProcessTCPPacket` takes the window of every admitted segment over before `ProcessACK` compares
the segment with `snd_wl1` and `snd_wl2`. So after a segment `peer_wnd` is the window of that
segment, however old it is. -/

namespace MtcpStack

/-! ## What keeps the window -/

/-- The window of the peer and the shift it is read with. -/
def Conn.peerView (c : Conn) : U32 × U8 := (c.peerWnd, c.wscalePeer)

/-- The same two, among the gauges. -/
def Gauge.peer (g : Gauge) : U32 × U8 := (g.peerWnd, g.wscalePeer)

namespace Gauge

variable (g : Gauge)

@[simp] theorem peer_checkRto : g.checkRto.peer = g.peer := by
  unfold checkRto
  split <;> rfl

@[simp] theorem peer_timer : g.timer.peer = g.peer := g.peer_checkRto

@[simp] theorem peer_countDup (dup : Bool) (ackSeq : U32) : (g.countDup dup ackSeq).peer = g.peer := by
  have hcount : (if dup then { g with dupAcks := g.dupAcks + 1 }
      else { g with dupAcks := 0, lastAckSeq := ackSeq }).peer = g.peer := by
    split <;> rfl
  unfold countDup inflate
  simp only
  generalize (if dup then { g with dupAcks := g.dupAcks + 1 }
      else { g with dupAcks := 0, lastAckSeq := ackSeq }) = g' at hcount ⊢
  split_ifs <;> exact hcount

@[simp] theorem peer_grow (packets : U16) : (g.grow packets).peer = g.peer := by
  have hzero : (if g.cwnd = 0 then g.fault .divByZero else g).peer = g.peer := by
    split <;> rfl
  unfold grow
  simp only
  generalize (if g.cwnd = 0 then g.fault .divByZero else g) = g' at hzero ⊢
  split_ifs <;> first | rfl | exact hzero

@[simp] theorem peer_acked (rmlen : ℕ) (mrtt : U32) (passed : Bool) :
    (g.acked rmlen mrtt passed).peer = g.peer := by
  have hzero : (if g.effMss = 0 then g.fault .divByZero else g).peer = g.peer := by
    split <;> rfl
  unfold acked measure
  simp only [peer_grow]
  generalize (if g.effMss = 0 then g.fault .divByZero else g) = g' at hzero ⊢
  split
  · rw [peer_checkRto]
    exact hzero
  · exact hzero

end Gauge

theorem peer_gauge (c : Conn) : c.gauge.peer = c.peerView := rfl

theorem peerView_of_gauge {c d : Conn} (h : d.gauge = c.gauge) : d.peerView = c.peerView :=
  congrArg Gauge.peer h

theorem peerView_addtoControlList (c : Conn) : (addtoControlList c).peerView = c.peerView :=
  peerView_of_gauge (gauge_addtoControlList c)

theorem peerView_removeFromRTOList (c : Conn) : (removeFromRTOList c).peerView = c.peerView :=
  peerView_of_gauge (gauge_removeFromRTOList c)

theorem peerView_updateRetransmissionTimer (env : Env) (c : Conn) :
    (updateRetransmissionTimer env c).peerView = c.peerView := by
  rw [← peer_gauge, gauge_updateRetransmissionTimer, Gauge.peer_timer, peer_gauge]

theorem peerView_receivePayload (env : Env) (seg : Segment) (c : Conn) :
    (receivePayload env seg c).peerView = c.peerView := by
  obtain ⟨s, -, hgauge, -⟩ := receivePayload_gauge env seg c
  rw [← peer_gauge, hgauge]
  rfl

/-- The window is that of the segment already, so taking it again changes nothing. -/
theorem peerView_updateWindow {seg : Segment} {c : Conn} (h : c.peerWnd = scaledWindow seg c)
    (ackSeq : U32) : (updateWindow seg ackSeq c).peerView = c.peerView := by
  unfold updateWindow
  simp only [raiseWriteEvent]
  split_ifs
  · rw [peerView_of_gauge (gauge_raiseEvent _ _ _)]
    simp [Conn.peerView, ← h]
  · simp [Conn.peerView, ← h]
  · rfl

theorem peerView_processACK (env : Env) {seg : Segment} {c : Conn}
    (h : c.peerWnd = scaledWindow seg c) : (processACK env seg c).peerView = c.peerView := by
  unfold processACK
  split
  · rfl
  · rename_i b hb
    have hwin := peerView_updateWindow h (adjustAck seg.ackSeq c)
    unfold processACKWith
    simp only
    generalize updateWindow seg (adjustAck seg.ackSeq c) c = d at hwin ⊢
    split_ifs
    · rfl
    · rw [← peer_gauge, gauge_recoverSndNxt, gauge_dupAckStage, Gauge.peer_countDup, peer_gauge,
        hwin]
    · rw [← peer_gauge, gauge_ackNewData, gauge_recoverSndNxt, gauge_dupAckStage, Gauge.peer_timer,
        Gauge.peer_acked, Gauge.peer_countDup, peer_gauge, hwin]

/-! ## The handlers -/

/-- The stream shows the window of `seg`, read with the shift of the stream it arrived at. -/
def Shows (seg : Segment) (shift : U8) (c : Conn) : Prop :=
  c.wscalePeer = shift ∧ c.peerWnd = scaledWindow seg c

section

variable {env : Env} {seg : Segment} {shift : U8} {c d : Conn}

theorem Shows.congr (h : Shows seg shift c) (hview : d.peerView = c.peerView) :
    Shows seg shift d := by
  obtain ⟨hwnd, hscale⟩ := Prod.mk.inj hview
  refine ⟨hscale.trans h.1, ?_⟩
  rw [hwnd, h.2]
  unfold scaledWindow
  rw [hscale]

theorem Shows.of_gauge (h : Shows seg shift c) (hgauge : d.gauge = c.gauge) : Shows seg shift d :=
  h.congr (peerView_of_gauge hgauge)

theorem Shows.processACK (env : Env) (h : Shows seg shift c) :
    Shows seg shift (processACK env seg c) :=
  h.congr (peerView_processACK env h.2)

theorem Shows.receivePayload (env : Env) (h : Shows seg shift c) :
    Shows seg shift (receivePayload env seg c) :=
  h.congr (peerView_receivePayload env seg c)

theorem Shows.handleEstablished (h : Shows seg shift c) :
    Shows seg shift (handleEstablished env seg c) := by
  have hfin : ∀ {d : Conn}, Shows seg shift d → Shows seg shift (finEstablished seg d) := by
    intro d hd
    unfold finEstablished
    split
    · refine hd.congr ?_
      rw [raiseReadEvent, ← peer_gauge, gauge_raiseEvent, gauge_addtoControlList]
      rfl
    · exact hd.of_gauge (gauge_enqueueACK _ d)
  unfold MtcpStack.handleEstablished
  split
  · exact h.congr (peerView_addtoControlList _)
  · have hpay : Shows seg shift (MtcpStack.receivePayload env seg c) := h.receivePayload env
    simp only
    split_ifs
    · exact hfin (hpay.processACK env)
    · exact hfin hpay
    · exact hpay.processACK env
    · exact hpay

theorem Shows.handleCloseWait (h : Shows seg shift c) :
    Shows seg shift (handleCloseWait env seg c) := by
  unfold MtcpStack.handleCloseWait
  split
  · exact h.of_gauge (gauge_addtoControlList c)
  · exact h.processACK env

theorem Shows.handleLastAck (h : Shows seg shift c) :
    Shows seg shift (handleLastAck env seg c) := by
  have hack : Shows seg shift (MtcpStack.processACK env seg c) := h.processACK env
  unfold MtcpStack.handleLastAck
  generalize MtcpStack.processACK env seg c = d at hack ⊢
  simp only
  split_ifs
  · exact h
  · exact hack
  · refine hack.congr ?_
    rw [← peer_gauge, gauge_destroyTCPStream]
    exact peerView_updateRetransmissionTimer env { d with sndUna := d.sndUna + 1 }
  · exact hack.congr (peerView_addtoControlList _)
  · exact h.of_gauge (gauge_addtoControlList c)

theorem Shows.finClosing (env : Env) (h : Shows seg shift c) :
    Shows seg shift (finClosing env seg c) := by
  unfold MtcpStack.finClosing
  simp only
  split_ifs
  · exact h.congr (peerView_addtoControlList _)
  · refine h.congr ?_
    rw [← peer_gauge, gauge_addtoControlList, gauge_addtoTimewaitList]
    rfl
  · exact h.congr (peerView_addtoControlList _)
  · exact h

theorem Shows.handleFinWait1 (h : Shows seg shift c) :
    Shows seg shift (handleFinWait1 env seg c) := by
  have hack : Shows seg shift (MtcpStack.processACK env seg c) := h.processACK env
  have hacked : Shows seg shift (finAcked seg (MtcpStack.processACK env seg c)) := by
    generalize MtcpStack.processACK env seg c = d at hack
    unfold finAcked
    split
    · simp only
      split
      · exact hack.congr (peerView_removeFromRTOList _)
      · exact hack.congr (peerView_removeFromRTOList _)
    · exact hack
  have hpay := hacked.receivePayload env
  unfold MtcpStack.handleFinWait1
  simp only
  split_ifs
  · exact h.of_gauge (gauge_addtoControlList c)
  · exact hpay.finClosing env
  · exact hpay
  · exact h

theorem Shows.handleFinWait2 (h : Shows seg shift c) :
    Shows seg shift (handleFinWait2 env seg c) := by
  have hpay := (h.processACK env).receivePayload env
  unfold MtcpStack.handleFinWait2
  simp only
  split_ifs
  · refine hpay.congr ?_
    rw [← peer_gauge, gauge_addtoControlList, gauge_addtoTimewaitList]
    rfl
  · exact hpay
  · exact hpay
  · exact h

theorem Shows.handleClosing (h : Shows seg shift c) :
    Shows seg shift (handleClosing env seg c) := by
  have hack : Shows seg shift (MtcpStack.processACK env seg c) := h.processACK env
  unfold MtcpStack.handleClosing
  generalize MtcpStack.processACK env seg c = d at hack ⊢
  simp only
  split_ifs
  · exact hack
  · exact hack
  · refine hack.congr ?_
    rw [← peer_gauge, gauge_addtoTimewaitList]
    exact peerView_updateRetransmissionTimer env { d with sndUna := seg.ackSeq, sndNxt := seg.ackSeq }
  · exact h

theorem Shows.handleTimeWait (h : Shows seg shift c) : Shows seg shift (handleTimeWait env c) := by
  unfold MtcpStack.handleTimeWait
  refine h.congr ?_
  rw [← peer_gauge, gauge_addtoControlList]
  split
  · rw [← peer_gauge, gauge_addtoTimewaitList, gauge_removeFromTimewaitList]
  · rfl

theorem Shows.handleState (h : Shows seg shift c)
    (hstate : TcpState.established.code ≤ c.state.code) :
    Shows seg shift (handleState env seg c) := by
  unfold MtcpStack.handleState
  split
  case h_4 => exact h.handleEstablished
  case h_5 => exact h.handleCloseWait
  case h_6 => exact h.handleLastAck
  case h_7 => exact h.handleFinWait1
  case h_8 => exact h.handleFinWait2
  case h_9 => exact h.handleClosing
  case h_10 => exact h.handleTimeWait
  all_goals
    rename_i hs
    simp [hs, TcpState.code] at hstate

theorem Shows.processRST (h : Shows seg shift c) (ackSeq : U32) :
    Shows seg shift (processRST env ackSeq c).1 := by
  obtain ⟨s, -, hgauge⟩ := processRST_drifts env ackSeq c
  refine h.congr ?_
  rw [← peer_gauge, hgauge]
  rfl

end

theorem admitSegment_shows (env : Env) (seg : Segment) (c : Conn) :
    Shows seg c.wscalePeer (admitSegment env seg c) ∧
      (admitSegment env seg c).state = c.state := by
  have hgauge := gauge_admitSegment env seg c
  have hshow : Shows seg c.wscalePeer { c with peerWnd := scaledWindow seg c } := ⟨rfl, rfl⟩
  exact ⟨hshow.of_gauge hgauge, congrArg (·.state) hgauge⟩

/-- An admitted segment leaves its own window behind, and the shift as it was. -/
theorem processTCPPacket_shows {env : Env} {seg : Segment} {c : Conn}
    (hstate : TcpState.established.code ≤ c.state.code)
    (hvalid : (validateSequence env seg c).2 = true) :
    Shows seg c.wscalePeer (processTCPPacket env seg c) := by
  obtain ⟨recent, rcvd, upd, hkept⟩ := validateSequence_accepted hvalid
  have hsame : (validateSequence env seg c).1.state = c.state := by rw [hkept]
  have hshift : (validateSequence env seg c).1.wscalePeer = c.wscalePeer := by rw [hkept]
  clear hkept
  have hopen : TcpState.synRcvd.code < c.state.code := hstate
  unfold processTCPPacket
  simp only [if_pos hopen, hvalid, if_true]
  rw [← hshift]
  rw [← hsame] at hstate
  generalize (validateSequence env seg c).1 = d at hstate ⊢
  obtain ⟨hshow, hkept⟩ := admitSegment_shows env seg d
  rw [← hkept] at hstate
  unfold dispatchSegment
  simp only
  split
  · rw [if_pos (processRST_taken env seg.ackSeq (by simp only [TcpState.code] at hstate ⊢; omega))]
    exact hshow.processRST seg.ackSeq
  · exact hshow.handleState hstate

/-! ## Arrivals -/

/-- The segment is older than the one the window was last taken from. -/
def staleWindow (seg : Segment) (c : Conn) : Prop :=
  tcpSeqLt seg.seq c.sndWl1 ∨ seg.seq = c.sndWl1 ∧ tcpSeqLt seg.ackSeq c.sndWl2

/-- One segment precedes another in the order of the window update rule. -/
def Segment.olderThan (seg newer : Segment) : Prop :=
  tcpSeqLt seg.seq newer.seq ∨ seg.seq = newer.seq ∧ tcpSeqLt seg.ackSeq newer.ackSeq

instance (seg : Segment) (c : Conn) : Decidable (staleWindow seg c) :=
  inferInstanceAs (Decidable (_ ∨ _))

instance (seg newer : Segment) : Decidable (seg.olderThan newer) :=
  inferInstanceAs (Decidable (_ ∨ _))

/-- An acceptable ACK segment at a stream in ESTABLISHED or later. -/
def acceptsAck (env : Env) (seg : Segment) (c : Conn) : Bool :=
  decide (TcpState.established.code ≤ c.state.code) && seg.ack && (validateSequence env seg c).2

/-- Acceptable ACK segments in the order of their arrival. -/
def AckRun : Conn → List (Env × Segment) → Prop
  | _, [] => True
  | c, (env, seg) :: rest => acceptsAck env seg c = true ∧ AckRun (processTCPPacket env seg c) rest

/-- The window the last of the segments advertises, and that of the stream before the first. -/
def advertised (c : Conn) (arrivals : List (Env × Segment)) : U32 :=
  arrivals.getLast?.elim c.peerWnd fun s => scaledWindow s.2 c

/-- All segments are older than this one. -/
def Newest (arrivals : List (Env × Segment)) (newest : Segment) : Prop :=
  (∃ env, (env, newest) ∈ arrivals) ∧ ∀ s ∈ arrivals, s.2 = newest ∨ s.2.olderThan newest

section

variable {c : Conn} {arrivals pre post : List (Env × Segment)}

theorem acceptsAck_shows {env : Env} {seg : Segment} (h : acceptsAck env seg c = true) :
    Shows seg c.wscalePeer (processTCPPacket env seg c) := by
  simp only [acceptsAck, Bool.and_eq_true, decide_eq_true_eq] at h
  exact processTCPPacket_shows h.1.1 h.2

theorem scaledWindow_congr {d : Conn} (s : Segment) (h : d.wscalePeer = c.wscalePeer) :
    scaledWindow s d = scaledWindow s c := by
  unfold scaledWindow
  rw [h]

theorem advertised_cons {d : Conn} {s : Env × Segment} (hshift : d.wscalePeer = c.wscalePeer)
    (hwin : d.peerWnd = scaledWindow s.2 c) :
    advertised d arrivals = advertised c (s :: arrivals) := by
  cases arrivals with
  | nil => exact hwin
  | cons t arrivals =>
      simp only [advertised, List.getLast?_cons_cons, List.getLast?_eq_some_getLast
        (List.cons_ne_nil t arrivals), Option.elim_some]
      exact scaledWindow_congr _ hshift

theorem AckRun.left (h : AckRun c (pre ++ post)) : AckRun c pre := by
  induction pre generalizing c with
  | nil => trivial
  | cons s pre ih => exact ⟨h.1, ih h.2⟩

theorem AckRun.right (h : AckRun c (pre ++ post)) : AckRun (arrive c pre) post := by
  induction pre generalizing c with
  | nil => exact h
  | cons s pre ih => exact ih h.2

/-- After any acceptable segments `peer_wnd` is the window of the last one, read with the shift the
stream had before. -/
theorem AckRun.shows (h : AckRun c arrivals) :
    (arrive c arrivals).wscalePeer = c.wscalePeer ∧
      (arrive c arrivals).peerWnd = advertised c arrivals := by
  induction arrivals generalizing c with
  | nil => exact ⟨rfl, rfl⟩
  | cons s arrivals ih =>
      obtain ⟨hack, hrest⟩ := h
      obtain ⟨hshift, hwin⟩ := acceptsAck_shows hack
      obtain ⟨ihshift, ihwin⟩ := ih hrest
      rw [scaledWindow_congr _ hshift] at hwin
      exact ⟨ihshift.trans hshift, ihwin.trans (advertised_cons hshift hwin)⟩

/-- The two halves of the property at one arrival. -/
theorem AckRun.keeps_iff {env : Env} {seg : Segment} (h : AckRun c (pre ++ (env, seg) :: post)) :
    (processTCPPacket env seg (arrive c pre)).peerWnd = (arrive c pre).peerWnd ↔
      scaledWindow seg c = advertised c pre := by
  obtain ⟨hshift, hwin⟩ := acceptsAck_shows h.right.1
  obtain ⟨hpre, hbefore⟩ := h.left.shows
  rw [hwin, scaledWindow_congr seg (hshift.trans hpre), hbefore]

/-- Along acceptable ACK segments, every segment older than the last one used for the window leaves
`peer_wnd` alone and `peer_wnd` ends at the window of the newest segment, if and only if every such
segment advertises the window of the segment that arrived before it, and the one that arrives last
advertises the window of the newest. -/
theorem stale_windows_ignored (hrun : AckRun c arrivals) :
    ((∀ pre env seg post, arrivals = pre ++ (env, seg) :: post → staleWindow seg (arrive c pre) →
        (processTCPPacket env seg (arrive c pre)).peerWnd = (arrive c pre).peerWnd) ∧
      ∀ newest, Newest arrivals newest →
        (arrive c arrivals).peerWnd = scaledWindow newest c) ↔
    (∀ pre env seg post, arrivals = pre ++ (env, seg) :: post → staleWindow seg (arrive c pre) →
        scaledWindow seg c = advertised c pre) ∧
      ∀ newest, Newest arrivals newest → advertised c arrivals = scaledWindow newest c := by
  rw [hrun.shows.2]
  refine and_congr_left' (forall₄_congr fun pre env seg post => ?_)
  refine forall_congr' fun hsplit => imp_congr_right fun _ => ?_
  subst hsplit
  exact hrun.keeps_iff

end

/-! ### Two acknowledgements in the wrong order -/

/-- The established stream with two bytes in flight. -/
def inFlightConn : Conn :=
  [Event.write quietEnv [7, 8], .sendq, .dataPass quietEnv [true]].foldl Event.apply
    establishedConn

/-- The acknowledgement of both bytes, with a window of 2000. -/
def newerAck : Segment := { plainSegment with seq := 501, ackSeq := 103, ack := true, window := 2000 }

/-- The earlier acknowledgement of one byte, with the given window. -/
def olderAck (window : U16) : Segment :=
  { plainSegment with seq := 501, ackSeq := 102, ack := true, window }

/-- The stale acknowledgement that comes last replaces the window of the newer one. -/
theorem stale_window_taken :
    (let c := processTCPPacket quietEnv newerAck inFlightConn
     acceptsAck quietEnv (olderAck 10) c = true ∧ staleWindow (olderAck 10) c ∧
       c.peerWnd = 2000 ∧ (processTCPPacket quietEnv (olderAck 10) c).peerWnd = 10 ∧
       .fault .divByZero ∉ (processTCPPacket quietEnv (olderAck 10) c).log) ∧
      (olderAck 10).olderThan newerAck ∧
      (arrive inFlightConn [(quietEnv, newerAck), (quietEnv, olderAck 10)]).peerWnd ≠
        scaledWindow newerAck inFlightConn := by
  decide +kernel

/-- The stale acknowledgement repeats the window of the newer one, which comes again. -/
theorem stale_windows_ignored_in_force :
    (arrive inFlightConn
      [(quietEnv, newerAck), (quietEnv, olderAck 2000), (quietEnv, newerAck)]).peerWnd =
        scaledWindow newerAck inFlightConn := by
  have hrun : AckRun inFlightConn
      [(quietEnv, newerAck), (quietEnv, olderAck 2000), (quietEnv, newerAck)] :=
    ⟨by decide +kernel, by decide +kernel, by decide +kernel, trivial⟩
  have hnewest : Newest [(quietEnv, newerAck), (quietEnv, olderAck 2000), (quietEnv, newerAck)]
      newerAck := by
    refine ⟨⟨quietEnv, by simp⟩, ?_⟩
    simp only [List.mem_cons, List.not_mem_nil, or_false]
    rintro s (rfl | rfl | rfl)
    · exact .inl rfl
    · exact .inr (by decide)
    · exact .inl rfl
  refine ((stale_windows_ignored hrun).mpr ⟨fun pre env seg post hsplit hstale => ?_,
    fun newest hnew => ?_⟩).2 _ hnewest
  · -- only the second one is stale, and it repeats the window of the first
    rcases pre with _ | ⟨_, _ | ⟨_, _ | ⟨_, _⟩⟩⟩
    · cases hsplit
      exact absurd hstale (by decide +kernel)
    · cases hsplit
      decide +kernel
    · cases hsplit
      exact absurd hstale (by decide +kernel)
    · simp at hsplit
  · obtain ⟨⟨env, hmem⟩, -⟩ := hnew
    simp only [List.mem_cons, Prod.mk.injEq, List.not_mem_nil, or_false] at hmem
    rcases hmem with ⟨-, rfl⟩ | ⟨-, rfl⟩ | ⟨-, rfl⟩ <;> decide +kernel

end MtcpStack
