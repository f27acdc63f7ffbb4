import MtcpStack.Verification.Handshake
import MtcpStack.Verification.SlowStart

/-! # Segments that acknowledge nothing

Only the handler of CLOSE_WAIT looks at the acknowledgement number of a segment without the ACK flag.
In the other states such a segment leaves the sending side as it is, and there when `ProcessACK`
makes nothing of the number. -/

namespace MtcpStack

variable {c : Conn} {env : Env} {seg : Segment}

/-- What an acknowledgement changes. -/
def Conn.sendView (c : Conn) : U32 × U32 × Option SendBuffer × U32 × U32 × U8 :=
  (c.sndUna, c.sndNxt, c.sndbuf, c.cwnd, c.ssthresh, c.dupAcks)

/-! ## Functions that leave the sending side alone -/

@[simp] theorem sendView_addtoControlList (c : Conn) :
    (addtoControlList c).sendView = c.sendView := by
  unfold addtoControlList
  split <;> rfl

@[simp] theorem sendView_enqueueACK (opt : AckOpt) (c : Conn) :
    (enqueueACK opt c).sendView = c.sendView := by
  have hadd : ∀ d : Conn, (addtoACKList d).sendView = d.sendView := by
    intro d
    unfold addtoACKList
    split <;> rfl
  unfold enqueueACK
  rw [hadd]
  cases opt with
  | now | wack => rfl
  | aggregate =>
    simp only
    split <;> rfl

@[simp] theorem sendView_removeFromTimewaitList (c : Conn) :
    (removeFromTimewaitList c).sendView = c.sendView := by
  unfold removeFromTimewaitList
  split <;> rfl

@[simp] theorem sendView_addtoTimewaitList (env : Env) (c : Conn) :
    (addtoTimewaitList env c).sendView = c.sendView := by
  unfold addtoTimewaitList removeFromRTOList
  simp only
  split
  · rfl
  · split <;> rfl

@[simp] theorem sendView_raiseEvent (e : AppEvent) (registered : Socket → Bool) (c : Conn) :
    (raiseEvent e registered c).sendView = c.sendView :=
  raiseEvent_view Conn.sendView registered rfl

@[simp] theorem sendView_processTCPPayload (env : Env) (payload : List U8) (seq : U32) (c : Conn) :
    (processTCPPayload env payload seq c).1.sendView = c.sendView := by
  refine processTCPPayload_rule (P := fun d => d.sendView = c.sendView)
    (fun e reg d hd => (sendView_raiseEvent e reg d).trans hd) fun d hout => ?_
  cases hout with
  | dropped | noMemory | faulted => rfl
  | stored => split <;> rfl

@[simp] theorem sendView_receivePayload (env : Env) (seg : Segment) (c : Conn) :
    (receivePayload env seg c).sendView = c.sendView := by
  unfold receivePayload
  split <;> simp

@[simp] theorem sendView_finEstablished (seg : Segment) (c : Conn) :
    (finEstablished seg c).sendView = c.sendView := by
  unfold finEstablished
  split
  · exact (sendView_raiseEvent ..).trans (sendView_addtoControlList _)
  · simp

theorem sendView_checkTimestamp (env : Env) (seg : Segment) (c : Conn) :
    (checkTimestamp env seg c).1.sendView = c.sendView := by
  have hout := checkTimestamp_outcome env seg c
  generalize checkTimestamp env seg c = r at hout ⊢
  cases hout with
  | unused | looped | missing | taken => rfl
  | stale => simp

theorem sendView_validateSequence (env : Env) (seg : Segment) (c : Conn) :
    (validateSequence env seg c).1.sendView = c.sendView := by
  have hcheck := sendView_checkTimestamp env seg c
  have hout := validateSequence_outcome env seg c
  generalize validateSequence env seg c = r at hout ⊢
  cases hout with
  | accepted hd => rwa [hd] at hcheck
  | @outside d hd =>
    rw [hd] at hcheck
    have hrefuse := refuseSequence_outcome env seg d
    rw [← hcheck]
    generalize refuseSequence env seg d = e at hrefuse ⊢
    cases hrefuse <;> simp
  | unchecked hd => rwa [hd] at hcheck

/-- A segment is accepted whose timestamp is good and which ends in the window. -/
theorem validateSequence_iff : (validateSequence env seg c).2 = true ↔
    (checkTimestamp env seg c).2 = true ∧
      tcpSeqBetween seg.payloadEnd c.rcvNxt (c.rcvNxt + c.rcvWnd) := by
  unfold validateSequence
  simp only
  split
  case isTrue hts =>
    obtain ⟨recent, rcvd, upd, hcheck⟩ := checkTimestamp_passed hts
    rw [hcheck]
    split <;> simp_all
  case isFalse hts => simp [hts]

/-- An accepted segment without RST reaches its handler with its window in force. -/
theorem dispatch_accepted (hok : (validateSequence env seg c).2 = true) (hrst : seg.rst = false) :
    ∃ recent rcvd upd active timeouts,
      dispatchSegment env seg (validateSequence env seg c).1 = handleState env seg
        { c with
          peerWnd := scaledWindow seg c
          tsRecent := recent
          tsLastackRcvd := rcvd
          tsLastTsUpd := upd
          lastActiveTs := active
          timeoutList := timeouts } := by
  obtain ⟨recent, rcvd, upd, hkept⟩ := validateSequence_accepted hok
  rw [hkept]
  unfold dispatchSegment admitSegment updateTimeoutList
  simp only [hrst, Bool.false_eq_true, false_and, if_false]
  split
  · exact ⟨recent, rcvd, upd, env.curTs, _, rfl⟩
  · exact ⟨recent, rcvd, upd, env.curTs, c.timeoutList, rfl⟩

/-! ## What `ProcessACK` leaves as it is -/

namespace Gauge

variable {g g' : Gauge}

theorem countDup_dupAcks (dup : Bool) (a : U32) :
    (g.countDup dup a).dupAcks = if dup then g.dupAcks + 1 else 0 := by
  unfold countDup rewind inflate
  cases dup <;> simp only <;> split_ifs <;> rfl

end Gauge

/-- The number `a` counts as repeated when the window of the segment is in force already. -/
def repeatsAck (seg : Segment) (a : U32) (c : Conn) : Prop :=
  tcpSeqLt a c.sndNxt ∧ a = c.lastAckSeq ∧ seg.payload.length = 0 ∧
    (tcpSeqLt c.sndWl1 seg.seq ∨ c.sndWl1 = seg.seq ∧ tcpSeqLt c.sndWl2 a → c.sndWl2 = a)

theorem isDupAck_iff (hwnd : c.peerWnd = scaledWindow seg c) (a : U32) :
    isDupAck seg a (c.peerWnd + c.sndWl2) (updateWindow seg a c) ↔ repeatsAck seg a c := by
  have hnew : updatesWindow seg a (scaledWindow seg c) c ↔
      tcpSeqLt c.sndWl1 seg.seq ∨ c.sndWl1 = seg.seq ∧ tcpSeqLt c.sndWl2 a := by
    simp [updatesWindow, hwnd]
  have hedge : (updateWindow seg a c).sndWl2 + (updateWindow seg a c).peerWnd
      = (if updatesWindow seg a (scaledWindow seg c) c then a else c.sndWl2) + c.peerWnd := by
    change (updateWindow seg a c).gauge.sndWl2 + (updateWindow seg a c).gauge.peerWnd = _
    unfold updateWindow
    simp only [raiseWriteEvent]
    split_ifs
    · rw [gauge_raiseEvent, hwnd]
      rfl
    · rw [hwnd]
      rfl
    · rfl
  have hcore := core_updateWindow seg a c
  have hnxt : (updateWindow seg a c).sndNxt = c.sndNxt := congrArg (·.sndNxt) hcore
  have hlast : (updateWindow seg a c).lastAckSeq = c.lastAckSeq := congrArg (·.lastAckSeq) hcore
  rw [isDupAck, repeatsAck, hnxt, hlast, hedge, BitVec.add_comm c.peerWnd, ← hnew]
  split
  · next h => simp [h, eq_comm]
  · next h => simp [h]

/-- What `ProcessACK` does behind the duplicate count `e`. -/
theorem afterCount (env : Env) (b : SendBuffer) (a : U32) (e : Conn) :
    let d := if tcpSeqGeq b.headSeq a then recoverSndNxt b a e
      else ackNewData env b a (recoverSndNxt b a e)
    d.dupAcks = e.dupAcks ∧ (tcpSeqGt a e.sndNxt → d.sndNxt = a) := by
  have hgauge := gauge_recoverSndNxt e b a
  have hnxt : tcpSeqGt a e.sndNxt → (recoverSndNxt b a e).sndNxt = a :=
    fun hgt => congrArg (·.sndNxt) (core_recoverSndNxt (b := b) hgt)
  generalize recoverSndNxt b a e = f at hgauge hnxt ⊢
  have hdups : f.dupAcks = e.dupAcks := congrArg (·.dupAcks) hgauge
  simp only
  split
  · exact ⟨hdups, hnxt⟩
  · have hcore := core_ackNewData env b a f
    have hpaced := gauge_ackNewData env f b a
    generalize ackNewData env b a f = r at hcore hpaced ⊢
    have hkept : r.dupAcks = f.dupAcks :=
      (congrArg (·.dupAcks) hpaced).trans (Gauge.acked_kept ..).2.2
    exact ⟨hkept.trans hdups, fun hgt => (congrArg (·.sndNxt) hcore).trans (hnxt hgt)⟩

/-- Slow start and congestion avoidance add nothing for this many segments. -/
def CwndStands (packets : U16) (c : Conn) : Prop :=
  let mss : U32 := c.mss.setWidth 32
  let n : U32 := packets.setWidth 32
  TcpState.established.code ≤ c.state.code →
    if c.cwnd.toNat < c.ssthresh.toNat then c.cwnd.toNat < (c.cwnd + mss).toNat → mss * n = 0
    else (c.cwnd + n * mss * mss / c.cwnd).toNat ≤ c.cwnd.toNat

theorem cwnd_growCwnd_iff {packets : U16} :
    (growCwnd packets c).cwnd = c.cwnd ↔ CwndStands packets c := by
  unfold growCwnd CwndStands
  simp only
  by_cases hearly : c.state.code < TcpState.established.code
  · rw [if_pos hearly]
    exact iff_of_true rfl fun hlate => absurd hearly (not_lt.mpr hlate)
  rw [if_neg hearly, forall_prop_of_true (not_lt.mp hearly)]
  by_cases hslow : c.cwnd.toNat < c.ssthresh.toNat
  · rw [if_pos hslow, if_pos hslow]
    split
    case isTrue hroom =>
      rw [forall_prop_of_true hroom]
      exact add_eq_left
    case isFalse hwraps => exact iff_of_true rfl fun hroom => absurd hroom hwraps
  · rw [if_neg hslow, if_neg hslow, ← not_lt]
    have hkept : (if c.cwnd = 0 then c.fault .divByZero else c).cwnd = c.cwnd := by
      split <;> rfl
    rw [hkept]
    split
    case isTrue hmore =>
      exact iff_of_false (fun h => hmore.ne (congrArg BitVec.toNat h).symm) (not_not.mpr hmore)
    case isFalse hless => exact iff_of_true hkept hless

/-- `ProcessACK` makes nothing of the number: it lies behind the buffer; or it is neither repeated
nor above `snd_nxt`, no duplicate is counted, and it acknowledges nothing new. The last case is a
number half the sequence space away from an empty buffer that was taken before. -/
def IdleAck (seg : Segment) (b : SendBuffer) (c : Conn) : Prop :=
  let a := adjustAck seg.ackSeq c
  tcpSeqGt a b.endSeq ∨ c.dupAcks = 0 ∧ ¬ repeatsAck seg a c ∧ ¬ tcpSeqGt a c.sndNxt ∧
    (tcpSeqGeq b.headSeq a ∨ b.len = 0 ∧ c.sndUna = a ∧
      CwndStands (ackedPackets (a - b.headSeq).toNat c) c)

theorem sbRemove_eq_self {b : SendBuffer} {n : ℕ} (hn : 0 < n) :
    (sbRemove b n).1 = b ↔ b.len = 0 := by
  constructor
  · intro h
    by_contra hlen
    have hless : (sbRemove b n).1.len < b.len := by
      unfold sbRemove
      rw [if_neg (by omega)]
      simp only
      rw [if_neg (by omega)]
      split <;> simp only <;> omega
    rw [h] at hless
    exact lt_irrefl _ hless
  · intro h
    unfold sbRemove
    rw [if_neg (by omega)]
    simp [h]

/-- New data moves `snd_una` and takes bytes out of the buffer, if it has any. -/
theorem sendView_ackNewData_iff {b : SendBuffer} {a : U32} (hbuf : c.sndbuf = some b)
    (hnew : ¬ tcpSeqGeq b.headSeq a) :
    (ackNewData env b a c).sendView = c.sendView ↔
      b.len = 0 ∧ c.sndUna = a ∧ CwndStands (ackedPackets (a - b.headSeq).toNat c) c := by
  have hacked := core_ackNewData env b a c
  obtain ⟨hcwnd, hss, hds⟩ := Gauge.acked_kept (g := c.gauge) (a - b.headSeq).toNat
    (env.curTs - c.tsLastackRcvd) (decide (tcpSeqGt c.sndUna c.rttSeq))
  rw [← gauge_ackNewData env c b a] at hcwnd hss hds
  generalize ackNewData env b a c = r at hacked hcwnd hss hds ⊢
  have hgrown : r.cwnd = (growCwnd (ackedPackets (a - b.headSeq).toNat c) c).cwnd :=
    hcwnd.trans (congrArg (·.cwnd) (gauge_growCwnd c _)).symm
  have huna : r.sndUna = a := congrArg (·.sndUna) hacked
  have hnxt : r.sndNxt = c.sndNxt := congrArg (·.sndNxt) hacked
  have hbuf' : r.sndbuf = some (sbRemove b (a - b.headSeq).toNat).1 := congrArg (·.sndbuf) hacked
  have hss' : r.ssthresh = c.ssthresh := hss
  have hds' : r.dupAcks = c.dupAcks := hds
  simp only [Conn.sendView, Prod.mk.injEq, huna, hnxt, hbuf', hgrown, hss', hds', hbuf,
    Option.some.injEq, sbRemove_eq_self (toNat_sub_pos_of_not_geq hnew), cwnd_growCwnd_iff,
    and_true, true_and]
  rw [eq_comm, and_left_comm]

theorem sendView_processACK_iff {b : SendBuffer} (hbuf : c.sndbuf = some b)
    (hwnd : c.peerWnd = scaledWindow seg c) :
    (processACK env seg c).sendView = c.sendView ↔ IdleAck seg b c := by
  have hdupIff := isDupAck_iff hwnd (adjustAck seg.ackSeq c)
  unfold processACK IdleAck
  simp only [hbuf]
  generalize adjustAck seg.ackSeq c = a at hdupIff ⊢
  unfold processACKWith
  by_cases hend : tcpSeqGt a (b.headSeq + BitVec.ofNat 32 b.len)
  · rw [if_pos hend]
    exact iff_of_true rfl (.inl hend)
  simp only [if_neg hend]
  have hcore := core_updateWindow seg a c
  obtain ⟨wnd, wl1, wl2, hgauge⟩ := gauge_updateWindow seg c a
  generalize updateWindow seg a c = w at hdupIff hcore hgauge ⊢
  have hfield : ∀ {d : Conn}, d.sendView = c.sendView →
      d.sndNxt = c.sndNxt ∧ d.dupAcks = c.dupAcks := by
    simp +contextual [Conn.sendView]
  obtain ⟨hdups, hnxt⟩ := afterCount env b a
    (dupAckStage (decide (isDupAck seg a (c.peerWnd + c.sndWl2) w)) a w)
  have hcount : ∀ dup, (dupAckStage dup a w).dupAcks = if dup then c.dupAcks + 1 else 0 := by
    intro dup
    have hw : w.gauge.dupAcks = c.dupAcks := congrArg (·.dupAcks) hgauge
    change (dupAckStage dup a w).gauge.dupAcks = _
    rw [gauge_dupAckStage, Gauge.countDup_dupAcks, hw]
  by_cases hdup : isDupAck seg a (c.peerWnd + c.sndWl2) w
  · -- A repeated number is counted.
    have hne : ∀ k : U8, k + 1 ≠ k := by decide
    refine iff_of_false (fun h => ?_) fun h => (h.resolve_left hend).2.1 (hdupIff.mp hdup)
    have hkept := (hfield h).2
    rw [hdups, decide_eq_true hdup, hcount] at hkept
    exact hne _ hkept
  rw [decide_eq_false hdup] at hdups hnxt ⊢
  by_cases hzero : c.dupAcks = 0
  swap
  · refine iff_of_false (fun h => ?_) fun h => hzero (h.resolve_left hend).1
    have hkept := (hfield h).2
    rw [hdups, hcount] at hkept
    exact hzero hkept.symm
  have hcore' : (dupAckStage false a w).core = { c.core with dupAcks := 0, lastAckSeq := a } :=
    congrArg (fun p : Endpoint => { p with dupAcks := 0, lastAckSeq := a }) hcore
  have hgauge' : (dupAckStage false a w).gauge =
      { c.gauge with
        peerWnd := wnd, sndWl1 := wl1, sndWl2 := wl2, dupAcks := 0, lastAckSeq := a } :=
    congrArg (fun g : Gauge => { g with dupAcks := 0, lastAckSeq := a }) hgauge
  clear hcount
  generalize dupAckStage false a w = e at hdups hnxt hcore' hgauge' ⊢
  have henxt : e.sndNxt = c.sndNxt := congrArg (·.sndNxt) hcore'
  by_cases hgt : tcpSeqGt a c.sndNxt
  · -- Above `snd_nxt` it is taken for `snd_nxt`.
    refine iff_of_false (fun h => ?_) fun h => (h.resolve_left hend).2.2.1 hgt
    have hmoved := (hnxt (henxt ▸ hgt)).symm.trans (hfield h).1
    rw [hmoved, tcpSeqGt, BitVec.sub_self] at hgt
    exact absurd hgt (by decide)
  have hkept : recoverSndNxt b a e = e := if_neg (henxt ▸ hgt)
  have hbuf' : e.sndbuf = some b := (congrArg (·.sndbuf) hcore').trans hbuf
  have hidle : ¬ repeatsAck seg a c := fun h => hdup (hdupIff.mpr h)
  have huna : e.sndUna = c.sndUna := congrArg (·.sndUna) hcore'
  have hcwnd : e.cwnd = c.cwnd := congrArg (·.cwnd) hgauge'
  have hss : e.ssthresh = c.ssthresh := congrArg (·.ssthresh) hgauge'
  have hview : c.sendView = e.sendView := by
    have hds : e.dupAcks = c.dupAcks := (congrArg (·.dupAcks) hgauge').trans hzero.symm
    rw [Conn.sendView, Conn.sendView, huna, henxt, hbuf', hbuf, hcwnd, hss, hds]
  rw [or_iff_right (show ¬ tcpSeqGt a b.endSeq from hend)]
  simp only [hkept, hzero, hidle, hgt, not_false_eq_true, true_and]
  by_cases hgeq : tcpSeqGeq b.headSeq a
  · rw [if_pos hgeq]
    exact iff_of_true hview.symm (.inl hgeq)
  · rw [if_neg hgeq, hview, sendView_ackNewData_iff hbuf' hgeq, or_iff_right hgeq]
    have hmss : e.mss = c.mss := congrArg (·.mss) hgauge'
    have heff : e.effMss = c.effMss := congrArg (·.effMss) hgauge'
    have hstate : e.state = c.state := congrArg (·.state) hgauge'
    simp only [CwndStands, ackedPackets, huna, hmss, heff, hstate, hcwnd, hss]

/-! ## The states after the handshake -/

/-- A segment without ACK and SYN can change the sending side in CLOSE_WAIT only. -/
theorem sendView_handleState (hack : seg.ack = false) (hsyn : seg.syn = false)
    (hstate : c.state.opens = false) (hwait : c.state ≠ .closeWait) :
    (handleState env seg c).sendView = c.sendView := by
  unfold handleState
  cases hs : c.state with
  | listen | synSent | synRcvd => simp [hs, TcpState.opens] at hstate
  | established =>
    simp only [handleEstablished, hsyn, hack, Bool.false_eq_true, if_false]
    split <;> simp
  | closeWait => exact absurd hs hwait
  | lastAck =>
    simp only [handleLastAck, hack, Bool.false_eq_true, if_false]
    split <;> simp
  | finWait1 =>
    simp only [handleFinWait1, hack, Bool.false_eq_true, if_false]
    split <;> simp
  | finWait2 => simp [handleFinWait2, hack]
  | closing => simp [handleClosing, hack]
  | timeWait =>
    simp only [handleTimeWait, sendView_addtoControlList]
    split <;> simp
  | closed => rfl

theorem sendView_handleCloseWait_iff (env : Env) (hstate : c.state = .closeWait)
    (hwnd : c.peerWnd = scaledWindow seg c) :
    (handleState env seg c).sendView = c.sendView ↔
      (¬ tcpSeqLt seg.seq c.rcvNxt → ∀ b, c.sndbuf = some b → IdleAck seg b c) := by
  rw [handleState, hstate]
  simp only [handleCloseWait]
  split
  case isTrue hold => exact iff_of_true (sendView_addtoControlList c) fun h => absurd hold h
  case isFalse hnew =>
    cases hbuf : c.sndbuf with
    | none => simp [processACK, hbuf]
    | some b =>
      rw [sendView_processACK_iff hbuf hwnd]
      exact ⟨fun h _ b' hb => Option.some.inj hb ▸ h, fun h => h hnew b rfl⟩

/-- A segment with neither ACK, SYN nor RST leaves the sending side unchanged, unless the stream
is in CLOSE_WAIT and accepts the segment, it is not old, and `ProcessACK` makes something of its
number; then the sending side is changed. -/
theorem unflagged_segment_acks_nothing
    (hstate : c.state = .established ∨ c.state = .closeWait ∨ c.state = .finWait1 ∨
      c.state = .finWait2 ∨ c.state = .closing ∨ c.state = .lastAck ∨ c.state = .timeWait)
    (hack : seg.ack = false) (hsyn : seg.syn = false) (hrst : seg.rst = false) :
    (let d := processTCPPacket env seg c
    d.sndUna = c.sndUna ∧ d.sndNxt = c.sndNxt ∧ d.sndbuf = c.sndbuf ∧ d.cwnd = c.cwnd ∧
      d.ssthresh = c.ssthresh ∧ d.dupAcks = c.dupAcks) ↔
    (c.state = .closeWait → (checkTimestamp env seg c).2 = true →
      tcpSeqBetween seg.payloadEnd c.rcvNxt (c.rcvNxt + c.rcvWnd) →
      ¬ tcpSeqLt seg.seq c.rcvNxt → ∀ b, c.sndbuf = some b → IdleAck seg b c) := by
  have hcode : TcpState.synRcvd.code < c.state.code := by
    rcases hstate with h | h | h | h | h | h | h <;> rw [h] <;> decide
  have hopens : c.state.opens = false := by
    rcases hstate with h | h | h | h | h | h | h <;> rw [h] <;> rfl
  have hview : (processTCPPacket env seg c).sendView = c.sendView ↔ _ := Iff.rfl
  conv at hview => lhs; simp only [Conn.sendView, Prod.mk.injEq]
  refine hview.trans ?_
  rw [processTCPPacket, if_pos hcode]
  simp only
  by_cases hok : (validateSequence env seg c).2 = true
  · obtain ⟨hts, hwindow⟩ := validateSequence_iff.mp hok
    obtain ⟨recent, rcvd, upd, active, timeouts, hdispatch⟩ := dispatch_accepted hok hrst
    rw [if_pos hok, hdispatch]
    simp only [hts, hwindow, forall_const]
    by_cases hwait : c.state = .closeWait
    · rw [forall_prop_of_true hwait]
      let d : Conn := { c with
        peerWnd := scaledWindow seg c, tsRecent := recent, tsLastackRcvd := rcvd,
        tsLastTsUpd := upd, lastActiveTs := active, timeoutList := timeouts }
      -- The condition reads nothing of what has changed.
      exact sendView_handleCloseWait_iff env (c := d) hwait rfl
    · exact iff_of_true (sendView_handleState hack hsyn hopens hwait) fun h => absurd h hwait
  · rw [if_neg hok]
    refine iff_of_true (sendView_validateSequence env seg c) fun _ hts hwindow => ?_
    exact absurd (validateSequence_iff.mpr ⟨hts, hwindow⟩) hok

/-- A connected stream that has sent three bytes and seen the peer's FIN. -/
def halfClosedConn : Conn :=
  (activeOpen quietEnv ++ [Event.write quietEnv [1, 2, 3], .sendq, .dataPass quietEnv [true],
    .packet quietEnv { plainSegment with seq := 501, ack := true, fin := true }]).foldl
      Event.apply connectingConn

/-- In CLOSE_WAIT a segment without flags acknowledges the three bytes. -/
theorem unflagged_segment_acks :
    Reached (fun _ => False) halfClosedConn ∧ halfClosedConn.state = .closeWait ∧
      halfClosedConn.sndUna = 101 ∧ halfClosedConn.sndbuf.map (·.len) = some 3 ∧
      let d := processTCPPacket quietEnv { plainSegment with seq := 502, ackSeq := 104 } halfClosedConn
      d.sndUna = 104 ∧ d.sndbuf.map (·.len) = some 0 := by
  exact ⟨reached_connectingConn.run (by decide +kernel), by decide +kernel⟩

theorem unflagged_segment_acks_nothing_old :
    (processTCPPacket quietEnv { plainSegment with seq := 501, ackSeq := 104 }
      halfClosedConn).sndUna = halfClosedConn.sndUna :=
  ((unflagged_segment_acks_nothing (.inr (.inl (by decide +kernel))) rfl rfl rfl).mpr
    fun _ _ _ hnew => absurd (by decide +kernel) hnew).1

end MtcpStack
