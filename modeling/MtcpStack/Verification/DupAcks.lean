import MtcpStack.Verification.SlowStart

/-! # Duplicate acknowledgements

The third duplicate in a row rewinds `snd_nxt` and halves the threshold, and the later ones inflate
the congestion window. The count is a byte whose saturation test never holds it back, so it starts
again after 256 duplicates. -/

namespace MtcpStack

/-! ## One duplicate -/

/-- What a counted duplicate leaves. -/
structure Gauge.Counted (g g' : Gauge) : Prop where
  dupAcks : g'.dupAcks = g.dupAcks + 1
  lastAckSeq : g'.lastAckSeq = g.lastAckSeq
  sndWl2 : g'.sndWl2 = g.sndWl2
  mss : g'.mss = g.mss
  wscalePeer : g'.wscalePeer = g.wscalePeer
  peerWnd : g'.peerWnd = g.peerWnd
  sawTimestamp : g'.sawTimestamp = g.sawTimestamp
  ssthresh : g'.ssthresh = if g.dupAcks + 1 = 3 then g.lossThreshold else g.ssthresh
  rewound : g.dupAcks + 1 = 3 → g'.cwnd = g.lossThreshold + BitVec.ofNat 32 (3 * g.mss.toNat)
  cwnd : g.dupAcks + 1 ≠ 3 → g.cwnd.toNat ≤ g'.cwnd.toNat

theorem Gauge.countDup_true (g : Gauge) (a : U32) : g.Counted (g.countDup true a) := by
  unfold countDup
  simp only [if_true, true_and]
  split_ifs with hthird hmore
  · exact ⟨rfl, rfl, rfl, rfl, rfl, rfl, rfl, (if_pos hthird).symm, fun _ => rfl,
      fun hne => absurd hthird hne⟩
  · unfold inflate
    simp only
    split
    · next hlt =>
        exact ⟨rfl, rfl, rfl, rfl, rfl, rfl, rfl, (if_neg hthird).symm, fun heq => absurd heq hthird,
          fun _ => hlt.le⟩
    · exact ⟨rfl, rfl, rfl, rfl, rfl, rfl, rfl, (if_neg hthird).symm, fun heq => absurd heq hthird,
        fun _ => le_rfl⟩
  · exact ⟨rfl, rfl, rfl, rfl, rfl, rfl, rfl, (if_neg hthird).symm, fun heq => absurd heq hthird,
      fun _ => le_rfl⟩

/-- `ProcessACK` takes the branch of the fast retransmission. -/
def takesFastRetransmit (seg : Segment) (c : Conn) : Bool :=
  c.sndbuf.any fun b =>
    let ackSeq := adjustAck seg.ackSeq c
    let d := updateWindow seg ackSeq c
    let dup := decide (isDupAck seg ackSeq (c.peerWnd + c.sndWl2) d)
    !decide (tcpSeqGt ackSeq (b.headSeq + BitVec.ofNat 32 b.len)) && dup &&
      decide ((countDupAck dup ackSeq d).dupAcks = 3)

/-- The segment repeats the acknowledgement of `a`, where the send buffer starts, without payload
and without a change of the window. -/
structure Repeats (a : U32) (seg : Segment) (c : Conn) : Prop where
  payload : seg.payload = []
  ack : adjustAck seg.ackSeq c = a
  una : c.sndUna = a
  window : scaledWindow seg c = c.peerWnd
  outstanding : tcpSeqLt a c.sndNxt
  buffer : ∃ b ∈ c.sndbuf, b.headSeq = a ∧ b.len ≤ 2 ^ 31

/-- The last acknowledgement was of `a`, and the window was taken from such a segment. -/
structure Awaits (a : U32) (c : Conn) : Prop where
  lastAckSeq : c.lastAckSeq = a
  sndWl2 : c.sndWl2 = a

section

variable {a : U32} {env : Env} {seg : Segment} {c : Conn}

/-- The reset flag and the count do not matter. -/
theorem Repeats.congr {d : Conn} {reset : Bool} {dups : U8} {last : U32} (h : Repeats a seg c)
    (hcore : d.core = { c.core with haveReset := reset, dupAcks := dups, lastAckSeq := last })
    (hscale : d.wscalePeer = c.wscalePeer) (hwnd : d.peerWnd = c.peerWnd) : Repeats a seg d := by
  have hnxt : d.sndNxt = c.sndNxt := congrArg (·.sndNxt) hcore
  have hbuf : d.sndbuf = c.sndbuf := congrArg (·.sndbuf) hcore
  have hack := adjustAck_congr (congrArg (·.state) hcore) (congrArg (·.isFinSent) hcore)
    (congrArg (·.fss) hcore) seg.ackSeq
  refine ⟨h.payload, hack.trans h.ack, (congrArg (·.sndUna) hcore).trans h.una, ?_, ?_, ?_⟩
  · rw [hwnd, ← h.window]
    unfold scaledWindow
    rw [hscale]
  · rw [hnxt]
    exact h.outstanding
  · rw [hbuf]
    exact h.buffer

/-- The window may be taken again, which changes nothing but the sequence number it is from. -/
theorem Repeats.updateWindow (h : Repeats a seg c) (hwait : Awaits a c) :
    ∃ wl1, (updateWindow seg a c).gauge = { c.gauge with sndWl1 := wl1 } ∧
      (updateWindow seg a c).sndNxt = c.sndNxt ∧ (updateWindow seg a c).sndbuf = c.sndbuf := by
  have hevent : ∀ d : Conn, (raiseWriteEvent d).gauge = d.gauge ∧
      (raiseWriteEvent d).sndNxt = d.sndNxt ∧ (raiseWriteEvent d).sndbuf = d.sndbuf := by
    intro d
    exact ⟨gauge_raiseEvent _ _ d, raiseEvent_view (fun d => d.sndNxt) _ rfl,
      sndbuf_raiseEvent _ _ d⟩
  have htaken : Conn.gauge { c with peerWnd := scaledWindow seg c, sndWl1 := seg.seq, sndWl2 := a } =
      { c.gauge with sndWl1 := seg.seq } := by
    rw [h.window, ← hwait.sndWl2]
    rfl
  unfold MtcpStack.updateWindow
  simp only
  split_ifs
  · obtain ⟨hgauge, hnxt, hbuf⟩ :=
      hevent { c with peerWnd := scaledWindow seg c, sndWl1 := seg.seq, sndWl2 := a }
    exact ⟨seg.seq, hgauge.trans htaken, hnxt, hbuf⟩
  · exact ⟨seg.seq, htaken, rfl, rfl⟩
  · exact ⟨c.sndWl1, rfl, rfl, rfl⟩

theorem not_tcpSeqGt_add {len : ℕ} (h : len ≤ 2 ^ 31) : ¬ tcpSeqGt a (a + BitVec.ofNat 32 len) := by
  unfold tcpSeqGt
  rw [sub_add_cancel_left, BitVec.toInt_eq_toNat_cond, BitVec.toNat_neg, BitVec.toNat_ofNat]
  split <;> omega

/-- Only the third duplicate moves `snd_nxt`. -/
theorem sndNxt_dupAckStage (hout : tcpSeqLt a c.sndNxt) :
    (dupAckStage true a c).sndNxt = if c.dupAcks + 1 = 3 then a else c.sndNxt := by
  have hlist : ∀ d : Conn, (addtoSendList d).sndNxt = d.sndNxt := by
    intro d
    unfold addtoSendList
    split_ifs <;> rfl
  unfold dupAckStage countDupAck
  simp only [if_true, true_and]
  split_ifs with hthird hmore
  · unfold fastRetransmit
    simp only [hlist, if_pos hout]
    split <;> rfl
  · unfold inflateCwnd
    simp only
    split <;> rfl
  · rfl

/-- A repetition goes through the count and no further. -/
theorem Repeats.stage (env : Env) (h : Repeats a seg c) (hwait : Awaits a c) :
    ∃ b d, c.sndbuf = some b ∧ isDupAck seg a (c.peerWnd + c.sndWl2) d ∧
      d = MtcpStack.updateWindow seg a c ∧
      ¬ tcpSeqGt a (b.headSeq + BitVec.ofNat 32 b.len) ∧
      processACK env seg c = recoverSndNxt b a (dupAckStage true a d) := by
  obtain ⟨b, hmem, rfl, hlen⟩ := h.buffer
  have hbuf : c.sndbuf = some b := hmem
  obtain ⟨wl1, hgauge, hnxt, -⟩ := h.updateWindow hwait
  have hend : ¬ tcpSeqGt b.headSeq (b.headSeq + BitVec.ofNat 32 b.len) := not_tcpSeqGt_add hlen
  have hdup : isDupAck seg b.headSeq (c.peerWnd + c.sndWl2)
      (MtcpStack.updateWindow seg b.headSeq c) := by
    have hlast := congrArg Gauge.lastAckSeq hgauge
    have hwl2 := congrArg Gauge.sndWl2 hgauge
    have hwnd := congrArg Gauge.peerWnd hgauge
    refine ⟨hnxt ▸ h.outstanding, ?_, by simp [h.payload], ?_⟩
    · exact (hlast.trans hwait.lastAckSeq).symm
    · exact (congrArg₂ (· + ·) hwl2 hwnd).trans (add_comm _ _)
  refine ⟨b, _, hbuf, hdup, rfl, hend, ?_⟩
  unfold MtcpStack.processACK
  simp only [hbuf]
  unfold processACKWith
  rw [h.ack, if_neg hend]
  have hback : tcpSeqGeq b.headSeq b.headSeq := by
    unfold tcpSeqGeq
    rw [sub_self]
    decide
  simp only [if_pos hback, decide_eq_true hdup]

/-- The acknowledgement does not bring `snd_nxt` forward, also when it has just been rewound. -/
theorem Repeats.not_recovered (h : Repeats a seg c) {d : Conn} {p : Prop} [Decidable p]
    (hd : d.sndNxt = if p then a else c.sndNxt) (b : SendBuffer) : recoverSndNxt b a d = d := by
  have hlt : tcpSeqLt a c.sndNxt := h.outstanding
  unfold tcpSeqLt at hlt
  rw [recoverSndNxt, if_neg]
  rw [hd]
  unfold tcpSeqGt
  split
  · rw [sub_self]
    decide
  · omega

theorem Repeats.processACK (env : Env) (h : Repeats a seg c) (hwait : Awaits a c) :
    ∃ wl1, Gauge.Counted { c.gauge with sndWl1 := wl1 } (processACK env seg c).gauge ∧
      (processACK env seg c).sndNxt = (if c.dupAcks + 1 = 3 then a else c.sndNxt) ∧
      (takesFastRetransmit seg c = true ↔ c.dupAcks + 1 = 3) := by
  obtain ⟨wl1, hgauge, hnxt, -⟩ := h.updateWindow hwait
  obtain ⟨b, d, hbuf, hdup, hd, hend, hstage⟩ := h.stage env hwait
  rw [← hd] at hgauge hnxt
  have hcount : d.dupAcks = c.dupAcks := congrArg Gauge.dupAcks hgauge
  have hmoved := sndNxt_dupAckStage (c := d) (hnxt ▸ h.outstanding)
  rw [hcount, hnxt] at hmoved
  refine ⟨wl1, ?_, ?_, ?_⟩
  · rw [hstage, gauge_recoverSndNxt, gauge_dupAckStage, hgauge]
    exact Gauge.countDup_true _ a
  · rw [hstage, h.not_recovered hmoved, hmoved]
  · unfold takesFastRetransmit
    simp only [hbuf, Option.any_some, h.ack, ← hd, hend, decide_eq_true hdup, countDupAck, hcount]
    simp

/-- Apart from the third, a duplicate changes nothing of the endpoint but the count. -/
theorem Repeats.core_processACK (env : Env) (h : Repeats a seg c) (hwait : Awaits a c)
    (hne : c.dupAcks + 1 ≠ 3) :
    ∃ dups last, (MtcpStack.processACK env seg c).core =
      { c.core with dupAcks := dups, lastAckSeq := last } := by
  obtain ⟨b, d, hbuf, hdup, hd, -, hstage⟩ := h.stage env hwait
  have hcore : d.core = c.core := hd ▸ core_updateWindow seg a c
  have hcount : d.dupAcks = c.dupAcks := congrArg (·.dupAcks) hcore
  have hnxt : d.sndNxt = c.sndNxt := congrArg (·.sndNxt) hcore
  have hdbuf : d.sndbuf.isSome = true := by
    rw [show d.sndbuf = c.sndbuf from congrArg (·.sndbuf) hcore, hbuf]
    rfl
  have hmoved := sndNxt_dupAckStage (c := d) (hnxt ▸ h.outstanding)
  rw [hnxt] at hmoved
  obtain ⟨dups, last, hkept | ⟨-, htwo, -⟩⟩ := core_dupAckStage true a hdbuf fun _ => hdup.1
  · refine ⟨dups, last, ?_⟩
    rw [hstage, h.not_recovered hmoved, hkept, hcore]
  · rw [hcount] at htwo
    rw [htwo] at hne
    exact absurd rfl hne

end

/-! ## Runs of duplicates -/

/-- A duplicate, with what happens to the stream before it arrives. -/
structure DupRound where
  between : List Event
  env : Env
  seg : Segment

namespace DupRound

/-- The stream the segment finds. -/
def arrival (r : DupRound) (c : Conn) : Conn := r.between.foldl Event.apply c

/-- The stream that `ProcessACK` is given. -/
def before (r : DupRound) (c : Conn) : Conn :=
  admitSegment r.env r.seg ((dispatched r.env r.seg (r.arrival c)).getD (r.arrival c))

def apply (r : DupRound) (c : Conn) : Conn := processACK r.env r.seg (r.before c)

/-- The segment is valid and a duplicate, with no other segment and no timeout before it. -/
structure Duplicates (a : U32) (r : DupRound) (c : Conn) : Prop where
  quiet : ∀ e ∈ r.between, e.quiet = true
  valid : (dispatched r.env r.seg (r.arrival c)).isSome = true
  repeats : Repeats a r.seg (r.arrival c)

end DupRound

/-- The rounds are duplicates of `a` in a row, from `c` on. -/
def DupRun (a : U32) : Conn → List DupRound → Prop
  | _, [] => True
  | c, r :: rs => r.Duplicates a c ∧ DupRun a (r.apply c) rs

/-- What the `k`-th duplicate does to the stream `c` that `ProcessACK` is given. -/
structure DupSpec (a : U32) (k : ℕ) (seg : Segment) (c d : Conn) : Prop where
  branch : takesFastRetransmit seg c = true ↔ k = 3
  rewound : k = 3 → d.sndNxt = a ∧ d.ssthresh = lossThreshold c
  kept : k ≠ 3 → d.sndNxt = c.sndNxt ∧ d.ssthresh = c.ssthresh
  cwnd : 3 < k → c.cwnd.toNat ≤ d.cwnd.toNat

section

variable {a : U32} {c d : Conn} {r : DupRound}

theorem count_succ (k : ℕ) : BitVec.ofNat 8 k + 1 = BitVec.ofNat 8 (k + 1) := by
  rw [BitVec.ofNat_add]
  rfl

/-- The byte shows the third duplicate, and the next time only after 256 more. -/
theorem count_third {k : ℕ} (hk : k < 258) : BitVec.ofNat 8 k + 1 = 3 ↔ k + 1 = 3 := by
  rw [count_succ]
  constructor
  · intro heq
    have hmod : (k + 1) % 256 = 3 := congrArg BitVec.toNat heq
    omega
  · intro heq
    rw [heq]
    rfl

theorem quiet_gauge {es : List Event} (h : ∀ e ∈ es, e.quiet = true) (c : Conn) :
    ∃ s, (es.foldl Event.apply c).gauge = { c.gauge with state := s } := by
  induction es generalizing c with
  | nil => exact ⟨c.state, rfl⟩
  | cons e es ih =>
      obtain ⟨s, -, hs⟩ := Event.quiet_drifts (c := c) (h e List.mem_cons_self)
      obtain ⟨s', hs'⟩ := ih (fun e' he' => h e' (List.mem_cons_of_mem e he')) (e.apply c)
      exact ⟨s', by rw [List.foldl_cons, hs', hs]⟩

namespace DupRound.Duplicates

/-- Until `ProcessACK` only the state and the timestamp may have changed. -/
theorem before_gauge (h : r.Duplicates a c) :
    ∃ s ts, (r.before c).gauge = { c.gauge with state := s, tsLastackRcvd := ts } := by
  obtain ⟨s, hs⟩ := quiet_gauge h.quiet c
  change (r.arrival c).gauge = _ at hs
  obtain ⟨d, hd⟩ := Option.isSome_iff_exists.mp h.valid
  have hwindow := h.repeats.window
  unfold before
  rw [hd, Option.getD_some, gauge_admitSegment]
  obtain ⟨recent, rcvd, upd, rfl⟩ := dispatched_eq hd
  refine ⟨s, rcvd, ?_⟩
  have hshift : scaledWindow r.seg { r.arrival c with
      tsRecent := recent, tsLastackRcvd := rcvd, tsLastTsUpd := upd } = (r.arrival c).peerWnd :=
    hwindow
  rw [hshift]
  exact congrArg (fun g : Gauge => { g with tsLastackRcvd := rcvd }) hs

theorem before_repeats (h : r.Duplicates a c) : Repeats a r.seg (r.before c) := by
  obtain ⟨d, hd⟩ := Option.isSome_iff_exists.mp h.valid
  have hrep := h.repeats
  unfold before
  rw [hd, Option.getD_some]
  obtain ⟨recent, rcvd, upd, rfl⟩ := dispatched_eq hd
  generalize r.arrival c = e at hrep ⊢
  have hd : Repeats a r.seg { e with
      tsRecent := recent, tsLastackRcvd := rcvd, tsLastTsUpd := upd } :=
    ⟨hrep.payload, hrep.ack, hrep.una, hrep.window, hrep.outstanding, hrep.buffer⟩
  generalize ({ e with
      tsRecent := recent, tsLastackRcvd := rcvd, tsLastTsUpd := upd } : Conn) = e' at hd ⊢
  have hcore := core_admitSegment r.env r.seg e'
  have hgauge := gauge_admitSegment r.env r.seg e'
  generalize admitSegment r.env r.seg e' = d at hcore hgauge ⊢
  exact hd.congr hcore (congrArg (·.wscalePeer) hgauge)
    ((congrArg (·.peerWnd) hgauge).trans hd.window)

/-- The `k`-th duplicate, up to the wrap of the count. -/
theorem spec (h : r.Duplicates a c) (hwait : Awaits a c) {k : ℕ} (hk : k < 258)
    (hcount : c.dupAcks = BitVec.ofNat 8 k) :
    DupSpec a (k + 1) r.seg (r.before c) (r.apply c) ∧ Awaits a (r.apply c) ∧
      (r.apply c).dupAcks = BitVec.ofNat 8 (k + 1) := by
  obtain ⟨s, ts, hbefore⟩ := h.before_gauge
  have hrep := h.before_repeats
  unfold apply
  generalize r.before c = d at hbefore hrep ⊢
  have hdup : d.dupAcks = BitVec.ofNat 8 k := (congrArg (·.dupAcks) hbefore).trans hcount
  have hwait' : Awaits a d :=
    ⟨(congrArg (·.lastAckSeq) hbefore).trans hwait.lastAckSeq,
      (congrArg (·.sndWl2) hbefore).trans hwait.sndWl2⟩
  obtain ⟨wl1, hcounted, hnxt, htakes⟩ := hrep.processACK r.env hwait'
  generalize processACK r.env r.seg d = e at hcounted hnxt ⊢
  have hnext : d.dupAcks + 1 = BitVec.ofNat 8 (k + 1) := by
    rw [hdup, count_succ]
  have hthird : d.dupAcks + 1 = 3 ↔ k + 1 = 3 := by
    rw [hdup]
    exact count_third hk
  refine ⟨⟨htakes.trans hthird, fun heq => ⟨?_, ?_⟩, fun hne => ⟨?_, ?_⟩, fun hlt => ?_⟩,
    ⟨hcounted.lastAckSeq.trans hwait'.lastAckSeq, hcounted.sndWl2.trans hwait'.sndWl2⟩,
    hcounted.dupAcks.trans hnext⟩
  · rw [hnxt, if_pos (hthird.mpr heq)]
  · exact hcounted.ssthresh.trans (if_pos (hthird.mpr heq))
  · rw [hnxt, if_neg (hthird.not.mpr hne)]
  · exact hcounted.ssthresh.trans (if_neg (hthird.not.mpr hne))
  · exact hcounted.cwnd (hthird.not.mpr (by omega))

/-- In ESTABLISHED a round is what the stack does with a pure ACK. -/
theorem apply_eq (h : r.Duplicates a c) (hstate : (r.arrival c).state = .established)
    (hack : r.seg.ack = true) (hsyn : r.seg.syn = false) (hfin : r.seg.fin = false)
    (hrst : r.seg.rst = false) :
    r.apply c = (r.between ++ [Event.packet r.env r.seg]).foldl Event.apply c := by
  obtain ⟨d, hd⟩ := Option.isSome_iff_exists.mp h.valid
  have hopen : TcpState.synRcvd.code < (r.arrival c).state.code := by
    rw [hstate]
    decide
  have hpayload : r.seg.payload.length = 0 := by rw [h.repeats.payload, List.length_nil]
  rw [List.foldl_append]
  change _ = processTCPPacket r.env r.seg (r.arrival c)
  unfold apply before processTCPPacket
  rw [hd, Option.getD_some, if_pos hopen]
  obtain ⟨recent, rcvd, upd, hstamped⟩ := dispatched_eq hd
  rw [dispatched, if_pos hopen] at hd
  split at hd
  · next hok =>
      have hval : (validateSequence r.env r.seg (r.arrival c)).1 = d := Option.some.inj hd
      have hadmitted : (admitSegment r.env r.seg d).state = .established := by
        rw [show (admitSegment r.env r.seg d).state = d.state from
          congrArg (·.state) (core_admitSegment r.env r.seg d), hstamped]
        exact hstate
      simp only [hok, if_true, hval]
      unfold dispatchSegment handleState handleEstablished receivePayload
      simp only [hrst, hadmitted, hsyn, hack, hfin, hpayload, Bool.false_eq_true, false_and, if_false,
        if_true]
  · cases hd

end DupRound.Duplicates

/-- The streams of a run of duplicates, one after the other. -/
theorem DupRun.spec {rounds : List DupRound} {k : ℕ} (hrun : DupRun a c rounds) (hwait : Awaits a c)
    (hcount : c.dupAcks = BitVec.ofNat 8 k) (hlen : k + rounds.length ≤ 258) {pre post : List DupRound}
    (hsplit : rounds = pre ++ r :: post) :
    DupSpec a (k + pre.length + 1) r.seg (r.before (pre.foldl (fun c r => r.apply c) c))
      (r.apply (pre.foldl (fun c r => r.apply c) c)) := by
  induction pre generalizing rounds c k with
  | nil =>
      subst hsplit
      simp only [List.nil_append, List.length_cons] at hlen
      exact (hrun.1.spec hwait (by omega) hcount).1
  | cons q pre ih =>
      subst hsplit
      simp only [List.cons_append, List.length_cons] at hlen ⊢
      obtain ⟨-, hwait', hcount'⟩ := hrun.1.spec hwait (by omega) hcount
      have hlen' : k + 1 + (pre ++ r :: post).length ≤ 258 := by omega
      have hrest := ih hrun.2 hwait' hcount' hlen' rfl
      rwa [show k + (pre.length + 1) + 1 = k + 1 + pre.length + 1 by omega]

end

/-! ### A long run -/

instance (a : U32) (seg : Segment) (c : Conn) : Decidable (Repeats a seg c) :=
  decidable_of_iff (seg.payload = [] ∧ adjustAck seg.ackSeq c = a ∧ c.sndUna = a ∧
      scaledWindow seg c = c.peerWnd ∧ tcpSeqLt a c.sndNxt ∧
      ∃ b ∈ c.sndbuf, b.headSeq = a ∧ b.len ≤ 2 ^ 31)
    ⟨fun ⟨hp, ha, hu, hw, ho, hb⟩ => ⟨hp, ha, hu, hw, ho, hb⟩,
      fun h => ⟨h.payload, h.ack, h.una, h.window, h.outstanding, h.buffer⟩⟩

instance (a : U32) (r : DupRound) (c : Conn) : Decidable (r.Duplicates a c) :=
  decidable_of_iff ((∀ e ∈ r.between, e.quiet = true) ∧
      (dispatched r.env r.seg (r.arrival c)).isSome = true ∧ Repeats a r.seg (r.arrival c))
    ⟨fun ⟨hq, hv, hr⟩ => ⟨hq, hv, hr⟩, fun h => ⟨h.quiet, h.valid, h.repeats⟩⟩

instance DupRun.decide (a : U32) : (c : Conn) → (rounds : List DupRound) → Decidable (DupRun a c rounds)
  | _, [] => isTrue trivial
  | c, r :: rs => @instDecidableAnd _ _ inferInstance (DupRun.decide a (r.apply c) rs)

section

variable {a : U32} {c : Conn} {r : DupRound}

/-- Without timestamps a segment is valid by its sequence number alone. -/
theorem dispatched_plain (env : Env) (seg : Segment) (hsaw : c.sawTimestamp = false) :
    dispatched env seg c =
      if TcpState.synRcvd.code < c.state.code ∧
        ¬ tcpSeqBetween seg.payloadEnd c.rcvNxt (c.rcvNxt + c.rcvWnd) then none else some c := by
  have hcheck : checkTimestamp env seg c = (c, true) := by
    unfold checkTimestamp
    simp [hsaw]
  unfold dispatched validateSequence
  simp only [hcheck, if_true]
  split_ifs <;> simp_all

/-- The same segment is a duplicate again. -/
theorem DupRound.Duplicates.again (h : r.Duplicates a c) (hnone : r.between = [])
    (hwait : Awaits a c) (hne : c.dupAcks + 1 ≠ 3) (hsaw : c.sawTimestamp = false) :
    r.Duplicates a (r.apply c) ∧ (r.apply c).sawTimestamp = false := by
  have harrival : ∀ d : Conn, r.arrival d = d := fun d => by rw [DupRound.arrival, hnone]; rfl
  have hvalid := h.valid
  have hrepeats := h.repeats
  rw [harrival] at hvalid hrepeats
  have hinside : ¬ (TcpState.synRcvd.code < c.state.code ∧
      ¬ tcpSeqBetween r.seg.payloadEnd c.rcvNxt (c.rcvNxt + c.rcvWnd)) := by
    intro hout
    rw [dispatched_plain r.env r.seg hsaw, if_pos hout] at hvalid
    cases hvalid
  have hsame : dispatched r.env r.seg c = some c := by
    rw [dispatched_plain r.env r.seg hsaw, if_neg hinside]
  have hbefore : r.before c = admitSegment r.env r.seg c := by
    rw [DupRound.before, harrival, hsame]
    rfl
  obtain ⟨s, ts, hgauge⟩ := h.before_gauge
  have hrep := h.before_repeats
  have hcore := core_admitSegment r.env r.seg c
  rw [← hbefore] at hcore
  unfold DupRound.apply
  generalize r.before c = d at hgauge hrep hcore ⊢
  have hwait' : Awaits a d :=
    ⟨(congrArg (·.lastAckSeq) hgauge).trans hwait.lastAckSeq,
      (congrArg (·.sndWl2) hgauge).trans hwait.sndWl2⟩
  have hcount : d.dupAcks = c.dupAcks := congrArg (·.dupAcks) hgauge
  obtain ⟨wl1, hcounted, -, -⟩ := hrep.processACK r.env hwait'
  obtain ⟨dups, last, hkept⟩ := hrep.core_processACK r.env hwait' (hcount ▸ hne)
  rw [hcore] at hkept
  generalize processACK r.env r.seg d = e at hcounted hkept ⊢
  have hsaw' : e.sawTimestamp = false :=
    hcounted.sawTimestamp.trans ((congrArg (·.sawTimestamp) hgauge).trans hsaw)
  refine ⟨⟨by simp [hnone], ?_, ?_⟩, hsaw'⟩
  · have hstate : e.state = c.state := congrArg (·.state) hkept
    have hnxt : e.rcvNxt = c.rcvNxt := congrArg (·.rcvNxt) hkept
    have hwnd : e.rcvWnd = c.rcvWnd := congrArg (·.rcvWnd) hkept
    rw [harrival, dispatched_plain r.env r.seg hsaw', hstate, hnxt, hwnd, if_neg hinside]
    rfl
  · rw [harrival]
    exact hrepeats.congr hkept
      (hcounted.wscalePeer.trans (congrArg (·.wscalePeer) hgauge))
      (hcounted.peerWnd.trans (congrArg (·.peerWnd) hgauge))

/-- Behind the third, the same duplicate can come again until the count has wrapped. -/
theorem DupRun.replicate {n k : ℕ} (h : r.Duplicates a c) (hnone : r.between = [])
    (hwait : Awaits a c) (hsaw : c.sawTimestamp = false) (hcount : c.dupAcks = BitVec.ofNat 8 k)
    (hthree : 3 ≤ k) (hn : k + n ≤ 259) : DupRun a c (List.replicate n r) := by
  induction n generalizing c k with
  | zero => trivial
  | succ n ih =>
      refine ⟨h, ?_⟩
      obtain rfl | hpos := Nat.eq_zero_or_pos n
      · trivial
      · have hne : c.dupAcks + 1 ≠ 3 := by
          rw [hcount]
          exact (count_third (by omega)).not.mpr (by omega)
        obtain ⟨hagain, hsaw'⟩ := h.again hnone hwait hne hsaw
        obtain ⟨-, hwait', hcount'⟩ := h.spec hwait (by omega) hcount
        exact ih hagain hwait' hsaw' hcount' (by omega) (by omega)

end

end MtcpStack
