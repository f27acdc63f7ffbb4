import MtcpStack.Verification.ReceiveSteps
import MtcpStack.Verification.SentData

/-! # The ACK list

What `EnqueueACK` counts is what `WriteTCPACKList` sends, if the stream has a receive buffer and the
counter of six bits has not gone round. -/

namespace MtcpStack

variable {avoid : Hazard → Prop} {env : Env} {c d : Conn} {tx : List Bool}

/-! ## Sending without payload -/

/-- The marks that acknowledgements leave on a stream besides the segments: when the last one was
sent, and whether a closed window was advertised. -/
structure AckMarks where
  lastack : U32
  active : U32
  timeouts : List ℕ
  wndAdv : Bool

/-- The stream when the segments `ts` have left and `tx` answers remain. -/
def Conn.after (c : Conn) (tx : List Bool) (ts : List TxSegment) (m : AckMarks) : Conn :=
  { c with
    tx
    tsLastackSent := m.lastack
    lastActiveTs := m.active
    timeoutList := m.timeouts
    needWndAdv := m.wndAdv
    log := c.log ++ ts.map .sent }

theorem updateTimeoutList_eq (c : Conn) :
    updateTimeoutList c = { c with timeoutList := (updateTimeoutList c).timeoutList } := by
  unfold updateTimeoutList
  split <;> rfl

/-- A bare acknowledgement that `IPOutput` takes. -/
theorem sendTCPPacket_bare (env : Env) {flags : TcpFlags} (hack : flags.ack = true)
    (hctl : flags.ctlLen = 0) (hmss : calculateOptionLength flags ≤ c.mss.toNat)
    (htx : c.tx = true :: tx) :
    ∃ m, sendTCPPacket env flags [] c = (c.after tx [txSegment flags [] c] m, 0) := by
  have hfin : flags.sendsFin = false := by
    by_contra hfin
    simp [TcpFlags.ctlLen, Bool.eq_true_of_not_eq_false hfin] at hctl
  have hlong : ¬ c.mss.toNat < ([] : List U8).length + calculateOptionLength flags := by
    simp only [List.length_nil]
    omega
  have hfill : ∃ m, fillHeader env flags [] { c with tx } = c.after tx [txSegment flags [] c] m := by
    unfold fillHeader
    simp only [hack, hfin, if_true, Bool.false_eq_true, if_false]
    rw [updateTimeoutList_eq]
    split
    · exact ⟨⟨env.curTs, env.curTs, _, true⟩, rfl⟩
    · exact ⟨⟨env.curTs, env.curTs, _, c.needWndAdv⟩, rfl⟩
  obtain ⟨m, hm⟩ := hfill
  refine ⟨m, ?_⟩
  rw [sendTCPPacket, if_neg hlong, htx]
  simp only [hm, hctl, List.length_nil, Nat.add_zero, lt_irrefl, if_false, Nat.cast_zero,
    BitVec.add_zero]

theorem sendAcks_sends (env : Env) {n : ℕ} (hn : c.ackCnt.toNat = n) (hmss : 12 ≤ c.mss.toNat)
    (htx : c.tx = List.replicate n true ++ tx) :
    ∃ m, sendAcks env n c =
      { c.after tx (List.replicate n (txSegment ackFlag [] c)) m with ackCnt := 0 } := by
  induction n generalizing c with
  | zero =>
      refine ⟨⟨c.tsLastackSent, c.lastActiveTs, c.timeoutList, c.needWndAdv⟩, ?_⟩
      have hzero : c.ackCnt = 0 := BitVec.eq_of_toNat_eq hn
      obtain rfl : c.tx = tx := htx
      simp [sendAcks, Conn.after, ← hzero]
  | succ n ih =>
      have hpos : 0 < c.ackCnt.toNat := by omega
      have htx' : c.tx = true :: (List.replicate n true ++ tx) := htx
      obtain ⟨m, hm⟩ := sendTCPPacket_bare env (show ackFlag.ack = true from rfl) rfl hmss htx'
      have hcnt : (c.ackCnt - 1).toNat = n := by
        have := c.ackCnt.isLt
        rw [BitVec.toNat_sub]
        simp only [BitVec.ofNat_eq_ofNat, BitVec.toNat_ofNat]
        omega
      obtain ⟨m', hm'⟩ := ih (c := { c.after (List.replicate n true ++ tx) [txSegment ackFlag [] c] m
        with ackCnt := c.ackCnt - 1 }) hcnt hmss rfl
      refine ⟨m', ?_⟩
      rw [sendAcks, if_pos hpos, hm]
      simp only [lt_irrefl, if_false]
      refine Eq.trans hm' ?_
      simp only [Conn.after, List.replicate_succ, List.map_cons, List.map_nil, List.append_assoc,
        List.cons_append, List.nil_append]
      rfl

theorem sendWack_sends (env : Env) (hmss : 12 ≤ c.mss.toNat)
    (htx : c.tx = List.replicate c.isWack.toNat true ++ tx) :
    ∃ m, sendWack env c = { c.after tx (List.replicate c.isWack.toNat (txSegment wackFlag [] c)) m
      with isWack := false } := by
  unfold sendWack
  cases hwack : c.isWack with
  | false =>
    rw [hwack] at htx
    obtain rfl : c.tx = tx := htx
    refine ⟨⟨c.tsLastackSent, c.lastActiveTs, c.timeoutList, c.needWndAdv⟩, ?_⟩
    have hoff : c = { c with isWack := false } := by rw [← hwack]
    rw [if_neg Bool.false_ne_true]
    simp only [Conn.after, Bool.toNat_false, List.replicate_zero, List.map_nil, List.append_nil]
    exact hoff
  | true =>
    rw [hwack] at htx
    obtain ⟨m, hm⟩ := sendTCPPacket_bare (c := { c with isWack := false }) env
      (show wackFlag.ack = true from rfl) rfl hmss htx
    refine ⟨m, ?_⟩
    simp only [if_true, hm, lt_irrefl, if_false]
    rfl

/-! ## One pass -/

/-- The segments that a pass owes the stream. -/
def owedAcks (c : Conn) : List TxSegment :=
  List.replicate c.ackCnt.toNat (txSegment ackFlag [] c) ++
    List.replicate c.isWack.toNat (txSegment wackFlag [] c)

theorem sentSegments_sent (l : List Act) (ts : List TxSegment) :
    sentSegments (l ++ ts.map .sent) = sentSegments l ++ ts := by
  simp [sentSegments, List.filterMap_append, List.filterMap_map]

theorem releaseControl_log (c : Conn) : (releaseControl c).log = c.log := by
  unfold releaseControl addtoControlList
  split <;> rfl

theorem releaseControl_onAckList (c : Conn) : (releaseControl c).onAckList = c.onAckList := by
  unfold releaseControl addtoControlList
  split <;> rfl

theorem ackListStep_sends (hon : c.onAckList = true) (hto : toAck c = true)
    (hmss : 12 ≤ c.mss.toNat) (hlen : (owedAcks c).length ≤ c.tx.length)
    (htx : ∀ a ∈ c.tx, a = true) :
    sentSegments (ackListStep env c).1.log = sentSegments c.log ++ owedAcks c ∧
      (ackListStep env c).1.onAckList = false := by
  have hall : c.tx = List.replicate c.tx.length true := List.eq_replicate_of_mem htx
  simp only [owedAcks, List.length_append, List.length_replicate] at hlen
  obtain ⟨k, hk⟩ : ∃ k, c.tx.length = c.ackCnt.toNat + (c.isWack.toNat + k) :=
    ⟨c.tx.length - c.ackCnt.toNat - c.isWack.toNat, by omega⟩
  rw [hk, List.replicate_add, List.replicate_add] at hall
  obtain ⟨m, hm⟩ := sendAcks_sends env rfl hmss hall
  obtain ⟨m', hm'⟩ := sendWack_sends (c := { c.after (List.replicate c.isWack.toNat true ++
    List.replicate k true) (List.replicate c.ackCnt.toNat (txSegment ackFlag [] c)) m with
      ackCnt := 0 }) env hmss rfl
  have hdone : sendWack env (sendAcks env c.ackCnt.toNat c) =
      { c.after (List.replicate k true) (owedAcks c) m' with ackCnt := 0, isWack := false } := by
    rw [hm, hm']
    simp only [Conn.after, owedAcks, List.map_append, List.append_assoc]
    rfl
  have hempty : removeFromACKList { c.after (List.replicate k true) (owedAcks c) m' with
      ackCnt := 0, isWack := false } = { c.after (List.replicate k true) (owedAcks c) m' with
        ackCnt := 0
        isWack := false
        onAckList := false
        ackList := c.ackList.erase c.sid
        ackListCnt := c.ackListCnt - 1 } := if_pos hon
  unfold ackListStep
  simp only [hon, hto, if_true, hdone, and_self, hempty]
  split
  · rw [releaseControl_log, releaseControl_onAckList]
    exact ⟨sentSegments_sent .., rfl⟩
  · exact ⟨sentSegments_sent .., rfl⟩

/-- What a pass over a stream on the list leaves in the log. -/
theorem ackListStep_log (hon : c.onAckList = true) : (ackListStep env c).1.log =
    if toAck c then (sendWack env (sendAcks env c.ackCnt.toNat c)).log else c.log := by
  have hremove : ∀ d : Conn, (removeFromACKList d).log = d.log := by
    intro d
    unfold removeFromACKList
    split <;> rfl
  have hrelease : ∀ d : Conn, (if d.controlListWaiting && !d.onSendList then
      (releaseControl d, false) else (d, false)).1.log = d.log := by
    intro d
    split
    · exact releaseControl_log d
    · rfl
  unfold ackListStep
  simp only [hon, if_true]
  rw [hrelease]
  split
  · split
    · exact hremove _
    · rfl
  · exact hremove _

/-- In ESTABLISHED a stream is acknowledged exactly when it has a receive buffer. -/
theorem Reached.toAck_eq (hreached : Reached avoid c) (hstate : c.state = .established) :
    toAck c = c.rcvbuf.isSome := by
  rw [toAck, hstate]
  cases hbuf : c.rcvbuf with
  | none => rfl
  | some b =>
    have hnxt : c.rcvNxt = b.headSeq + BitVec.ofNat 32 b.mergedLen :=
      hreached.aligned.buffered (.inl hstate) b hbuf
    simp only [hnxt]
    rw [Option.isSome_some, decide_eq_true_iff, tcpSeqLeq, BitVec.sub_self]
    decide

/-! ## Requests -/

/-- What a request makes of `ack_cnt`. -/
def AckOpt.count : AckOpt → BitVec 6 → BitVec 6
  | .now, n => n + 1
  | .aggregate, n => if n = 0 then 1 else n
  | .wack, n => n

def AckOpt.probes : AckOpt → Bool
  | .now | .aggregate => false
  | .wack => true

theorem enqueueACK_eq (opt : AckOpt) (c : Conn) : ∃ l n, enqueueACK opt c =
    { c with
      ackCnt := opt.count c.ackCnt
      isWack := c.isWack || opt.probes
      onAckList := true
      ackList := l
      ackListCnt := n } := by
  have hadd : ∀ d : Conn, ∃ l n, addtoACKList d =
      { d with onAckList := true, ackList := l, ackListCnt := n } := by
    intro d
    unfold addtoACKList
    split
    case isTrue hon => exact ⟨d.ackList, d.ackListCnt, by rw [← hon]⟩
    case isFalse => exact ⟨_, _, rfl⟩
  unfold enqueueACK
  cases opt with
  | now =>
    obtain ⟨l, n, h⟩ := hadd { c with ackCnt := c.ackCnt + 1 }
    exact ⟨l, n, h.trans (by rw [AckOpt.probes, Bool.or_false]; rfl)⟩
  | aggregate =>
    obtain ⟨l, n, h⟩ := hadd (if c.ackCnt = 0 then { c with ackCnt := 1 } else c)
    refine ⟨l, n, h.trans ?_⟩
    rw [AckOpt.probes, Bool.or_false, AckOpt.count]
    split <;> rfl
  | wack =>
    obtain ⟨l, n, h⟩ := hadd { c with isWack := true }
    exact ⟨l, n, h.trans (by rw [AckOpt.probes, Bool.or_true]; rfl)⟩

/-- Requests made one after the other. -/
def enqueueACKs (opts : List AckOpt) (c : Conn) : Conn := opts.foldl (fun c opt => enqueueACK opt c) c

/-- Requests change the list and the counter only. -/
theorem enqueueACKs_eq (opts : List AckOpt) (c : Conn) : ∃ k w on l n, enqueueACKs opts c =
    { c with ackCnt := k, isWack := w, onAckList := on, ackList := l, ackListCnt := n } := by
  induction opts generalizing c with
  | nil => exact ⟨_, _, _, _, _, rfl⟩
  | cons opt opts ih =>
      obtain ⟨l, n, h⟩ := enqueueACK_eq opt c
      obtain ⟨k, w, on, l', n', h'⟩ := ih (enqueueACK opt c)
      refine ⟨k, w, on, l', n', ?_⟩
      change enqueueACKs opts (enqueueACK opt c) = _
      rw [h', h]

/-- Requests for acknowledgements leave the request for a probe as it is. -/
theorem enqueueACKs_isWack {opts : List AckOpt}
    (hopts : ∀ opt ∈ opts, opt = .now ∨ opt = .aggregate) :
    (enqueueACKs opts c).isWack = c.isWack := by
  induction opts generalizing c with
  | nil => rfl
  | cons opt opts ih =>
      obtain ⟨l, n, h⟩ := enqueueACK_eq opt c
      have hrest := ih (c := enqueueACK opt c) fun o ho => hopts o (List.mem_cons_of_mem opt ho)
      refine hrest.trans ?_
      rw [h]
      rcases hopts opt List.mem_cons_self with rfl | rfl <;> exact Bool.or_false _

/-- The counter goes back to zero in one way only. -/
theorem enqueueACKs_counted {opts : List AckOpt} (hne : opts ≠ [])
    (hopts : ∀ opt ∈ opts, opt = .now ∨ opt = .aggregate) :
    ((enqueueACKs opts c).ackCnt ≠ 0 ↔
        ∀ os, opts = os ++ [.now] → (enqueueACKs os c).ackCnt ≠ 63) ∧
      (enqueueACKs opts c).onAckList = true := by
  obtain ⟨os, opt, rfl⟩ := (List.eq_nil_or_concat' opts).resolve_left hne
  obtain ⟨l, n, h⟩ := enqueueACK_eq opt (enqueueACKs os c)
  have hstep : enqueueACKs (os ++ [opt]) c = enqueueACK opt (enqueueACKs os c) := by
    simp [enqueueACKs]
  rw [hstep, h]
  refine ⟨?_, rfl⟩
  simp only
  generalize hk : (enqueueACKs os c).ackCnt = k
  rcases hopts opt (by simp) with rfl | rfl
  · have hwraps : ∀ k : BitVec 6, k + 1 ≠ 0 ↔ k ≠ 63 := by decide
    simp only [AckOpt.count, hwraps, List.append_cancel_right_eq]
    constructor
    · rintro h63 os rfl
      rwa [hk]
    · intro hlast
      rw [← hk]
      exact hlast os rfl
  · have hcount : AckOpt.aggregate.count k ≠ 0 := by
      rw [AckOpt.count]
      split
      · decide
      · assumption
    refine iff_of_true hcount fun os' hos => ?_
    simp at hos

/-- The loop sends on top of what was sent. -/
theorem sendAcks_sent (env : Env) (n : ℕ) (c : Conn) :
    ∃ ts, sentSegments (sendAcks env n c).log = sentSegments c.log ++ ts := by
  induction n generalizing c with
  | zero => exact ⟨[], by simp [sendAcks]⟩
  | succ n ih =>
      have hsent := sentSegments_sendTCPPacket env ackFlag [] c
      unfold sendAcks
      split
      · simp only
        split
        · exact ⟨_, hsent⟩
        · generalize (sendTCPPacket env ackFlag [] c).1 = d at hsent ⊢
          obtain ⟨ts, hts⟩ := ih { d with ackCnt := d.ackCnt - 1 }
          have hmore : sentSegments (sendAcks env n { d with ackCnt := d.ackCnt - 1 }).log =
            sentSegments d.log ++ ts := hts
          rw [hsent, List.append_assoc] at hmore
          exact ⟨_, hmore⟩
      · exact ⟨[], by simp⟩

theorem sendWack_sent (env : Env) (c : Conn) :
    ∃ ts, sentSegments (sendWack env c).log = sentSegments c.log ++ ts := by
  have hsent := sentSegments_sendTCPPacket env wackFlag [] { c with isWack := false }
  unfold sendWack
  split
  · simp only
    split <;> exact ⟨_, hsent⟩
  · exact ⟨[], by simp⟩

/-- The first acknowledgement of a pass. -/
theorem ackListStep_first (hon : c.onAckList = true) (hto : toAck c = true) (hcnt : c.ackCnt ≠ 0)
    (hsend : 0 ≤ (sendTCPPacket env ackFlag [] c).2) :
    ∃ ts, sentSegments (ackListStep env c).1.log =
      sentSegments c.log ++ txSegment ackFlag [] c :: ts := by
  have hpos : 0 < c.ackCnt.toNat := Nat.pos_of_ne_zero fun h => hcnt (BitVec.eq_of_toNat_eq h)
  obtain ⟨n, hn⟩ : ∃ n, c.ackCnt.toNat = n + 1 := ⟨_, (Nat.succ_pred_eq_of_pos hpos).symm⟩
  have hacks : ∃ ts, sentSegments (sendAcks env c.ackCnt.toNat c).log =
      sentSegments c.log ++ txSegment ackFlag [] c :: ts := by
    have hsent := sentSegments_sendTCPPacket env ackFlag [] c
    rw [if_neg (not_lt.mpr hsend)] at hsent
    rw [hn, sendAcks, if_pos hpos]
    simp only [if_neg (not_lt.mpr hsend)]
    obtain ⟨ts, hts⟩ := sendAcks_sent env n { (sendTCPPacket env ackFlag [] c).1 with
      ackCnt := (sendTCPPacket env ackFlag [] c).1.ackCnt - 1 }
    refine ⟨ts, hts.trans ?_⟩
    rw [hsent, List.append_assoc, List.singleton_append]
  obtain ⟨ts, hts⟩ := hacks
  obtain ⟨us, hus⟩ := sendWack_sent env (sendAcks env c.ackCnt.toNat c)
  refine ⟨ts ++ us, ?_⟩
  rw [hts, List.append_assoc, List.cons_append] at hus
  rw [ackListStep_log hon, if_pos hto, hus]

/-- With the counter at zero a pass in which a bare segment goes out sends the probe, if any. -/
theorem ackListStep_uncounted (hon : c.onAckList = true) (hto : toAck c = true)
    (hcnt : c.ackCnt = 0) (hsend : 0 ≤ (sendTCPPacket env ackFlag [] c).2) :
    sentSegments (ackListStep env c).1.log =
      sentSegments c.log ++ List.replicate c.isWack.toNat (txSegment wackFlag [] c) := by
  have hnone : sendAcks env c.ackCnt.toNat c = c := by
    rw [hcnt]
    rfl
  have hprobe : ¬ (sendTCPPacket env wackFlag [] { c with isWack := false }).2 < 0 := by
    unfold sendTCPPacket at hsend ⊢
    have hopt : calculateOptionLength wackFlag = calculateOptionLength ackFlag := rfl
    simp only [hopt] at hsend ⊢
    split at hsend
    · simp [error] at hsend
    · next hfits =>
        rw [if_neg hfits]
        split at hsend
        · simp at hsend
        · simp at hsend
        · exact of_decide_eq_false rfl
  have hsent := sentSegments_sendTCPPacket env wackFlag [] { c with isWack := false }
  rw [if_neg hprobe] at hsent
  rw [ackListStep_log hon, if_pos hto, hnone, sendWack]
  cases c.isWack with
  | false => simp
  | true =>
    simp only [if_true, if_neg hprobe]
    exact hsent

/-- A request for an acknowledgement is answered, unless the last one finds the counter at 63;
then no acknowledgement leaves but a probe that is due. -/
theorem ack_requests_kept {opts : List AckOpt} (hreached : Reached avoid c)
    (hstate : c.state = .established) (hbuf : c.rcvbuf.isSome = true) (hne : opts ≠ [])
    (hopts : ∀ opt ∈ opts, opt = .now ∨ opt = .aggregate)
    (hsend : 0 ≤ (sendTCPPacket env ackFlag [] { enqueueACKs opts c with tx }).2) :
    ((∀ os, opts = os ++ [.now] → (enqueueACKs os c).ackCnt ≠ 63) →
      ∃ t ts, sentSegments ((Event.ackPass env tx).apply (enqueueACKs opts c)).log =
          sentSegments c.log ++ t :: ts ∧
        t.flags = ackFlag ∧ t.ackSeq = c.rcvNxt ∧ t.payload = []) ∧
    ((∃ t ts, sentSegments ((Event.ackPass env tx).apply (enqueueACKs opts c)).log =
          sentSegments c.log ++ t :: ts ∧
        t.flags.ack = true ∧ t.ackSeq = c.rcvNxt ∧ t.payload = []) ↔
      (∀ os, opts = os ++ [.now] → (enqueueACKs os c).ackCnt ≠ 63) ∨ c.isWack = true) := by
  have hto : toAck c = true := (hreached.toAck_eq hstate).trans hbuf
  obtain ⟨hcnt, hon⟩ := enqueueACKs_counted (c := c) hne hopts
  have hwack := enqueueACKs_isWack (c := c) hopts
  rw [← hcnt]
  obtain ⟨k, w, on, l, n, heq⟩ := enqueueACKs_eq opts c
  rw [heq] at hon hsend hwack ⊢
  obtain rfl : w = c.isWack := hwack
  simp only at hsend ⊢
  let d : Conn :=
    { c with ackCnt := k, isWack := c.isWack, onAckList := on, ackList := l, ackListCnt := n, tx }
  have hkept : k ≠ 0 → ∃ ts, sentSegments (ackListStep env d).1.log =
      sentSegments c.log ++ txSegment ackFlag [] c :: ts :=
    fun hk => ackListStep_first (c := d) hon hto hk hsend
  refine ⟨fun hk => ?_, ?_, ?_⟩
  · obtain ⟨ts, hts⟩ := hkept hk
    exact ⟨_, ts, hts, rfl, rfl, rfl⟩
  · rintro ⟨t, ts, hsent, -⟩
    by_contra hlost
    obtain ⟨hk, hw⟩ := not_or.mp hlost
    have hnone := ackListStep_uncounted (c := d) hon hto (not_not.mp hk) hsend
    have hoff : d.isWack = false := Bool.eq_false_iff.mpr hw
    rw [hoff, Bool.toNat_false, List.replicate_zero, List.append_nil] at hnone
    have hempty : sentSegments c.log = sentSegments c.log ++ t :: ts := hnone.symm.trans hsent
    simp at hempty
  · intro hor
    by_cases hk : k = 0
    · have hprobe := ackListStep_uncounted (c := d) hon hto hk hsend
      have hw : d.isWack = true := hor.resolve_left (not_not.mpr hk)
      rw [hw] at hprobe
      exact ⟨_, [], hprobe, rfl, rfl, rfl⟩
    · obtain ⟨ts, hts⟩ := hkept hk
      exact ⟨_, ts, hts, rfl, rfl, rfl⟩

/-- A connected stream that has received a byte and acknowledged it. -/
def servedConn : Conn :=
  (activeOpen quietEnv ++ [Event.packet quietEnv { plainSegment with
    seq := 501, ack := true, payload := [7] }, .ackPass quietEnv [true]]).foldl
      Event.apply connectingConn

theorem servedConn_reached : Reached (fun _ => False) servedConn :=
  (Reached.born (.active quietEnv.cfg 100 quietSocket 0 Shared.init true)).run (by decide +kernel)

/-- Sixty-four requests for an immediate acknowledgement, and none is sent. -/
theorem ack_requests_lost :
    Reached (fun _ => False) servedConn ∧ servedConn.state = .established ∧
      servedConn.rcvbuf.isSome = true ∧ servedConn.ackCnt = 0 ∧
      let c := enqueueACKs (List.replicate 64 .now) servedConn
      let d := (Event.ackPass quietEnv (List.replicate 64 true)).apply c
      c.onAckList = true ∧ 0 ≤ (sendTCPPacket quietEnv ackFlag [] { c with tx := [true] }).2 ∧
        sentSegments d.log = sentSegments servedConn.log ∧ d.onAckList = false :=
  ⟨servedConn_reached, by decide +kernel⟩

theorem ack_requests_kept_three :
    ∃ t ts, sentSegments ((Event.ackPass quietEnv [true, true]).apply
        (enqueueACKs [.now, .aggregate, .now] servedConn)).log = sentSegments servedConn.log ++ t :: ts ∧
      t.flags = ackFlag ∧ t.ackSeq = 502 ∧ t.payload = [] := by
  refine (ack_requests_kept servedConn_reached (by decide +kernel) (by decide +kernel) (by simp)
    (by decide) (by decide +kernel)).1 fun os hos => ?_
  obtain rfl : os = [.now, .aggregate] := (List.append_inj_left' hos rfl).symm
  decide +kernel

/-! ## Acknowledgements and probes on the wire -/

/-- Every `SendTCPPacket` of the pass succeeds: a segment holds the options, and `IPOutput` takes
each one that the stream is owed. -/
structure PassSucceeds (c : Conn) (tx : List Bool) : Prop where
  mss_ge : 12 ≤ c.mss.toNat
  taken : ∀ a ∈ tx, a = true
  enough : (owedAcks c).length ≤ tx.length

/-- `FlushTCPSendingBuffer` finds bytes to send and the window of the peer full, and the last
acknowledgement was sent more than 500 ms ago. -/
structure Blocked (env : Env) (b : SendBuffer) (c : Conn) : Prop where
  head_le : ¬ tcpSeqLt c.sndNxt b.headSeq
  una_le : ¬ tcpSeqLt c.sndNxt c.sndUna
  waits : (c.sndNxt - b.headSeq).toNat < b.len
  full : windowFull c = true
  peer_le : c.peerWnd.toNat ≤ c.cwnd.toNat
  quiet : 500 < ((env.curTs - c.tsLastackSent) * 1000).toNat / 1000

/-- A pass sends what the stream is owed, if it is to be acknowledged at all, and takes it off the
list. -/
theorem ackPass_spec (env : Env) (hon : c.onAckList = true) (hsucc : PassSucceeds c tx) :
    sentSegments ((Event.ackPass env tx).apply c).log =
        sentSegments c.log ++ (if toAck c then owedAcks c else []) ∧
      ((Event.ackPass env tx).apply c).onAckList = false := by
  cases hto : toAck c with
  | true =>
    exact ackListStep_sends (c := { c with tx }) hon hto hsucc.mss_ge hsucc.enough hsucc.taken
  | false =>
    have hto' : toAck { c with tx } = false := hto
    have hlog : (ackListStep env { c with tx }).1.log = c.log :=
      (ackListStep_log (c := { c with tx }) hon).trans (by rw [hto']; rfl)
    refine ⟨(congrArg sentSegments hlog).trans (List.append_nil _).symm, ?_⟩
    change (ackListStep env { c with tx }).1.onAckList = false
    unfold ackListStep
    simp only [hon, if_true, hto', Bool.false_eq_true, if_false, removeFromACKList]
    split
    · rw [releaseControl_onAckList]
    · rfl

/-- The segment before the window, a repeated SYN/ACK, asks for an acknowledgement. -/
theorem processTCPPacket_repeated {seg : Segment} (hstate : c.state = .established)
    (hseq : seg.seq + 1 = c.rcvNxt) (hpay : seg.payload = []) (hrst : seg.rst = false)
    (hts : (checkTimestamp env seg c).2 = true) :
    processTCPPacket env seg c = enqueueACK .aggregate (checkTimestamp env seg c).1 := by
  obtain ⟨recent, ref, upd, hcheck⟩ := checkTimestamp_passed hts
  have hcode : TcpState.synRcvd.code < c.state.code := by
    rw [hstate]
    decide
  have hout : ¬ tcpSeqBetween seg.payloadEnd c.rcvNxt (c.rcvNxt + c.rcvWnd) := by
    rintro ⟨hge, -⟩
    have hbefore : seg.payloadEnd - c.rcvNxt = -1 := by
      rw [Segment.payloadEnd, hpay, ← hseq]
      simp
    rw [tcpSeqGeq, hbefore] at hge
    exact absurd hge (by decide)
  rw [processTCPPacket, if_pos hcode, validateSequence]
  simp only [hts, if_true, hcheck, if_neg hout, Bool.false_eq_true, if_false]
  have hnot : ¬ seg.rst = true := by simp [hrst]
  exact (if_neg hnot).trans ((if_pos hstate).trans (if_pos hseq))

/-- A blocked stream asks for a probe and stays on the send list. -/
theorem dataListStep_blocked {b : SendBuffer} (hstate : c.state = .established)
    (hon : c.onSendList = true) (hctl : c.onControlList = false) (hbuf : c.sndbuf = some b)
    (hblocked : Blocked env b c) : ∃ l l' n, (dataListStep env c).1 =
      { c with isWack := true, onAckList := true, ackList := l, ackListCnt := n, sendList := l' } := by
  have hwaits := hblocked.waits
  have hprobe : ∀ l, ∃ l' n, probeWindow env { c with sendList := l } =
      { c with isWack := true, onAckList := true, ackList := l', ackListCnt := n, sendList := l } := by
    intro l
    obtain ⟨l', n, h⟩ := enqueueACK_eq .wack { c with sendList := l }
    refine ⟨l', n, ?_⟩
    rw [probeWindow, if_pos ⟨hblocked.peer_le, hblocked.quiet⟩, h, AckOpt.probes, Bool.or_true]
    rfl
  obtain ⟨l', n, hprobe⟩ := hprobe (c.sendList.erase c.sid)
  have hflush : flushTCPSendingBuffer env { c with sendList := c.sendList.erase c.sid } =
      (probeWindow env { c with sendList := c.sendList.erase c.sid }, -3) := by
    have hlen : ¬ b.len = 0 := by omega
    have hend : ¬ b.len < (c.sndNxt - b.headSeq).toNat := by omega
    have hleft : ¬ b.len - (c.sndNxt - b.headSeq).toNat = 0 := by omega
    have hfull : windowFull { c with sendList := c.sendList.erase c.sid } = true := hblocked.full
    simp only [flushTCPSendingBuffer, hbuf, if_neg hlen, flushLoop, flushStep,
      if_neg hblocked.head_le, if_neg hblocked.una_le, if_neg hend, if_neg hleft, hfull, if_true]
  refine ⟨l', c.sendList.erase c.sid ++ [c.sid], n, ?_⟩
  simp only [dataListStep, hon, if_true, sendListed, hstate, hctl, Bool.false_eq_true, if_false,
    hflush, hprobe]
  rfl

/-- A stream is sent what it is owed exactly when it has a receive buffer or is owed nothing; so
a repeated SYN/ACK is acknowledged, and a full window probed, exactly when there is a receive
buffer. -/
theorem acks_and_probes_sent (hreached : Reached avoid c) (hstate : c.state = .established) :
    (c.onAckList = true → ∀ env tx, PassSucceeds c tx →
      ((sentSegments ((Event.ackPass env tx).apply c).log = sentSegments c.log ++
            List.replicate c.ackCnt.toNat (txSegment ackFlag [] c) ++
            List.replicate c.isWack.toNat (txSegment wackFlag [] c) ∧
          (txSegment ackFlag [] c).ackSeq = c.rcvNxt ∧
          ((Event.ackPass env tx).apply c).onAckList = false) ↔
        c.rcvbuf.isSome = true ∨ c.ackCnt = 0 ∧ c.isWack = false)) ∧
    (∀ env seg, seg.seq + 1 = c.rcvNxt → seg.payload = [] → seg.rst = false →
      (checkTimestamp env seg c).2 = true → ∀ env' tx,
        let d := (Event.packet env seg).apply c
        PassSucceeds d tx → ((∃ t ts,
          sentSegments ((Event.ackPass env' tx).apply d).log = sentSegments c.log ++ t :: ts ∧
            t.flags = ackFlag ∧ t.ackSeq = c.rcvNxt ∧ t.payload = []) ↔
          c.rcvbuf.isSome = true)) ∧
    ∀ env tx b, c.onSendList = true → c.onControlList = false → c.sndbuf = some b →
      Blocked env b c → ∀ env' tx',
        let d := (Event.dataPass env tx).apply c
        PassSucceeds d tx' → ((∃ ts,
          sentSegments ((Event.ackPass env' tx').apply d).log = sentSegments c.log ++ ts ∧
            txSegment wackFlag [] c ∈ ts) ↔ c.rcvbuf.isSome = true) := by
  have hto := hreached.toAck_eq hstate
  refine ⟨fun hon env tx hsucc => ?_, fun env seg hseq hpay hrst hts env' tx => ?_,
    fun env tx b hon hctl hb hblocked env' tx' => ?_⟩
  · obtain ⟨hsent, hoff⟩ := ackPass_spec env hon hsucc
    have hnxt : (txSegment ackFlag [] c).ackSeq = c.rcvNxt := rfl
    rw [hsent, hoff, hto, owedAcks, List.append_assoc]
    cases c.rcvbuf.isSome with
    | true => exact iff_of_true ⟨rfl, hnxt, rfl⟩ (.inl rfl)
    | false =>
      have hzero : c.ackCnt.toNat = 0 ↔ c.ackCnt = 0 := by rw [BitVec.toNat_eq]; rfl
      have hwack : c.isWack.toNat = 0 ↔ c.isWack = false := by cases c.isWack <;> decide
      simp [hzero, hwack, hnxt]
  · intro d hsucc
    have hpacket : d = enqueueACK .aggregate (checkTimestamp env seg c).1 :=
      processTCPPacket_repeated hstate hseq hpay hrst hts
    obtain ⟨recent, ref, upd, hcheck⟩ := checkTimestamp_passed hts
    obtain ⟨l, n, heq⟩ := enqueueACK_eq .aggregate (checkTimestamp env seg c).1
    rw [heq, hcheck] at hpacket
    have hon : d.onAckList = true := by rw [hpacket]
    have htoAck : toAck d = c.rcvbuf.isSome := by rw [hpacket]; exact hto
    rw [(ackPass_spec env' hon hsucc).1, htoAck, hpacket]
    cases c.rcvbuf.isSome with
    | false => simp
    | true =>
      have hcnt : AckOpt.aggregate.count c.ackCnt ≠ 0 := by
        rw [AckOpt.count]
        split
        · decide
        · assumption
      obtain ⟨k, hk⟩ : ∃ k, (AckOpt.aggregate.count c.ackCnt).toNat = k + 1 :=
        ⟨_, (Nat.succ_pred_eq_of_ne_zero fun h => hcnt (BitVec.eq_of_toNat_eq h)).symm⟩
      refine iff_of_true ⟨txSegment ackFlag [] c, List.replicate k (txSegment ackFlag [] c) ++
        List.replicate (c.isWack || AckOpt.aggregate.probes).toNat (txSegment wackFlag [] c), ?_,
        rfl, rfl, rfl⟩ rfl
      simp only [owedAcks, hk, List.replicate_succ, List.cons_append]
      rfl
  · intro d hsucc
    obtain ⟨l, l', n, heq⟩ := dataListStep_blocked (c := { c with tx }) hstate hon hctl hb
      ⟨hblocked.head_le, hblocked.una_le, hblocked.waits, hblocked.full, hblocked.peer_le,
        hblocked.quiet⟩
    have hd : d = (dataListStep env { c with tx }).1 := rfl
    rw [heq] at hd
    have hlisted : d.onAckList = true := by rw [hd]
    have htoAck : toAck d = c.rcvbuf.isSome := by rw [hd]; exact hto
    rw [(ackPass_spec env' hlisted hsucc).1, htoAck, hd]
    cases c.rcvbuf.isSome with
    | false => simp
    | true =>
      exact iff_of_true ⟨_, rfl, List.mem_append_right _ (List.mem_singleton.mpr rfl)⟩ rfl

/-- Long after the last acknowledgement. -/
def lateEnv : Env := { quietEnv with curTs := 1000 }

/-- A connected stream with bytes to send to a peer that has closed its window. -/
def blockedConn : Conn :=
  (activeOpen quietEnv ++ [Event.packet quietEnv { plainSegment with
    seq := 501, ack := true, window := 0 }, .write quietEnv [1, 2, 3], .sendq,
      .dataPass lateEnv [true]]).foldl Event.apply connectingConn

/-- A connected stream that meets the SYN/ACK once more. -/
def repeatedConn : Conn :=
  (activeOpen quietEnv ++ [Event.packet quietEnv { plainSegment with
    syn := true, ack := true }]).foldl Event.apply connectingConn

/-- Without a receive buffer the pass drops what is due: neither the repeated SYN/ACK is answered
nor the window probed. -/
theorem acks_and_probes_dropped :
    (Reached (fun _ => False) repeatedConn ∧ repeatedConn.state = .established ∧
      repeatedConn.rcvbuf = none ∧ repeatedConn.onAckList = true ∧ repeatedConn.ackCnt = 1 ∧
      let d := (Event.ackPass quietEnv [true]).apply repeatedConn
      sentSegments d.log = sentSegments repeatedConn.log ∧ d.onAckList = false) ∧
    Reached (fun _ => False) blockedConn ∧ blockedConn.state = .established ∧
      blockedConn.onAckList = true ∧ blockedConn.isWack = true ∧
      let d := (Event.ackPass lateEnv [true]).apply blockedConn
      sentSegments d.log = sentSegments blockedConn.log ∧ d.onAckList = false := by
  exact ⟨⟨reached_connectingConn.run (by decide +kernel), by decide +kernel⟩,
    reached_connectingConn.run (by decide +kernel), by decide +kernel⟩

/-- Once a byte has arrived a segment before the window is answered. -/
theorem acks_and_probes_sent_repeated :
    ∃ t ts, sentSegments ((Event.ackPass quietEnv [true]).apply ((Event.packet quietEnv { plainSegment
        with seq := 501, syn := true, ack := true }).apply servedConn)).log =
          sentSegments servedConn.log ++ t :: ts ∧
      t.flags = ackFlag ∧ t.ackSeq = servedConn.rcvNxt ∧ t.payload = [] :=
  ((acks_and_probes_sent servedConn_reached (by decide +kernel)).2.1 quietEnv _
    (by decide +kernel) rfl rfl (by decide +kernel) quietEnv [true]
    ⟨by decide +kernel, by decide, by decide +kernel⟩).mpr (by decide +kernel)

end MtcpStack
