import MtcpStack.Verification.Effects
import MtcpStack.Verification.SendBuffer

/-! # `ProcessACK` as effects

The stages of `ProcessACK` count duplicates, rewind `snd_nxt` on the third, move it forward again,
and release what is acknowledged. Each is one effect on the endpoint. -/

namespace MtcpStack

variable {avoid : Hazard → Prop} {sg : Option Segment} {b : SendBuffer} {ackSeq : U32} {c : Conn}

/-! ## Frames -/

/-- Only what an acknowledgement moves has changed. -/
def Endpoint.Acks (p q : Endpoint) : Prop :=
  q = { p with
    dupAcks := q.dupAcks
    lastAckSeq := q.lastAckSeq
    sndNxt := q.sndNxt
    onSendList := q.onSendList
    sndbuf := q.sndbuf
    sndUna := q.sndUna
    inRto := q.inRto }

theorem Endpoint.Acks.trans {p q r : Endpoint} (h : p.Acks q) (h' : q.Acks r) : p.Acks r := by
  unfold Endpoint.Acks at h h' ⊢
  rw [h'] at *
  rw [h]

/-- What the hazards say about the acknowledgement in the segment. -/
structure AckSafe (avoid : Hazard → Prop) (seg : Segment) (p : Endpoint) : Prop where
  stale : avoid .staleRewind → p.thirdDup seg → ¬ tcpSeqLt (p.adjusted seg.ackSeq) p.sndUna
  far : avoid .farAck → ∀ b, p.sndbuf = some b →
    p.adjusted seg.ackSeq - b.endSeq ≠ 2147483648#32

/-! ## The duplicate count -/

theorem core_countDupAck (dup : Bool) (ackSeq : U32) (c : Conn) :
    (countDupAck dup ackSeq c).core =
      { c.core with
        dupAcks := if dup then c.dupAcks + 1 else 0
        lastAckSeq := if dup then c.lastAckSeq else ackSeq } := by
  unfold countDupAck
  cases dup <;> rfl

theorem core_fastRetransmit (hbuf : c.sndbuf.isSome = true) (hlt : tcpSeqLt ackSeq c.sndNxt) :
    (fastRetransmit ackSeq c).core = { c.core with sndNxt := ackSeq, onSendList := true } := by
  have hcount : ∀ d : Conn,
      (if d.nrtx.toNat < tcpMaxRtx.toNat then { d with nrtx := d.nrtx + 1 } else d).core = d.core := by
    intro d
    split <;> rfl
  have hkept := hcount
    { c with
      sndNxt := ackSeq
      ssthresh := lossThreshold { c with sndNxt := ackSeq }
      cwnd := lossThreshold { c with sndNxt := ackSeq } + BitVec.ofNat 32 (3 * c.mss.toNat) }
  unfold fastRetransmit
  simp only [if_pos hlt]
  generalize (if _ < tcpMaxRtx.toNat then _ else _ : Conn) = d at hkept ⊢
  have hdbuf : d.sndbuf = c.sndbuf := congrArg (·.sndbuf) hkept
  rw [core_addtoSendList, hdbuf, hbuf, Bool.or_true, hkept]
  rfl

/-- The third duplicate rewinds the stream; every other acknowledgement only counts. -/
theorem core_dupAckStage (dup : Bool) (ackSeq : U32) (hbuf : c.sndbuf.isSome = true)
    (hdup : dup = true → tcpSeqLt ackSeq c.sndNxt) :
    ∃ dups last, (dupAckStage dup ackSeq c).core =
        { c.core with dupAcks := dups, lastAckSeq := last } ∨
      dup = true ∧ c.dupAcks = 2 ∧ (dupAckStage dup ackSeq c).core =
        { c.core with
          dupAcks := dups, lastAckSeq := last, sndNxt := ackSeq, onSendList := true } := by
  have hcount := core_countDupAck dup ackSeq c
  refine ⟨if dup then c.dupAcks + 1 else 0, if dup then c.lastAckSeq else ackSeq, ?_⟩
  unfold dupAckStage
  simp only
  generalize countDupAck dup ackSeq c = d at hcount ⊢
  split
  case isTrue h =>
    right
    have hnxt : d.sndNxt = c.sndNxt := congrArg (·.sndNxt) hcount
    have hdbuf : d.sndbuf = c.sndbuf := congrArg (·.sndbuf) hcount
    have hthree : d.dupAcks = if dup then c.dupAcks + 1 else 0 := congrArg (·.dupAcks) hcount
    rw [if_pos h.1, h.2] at hthree
    refine ⟨h.1, ?_, ?_⟩
    · have hpred : c.dupAcks = c.dupAcks + 1 - 1 := by ring
      rw [hpred, ← hthree]
      rfl
    · rw [core_fastRetransmit (hdbuf ▸ hbuf) (hnxt ▸ hdup h.1), hcount]
  case isFalse =>
    left
    split
    · rw [core_inflateCwnd]
      exact hcount
    · exact hcount

theorem dupAckStage_effects {seg : Segment} {dup : Bool}
    (hbuf : c.sndbuf = some b) (hend : ¬ tcpSeqGt ackSeq b.endSeq)
    (hack : ackSeq = c.core.adjusted seg.ackSeq)
    (hdup : dup = true → tcpSeqLt ackSeq c.sndNxt ∧ ackSeq = c.lastAckSeq ∧ seg.payload.length = 0)
    (hsafe : AckSafe avoid seg c.core) :
    Effects avoid sg c.core (dupAckStage dup ackSeq c).core ∧
      c.core.Acks (dupAckStage dup ackSeq c).core ∧ (dupAckStage dup ackSeq c).sndbuf = some b ∧
      ((dupAckStage dup ackSeq c).sndNxt = c.sndNxt ∨
        (dupAckStage dup ackSeq c).sndNxt = ackSeq) := by
  obtain ⟨dups, last, hcore | ⟨hd, htwo, hcore⟩⟩ :=
    core_dupAckStage dup ackSeq (c := c) (by simp [hbuf]) fun h => (hdup h).1
  · have hkept : (dupAckStage dup ackSeq c).sndbuf = c.sndbuf := congrArg (·.sndbuf) hcore
    have hnxt : (dupAckStage dup ackSeq c).sndNxt = c.sndNxt := congrArg (·.sndNxt) hcore
    rw [hcore]
    exact ⟨.single (.dupAck dups last), rfl, hkept.trans hbuf, .inl hnxt⟩
  · have hkept : (dupAckStage dup ackSeq c).sndbuf = c.sndbuf := congrArg (·.sndbuf) hcore
    have hnxt : (dupAckStage dup ackSeq c).sndNxt = ackSeq := congrArg (·.sndNxt) hcore
    obtain ⟨hlt, hlast, hpay⟩ := hdup hd
    have hthird : c.core.thirdDup seg :=
      ⟨by simp [hbuf], hpay, htwo, hack ▸ hlast, hack ▸ hlt⟩
    have hrewind : Effect avoid sg c.core { c.core with sndNxt := ackSeq, onSendList := true } :=
      .rewind hbuf hend hlt fun ha => hack ▸ hsafe.stale ha hthird
    rw [hcore]
    exact ⟨(Relation.ReflTransGen.single hrewind).tail (.dupAck dups last), rfl, hkept.trans hbuf,
      .inr hnxt⟩

/-! ## Recovery and release -/

theorem core_recoverSndNxt (hgt : tcpSeqGt ackSeq c.sndNxt) :
    (recoverSndNxt b ackSeq c).core =
      { c.core with
        sndNxt := ackSeq
        onSendList := c.onSendList && decide (b.len ≠ 0) } := by
  unfold recoverSndNxt
  simp only [if_pos hgt]
  split
  case isTrue h =>
    rw [core_removeFromSendList]
    simp [h, Conn.core]
  case isFalse h => simp [h, Conn.core]

theorem core_releaseAcked (b : SendBuffer) (rmlen : ℕ) (ackSeq : U32) (c : Conn) :
    (releaseAcked b rmlen ackSeq c).core =
      { c.core with sndbuf := some (sbRemove b rmlen).1, sndUna := ackSeq } := by
  unfold releaseAcked
  simp only
  split
  · rw [core_raiseWriteEvent]
    rfl
  · rfl

theorem core_ackNewData (env : Env) (b : SendBuffer) (ackSeq : U32) (c : Conn) :
    (ackNewData env b ackSeq c).core =
      { c.core with
        sndbuf := some (sbRemove b (ackSeq - b.headSeq).toNat).1
        sndUna := ackSeq
        inRto := decide (tcpSeqGt c.sndNxt ackSeq) && !c.onTimewaitList } := by
  have hzero : (if c.effMss = 0 then c.fault .divByZero else c).core = c.core := by
    split
    · exact core_fault_skipped c rfl
    · rfl
  unfold ackNewData
  simp only
  generalize (if c.effMss = 0 then c.fault .divByZero else c) = d at hzero ⊢
  have hreleased := core_releaseAcked b (ackSeq - b.headSeq).toNat ackSeq
    (growCwnd (ackedPackets (ackSeq - b.headSeq).toNat d) (updateRto env d))
  rw [core_growCwnd, core_updateRto, hzero] at hreleased
  generalize releaseAcked b (ackSeq - b.headSeq).toNat ackSeq _ = e at hreleased ⊢
  have hnxt : e.sndNxt = c.sndNxt := congrArg (·.sndNxt) hreleased
  have huna : e.sndUna = ackSeq := congrArg (·.sndUna) hreleased
  have htw : e.onTimewaitList = c.onTimewaitList := congrArg (·.onTimewaitList) hreleased
  rw [core_updateRetransmissionTimer, hreleased, hnxt, huna, htw]

/-- After the stages an acknowledgement of the end of the buffer has emptied it. -/
theorem acked_drained (hend : b.endSeq = ackSeq) :
    (sbRemove b (ackSeq - b.headSeq).toNat).1.len = 0 ∨
      2 ^ 31 ≤ (sbRemove b (ackSeq - b.headSeq).toNat).1.len := by
  have hdiff : (ackSeq - b.headSeq).toNat = b.len % 2 ^ 32 := by
    rw [← hend, SendBuffer.endSeq, add_sub_cancel_left, BitVec.toNat_ofNat]
  rw [(sbRemove_shape b _).1, hdiff]
  omega

/-- A buffer whose front is not before its end is empty, or too long for the comparison. -/
theorem unacked_drained (hhead : tcpSeqGeq b.headSeq b.endSeq) :
    b.len = 0 ∨ 2 ^ 31 ≤ b.len := by
  by_contra hcon
  have hdiff : (b.headSeq - b.endSeq).toInt = -(b.len : ℤ) := by
    have h := Serial.toInt_seqAt_sub_seqAt (b := b.headSeq) (x := 0) (y := b.len) (by omega)
      (by omega) (by omega)
    simpa [Serial.seqAt, SendBuffer.endSeq] using h
  unfold tcpSeqGeq at hhead
  omega

theorem sbRemove_endSeq (b : SendBuffer) (len : ℕ) : (sbRemove b len).1.endSeq = b.endSeq := by
  obtain ⟨hlen, hseq, -⟩ := sbRemove_shape b len
  unfold SendBuffer.endSeq
  rw [hlen, hseq, BitVec.add_assoc, ← BitVec.ofNat_add, Nat.add_sub_cancel' (min_le_right _ _)]

/-! ## The whole -/

/-- A buffer that ends at the acknowledged number is empty afterwards, or too long for the
sequence comparison. -/
def AckDrains (ackSeq : U32) (sndbuf : Option SendBuffer) : Prop :=
  ∀ b, sndbuf = some b → b.endSeq = ackSeq → b.len = 0 ∨ 2 ^ 31 ≤ b.len

/-- The recovery leaves `snd_nxt` at or above the acknowledgement. -/
theorem recoverSndNxt_effects (hbuf : c.sndbuf = some b)
    (hend : ¬ tcpSeqGt ackSeq b.endSeq) (hfar : avoid .farAck → ackSeq - b.endSeq ≠ 2147483648#32) :
    Effects avoid sg c.core (recoverSndNxt b ackSeq c).core ∧
      c.core.Acks (recoverSndNxt b ackSeq c).core ∧ (recoverSndNxt b ackSeq c).sndbuf = some b ∧
      ¬ tcpSeqGt ackSeq (recoverSndNxt b ackSeq c).sndNxt ∧
      ((recoverSndNxt b ackSeq c).sndNxt = c.sndNxt ∨
        (recoverSndNxt b ackSeq c).sndNxt = ackSeq) := by
  by_cases hgt : tcpSeqGt ackSeq c.sndNxt
  · have hcore := core_recoverSndNxt (b := b) hgt
    have hkept : (recoverSndNxt b ackSeq c).sndbuf = c.sndbuf := congrArg (·.sndbuf) hcore
    have hnxt : (recoverSndNxt b ackSeq c).sndNxt = ackSeq := congrArg (·.sndNxt) hcore
    rw [hcore, hnxt]
    exact ⟨.single (.recover hbuf hend hgt hfar), rfl, hkept.trans hbuf, by simp [tcpSeqGt],
      .inr rfl⟩
  · have hsame : recoverSndNxt b ackSeq c = c := if_neg hgt
    rw [hsame]
    exact ⟨.refl, rfl, hbuf, hgt, .inl rfl⟩

/-- The stages behind the duplicate count. -/
theorem ackStages_effects (env : Env) (hbuf : c.sndbuf = some b) (hend : ¬ tcpSeqGt ackSeq b.endSeq)
    (hfar : avoid .farAck → ackSeq - b.endSeq ≠ 2147483648#32) :
    let e := recoverSndNxt b ackSeq c
    let r := if tcpSeqGeq b.headSeq ackSeq then e else ackNewData env b ackSeq e
    Effects avoid sg c.core r.core ∧ c.core.Acks r.core ∧ AckDrains ackSeq r.sndbuf ∧
      (r.sndNxt = c.sndNxt ∨ r.sndNxt = ackSeq) := by
  obtain ⟨heff, hacks, hebuf, hnxt, hmoved⟩ : Effects avoid sg c.core _ ∧ _ :=
    recoverSndNxt_effects hbuf hend hfar
  simp only
  generalize recoverSndNxt b ackSeq c = e at heff hacks hebuf hnxt hmoved ⊢
  split
  case isTrue hgeq =>
    refine ⟨heff, hacks, fun b' hb' hseq => ?_, hmoved⟩
    obtain rfl : b = b' := Option.some.inj (hebuf.symm.trans hb')
    exact unacked_drained (hseq ▸ hgeq)
  case isFalse hgeq =>
    have hcore := core_ackNewData env b ackSeq e
    generalize ackNewData env b ackSeq e = r at hcore ⊢
    have hkept : r.sndbuf = some (sbRemove b (ackSeq - b.headSeq).toNat).1 :=
      congrArg (·.sndbuf) hcore
    have hacked : Effect avoid sg e.core r.core := by
      rw [hcore]
      exact .acked hebuf hend hgeq hnxt hfar
    have hframe : e.core.Acks r.core := by
      rw [hcore]
      rfl
    have hsame : r.sndNxt = e.sndNxt := congrArg (·.sndNxt) hcore
    refine ⟨heff.tail hacked, hacks.trans hframe, fun b' hb' hseq => ?_, hsame ▸ hmoved⟩
    obtain rfl : (sbRemove b (ackSeq - b.headSeq).toNat).1 = b' :=
      Option.some.inj (hkept.symm.trans hb')
    rw [sbRemove_endSeq] at hseq
    exact acked_drained hseq

theorem processACK_effects (env : Env) {seg : Segment} (hsafe : AckSafe avoid seg c.core) :
    Effects avoid sg c.core (processACK env seg c).core ∧ c.core.Acks (processACK env seg c).core ∧
      AckDrains (c.core.adjusted seg.ackSeq) (processACK env seg c).sndbuf ∧
      ((processACK env seg c).sndNxt = c.sndNxt ∨
        (processACK env seg c).sndNxt = c.core.adjusted seg.ackSeq) := by
  have hadjust : adjustAck seg.ackSeq c = c.core.adjusted seg.ackSeq := rfl
  unfold processACK
  cases hbuf : c.sndbuf with
  | none => exact ⟨.refl, rfl, fun b hb => by simp [hbuf] at hb, .inl rfl⟩
  | some b =>
    simp only [hadjust]
    unfold processACKWith
    split
    case isTrue hgt =>
      refine ⟨.refl, rfl, fun b' hb' hseq => ?_, .inl rfl⟩
      obtain rfl : b = b' := Option.some.inj (hbuf.symm.trans hb')
      rw [← hseq] at hgt
      exact absurd hgt (by simp [tcpSeqGt, SendBuffer.endSeq])
    case isFalse hgt =>
      simp only
      have hwindow := core_updateWindow seg (c.core.adjusted seg.ackSeq) c
      generalize updateWindow seg (c.core.adjusted seg.ackSeq) c = w at hwindow ⊢
      have hwbuf : w.sndbuf = some b := (congrArg (·.sndbuf) hwindow).trans hbuf
      have hwack : c.core.adjusted seg.ackSeq = w.core.adjusted seg.ackSeq := by rw [hwindow]
      have hwsafe : AckSafe avoid seg w.core := hwindow ▸ hsafe
      have hdup : decide (isDupAck seg (c.core.adjusted seg.ackSeq) (c.peerWnd + c.sndWl2) w) = true →
          tcpSeqLt (c.core.adjusted seg.ackSeq) w.sndNxt ∧
            c.core.adjusted seg.ackSeq = w.lastAckSeq ∧ seg.payload.length = 0 := by
        intro h
        obtain ⟨hlt, hlast, hpay, -⟩ := of_decide_eq_true h
        exact ⟨hlt, hlast, hpay⟩
      have hwnxt : w.sndNxt = c.sndNxt := congrArg (·.sndNxt) hwindow
      obtain ⟨heff, hframe, hdbuf, hmoved⟩ : Effects avoid sg w.core _ ∧ _ :=
        dupAckStage_effects hwbuf hgt hwack hdup hwsafe
      generalize dupAckStage _ (c.core.adjusted seg.ackSeq) w = d at heff hframe hdbuf hmoved ⊢
      obtain ⟨heff', hframe', hdrained, hmoved'⟩ : Effects avoid sg d.core _ ∧ _ :=
        ackStages_effects env hdbuf hgt fun ha => hsafe.far ha b hbuf
      rw [hwindow] at heff hframe
      rw [hwnxt] at hmoved
      exact ⟨heff.trans heff', hframe.trans hframe', hdrained,
        hmoved'.elim (fun h => hmoved.imp h.trans h.trans) .inr⟩

end MtcpStack
