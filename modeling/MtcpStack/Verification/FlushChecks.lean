import MtcpStack.Verification.HazardCheck
import MtcpStack.Verification.SendSequence

/-! # The assertions of the flush loop

`FlushTCPSendingBuffer` asserts that `snd_nxt` lies between the head and the end of the send buffer
and not below `snd_una`. -/

namespace MtcpStack

open Serial

variable {avoid : Hazard → Prop}

/-! ## Assertions -/

/-- The assertions of `FlushTCPSendingBuffer`. -/
def Fault.flushCheck : Fault → Bool
  | .flushBelowHead | .flushBelowUna | .flushPastEnd => true
  | _ => false

/-- None of the assertions can fail. -/
theorem Sending.flush_ok {p : Endpoint} {b : SendBuffer} (ha : OrderSafe avoid)
    (h : Sending avoid p) (hstate : p.state.flushes) (hon : p.onSendList = true)
    (hbuf : p.sndbuf = some b) :
    ¬ tcpSeqLt p.sndNxt b.headSeq ∧ ¬ tcpSeqLt p.sndNxt p.sndUna ∧
      (p.sndNxt - b.headSeq).toNat ≤ b.len := by
  have hsmall := h.small ha
  have hsends : p.state.sends := by
    rcases hstate with hs | hs | hs | hs <;> simp [hs, TcpState.sends]
  obtain ⟨huna, hwin⟩ := h.ordered.window hsends
  have hfit : p.ahead ≤ p.buffered := by
    by_contra hpast
    have hle := h.ordered.ahead_le (.inl hsends)
    have hsent : p.isFinSent = true := by
      by_contra hno
      simp only [Bool.not_eq_true] at hno
      rw [hno] at hwin
      exact hpast hwin
    have hs : p.state = .finWait1 ∨ p.state = .lastAck := by
      have hcloses := h.ordered.unsent hsent
      rcases hstate with hs | hs | hs | hs <;> simp_all [TcpState.closes]
    have hout := (h.ordered.finOut_iff hsmall hs).mpr (by omega)
    simp [(h.listed.out hout).1] at hon
  have hnonneg : 0 ≤ (p.sndNxt - p.base).toInt := by
    rw [sndNxt_eq p, seqAt, add_sub_cancel_left, toInt_ofNat_of_lt (by omega)]
    omega
  refine ⟨?_, ?_, ?_⟩
  · rw [← base_some hbuf]
    exact not_lt.mpr hnonneg
  · rw [huna]
    exact not_lt.mpr hnonneg
  · rw [← base_some hbuf, ← buffered_some hbuf]
    exact hfit

/-- No assertion has failed. -/
def Endpoint.unfaulted (p : Endpoint) : Prop := ∀ f, f.flushCheck = true → .fault f ∉ p.trace

theorem Endpoint.unfaulted.congr {p q : Endpoint} (h : p.unfaulted)
    (htrace : outgoing q.trace = outgoing p.trace) : q.unfaulted := by
  intro f hf hmem
  have hout : .fault f ∈ outgoing q.trace := by
    refine List.mem_filter.mpr ⟨hmem, ?_⟩
    cases f <;> first | rfl | cases hf
  rw [htrace] at hout
  exact h f hf (List.mem_of_mem_filter hout)

theorem Endpoint.unfaulted.act {p : Endpoint} (h : p.unfaulted) {a : Act}
    (hno : ∀ f, a ≠ .fault f) : (p.act a).unfaulted := by
  intro f hf hmem
  rcases List.mem_append.mp hmem with hold | hnew
  · exact h f hf hold
  · exact hno f (List.mem_singleton.mp hnew).symm

theorem Sending.unfaulted_effect {sg : Option Segment} {p q : Endpoint} (ha : OrderSafe avoid)
    (h : Sending avoid p) (hok : p.unfaulted) (heff : Effect avoid sg p q) (hlive : q.live = true) :
    q.unfaulted := by
  cases heff with
  | @payload c env seg _ _ hmem =>
    exact hok.congr (processTCPPayload_takes seg.payload seg.seq hmem).outgoing_eq
  | @read c b len => exact hok.congr (copyToUser_takes b len c).outgoing_eq
  | sendHandshake | sendFin | sendAck | data => exact hok.act nofun
  | flushFault hstate hon hbuf hbad =>
    obtain ⟨hhead, huna, hlen⟩ := h.flush_ok ha hstate hon hbuf
    rcases hbad with ⟨-, hb⟩ | ⟨-, hb⟩ | ⟨-, hb⟩
    · exact absurd hb hhead
    · exact absurd hb huna
    · omega
  | wrote =>
    rw [Endpoint.enqueueSend_frame]
    exact hok.act nofun
  | sendReset | answeredOrphan | lastAcked | rstHandshake | rstClosing | rtoDestroy
  | timewaitExpired | timedOutOrphan | destroyq => cases hlive
  | dataDone =>
    rw [Endpoint.leaveSend_frame]
    exact hok
  | ackDone =>
    rw [Endpoint.leaveAck_frame]
    exact hok
  | rtoRewind =>
    rw [Endpoint.requeue_frame]
    exact hok
  | accept =>
    rw [Endpoint.accept_frame]
    exact hok
  | close =>
    rw [Endpoint.close_frame]
    exact hok
  | closeq =>
    rw [Endpoint.dequeueClose_frame hlive]
    exact hok
  | closeqInt =>
    rw [Endpoint.dequeueCloseInt_frame]
    exact hok
  | resetq =>
    rw [Endpoint.dequeueReset_frame hlive]
    exact hok
  | resetqInt =>
    rw [Endpoint.dequeueResetInt_frame]
    exact hok
  | abort =>
    rw [Endpoint.abort_frame]
    exact hok
  | _ => exact hok

theorem Reached.unfaulted {c : Conn} (ha : OrderSafe avoid) (hreached : Reached avoid c)
    (hlive : c.onHashTable = true) : c.core.unfaulted := by
  refine (hreached.invariant (P := fun p => p.live = true → Sending avoid p ∧ p.unfaulted)
    (fun hborn _ => ⟨hborn.sending, ?_⟩) (fun heff h hl => ?_) hlive).2
  · rw [Endpoint.unfaulted, hborn.fresh.trace]
    simp
  · have hp := (heff.moves hl).1
    exact ⟨(h hp).1.effect ha hp heff hl, (h hp).1.unfaulted_effect ha (h hp).2 heff hl⟩

/-! ## The flush loop -/

theorem sendTCPPacket_live (env : Env) (flags : TcpFlags) (payload : List U8) (c : Conn) :
    (sendTCPPacket env flags payload c).1.onHashTable = c.onHashTable := by
  rcases core_sendTCPPacket env flags payload c with ⟨-, hcore⟩ | ⟨-, hcore⟩ <;>
    exact congrArg (·.live) hcore

theorem flushStep_live (env : Env) (b : SendBuffer) (packets : ℤ) (c : Conn) :
    (flushStep env b packets c).1.onHashTable = c.onHashTable := by
  have hround := flushStep_outcome env b packets c
  generalize flushStep env b packets c = r at hround ⊢
  cases hround with
  | asserts | flushed | unread => rfl
  | full =>
    unfold probeWindow
    split
    · exact congrArg (·.live) (core_enqueueACK .wack c)
    · rfl
  | refused | sent => exact sendTCPPacket_live env ackFlag _ c

theorem flushTCPSendingBuffer_live (env : Env) (c : Conn) :
    (flushTCPSendingBuffer env c).1.onHashTable = c.onHashTable :=
  flushTCPSendingBuffer_keeps (P := fun d => d.onHashTable = c.onHashTable) rfl
    (fun b packets d hd => (flushStep_live env b packets d).trans hd) rfl

theorem flush_unfaulted {c : Conn} (ha : OrderSafe avoid) (h : Sending avoid c.core)
    (hok : c.core.unfaulted) (hlive : c.onHashTable = true) (hstate : c.state.flushes)
    (hon : c.onSendList = true) (env : Env) (tx : List Bool) :
    (flushTCPSendingBuffer env { c with tx }).1.core.unfaulted := by
  have heff : Effects avoid none c.core _ :=
    (flushTCPSendingBuffer_effects env (c := { c with tx }) hstate hon).1
  have hkept := heff.preserves (P := fun p => p.live = true → Sending avoid p ∧ p.unfaulted)
    (fun heff h hl => ?_) fun _ => ⟨h, hok⟩
  · exact (hkept ((flushTCPSendingBuffer_live env { c with tx }).trans hlive)).2
  · have hp := (heff.moves hl).1
    exact ⟨(h hp).1.effect ha hp heff hl, (h hp).1.unfaulted_effect ha (h hp).2 heff hl⟩

/-! ## The sequence numbers of a stream -/

/-- `head_seq <= snd_una <= snd_nxt <= head_seq + len`, and one more once the FIN was sent. -/
structure SequenceOrder (c : Conn) (b : SendBuffer) : Prop where
  places : ∃ u n, c.sndUna = seqAt b.headSeq u ∧ c.sndNxt = seqAt b.headSeq n ∧ u ≤ n ∧
    n ≤ b.len + c.isFinSent.toNat ∧ b.len + 1 < 2 ^ 31
  head_le_una : tcpSeqLeq b.headSeq c.sndUna
  una_le_nxt : tcpSeqLeq c.sndUna c.sndNxt
  nxt_le_end : tcpSeqLeq c.sndNxt (b.headSeq + BitVec.ofNat 32 (b.len + c.isFinSent.toNat))

/-- Places less than half the number space apart compare as they should. -/
theorem tcpSeqLeq_seqAt (u : U32) {x y : ℕ} (hle : x ≤ y) (hlt : y < x + 2 ^ 31) :
    tcpSeqLeq (seqAt u x) (seqAt u y) := by
  rw [tcpSeqLeq, toInt_places]
  omega

theorem SequenceOrder.of_places {c : Conn} {b : SendBuffer} {u n : ℕ}
    (huna : c.sndUna = seqAt b.headSeq u) (hnxt : c.sndNxt = seqAt b.headSeq n) (hle : u ≤ n)
    (hend : n ≤ b.len + c.isFinSent.toNat) (hsmall : b.len + 1 < 2 ^ 31) : SequenceOrder c b := by
  have hone := Bool.toNat_le c.isFinSent
  refine ⟨⟨u, n, huna, hnxt, hle, hend, hsmall⟩, ?_, ?_, ?_⟩
  · rw [huna]
    nth_rewrite 1 [← seqAt_zero b.headSeq]
    exact tcpSeqLeq_seqAt _ (Nat.zero_le u) (by omega)
  · rw [huna, hnxt]
    exact tcpSeqLeq_seqAt _ hle (by omega)
  · rw [hnxt]
    exact tcpSeqLeq_seqAt _ hend (by omega)

/-- In a run without the hazards the sequence numbers of a live stream stay in order, and the
assertions of the flush loop hold. -/
theorem sequence_numbers_ordered {c : Conn} (ha : OrderSafe avoid) (hreached : Reached avoid c)
    (hlive : c.onHashTable = true) :
    (∀ b, TcpState.established.code ≤ c.state.code → c.sndbuf = some b → SequenceOrder c b) ∧
      (∀ f, f.flushCheck = true → .fault f ∉ c.log) ∧
      ∀ env tx f, c.state.flushes → c.onSendList = true → f.flushCheck = true →
        .fault f ∉ (flushTCPSendingBuffer env { c with tx }).1.log := by
  have h := hreached.sending ha hlive
  have hok := hreached.unfaulted ha hlive
  have hlog : ∀ {d : Conn} {f : Fault}, d.core.unfaulted → f.flushCheck = true →
      .fault f ∉ d.log := by
    intro d f hd hf hmem
    refine hd f hf (List.mem_filter.mpr ⟨hmem, ?_⟩)
    cases f <;> first | rfl | cases hf
  refine ⟨fun b hs hb => ?_, fun f hf => hlog hok hf,
    fun env tx f hs hon hf => hlog (flush_unfaulted ha h hok hlive hs hon env tx) hf⟩
  have hsmall := h.small ha
  have hbase : c.core.base = b.headSeq := base_some hb
  have hlen : c.core.buffered = b.len := buffered_some hb
  have hnxt : c.sndNxt = seqAt c.core.base c.core.ahead := sndNxt_eq c.core
  rw [hbase] at hnxt
  rw [hlen] at hsmall
  rcases h.opening.state_of_buffer hlive hb with hclosed | hsends | hdone
  · change c.state = .closed at hclosed
    rw [hclosed] at hs
    exact absurd hs (by decide)
  · obtain ⟨huna, hwin⟩ := h.ordered.window hsends
    rw [hlen] at hwin
    rw [hbase] at huna
    exact .of_places (huna.trans (seqAt_zero _).symm) hnxt (Nat.zero_le _) hwin hsmall
  · obtain ⟨hsent, hempty, huna, hn, -⟩ := h.ordered.finished hdone
    rw [hbase] at huna hn
    rw [hlen] at hempty
    refine .of_places (u := 1) (n := 1) huna hn le_rfl ?_ hsmall
    change 1 ≤ b.len + c.core.isFinSent.toNat
    rw [hempty, hsent]
    rfl

/-- A connected stream with three bytes to send, and a SYN of the peer that acknowledges an old
sequence number. -/
def strayedConn : Conn :=
  (activeOpen quietEnv ++ [Event.write quietEnv [1, 2, 3], .sendq,
    .packet quietEnv { plainSegment with seq := 501, ackSeq := 90, syn := true, ack := true }]).foldl
    Event.apply connectingConn

/-- A SYN in ESTABLISHED sets `snd_nxt` to whatever it acknowledges, and the next flush fails an
assertion. -/
theorem sequence_numbers_strayed :
    Reached (fun _ => False) strayedConn ∧ strayedConn.onHashTable = true ∧
      strayedConn.state = .established ∧
      (∃ b, strayedConn.sndbuf = some b ∧ ¬ SequenceOrder strayedConn b) ∧
      Event.allowed strayedConn [.controlPass quietEnv [true], .dataPass quietEnv [true]] = true ∧
      .fault .flushBelowHead ∈ ([Event.controlPass quietEnv [true], .dataPass quietEnv [true]].foldl
        Event.apply strayedConn).log := by
  refine ⟨(Reached.born (.active quietEnv.cfg 100 quietSocket 0 Shared.init true)).run
    (by decide +kernel), by decide +kernel, by decide +kernel, ⟨_, rfl, fun h => ?_⟩,
    by decide +kernel, by decide +kernel⟩
  exact absurd h.una_le_nxt (by decide +kernel)

/-- The hazards that a run must avoid. -/
def orderHazards : List Hazard :=
  [.synEstablished, .pureAck, .staleRewind, .farAck, .finBehindQueue, .finRequeued, .noMemory,
    .bigBuffer, .acceptClosed]

theorem orderHazards_safe : OrderSafe (· ∈ orderHazards) := by
  constructor <;> simp [orderHazards]

theorem sequence_numbers_ordered_three_bytes :
    ∃ b, sendingConn.sndbuf = some b ∧ b.len = 3 ∧ SequenceOrder sendingConn b := by
  have hreached : Reached (· ∈ orderHazards) sendingConn :=
    (Reached.born (.active quietEnv.cfg 100 quietSocket 0 Shared.init true)).clear (fun _ hz => hz)
      (by decide +kernel)
  exact ⟨_, rfl, by decide +kernel,
    (sequence_numbers_ordered orderHazards_safe hreached (by decide +kernel)).1 _
      (by decide +kernel) rfl⟩

end MtcpStack
