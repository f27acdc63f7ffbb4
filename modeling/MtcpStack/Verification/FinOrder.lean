import MtcpStack.Verification.FlushChecks

/-! # The FIN follows the data

Written bytes that have not been sent keep the stream on the send list or in the send queue, and a
FIN is only sent when it is in neither. So the FIN stands behind the last written byte, however
often it is sent. -/

namespace MtcpStack

open Serial

variable {avoid : Hazard → Prop} {sg : Option Segment} {p q : Endpoint}

/-! ## Unsent data -/

structure Flushing (p : Endpoint) : Prop where
  unsent : p.state.flushes → p.ahead < p.buffered → p.onSendList = true ∨ p.onSendq = true
  closing : p.state = .closing → p.isFinSent = true

theorem Flushing.congr (h : Flushing p) (hnum : q.numbers = p.numbers)
    (hflush : q.state.flushes → p.state.flushes)
    (hlist : p.onSendList = true ∨ p.onSendq = true → q.onSendList = true ∨ q.onSendq = true)
    (hclosing : q.state = .closing → p.state = .closing) : Flushing q := by
  simp only [Endpoint.numbers, Prod.mk.injEq] at hnum
  obtain ⟨hbuf, hiss, -, hnxt, hsent⟩ := hnum
  have hahead := ahead_congr hbuf hiss hnxt
  have hlen := buffered_congr hbuf
  refine ⟨fun hs hlt => hlist (h.unsent (hflush hs) ?_), fun hs => ?_⟩
  · rwa [hahead, hlen] at hlt
  · rw [hsent]
    exact h.closing (hclosing hs)

theorem Flushing.away (hflush : ¬ q.state.flushes) (hclosing : q.state ≠ .closing) : Flushing q :=
  ⟨fun hs => absurd hs hflush, fun hs => absurd hs hclosing⟩

theorem Flushing.empty (hbuf : q.sndbuf = none) (hclosing : q.state ≠ .closing) : Flushing q := by
  refine ⟨fun _ hlt => ?_, fun hs => absurd hs hclosing⟩
  simp [Endpoint.buffered, hbuf] at hlt

/-- Data waits in a buffer. -/
theorem sndbuf_of_buffered (h : 0 < p.buffered) : p.sndbuf.isSome = true := by
  cases hb : p.sndbuf with
  | some b => rfl
  | none => simp [Endpoint.buffered, hb] at h

/-- A pass that ends for the stream has sent everything. -/
theorem Flushing.leaveSend (h : Flushing p) (hok : p.unfaulted)
    (hdone : p.state.flushes → p.faulted ∨ ∀ b, p.sndbuf = some b →
      b.len = 0 ∨ (p.sndNxt - b.headSeq).toNat = b.len) : Flushing p.leaveSend := by
  rw [Endpoint.leaveSend_frame]
  refine ⟨fun hs hlt => ?_, h.closing⟩
  change p.ahead < p.buffered at hlt
  obtain ⟨b, hb⟩ := Option.isSome_iff_exists.mp (sndbuf_of_buffered (Nat.zero_lt_of_lt hlt))
  rw [Endpoint.ahead, base_some hb, buffered_some hb] at hlt
  rcases hdone hs with (hf | hf | hf) | hsent
  · exact absurd hf (hok _ rfl)
  · exact absurd hf (hok _ rfl)
  · exact absurd hf (hok _ rfl)
  · rcases hsent b hb with hz | hz <;> omega

/-- The retransmission timer puts a stream with data back on the send list. -/
theorem Flushing.requeue (h : Flushing p) (hord : Ordered p) (hsmall : p.buffered + 1 < 2 ^ 31) :
    Flushing (Endpoint.requeue { p with inRto := false, sndNxt := p.sndUna }) := by
  have hbehind : p.state.sends → p.state.leaving → 0 < p.buffered → tcpSeqLt p.sndUna p.fss := by
    intro hs hl hpos
    rw [(hord.window hs).1, hord.final hs (.inl hl), Endpoint.endSeq, tcpSeqLt]
    nth_rewrite 1 [← seqAt_zero p.base]
    rw [toInt_places]
    omega
  unfold Endpoint.requeue
  simp only
  split
  case h_1 hs | h_2 hs =>
    refine ⟨fun _ hlt => .inl ?_, fun hc => by simp [hs] at hc⟩
    have hbuf := sndbuf_of_buffered (p := p) (Nat.zero_lt_of_lt hlt)
    simp [hbuf]
  case h_3 hs | h_5 hs =>
    split
    · refine ⟨fun _ hlt => .inl ?_, fun hc => by simp [hs] at hc⟩
      have hbuf := sndbuf_of_buffered (p := p) (Nat.zero_lt_of_lt hlt)
      simp [hbuf]
    case isFalse hno =>
      refine ⟨fun _ hlt => absurd (hbehind ?_ ?_ (Nat.zero_lt_of_lt hlt)) hno,
        fun hc => by simp [hs] at hc⟩
      · simp [hs, TcpState.sends]
      · simp [hs, TcpState.leaving]
  case h_4 hs =>
    split <;> exact ⟨fun hf => by simp [hs, TcpState.flushes] at hf, h.closing⟩
  case h_6 =>
    refine ⟨fun hf => ?_, h.closing⟩
    rcases hf with hs | hs | hs | hs <;> simp_all

theorem closingState_flushes {s : TcpState} (h : (closingState s).flushes) : s.flushes := by
  revert h
  cases s <;> simp [closingState, TcpState.flushes]

theorem closingState_closing {s : TcpState} (h : closingState s = .closing) : s = .closing := by
  revert h
  cases s <;> simp [closingState]

theorem Flushing.dequeueClose (h : Flushing p) (hlive : p.dequeueClose.live = true) :
    Flushing p.dequeueClose := by
  have hcases := p.dequeueClose_cases
  generalize p.dequeueClose = q at hcases hlive ⊢
  cases hcases with
  | freed => cases hlive
  | kept | requeued => exact h.congr rfl id id id
  | waits | closes => exact h.congr rfl closingState_flushes id closingState_closing

theorem Flushing.dequeueCloseInt (h : Flushing p) : Flushing p.dequeueCloseInt := by
  have hcases := p.dequeueCloseInt_cases
  generalize p.dequeueCloseInt = q at hcases ⊢
  cases hcases with
  | deferred => exact h
  | closes => exact h.congr rfl closingState_flushes id closingState_closing
  | kept => exact h.congr rfl id id id

theorem Flushing.closed (hstate : q.state = .closed) : Flushing q :=
  .away (by simp [hstate, TcpState.flushes]) (by simp [hstate])

theorem Flushing.dequeueReset (h : Flushing p) (hlive : p.dequeueReset.live = true) :
    Flushing p.dequeueReset := by
  have hcases := p.dequeueReset_cases
  generalize p.dequeueReset = q at hcases hlive ⊢
  cases hcases with
  | freed => cases hlive
  | kept | requeued => exact h.congr rfl id id id
  | resets => exact .closed rfl

theorem Flushing.dequeueResetInt (h : Flushing p) : Flushing p.dequeueResetInt := by
  have hcases := p.dequeueResetInt_cases
  generalize p.dequeueResetInt = q at hcases ⊢
  cases hcases with
  | deferred => exact h
  | resets => exact .closed rfl
  | kept => exact h.congr rfl id id id

theorem Flushing.abort (h : Flushing p) : Flushing p.abort := by
  have hcases := p.abort_cases
  generalize p.abort = q at hcases ⊢
  cases hcases with
  | unmapped => exact h
  | closed | queued | resets => exact h.congr rfl id id id
  | closes => exact .closed rfl

theorem TcpState.flushes.sends {s : TcpState} (h : s.flushes) : s.sends := by
  rcases h with h | h | h | h <;> simp [h, TcpState.sends]

theorem Flushing.effect (ha : OrderSafe avoid) (hearly : avoid .earlyFin) (hp : p.live = true)
    (hsending : Sending avoid p) (hok : p.unfaulted) (h : Flushing p) (heff : Effect avoid sg p q)
    (hlive : q.live = true) : Flushing q := by
  have hord := hsending.ordered
  have hsmall := hsending.small ha
  cases heff with
  | @payload c env seg _ _ hmem =>
    rw [(processTCPPayload_takes seg.payload seg.seq hmem).frame]
    exact h.congr rfl id id id
  | @read c b len =>
    rw [core_copyToUser]
    exact h.congr rfl id id id
  | control | queueAck | restartTimewait | sendAck | leaveControl | flushFault | dupAck | rstSeen
  | rtoIgnored | rtoStray | connectq | ackq | closeListener | finLate =>
    exact h.congr rfl id id id
  | synEstablished _ _ hack =>
    refine h.congr ?_ id id id
    simp only [Endpoint.numbers, hack ha.synEstablished]
  | ackDone =>
    rw [Endpoint.leaveAck_frame]
    exact h.congr rfl id id id
  | accept =>
    rw [Endpoint.accept_frame]
    exact h.congr rfl id id id
  | close =>
    rw [Endpoint.close_frame]
    exact h.congr rfl id id id
  | dataDone _ hdone => exact h.leaveSend hok hdone
  | noMem _ hno | writeNoMem hno => exact absurd ha.noMemory hno
  | pureAck _ hno => exact absurd ha.pureAck hno
  | sendReset | answeredOrphan | lastAcked | rstHandshake | rstClosing | rtoDestroy
  | timewaitExpired | timedOutOrphan | destroyq => cases hlive
  | rtoLost | timedOut | finAcked | finTimewait | closingAcked | synOnly | listenSyn =>
    exact .away (by simp [TcpState.flushes]) (by simp)
  | sendHandshake hstate =>
    have hs : p.state = .synSent ∨ p.state = .synRcvd := hstate.imp_right And.left
    exact .away (by rcases hs with hs | hs <;> simp [hs, Endpoint.act, TcpState.flushes])
      (by rcases hs with hs | hs <;> simp [hs, Endpoint.act])
  | rewindSynAck hstate | synRcvdBare hstate =>
    exact .away (by simp [hstate, TcpState.flushes]) (by simp [hstate])
  | synAck _ hstate | rstAck _ hstate =>
    exact .empty (hsending.opening.synSent hp hstate).2.2.1 (by simp)
  | handshake answer _ hstate =>
    exact .empty (hsending.opening.synRcvd hp hstate).2.2 (by cases answer <;> simp)
  | finEstablished _ hstate =>
    have hs : p.state = .established := hstate.resolve_right fun hno => hsending.reason hno.2
    exact h.congr rfl (fun _ => .inl hs) id (by simp)
  | rstEstablished _ _ _ hstate =>
    exact h.congr rfl (fun _ => hstate.imp_right .inl) id (by simp)
  | finClosing _ hstate _ _ hfin =>
    exact ⟨fun hs => by simp [TcpState.flushes] at hs, fun _ => hfin hearly⟩
  | sendFin hstate hon =>
    obtain ⟨hsends, -, hle⟩ := hord.fin_due hsending.listed hsmall hon (hstate.imp_left And.left)
    refine ⟨fun hs hlt => ?_, fun _ => rfl⟩
    have hahead : (p.sndNxt + 1 - p.base).toNat = p.ahead + 1 := sent_ahead (n := 1) (by omega)
    have hmore : p.ahead < p.buffered := by
      change (p.sndNxt + 1 - p.base).toNat < p.buffered at hlt
      omega
    exact h.unsent hs hmore
  | data _ hon => exact ⟨fun _ _ => .inl hon, h.closing⟩
  | rewind => exact ⟨fun _ _ => .inl rfl, h.closing⟩
  | @recover p b a hbuf hend hgt hfar =>
    refine ⟨fun hs hlt => ?_, h.closing⟩
    have hon := hord.recover_ahead hsmall hbuf (.inl hs.sends) hend hgt (hfar ha.farAck)
    change (a - p.base).toNat < p.buffered at hlt
    have hne : b.len ≠ 0 := by
      rw [← buffered_some hbuf]
      omega
    have hlist := h.unsent hs (by omega)
    simpa [hne] using hlist
  | @acked p b a hbuf hend hhead hnxt hfar =>
    refine ⟨fun hs hlt => h.unsent hs ?_, h.closing⟩
    have hacked := hord.ackedBy (q := { p with
      sndbuf := some (sbRemove b (a - b.headSeq).toNat).1
      sndUna := a
      inRto := decide (tcpSeqGt p.sndNxt a) && !p.onTimewaitList })
      hsmall hbuf (.inl hs.sends) hend hhead hnxt (hfar ha.farAck) rfl rfl
    have hahead := hacked.ahead_eq
    have hlen := hacked.buffered_eq
    omega
  | rtoRewind => exact h.requeue hord hsmall
  | sendq =>
    refine ⟨fun hs hlt => .inl ?_, h.closing⟩
    have hbuf := sndbuf_of_buffered (p := p) (Nat.zero_lt_of_lt hlt)
    simp [Endpoint.dequeueSend, hbuf]
  | openBuffer hstate =>
    refine ⟨fun _ hlt => ?_, fun hs => ?_⟩
    · simp [Endpoint.buffered, sbInit] at hlt
    · rcases hstate with hs' | hs' <;> simp [hs'] at hs
  | wrote hstate =>
    refine ⟨fun _ _ => ?_, fun hs => ?_⟩
    · unfold Endpoint.enqueueSend
      split
      case isTrue hon => exact (Bool.or_eq_true_iff.mp hon).symm
      case isFalse => exact .inr rfl
    · rw [Endpoint.enqueueSend_frame] at hs
      rcases hstate with hs' | hs' <;> simp [hs', Endpoint.act] at hs
  | closeq => exact h.dequeueClose hlive
  | closeqInt => exact h.dequeueCloseInt
  | resetq => exact h.dequeueReset hlive
  | resetqInt => exact h.dequeueResetInt
  | abort => exact h.abort

/-! ## The FINs of the trace -/

/-- The FIN is sent when `snd_nxt` has reached it, behind everything written. -/
def FinBehind (iss : U32) (before : List Act) (t : TxSegment) : Prop :=
  t.flags.fin = true → t.sndNxt = t.seq ∧ t.seq = seqAt (iss + 1) (writtenBytes before).length

/-- A live stream in a run in which FINs are not sent too early. -/
structure Finishing (avoid : Hazard → Prop) (p : Endpoint) : Prop where
  sending : Sending avoid p
  unfaulted : p.unfaulted
  flushing : Flushing p
  fins : EverySent (FinBehind p.iss) (outgoing p.trace)

/-- The first buffered byte in everything written. -/
theorem Sender.base_place (h : Sender avoid p) : ∃ r, p.base = seqAt (p.iss + 1) r ∧
    (writtenBytes p.trace).length = r + p.buffered := by
  cases hb : p.sndbuf with
  | none =>
    refine ⟨0, ?_, ?_⟩
    · simp [Endpoint.base, hb]
    · simp [h.unopened hb, Endpoint.buffered, hb]
  | some b =>
    obtain ⟨⟨r, hq⟩, -⟩ := h.queued b hb
    exact ⟨r, (base_some hb).trans hq.headSeq_eq, by rw [hq.length_eq, buffered_some hb]⟩

theorem Sender.endSeq_place (h : Sender avoid p) :
    p.endSeq = seqAt (p.iss + 1) (writtenBytes p.trace).length := by
  obtain ⟨r, hbase, hlen⟩ := h.base_place
  rw [Endpoint.endSeq, hbase, seqAt_seqAt, hlen]

/-- When a FIN is due, everything before it has been sent. -/
theorem Finishing.fin_due (ha : OrderSafe avoid) (h : Finishing avoid p)
    (hon : p.onControlList = true)
    (hstate : (p.state = .finWait1 ∨ p.state = .lastAck) ∧ p.onSendList = false ∧
        p.onAckList = false ∧ (avoid .finBehindQueue → p.onSendq = false) ∨
      p.state = .closing ∧ (p.isFinSent = true → p.sndNxt = p.fss)) :
    p.sndNxt = p.fss ∧ p.fss = p.endSeq := by
  have hord := h.sending.ordered
  obtain ⟨hsends, -, hle⟩ :=
    hord.fin_due h.sending.listed (h.sending.small ha) hon (hstate.imp_left And.left)
  have hleaving : p.state.leaving := by
    rcases hstate with ⟨hs | hs, -⟩ | ⟨hs, -⟩ <;> simp [hs, TcpState.leaving]
  have hfss := hord.final hsends (.inl hleaving)
  refine ⟨?_, hfss⟩
  rcases hstate with ⟨hs, hsend, -, hq⟩ | ⟨hs, hagain⟩
  · have hflush : p.state.flushes := .inr (.inr hs)
    have hall : ¬ p.ahead < p.buffered := by
      intro hlt
      rcases h.flushing.unsent hflush hlt with hon' | hon'
      · simp [hsend] at hon'
      · simp [hq ha.finBehindQueue] at hon'
    rw [hfss, sndNxt_eq p, Endpoint.endSeq, show p.ahead = p.buffered by omega]
  · exact hagain (h.flushing.closing hs)

theorem Finishing.fins_effect (ha : OrderSafe avoid) (h : Finishing avoid p)
    (heff : Effect avoid sg p q) (hlive : q.live = true) :
    EverySent (FinBehind q.iss) (outgoing q.trace) := by
  have hplain : ∀ {t : TxSegment}, t.flags.fin = false →
      EverySent (FinBehind p.iss) (outgoing p.trace ++ [.sent t]) := by
    intro t hfin
    refine h.fins.snoc fun t' ht' hfin' => ?_
    obtain rfl := Act.sent.inj ht'
    simp [hfin] at hfin'
  cases heff with
  | @payload c env seg _ _ hmem =>
    have htakes := processTCPPayload_takes seg.payload seg.seq hmem
    rw [htakes.outgoing_eq, congrArg (·.iss) htakes.frame]
    exact h.fins
  | @read c b len =>
    have htakes := copyToUser_takes b len c
    rw [htakes.outgoing_eq, congrArg (·.iss) htakes.frame]
    exact h.fins
  | sendHandshake _ _ _ _ _ hfin | sendAck _ _ hfin | data _ _ _ _ _ _ _ _ _ _ _ hfin =>
    rw [outgoing_act _ rfl]
    exact hplain hfin
  | @sendFin p t hstate hon hseq _ _ _ _ hnxt =>
    obtain ⟨hdue, hend⟩ := h.fin_due ha hon hstate
    rw [outgoing_act _ rfl]
    refine h.fins.snoc fun t' ht' _ => ?_
    obtain rfl := Act.sent.inj ht'
    refine ⟨by rw [hnxt, hseq, hdue], ?_⟩
    rw [hseq, hend, writtenBytes_outgoing]
    exact h.sending.sender.endSeq_place
  | flushFault hstate hon hbuf hbad =>
    obtain ⟨hhead, huna, hlen⟩ := h.sending.flush_ok ha hstate hon hbuf
    rcases hbad with ⟨-, hb⟩ | ⟨-, hb⟩ | ⟨-, hb⟩
    · exact absurd hb hhead
    · exact absurd hb huna
    · omega
  | wrote =>
    rw [Endpoint.enqueueSend_frame]
    rw [outgoing_act _ rfl]
    exact h.fins.snoc fun _ ht => by cases ht
  | sendReset | answeredOrphan | lastAcked | rstHandshake | rstClosing | rtoDestroy
  | timewaitExpired | timedOutOrphan | destroyq => cases hlive
  | dataDone =>
    rw [Endpoint.leaveSend_frame]
    exact h.fins
  | ackDone =>
    rw [Endpoint.leaveAck_frame]
    exact h.fins
  | rtoRewind =>
    rw [Endpoint.requeue_frame]
    exact h.fins
  | accept =>
    rw [Endpoint.accept_frame]
    exact h.fins
  | close =>
    rw [Endpoint.close_frame]
    exact h.fins
  | closeq =>
    rw [Endpoint.dequeueClose_frame hlive]
    exact h.fins
  | closeqInt =>
    rw [Endpoint.dequeueCloseInt_frame]
    exact h.fins
  | resetq =>
    rw [Endpoint.dequeueReset_frame hlive]
    exact h.fins
  | resetqInt =>
    rw [Endpoint.dequeueResetInt_frame]
    exact h.fins
  | abort =>
    rw [Endpoint.abort_frame]
    exact h.fins
  | _ => exact h.fins

theorem Finishing.effect (ha : OrderSafe avoid) (hearly : avoid .earlyFin) (hp : p.live = true)
    (h : Finishing avoid p) (heff : Effect avoid sg p q) (hlive : q.live = true) :
    Finishing avoid q :=
  ⟨h.sending.effect ha hp heff hlive, h.sending.unfaulted_effect ha h.unfaulted heff hlive,
    h.flushing.effect ha hearly hp h.sending h.unfaulted heff hlive, h.fins_effect ha heff hlive⟩

theorem Born.finishing {c : Conn} (hborn : Born c) : Finishing avoid c.core := by
  have htrace := hborn.fresh.trace
  have hopens := hborn.fresh.opens
  refine ⟨hborn.sending, fun f _ hmem => ?_, .away (fun hs => ?_) fun hs => ?_, fun before t hpre => ?_⟩
  · rw [htrace] at hmem
    cases hmem
  · rw [hs.not_opens] at hopens
    cases hopens
  · rw [hs] at hopens
    cases hopens
  · rw [htrace] at hpre
    simp [outgoing] at hpre

theorem Reached.finishing {c : Conn} (ha : OrderSafe avoid) (hearly : avoid .earlyFin)
    (hreached : Reached avoid c) (hlive : c.onHashTable = true) : Finishing avoid c.core := by
  refine hreached.invariant (P := fun p => p.live = true → Finishing avoid p)
    (fun hborn _ => hborn.finishing) (fun heff h hl => ?_) hlive
  have hp := (heff.moves hl).1
  exact (h hp).effect ha hearly hp heff hl

/-! ## FINs and the sequence numbers behind them -/

/-- A sent FIN is numbered behind everything written, and `snd_nxt` is at most behind it. -/
theorem Finishing.fin_place (ha : OrderSafe avoid) (h : Finishing avoid p)
    (hsent : p.isFinSent = true) (hopen : p.state ≠ .closed) :
    p.fss = seqAt (p.iss + 1) (writtenBytes p.trace).length ∧
      tcpSeqLeq p.sndNxt (p.fss + 1) := by
  have hord := h.sending.ordered
  have hsmall := h.sending.small ha
  have hcases : p.state.sends ∧ p.state.leaving ∨ p.state = .finWait2 ∨ p.state = .timeWait := by
    rcases (hord.unsent hsent).resolve_right hopen with hs | hs | hs | hs | hs <;>
      simp [hs, TcpState.sends, TcpState.leaving]
  rcases hcases with ⟨hsends, hleaving⟩ | hdone
  · have hle := (hord.window hsends).2
    rw [hsent] at hle
    have hle' : p.ahead ≤ p.buffered + 1 := hle
    have hfinal := hord.final hsends (.inl hleaving)
    refine ⟨hfinal.trans h.sending.sender.endSeq_place, ?_⟩
    have hnext : p.endSeq + 1 = seqAt p.base (p.buffered + 1) := (seqAt_add _ _ 1).symm
    rw [hfinal, hnext, sndNxt_eq p]
    exact tcpSeqLeq_seqAt _ hle' (by omega)
  · obtain ⟨r, hbase, hlen⟩ := h.sending.sender.base_place
    obtain ⟨-, hempty, -, hend, hfss⟩ := hord.finished hdone
    refine ⟨?_, ?_⟩
    · rw [hfss, hbase, hlen, hempty, Nat.add_zero]
    · rw [hend, hfss]
      simp [tcpSeqLeq]

/-- In a run without the hazards every FIN is sent when `snd_nxt = fss`, behind everything written,
and once one has been sent `snd_nxt` does not exceed `fss + 1`. -/
theorem fin_follows_data {c : Conn} (ha : OrderSafe avoid) (hearly : avoid .earlyFin)
    (hreached : Reached avoid c) (hlive : c.onHashTable = true) :
    (∀ before t, before ++ [.sent t] <+: c.log → t.flags.fin = true →
      t.sndNxt = t.seq ∧ t.seq = seqAt (c.iss + 1) (writtenBytes before).length) ∧
    (c.isFinSent = true → c.state ≠ .closed →
      c.fss = seqAt (c.iss + 1) (writtenBytes c.log).length ∧
      tcpSeqLeq c.sndNxt (c.fss + 1)) := by
  have h := hreached.finishing ha hearly hlive
  have hord := h.sending.ordered
  refine ⟨fun before t hpre hfin => ?_, fun hsent hopen => ?_⟩
  · have hbehind := h.fins _ t (outgoing_mono hpre) hfin
    rwa [writtenBytes_outgoing, writtenBytes_filter fun _ => rfl] at hbehind
  · have hwritten : writtenBytes c.core.trace = writtenBytes c.log :=
      writtenBytes_filter (fun _ => rfl) _
    rw [← hwritten]
    exact h.fin_place ha hsent hopen

/-- The application writes three bytes and closes after the send queue has been emptied, so that the
close is taken from its queue first. -/
def hurriedConn : Conn :=
  (activeOpen quietEnv ++ [Event.write quietEnv [1, 2, 3], .close, .closeq quietEnv.cfg,
    .controlPass quietEnv [true]]).foldl Event.apply connectingConn

/-- The FIN is sent before the data: `snd_nxt` is at the first byte when it leaves with the number
behind the third. -/
theorem fin_before_data :
    Reached (fun _ => False) hurriedConn ∧ hurriedConn.onHashTable = true ∧
      hurriedConn.sndNxt = 102 ∧
      ∃ t, .sent t ∈ hurriedConn.log ∧ t.flags.fin = true ∧ t.sndNxt = 101 ∧ t.seq = 104 := by
  refine ⟨(Reached.born (.active quietEnv.cfg 100 quietSocket 0 Shared.init true)).run
    (by decide +kernel), by decide +kernel, by decide +kernel, ?_⟩
  have hlast : ∃ t, hurriedConn.log.getLast? = some (.sent t) ∧ t.flags.fin = true ∧
      t.sndNxt = 101 ∧ t.seq = 104 :=
    ⟨_, rfl, by decide +kernel, by decide +kernel, by decide +kernel⟩
  obtain ⟨t, ht, h⟩ := hlast
  exact ⟨t, List.mem_of_getLast? ht, h⟩

/-- A connected stream that has sent three bytes and its FIN. -/
def closingConn : Conn :=
  [Event.close, .closeq quietEnv.cfg, .controlPass quietEnv [true]].foldl Event.apply sendingConn

theorem fin_follows_data_three_bytes :
    closingConn.isFinSent = true ∧ closingConn.fss = seqAt (100 + 1) 3 ∧
      tcpSeqLeq closingConn.sndNxt (closingConn.fss + 1) := by
  have hsending : Reached (· ∈ .earlyFin :: orderHazards) sendingConn :=
    reached_connectingConn.clear (fun _ hz => hz) (by decide +kernel)
  have hreached : Reached (· ∈ .earlyFin :: orderHazards) closingConn :=
    hsending.clear (fun _ hz => hz) (by decide +kernel)
  have ha : OrderSafe (· ∈ .earlyFin :: orderHazards) := by
    constructor <;> simp [orderHazards]
  have hwritten : (writtenBytes closingConn.log).length = 3 := by decide +kernel
  have hsent : closingConn.isFinSent = true := by decide +kernel
  obtain ⟨hfss, hnxt⟩ := (fin_follows_data ha List.mem_cons_self hreached
    (by decide +kernel)).2 hsent (by decide +kernel)
  rw [hwritten] at hfss
  exact ⟨hsent, hfss, hnxt⟩

end MtcpStack
