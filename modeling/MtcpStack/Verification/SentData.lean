import MtcpStack.Verification.Handshake

/-! # What a stream sends

The send buffer holds the written bytes that have not been acknowledged, so every data segment
carries the bytes its sequence number stands for, however often and in whatever pieces it is
sent. -/

namespace MtcpStack

open Serial Slice

variable {avoid : Hazard → Prop}

/-! ## The sending side of the trace -/

/-- The acts of the receiving side. -/
def Act.incoming : Act → Bool
  | .accepted _ _ | .delivered _ | .fault .ringBuffer => true
  | _ => false

/-- What the trace says about the sending side and the life of the stream. -/
def outgoing (trace : List Act) : List Act := trace.filter fun a => !a.incoming

theorem outgoing_incoming (l : List Act) {a : Act} (ha : a.incoming = true) :
    outgoing (l ++ [a]) = outgoing l := by
  simp [outgoing, ha]

/-- Everything the application has written. -/
def writtenBytes (trace : List Act) : List U8 :=
  trace.flatMap fun a =>
    match a with
    | .wrote bytes => bytes
    | _ => []

@[simp] theorem writtenBytes_append (l l' : List Act) :
    writtenBytes (l ++ l') = writtenBytes l ++ writtenBytes l' :=
  List.flatMap_append

/-- `P` holds of every segment sent, with what was noted before it. -/
def EverySent (P : List Act → TxSegment → Prop) (l : List Act) : Prop :=
  ∀ before t, before ++ [.sent t] <+: l → P before t

theorem EverySent.snoc {P : List Act → TxSegment → Prop} {l : List Act} {a : Act}
    (h : EverySent P l) (hnew : ∀ t, a = .sent t → P l t) : EverySent P (l ++ [a]) := by
  intro before t hpre
  rw [List.prefix_concat_iff] at hpre
  rcases hpre with heq | hpre
  · obtain ⟨rfl, hlast⟩ := List.append_inj' heq rfl
    exact hnew t (List.singleton_inj.mp hlast).symm
  · exact h before t hpre

/-- Only the receiving side has changed. -/
structure Endpoint.Takes (p q : Endpoint) : Prop where
  frame : q = { p with
    rcvbuf := q.rcvbuf
    rcvNxt := q.rcvNxt
    rcvWnd := q.rcvWnd
    onAckq := q.onAckq
    ackq := q.ackq
    trace := q.trace }
  outgoing_eq : outgoing q.trace = outgoing p.trace

theorem processTCPPayload_takes {env : Env} {c : Conn} (payload : List U8) (seq : U32)
    (hmem : openRcvbuf env c ≠ none) :
    c.core.Takes (processTCPPayload env payload seq c).1.core := by
  refine processTCPPayload_rule (P := fun d => c.core.Takes d.core)
    (fun e reg d hd => (core_raiseEvent e reg d).symm ▸ hd) fun d hout => ?_
  cases hout with
  | dropped => exact ⟨rfl, rfl⟩
  | noMemory hnone => exact absurd hnone hmem
  | faulted =>
    rw [Conn.fault, core_act_kept _ rfl]
    exact ⟨rfl, outgoing_incoming _ rfl⟩
  | stored =>
    split
    · rw [core_storePayload_accepted]
      exact ⟨rfl, outgoing_incoming _ rfl⟩
    · exact ⟨rfl, rfl⟩

theorem copyToUser_takes (b : RingBuffer) (len : ℕ) (c : Conn) :
    c.core.Takes (copyToUser b len c).1.core := by
  refine ⟨by rw [core_copyToUser b len c], ?_⟩
  have hread := copyToUser_outcome b len c
  generalize copyToUser b len c = r at hread ⊢
  cases hread with
  | nothing => rfl
  | @taken bytes =>
    rw [core_advertiseWindow]
    have hact := core_act_kept c (show (Act.delivered bytes).kept = true from rfl)
    change outgoing (c.act (.delivered bytes)).core.trace = _
    rw [hact]
    exact outgoing_incoming _ rfl
  | faulted =>
    rw [Conn.fault, core_act_kept c rfl]
    exact outgoing_incoming _ rfl

/-! ## Segments and written bytes -/

/-- The segment carries the bytes that its sequence number stands for, of those written before
it was sent. -/
def Carries (iss : U32) (before : List Act) (t : TxSegment) (m : ℕ) : Prop :=
  t.seq = seqAt (iss + 1) m ∧ slice (writtenBytes before) m t.payload.length = some t.payload

/-- The segment fits into the congestion window and the window of the peer. -/
def FitsWindow (t : TxSegment) : Prop :=
  (t.seq - t.una).toNat + t.payload.length ≤ min t.cwnd.toNat t.peerWnd.toNat

/-- The sending side of a live stream. -/
structure Sender (avoid : Hazard → Prop) (p : Endpoint) : Prop where
  queued : ∀ b, p.sndbuf = some b → (∃ r, Queues (writtenBytes p.trace) (p.iss + 1) r b) ∧
    (avoid .bigBuffer → b.size + 1 < 2 ^ 31)
  unopened : p.sndbuf = none → writtenBytes p.trace = []
  sent : EverySent (fun before t => t.payload ≠ [] →
    (∃ m, Carries p.iss before t m ∧
      (avoid .bigBuffer → (writtenBytes before).length < m + 2 ^ 31)) ∧ FitsWindow t)
    (outgoing p.trace)

theorem writtenBytes_filter {P : Act → Bool} (hP : ∀ bytes, P (.wrote bytes) = true)
    (l : List Act) : writtenBytes (l.filter P) = writtenBytes l := by
  induction l with
  | nil => rfl
  | cons a l ih =>
      rw [List.filter_cons]
      split
      case isTrue => simpa [writtenBytes] using ih
      case isFalse h =>
        rw [show writtenBytes (a :: l) = writtenBytes l by cases a <;> simp_all [writtenBytes]]
        exact ih

theorem writtenBytes_outgoing (trace : List Act) :
    writtenBytes (outgoing trace) = writtenBytes trace :=
  writtenBytes_filter (fun _ => rfl) trace

theorem Sender.congr {p q : Endpoint} (h : Sender avoid p) (hbuf : q.sndbuf = p.sndbuf)
    (hiss : q.iss = p.iss) (htrace : outgoing q.trace = outgoing p.trace) : Sender avoid q := by
  have hW : writtenBytes q.trace = writtenBytes p.trace := by
    rw [← writtenBytes_outgoing q.trace, htrace, writtenBytes_outgoing]
  refine ⟨fun b hb => ?_, fun hn => ?_, ?_⟩
  · rw [hW, hiss]
    exact h.queued b (hbuf ▸ hb)
  · rw [hW]
    exact h.unopened (hbuf ▸ hn)
  · rw [hiss, htrace]
    exact h.sent

theorem outgoing_act (p : Endpoint) {a : Act} (hin : a.incoming = false) :
    outgoing (p.act a).trace = outgoing p.trace ++ [a] := by
  simp [Endpoint.act, outgoing, hin]

/-- An act of the sending side is noted. -/
theorem Sender.noted {p : Endpoint} {a : Act} (h : Sender avoid p) (hin : a.incoming = false)
    (hwrote : writtenBytes [a] = [])
    (hgood : ∀ t, a = .sent t → t.payload ≠ [] → (∃ m, Carries p.iss (outgoing p.trace) t m ∧
      (avoid .bigBuffer → (writtenBytes (outgoing p.trace)).length < m + 2 ^ 31)) ∧ FitsWindow t) :
    Sender avoid (p.act a) := by
  have hW : writtenBytes (p.act a).trace = writtenBytes p.trace := by
    simp [Endpoint.act, hwrote]
  refine ⟨fun b hb => ?_, fun hn => ?_, ?_⟩
  · rw [hW]
    exact h.queued b hb
  · rw [hW]
    exact h.unopened hn
  · rw [outgoing_act p hin]
    exact h.sent.snoc hgood

theorem Sender.sends {p : Endpoint} {t : TxSegment} (h : Sender avoid p) (hpay : t.payload = []) :
    Sender avoid (p.act (.sent t)) := by
  refine h.noted rfl rfl fun t' ht' hne => absurd ?_ hne
  obtain rfl := Act.sent.inj ht'
  exact hpay

/-- The segment of the flush loop. -/
theorem Sender.data {p : Endpoint} {t : TxSegment} {b : SendBuffer} (h : Sender avoid p)
    (hbuf : p.sndbuf = some b)
    (hlen : (p.sndNxt - b.headSeq).toNat + t.payload.length ≤ b.len)
    (hslice : slice b.data (b.head + (p.sndNxt - b.headSeq).toNat) t.payload.length =
      some t.payload) (hseq : t.seq = p.sndNxt) (hwin : FitsWindow t) :
    Sender avoid (p.act (.sent t)) := by
  refine h.noted rfl rfl fun t' ht' _ => ?_
  obtain rfl := Act.sent.inj ht'
  refine ⟨?_, hwin⟩
  obtain ⟨⟨r, hq⟩, hsmall⟩ := h.queued b hbuf
  have hW := hq.length_eq
  have htail := hq.tail_eq
  have hle := hq.tail_le
  refine ⟨r + (p.sndNxt - b.headSeq).toNat, ⟨?_, ?_⟩, fun ha => ?_⟩
  · rw [hseq, seqAt_add, ← hq.headSeq_eq, BitVec.ofNat_toNat, BitVec.setWidth_eq]
    exact (add_sub_cancel _ _).symm
  · rw [writtenBytes_outgoing, ← hq.slice_eq hlen]
    exact hslice
  · have := hsmall ha
    rw [writtenBytes_outgoing]
    omega

theorem Sender.takes {p q : Endpoint} (h : Sender avoid p) (htakes : p.Takes q) : Sender avoid q :=
  h.congr (congrArg (·.sndbuf) htakes.frame) (congrArg (·.iss) htakes.frame) htakes.outgoing_eq

/-- Bytes are appended to the buffer. -/
theorem Sender.wrote {p : Endpoint} {b b' : SendBuffer} {bytes : List U8} {n : ℤ}
    (h : Sender avoid p) (hbuf : p.sndbuf = some b) (hput : sbPut b bytes = some (b', n))
    (hn : 0 < n) :
    Sender avoid (Endpoint.act { p with sndbuf := some b' } (.wrote (bytes.take n.toNat))) := by
  obtain ⟨⟨r, hq⟩, hsmall⟩ := h.queued b hbuf
  have hsize : b'.size = b.size := by
    rcases sbPut_shape hput with ⟨hle, -⟩ | ⟨-, -, -, -, -, hsize⟩
    · omega
    · exact hsize
  obtain ⟨b₁, n₁, hput₁, hq₁⟩ := hq.put bytes
  obtain ⟨rfl, rfl⟩ := Prod.mk.inj (Option.some.inj (hput₁.symm.trans hput))
  refine ⟨fun b hb => ?_, nofun, ?_⟩
  · obtain rfl : b₁ = b := Option.some.inj hb
    refine ⟨⟨r, ?_⟩, hsize ▸ hsmall⟩
    have hW : writtenBytes (p.trace ++ [.wrote (bytes.take n₁.toNat)]) =
        writtenBytes p.trace ++ bytes.take n₁.toNat := by
      simp [writtenBytes]
    change Queues (writtenBytes (p.trace ++ [.wrote (bytes.take n₁.toNat)])) _ r b₁
    rw [hW]
    exact hq₁
  · rw [outgoing_act _ rfl]
    exact h.sent.snoc fun _ ht => by cases ht

theorem Sender.effect {sg : Option Segment} {p q : Endpoint} (h : Sender avoid p)
    (heff : Effect avoid sg p q) (hlive : q.live = true) : Sender avoid q := by
  cases heff with
  | payload _ _ hmem => exact h.takes (processTCPPayload_takes _ _ hmem)
  | read => exact h.takes (copyToUser_takes _ _ _)
  | sendHandshake _ _ _ hpay | sendFin _ _ _ hpay =>
    exact (h.sends hpay).congr rfl rfl rfl
  | sendAck hpay => exact h.sends hpay
  | data _ _ hbuf _ _ hlen hslice hseq htuna hwin =>
    have hdata := h.data hbuf hlen hslice hseq hwin
    exact hdata.congr rfl rfl rfl
  | flushFault _ _ _ hbad =>
    rcases hbad with ⟨rfl, -⟩ | ⟨rfl, -⟩ | ⟨rfl, -⟩ <;> exact h.noted rfl rfl (fun _ ht => by cases ht)
  | acked hbuf =>
    obtain ⟨⟨r, hq⟩, hsmall⟩ := h.queued _ hbuf
    refine ⟨fun b' hb' => ?_, nofun, h.sent⟩
    obtain rfl := Option.some.inj hb'
    refine ⟨⟨_, hq.remove _⟩, fun ha => ?_⟩
    rw [(sbRemove_shape _ _).2.2]
    exact hsmall ha
  | openBuffer _ _ hnone hbig =>
    refine ⟨fun b' hb' => ?_, nofun, h.sent⟩
    obtain rfl := Option.some.inj hb'
    rw [h.unopened hnone]
    exact ⟨⟨0, sbInit_queues _ _⟩, hbig⟩
  | wrote _ _ _ hbuf hput hn =>
    have hwrote := h.wrote hbuf hput hn
    rw [Endpoint.enqueueSend_frame]
    exact hwrote.congr rfl rfl rfl
  | control | queueAck | restartTimewait | rewindSynAck | leaveControl | dupAck | rewind | recover
  | listenSyn | synAck | pureAck | rstAck | synOnly | synRcvdBare | handshake | synEstablished
  | noMem | finEstablished | finAcked | finClosing | finTimewait | finLate | closingAcked | rstSeen
  | rstEstablished | rtoIgnored | rtoLost | rtoStray | timedOut | connectq | sendq | ackq
  | closeListener | writeNoMem => exact h.congr rfl rfl rfl
  | sendReset | answeredOrphan | lastAcked | rstHandshake | rstClosing | rtoDestroy
  | timewaitExpired | timedOutOrphan | destroyq => cases hlive
  | dataDone =>
    rw [Endpoint.leaveSend_frame]
    exact h.congr rfl rfl rfl
  | ackDone =>
    rw [Endpoint.leaveAck_frame]
    exact h.congr rfl rfl rfl
  | rtoRewind =>
    rw [Endpoint.requeue_frame]
    exact h.congr rfl rfl rfl
  | accept =>
    rw [Endpoint.accept_frame]
    exact h.congr rfl rfl rfl
  | close =>
    rw [Endpoint.close_frame]
    exact h.congr rfl rfl rfl
  | closeq =>
    rw [Endpoint.dequeueClose_frame hlive]
    exact h.congr rfl rfl rfl
  | closeqInt =>
    rw [Endpoint.dequeueCloseInt_frame]
    exact h.congr rfl rfl rfl
  | resetq =>
    rw [Endpoint.dequeueReset_frame hlive]
    exact h.congr rfl rfl rfl
  | resetqInt =>
    rw [Endpoint.dequeueResetInt_frame]
    exact h.congr rfl rfl rfl
  | abort =>
    rw [Endpoint.abort_frame]
    exact h.congr rfl rfl rfl

/-! ## Runs -/

theorem Born.sender {c : Conn} (hborn : Born c) : Sender avoid c.core := by
  have htrace := hborn.fresh.trace
  refine ⟨fun b hb => ?_, fun _ => by rw [htrace]; rfl, fun before t hpre => ?_⟩
  · cases hborn.fresh.sndbuf.symm.trans hb
  · rw [htrace] at hpre
    simp [outgoing] at hpre

theorem Reached.sender {c : Conn} (hreached : Reached avoid c) (hlive : c.onHashTable = true) :
    Sender avoid c.core := by
  refine hreached.invariant (P := fun p => p.live = true → Sender avoid p)
    (fun hborn _ => hborn.sender) (fun heff h hq => ?_) hlive
  exact (h (heff.moves hq).1).effect heff hq

/-! ## One flush -/

/-- The segments that were sent. -/
def sentSegments (acts : List Act) : List TxSegment :=
  acts.filterMap fun a =>
    match a with
    | .sent t => some t
    | _ => none

/-- Each segment begins where the one before it ends, the first at `seq`. -/
def Contiguous : U32 → List TxSegment → Prop
  | _, [] => True
  | seq, t :: ts => t.seq = seq ∧ Contiguous (seq + BitVec.ofNat 32 t.payload.length) ts

theorem sentSegments_kept (l : List Act) : sentSegments (l.filter Act.kept) = sentSegments l := by
  rw [sentSegments, List.filterMap_filter]
  refine congrArg (List.filterMap · l) (funext fun a => ?_)
  cases a <;> first | rfl | exact ite_self _

theorem sentSegments_core {c d : Conn} (h : d.core = c.core) :
    sentSegments d.log = sentSegments c.log := by
  rw [← sentSegments_kept d.log, ← sentSegments_kept c.log]
  exact congrArg (fun p => sentSegments p.trace) h

theorem sentSegments_fault (c : Conn) (f : Fault) :
    sentSegments (c.fault f).log = sentSegments c.log := by
  simp [Conn.fault, Conn.act, sentSegments]

/-- A segment that leaves is noted, one that does not is not. -/
theorem sentSegments_sendTCPPacket (env : Env) (flags : TcpFlags) (payload : List U8) (c : Conn) :
    sentSegments (sendTCPPacket env flags payload c).1.log = sentSegments c.log ++
      if (sendTCPPacket env flags payload c).2 < 0 then [] else [txSegment flags payload c] := by
  rcases core_sendTCPPacket env flags payload c with ⟨hneg, hcore⟩ | ⟨hret, hcore⟩
  · rw [if_pos hneg, List.append_nil]
    exact sentSegments_core hcore
  · have hpos : ¬ (sendTCPPacket env flags payload c).2 < 0 := by omega
    rw [if_neg hpos, ← sentSegments_kept, ← sentSegments_kept c.log]
    have htrace := congrArg (fun p => sentSegments p.trace) hcore
    simpa [Endpoint.act, sentSegments] using htrace

/-- A round of the flush loop sends nothing, or the next segment. -/
theorem flushStep_sent (env : Env) (b : SendBuffer) (packets : ℤ) (c : Conn) :
    sentSegments (flushStep env b packets c).1.log = sentSegments c.log ∧
        (flushStep env b packets c).2.isSome = true ∨
      ∃ t, sentSegments (flushStep env b packets c).1.log = sentSegments c.log ++ [t] ∧
        t.seq = c.sndNxt ∧
        (flushStep env b packets c).1.sndNxt = c.sndNxt + BitVec.ofNat 32 t.payload.length := by
  have hround := flushStep_outcome env b packets c
  generalize flushStep env b packets c = r at hround ⊢
  cases hround with
  | asserts | unread => exact .inl ⟨sentSegments_fault .., rfl⟩
  | flushed => exact .inl ⟨rfl, rfl⟩
  | full =>
    refine .inl ⟨?_, rfl⟩
    unfold probeWindow
    split
    · exact sentSegments_core (c := { c with onAckList := true }) (by rw [core_enqueueACK]; rfl)
    · rfl
  | @refused payload hneg =>
    have hsent := sentSegments_sendTCPPacket env ackFlag payload c
    rw [if_pos hneg, List.append_nil] at hsent
    exact .inl ⟨hsent, rfl⟩
  | @sent payload _ _ _ _ _ hpos =>
    have hsent := sentSegments_sendTCPPacket env ackFlag payload c
    rw [if_neg (not_lt.2 hpos)] at hsent
    rcases core_sendTCPPacket env ackFlag payload c with ⟨hneg, -⟩ | ⟨-, hcore⟩
    · omega
    · exact .inr ⟨txSegment ackFlag payload c, hsent, rfl, congrArg (·.sndNxt) hcore⟩

theorem flushLoop_sent (env : Env) (b : SendBuffer) (fuel : ℕ) (packets : ℤ) (c : Conn) :
    ∃ ts, sentSegments (flushLoop env b fuel packets c).1.log = sentSegments c.log ++ ts ∧
      Contiguous c.sndNxt ts := by
  induction fuel generalizing packets c with
  | zero => exact ⟨[], by simp [flushLoop], trivial⟩
  | succ fuel ih =>
      rw [flushLoop]
      rcases flushStep_sent env b packets c with ⟨hsent, hstop⟩ | ⟨t, hsent, hseq, hnxt⟩
      · obtain ⟨ret, hret⟩ := Option.isSome_iff_exists.mp hstop
        rw [hret]
        exact ⟨[], by simpa using hsent, trivial⟩
      · have hlast : Contiguous c.sndNxt [t] := ⟨hseq, trivial⟩
        split
        case h_1 => exact ⟨[t], hsent, hlast⟩
        case h_2 =>
          obtain ⟨ts, hrest, hcont⟩ := ih (packets + 1) (flushStep env b packets c).1
          refine ⟨t :: ts, ?_, hseq, hnxt ▸ hcont⟩
          rw [hrest, hsent, List.append_assoc, List.singleton_append]

theorem flushTCPSendingBuffer_sent (env : Env) (c : Conn) :
    ∃ ts, sentSegments (flushTCPSendingBuffer env c).1.log = sentSegments c.log ++ ts ∧
      Contiguous c.sndNxt ts := by
  unfold flushTCPSendingBuffer
  split
  · exact ⟨[], by simp [sentSegments_fault], trivial⟩
  · split
    · exact ⟨[], by simp, trivial⟩
    · exact flushLoop_sent ..

/-! ## Every data segment -/

/-- The acts of the sending side before a position of the log. -/
theorem outgoing_mono {c : Conn} {before : List Act} {t : TxSegment}
    (hpre : before ++ [.sent t] <+: c.log) :
    outgoing (before.filter Act.kept) ++ [.sent t] <+: outgoing c.core.trace := by
  have hfilter := (hpre.filter Act.kept).filter fun a => !a.incoming
  simpa [outgoing, Act.kept, Act.incoming, List.filter_append] using hfilter

/-- The byte at place `i` of a segment is the byte written at place `m + i`. -/
theorem Carries.getElem? {iss : U32} {before : List Act} {t : TxSegment} {m i : ℕ} {x : U8}
    (h : Carries iss before t m) (hx : t.payload[i]? = some x) :
    t.seq + BitVec.ofNat 32 i = seqAt (iss + 1) (m + i) ∧
      (writtenBytes before)[m + i]? = some x := by
  refine ⟨by rw [h.1, seqAt_add], ?_⟩
  have hi := (List.getElem?_eq_some_iff.mp hx).1
  rw [← slice_getElem? h.2 hi, hx]

/-- In every state of a run of a live stream, every data segment sent so far carries the bytes its
sequence number stands for, of those written before it was sent, and fits into the windows; with
send buffers below 2 GiB these are bytes less than 2 GiB from the end of what had been written. Up
to 4 GiB, two transmissions of one sequence number carry the same byte. The segments of one flush
follow each other without a gap. -/
theorem sent_data_integrity {c : Conn} (hreached : Reached avoid c) (hlive : c.onHashTable = true) :
    (∀ before t, before ++ [.sent t] <+: c.log → t.payload ≠ [] →
      (∃ m, Carries c.iss before t m ∧
        (avoid .bigBuffer → (writtenBytes before).length < m + 2 ^ 31)) ∧ FitsWindow t) ∧
    (∀ t t' i j x y, .sent t ∈ c.log → .sent t' ∈ c.log → (writtenBytes c.log).length ≤ 2 ^ 32 →
      t.payload[i]? = some x → t'.payload[j]? = some y →
      t.seq + BitVec.ofNat 32 i = t'.seq + BitVec.ofNat 32 j → x = y) ∧
    ∀ env, ∃ ts, sentSegments (flushTCPSendingBuffer env c).1.log = sentSegments c.log ++ ts ∧
      Contiguous c.sndNxt ts := by
  have hsender := hreached.sender hlive
  have hcarries : ∀ before t, before ++ [.sent t] <+: c.log → t.payload ≠ [] →
      (∃ m, Carries c.iss before t m ∧
        (avoid .bigBuffer → (writtenBytes before).length < m + 2 ^ 31)) ∧ FitsWindow t := by
    intro before t hpre hpay
    have hsent := hsender.sent _ t (outgoing_mono hpre) hpay
    have hwritten : writtenBytes (outgoing (before.filter Act.kept)) = writtenBytes before := by
      rw [writtenBytes_outgoing, writtenBytes_filter fun _ => rfl]
    unfold Carries at hsent ⊢
    rwa [hwritten] at hsent
  -- the place of a byte that was sent, in everything written
  have hplace : ∀ t i x, .sent t ∈ c.log → t.payload[i]? = some x →
      ∃ n, t.seq + BitVec.ofNat 32 i = seqAt (c.iss + 1) n ∧ (writtenBytes c.log)[n]? = some x := by
    intro t i x ht hx
    obtain ⟨before, after, hlog⟩ := List.append_of_mem ht
    have hpre : before ++ [.sent t] <+: c.log := ⟨after, by simp [hlog]⟩
    have hpay : t.payload ≠ [] := by
      rintro hnil
      simp [hnil] at hx
    obtain ⟨⟨m, hm, -⟩, -⟩ := hcarries before t hpre hpay
    obtain ⟨hseq, hbyte⟩ := hm.getElem? hx
    refine ⟨m + i, hseq, ?_⟩
    rw [hlog, writtenBytes_append, List.getElem?_append_left (List.getElem?_eq_some_iff.mp hbyte).1,
      hbyte]
  refine ⟨hcarries, fun t t' i j x y ht ht' hlen hx hy hseq => ?_,
    fun env => flushTCPSendingBuffer_sent env c⟩
  obtain ⟨n, hn, hbyte⟩ := hplace t i x ht hx
  obtain ⟨n', hn', hbyte'⟩ := hplace t' j y ht' hy
  have hlt := (List.getElem?_eq_some_iff.mp hbyte).1
  have hlt' := (List.getElem?_eq_some_iff.mp hbyte').1
  have hsame : n = n' := by
    rw [hn, hn'] at hseq
    exact (seqAt_inj (by omega) (by omega)).mp hseq
  rw [hsame, hbyte'] at hbyte
  exact (Option.some.inj hbyte).symm

/-- A connected stream that has sent three bytes. -/
def sendingConn : Conn :=
  (activeOpen quietEnv ++ [Event.write quietEnv [1, 2, 3], .sendq, .dataPass quietEnv [true]]).foldl
    Event.apply connectingConn

theorem sent_data_integrity_three_bytes :
    ∃ before t, before ++ [.sent t] <+: sendingConn.log ∧ t.payload = [1, 2, 3] ∧ t.seq = 101 ∧
      FitsWindow t ∧ ∃ m, Carries 100 before t m := by
  have hreached : Reached (fun _ => False) sendingConn :=
    (Reached.born (.active quietEnv.cfg 100 quietSocket 0 Shared.init true)).run (by decide +kernel)
  obtain ⟨t, ht, hpay, hseq⟩ : ∃ t, sendingConn.log.getLast? = some (.sent t) ∧
      t.payload = [1, 2, 3] ∧ t.seq = 101 := ⟨_, rfl, by decide +kernel, by decide +kernel⟩
  have hpre : sendingConn.log.dropLast ++ [.sent t] <+: sendingConn.log :=
    (List.dropLast_append_getLast? _ ht).symm ▸ List.prefix_rfl
  obtain ⟨⟨m, hcarries, -⟩, hfits⟩ :=
    (sent_data_integrity hreached (by decide +kernel)).1 _ t hpre (by simp [hpay])
  exact ⟨_, t, hpre, hpay, hseq, hfits, m, hcarries⟩

end MtcpStack
