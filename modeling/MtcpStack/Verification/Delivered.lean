import MtcpStack.Verification.ReceiveSteps
import MtcpStack.Verification.SentData

/-! # What an endpoint delivers

The receiving side along whole runs, whatever else happens to the stream. As long as the payload
that is processed agrees with a byte stream `S`, the application reads a prefix of `S`. -/

namespace MtcpStack

variable {avoid : Hazard → Prop} {sg : Option Segment} {p q : Endpoint} {S : ℕ → U8} {v : U32}

/-! ## The receiving side of the trace -/

def incoming (trace : List Act) : List Act := trace.filter Act.incoming

theorem acceptedSegs_incoming (l : List Act) : acceptedSegs (incoming l) = acceptedSegs l := by
  rw [acceptedSegs, incoming, List.filterMap_filter]
  refine congrArg (List.filterMap · l) (funext fun a => ?_)
  cases a <;> first | rfl | exact ite_self _

theorem deliveredBytes_incoming (l : List Act) :
    deliveredBytes (incoming l) = deliveredBytes l := by
  induction l with
  | nil => rfl
  | cons a l ih =>
    rw [incoming, List.filter_cons]
    split
    case isTrue => exact congrArg (_ ++ ·) ih
    case isFalse h =>
      refine ih.trans ?_
      cases a <;> simp_all [deliveredBytes, Act.incoming]

theorem incoming_core (c : Conn) : incoming c.core.trace = incoming c.log := by
  change (c.log.filter Act.kept).filter Act.incoming = c.log.filter Act.incoming
  rw [List.filter_filter]
  refine List.filter_congr fun a _ => ?_
  cases a with
  | fault f => cases f <;> rfl
  | _ => rfl

/-! ## The effects -/

/-- Nothing but the sending side has been noted. -/
def Endpoint.Notes (p q : Endpoint) : Prop :=
  q.iss = p.iss ∧ ∃ new : List Act, q.trace = p.trace ++ new ∧ ∀ a ∈ new, a.incoming = false

theorem Endpoint.Notes.same (hiss : q.iss = p.iss) (htrace : q.trace = p.trace) : p.Notes q :=
  ⟨hiss, [], by simp [htrace], by simp⟩

theorem Endpoint.Notes.act {a : Act} (hiss : q.iss = p.iss) (htrace : q.trace = p.trace ++ [a])
    (ha : a.incoming = false) : p.Notes q :=
  ⟨hiss, [a], htrace, by simpa using ha⟩

/-- The payload of a segment is processed, or the application reads. -/
inductive Taking (avoid : Hazard → Prop) (p q : Endpoint) : Prop
  | payload {c : Conn} {env : Env} {seg : Segment} (hp : p = c.core)
      (hq : q = (processTCPPayload env seg.payload seg.seq c).1.core) (hstate : c.state.receives)
      (hsafe : PayloadSafe avoid env seg c)
  | read {c : Conn} {b : RingBuffer} {len : ℕ} (hp : p = c.core)
      (hq : q = (copyToUser b len c).1.core) (hbuf : c.rcvbuf = some b)

theorem Effect.noted (heff : Effect avoid sg p q) (hlive : q.live = true) :
    p.Notes q ∨ p.Takes q ∧ Taking avoid p q := by
  cases heff with
  | @payload c env seg _ hstate hmem hsafe =>
    exact .inr ⟨processTCPPayload_takes _ _ hmem, .payload rfl rfl hstate hsafe⟩
  | read hread hbuf => exact .inr ⟨copyToUser_takes .., .read rfl rfl hbuf⟩
  | flushFault _ _ _ hbad =>
    rcases hbad with ⟨rfl, -⟩ | ⟨rfl, -⟩ | ⟨rfl, -⟩ <;> exact .inl (.act rfl rfl rfl)
  | wrote =>
    rw [Endpoint.enqueueSend_frame]
    exact .inl (.act rfl rfl rfl)
  | dataDone | ackDone | rtoRewind | accept | close | closeqInt | resetqInt | abort =>
    first
    | rw [Endpoint.leaveSend_frame]
    | rw [Endpoint.leaveAck_frame]
    | rw [Endpoint.requeue_frame]
    | rw [Endpoint.accept_frame]
    | rw [Endpoint.close_frame]
    | rw [Endpoint.dequeueCloseInt_frame]
    | rw [Endpoint.dequeueResetInt_frame]
    | rw [Endpoint.abort_frame]
    exact .inl (.same rfl rfl)
  | closeq =>
    rw [Endpoint.dequeueClose_frame hlive]
    exact .inl (.same rfl rfl)
  | resetq =>
    rw [Endpoint.dequeueReset_frame hlive]
    exact .inl (.same rfl rfl)
  -- the other effects destroy the stream, note nothing or note one segment
  | _ => first | cases hlive | exact .inl (.same rfl rfl) | exact .inl (.act rfl rfl rfl)

/-- The initial sequence number is fixed, and what has been written stays. -/
theorem Effects.written (heff : Effects avoid sg p q) (hlive : q.live = true) :
    q.iss = p.iss ∧ writtenBytes p.trace <+: writtenBytes q.trace := by
  refine Effects.preserves (P := fun r => r.live = true → r.iss = p.iss ∧
    writtenBytes p.trace <+: writtenBytes r.trace) (fun heff hr hl => ?_) heff
    (fun _ => ⟨rfl, List.prefix_rfl⟩) hlive
  refine (hr (heff.moves hl).1).imp (fun hiss => ?_) fun hpre => hpre.trans ?_ <;>
    rcases heff.noted hl with ⟨hkept, new, htrace, -⟩ | ⟨htakes, -⟩
  · exact hkept.trans hiss
  · exact (congrArg (·.iss) htakes.frame).trans hiss
  · rw [htrace, writtenBytes_append]
    exact List.prefix_append ..
  · rw [← writtenBytes_outgoing, ← htakes.outgoing_eq, writtenBytes_outgoing]

/-- Only the answer to the SYN leads from SYN_SENT to a state in which payload is processed. -/
theorem Effect.answered (heff : Effect avoid sg p q) (hlive : q.live = true)
    (hs : p.state = .synSent) (hr : q.state.receives) :
    ∃ seg, sg = some seg ∧ q.irs = seg.seq := by
  have hest : q.state = .established := by
    have hmoves := (heff.moves hlive).2
    rcases hr with hq | hq | hq
    · exact hq
    all_goals simp [hs, hq, TcpState.moves] at hmoves
  have hsegment : ¬ Effect avoid none p q := fun heff => by
    simpa [hs, hest, TcpState.moves] using (heff.moves hlive).2
  cases heff with
  | synAck hsg => exact ⟨_, hsg, rfl⟩
  | payload _ hstate => rcases hstate with hc | hc | hc <;> cases hc.symm.trans hs
  | handshake _ _ hstate => cases hstate.symm.trans hs
  -- the other effects destroy the stream, do not establish it or need no segment
  | _ =>
    first
    | cases hlive
    | cases hest
    | cases hs.symm.trans hest
    | exact absurd (by constructor <;> assumption) hsegment

/-! ## The receiving side -/

/-- The receiving side of an endpoint, as it would be with `rcv_nxt` at `v`. -/
def Endpoint.rcv (p : Endpoint) (v : U32) : Conn :=
  { freshConn ⟨0, 0, 0⟩ 0 none 0 Shared.init with
    state := p.state
    irs := p.irs
    rcvNxt := v
    rcvWnd := p.rcvWnd
    rcvbuf := p.rcvbuf
    log := incoming p.trace }

theorem rcvInv_core (c : Conn) : RcvInv S (c.core.rcv v) ↔ RcvInv S { c with rcvNxt := v } := by
  have haccepted := acceptedSegs_incoming c.log
  have hdelivered := deliveredBytes_incoming c.log
  have hfault : Act.fault .ringBuffer ∈ incoming c.log ↔ Act.fault .ringBuffer ∈ c.log := by
    simp [incoming, Act.incoming]
  rw [← incoming_core] at haccepted hdelivered hfault
  exact ⟨fun h => h.congr ⟨rfl, rfl, rfl, rfl, haccepted.symm, hdelivered.symm, mt hfault.2⟩
    (.inl rfl),
    fun h => h.congr ⟨rfl, rfl, rfl, rfl, haccepted, hdelivered, mt hfault.1⟩ (.inl rfl)⟩

/-- What the application of a live stream has read is the beginning of `S`. Behind the peer's FIN
`rcv_nxt` is one above the end of the bytes. -/
def Inflow (S : ℕ → U8) (p : Endpoint) : Prop :=
  ∃ v, RcvInv S (p.rcv v) ∧ (p.state.receives → v = p.rcvNxt)

theorem advertiseWindow_rcvNxt (c : Conn) (v : U32) :
    advertiseWindow { c with rcvNxt := v } = { advertiseWindow c with rcvNxt := v } := by
  unfold advertiseWindow
  split_ifs <;> rfl

/-- A read takes no notice of `rcv_nxt`. -/
theorem copyToUser_rcvNxt (b : RingBuffer) (len : ℕ) (c : Conn) (v : U32) :
    (copyToUser b len { c with rcvNxt := v }).1 =
      { (copyToUser b len c).1 with rcvNxt := v } := by
  unfold copyToUser
  simp only
  split
  · rfl
  · split
    case h_1 bytes b' _ _ _ =>
      exact advertiseWindow_rcvNxt { c.act (.delivered bytes) with
        rcvbuf := some b'
        rcvWnd := BitVec.ofNat 32 (b'.size - b'.mergedLen) } v
    case h_2 => rfl

theorem Inflow.taking (h : Inflow S p) (htaking : Taking avoid p q)
    (hforeign : p.state.receives → avoid (.foreign S)) : Inflow S q := by
  obtain ⟨v, hinv, hnxt⟩ := h
  cases htaking with
  | payload hp hq hstate hsafe =>
    subst hp hq
    obtain rfl := hnxt hstate
    have hgenuine := hsafe.genuine S (hforeign hstate)
    exact ⟨_, (rcvInv_core _).2 (processTCPPayload_inv ((rcvInv_core _).1 hinv) hstate
      hgenuine.length_lt hgenuine.chunk_lt hgenuine.agrees), fun _ => rfl⟩
  | @read c b len hp hq hbuf =>
    subst hp hq
    have hread := copyToUser_inv ((rcvInv_core c).1 hinv) len hbuf
    rw [copyToUser_rcvNxt] at hread
    refine ⟨v, (rcvInv_core _).2 hread, ?_⟩
    rw [core_copyToUser]
    exact hnxt

theorem Inflow.effect (h : Inflow S p) (halign : Aligned p) (heff : Effect avoid sg p q)
    (hlive : q.live = true) (hforeign : p.state.receives → avoid (.foreign S)) : Inflow S q := by
  obtain ⟨hp, hmoves⟩ := heff.moves hlive
  rcases heff.noted hlive with ⟨-, new, htrace, hnew⟩ | ⟨-, htaking⟩
  case inr => exact h.taking htaking hforeign
  have hlog : incoming q.trace = incoming p.trace := by simpa [incoming, htrace] using hnew
  have hkept : q.irs = p.irs → q.rcvWnd = p.rcvWnd → q.rcvbuf = p.rcvbuf →
      (q.state.receives → p.state.receives ∧ q.rcvNxt = p.rcvNxt) → Inflow S q := by
    intro hirs hwnd hbuf hrecv
    obtain ⟨v, hinv, hv⟩ := h
    refine ⟨v, hinv.congr ⟨hbuf, rfl, hwnd, hirs, congrArg acceptedSegs hlog,
      congrArg deliveredBytes hlog, fun hno hin => hno ((congrArg (_ ∈ ·) hlog).mp hin)⟩ ?_,
      fun hr => (hv (hrecv hr).1).trans (hrecv hr).2.symm⟩
    by_cases hest : q.state = .established
    · rcases (hrecv (.inl hest)).1 with hs | hs | hs
      · exact .inl (hest.trans hs.symm)
      all_goals simp [hs, hest, TcpState.moves] at hmoves
    · exact .inr hest
  cases heff.receiveStep with
  | payload hp hq hstate _ hsafe => exact h.taking (.payload hp hq hstate hsafe) hforeign
  | read _ hp hq hbuf => exact h.taking (.read hp hq hbuf) hforeign
  | dead hdead => cases hdead.symm.trans hlive
  | listened hstate => exact absurd hstate (halign.listen hp)
  | kept hside _ _ hrecv =>
    simp only [Endpoint.receiving, Prod.mk.injEq] at hside
    exact hkept hside.2.1 hside.2.2.2.1 hside.2.2.2.2 fun hr => ⟨hrecv hr, hside.2.2.1⟩
  | fin _ _ hside _ hrecv =>
    simp only [Endpoint.receiving, Prod.mk.injEq] at hside
    exact hkept hside.2.1 hside.2.2.2.1 hside.2.2.2.2 fun hr => absurd hr hrecv
  | opened hstate hside =>
    simp only [Endpoint.receiving, Prod.mk.injEq] at hside
    obtain ⟨-, -, hnxt, hwnd, hbuf⟩ := hside
    have hnone : p.rcvbuf = none :=
      halign.opens hp (by rcases hstate with hs | ⟨hs, -⟩ <;> simp [hs, TcpState.opens])
    obtain ⟨v, hinv, -⟩ := h
    obtain ⟨-, hsmall, haccepted, hdelivered⟩ := hinv.empty hnone
    exact ⟨q.irs + 1, RcvStart.inv ⟨hbuf.trans hnone, rfl,
      (congrArg BitVec.toNat hwnd).trans_lt hsmall, (congrArg acceptedSegs hlog).trans haccepted,
      (congrArg deliveredBytes hlog).trans hdelivered,
      fun hin => hinv.inside ((congrArg (_ ∈ ·) hlog).mp hin)⟩, fun _ => hnxt.symm⟩

/-- A state that processes payload now or may do so later. -/
def TcpState.takes (s : TcpState) : Prop := s.receives ∨ s.opens = true

theorem TcpState.takes_of_moves {packet : Bool} {s t : TcpState} (h : s.moves packet t = true)
    (ht : t.takes) : s.takes := by
  cases s <;> cases t <;>
    simp_all [TcpState.moves, TcpState.takes, TcpState.receives, TcpState.opens]

theorem Inflow.effects (h : Inflow S p) (halign : Aligned p)
    (hforeign : p.state.takes → avoid (.foreign S)) (heff : Effects avoid sg p q)
    (hlive : q.live = true) : Inflow S q := by
  refine (Effects.preserves (P := fun p => Aligned p ∧ (p.live = true → Inflow S p ∧
    (p.state.takes → avoid (.foreign S)))) (fun heff hp => ?_) heff
    ⟨halign, fun _ => ⟨h, hforeign⟩⟩).2 hlive |>.1
  refine ⟨hp.1.effect heff, fun hl => ?_⟩
  obtain ⟨hlive, hmoves⟩ := heff.moves hl
  obtain ⟨hin, hfor⟩ := hp.2 hlive
  exact ⟨hin.effect hp.1 heff hl fun hr => hfor (.inl hr),
    fun ht => hfor (TcpState.takes_of_moves hmoves ht)⟩

theorem Endpoint.Fresh.inflow (h : p.Fresh) : Inflow S p := by
  refine ⟨p.irs + 1, RcvStart.inv ⟨h.rcvbuf, rfl, ?_, ?_, ?_, ?_⟩, fun hr => ?_⟩
  · exact (congrArg BitVec.toNat h.rcvWnd).trans_lt (by decide)
  · simp [Endpoint.rcv, h.trace, incoming, acceptedSegs]
  · simp [Endpoint.rcv, h.trace, incoming, deliveredBytes]
  · simp [Endpoint.rcv, h.trace, incoming]
  · cases h.opens.symm.trans hr.not_opens

end MtcpStack
