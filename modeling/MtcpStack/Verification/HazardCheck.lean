import MtcpStack.Verification.Handshake

/-! # Looking for hazards in a run

Most hazards can be decided from the stream and the event. A run in which a check finds none of a
list of hazards is a run that avoids them. -/

namespace MtcpStack

variable {avoid : Hazard → Prop}

instance (p : Endpoint) (seg : Segment) : Decidable (p.thirdDup seg) :=
  inferInstanceAs (Decidable (_ ∧ _))

instance (p : Endpoint) (seg : Segment) : Decidable (p.acceptable seg) :=
  inferInstanceAs (Decidable (_ ∧ _))

instance (state : TcpState) (sndNxt fss : U32) : Decidable (finOut state sndNxt fss) :=
  inferInstanceAs (Decidable (_ ∧ _))

instance (c : Conn) (e : Event) : Decidable (e.requeues c) := by
  cases e <;> unfold Event.requeues <;> infer_instance

/-- Whether a segment is an instance of the hazard; the hazards of the receive buffer count as
always met. -/
def Hazard.metBySegment (c : Conn) (env : Env) (seg : Segment) : Hazard → Bool
  | .synEstablished => decide (c.state = .established ∧ seg.syn = true ∧ seg.rst = false ∧
      (validateSequence env seg c).2 = true ∧ seg.ackSeq ≠ c.sndNxt)
  | .pureAck => decide (c.state = .synSent ∧ seg.syn = false ∧ seg.rst = false ∧
      c.core.acceptable seg)
  | .staleRewind => decide (c.core.thirdDup seg ∧
      tcpSeqLt (c.core.adjusted seg.ackSeq) c.sndUna)
  | .farAck => c.sndbuf.any fun b => decide (c.core.adjusted seg.ackSeq - b.endSeq = 2147483648#32)
  | .earlyFin => decide (c.state = .finWait1 ∧ c.isFinSent = false ∧ seg.fin = true ∧
      seg.ack = true ∧ ¬ tcpSeqLt seg.seq c.rcvNxt)
  | .noMemory => decide (env.rcvChunk = none)
  | .simultaneousOpen => decide (c.state = .synSent ∧ seg.syn = true ∧ seg.ack = false ∧
      seg.rst = false)
  | .smallBuffer | .foreign _ | .payload => true
  | _ => false

/-- Whether the event is an instance of the hazard. -/
def Hazard.met (c : Conn) (e : Event) (z : Hazard) : Bool :=
  match z, e with
  | .finRequeued, e => decide (c.onControlList = false ∧ finOut c.state c.sndNxt c.fss ∧
      e.requeues c)
  | z, .packet env seg => z.metBySegment c env seg
  | .finBehindQueue, .controlPass _ _ => decide ((c.state = .finWait1 ∨ c.state = .lastAck) ∧
      c.onSendList = false ∧ c.onAckList = false ∧ c.onSendq = true)
  | .noMemory, .write env _ => decide (env.sndChunk = none)
  | .bigBuffer, .write env _ => env.sndChunk.any fun chunk => decide (2 ^ 31 ≤ chunk.length + 1)
  | .acceptClosed, .accept _ => c.closed
  | .read, .read _ => true
  | _, _ => false

theorem Hazard.met_of_hits {c : Conn} {e : Event} {z : Hazard} (h : z.hits c e) :
    z.met c e = true := by
  cases z with
  | finRequeued => exact decide_eq_true h
  | synEstablished | pureAck | staleRewind | earlyFin | simultaneousOpen =>
    obtain ⟨env, seg, rfl, h⟩ := h
    exact decide_eq_true h
  | farAck =>
    obtain ⟨env, seg, b, rfl, hbuf, h⟩ := h
    simp only [met, metBySegment, hbuf, Option.any_some]
    exact decide_eq_true h
  | smallBuffer | foreign | payload =>
    obtain ⟨env, seg, rfl, -⟩ := h
    rfl
  | read =>
    obtain ⟨len, rfl⟩ := h
    rfl
  | finBehindQueue =>
    obtain ⟨env, tx, rfl, h⟩ := h
    exact decide_eq_true h
  | noMemory =>
    rcases h with ⟨env, seg, rfl, h⟩ | ⟨env, buf, rfl, h⟩ <;> exact decide_eq_true h
  | bigBuffer =>
    obtain ⟨env, buf, chunk, rfl, hchunk, h⟩ := h
    simp only [met, hchunk, Option.any_some]
    exact decide_eq_true h
  | acceptClosed =>
    obtain ⟨socket, rfl, h⟩ := h
    exact h

/-- The events can happen one after the other, and none is an instance of one of the hazards. -/
def Event.clear (zs : List Hazard) : Conn → List Event → Bool
  | _, [] => true
  | c, e :: es => e.enabled c && zs.all (fun z => !z.met c e) && clear zs (e.apply c) es

theorem Reached.clear {c : Conn} {zs : List Hazard} {es : List Event} (havoid : ∀ z, avoid z → z ∈ zs)
    (hreached : Reached avoid c) (hclear : Event.clear zs c es = true) :
    Reached avoid (es.foldl Event.apply c) := by
  induction es generalizing c with
  | nil => exact hreached
  | cons e es ih =>
      simp only [Event.clear, Bool.and_eq_true, List.all_eq_true] at hclear
      obtain ⟨⟨henabled, hnone⟩, hrest⟩ := hclear
      refine ih (.step hreached henabled fun z hz hhits => ?_) hrest
      have hmet := hnone z (havoid z hz)
      simp [Hazard.met_of_hits hhits] at hmet

end MtcpStack
