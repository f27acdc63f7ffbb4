import MtcpStack.Verification.Diagram
import MtcpStack.Verification.StepOutput

/-! # Runs of a stream

Every event changes the endpoint by effects only, so a property of endpoints that holds for new
streams and survives every effect holds in every state a stream can reach. -/

namespace MtcpStack

variable {avoid : Hazard → Prop}

/-! ## One event -/

theorem Event.apply_effects {c : Conn} {e : Event} (henabled : e.enabled c = true)
    (hsafe : ∀ z, avoid z → ¬ z.hits c e) : Effects avoid e.segment c.core (e.apply c).core := by
  cases e with
  | packet env seg => exact processTCPPacket_effects henabled hsafe
  | rtoPass env => exact rtoListStep_effects env _ (of_decide_eq_true henabled)
  | timewaitPass env => exact timewaitStep_effects env c
  | timeoutPass env => exact timeoutStep_effects env c
  | controlPass env tx =>
    refine controlListStep_effects env (c := { c with tx }) henabled fun ha hs hsend hack => ?_
    by_contra hq
    exact hsafe _ ha ⟨env, tx, rfl, hs, hsend, hack, by simpa using hq⟩
  | dataPass env tx => exact dataListStep_effects env (c := { c with tx }) henabled
  | ackPass env tx =>
    exact ackListStep_effects env (c := { c with tx }) henabled
      fun ha hwait hsend hoff hout => hsafe _ ha ⟨hoff, hout, hwait, hsend⟩
  | connectq =>
    exact core_dequeueConnect c ▸ .single (.connectq (of_decide_eq_true henabled)
      fun ha hoff hout => hsafe _ ha ⟨hoff, hout, trivial⟩)
  | sendq =>
    exact core_dequeueSend c ▸ .single (.sendq (of_decide_eq_true henabled))
  | ackq =>
    exact core_dequeueAck c ▸ .single (.ackq (of_decide_eq_true henabled))
  | closeq cfg =>
    exact core_dequeueClose cfg c ▸ .single (.closeq (of_decide_eq_true henabled))
  | closeqInt =>
    exact core_dequeueCloseInt c ▸ .single (.closeqInt (of_decide_eq_true henabled))
  | resetq cfg =>
    exact core_dequeueReset cfg c ▸ .single (.resetq (of_decide_eq_true henabled))
  | resetqInt =>
    exact core_dequeueResetInt c ▸ .single (.resetqInt (of_decide_eq_true henabled))
  | destroyq cfg =>
    exact core_dequeueDestroy cfg c ▸ .single (.destroyq (of_decide_eq_true henabled))
  | accept socket =>
    refine core_mtcpAccept socket c ▸ .single (.accept socket.isSome fun ha => ?_)
    by_contra hclosed
    exact hsafe _ ha ⟨socket, rfl, by simpa using hclosed⟩
  | closeListener => exact .single .closeListener
  | read len => exact mtcpRead_effects len c fun ha => hsafe _ ha ⟨len, rfl⟩
  | write env buf =>
    refine mtcpWrite_effects env buf (fun ha hnone => hsafe _ ha (.inr ⟨env, buf, rfl, hnone⟩))
      fun ha chunk hchunk => ?_
    by_contra hbig
    exact hsafe _ ha ⟨env, buf, chunk, rfl, hchunk, not_lt.mp hbig⟩
  | close => exact core_mtcpClose c ▸ .single .close
  | abort => exact core_mtcpAbort c ▸ .single .abort
  | others shared => exact .refl

/-! ## New streams -/

theorem core_mtcpConnect (cfg : Config) (iss : U32) (socket : Socket) (sid : ℕ) (sh : Shared)
    (queued : Bool) :
    (mtcpConnect cfg iss socket sid sh queued).core =
      { (freshConn cfg iss (some socket) sid sh).core with
        smap := true
        state := .synSent
        connectq := if queued then 1 else 0
        destroyq := if queued then 0 else 1 } := by
  cases queued <;> rfl

theorem core_handlePassiveOpen (env : Env) (iss : U32) (sid : ℕ) (sh : Shared) {seg : Segment}
    (hsyn : seg.syn = true) :
    (handlePassiveOpen env iss sid sh seg).core =
      { (freshConn env.cfg iss none sid sh).core with
        irs := seg.seq
        rcvNxt := seg.seq + 1
        state := .synRcvd
        onControlList := true
        haveReset := seg.rst } := by
  have hlisten : ∀ c : Conn, c.core =
      { (freshConn env.cfg iss none sid sh).core with irs := seg.seq, rcvNxt := seg.seq } →
      (processTCPPacket env seg c).core =
        { (freshConn env.cfg iss none sid sh).core with
          irs := seg.seq
          rcvNxt := seg.seq + 1
          state := .synRcvd
          onControlList := true
          haveReset := seg.rst } := by
    intro c hc
    have hadmitted := core_admitSegment env seg c
    have hs : c.state = .listen := congrArg (·.state) hc
    have hreset : c.haveReset = false := congrArg (·.haveReset) hc
    have hcode : ¬ TcpState.synRcvd.code < c.state.code := by simp [hs, TcpState.code]
    rw [processTCPPacket, if_neg hcode, dispatchSegment]
    simp only
    generalize admitSegment env seg c = d at hadmitted ⊢
    rw [hc, hreset, Bool.false_or] at hadmitted
    have hd : d.state = .listen := congrArg (·.state) hadmitted
    have hrst : ¬ (seg.rst = true ∧ TcpState.synSent.code < d.state.code) := by
      simp [hd, TcpState.code]
    rw [if_neg hrst, handleState, hd]
    simp only [handleListen, hsyn, hd, if_true, core_addtoControlList]
    change { d.core with rcvNxt := d.core.rcvNxt + 1, state := .synRcvd, onControlList := true } = _
    rw [hadmitted]
  unfold handlePassiveOpen
  simp only
  split
  case h_1 => exact hlisten _ (core_fault_skipped _ rfl)
  case h_2 c hparse => exact hlisten c (core_parseTCPOptions hparse)

/-- What the new streams have in common. -/
structure Endpoint.Fresh (p : Endpoint) : Prop where
  live : p.live = true
  state : p.state = .synSent ∨ p.state = .synRcvd
  sndbuf : p.sndbuf = none
  rcvbuf : p.rcvbuf = none
  rcvWnd : p.rcvWnd = tcpInitialWindow
  isFinSent : p.isFinSent = false
  sendq : p.sendq = 0
  closeReason : p.closeReason = .notClosed
  trace : p.trace = []

theorem Endpoint.Fresh.opens {p : Endpoint} (h : p.Fresh) : p.state.opens = true := by
  rcases h.state with hs | hs <;> rw [hs] <;> rfl

theorem Born.fresh {c : Conn} (hborn : Born c) : c.core.Fresh := by
  cases hborn with
  | active =>
    rw [core_mtcpConnect]
    exact ⟨rfl, .inl rfl, rfl, rfl, rfl, rfl, rfl, rfl, rfl⟩
  | passive env iss sid sh seg hsyn =>
    rw [core_handlePassiveOpen env iss sid sh hsyn]
    exact ⟨rfl, .inr rfl, rfl, rfl, rfl, rfl, rfl, rfl, rfl⟩

/-! ## Runs -/

/-- The states a stream reaches from its birth in runs that avoid the hazards in `avoid`. -/
inductive Reached (avoid : Hazard → Prop) : Conn → Prop
  | born {c} (hborn : Born c) : Reached avoid c
  | step {c e} (hreached : Reached avoid c) (henabled : e.enabled c = true)
      (hsafe : ∀ z, avoid z → ¬ z.hits c e) : Reached avoid (e.apply c)

/-- The events can happen one after the other. -/
def Event.allowed : Conn → List Event → Bool
  | _, [] => true
  | c, e :: es => e.enabled c && allowed (e.apply c) es

theorem Reached.run {c : Conn} {es : List Event} (hreached : Reached (fun _ => False) c)
    (hallowed : Event.allowed c es = true) :
    Reached (fun _ => False) (es.foldl Event.apply c) := by
  induction es generalizing c with
  | nil => exact hreached
  | cons e es ih =>
      obtain ⟨henabled, hrest⟩ := Bool.and_eq_true_iff.mp hallowed
      exact ih (.step hreached henabled fun _ ha => ha.elim) hrest

/-- A property of endpoints that every effect preserves is preserved by a step of the stack. -/
theorem Effects.preserves {P : Endpoint → Prop} {sg : Option Segment} {p q : Endpoint}
    (hstep : ∀ {p q}, Effect avoid sg p q → P p → P q) (heff : Effects avoid sg p q) (hp : P p) :
    P q := by
  induction heff with
  | refl => exact hp
  | tail _ heff ih => exact hstep heff ih

theorem Reached.invariant {P : Endpoint → Prop} (hborn : ∀ {c}, Born c → P c.core)
    (hstep : ∀ {sg p q}, Effect avoid sg p q → P p → P q) {c : Conn} (hreached : Reached avoid c) :
    P c.core := by
  induction hreached with
  | born h => exact hborn h
  | step _ henabled hsafe ih =>
    exact Effects.preserves (fun heff => hstep heff) (Event.apply_effects henabled hsafe) ih

/-- A set of states that the diagram does not leave is not left by a step. -/
theorem Effects.stays {sg : Option Segment} {p q : Endpoint} {A : TcpState → Prop}
    (hA : ∀ s t, A s → s.moves sg.isSome t = true → A t) (heff : Effects avoid sg p q)
    (hp : p.live = true → A p.state) : q.live = true → A q.state := by
  refine Effects.preserves (P := fun p => p.live = true → A p.state) (fun heff h hl => ?_) heff hp
  obtain ⟨hlive, hmoves⟩ := heff.moves hl
  exact hA _ _ (h hlive) hmoves

/-- LISTEN is left when the stream is born. -/
theorem Reached.not_listen {c : Conn} (hreached : Reached avoid c) (hlive : c.onHashTable = true) :
    c.state ≠ .listen := by
  refine Reached.invariant (P := fun p => p.live = true → p.state ≠ .listen) (fun hborn _ => ?_)
    (fun heff h hl => ?_) hreached hlive
  · intro hl
    rcases hborn.fresh.state with hs | hs <;> cases hl.symm.trans hs
  · obtain ⟨hp, hmoves⟩ := heff.moves hl
    exact fun hq => h hp (TcpState.moves_listen (hq ▸ hmoves))

end MtcpStack
