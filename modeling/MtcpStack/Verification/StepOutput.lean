import MtcpStack.Verification.Effects
import MtcpStack.Verification.FlushRules

/-! # The list passes as effects

Every segment leaves through `SendTCPPacket`, so its effect on the endpoint is stated once; the
passes over the control, send and ACK lists are sequences of it. -/

namespace MtcpStack

open Slice

variable {avoid : Hazard → Prop} {sg : Option Segment} {c d : Conn}

/-! ## One segment -/

theorem core_fillHeader (env : Env) (flags : TcpFlags) (payload : List U8) (c : Conn) :
    (fillHeader env flags payload c).core =
      Endpoint.act { c.core with isFinSent := c.isFinSent || flags.sendsFin }
        (.sent (txSegment flags payload c)) := by
  have hfin : (if flags.sendsFin then { c with isFinSent := true } else c).core =
      { c.core with isFinSent := c.isFinSent || flags.sendsFin } := by
    cases flags.sendsFin
    · simp only [Bool.or_false]
      rfl
    · simp only [Bool.or_true]
      rfl
  unfold fillHeader
  simp only
  rw [core_act_kept _ rfl, ← hfin]
  generalize (if flags.sendsFin then { c with isFinSent := true } else c) = d
  have hack : (if flags.ack then updateTimeoutList
      { d with tsLastackSent := env.curTs, lastActiveTs := env.curTs } else d).core = d.core := by
    split
    · rw [core_updateTimeoutList]
      rfl
    · rfl
  rw [← hack]
  generalize (if flags.ack then updateTimeoutList _ else d) = e
  split <;> rfl

/-- `SendTCPPacket` sends the segment or changes nothing of the endpoint, and its result tells
which. -/
theorem core_sendTCPPacket (env : Env) (flags : TcpFlags) (payload : List U8) (c : Conn) :
    ((sendTCPPacket env flags payload c).2 < 0 ∧
        (sendTCPPacket env flags payload c).1.core = c.core) ∨
      ((sendTCPPacket env flags payload c).2 = ((payload.length + flags.ctlLen : ℕ) : ℤ) ∧
        (sendTCPPacket env flags payload c).1.core =
          Endpoint.act
            { c.core with
              isFinSent := c.isFinSent || flags.sendsFin
              sndNxt := c.sndNxt + BitVec.ofNat 32 (payload.length + flags.ctlLen)
              inRto := c.core.inRto ||
                (decide (0 < payload.length + flags.ctlLen) && !c.onTimewaitList) }
            (.sent (txSegment flags payload c))) := by
  unfold sendTCPPacket
  split
  case isTrue => exact Or.inl ⟨by simp [error], rfl⟩
  case isFalse =>
    cases htx : c.tx with
    | nil => exact Or.inl ⟨by simp, rfl⟩
    | cons answer tx =>
        cases answer with
        | false => exact Or.inl ⟨by simp, rfl⟩
        | true =>
            refine Or.inr ⟨rfl, ?_⟩
            have hfill : (fillHeader env flags payload { c with tx }).core =
                Endpoint.act { c.core with isFinSent := c.isFinSent || flags.sendsFin }
                  (.sent (txSegment flags payload c)) :=
              core_fillHeader env flags payload { c with tx }
            simp only
            generalize fillHeader env flags payload { c with tx } = d at hfill ⊢
            have hnxt : d.sndNxt = c.sndNxt := congrArg (·.sndNxt) hfill
            have hmoved : ∀ n : U32, ({ d with sndNxt := d.sndNxt + n } : Conn).core =
                Endpoint.act
                  { c.core with
                    isFinSent := c.isFinSent || flags.sendsFin, sndNxt := c.sndNxt + n }
                  (.sent (txSegment flags payload c)) := by
              intro n
              change { d.core with sndNxt := d.sndNxt + n } = _
              rw [hfill, hnxt]
              rfl
            split
            case isTrue hpos =>
              rw [core_addtoRTOList]
              have h := hmoved (BitVec.ofNat 32 (payload.length + flags.ctlLen))
              simp only [Conn.core, Endpoint.act, Endpoint.mk.injEq] at h ⊢
              simp [h, hpos]
            case isFalse hpos =>
              rw [hmoved]
              simp [Endpoint.act, hpos]

theorem fillHeader_tx (env : Env) (flags : TcpFlags) (payload : List U8) (c : Conn) :
    (fillHeader env flags payload c).tx = c.tx := by
  have hfin : (if flags.sendsFin then { c with isFinSent := true } else c).tx = c.tx := by
    split <;> rfl
  have htouch : ∀ d : Conn, (if flags.ack then
      updateTimeoutList { d with tsLastackSent := env.curTs, lastActiveTs := env.curTs }
      else d).tx = d.tx := by
    intro d
    unfold updateTimeoutList
    split
    · split <;> rfl
    · rfl
  have hclosed : ∀ d : Conn, (if window32 flags d = 0 then { d with needWndAdv := true }
      else d).tx = d.tx := by
    intro d
    split <;> rfl
  exact (hclosed _).trans ((htouch _).trans hfin)

theorem addtoRTOList_tx (c : Conn) : (addtoRTOList c).tx = c.tx := by
  have hrebase : (rebaseRTOStore c).tx = c.tx := by
    unfold rebaseRTOStore
    split <;> rfl
  unfold addtoRTOList
  simp only
  generalize rebaseRTOStore c = d at hrebase ⊢
  split
  · split <;> exact hrebase
  · exact hrebase

/-- A segment that leaves uses up one answer of the IP layer. -/
theorem sendTCPPacket_tx {env : Env} {flags : TcpFlags} {payload : List U8}
    (h : 0 ≤ (sendTCPPacket env flags payload c).2) :
    (sendTCPPacket env flags payload c).1.tx.length + 1 = c.tx.length := by
  revert h
  unfold sendTCPPacket
  split
  case isTrue => exact fun h => absurd h (by simp [error])
  case isFalse =>
    cases htx : c.tx with
    | nil => exact fun h => absurd h (by simp)
    | cons answer tx =>
        cases answer with
        | false => exact fun h => absurd h (by simp)
        | true =>
            intro _
            have hfill : (fillHeader env flags payload { c with tx }).tx = tx :=
              fillHeader_tx env flags payload { c with tx }
            simp only
            generalize fillHeader env flags payload { c with tx } = d at hfill ⊢
            split
            · rw [addtoRTOList_tx]
              simp only [hfill, List.length_cons]
            · simp only [hfill, List.length_cons]

/-! ## The flush loop -/

/-- The window test of the flush loop leaves room for every segment up to the remaining window. -/
theorem remainingWindow_fits {n : ℕ} (huna : ¬ tcpSeqLt c.sndNxt c.sndUna)
    (hopen : 0 < remainingWindow c) (hn : n ≤ (remainingWindow c).toNat) :
    (c.sndNxt - c.sndUna).toNat + n ≤ min c.cwnd.toNat c.peerWnd.toNat := by
  have hmin : (if c.cwnd.toNat < c.peerWnd.toNat then c.cwnd else c.peerWnd).toNat =
      min c.cwnd.toNat c.peerWnd.toNat := by
    split <;> omega
  unfold remainingWindow at hopen hn
  unfold tcpSeqLt at huna
  rw [← hmin]
  generalize (if c.cwnd.toNat < c.peerWnd.toNat then c.cwnd else c.peerWnd) = m at hopen hn ⊢
  generalize c.sndNxt - c.sndUna = d at huna hopen hn ⊢
  have hm : m = (m - d) + d := by ring
  have hsum : m.toNat = ((m - d).toNat + d.toNat) % 2 ^ 32 := by
    conv_lhs => rw [hm]
    exact BitVec.toNat_add _ _
  have hd := BitVec.toInt_eq_toNat_cond d
  have hr := BitVec.toInt_eq_toNat_cond (m - d)
  have hlt := (m - d).isLt
  have hlt' := d.isLt
  split at hd <;> split at hr <;> omega

/-- Only what sending moves has changed. -/
def Endpoint.Sends (p q : Endpoint) : Prop :=
  q = { p with sndNxt := q.sndNxt, inRto := q.inRto, trace := q.trace }

theorem Endpoint.Sends.trans {p q r : Endpoint} (h : p.Sends q) (h' : q.Sends r) : p.Sends r := by
  unfold Endpoint.Sends at h h' ⊢
  rw [h'] at *
  rw [h]

/-- The segment of one round of the loop. -/
theorem flush_data {env : Env} {b : SendBuffer} {payload : List U8}
    (hstate : c.state.flushes) (hon : c.onSendList = true) (hbuf : c.sndbuf = some b)
    (hhead : ¬ tcpSeqLt c.sndNxt b.headSeq) (huna : ¬ tcpSeqLt c.sndNxt c.sndUna)
    (hlen : (c.sndNxt - b.headSeq).toNat ≤ b.len) (hopen : windowFull c = false)
    (hslice : slice b.data (b.head + (c.sndNxt - b.headSeq).toNat)
      (pktLen c (b.len - (c.sndNxt - b.headSeq).toNat) % 2 ^ 16) = some payload)
    (hsent : 0 ≤ (sendTCPPacket env ackFlag payload c).2) :
    Effect avoid sg c.core (sendTCPPacket env ackFlag payload c).1.core ∧
      c.core.Sends (sendTCPPacket env ackFlag payload c).1.core := by
  have hplen := slice_length hslice
  have hpkt : payload.length ≤ pktLen c (b.len - (c.sndNxt - b.headSeq).toNat) := by
    rw [hplen]
    exact Nat.mod_le _ _
  have hbound : pktLen c (b.len - (c.sndNxt - b.headSeq).toNat) ≤
      min (b.len - (c.sndNxt - b.headSeq).toNat) (remainingWindow c).toNat := by
    unfold pktLen
    simp only
    split <;> omega
  have hwin : 0 < remainingWindow c := by
    simp only [windowFull, Bool.or_eq_false_iff, decide_eq_false_iff_not] at hopen
    omega
  rcases core_sendTCPPacket env ackFlag payload c with ⟨hneg, -⟩ | ⟨-, hcore⟩
  · omega
  · have hflags : ackFlag.ctlLen = 0 := rfl
    have hfin : ackFlag.sendsFin = false := rfl
    have hfinal : (sendTCPPacket env ackFlag payload c).1.core = Endpoint.act
        { c.core with
          sndNxt := c.core.sndNxt + BitVec.ofNat 32 payload.length
          inRto := c.core.inRto || (decide (0 < payload.length) && !c.core.onTimewaitList) }
        (.sent (txSegment ackFlag payload c)) := by
      rw [hcore]
      simp only [hflags, hfin, Nat.add_zero, Bool.or_false]
      rfl
    rw [hfinal]
    refine ⟨?_, rfl⟩
    refine Effect.data (p := c.core) (t := txSegment ackFlag payload c) hstate hon hbuf hhead huna
      ?_ ?_ rfl rfl ?_ rfl rfl
    · change (c.sndNxt - b.headSeq).toNat + payload.length ≤ b.len
      omega
    · change slice b.data (b.head + (c.sndNxt - b.headSeq).toNat) payload.length = some payload
      rw [hplen]
      exact hslice
    · have hfit : payload.length ≤ (remainingWindow c).toNat := by omega
      exact remainingWindow_fits huna hwin hfit

/-- A round that goes on has sent a segment. A round that ends with a count has reached the end
of the buffer, or an assertion. -/
theorem flushStep_effects (env : Env) (b : SendBuffer) (packets : ℤ)
    (hstate : c.state.flushes) (hon : c.onSendList = true) (hbuf : c.sndbuf = some b) :
    Effects avoid sg c.core (flushStep env b packets c).1.core ∧
      ((flushStep env b packets c).2 = none → c.core.Sends (flushStep env b packets c).1.core ∧
        (flushStep env b packets c).1.tx.length < c.tx.length) ∧
      (∀ ret, (flushStep env b packets c).2 = some ret → 0 ≤ ret →
        c.core.Sends (flushStep env b packets c).1.core ∧
          ((flushStep env b packets c).1.core.faulted ∨
            ((flushStep env b packets c).1.sndNxt - b.headSeq).toNat = b.len)) := by
  have hnoret : ∀ {P : Prop} (ret : ℤ), some (-3 : ℤ) = some ret → 0 ≤ ret → P := by
    rintro P ret ⟨⟩ hpos
    omega
  have hround := flushStep_outcome env b packets c
  generalize flushStep env b packets c = r at hround ⊢
  cases hround with
  | @asserts f hf =>
    have hkept : (Act.fault f).kept = true := by
      rcases hf with ⟨rfl, -⟩ | ⟨rfl, -⟩ | ⟨rfl, -⟩ <;> rfl
    have hcore : (c.fault f).core = c.core.act (.fault f) := core_act_kept c hkept
    have htrace : Act.fault f ∈ (c.fault f).core.trace := by simp [hcore, Endpoint.act]
    refine ⟨?_, by simp, fun _ _ _ => ⟨?_, .inl ?_⟩⟩
    · rw [hcore]
      exact .single (.flushFault hstate hon hbuf hf)
    · rw [hcore]
      rfl
    · rcases hf with ⟨rfl, -⟩ | ⟨rfl, -⟩ | ⟨rfl, -⟩
      · exact .inl htrace
      · exact .inr (.inl htrace)
      · exact .inr (.inr htrace)
  | flushed hdone => exact ⟨.refl, by simp, fun _ _ _ => ⟨rfl, .inr hdone⟩⟩
  | full =>
    refine ⟨?_, by simp, hnoret⟩
    unfold probeWindow
    split
    · rw [core_enqueueACK]
      exact .single .queueAck
    · exact .refl
  | unread =>
    refine ⟨?_, by simp, hnoret⟩
    rw [core_fault_skipped c rfl]
  | @refused payload hneg =>
    refine ⟨?_, by simp, hnoret⟩
    rcases core_sendTCPPacket env ackFlag payload c with ⟨-, hcore⟩ | ⟨hret, -⟩
    · rw [hcore]
    · omega
  | sent hhead huna hlt hopen hslice hpos =>
    obtain ⟨hdata, hsends⟩ : Effect avoid sg c.core _ ∧ _ :=
      flush_data hstate hon hbuf hhead huna hlt.le hopen hslice hpos
    have htx := sendTCPPacket_tx hpos
    exact ⟨.single hdata, fun _ => ⟨hsends, Nat.lt_of_succ_le htx.le⟩, by simp⟩

theorem flushLoop_effects (env : Env) (b : SendBuffer) (fuel : ℕ) (packets : ℤ)
    (hstate : c.state.flushes) (hon : c.onSendList = true) (hbuf : c.sndbuf = some b)
    (htx : c.tx.length < fuel) :
    Effects avoid sg c.core (flushLoop env b fuel packets c).1.core ∧
      (0 ≤ (flushLoop env b fuel packets c).2 →
        c.core.Sends (flushLoop env b fuel packets c).1.core ∧
          ((flushLoop env b fuel packets c).1.core.faulted ∨
            ((flushLoop env b fuel packets c).1.sndNxt - b.headSeq).toNat = b.len)) := by
  induction fuel generalizing packets c with
  | zero => omega
  | succ fuel ih =>
      obtain ⟨heff, hgo, hend⟩ : Effects avoid sg c.core _ ∧ _ :=
        flushStep_effects env b packets hstate hon hbuf
      simp only [flushLoop]
      cases hret : (flushStep env b packets c).2 with
      | some ret => exact ⟨heff, fun hpos => hend ret hret hpos⟩
      | none =>
          -- the round has sent a segment, which keeps the stream on the send list
          obtain ⟨hsends, hless⟩ := hgo hret
          have hs : (flushStep env b packets c).1.state = c.state := congrArg (·.state) hsends
          have ho : (flushStep env b packets c).1.onSendList = c.onSendList :=
            congrArg (·.onSendList) hsends
          have hb : (flushStep env b packets c).1.sndbuf = c.sndbuf := congrArg (·.sndbuf) hsends
          obtain ⟨heff', hend'⟩ :=
            ih (packets + 1) (hs ▸ hstate) (ho.trans hon) (hb.trans hbuf) (by omega)
          refine ⟨heff.trans heff', fun hpos => ?_⟩
          obtain ⟨hsends', hdone⟩ := hend' hpos
          exact ⟨hsends.trans hsends', hdone⟩

/-! ## Control packets -/

/-- The stream in the hands of the control pass, for the moment off its list. -/
structure Unlinked (c d : Conn) : Prop where
  core_eq : d.core = { c.core with onControlList := false }
  on : c.onControlList = true

/-- A control packet that cannot be sent leaves the stream as it was, back on the list. -/
theorem Unlinked.back (h : Unlinked c d) :
    { d.core with onControlList := true } = c.core := by
  rw [h.core_eq]
  simp [Conn.core, h.on]

/-- The outcome of `SendControlPacket` for the pass: back on the list when the packet could not
be sent. -/
def ControlOutcome (avoid : Hazard → Prop) (sg : Option Segment) (c : Conn) (r : Conn × ℤ) : Prop :=
  (r.2 < 0 → Effects avoid sg c.core { r.1.core with onControlList := true }) ∧
    (0 ≤ r.2 → Effects avoid sg c.core r.1.core)

theorem Unlinked.sends (h : Unlinked c d) (env : Env) (flags : TcpFlags)
    (hsent : Effects avoid sg c.core
      (Endpoint.act
        { c.core with
          onControlList := false
          isFinSent := c.isFinSent || flags.sendsFin
          sndNxt := c.sndNxt + BitVec.ofNat 32 flags.ctlLen
          inRto := c.core.inRto || (decide (0 < flags.ctlLen) && !c.onTimewaitList) }
        (.sent (txSegment flags [] d)))) :
    ControlOutcome avoid sg c (sendTCPPacket env flags [] d) := by
  have hnxt : d.sndNxt = c.sndNxt := congrArg (·.sndNxt) h.core_eq
  have hfin : d.isFinSent = c.isFinSent := congrArg (·.isFinSent) h.core_eq
  have htw : d.onTimewaitList = c.onTimewaitList := congrArg (·.onTimewaitList) h.core_eq
  rcases core_sendTCPPacket env flags [] d with ⟨hneg, hcore⟩ | ⟨hret, hcore⟩
  · refine ⟨fun _ => ?_, fun hpos => absurd hpos (by omega)⟩
    rw [hcore, h.back]
  · refine ⟨fun hneg => absurd hneg (by omega), fun _ => ?_⟩
    rw [hcore, h.core_eq, hnxt, hfin, htw]
    simpa only [List.length_nil, Nat.zero_add] using hsent

/-- A bare acknowledgement takes the stream off the control list. -/
theorem Unlinked.sendsAck (h : Unlinked c d) (env : Env)
    (hstate : c.state = .listen ∨ c.state = .established ∨ c.state = .closeWait ∨
      c.state = .finWait2 ∨ c.state = .timeWait ∨
      c.state = .closing ∧ c.isFinSent = true ∧ c.sndNxt ≠ c.fss) :
    ControlOutcome avoid sg c (sendTCPPacket env ackFlag [] d) := by
  refine h.sends env ackFlag ?_
  have hctl : ackFlag.ctlLen = 0 := rfl
  have hfin : ackFlag.sendsFin = false := rfl
  rw [hctl, hfin]
  have hleft : Effect avoid sg c.core { c.core with onControlList := false } := .leaveControl hstate
  refine (Relation.ReflTransGen.single hleft).tail ?_
  have hack : Effect avoid sg { c.core with onControlList := false }
      (Endpoint.act { c.core with onControlList := false } (.sent (txSegment ackFlag [] d))) :=
    .sendAck rfl rfl rfl
  simpa [Endpoint.act] using hack

theorem Unlinked.sendsFin (h : Unlinked c d) (env : Env)
    (hstate : (c.state = .finWait1 ∨ c.state = .lastAck) ∧ c.onSendList = false ∧
        c.onAckList = false ∧ (avoid .finBehindQueue → c.onSendq = false) ∨
      c.state = .closing ∧ (c.isFinSent = true → c.sndNxt = c.fss)) :
    ControlOutcome avoid sg c (sendTCPPacket env finAckFlag [] d) := by
  refine h.sends env finAckFlag ?_
  have hfss : d.fss = c.fss := congrArg (·.fss) h.core_eq
  have hnxt : d.sndNxt = c.sndNxt := congrArg (·.sndNxt) h.core_eq
  have hfin : Effect avoid sg c.core _ := .sendFin (p := c.core)
    (t := txSegment finAckFlag [] d) hstate h.on hfss rfl rfl rfl rfl hnxt
  refine .single ?_
  have hctl : finAckFlag.ctlLen = 1 := rfl
  have hsends : finAckFlag.sendsFin = true := rfl
  rw [hctl, hsends]
  simpa using hfin

theorem Unlinked.sendsHandshake (h : Unlinked c d) (env : Env) (flags : TcpFlags)
    (hflags : flags = synFlag ∨ flags = synAckFlag)
    (hstate : c.state = .synSent ∨ c.state = .synRcvd ∧ c.sndNxt = c.iss) :
    ControlOutcome avoid sg c (sendTCPPacket env flags [] d) := by
  refine h.sends env flags ?_
  have hnxt : d.sndNxt = c.sndNxt := congrArg (·.sndNxt) h.core_eq
  have hwack : flags.wack = false := by rcases hflags with rfl | rfl <;> rfl
  have hsyn : flags.syn = true := by rcases hflags with rfl | rfl <;> rfl
  have hfin : flags.fin = false := by rcases hflags with rfl | rfl <;> rfl
  have hsends : flags.sendsFin = false := by simp [TcpFlags.sendsFin, hfin]
  have hctl : flags.ctlLen = 1 := by simp [TcpFlags.ctlLen, hsyn]
  have hseq : (txSegment flags [] d).seq = c.sndNxt := by
    simp [txSegment, txSeq, hwack, hfin, hnxt]
  have hopen : Effect avoid sg c.core _ := .sendHandshake (p := c.core)
    (t := txSegment flags [] d) hstate h.on hseq rfl hsyn hsends
  refine .single ?_
  rw [hctl, hsends]
  simpa using hopen

/-- A SYN/ACK starts over at `iss`, whatever had been sent. -/
theorem Unlinked.sendsSynAck (h : Unlinked c d) (env : Env) (hstate : c.state = .synRcvd) :
    ControlOutcome avoid sg c (sendTCPPacket env synAckFlag [] { d with sndNxt := d.iss }) := by
  have hiss : d.iss = c.iss := congrArg (·.iss) h.core_eq
  have hrewound : Unlinked { c with sndNxt := c.iss } { d with sndNxt := d.iss } := by
    refine ⟨?_, h.on⟩
    change { d.core with sndNxt := d.iss } = _
    rw [h.core_eq, hiss]
    rfl
  obtain ⟨hneg, hpos⟩ : ControlOutcome avoid sg { c with sndNxt := c.iss } _ :=
    hrewound.sendsHandshake env synAckFlag (Or.inr rfl) (Or.inr ⟨hstate, rfl⟩)
  have hback : Effects avoid sg c.core ({ c with sndNxt := c.iss } : Conn).core :=
    .single (.rewindSynAck hstate)
  exact ⟨fun h => hback.trans (hneg h), fun h => hback.trans (hpos h)⟩

theorem Unlinked.waits (h : Unlinked c d) : ControlOutcome avoid sg c (d, -1) := by
  refine ⟨fun _ => ?_, fun hpos => absurd hpos (by simp)⟩
  rw [h.back]

theorem Unlinked.sendsReset (h : Unlinked c d) (env : Env) (hstate : c.state = .closed) :
    ControlOutcome avoid sg c
      (let r := sendTCPPacket env rstFlag [] d
        if 0 ≤ r.2 then (destroyTCPStream env.cfg r.1, r.2) else r) := by
  have hflags : rstFlag.ctlLen = 0 := rfl
  have hfin : rstFlag.sendsFin = false := rfl
  have hdfin : d.isFinSent = c.isFinSent := congrArg (·.isFinSent) h.core_eq
  have hnxt : d.sndNxt = c.sndNxt := congrArg (·.sndNxt) h.core_eq
  simp only
  rcases core_sendTCPPacket env rstFlag [] d with ⟨hneg, hcore⟩ | ⟨hret, hcore⟩
  · rw [if_neg (by omega)]
    refine ⟨fun _ => ?_, fun hpos => absurd hpos (by omega)⟩
    rw [hcore, h.back]
  · rw [if_pos (by omega)]
    refine ⟨fun hneg => absurd hneg (by simp only; omega), fun _ => ?_⟩
    simp only
    rw [core_destroyTCPStream, hcore, h.core_eq]
    have hreset : Effect avoid sg c.core _ := .sendReset (p := c.core)
      (t := txSegment rstFlag [] d) hstate h.on rfl rfl rfl
    refine .single ?_
    simpa [Endpoint.act, Endpoint.destroy, hflags, hfin, hdfin, hnxt] using hreset

theorem sendControlPacket_effects (env : Env) (h : Unlinked c d)
    (hqueue : avoid .finBehindQueue → (c.state = .finWait1 ∨ c.state = .lastAck) →
      c.onSendList = false → c.onAckList = false → c.onSendq = false) :
    ControlOutcome avoid sg c (sendControlPacket env d) := by
  have hst : d.state = c.state := congrArg (·.state) h.core_eq
  have hsend : d.onSendList = c.onSendList := congrArg (·.onSendList) h.core_eq
  have hack : d.onAckList = c.onAckList := congrArg (·.onAckList) h.core_eq
  have hfin : d.isFinSent = c.isFinSent := congrArg (·.isFinSent) h.core_eq
  have hnxt : d.sndNxt = c.sndNxt := congrArg (·.sndNxt) h.core_eq
  have hfss : d.fss = c.fss := congrArg (·.fss) h.core_eq
  have hclose : (c.state = .finWait1 ∨ c.state = .lastAck) → ControlOutcome avoid sg c
      (if d.onSendList || d.onAckList then (d, -1) else sendTCPPacket env finAckFlag [] d) := by
    intro hs
    rw [hsend, hack]
    split
    case isTrue => exact h.waits
    case isFalse hlists =>
      simp only [Bool.or_eq_true, not_or, Bool.not_eq_true] at hlists
      exact h.sendsFin env (Or.inl ⟨hs, hlists.1, hlists.2, fun ha => hqueue ha hs hlists.1 hlists.2⟩)
  unfold sendControlPacket
  split <;> rename_i hs <;> rw [hst] at hs
  case h_1 => exact h.sendsHandshake env synFlag (Or.inl rfl) (Or.inl hs)
  case h_2 => exact h.sendsSynAck env hs
  case h_3 => exact h.sendsAck env (by simp [hs])
  case h_4 => exact h.sendsAck env (by simp [hs])
  case h_5 => exact h.sendsAck env (by simp [hs])
  case h_6 => exact h.sendsAck env (by simp [hs])
  case h_7 => exact hclose (Or.inr hs)
  case h_8 => exact hclose (Or.inl hs)
  case h_9 =>
    rw [hfin, hnxt, hfss]
    split_ifs with hsent heq
    · exact h.sendsFin env (Or.inr ⟨hs, fun _ => heq⟩)
    · exact h.sendsAck env (by simp [hs, hsent, heq])
    · exact h.sendsFin env (Or.inr ⟨hs, fun ht => absurd ht hsent⟩)
  case h_10 =>
    rw [hsend, hack]
    split
    case isTrue => exact h.waits
    case isFalse => exact h.sendsReset env hs
  case h_11 =>
    refine ⟨fun hneg => absurd hneg (by simp), fun _ => ?_⟩
    rw [h.core_eq]
    exact .single (.leaveControl (Or.inl hs))

theorem controlListStep_effects (env : Env) (hon : c.onControlList = true)
    (hqueue : avoid .finBehindQueue → (c.state = .finWait1 ∨ c.state = .lastAck) →
      c.onSendList = false → c.onAckList = false → c.onSendq = false) :
    Effects avoid sg c.core (controlListStep env c).1.core := by
  have hunlinked : Unlinked c
      { c with
        controlList := c.controlList.erase c.sid
        controlListCnt := c.controlListCnt - 1
        onControlList := false } := ⟨rfl, hon⟩
  obtain ⟨hneg, hpos⟩ : ControlOutcome avoid sg c _ :=
    sendControlPacket_effects env hunlinked hqueue
  unfold controlListStep
  simp only [hon, if_true]
  generalize sendControlPacket env _ = r at hneg hpos ⊢
  split_ifs with hbusy hwait
  · exact hneg (by omega)
  · exact hneg hwait
  · exact hpos (by omega)

/-! ## The data pass -/

/-- The buffer has been sent to its end, unless an assertion failed. -/
def Endpoint.flushed (p : Endpoint) : Prop :=
  p.faulted ∨ ∀ b, p.sndbuf = some b → b.len = 0 ∨ (p.sndNxt - b.headSeq).toNat = b.len

theorem flushTCPSendingBuffer_effects (env : Env) (hstate : c.state.flushes)
    (hon : c.onSendList = true) :
    Effects avoid sg c.core (flushTCPSendingBuffer env c).1.core ∧
      (0 ≤ (flushTCPSendingBuffer env c).2 →
        c.core.Sends (flushTCPSendingBuffer env c).1.core ∧
          (flushTCPSendingBuffer env c).1.core.flushed) := by
  unfold flushTCPSendingBuffer
  cases hbuf : c.sndbuf with
  | none =>
      have hcore : (c.fault .noSendBuffer).core = c.core := core_fault_skipped c rfl
      simp only
      rw [hcore]
      exact ⟨.refl, fun _ => ⟨rfl, Or.inr fun b hb => by simp [hbuf] at hb⟩⟩
  | some b =>
      simp only
      split
      case isTrue hzero =>
        refine ⟨.refl, fun _ => ⟨rfl, Or.inr fun b' hb => ?_⟩⟩
        obtain rfl : b = b' := by simpa [hbuf] using hb
        exact Or.inl hzero
      case isFalse =>
        obtain ⟨heff, hend⟩ : Effects avoid sg c.core _ ∧ _ :=
          flushLoop_effects env b (c.tx.length + 1) 0 hstate hon hbuf (by omega)
        refine ⟨heff, fun hpos => ?_⟩
        obtain ⟨hsends, hdone⟩ := hend hpos
        refine ⟨hsends, hdone.imp_right fun hlen b' hb => Or.inr ?_⟩
        have hkeep : (flushLoop env b (c.tx.length + 1) 0 c).1.core.sndbuf = c.sndbuf :=
          congrArg (·.sndbuf) hsends
        rw [hkeep, hbuf] at hb
        obtain rfl : b = b' := Option.some.inj hb
        exact hlen

theorem sendListed_effects (env : Env) (hon : c.onSendList = true) :
    Effects avoid sg c.core (sendListed env c).1.core ∧
      (0 ≤ (sendListed env c).2 → c.core.Sends (sendListed env c).1.core ∧
        (c.state.flushes → (sendListed env c).1.core.flushed)) := by
  have hflush : c.state.flushes → Effects avoid sg c.core (flushTCPSendingBuffer env c).1.core ∧
      (0 ≤ (flushTCPSendingBuffer env c).2 → c.core.Sends (flushTCPSendingBuffer env c).1.core ∧
        (c.state.flushes → (flushTCPSendingBuffer env c).1.core.flushed)) := by
    intro hs
    obtain ⟨heff, hend⟩ : Effects avoid sg c.core _ ∧ _ := flushTCPSendingBuffer_effects env hs hon
    exact ⟨heff, fun hpos => ⟨(hend hpos).1, fun _ => (hend hpos).2⟩⟩
  unfold sendListed
  split
  case h_1 hs =>
    split
    case isTrue => exact ⟨.refl, fun hpos => absurd hpos (by simp)⟩
    case isFalse => exact hflush (Or.inl hs)
  case h_2 hs => exact hflush (Or.inr (Or.inl hs))
  case h_3 hs => exact hflush (Or.inr (Or.inr (Or.inl hs)))
  case h_4 hs => exact hflush (Or.inr (Or.inr (Or.inr hs)))
  case h_5 => exact ⟨.refl, fun _ => ⟨rfl, by unfold TcpState.flushes; tauto⟩⟩

theorem core_releaseControl (c : Conn) : (releaseControl c).core = c.core.release := by
  unfold releaseControl
  rw [core_addtoControlList]
  rfl

theorem dataListStep_effects (env : Env) (hon : c.onSendList = true) :
    Effects avoid sg c.core (dataListStep env c).1.core := by
  obtain ⟨heff, hend⟩ : Effects avoid sg c.core _ ∧ _ :=
    sendListed_effects env (c := { c with sendList := c.sendList.erase c.sid }) hon
  unfold dataListStep
  simp only [hon, if_true]
  generalize sendListed env { c with sendList := c.sendList.erase c.sid } = r at heff hend ⊢
  split
  case isTrue => exact heff
  case isFalse hpos =>
    obtain ⟨hsends, hflushed⟩ := hend (not_lt.mp hpos)
    have hlisted : r.1.onSendList = c.onSendList := congrArg (·.onSendList) hsends
    have hstate : r.1.state = c.state := congrArg (·.state) hsends
    have hleft : ∀ d : Conn, d.core = { r.1.core with onSendList := false } →
        (if d.controlListWaiting && !d.onAckList then (releaseControl d, false)
          else (d, false)).1.core = r.1.core.leaveSend := by
      intro d hd
      have hw : d.controlListWaiting = r.1.core.waiting := congrArg (·.waiting) hd
      have ha : d.onAckList = r.1.core.onAckList := congrArg (·.onAckList) hd
      unfold Endpoint.leaveSend
      simp only [hw, ha]
      split
      · rw [core_releaseControl, hd]
      · exact hd
    have hcore := hleft
      { r.1 with
        onSendList := false
        sendListCnt := r.1.sendListCnt - 1
        ackCnt := piggyback r.1.ackCnt r.2 } rfl
    generalize (if _ && _ then _ else _ : Conn × Bool) = res at hcore ⊢
    rw [hcore]
    exact heff.tail (.dataDone (hlisted.trans hon) fun hs => hflushed (hstate ▸ hs))

/-! ## The ACK pass -/

/-- Only the trace has changed. -/
def Endpoint.Marks (p q : Endpoint) : Prop := q = { p with trace := q.trace }

theorem Endpoint.Marks.trans {p q r : Endpoint} (h : p.Marks q) (h' : q.Marks r) : p.Marks r := by
  unfold Endpoint.Marks at h h' ⊢
  rw [h'] at *
  rw [h]

/-- A segment without data, SYN or FIN leaves only a mark in the trace. -/
theorem sendTCPPacket_ack (env : Env) (flags : TcpFlags) (c : Conn) (hsyn : flags.syn = false)
    (hfin : flags.fin = false) :
    Effects avoid sg c.core (sendTCPPacket env flags [] c).1.core ∧
      c.core.Marks (sendTCPPacket env flags [] c).1.core := by
  have hsends : flags.sendsFin = false := by simp [TcpFlags.sendsFin, hfin]
  have hctl : flags.ctlLen = 0 := by simp [TcpFlags.ctlLen, hsyn, hsends]
  rcases core_sendTCPPacket env flags [] c with ⟨-, hcore⟩ | ⟨-, hcore⟩
  · rw [hcore]
    exact ⟨.refl, rfl⟩
  · have hact : (sendTCPPacket env flags [] c).1.core = c.core.act (.sent (txSegment flags [] c)) := by
      rw [hcore]
      simp [hctl, hsends, Endpoint.act, Conn.core]
    rw [hact]
    exact ⟨.single (.sendAck rfl hsyn hsends), rfl⟩

theorem sendAcks_effects (env : Env) (fuel : ℕ) (c : Conn) :
    Effects avoid sg c.core (sendAcks env fuel c).core ∧
      c.core.Marks (sendAcks env fuel c).core := by
  induction fuel generalizing c with
  | zero => exact ⟨.refl, rfl⟩
  | succ fuel ih =>
      simp only [sendAcks]
      split
      case isTrue =>
        obtain ⟨heff, hsends⟩ : Effects avoid sg c.core _ ∧ _ :=
          sendTCPPacket_ack env ackFlag c rfl rfl
        split
        case isTrue => exact ⟨heff, hsends⟩
        case isFalse =>
          obtain ⟨heff', hsends'⟩ := ih
            { (sendTCPPacket env ackFlag [] c).1 with
              ackCnt := (sendTCPPacket env ackFlag [] c).1.ackCnt - 1 }
          exact ⟨heff.trans heff', hsends.trans hsends'⟩
      case isFalse => exact ⟨.refl, rfl⟩

theorem sendWack_effects (env : Env) (c : Conn) :
    Effects avoid sg c.core (sendWack env c).core ∧ c.core.Marks (sendWack env c).core := by
  unfold sendWack
  split
  case isTrue =>
    have hack : Effects avoid sg c.core _ ∧ _ :=
      sendTCPPacket_ack env wackFlag { c with isWack := false } rfl rfl
    simp only
    split
    · exact hack
    · exact hack
  case isFalse => exact ⟨.refl, rfl⟩

theorem ackListStep_effects (env : Env) (hon : c.onAckList = true)
    (hfin : avoid .finRequeued → c.controlListWaiting = true → c.onSendList = false →
      c.onControlList = false → ¬ finOut c.state c.sndNxt c.fss) :
    Effects avoid sg c.core (ackListStep env c).1.core := by
  -- the acknowledgements leave the stream on the list or take it off
  have hacks : ∃ d stays, Effects avoid sg c.core d ∧ c.core.Marks d ∧
      (if toAck c then
        if (sendWack env (sendAcks env c.ackCnt.toNat c)).ackCnt = 0 ∧
            (sendWack env (sendAcks env c.ackCnt.toNat c)).isWack = false then
          removeFromACKList (sendWack env (sendAcks env c.ackCnt.toNat c))
        else sendWack env (sendAcks env c.ackCnt.toNat c)
      else removeFromACKList { c with ackCnt := 0, isWack := false }).core =
        { d with onAckList := stays } := by
    split
    case isTrue =>
      obtain ⟨heff, hsends⟩ : Effects avoid sg c.core _ ∧ _ :=
        sendAcks_effects env c.ackCnt.toNat c
      obtain ⟨heff', hsends'⟩ : Effects avoid sg _ _ ∧ _ :=
        sendWack_effects env (sendAcks env c.ackCnt.toNat c)
      have hall := hsends.trans hsends'
      split
      case isTrue => exact ⟨_, false, heff.trans heff', hall, core_removeFromACKList _⟩
      case isFalse => exact ⟨_, _, heff.trans heff', hall, rfl⟩
    case isFalse => exact ⟨_, false, .refl, rfl, core_removeFromACKList _⟩
  obtain ⟨p, stays, heff, hsends, hcore⟩ := hacks
  unfold ackListStep
  simp only [hon, if_true]
  generalize (if toAck c then _ else _ : Conn) = d at hcore ⊢
  have hw : d.controlListWaiting = p.waiting := congrArg (·.waiting) hcore
  have hs : d.onSendList = p.onSendList := congrArg (·.onSendList) hcore
  have hleft : (if d.controlListWaiting && !d.onSendList then (releaseControl d, false)
      else (d, false)).1.core = p.leaveAck stays := by
    unfold Endpoint.leaveAck
    simp only [hw, hs]
    split
    · rw [core_releaseControl, hcore]
    · exact hcore
  generalize (if _ && _ then _ else _ : Conn × Bool) = res at hleft ⊢
  rw [hleft]
  refine heff.tail (.ackDone (fun _ => (congrArg (·.onAckList) hsends).trans hon) ?_)
  rw [hsends]
  exact hfin

end MtcpStack
