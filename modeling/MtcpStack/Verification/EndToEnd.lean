import MtcpStack.Verification.Delivered
import MtcpStack.Verification.SendSequence

/-! # Two streams and the network between them

One end calls, the other answers. The network may lose, delay, repeat and reorder segments, and it
may make up any segment without payload: acknowledgements, windows, FINs and resets. What the
application of one end reads is still the beginning of what the application of the other has
written. -/

namespace MtcpStack

open Serial Slice

inductive Side where
  | client | server
  deriving DecidableEq

def Side.other : Side → Side
  | client => server
  | server => client

theorem Side.other_ne (s : Side) : s.other ≠ s := by cases s <;> simp [other]

theorem Side.eq_other {r s : Side} (h : r ≠ s) : s = r.other := by
  cases r <;> cases s <;> simp_all [other]

/-- Both ends, as they were when they were last alive. -/
structure Link where
  conn : Side → Conn
  gone : Side → Bool

namespace Link

/-- What the application of the side has written. -/
def bytes (l : Link) (s : Side) : List U8 := writtenBytes (l.conn s).log

def read (l : Link) (s : Side) : List U8 := deliveredBytes (l.conn s).log

/-- How far the payload of a segment that the other side sent behind `before` is from the first byte
that the side misses. -/
noncomputable def ahead (l : Link) (s : Side) (before : List Act) (t : TxSegment) : ℤ :=
  placeNear ((l.conn s.other).iss + 1) (writtenBytes before).length t.seq -
    frontier (received (l.conn s))

/-- The segments that may reach the side. Payload has been sent by the other side, and comes before
either end is `2 ^ 31` bytes further. In SYN_SENT only the answer to the SYN comes. -/
structure Carried (l : Link) (s : Side) (seg : Segment) : Prop where
  payload : seg.payload ≠ [] → ∃ before t, before ++ [.sent t] <+: (l.conn s.other).log ∧
    seg.seq = t.seq ∧ seg.payload = t.payload ∧ -2 ^ 31 ≤ l.ahead s before t ∧
    l.ahead s before t < 2 ^ 31
  answer : (l.conn s).state = .synSent → seg.syn = true ∧ seg.ack = true ∧ seg.payload = [] ∧
    seg.seq = (l.conn s.other).iss

/-- Any event may happen to an end, as long as the sequence numbers tell the places in a buffer
apart. -/
structure Allowed (l : Link) (s : Side) (e : Event) : Prop where
  stays : l.gone s = false
  enabled : e.enabled (l.conn s) = true
  sndbuf : ∀ env buf chunk, e = .write env buf → env.sndChunk = some chunk →
    chunk.length + 1 < 2 ^ 31
  rcvbuf : ∀ env seg chunk, e = .packet env seg → env.rcvChunk = some chunk → chunk.length < 2 ^ 30
  carried : ∀ env seg, e = .packet env seg → l.Carried s seg

def act (l : Link) (s : Side) (e : Event) : Link :=
  if (e.apply (l.conn s)).onHashTable then
    { l with conn := Function.update l.conn s (e.apply (l.conn s)) }
  else { l with gone := Function.update l.gone s true }

def opened (c d : Conn) : Link where
  conn s := if s = .client then c else d
  gone _ := false

end Link

/-- The states of a link in all runs. A SYN of the calling end has made the answering end. -/
inductive LinkReached : Link → Prop
  | opened {c d : Conn} (hc : Born c) (hd : Born d) (hcalls : c.state = .synSent)
      (hanswers : d.state = .synRcvd) (hsyn : d.irs = c.iss) : LinkReached (.opened c d)
  | act {l : Link} (hreached : LinkReached l) {s : Side} {e : Event} (hallowed : l.Allowed s e) :
      LinkReached (l.act s e)

/-! ## One end -/

/-- What the rules for the network and the buffers exclude. -/
def Hazard.onLink (z : Hazard) : Prop := z = .pureAck ∨ z = .simultaneousOpen ∨ z = .bigBuffer

theorem Link.Allowed.safe {l : Link} {s : Side} {e : Event} (h : l.Allowed s e) {z : Hazard}
    (hz : z.onLink) : ¬ z.hits (l.conn s) e := by
  rcases hz with rfl | rfl | rfl
  · rintro ⟨env, seg, he, hs, hsyn, -⟩
    simp [((h.carried env seg he).answer hs).1] at hsyn
  · rintro ⟨env, seg, he, hs, -, hack, -⟩
    simp [((h.carried env seg he).answer hs).2.1] at hack
  · rintro ⟨env, buf, chunk, he, hchunk, hbig⟩
    exact absurd (h.sndbuf env buf chunk he hchunk) (by omega)

/-- A live end and what it knows of the other, whose initial sequence number is `peer`. -/
structure Party (peer : U32) (p : Endpoint) : Prop where
  live : p.live = true
  aligned : Aligned p
  opening : Opening True (· = peer) p
  matched : p.state.receives → p.irs = peer
  sender : Sender Hazard.onLink p

variable {sg : Option Segment} {p q : Endpoint} {peer : U32}

/-- The initial sequence number of the other end is known in SYN_RCVD, and from then on. -/
theorem Party.irs_eq (h : Party peer p) (htakes : p.state.takes) (hs : p.state ≠ .synSent) :
    p.irs = peer := by
  rcases htakes with hr | hopens
  · exact h.matched hr
  · have hlisten := h.aligned.listen h.live
    refine (h.opening.synRcvd h.live ?_).1
    revert hs hopens hlisten
    cases p.state <;> simp [TcpState.opens]

theorem Party.effect (h : Party peer p) (heff : Effect Hazard.onLink sg p q) (hlive : q.live = true)
    (hanswer : p.state = .synSent → ∀ seg ∈ sg, seg.seq = peer) : Party peer q where
  live := hlive
  aligned := h.aligned.effect heff
  opening := h.opening.effect (.inl rfl) (.inl (.inr (.inl rfl))) heff
  sender := h.sender.effect heff hlive
  matched hr := by
    by_cases hs : p.state = .synSent
    · obtain ⟨seg, hsg, hirs⟩ := heff.answered hlive hs hr
      rw [hirs, hanswer hs seg hsg]
    · have htakes := TcpState.takes_of_moves (heff.moves hlive).2 (.inl hr)
      rw [← h.irs_eq htakes hs]
      cases heff.receiveStep with
      | payload hp hq _ hmem =>
        subst hp hq
        exact congrArg (·.irs) (processTCPPayload_takes _ _ hmem).frame
      | read _ hp hq =>
        subst hp hq
        exact congrArg (·.irs) (copyToUser_takes ..).frame
      | dead hdead => cases hdead.symm.trans hlive
      | kept hside | fin _ _ hside | listened _ hside => exact congrArg (·.2.1) hside
      | opened hstate => exact (hstate.resolve_left hs).2

theorem Party.effects (h : Party peer p) (heff : Effects Hazard.onLink sg p q)
    (hlive : q.live = true) (hanswer : p.state = .synSent → ∀ seg ∈ sg, seg.seq = peer) :
    Party peer q := by
  refine (Effects.preserves (P := fun r => r.live = true → Party peer r ∧ (r.state = .synSent →
    ∀ seg ∈ sg, seg.seq = peer)) (fun heff hr hl => ?_) heff (fun _ => ⟨h, hanswer⟩) hlive).1
  obtain ⟨hlive, hmoves⟩ := heff.moves hl
  obtain ⟨hparty, hanswer⟩ := hr hlive
  refine ⟨hparty.effect heff hl hanswer, fun hs => hanswer ?_⟩
  revert hmoves
  rw [hs]
  cases Endpoint.state _ <;> simp [TcpState.moves]

theorem Born.party {c : Conn} (hborn : Born c) (hsyn : c.state = .synRcvd → c.irs = peer) :
    Party peer c.core :=
  ⟨hborn.fresh.live, hborn.aligned, hborn.opening hsyn,
    fun hr => (by cases hborn.fresh.opens.symm.trans hr.not_opens), hborn.sender⟩

/-! ## Payload that the network carries -/

/-- The stream `S` begins with the bytes `W`. -/
def Extends (S : ℕ → U8) (W : List U8) : Prop := ∀ i x, W[i]? = some x → S i = x

theorem Extends.of_prefix {S : ℕ → U8} {W W' : List U8} (h : Extends S W') (hpre : W <+: W') :
    Extends S W := by
  obtain ⟨rest, rfl⟩ := hpre
  intro i x hx
  have hi : i < W.length := (List.getElem?_eq_some_iff.mp hx).1
  exact h i x (by rw [List.getElem?_append_left hi, hx])

theorem placeNear_seqAt {base : U32} {cur m : ℕ} (hlo : cur ≤ m + 2 ^ 31) (hhi : m < cur + 2 ^ 31) :
    placeNear base cur (seqAt base m) = m := by
  rw [placeNear, toInt_seqAt_sub_seqAt (by decide) (by omega) (by omega)]
  omega

theorem Carries.agrees {S : ℕ → U8} {iss : U32} {before : List Act} {t : TxSegment} {m r : ℕ}
    (h : Carries iss before t m) (hS : Extends S (writtenBytes before)) (hlo : r ≤ m + 2 ^ 31)
    (hhi : m < r + 2 ^ 31) : Agrees S (iss + 1) r t.seq t.payload := by
  intro j hj n hn
  rw [h.1, placeNear_seqAt hlo hhi] at hn
  obtain rfl : n = m + j := by omega
  have hx : t.payload[j]? = some (t.payload.get ⟨j, hj⟩) := List.getElem?_eq_getElem hj
  rw [hx, hS _ _ (h.getElem? hx).2]

/-- Payload that is sent has been written, less than `2 ^ 31` bytes from the end. -/
theorem Sender.carries {c : Conn} (h : Sender Hazard.onLink c.core) {before : List Act}
    {t : TxSegment} (hpre : before ++ [.sent t] <+: c.log) (hpay : t.payload ≠ []) :
    ∃ m, Carries c.iss before t m ∧ (writtenBytes before).length < m + 2 ^ 31 := by
  obtain ⟨⟨m, hm, hbig⟩, -⟩ := h.sent _ t (outgoing_mono hpre) hpay
  have hwritten : writtenBytes (outgoing (before.filter Act.kept)) = writtenBytes before := by
    rw [writtenBytes_outgoing, writtenBytes_filter fun _ => rfl]
  rw [Carries, hwritten] at hm
  exact ⟨m, hm, hwritten ▸ hbig (.inr (.inr rfl))⟩

/-! ## The invariant -/

structure Link.Ok (l : Link) : Prop where
  party : ∀ s, Party (l.conn s.other).iss (l.conn s).core
  inflow : ∀ s S, Extends S (l.bytes s.other) → Inflow S (l.conn s).core

section

variable {l : Link} (h : l.Ok) {s : Side} {e : Event} (hallowed : l.Allowed s e)

include h hallowed

/-- Payload that arrives belongs to the stream of the other end. -/
theorem Link.Ok.genuine {S : ℕ → U8} (hS : Extends S (l.bytes s.other)) {env : Env} {seg : Segment}
    (he : e = .packet env seg) (hpay : seg.payload ≠ []) (htakes : (l.conn s).state.takes) :
    Genuine S env seg (l.conn s) := by
  have hcarried := hallowed.carried env seg he
  have hirs : (l.conn s).irs = (l.conn s.other).iss :=
    (h.party s).irs_eq htakes fun hs => hpay (hcarried.answer hs).2.2.1
  obtain ⟨before, t, hpre, hseq, hbytes, hlo, hhi⟩ := hcarried.payload hpay
  obtain ⟨m, hm, hnear⟩ := (h.party s.other).sender.carries hpre (hbytes ▸ hpay)
  have hfits : m + t.payload.length ≤ (writtenBytes before).length := (slice_eq_some.mp hm.2).1
  rw [ahead, hm.1, placeNear_seqAt (by omega) (by omega)] at hlo hhi
  refine ⟨by rw [hbytes]; omega, fun chunk => hallowed.rcvbuf env seg chunk he, ?_⟩
  rw [hirs, hseq, hbytes]
  refine hm.agrees (hS.of_prefix ?_) (by omega) (by omega)
  obtain ⟨rest, hrest⟩ := hpre
  rw [bytes, ← hrest, List.append_assoc, writtenBytes_append]
  exact List.prefix_append ..

variable (hlive : (e.apply (l.conn s)).onHashTable = true)

include hlive

theorem Link.Ok.party_apply : Party (l.conn s.other).iss (e.apply (l.conn s)).core := by
  refine (h.party s).effects (Event.apply_effects hallowed.enabled fun z => hallowed.safe) hlive ?_
  intro hs seg hsg
  cases e with
  | packet env seg' =>
    obtain rfl : seg' = seg := Option.some.inj hsg
    exact ((hallowed.carried env seg' rfl).answer hs).2.2.2
  | _ => cases hsg

theorem Link.Ok.inflow_apply {S : ℕ → U8} (hS : Extends S (l.bytes s.other)) :
    Inflow S (e.apply (l.conn s)).core := by
  -- payload that is not taken need not belong to the stream
  have hsafe : ∀ z : Hazard, z.onLink ∨ z = .foreign S ∧ (l.conn s).state.takes →
      ¬ z.hits (l.conn s) e := by
    rintro z (hz | ⟨rfl, htakes⟩)
    · exact hallowed.safe hz
    · rintro ⟨env, seg, he, hpos, hforeign⟩
      exact hforeign (h.genuine hallowed hS he (List.ne_nil_of_length_pos hpos) htakes)
  exact (h.inflow s S hS).effects (h.party s).aligned (fun ht => .inr ⟨rfl, ht⟩)
    (Event.apply_effects hallowed.enabled hsafe) hlive

omit hlive in
theorem Link.Ok.act : (l.act s e).Ok := by
  rw [Link.act]
  split
  case isFalse => exact ⟨h.party, h.inflow⟩
  case isTrue hlive =>
    have hparty := h.party_apply hallowed hlive
    have heff := Event.apply_effects hallowed.enabled fun z => hallowed.safe
    obtain ⟨hiss, hgrows⟩ := heff.written hlive
    refine ⟨fun r => ?_, fun r S hS => ?_⟩ <;> rcases eq_or_ne r s with rfl | hne
    · simpa [r.other_ne] using hparty
    · obtain rfl := Side.eq_other hne
      have hpeer : (e.apply (l.conn r.other)).iss = (l.conn r.other).iss := hiss
      simpa [hne, hpeer] using h.party r
    · simp only [Link.bytes, Function.update_of_ne r.other_ne] at hS
      simpa using h.inflow_apply hallowed hlive hS
    · obtain rfl := Side.eq_other hne
      simp only [Link.bytes, Function.update_self] at hS
      have hlog : ∀ c : Conn, writtenBytes c.core.trace = writtenBytes c.log := fun c =>
        writtenBytes_filter (fun _ => rfl) c.log
      rw [hlog, hlog] at hgrows
      simpa [hne] using h.inflow r S (hS.of_prefix hgrows)

end

theorem LinkReached.ok {l : Link} (h : LinkReached l) : l.Ok := by
  induction h with
  | act _ hallowed ih => exact ih.act hallowed
  | opened hc hd hcalls hanswers hsyn =>
    refine ⟨fun s => ?_, fun s S _ => ?_⟩ <;> cases s
    · exact hc.party fun hs => by simp [hcalls] at hs
    · exact hd.party fun _ => hsyn
    · exact hc.fresh.inflow
    · exact hd.fresh.inflow

/-- In every state of every run, what the application of one end has read is the beginning of what
the application of the other has written, and no copy has left a receive buffer. -/
theorem bytes_in_order {l : Link} (h : LinkReached l) (s : Side) :
    l.read s <+: l.bytes s.other ∧ Act.fault .ringBuffer ∉ (l.conn s).log := by
  have hflow : ∀ x : U8, ∃ v, RcvInv (fun i => (l.bytes s.other).getD i x)
      { l.conn s with rcvNxt := v } := by
    intro x
    obtain ⟨v, hinv, -⟩ := h.ok.inflow s (fun i => (l.bytes s.other).getD i x) fun i y hy => by
      simp [List.getD_eq_getElem?_getD, hy]
    exact ⟨v, (rcvInv_core _).1 hinv⟩
  have hread : ∀ (x y : U8) (i : ℕ), (l.read s)[i]? = some y → y = (l.bytes s.other).getD i x := by
    intro x y i hy
    obtain ⟨v, hinv⟩ := hflow x
    obtain ⟨n, hn⟩ := hinv.delivered_prefix
    change l.read s = _ at hn
    rw [hn, streamPrefix, List.getElem?_map, Option.map_eq_some_iff] at hy
    obtain ⟨j, hj, rfl⟩ := hy
    obtain ⟨-, rfl⟩ := List.getElem?_eq_some_iff.mp hj
    rw [List.getElem_range]
  refine ⟨List.prefix_iff_getElem?.2 fun i hi => ?_, (hflow 0).choose_spec.inside⟩
  have hy := List.getElem?_eq_getElem hi
  -- a byte beyond the end of what was written would be every byte
  have hzero := hread 0 _ i hy
  have hone := hread 1 _ i hy
  rw [List.getD_eq_getElem?_getD] at hzero hone
  cases hw : (l.bytes s.other)[i]? with
  | some w => rw [hzero, hw]; rfl
  | none => rw [hw] at hzero hone; cases hzero.symm.trans hone

/-- An event with small buffers and without payload. -/
def Link.plain (l : Link) (s : Side) (e : Event) : Bool :=
  !l.gone s && e.enabled (l.conn s) &&
    match e with
    | .packet env seg => env.rcvChunk = quietEnv.rcvChunk && seg.payload = [] &&
        ((l.conn s).state ≠ .synSent || seg.syn && seg.ack && seg.seq = (l.conn s.other).iss)
    | .write env _ => env.sndChunk = quietEnv.sndChunk
    | _ => true

def Link.run (l : Link) : List (Side × Event) → Link × Bool
  | [] => (l, true)
  | (s, e) :: es => (((l.act s e).run es).1, l.plain s e && ((l.act s e).run es).2)

theorem LinkReached.run {l : Link} (h : LinkReached l) {es : List (Side × Event)}
    (hplain : (l.run es).2 = true) : LinkReached (l.run es).1 := by
  induction es generalizing l with
  | nil => exact h
  | cons x es ih =>
    obtain ⟨s, e⟩ := x
    simp only [Link.run, Link.plain, Bool.and_eq_true, Bool.not_eq_true'] at hplain
    obtain ⟨⟨⟨hstays, henabled⟩, hsmall⟩, hrest⟩ := hplain
    refine ih (h.act ⟨hstays, henabled, ?_, ?_, ?_⟩) hrest
    · rintro env buf chunk rfl hchunk
      simp_all [quietEnv]
    · rintro env seg chunk rfl hchunk
      simp_all [quietEnv]
    · rintro env seg rfl
      simp only [Bool.and_eq_true, Bool.or_eq_true, decide_eq_true_eq] at hsmall
      exact ⟨fun hpay => absurd hsmall.1.2 hpay, fun hs => by simp_all⟩

/-- The caller has sent three bytes. -/
def threeSent : Link × Bool :=
  (Link.opened connectingConn (handlePassiveOpen quietEnv 500 1 Shared.init
    { plainSegment with syn := true, seq := 100 })).run
    (((activeOpen quietEnv ++
          [Event.write quietEnv [1, 2, 3], .sendq, .dataPass quietEnv [true]]).map
        fun e => (Side.client, e)) ++
      [(.server, .packet quietEnv { plainSegment with seq := 101, ackSeq := 501, ack := true }),
        (.server, .accept (some quietSocket))])

def threeRead : Link × Bool :=
  (threeSent.1.act .server (.packet quietEnv
    { plainSegment with seq := 101, ackSeq := 501, ack := true, payload := [1, 2, 3] })).run
    [(.server, .read 10)]

theorem bytes_in_order_three_bytes :
    threeRead.1.read .server = [1, 2, 3] ∧
      threeRead.1.read .server <+: threeRead.1.bytes .client := by
  have hsent : LinkReached threeSent.1 :=
    (LinkReached.opened (.active ..) (.passive _ _ _ _ _ rfl rfl) (by decide) (by decide +kernel)
      (by decide +kernel)).run (by decide +kernel)
  obtain ⟨t, ht, hpay, hseq⟩ : ∃ t, (threeSent.1.conn .client).log.getLast? = some (.sent t) ∧
      t.payload = [1, 2, 3] ∧ t.seq = 101 := ⟨_, rfl, by decide +kernel, by decide +kernel⟩
  have hahead : threeSent.1.ahead .server (threeSent.1.conn .client).log.dropLast t = 0 := by
    have hnone : acceptedSegs (threeSent.1.conn .server).log = [] := by decide +kernel
    have hfirst : frontier (received (threeSent.1.conn .server)) = 0 :=
      frontier_eq (by simp) (by simp [received, hnone, receivedSet])
    rw [Link.ahead, hfirst, hseq]
    decide +kernel
  have hpre : (threeSent.1.conn .client).log.dropLast ++ [.sent t] <+: _ :=
    ⟨[], (List.append_nil _).trans (List.dropLast_append_getLast? _ ht)⟩
  have hread : LinkReached threeRead.1 := by
    refine (hsent.act ⟨by decide +kernel, by decide +kernel, by simp, ?_, ?_⟩).run
      (by decide +kernel)
    · rintro env seg chunk ⟨⟩ ⟨⟩
      decide
    · rintro env seg ⟨⟩
      exact ⟨fun _ => ⟨_, t, hpre, hseq.symm, hpay.symm, by simp [hahead], by simp [hahead]⟩,
        fun hs => absurd hs (by decide +kernel)⟩
  exact ⟨by decide +kernel, (bytes_in_order hread .server).1⟩

end MtcpStack
