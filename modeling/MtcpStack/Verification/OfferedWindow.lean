import MtcpStack.Verification.Handshake
import MtcpStack.Verification.ReceiveSteps
import MtcpStack.Verification.Shape

/-! # The offered window

The right edge of the receive window along a run: before the first payload the initial window is
offered, then the free part of the receive buffer. -/

namespace MtcpStack

open Serial

variable {avoid : Hazard → Prop} {env : Env} {seg : Segment} {sg : Option Segment} {c : Conn}
  {p q : Endpoint} {b : RingBuffer}

/-! ## The right edge -/

/-- The first sequence number the peer may not use. -/
def Endpoint.rightEdge (p : Endpoint) : U32 := p.rcvNxt + p.rcvWnd

/-- The receiving side of a stream: before the first payload it offers the initial window, and
then the free part of the buffer. A FIN moves `rcv_nxt` once more, after the last payload. -/
structure Window (p : Endpoint) : Prop where
  dead : p.live = false → p.rcvbuf = none
  listen : p.live = true → p.state ≠ .listen
  opens : p.live = true → p.state.opens = true → p.rcvbuf = none ∧ p.rcvWnd = tcpInitialWindow ∧
    (p.rcvNxt = p.irs + 1 ∨ p.rcvNxt = p.irs)
  fresh : p.live = true → p.state.receives → p.rcvbuf = none →
    p.rcvNxt = p.irs + 1 ∧ p.rcvWnd = tcpInitialWindow
  buffered : ∀ b, p.rcvbuf = some b → tcpInitialWindow.toNat ≤ b.size ∧
    p.rcvWnd.toNat = b.size - b.mergedLen ∧ ∃ h, Shaped (p.irs + 1) h b ∧
      (p.state.receives → p.rcvNxt = seqAt (p.irs + 1) (h + b.mergedLen))

/-- The buffer a segment meets, fresh or not, ends at the right edge or behind it. -/
theorem Window.shaped (hwin : Window c.core) (hlive : c.onHashTable = true)
    (hstate : c.state.receives) (hroom : Roomy env seg)
    (hopen : openRcvbuf env c = some b) :
    ∃ h, Shaped (c.irs + 1) h b ∧ c.rcvNxt = seqAt (c.irs + 1) (h + b.mergedLen) ∧
      b.mergedLen + c.rcvWnd.toNat ≤ b.size ∧ tcpInitialWindow.toNat ≤ b.size ∧
      b.size < b.mergedLen + c.rcvWnd.toNat + 2 ^ 30 - 14599 := by
  unfold openRcvbuf at hopen
  split at hopen
  case h_1 b' hbuf =>
    obtain rfl : b' = b := by simpa using hopen
    obtain ⟨hsize, hwnd, h, hshape, hnxt⟩ := hwin.buffered b' hbuf
    have hmerged := hshape.mergedLen_le
    have hnxt' := hnxt hstate
    simp only [Conn.core_rcvWnd] at hwnd
    exact ⟨h, hshape, hnxt', by omega, hsize, by omega⟩
  case h_2 hbuf =>
    obtain ⟨chunk, hchunk, rfl⟩ := Option.map_eq_some_iff.mp hopen
    obtain ⟨hnxt, hwnd⟩ := hwin.fresh hlive hstate hbuf
    have hge := hroom.chunk_ge chunk hchunk
    have hlt := hroom.chunk_lt chunk hchunk
    simp only [Conn.core_rcvNxt, Conn.core_rcvWnd, Conn.core_irs] at hnxt hwnd
    have hinit : tcpInitialWindow.toNat = 14600 := rfl
    refine ⟨0, rbInit_shaped _ hlt, by simpa [rbInit] using hnxt, ?_, hge, ?_⟩ <;>
      simp only [rbInit, hwnd, hinit] at hge ⊢ <;> omega

/-- Storing the buffer puts the right edge at its end. -/
theorem storePayload_edge {h : ℕ} (hb : Shaped (c.irs + 1) h b) :
    (storePayload b c).core.rightEdge = seqAt (c.irs + 1) (h + b.size) := by
  have hmerged := hb.mergedLen_le
  change b.headSeq + BitVec.ofNat 32 b.mergedLen + BitVec.ofNat 32 (b.size - b.mergedLen) = _
  rw [hb.headSeq_eq, ← seqAt_add, ← seqAt_add]
  congr 1
  omega

/-- What becomes of the buffer when a segment is put that ends inside the window. -/
theorem putPayload_shaped {base : U32} {h : ℕ} (hb : Shaped base h b)
    (state : TcpState) {bytes : List U8} {seq wnd : U32} (hlen : bytes.length < 2 ^ 31)
    (hwnd : b.mergedLen + wnd.toNat ≤ b.size)
    (hlo : ¬ tcpSeqLt (seq + BitVec.ofNat 32 bytes.length) (seqAt base (h + b.mergedLen)))
    (hhi : ¬ tcpSeqGt (seq + BitVec.ofNat 32 bytes.length) (seqAt base (h + b.mergedLen) + wnd)) :
    ∃ b' ret h', putPayload state b bytes seq = some (b', ret) ∧ b'.size = b.size ∧
      Shaped base h' b' ∧ h ≤ h' ∧ h' ≤ h + b.size := by
  obtain ⟨b₁, ret, hput, -, hsize, hshape⟩ := hb.put hlen hwnd hlo hhi
  have hmerged := hshape.mergedLen_le
  unfold putPayload
  rw [hput, Option.bind_some]
  split
  · obtain ⟨b', hrem, hsize', -, hshape'⟩ := hshape.remove b₁.mergedLen
    refine ⟨b', ret, h + min b₁.mergedLen b₁.mergedLen, by rw [hrem]; rfl, hsize'.trans hsize,
      hshape', by omega, by omega⟩
  · exact ⟨b₁, ret, h, rfl, hsize, hshape, le_rfl, by omega⟩

/-- No more payload is taken; a FIN may have moved `rcv_nxt`. -/
theorem Window.ended (h : Window p) (hq : q = { q with
      live := p.live
      irs := p.irs
      rcvWnd := p.rcvWnd
      rcvbuf := p.rcvbuf })
    (hopens : q.state.opens = false) (hrecv : ¬ q.state.receives) : Window q := by
  generalize hs : q.state = s at hopens hrecv
  rw [hq]
  refine ⟨h.dead, fun hl hlisten => ?_, fun hl ho => ?_, fun hl hr => ?_, fun b hb => ?_⟩
  · rw [hs] at hlisten
    simp [hlisten, TcpState.opens] at hopens
  · rw [hs] at ho
    simp [hopens] at ho
  · rw [hs] at hr
    exact absurd hr hrecv
  · obtain ⟨hsize, hwnd, n, hshape, -⟩ := h.buffered b hb
    refine ⟨hsize, hwnd, n, hshape, fun hr => absurd ?_ hrecv⟩
    rwa [hs] at hr

theorem storePayload_window {h : ℕ} (hb : Shaped (c.irs + 1) h b)
    (hsize : tcpInitialWindow.toNat ≤ b.size) (hlive : c.onHashTable = true)
    (hstate : c.state.receives) : Window (storePayload b c).core := by
  have hopens := hstate.not_opens
  have hmerged := hb.mergedLen_le
  have hlt := hb.size_lt
  refine ⟨fun hd => ?_, fun _ hs => ?_, fun _ ho => ?_, fun _ _ hn => ?_, fun b' hb' => ?_⟩
  · exact absurd (hlive.symm.trans hd) (by simp)
  · rw [show c.state = .listen from hs] at hopens
    cases hopens
  · exact absurd (hopens.symm.trans ho) (by simp)
  · cases hn
  · obtain rfl : b = b' := Option.some.inj hb'
    refine ⟨hsize, ?_, h, hb, fun _ => ?_⟩
    · change (BitVec.ofNat 32 (b.size - b.mergedLen)).toNat = _
      rw [BitVec.toNat_ofNat, Nat.mod_eq_of_lt (by omega)]
    · change b.headSeq + BitVec.ofNat 32 b.mergedLen = seqAt (c.irs + 1) (h + b.mergedLen)
      rw [hb.headSeq_eq, ← seqAt_add]

/-- The buffer of a window takes every segment of the window; with it the right edge moves forward,
whatever else has been noted. -/
theorem Window.takes (hwin : Window c.core) (hlive : c.onHashTable = true)
    (hstate : c.state.receives) (hroom : Roomy env seg)
    (hopen : openRcvbuf env c = some b)
    (hlo : ¬ tcpSeqLt (seg.seq + BitVec.ofNat 32 seg.payload.length) c.rcvNxt)
    (hhi : ¬ tcpSeqGt (seg.seq + BitVec.ofNat 32 seg.payload.length) (c.rcvNxt + c.rcvWnd)) :
    ∃ b' ret, putPayload c.state b seg.payload seg.seq = some (b', ret) ∧
      ∀ d : Conn, d.irs = c.irs → d.onHashTable = c.onHashTable → d.state = c.state →
        Window (storePayload b' d).core ∧
          Within (2 ^ 31 - 14600) c.core.rightEdge (storePayload b' d).core.rightEdge := by
  obtain ⟨h, hshape, hnxt, hwnd, hsize, hgap⟩ := hwin.shaped hlive hstate hroom hopen
  obtain ⟨b', ret, h', hput, hsize', hshape', hle, hge⟩ :=
    putPayload_shaped hshape c.state hroom.length_lt hwnd (hnxt ▸ hlo) (hnxt ▸ hhi)
  have hedge : Within (2 ^ 31 - 14600) c.core.rightEdge (seqAt (c.irs + 1) (h' + b'.size)) := by
    have hlt := hshape.size_lt
    refine ⟨h' + b'.size - (h + b.mergedLen + c.rcvWnd.toNat), by omega, ?_⟩
    have hright : c.core.rightEdge = seqAt (c.irs + 1) (h + b.mergedLen + c.rcvWnd.toNat) := by
      change c.rcvNxt + c.rcvWnd = _
      rw [hnxt, seqAt_add (c.irs + 1) (h + b.mergedLen), BitVec.ofNat_toNat, BitVec.setWidth_eq]
    rw [hright, seqAt_seqAt]
    congr 1
    omega
  refine ⟨b', ret, hput, fun d hirs hd hs => ?_⟩
  rw [← hirs] at hshape' hedge
  refine ⟨storePayload_window hshape' (hsize' ▸ hsize) (hd.trans hlive) (hs ▸ hstate), ?_⟩
  rw [storePayload_edge hshape']
  exact hedge

/-- Processing payload moves the right edge forward, by less than half the number space. -/
theorem Window.payload (hwin : Window c.core) (hlive : c.onHashTable = true)
    (hstate : c.state.receives) (hroom : Roomy env seg) :
    Window (processTCPPayload env seg.payload seg.seq c).1.core ∧
      Within (2 ^ 31 - 14600) c.core.rightEdge
        (processTCPPayload env seg.payload seg.seq c).1.core.rightEdge := by
  refine processTCPPayload_rule (P := fun d => Window d.core ∧
    Within (2 ^ 31 - 14600) c.core.rightEdge d.core.rightEdge)
    (fun e reg d hd => (core_raiseEvent e reg d).symm ▸ hd) fun d hout => ?_
  cases hout with
  | dropped => exact ⟨hwin, .refl _ _⟩
  | noMemory => exact ⟨hwin.ended rfl rfl (by simp [TcpState.receives]), .refl _ _⟩
  | faulted hlo hhi hopen hnone =>
    obtain ⟨b', ret, hput, -⟩ := hwin.takes hlive hstate hroom hopen hlo hhi
    cases hput.symm.trans hnone
  | stored hlo hhi hopen hput =>
    obtain ⟨b', ret, hput', hstored⟩ := hwin.takes hlive hstate hroom hopen hlo hhi
    cases hput.symm.trans hput'
    split <;> exact hstored _ rfl rfl rfl

/-- A read moves the right edge by what it frees. -/
theorem Window.read (hwin : Window c.core) (len : ℕ) (hbuf : c.rcvbuf = some b) :
    Window (copyToUser b len c).1.core ∧
      Within (2 ^ 30) c.core.rightEdge (copyToUser b len c).1.core.rightEdge := by
  obtain ⟨hsize, hwnd, h, hshape, hnxt⟩ := hwin.buffered b hbuf
  have hmerged := hshape.mergedLen_le
  have hlt := hshape.size_lt
  obtain ⟨b', hrem, hsize', hmerged', hshape'⟩ := hshape.remove (min b.mergedLen len)
  have hcopy : min (min b.mergedLen len) b.mergedLen = min b.mergedLen len := by omega
  rw [hcopy] at hrem hmerged' hshape'
  have hout := copyToUser_outcome b len c
  generalize copyToUser b len c = r at hout ⊢
  cases hout with
  | nothing => exact ⟨hwin, .refl _ _⟩
  | faulted =>
    rw [Conn.fault, core_act_kept c rfl]
    exact ⟨⟨hwin.dead, hwin.listen, hwin.opens, hwin.fresh, hwin.buffered⟩, .refl _ _⟩
  | taken _ _ hrem' =>
    cases hrem.symm.trans hrem'
    rw [core_advertiseWindow]
    have hwnd' : (BitVec.ofNat 32 (b'.size - b'.mergedLen)).toNat = b'.size - b'.mergedLen := by
      rw [BitVec.toNat_ofNat, Nat.mod_eq_of_lt (by omega)]
    refine ⟨⟨fun hd => ?_, hwin.listen, fun hl ho => ?_, fun _ _ hn => ?_, fun b'' hb'' => ?_⟩, ?_⟩
    · exact absurd (hbuf.symm.trans (hwin.dead hd)) (by simp)
    · exact absurd (hbuf.symm.trans (hwin.opens hl ho).1) (by simp)
    · cases hn
    · obtain rfl : b' = b'' := Option.some.inj hb''
      refine ⟨hsize' ▸ hsize, hwnd', _, hshape', fun hs => ?_⟩
      rw [show h + min b.mergedLen len + b'.mergedLen = h + b.mergedLen by omega]
      exact hnxt hs
    · refine ⟨min b.mergedLen len, by omega, ?_⟩
      change c.rcvNxt + BitVec.ofNat 32 (b'.size - b'.mergedLen) =
        c.rcvNxt + c.rcvWnd + BitVec.ofNat 32 (min b.mergedLen len)
      have hbytes : BitVec.ofNat 32 (b'.size - b'.mergedLen) =
          c.rcvWnd + BitVec.ofNat 32 (min b.mergedLen len) := by
        have hsum : b'.size - b'.mergedLen = c.rcvWnd.toNat + min b.mergedLen len := by
          have hwnd₀ : c.rcvWnd.toNat = b.size - b.mergedLen := hwnd
          omega
        rw [hsum, BitVec.ofNat_add, BitVec.ofNat_toNat, BitVec.setWidth_eq]
      rw [hbytes, add_assoc]

/-! ## Effects -/

theorem Window.of_dead {p : Endpoint} (hlive : p.live = false) (hbuf : p.rcvbuf = none) :
    Window p := by
  refine ⟨fun _ => hbuf, fun hl => ?_, fun hl => ?_, fun hl => ?_, fun b hb => ?_⟩
  · simp [hlive] at hl
  · simp [hlive] at hl
  · simp [hlive] at hl
  · simp [hbuf] at hb

/-- The receiving side is untouched, and the stream enters neither the opening nor a receiving
state. -/
theorem Window.kept (h : Window p) (hside : q.receiving = p.receiving)
    (hlisten : q.state = .listen → p.state = .listen)
    (hopens : q.state.opens = true → p.state.opens = true)
    (hrecv : q.state.receives → p.state.receives) : Window q := by
  simp only [Endpoint.receiving, Prod.mk.injEq] at hside
  obtain ⟨hlive, hirs, hnxt, hwnd, hbuf⟩ := hside
  constructor
  · rw [hlive, hbuf]
    exact h.dead
  · rw [hlive]
    exact fun hl hs => h.listen hl (hlisten hs)
  · rw [hlive, hbuf, hwnd, hnxt, hirs]
    exact fun hl ho => h.opens hl (hopens ho)
  · rw [hlive, hbuf, hnxt, hirs, hwnd]
    exact fun hl hr => h.fresh hl (hrecv hr)
  · rw [hbuf, hwnd, hnxt, hirs]
    intro b hb
    obtain ⟨hsize, hb', n, hshape, hplace⟩ := h.buffered b hb
    exact ⟨hsize, hb', n, hshape, fun hr => hplace (hrecv hr)⟩

/-- The opening is over, with `rcv_nxt` behind the peer's SYN. -/
theorem Window.opened (h : Window p) (hopens : p.state.opens = true)
    (hside : q.receiving = { p with irs := q.irs, rcvNxt := q.irs + 1 }.receiving)
    (hstate : q.state.opens = false) : Window q := by
  simp only [Endpoint.receiving, Prod.mk.injEq] at hside
  obtain ⟨hlive, -, hnxt, hwnd, hbuf⟩ := hside
  have hnone : q.rcvbuf = none := by
    rw [hbuf]
    cases hl : p.live with
    | true => exact (h.opens hl hopens).1
    | false => exact h.dead hl
  refine ⟨fun _ => hnone, fun _ hs => ?_, fun _ ho => ?_, fun hl _ _ => ⟨hnxt, ?_⟩, fun b hb => ?_⟩
  · simp [hs, TcpState.opens] at hstate
  · simp [hstate] at ho
  · rw [hwnd]
    exact (h.opens (hlive ▸ hl) hopens).2.1
  · simp [hnone] at hb

theorem Window.effect
    (hroom : avoid .smallBuffer ∨ avoid .payload) (h : Window p) (heff : Effect avoid sg p q) :
    Window q := by
  cases heff.receiveStep with
  | payload hp hq hstate _ hsafe =>
    subst hp hq
    exact (h.payload hsafe.live hstate (hsafe.roomy (hroom.resolve_right hsafe.allowed))).1
  | read _ hp hq hbuf =>
    subst hp hq
    exact (h.read _ hbuf).1
  | dead hlive hbuf => exact .of_dead hlive hbuf
  | kept hside hlisten hopens hrecv => exact h.kept hside hlisten hopens hrecv
  | fin _ _ hside hopens hrecv =>
    have hended : Window { p with rcvNxt := p.rcvNxt + 1, state := q.state } := h.ended rfl hopens hrecv
    exact hended.kept hside id id id
  | listened hstate hside =>
    simp only [Endpoint.receiving, Prod.mk.injEq] at hside
    obtain ⟨hlive, -, -, -, hbuf⟩ := hside
    cases hl : p.live with
    | true => exact absurd hstate (h.listen hl)
    | false => exact .of_dead (hlive.trans hl) (hbuf.trans (h.dead hl))
  | opened hstate hside hopens =>
    refine h.opened ?_ hside hopens
    rcases hstate with hs | ⟨hs, -⟩ <;> simp [hs, TcpState.opens]

theorem Born.window (hborn : Born c) : Window c.core := by
  cases hborn with
  | active cfg iss socket sid sh queued =>
    rw [core_mtcpConnect]
    exact ⟨fun _ => rfl, by simp, fun _ _ => ⟨rfl, rfl, .inr rfl⟩,
      fun _ hr => by simp [TcpState.receives] at hr, by rintro _ ⟨⟩⟩
  | passive env iss sid sh seg hsyn =>
    rw [core_handlePassiveOpen env iss sid sh hsyn]
    exact ⟨fun _ => rfl, by simp, fun _ _ => ⟨rfl, rfl, .inl rfl⟩,
      fun _ hr => by simp [TcpState.receives] at hr, by rintro _ ⟨⟩⟩

theorem Reached.window (hroom : avoid .smallBuffer) (hreached : Reached avoid c) :
    Window c.core :=
  hreached.invariant Born.window fun heff h => h.effect (.inl hroom) heff

/-! ## Steps that leave the receive buffer alone -/

/-- A step that neither takes payload nor reads moves `rcv_nxt` only over the peer's SYN or FIN. -/
theorem Effect.quiet (hpay : avoid .payload)
    (hread : avoid .read) (heff : Effect avoid sg p q) (hlive' : q.live = true)
    (hwin : Window p) (hsent : p.state ≠ .synSent) :
    q.rcvWnd = p.rcvWnd ∧ (q.rcvNxt = p.rcvNxt ∨ q.rcvNxt = p.rcvNxt + 1 ∧ q.state ≠ .synRcvd ∧
      (p.state = .synRcvd ∨ ∃ seg, sg = some seg ∧ seg.payloadEnd = p.rcvNxt)) := by
  have hlive := (heff.moves hlive').1
  have hpast : q.state.opens = false → q.state ≠ .synRcvd := by
    intro ho hs
    rw [hs] at ho
    cases ho
  cases heff.receiveStep with
  | payload _ _ _ _ hsafe => exact absurd hpay hsafe.allowed
  | read hno => exact absurd hread hno
  | dead hdead => simp [hlive'] at hdead
  | kept hside =>
    simp only [Endpoint.receiving, Prod.mk.injEq] at hside
    exact ⟨hside.2.2.2.1, .inl hside.2.2.1⟩
  | fin hsg hseq hside hopens =>
    simp only [Endpoint.receiving, Prod.mk.injEq] at hside
    exact ⟨hside.2.2.2.1, .inr ⟨hside.2.2.1, hpast hopens, .inr ⟨_, hsg, hseq⟩⟩⟩
  | listened hstate => exact absurd hstate (hwin.listen hlive)
  | opened hstate hside hopens =>
    obtain ⟨hs, hirs⟩ := hstate.resolve_left hsent
    simp only [Endpoint.receiving, Prod.mk.injEq] at hside
    obtain ⟨-, -, hnxt, hwnd, -⟩ := hside
    refine ⟨hwnd, ?_⟩
    rw [hnxt, hirs]
    rcases (hwin.opens hlive (by simp [hs, TcpState.opens])).2.2 with hn | hn
    · exact .inl hn.symm
    · exact .inr ⟨congrArg (· + 1) hn.symm, hpast hopens, .inl hs⟩

theorem Effects.live (heff : Effects avoid sg p q) (hlive : q.live = true) : p.live = true := by
  induction heff with
  | refl => exact hlive
  | tail _ heff ih => exact ih (heff.moves hlive).1

theorem Window.effects
    (hroom : avoid .smallBuffer ∨ avoid .payload) (h : Window p) (heff : Effects avoid sg p q) :
    Window q :=
  Effects.preserves (fun heff h => h.effect hroom heff) heff h

/-- How far `rcv_nxt` has come: over the SYN, `n` of them, and over the FIN of the segment. -/
def Advanced (sg : Option Segment) (p q : Endpoint) (n : ℕ) : Prop :=
  (q.state = .synRcvd → n = 0) ∧ (q.rcvNxt = seqAt p.rcvNxt n ∨
    q.state ≠ .synRcvd ∧ q.rcvNxt = seqAt p.rcvNxt (n + 1) ∧
      ∃ seg, sg = some seg ∧ seg.payloadEnd = seqAt p.rcvNxt n)

theorem Advanced.step {p r q : Endpoint} {n : ℕ} (hn : n ≤ 1)
    (h : Advanced sg p r n) (hback : q.state = .synRcvd → r.state = .synRcvd)
    (hstep : q.rcvNxt = r.rcvNxt ∨ q.rcvNxt = r.rcvNxt + 1 ∧ q.state ≠ .synRcvd ∧
      (r.state = .synRcvd ∨ ∃ seg, sg = some seg ∧ seg.payloadEnd = r.rcvNxt)) :
    ∃ m ≤ 1, Advanced sg p q m := by
  obtain ⟨hzero, hnxt⟩ := h
  rcases hstep with hsame | ⟨hone, hne, hsyn | ⟨seg, hseg, hseq⟩⟩
  · refine ⟨n, hn, fun hq => hzero (hback hq), ?_⟩
    rw [hsame]
    exact hnxt.imp_right fun ⟨hr, hrest⟩ => ⟨fun hq => hr (hback hq), hrest⟩
  · refine ⟨1, le_rfl, fun hq => absurd hq hne, .inl ?_⟩
    rcases hnxt with hnxt | ⟨hr, -⟩
    · rw [hone, hnxt, hzero hsyn, seqAt_zero]
      rfl
    · exact absurd hsyn hr
  · rcases hnxt with hnxt | ⟨-, hnxt, seg', hseg', hseq'⟩
    · refine ⟨n, hn, fun hq => absurd hq hne, .inr ⟨hne, ?_, seg, hseg, hseq.trans hnxt⟩⟩
      rw [hone, hnxt, seqAt_add]
      rfl
    · -- the FIN of one segment is taken once
      obtain rfl : seg = seg' := Option.some.inj (hseg.symm.trans hseg')
      rw [hseq', hnxt] at hseq
      exact absurd ((seqAt_inj (by omega) (by omega)).mp hseq) (by omega)

/-- Over a whole step, at most the SYN and one FIN are taken. -/
theorem Effects.quiet (hpay : avoid .payload)
    (hread : avoid .read) (heff : Effects avoid sg p q) (hlive : q.live = true) (hwin : Window p)
    (hsent : p.state ≠ .synSent) : Within 2 p.rightEdge q.rightEdge := by
  have hmoves : q.rcvWnd = p.rcvWnd ∧ q.state ≠ .synSent ∧ ∃ n ≤ 1, Advanced sg p q n := by
    induction heff with
    | refl => exact ⟨rfl, hsent, 0, by omega, fun _ => rfl, .inl (seqAt_zero _).symm⟩
    | @tail r q hprev hlast ih =>
      obtain ⟨hr, hmoves⟩ := hlast.moves hlive
      obtain ⟨hwnd, hnot, n, hn, hadv⟩ := ih hr
      have hwinr : Window r := hwin.effects (.inr hpay) hprev
      have hlisten := hwinr.listen hr
      obtain ⟨hwnd', hstep⟩ := hlast.quiet hpay hread hlive hwinr hnot
      have hstates : q.state ≠ .synSent ∧ (q.state = .synRcvd → r.state = .synRcvd) := by
        revert hmoves hnot hlisten
        cases r.state <;> cases q.state <;> simp [TcpState.moves]
      exact ⟨hwnd'.trans hwnd, hstates.1, hadv.step hn hstates.2 hstep⟩
  obtain ⟨hwnd, -, n, hn, -, hnxt | ⟨-, hnxt, -⟩⟩ := hmoves
  · refine ⟨n, by omega, ?_⟩
    rw [Endpoint.rightEdge, Endpoint.rightEdge, hwnd, hnxt]
    exact add_right_comm _ _ _
  · refine ⟨n + 1, by omega, ?_⟩
    rw [Endpoint.rightEdge, Endpoint.rightEdge, hwnd, hnxt]
    exact add_right_comm _ _ _

/-! ## Where payload is processed -/

/-- The stream as `ProcessTCPPayload` gets it from the state handlers. -/
def handlerCall (env : Env) (seg : Segment) (c : Conn) : Option Conn :=
  match c.state with
  | .synRcvd =>
    if seg.syn ∧ seg.seq = c.irs then none
    else
      let c := handleSynRcvd env seg c
      if c.state = .established ∧ seg.syn = false then some c else none
  | .established => if seg.syn then none else some c
  | .finWait1 =>
    if tcpSeqLt seg.seq c.rcvNxt then none
    else if seg.ack then some (finAcked seg (processACK env seg c))
    else none
  | .finWait2 => if seg.ack then some (processACK env seg c) else none
  | _ => none

/-- The stream as `ProcessTCPPayload` gets it while a segment is processed, if it does. -/
def payloadCall (env : Env) (seg : Segment) (c : Conn) : Option Conn :=
  let r := if TcpState.synRcvd.code < c.state.code then validateSequence env seg c else (c, true)
  let d := admitSegment env seg r.1
  if r.2 = false ∨ seg.payload.length = 0 ∨ seg.rst ∧ TcpState.synSent.code < d.state.code then none
  else handlerCall env seg d

/-- The hazards of the steps that leave the receive buffer alone. -/
def quietly (z : Hazard) : Prop := z = .payload ∨ z = .read

/-- Without hazards to avoid, an acknowledgement needs no conditions. -/
theorem AckSafe.quiet (seg : Segment) (p : Endpoint) : AckSafe quietly seg p := by
  refine ⟨fun ha => ?_, fun ha => ?_⟩ <;> rcases ha with ha | ha <;> cases ha

theorem handleState_around {c d : Conn}
    (hpay : 0 < seg.payload.length) (hcall : handlerCall env seg c = some d) :
    AroundPayload quietly env seg c d (handleState env seg c) := by
  have hack : AckSafe quietly seg c.core := .quiet seg c.core
  unfold handlerCall at hcall
  unfold handleState
  split at hcall
  case h_1 hs =>
    simp only [hs] at hcall ⊢
    split_ifs at hcall with hdup hest
    rw [if_neg hdup, if_pos ⟨hpay, hest.1⟩]
    obtain rfl := Option.some.inj hcall
    obtain ⟨hseg, hseq⟩ := handshake_segment hs hest.1
    have hcore := core_handleSynRcvd env hseg hseq
    obtain ⟨-, hstate, -, -, -, hafter⟩ :=
      handleEstablished_around env hest.1 hest.2 (.quiet seg (handleSynRcvd env seg c).core)
    exact ⟨handleSynRcvd_effects env hs, hstate, congrArg (·.live) hcore, congrArg (·.irs) hcore,
      congrArg (·.trace) hcore, hafter⟩
  case h_2 hs =>
    simp only [hs]
    split_ifs at hcall with hsyn
    obtain rfl := Option.some.inj hcall
    exact handleEstablished_around env hs (by simpa using hsyn) hack
  case h_3 hs =>
    simp only [hs]
    split_ifs at hcall with hold hseg
    obtain rfl := Option.some.inj hcall
    exact handleFinWait1_around env hs hold hseg hack fun ha => absurd ha (by simp [quietly])
  case h_4 hs =>
    simp only [hs]
    split_ifs at hcall with hseg
    obtain rfl := Option.some.inj hcall
    exact handleFinWait2_around env hs hseg hack
  case h_5 => cases hcall

theorem handleState_quiet (hstate : c.state ≠ .synSent) (hcall : handlerCall env seg c = none) :
    Effects quietly (some seg) c.core (handleState env seg c).core := by
  have hack : AckSafe quietly seg c.core := .quiet seg c.core
  have hreq : ∀ {P : Prop}, quietly .finRequeued → P := fun ha => absurd ha (by simp [quietly])
  have hsyn : ∀ d : Conn, d.state = .established → seg.syn = true →
      Effects quietly (some seg) d.core (handleEstablished env seg d).core := by
    intro d hd hsyn
    rw [handleEstablished, if_pos hsyn, core_addtoControlList]
    exact .single (.synEstablished rfl hd fun ha => absurd ha (by simp [quietly]))
  unfold handlerCall at hcall
  unfold handleState
  cases hs : c.state with
  | closed =>
    simp only
    exact .refl
  | listen =>
    simp only
    exact handleListen_effects (.inl hs)
  | synSent => exact absurd hs hstate
  | synRcvd =>
    simp only [hs] at hcall ⊢
    split_ifs at hcall ⊢ with hdup hest hno
    · exact handleListen_effects (.inr hs)
    · refine (handleSynRcvd_effects env hs).trans (hsyn _ hest.2 ?_)
      simpa [hest.2] using hno
    · exact handleSynRcvd_effects env hs
  | established =>
    simp only [hs] at hcall ⊢
    split_ifs at hcall with h
    exact hsyn c hs h
  | closeWait =>
    simp only
    exact handleCloseWait_effects env hs hack
  | lastAck =>
    simp only
    exact handleLastAck_effects env hs hack fun ha => hreq ha
  | finWait1 =>
    simp only [hs] at hcall ⊢
    split_ifs at hcall with hold hseg
    · rw [handleFinWait1, if_pos hold]
      exact control_effects (by simp [hs]) fun ha => hreq ha
    · rw [handleFinWait1, if_neg hold, if_neg hseg]
  | finWait2 =>
    simp only [hs] at hcall ⊢
    split_ifs at hcall with hseg
    rw [handleFinWait2, if_neg hseg]
  | closing =>
    simp only
    exact handleClosing_effects env hs hack
  | timeWait =>
    simp only
    exact handleTimeWait_effects env hs

/-- The validation, where there is one. -/
theorem validated {r : Conn × Bool}
    (hr : (if TcpState.synRcvd.code < c.state.code then validateSequence env seg c
      else (c, true)) = r) :
    Effects quietly (some seg) c.core r.1.core ∧ (r.2 = true → r.1.core = c.core) ∧
      processTCPPacket env seg c = if r.2 then dispatchSegment env seg r.1 else r.1 := by
  subst hr
  unfold processTCPPacket
  split
  case isTrue h =>
    have hne : c.state ≠ .synSent := by
      intro hs
      simp [hs, TcpState.code] at h
    obtain ⟨heff, hkept⟩ : Effects quietly (some seg) c.core _ ∧ _ :=
      validateSequence_effects env seg hne fun ha => absurd ha (by simp [quietly])
    exact ⟨heff, hkept, rfl⟩
  case isFalse => exact ⟨.refl, fun _ => rfl, rfl⟩

/-- Payload is processed between two steps that leave the receive buffer alone. -/
theorem payloadCall_around {c d : Conn} (hcall : payloadCall env seg c = some d) :
    AroundPayload quietly env seg c d (processTCPPacket env seg c) := by
  unfold payloadCall at hcall
  generalize hr : (if TcpState.synRcvd.code < c.state.code then validateSequence env seg c
    else (c, true)) = r at hcall
  obtain ⟨hvalid, hkept, hpacket⟩ := validated hr
  simp only at hcall
  split_ifs at hcall with hno
  simp only [not_or, Bool.not_eq_false] at hno
  obtain ⟨hok, hpay, hrst⟩ := hno
  have hadmitted : (admitSegment env seg r.1).core =
      { c.core with haveReset := r.1.haveReset || seg.rst } := by
    rw [core_admitSegment, hkept hok]
  have heff := hvalid.trans (admitSegment_effects env seg r.1)
  rw [if_pos hok, dispatchSegment] at hpacket
  simp only [if_neg hrst] at hpacket
  rw [hpacket]
  generalize admitSegment env seg r.1 = e at hcall hadmitted heff ⊢
  obtain ⟨hbefore, hstate, hlive, hirs, htrace, hafter⟩ :=
    handleState_around (Nat.pos_of_ne_zero hpay) hcall
  exact ⟨heff.trans hbefore, hstate, hlive.trans (congrArg (·.live) hadmitted),
    hirs.trans (congrArg (·.irs) hadmitted), htrace.trans (congrArg (·.trace) hadmitted), hafter⟩

/-- Otherwise the whole step leaves the receive buffer alone. -/
theorem payloadCall_quiet (hlive : c.onHashTable = true)
    (hstate : c.state ≠ .synSent) (hcall : payloadCall env seg c = none) :
    Effects quietly (some seg) c.core (processTCPPacket env seg c).core := by
  by_cases hpay : seg.payload.length = 0
  · refine processTCPPacket_effects hlive fun z hz => ?_
    rcases hz with rfl | rfl
    · rintro ⟨_, _, heq, hpos⟩
      cases heq
      omega
    · rintro ⟨_, heq⟩
      cases heq
  unfold payloadCall at hcall
  generalize hr : (if TcpState.synRcvd.code < c.state.code then validateSequence env seg c
    else (c, true)) = r at hcall
  obtain ⟨hvalid, hkept, hpacket⟩ := validated hr
  simp only at hcall
  rw [hpacket]
  split
  case isFalse => exact hvalid
  case isTrue hok =>
    have hs : r.1.state = c.state := congrArg (·.state) (hkept hok)
    have hadmitted : (admitSegment env seg r.1).state = r.1.state :=
      congrArg (·.state) (core_admitSegment env seg r.1)
    have hmarked : seg.rst = true → (admitSegment env seg r.1).haveReset = true :=
      admitSegment_reset env r.1
    have heff := hvalid.trans (admitSegment_effects env seg r.1)
    unfold dispatchSegment
    simp only
    generalize admitSegment env seg r.1 = e at hcall hadmitted hmarked heff ⊢
    split
    case isTrue hrst =>
      rw [if_pos (processRST_taken env seg.ackSeq hrst.2)]
      exact heff.trans (processRST_effects env hrst.1 (hmarked hrst.1))
    case isFalse hrst =>
      rw [if_neg (by simp [hok, hpay, hrst])] at hcall
      exact heff.trans (handleState_quiet ((hadmitted.trans hs) ▸ hstate) hcall)

/-! ## Segments -/

/-- Payload and its acknowledgement. -/
theorem Window.receivePayload (hwin : Window c.core) (hlive : c.onHashTable = true)
    (hstate : c.state.receives) (hroom : Roomy env seg) :
    Window (MtcpStack.receivePayload env seg c).core ∧ Within (2 ^ 31 - 14600) c.core.rightEdge
      (MtcpStack.receivePayload env seg c).core.rightEdge := by
  unfold MtcpStack.receivePayload
  split
  case isTrue => exact ⟨hwin, .refl _ _⟩
  case isFalse =>
    simp only [core_enqueueACK]
    obtain ⟨hw, hedge⟩ := hwin.payload hlive hstate hroom
    generalize (processTCPPayload env seg.payload seg.seq c).1.core = q at hw hedge ⊢
    exact ⟨⟨hw.dead, hw.listen, hw.opens, hw.fresh, hw.buffered⟩, hedge⟩

theorem AroundPayload.edge {c d r : Conn}
    (h : AroundPayload quietly env seg c d r) (hwin : Window c.core) (hstate : c.state ≠ .synSent)
    (hroom : Roomy env seg) (hlive : r.onHashTable = true) :
    Within (2 ^ 31 - 14596) c.core.rightEdge r.core.rightEdge := by
  have hwind : Window d.core := hwin.effects (.inr (.inl rfl)) h.before
  have hrecv := receivePayload_receives env seg d
  have hd : d.onHashTable = true := (congrArg (·.live) hrecv.frame).symm.trans (h.after.live hlive)
  obtain ⟨hwinr, hedge⟩ := hwind.receivePayload hd h.state hroom
  have hsent : (MtcpStack.receivePayload env seg d).core.state ≠ .synSent := by
    rcases hrecv.state with ⟨hs, -⟩ | ⟨hs, -⟩
    · rw [hs]
      rcases h.state with hs | hs | hs <;> simp [hs]
    · rw [hs]
      exact nofun
  exact ((h.before.quiet (.inl rfl) (.inr rfl) hd hwin hstate).trans hedge).trans
    (h.after.quiet (.inl rfl) (.inr rfl) hlive hwinr hsent)

/-- A segment moves the right edge forward, if at all. -/
theorem processTCPPacket_edge (hwin : Window c.core)
    (hlive : c.onHashTable = true) (hstate : c.state ≠ .synSent) (hroom : Roomy env seg)
    (hlive' : (processTCPPacket env seg c).onHashTable = true) :
    Within (2 ^ 31 - 14596) c.core.rightEdge (processTCPPacket env seg c).core.rightEdge := by
  cases hcall : payloadCall env seg c with
  | some d => exact (payloadCall_around hcall).edge hwin hstate hroom hlive'
  | none =>
    exact ((payloadCall_quiet hlive hstate hcall).quiet (.inl rfl) (.inr rfl) hlive' hwin hstate).mono
      (by omega)

/-! ## Events -/

theorem mtcpRead_edge (hwin : Window c.core) (len : ℕ) :
    Within (2 ^ 30) c.core.rightEdge (mtcpRead len c).1.core.rightEdge := by
  unfold mtcpRead
  split
  case h_2 => exact .refl _ _
  split
  case isTrue => exact .refl _ _
  cases hbuf : c.rcvbuf with
  | none =>
    simp only
    split_ifs
    · exact .refl _ _
    · exact .refl _ _
    · rw [core_fault_skipped c rfl]
      exact .refl _ _
  | some b =>
    simp only
    split
    · exact .refl _ _
    · rw [core_remindReader]
      exact (hwin.read len hbuf).2

/-- No event moves the right edge back, once the peer has been told a window. -/
theorem Event.apply_edge {e : Event} (hwin : Window c.core)
    (hlive : c.onHashTable = true) (hstate : c.state ≠ .synSent) (henabled : e.enabled c = true)
    (hroom : ¬ Hazard.smallBuffer.hits c e) (hlive' : (e.apply c).onHashTable = true) :
    Within (2 ^ 31 - 14596) c.core.rightEdge (e.apply c).core.rightEdge := by
  have hquiet : (∀ z, quietly z → ¬ z.hits c e) →
      Within (2 ^ 31 - 14596) c.core.rightEdge (e.apply c).core.rightEdge := fun hsafe =>
    ((Event.apply_effects henabled hsafe).quiet (.inl rfl) (.inr rfl) hlive' hwin hstate).mono
      (by omega)
  cases e with
  | packet env seg =>
    by_cases hr : Roomy env seg
    · exact processTCPPacket_edge hwin hlive hstate hr hlive'
    · exact absurd ⟨env, seg, rfl, hr⟩ hroom
  | read len => exact (mtcpRead_edge hwin len).mono (by omega)
  | _ =>
    refine hquiet fun z hz => ?_
    rcases hz with rfl | rfl
    · rintro ⟨_, _, h, _⟩
      cases h
    · rintro ⟨_, h⟩
      cases h

/-- What `RBPut` returns while a segment is processed, if `ProcessTCPPayload` calls it. -/
def putAnswer (env : Env) (seg : Segment) (c : Conn) : Option ℤ :=
  (payloadCall env seg c).bind fun d =>
    if tcpSeqLt seg.payloadEnd d.rcvNxt ∨ tcpSeqGt seg.payloadEnd (d.rcvNxt + d.rcvWnd) then none
    else (openRcvbuf env d).bind fun b => (rbPut b seg.payload seg.seq).map (·.2)

/-- The segment was inside the window and found room. -/
theorem putAnswer_nonneg {ret : ℤ} (hwin : Window c.core)
    (hlive : c.onHashTable = true) (hroom : Roomy env seg) (hret : putAnswer env seg c = some ret) :
    0 ≤ ret := by
  obtain ⟨d, hcall, hrest⟩ := Option.bind_eq_some_iff.mp hret
  split_ifs at hrest with hwnd
  rw [not_or] at hwnd
  obtain ⟨b, hopen, hput⟩ := Option.bind_eq_some_iff.mp hrest
  rw [Option.map_eq_some_iff] at hput
  obtain ⟨⟨b', n⟩, hput, rfl⟩ := hput
  have haround := payloadCall_around hcall
  have hwind : Window d.core := hwin.effects (.inr (.inl rfl)) haround.before
  obtain ⟨h, hshape, hnxt, hfits, -, -⟩ :=
    hwind.shaped (haround.live_eq.trans hlive) haround.state hroom hopen
  rw [hnxt] at hwnd
  obtain ⟨b₁, m, hput', hm, -, -⟩ := hshape.put hroom.length_lt hfits hwnd.1 hwnd.2
  obtain ⟨-, rfl⟩ := Prod.mk.inj (Option.some.inj (hput'.symm.trans hput))
  exact hm

/-- As long as every receive buffer has room for the initial window, the right edge of the
offered window never moves back, and a segment that `ProcessTCPPayload` finds inside the window is
never refused for lack of space. -/
theorem window_never_shrinks (hroom : avoid .smallBuffer) {c : Conn} (hreached : Reached avoid c)
    (hlive : c.onHashTable = true) (hstate : c.state ≠ .synSent) :
    (∀ e : Event, e.enabled c = true → ¬ Hazard.smallBuffer.hits c e →
      (e.apply c).onHashTable = true → ¬ tcpSeqLt (e.apply c).core.rightEdge c.core.rightEdge) ∧
    ∀ env seg, ¬ Hazard.smallBuffer.hits c (.packet env seg) → putAnswer env seg c ≠ some (-2) := by
  have hwin := hreached.window hroom
  refine ⟨fun e henabled hsafe hlive' hlt => ?_, fun env seg hsafe hret => ?_⟩
  · have hedge := Event.apply_edge hwin hlive hstate henabled hsafe hlive'
    exact absurd hlt (not_lt.mpr (hedge.toInt_nonneg (by decide)))
  · have hr : Roomy env seg := by
      by_contra hcon
      exact hsafe ⟨env, seg, rfl, hcon⟩
    have hnonneg := putAnswer_nonneg hwin hlive hr hret
    omega

/-- A host with the smallest receive buffers that can be configured. -/
def smallEnv : Env := { quietEnv with rcvChunk := some (List.replicate 64 0) }

/-- With a buffer of 64 bytes the first byte takes back most of the initial window of 14600, and a
byte at offset 100, inside the window that was offered, is refused for lack of space. -/
theorem window_shrinks :
    let c := (activeOpen smallEnv).foldl Event.apply connectingConn
    let first := { plainSegment with seq := 501, ack := true, payload := [7] }
    let far := { plainSegment with seq := 601, ack := true, payload := [7] }
    Reached (fun _ => False) c ∧ c.onHashTable = true ∧ c.state = .established ∧
      tcpSeqLt (processTCPPacket smallEnv first c).core.rightEdge c.core.rightEdge ∧
      putAnswer smallEnv far c = some (-2) :=
  ⟨(Reached.born (.active quietEnv.cfg 100 quietSocket 0 Shared.init true)).run
    (by decide +kernel), by decide +kernel, by decide +kernel, by decide +kernel, by decide +kernel⟩

/-- A host whose receive buffers hold just the initial window. -/
def roomyEnv : Env := { quietEnv with rcvChunk := some (List.replicate 14600 0) }

theorem roomyEnv_roomy (h : seg.payload.length < 2 ^ 31) : Roomy roomyEnv seg where
  length_lt := h
  chunk_ge chunk hchunk := by
    obtain rfl := Option.some.inj hchunk
    rw [List.length_replicate]
    rfl
  chunk_lt chunk hchunk := by
    obtain rfl := Option.some.inj hchunk
    rw [List.length_replicate]
    omega

theorem window_never_shrinks_first_byte :
    let c := (activeOpen roomyEnv).foldl Event.apply connectingConn
    let first := { plainSegment with seq := 501, ack := true, payload := [7] }
    (processTCPPacket roomyEnv first c).core.rcvbuf.map (·.mergedLen) = some 1 ∧
      ¬ tcpSeqLt (processTCPPacket roomyEnv first c).core.rightEdge c.core.rightEdge ∧
      putAnswer roomyEnv first c ≠ some (-2) := by
  have hborn : Reached (· = .smallBuffer) connectingConn := reached_connectingConn
  have hqueued := hborn.step (e := .connectq) (by decide +kernel) <| by
    rintro z rfl ⟨_, _, he, _⟩
    cases he
  have hsyn := hqueued.step (e := .controlPass roomyEnv [true]) (by decide +kernel) <| by
    rintro z rfl ⟨_, _, he, _⟩
    cases he
  have hanswered := hsyn.step (e := .packet roomyEnv synAckSegment) (by decide +kernel) <| by
    rintro z rfl ⟨_, _, he, hcon⟩
    cases he
    exact hcon (roomyEnv_roomy (by decide))
  have hdone : Reached (· = .smallBuffer) ((activeOpen roomyEnv).foldl Event.apply connectingConn) :=
    hanswered.step (e := .controlPass roomyEnv [true]) (by decide +kernel) <| by
      rintro z rfl ⟨_, _, he, _⟩
      cases he
  have hsafe : ¬ Hazard.smallBuffer.hits ((activeOpen roomyEnv).foldl Event.apply connectingConn)
      (.packet roomyEnv { plainSegment with seq := 501, ack := true, payload := [7] }) := by
    rintro ⟨_, _, he, hcon⟩
    cases he
    exact hcon (roomyEnv_roomy (by decide))
  obtain ⟨hedge, hput⟩ := window_never_shrinks (by exact rfl) hdone (by decide +kernel)
    (by decide +kernel)
  exact ⟨by decide +kernel, hedge (.packet roomyEnv _) (by decide +kernel) hsafe (by decide +kernel),
    hput _ _ hsafe⟩

end MtcpStack
