import MtcpStack.Verification.Closing

/-! # The sequence numbers of the sending side

Once the handshake is complete, `snd_una` is the sequence number of the first buffered byte, and
`snd_nxt` lies at most behind the buffered bytes and the FIN. -/

namespace MtcpStack

open Serial

variable {avoid : Hazard → Prop}

/-! ## Places -/

theorem seqAt_toNat_sub (u a : U32) : seqAt u (a - u).toNat = a := by
  rw [seqAt, BitVec.ofNat_toNat, BitVec.setWidth_eq]
  exact add_sub_cancel u a

/-- How two sequence numbers compare, in terms of their places. -/
theorem toInt_places (u : U32) (x y : ℕ) : (seqAt u x - seqAt u y).toInt =
    if ((x : ℤ) - y) % 2 ^ 32 < 2 ^ 31 then ((x : ℤ) - y) % 2 ^ 32
    else ((x : ℤ) - y) % 2 ^ 32 - 2 ^ 32 := by
  rw [seqAt_sub_seqAt, BitVec.toInt_ofInt, Int.bmod_def]
  norm_num

section
variable {u nxt a : U32} {len : ℕ}

theorem exists_place (u a : U32) : ∃ x < 2 ^ 32, a = seqAt u x ∧ (a - u).toNat = x :=
  ⟨(a - u).toNat, (a - u).isLt, (seqAt_toNat_sub u a).symm, rfl⟩

/-- A place that is not after the end, and not opposite to it, is before the end or past the
opposite point. -/
theorem place_of_not_gt {x : ℕ} (hx : x < 2 ^ 32)
    (hend : ¬ tcpSeqGt (seqAt u x) (seqAt u len))
    (hfar : seqAt u x - seqAt u len ≠ 2147483648#32) : x ≤ len ∨ len + 2 ^ 31 < x := by
  have hne : x ≠ len + 2 ^ 31 := by
    rintro rfl
    exact hfar (by rw [seqAt_sub_seqAt]; norm_num)
  unfold tcpSeqGt at hend
  rw [toInt_places] at hend
  omega

theorem acked_place (hlen : len + 1 < 2 ^ 31) (hnxt : (nxt - u).toNat ≤ len + 1)
    (hend : ¬ tcpSeqGt a (seqAt u len)) (hfar : a - seqAt u len ≠ 2147483648#32)
    (hhead : ¬ tcpSeqGeq u a) (hle : ¬ tcpSeqGt a nxt) :
    0 < (a - u).toNat ∧ (a - u).toNat ≤ len ∧ (a - u).toNat ≤ (nxt - u).toNat := by
  obtain ⟨x, hx, rfl, hax⟩ := exists_place u a
  obtain ⟨n, hn, rfl, hnn⟩ := exists_place u nxt
  have hplace := place_of_not_gt hx hend hfar
  rw [hnn] at hnxt
  rw [hax, hnn]
  unfold tcpSeqGt at hle
  unfold tcpSeqGeq at hhead
  rw [toInt_places] at hle
  nth_rewrite 1 [← seqAt_zero u] at hhead
  rw [toInt_places] at hhead
  omega

theorem recovered_place (hlen : len + 1 < 2 ^ 31) (hnxt : (nxt - u).toNat ≤ len + 1)
    (hend : ¬ tcpSeqGt a (seqAt u len)) (hfar : a - seqAt u len ≠ 2147483648#32)
    (hgt : tcpSeqGt a nxt) : (nxt - u).toNat < (a - u).toNat ∧ (a - u).toNat ≤ len := by
  obtain ⟨x, hx, rfl, hax⟩ := exists_place u a
  obtain ⟨n, hn, rfl, hnn⟩ := exists_place u nxt
  have hplace := place_of_not_gt hx hend hfar
  rw [hnn] at hnxt
  rw [hax, hnn]
  unfold tcpSeqGt at hgt
  rw [toInt_places] at hgt
  omega

theorem rewound_place (hlen : len + 1 < 2 ^ 31) (hnxt : (nxt - u).toNat ≤ len + 1)
    (hstale : ¬ tcpSeqLt a u) (hlt : tcpSeqLt a nxt) : (a - u).toNat < (nxt - u).toNat := by
  obtain ⟨x, hx, rfl, hax⟩ := exists_place u a
  obtain ⟨n, hn, rfl, hnn⟩ := exists_place u nxt
  rw [hnn] at hnxt
  rw [hax, hnn]
  unfold tcpSeqLt at hstale hlt
  nth_rewrite 2 [← seqAt_zero u] at hstale
  rw [toInt_places] at hstale hlt
  omega

end

/-! ## The order of the sequence numbers -/

/-- The states in which bytes or a FIN may be waiting for their acknowledgement. -/
def TcpState.sends (s : TcpState) : Prop :=
  s = .established ∨ s = .closeWait ∨ s = .finWait1 ∨ s = .closing ∨ s = .lastAck

namespace Endpoint

/-- The sequence number of the first byte that has not been acknowledged. -/
def base (p : Endpoint) : U32 := (p.sndbuf.map SendBuffer.headSeq).getD (p.iss + 1)

/-- The number of buffered bytes. -/
def buffered (p : Endpoint) : ℕ := (p.sndbuf.map SendBuffer.len).getD 0

/-- The sequence number behind the buffered bytes. -/
def endSeq (p : Endpoint) : U32 := seqAt p.base p.buffered

/-- How far `snd_nxt` is ahead of the first unacknowledged byte. -/
def ahead (p : Endpoint) : ℕ := (p.sndNxt - p.base).toNat

end Endpoint

/-- The sending side of a live stream without hazards. -/
structure Ordered (p : Endpoint) : Prop where
  window : p.state.sends → p.sndUna = p.base ∧ p.ahead ≤ p.buffered + p.isFinSent.toNat
  finished : p.state = .finWait2 ∨ p.state = .timeWait → p.isFinSent = true ∧ p.buffered = 0 ∧
    p.sndUna = p.base + 1 ∧ p.sndNxt = p.base + 1 ∧ p.fss = p.base
  final : p.state.sends → p.state.leaving ∨ 0 < p.closeqInt → p.fss = p.endSeq
  unsent : p.isFinSent = true → p.state.closes ∨ p.state = .closed

/-- The lists of a live stream without hazards: what keeps a FIN from being sent twice, or data
from being sent behind it. -/
structure Listed (p : Endpoint) : Prop where
  control : p.onControlList = true → ¬ finOut p.state p.sndNxt p.fss
  out : finOut p.state p.sndNxt p.fss → p.onSendList = false ∧ p.onSendq = false
  sendq_le : p.sendq ≤ 1
  flagged : 0 < p.sendq → p.onSendq = true

section
variable {p q : Endpoint} {b : SendBuffer}

theorem base_congr (hbuf : q.sndbuf = p.sndbuf) (hiss : q.iss = p.iss) : q.base = p.base := by
  rw [Endpoint.base, Endpoint.base, hbuf, hiss]

theorem buffered_congr (hbuf : q.sndbuf = p.sndbuf) : q.buffered = p.buffered := by
  rw [Endpoint.buffered, Endpoint.buffered, hbuf]

theorem endSeq_congr (hbuf : q.sndbuf = p.sndbuf) (hiss : q.iss = p.iss) : q.endSeq = p.endSeq := by
  rw [Endpoint.endSeq, Endpoint.endSeq, base_congr hbuf hiss, buffered_congr hbuf]

theorem ahead_congr (hbuf : q.sndbuf = p.sndbuf) (hiss : q.iss = p.iss)
    (hnxt : q.sndNxt = p.sndNxt) : q.ahead = p.ahead := by
  rw [Endpoint.ahead, Endpoint.ahead, base_congr hbuf hiss, hnxt]

theorem base_some (h : p.sndbuf = some b) : p.base = b.headSeq := by
  simp [Endpoint.base, h]

theorem buffered_some (h : p.sndbuf = some b) : p.buffered = b.len := by
  simp [Endpoint.buffered, h]

theorem endSeq_some (h : p.sndbuf = some b) : p.endSeq = b.endSeq := by
  rw [Endpoint.endSeq, base_some h, buffered_some h]
  rfl

theorem sndNxt_eq (p : Endpoint) : p.sndNxt = seqAt p.base p.ahead :=
  (seqAt_toNat_sub p.base p.sndNxt).symm

theorem Sender.small (h : Sender avoid p) (hbig : avoid .bigBuffer) : p.buffered + 1 < 2 ^ 31 := by
  cases hb : p.sndbuf with
  | none => simp [Endpoint.buffered, hb]
  | some b =>
    obtain ⟨⟨r, hq⟩, hsize⟩ := h.queued b hb
    have htail := hq.tail_eq
    have hle := hq.tail_le
    have := hsize hbig
    rw [buffered_some hb]
    omega

/-- In every state behind the handshake `snd_nxt` is at most one place behind the buffer. -/
theorem Ordered.ahead_le (h : Ordered p)
    (hstate : p.state.sends ∨ p.state = .finWait2 ∨ p.state = .timeWait) :
    p.ahead ≤ p.buffered + 1 := by
  rcases hstate with hs | hs
  · have hle := (h.window hs).2
    have := Bool.toNat_le p.isFinSent
    omega
  · obtain ⟨-, hempty, -, hnxt, -⟩ := h.finished hs
    have hone : p.ahead = 1 := by
      rw [Endpoint.ahead, hnxt, add_sub_cancel_left]
      rfl
    omega

/-- The FIN is out when `snd_nxt` has passed the buffered bytes. -/
theorem Ordered.finOut_iff (h : Ordered p) (hsmall : p.buffered + 1 < 2 ^ 31)
    (hstate : p.state = .finWait1 ∨ p.state = .lastAck) :
    finOut p.state p.sndNxt p.fss ↔ p.ahead = p.buffered + 1 := by
  have hsends : p.state.sends := by rcases hstate with hs | hs <;> simp [hs, TcpState.sends]
  have hleaving : p.state.leaving := by rcases hstate with hs | hs <;> simp [hs, TcpState.leaving]
  have hle := h.ahead_le (.inl hsends)
  have hfss : p.fss + 1 = seqAt p.base (p.buffered + 1) := by
    rw [h.final hsends (.inl hleaving), seqAt_add]
    rfl
  rw [finOut, hfss, sndNxt_eq p, seqAt_inj (by omega) (by omega)]
  exact and_iff_right hstate

theorem Ordered.not_finOut (h : Ordered p) (hsmall : p.buffered + 1 < 2 ^ 31)
    (hle : p.ahead ≤ p.buffered) : ¬ finOut p.state p.sndNxt p.fss := by
  intro hout
  have := (h.finOut_iff hsmall hout.1).mp hout
  omega

end

/-! ### Effects on the numbers -/

/-- The numbers, the final one apart. -/
def Endpoint.numbers (p : Endpoint) : Option SendBuffer × U32 × U32 × U32 × Bool :=
  (p.sndbuf, p.iss, p.sndUna, p.sndNxt, p.isFinSent)

section
variable {p q : Endpoint} {b : SendBuffer}

theorem Ordered.closed (hstate : q.state = .closed) : Ordered q := by
  refine ⟨fun hs => ?_, fun hs => ?_, fun hs => ?_, fun _ => .inr hstate⟩ <;>
    simp [hstate, TcpState.sends] at hs

theorem Ordered.opening (hstate : q.state.opens = true) (hsent : q.isFinSent = false) :
    Ordered q := by
  refine ⟨fun hs => ?_, fun hs => ?_, fun hs => ?_, fun hs => by simp [hsent] at hs⟩
  · rcases hs with hs | hs | hs | hs | hs <;> simp [hs, TcpState.opens] at hstate
  · rcases hs with hs | hs <;> simp [hs, TcpState.opens] at hstate
  · rcases hs with hs | hs | hs | hs | hs <;> simp [hs, TcpState.opens] at hstate

/-- The FIN is sent behind the handshake. -/
theorem Ordered.unsent_opens (h : Ordered p) (hstate : p.state.opens = true) :
    p.isFinSent = false := by
  by_contra hsent
  rcases h.unsent (by simpa using hsent) with (hs | hs | hs | hs | hs) | hs <;>
    simp [hs, TcpState.opens] at hstate

theorem Ordered.congr (h : Ordered p) (hnum : q.numbers = p.numbers) (hfss : q.fss = p.fss)
    (hqi : q.closeqInt = p.closeqInt) (hstate : q.state = p.state) : Ordered q := by
  simp only [Endpoint.numbers, Prod.mk.injEq] at hnum
  obtain ⟨hbuf, hiss, huna, hnxt, hsent⟩ := hnum
  have hbase := base_congr hbuf hiss
  have hlen := buffered_congr hbuf
  have hend := endSeq_congr hbuf hiss
  have hahead := ahead_congr hbuf hiss hnxt
  refine ⟨?_, ?_, ?_, ?_⟩
  · rw [hstate, huna, hbase, hahead, hlen, hsent]
    exact h.window
  · rw [hstate, huna, hbase, hnxt, hlen, hsent, hfss]
    exact h.finished
  · rw [hstate, hqi, hfss, hend]
    exact h.final
  · rw [hstate, hsent]
    exact h.unsent

/-- A change of state among those that send. -/
theorem Ordered.moved (h : Ordered p) (hp : p.state.sends) (hnum : q.numbers = p.numbers)
    (hq : q.state.sends) (hfss : q.state.leaving ∨ 0 < q.closeqInt → q.fss = p.endSeq)
    (hsent : p.isFinSent = true → q.state.closes) : Ordered q := by
  simp only [Endpoint.numbers, Prod.mk.injEq] at hnum
  obtain ⟨hbuf, hiss, huna, hnxt, hfin⟩ := hnum
  have hbase := base_congr hbuf hiss
  have hlen := buffered_congr hbuf
  have hend := endSeq_congr hbuf hiss
  have hahead := ahead_congr hbuf hiss hnxt
  refine ⟨fun _ => ?_, fun hs => ?_, fun _ hs => ?_, fun hs => ?_⟩
  · rw [huna, hbase, hahead, hlen, hfin]
    exact h.window hp
  · rcases hs with hs | hs <;> simp [hs, TcpState.sends] at hq
  · rw [hend]
    exact hfss hs
  · exact .inl (hsent (hfin ▸ hs))

/-- `snd_nxt` moves within the buffered bytes and the FIN. -/
theorem Ordered.renumbered (h : Ordered p) (hbuf : q.sndbuf = p.sndbuf) (hiss : q.iss = p.iss)
    (huna : q.sndUna = p.sndUna) (hfss : q.fss = p.fss) (hqi : q.closeqInt = p.closeqInt)
    (hstate : q.state = p.state) (hbusy : p.state ≠ .finWait2 ∧ p.state ≠ .timeWait)
    (hnxt : p.state.sends → q.ahead ≤ p.buffered + q.isFinSent.toNat)
    (hsent : q.isFinSent = true → p.state.closes ∨ p.state = .closed) : Ordered q := by
  have hbase := base_congr hbuf hiss
  have hlen := buffered_congr hbuf
  have hend := endSeq_congr hbuf hiss
  refine ⟨?_, ?_, ?_, ?_⟩
  · rw [hstate, huna, hbase, hlen]
    exact fun hs => ⟨(h.window hs).1, hnxt hs⟩
  · rw [hstate]
    exact fun hs => (hs.elim hbusy.1 hbusy.2).elim
  · rw [hstate, hqi, hfss, hend]
    exact h.final
  · rw [hstate]
    exact hsent

/-- The handshake is complete. -/
theorem Ordered.established (hstate : q.state = .established ∨ q.state = .closeWait)
    (hbuf : q.sndbuf = none) (huna : q.sndUna = q.iss + 1) (hnxt : q.sndNxt = q.iss + 1)
    (hsent : q.isFinSent = false) (hqi : q.closeqInt = 0) : Ordered q := by
  have hbase : q.base = q.iss + 1 := by simp [Endpoint.base, hbuf]
  have hahead : q.ahead = 0 := by simp [Endpoint.ahead, hbase, hnxt]
  refine ⟨fun _ => ⟨huna.trans hbase.symm, by omega⟩, fun hs => ?_, fun _ hs => ?_, fun hs => ?_⟩
  · rcases hstate with h | h <;> simp [h] at hs
  · have : ¬ q.state.leaving := by rcases hstate with h | h <;> simp [h, TcpState.leaving]
    rcases hs with hs | hs
    · exact absurd hs this
    · omega
  · simp [hsent] at hs

/-- The FIN is acknowledged, and with it everything before. -/
theorem Ordered.finAcked (h : Ordered p) (hsmall : p.buffered + 1 < 2 ^ 31)
    (hstate : p.state = .finWait1 ∨ p.state = .closing) (hsent : p.isFinSent = true)
    (hdrained : p.drained) {a : U32} (hack : a = p.fss + 1) (hbuf : q.sndbuf = p.sndbuf)
    (hiss : q.iss = p.iss) (huna : q.sndUna = a)
    (hnxt : q.sndNxt = a ∨ q.sndNxt = if tcpSeqGt a p.sndNxt then a else p.sndNxt)
    (hfin : q.isFinSent = p.isFinSent) (hfss : q.fss = p.fss)
    (hq : q.state = .finWait2 ∨ q.state = .timeWait) : Ordered q := by
  have hsends : p.state.sends := by rcases hstate with hs | hs <;> simp [hs, TcpState.sends]
  have hleaving : p.state.leaving := by rcases hstate with hs | hs <;> simp [hs, TcpState.leaving]
  have hfinal := h.final hsends (.inl hleaving)
  have hempty : p.buffered = 0 := by
    cases hb : p.sndbuf with
    | none => simp [Endpoint.buffered, hb]
    | some b =>
      have hlen := buffered_some hb
      rcases hdrained b hb ((endSeq_some hb).symm.trans hfinal.symm) with hz | hz <;> omega
  have hbase := base_congr hbuf hiss
  have hlen := buffered_congr hbuf
  have hend : p.fss = p.base := by
    rw [hfinal, Endpoint.endSeq, hempty, seqAt_zero]
  have ha : a = p.base + 1 := by
    rw [hack, hend]
  have hnxt' : q.sndNxt = p.base + 1 := by
    rcases hnxt with hn | hn
    · rw [hn, ha]
    · rw [hn]
      split
      case isTrue => exact ha
      case isFalse hgt =>
        -- below the FIN the acknowledgement would be ahead
        have hle := h.ahead_le (.inl hsends)
        have hone : p.ahead ≠ 0 := by
          intro hz
          apply hgt
          rw [ha, sndNxt_eq p, hz, seqAt_zero]
          simp [tcpSeqGt]
        rw [sndNxt_eq p, show p.ahead = 1 by omega]
        rfl
  refine ⟨fun hs => ?_, fun _ => ?_, fun hs => ?_, fun _ => ?_⟩
  · rcases hq with h | h <;> simp [h, TcpState.sends] at hs
  · rw [hfin, hlen, hbase, huna]
    exact ⟨hsent, hempty, ha, hnxt', hfss.trans hend⟩
  · rcases hq with h | h <;> simp [h, TcpState.sends] at hs
  · rcases hq with h | h <;> simp [h, TcpState.closes]

theorem TcpState.opens_or (s : TcpState) :
    s.opens = true ∨ s = .closed ∨ s.sends ∨ s = .finWait2 ∨ s = .timeWait := by
  cases s <;> simp [opens, sends]

/-- With a send buffer the handshake is over. -/
theorem Opening.state_of_buffer {A : Prop} {B : U32 → Prop} (h : Opening A B p)
    (hlive : p.live = true) (hbuf : p.sndbuf = some b) :
    p.state = .closed ∨ p.state.sends ∨ p.state = .finWait2 ∨ p.state = .timeWait := by
  refine p.state.opens_or.resolve_left fun hopens => ?_
  revert hopens
  cases hs : p.state with
  | listen => exact absurd hs (h.listen hlive)
  | synSent => simp [(h.synSent hlive hs).2.2.1] at hbuf
  | synRcvd => simp [(h.synRcvd hlive hs).2.2] at hbuf
  | _ => simp [TcpState.opens]

/-- What an acknowledgement of new data makes of the numbers. -/
structure AckedBy (p q : Endpoint) (a : U32) (x : ℕ) : Prop where
  pos : 0 < x
  base_eq : q.base = a
  ahead_eq : q.ahead + x = p.ahead
  buffered_eq : q.buffered + x = p.buffered
  endSeq_eq : q.endSeq = p.endSeq

theorem Ordered.ackedBy (h : Ordered p) (hsmall : p.buffered + 1 < 2 ^ 31) (hbuf : p.sndbuf = some b)
    (hstate : p.state.sends ∨ p.state = .finWait2 ∨ p.state = .timeWait) {a : U32}
    (hend : ¬ tcpSeqGt a b.endSeq) (hhead : ¬ tcpSeqGeq b.headSeq a) (hnxt : ¬ tcpSeqGt a p.sndNxt)
    (hfar : a - b.endSeq ≠ 2147483648#32)
    (hq : q.sndbuf = some (sbRemove b (a - b.headSeq).toNat).1) (hn : q.sndNxt = p.sndNxt) :
    AckedBy p q a (a - p.base).toNat := by
  rw [← endSeq_some hbuf] at hend hfar
  rw [← base_some hbuf] at hhead hq
  obtain ⟨hpos, hle, hahead⟩ := acked_place hsmall (h.ahead_le hstate) hend hfar hhead hnxt
  obtain ⟨hlen, hseq, -⟩ := sbRemove_shape b (a - p.base).toNat
  have hfinal := endSeq_sbRemove b (a - p.base).toNat
  have hx := seqAt_toNat_sub p.base a
  rw [← endSeq_some hbuf] at hfinal
  rw [← buffered_some hbuf, min_eq_left hle] at hlen
  rw [← buffered_some hbuf, min_eq_left hle, ← base_some hbuf] at hseq
  change _ = seqAt p.base (a - p.base).toNat at hseq
  rw [hx] at hseq
  have hdist : (p.sndNxt - a).toNat = p.ahead - (a - p.base).toNat := by
    have hlt := (p.sndNxt - p.base).isLt
    nth_rewrite 1 [sndNxt_eq p, ← hx]
    exact toNat_seqAt_sub_seqAt hahead (lt_of_le_of_lt (Nat.sub_le _ _) hlt)
  refine ⟨hpos, ?_, ?_, ?_, ?_⟩
  · rw [base_some hq, hseq]
  · rw [Endpoint.ahead, base_some hq, hseq, hn, hdist]
    exact Nat.sub_add_cancel hahead
  · rw [buffered_some hq, hlen]
    exact Nat.sub_add_cancel hle
  · rw [endSeq_some hq, hfinal]

theorem Ordered.acked (h : Ordered p) (hsmall : p.buffered + 1 < 2 ^ 31) (hbuf : p.sndbuf = some b)
    (hstate : p.state = .closed ∨ p.state.sends ∨ p.state = .finWait2 ∨ p.state = .timeWait)
    {a : U32} (hend : ¬ tcpSeqGt a b.endSeq) (hhead : ¬ tcpSeqGeq b.headSeq a)
    (hnxt : ¬ tcpSeqGt a p.sndNxt) (hfar : a - b.endSeq ≠ 2147483648#32) (r : Bool) :
    Ordered { p with
      sndbuf := some (sbRemove b (a - b.headSeq).toNat).1, sndUna := a, inRto := r } := by
  rcases hstate with hs | hstate
  · exact .closed hs
  have hacked := h.ackedBy (q := { p with
    sndbuf := some (sbRemove b (a - b.headSeq).toNat).1, sndUna := a, inRto := r })
    hsmall hbuf hstate hend hhead hnxt hfar rfl rfl
  generalize (sbRemove b (a - b.headSeq).toNat).1 = b' at hacked ⊢
  have hsends : p.state.sends := by
    rcases hstate with hs | hs
    · exact hs
    · have hempty := (h.finished hs).2.1
      have hpos := hacked.pos
      have hlen := hacked.buffered_eq
      omega
  refine ⟨fun _ => ⟨hacked.base_eq.symm, ?_⟩, fun hs => ?_, fun _ hs => ?_, h.unsent⟩
  · have hwin := (h.window hsends).2
    have hahead := hacked.ahead_eq
    have hlen := hacked.buffered_eq
    simp only
    omega
  · rcases hs with hs | hs <;> simp_all [TcpState.sends]
  · rw [hacked.endSeq_eq]
    exact h.final hsends hs

/-- A place that `snd_nxt` is set back to. -/
theorem Ordered.rewind_ahead (h : Ordered p) (hsmall : p.buffered + 1 < 2 ^ 31)
    (hstate : p.state.sends) {a : U32} (hlt : tcpSeqLt a p.sndNxt) (hstale : ¬ tcpSeqLt a p.sndUna) :
    (a - p.base).toNat < p.ahead := by
  rw [(h.window hstate).1] at hstale
  exact rewound_place hsmall (h.ahead_le (.inl hstate)) hstale hlt

/-- Behind the acknowledgement of the FIN nothing is left to be set back. -/
theorem Ordered.rewind_busy (h : Ordered p) {a : U32} (hlt : tcpSeqLt a p.sndNxt)
    (hstale : ¬ tcpSeqLt a p.sndUna) : p.state ≠ .finWait2 ∧ p.state ≠ .timeWait := by
  rw [← not_or]
  intro hs
  obtain ⟨-, -, huna, hnxt, -⟩ := h.finished hs
  rw [huna, ← hnxt] at hstale
  exact hstale hlt

/-- A place that `snd_nxt` is moved on to. -/
theorem Ordered.recover_ahead (h : Ordered p) (hsmall : p.buffered + 1 < 2 ^ 31)
    (hbuf : p.sndbuf = some b)
    (hstate : p.state.sends ∨ p.state = .finWait2 ∨ p.state = .timeWait) {a : U32}
    (hend : ¬ tcpSeqGt a b.endSeq) (hgt : tcpSeqGt a p.sndNxt)
    (hfar : a - b.endSeq ≠ 2147483648#32) :
    p.ahead < (a - p.base).toNat ∧ (a - p.base).toNat ≤ p.buffered := by
  rw [← endSeq_some hbuf] at hend hfar
  exact recovered_place hsmall (h.ahead_le hstate) hend hfar hgt

theorem Ordered.recover_busy (h : Ordered p) (hsmall : p.buffered + 1 < 2 ^ 31)
    (hbuf : p.sndbuf = some b) {a : U32} (hend : ¬ tcpSeqGt a b.endSeq) (hgt : tcpSeqGt a p.sndNxt)
    (hfar : a - b.endSeq ≠ 2147483648#32) : p.state ≠ .finWait2 ∧ p.state ≠ .timeWait := by
  rw [← not_or]
  intro hs
  obtain ⟨hlt, hle⟩ := h.recover_ahead hsmall hbuf (.inr hs) hend hgt hfar
  obtain ⟨-, hempty, -⟩ := h.finished hs
  omega

/-- The place behind a segment of `n` sequence numbers. -/
theorem sent_ahead {n : ℕ} (hlt : p.ahead + n < 2 ^ 32) :
    (p.sndNxt + BitVec.ofNat 32 n - p.base).toNat = p.ahead + n := by
  have hsum : p.sndNxt + BitVec.ofNat 32 n = seqAt p.base (p.ahead + n) := by
    rw [seqAt_add, ← sndNxt_eq]
  rw [hsum, toNat_seqAt_sub hlt]

/-- The FIN is only sent behind the buffered bytes. -/
theorem Ordered.fin_due (h : Ordered p) (hlisted : Listed p) (hsmall : p.buffered + 1 < 2 ^ 31)
    (hon : p.onControlList = true)
    (hstate : (p.state = .finWait1 ∨ p.state = .lastAck) ∨
      p.state = .closing ∧ (p.isFinSent = true → p.sndNxt = p.fss)) :
    p.state.sends ∧ p.state.closes ∧ p.ahead ≤ p.buffered := by
  rcases hstate with hs | ⟨hs, hagain⟩
  · have hsends : p.state.sends := by rcases hs with hs | hs <;> simp [hs, TcpState.sends]
    refine ⟨hsends, by rcases hs with hs | hs <;> simp [hs, TcpState.closes], ?_⟩
    have hle := h.ahead_le (.inl hsends)
    have hne := mt (h.finOut_iff hsmall hs).mpr (hlisted.control hon)
    omega
  · have hsends : p.state.sends := by simp [hs, TcpState.sends]
    refine ⟨hsends, by simp [hs, TcpState.closes], ?_⟩
    have hwin := (h.window hsends).2
    cases hsent : p.isFinSent with
    | false => simpa [hsent] using hwin
    | true =>
      have hle := h.ahead_le (.inl hsends)
      have hfss := h.final hsends (.inl (by simp [hs, TcpState.leaving]))
      have heq := hagain hsent
      rw [hfss, sndNxt_eq p, Endpoint.endSeq, seqAt_inj (by omega) (by omega)] at heq
      omega

end

/-! ### Every effect -/

/-- The hazards that the order of the sequence numbers does not survive. -/
structure OrderSafe (avoid : Hazard → Prop) : Prop where
  synEstablished : avoid .synEstablished
  pureAck : avoid .pureAck
  staleRewind : avoid .staleRewind
  farAck : avoid .farAck
  finBehindQueue : avoid .finBehindQueue
  finRequeued : avoid .finRequeued
  noMemory : avoid .noMemory
  bigBuffer : avoid .bigBuffer
  acceptClosed : avoid .acceptClosed

/-- A live stream in a run without these hazards. -/
structure Sending (avoid : Hazard → Prop) (p : Endpoint) : Prop where
  sender : Sender avoid p
  opening : Opening True (fun _ => True) p
  closing : Closing p
  reason : p.closeReason ≠ .noMem
  ordered : Ordered p
  listed : Listed p

section
variable {sg : Option Segment} {p q : Endpoint}

theorem Sending.small (ha : OrderSafe avoid) (h : Sending avoid p) : p.buffered + 1 < 2 ^ 31 :=
  h.sender.small ha.bigBuffer

/-- A stream in the close queue is established, or closed already. -/
theorem Sending.state_of_queued (h : Sending avoid p) (hq : 0 < p.closeq + p.closeqInt) :
    (p.state = .established ∨ p.state = .closeWait) ∧ p.isFinSent = false ∨ p.state = .closed := by
  have hsent := (h.closing.queued hq).2
  rcases p.state.opens_or with hs | hs | (hs | hs | hs | hs | hs) | hs
  · have := h.closing.opening hs
    omega
  · exact .inr hs
  · exact .inl ⟨.inl hs, hsent⟩
  · exact .inl ⟨.inr hs, hsent⟩
  · have := (h.closing.leaving (.inl hs)).2
    omega
  · have := (h.closing.leaving (.inr (.inr (.inl hs)))).2
    omega
  · have := (h.closing.leaving (.inr (.inr (.inr hs)))).2
    omega
  · have := (h.ordered.finished hs).1
    simp [hsent] at this

theorem closingState_sends {s : TcpState} (hs : s = .established ∨ s = .closeWait) :
    (closingState s).sends := by
  rcases hs with rfl | rfl <;> simp [closingState, TcpState.sends]

/-- Without a buffer nothing was sent either. -/
theorem Ordered.finalSeq_eq (h : Ordered p) (hstate : p.state.sends) (hsent : p.isFinSent = false) :
    p.finalSeq = p.endSeq := by
  unfold Endpoint.finalSeq
  cases hb : p.sndbuf with
  | some b => exact (endSeq_some hb).symm
  | none =>
    have hzero : p.buffered = 0 := by simp [Endpoint.buffered, hb]
    have hle := (h.window hstate).2
    have hahead : p.ahead = 0 := by simpa [hzero, hsent] using hle
    simp only
    rw [sndNxt_eq p, hahead, Endpoint.endSeq, hzero]

theorem Sending.ordered_dequeueClose (h : Sending avoid p) (hq : 0 < p.closeq)
    (hlive : p.dequeueClose.live = true) : Ordered p.dequeueClose := by
  have hcases := p.dequeueClose_cases
  generalize p.dequeueClose = q at hcases hlive ⊢
  rcases h.state_of_queued (Nat.add_pos_left hq _) with ⟨hstate, hsent⟩ | hclosed
  · have hsends : p.state.sends := by rcases hstate with hs | hs <;> simp [hs, TcpState.sends]
    have hfinal := h.ordered.finalSeq_eq hsends hsent
    have hunsent : ∀ {P : Prop}, p.isFinSent = true → P := fun hs => by simp [hsent] at hs
    cases hcases with
    | freed => cases hlive
    | kept | requeued => exact h.ordered.moved hsends rfl hsends (fun _ => hfinal) hunsent
    | waits | closes =>
      exact h.ordered.moved hsends rfl (closingState_sends hstate) (fun _ => hfinal) hunsent
  · refine .closed ?_
    cases hcases with
    | freed => cases hlive
    | kept | requeued => exact hclosed
    | waits | closes => simp [hclosed, closingState]

theorem Sending.ordered_dequeueCloseInt (h : Sending avoid p) (hq : 0 < p.closeqInt) :
    Ordered p.dequeueCloseInt := by
  have hcases := p.dequeueCloseInt_cases
  generalize p.dequeueCloseInt = q at hcases ⊢
  rcases h.state_of_queued (Nat.add_pos_right _ hq) with ⟨hstate, hsent⟩ | hclosed
  · have hsends : p.state.sends := by rcases hstate with hs | hs <;> simp [hs, TcpState.sends]
    have hfinal := h.ordered.final hsends (.inr hq)
    have hunsent : ∀ {P : Prop}, p.isFinSent = true → P := fun hs => by simp [hsent] at hs
    cases hcases with
    | deferred => exact h.ordered
    | closes =>
      exact h.ordered.moved hsends rfl (closingState_sends hstate) (fun _ => hfinal) hunsent
    | kept => exact h.ordered.moved hsends rfl hsends (fun _ => hfinal) hunsent
  · refine .closed ?_
    cases hcases with
    | deferred | kept => exact hclosed
    | closes hopen => exact absurd hclosed hopen

theorem Ordered.resetTaken (h : Ordered p) (hlive : p.resetTaken.live = true) :
    Ordered p.resetTaken := by
  have hcases := p.resetTaken_cases
  generalize p.resetTaken = q at hcases hlive ⊢
  cases hcases with
  | freed => cases hlive
  | kept => exact h
  | requeued => exact h.congr rfl rfl rfl rfl
  | resets => exact .closed rfl

theorem Ordered.dequeueResetInt (h : Ordered p) : Ordered p.dequeueResetInt := by
  have hcases := p.dequeueResetInt_cases
  generalize p.dequeueResetInt = q at hcases ⊢
  cases hcases with
  | deferred => exact h
  | resets => exact .closed rfl
  | kept => exact h.congr rfl rfl rfl rfl

theorem Ordered.abort (h : Ordered p) : Ordered p.abort := by
  have hcases := p.abort_cases
  generalize p.abort = q at hcases ⊢
  cases hcases with
  | unmapped => exact h
  | closed | queued | resets => exact h.congr rfl rfl rfl rfl
  | closes => exact .closed rfl

/-- A stream that is written to is established and has not been closed. -/
theorem Sending.ordered_write (h : Sending avoid p)
    (hstate : p.state = .established ∨ p.state = .closeWait) (hmap : p.smap = true)
    (hq : q = { p with
      sndbuf := q.sndbuf, trace := q.trace, onSendq := q.onSendq, sendq := q.sendq })
    (hbase : q.base = p.base) (hlen : p.buffered ≤ q.buffered) : Ordered q := by
  have hsends : p.state.sends := by rcases hstate with hs | hs <;> simp [hs, TcpState.sends]
  have hleaving : ¬ p.state.leaving := by
    rcases hstate with hs | hs <;> simp [hs, TcpState.leaving]
  have hopen : ¬ 0 < p.closeqInt := by
    intro hpos
    have hclosed := (h.closing.queued (Nat.add_pos_right _ hpos)).1
    simp [h.closing.unmapped hclosed] at hmap
  obtain ⟨huna, hahead⟩ := h.ordered.window hsends
  have hs : q.state = p.state := congrArg (·.state) hq
  have hu : q.sndUna = p.sndUna := congrArg (·.sndUna) hq
  have hn : q.sndNxt = p.sndNxt := congrArg (·.sndNxt) hq
  have hf : q.isFinSent = p.isFinSent := congrArg (·.isFinSent) hq
  have hqi : q.closeqInt = p.closeqInt := congrArg (·.closeqInt) hq
  refine ⟨fun _ => ⟨by rw [hu, hbase, huna], ?_⟩, fun hfin => ?_, fun _ hfin => ?_, ?_⟩
  · rw [Endpoint.ahead, hbase, hn, hf]
    change p.ahead ≤ _
    omega
  · rw [hs] at hfin
    rcases hstate with h | h <;> simp [h] at hfin
  · rw [hs, hqi] at hfin
    exact absurd hfin (not_or.mpr ⟨hleaving, hopen⟩)
  · rw [hs, hf]
    exact h.ordered.unsent

theorem Sending.ordered_effect (ha : OrderSafe avoid) (h : Sending avoid p) (hp : p.live = true)
    (heff : Effect avoid sg p q) (hlive : q.live = true) : Ordered q := by
  have hord := h.ordered
  have hsmall := h.small ha
  have hsame : ∀ {q : Endpoint}, q.numbers = p.numbers → q.fss = p.fss →
      q.closeqInt = p.closeqInt → q.state = p.state → Ordered q := hord.congr
  cases heff with
  | @payload c env seg _ _ hmem =>
    rw [(processTCPPayload_takes seg.payload seg.seq hmem).frame]
    exact hsame rfl rfl rfl rfl
  | @read c b len =>
    rw [core_copyToUser]
    exact hsame rfl rfl rfl rfl
  | control | queueAck | restartTimewait | sendAck | leaveControl | flushFault | dupAck | rstSeen
  | rtoIgnored | rtoStray | connectq | sendq | ackq | closeListener | finLate =>
    exact hsame rfl rfl rfl rfl
  | synEstablished _ _ hack =>
    refine hsame ?_ rfl rfl rfl
    simp only [Endpoint.numbers, hack ha.synEstablished]
  | dataDone =>
    rw [Endpoint.leaveSend_frame]
    exact hsame rfl rfl rfl rfl
  | ackDone =>
    rw [Endpoint.leaveAck_frame]
    exact hsame rfl rfl rfl rfl
  | accept =>
    rw [Endpoint.accept_frame]
    exact hsame rfl rfl rfl rfl
  | close =>
    rw [Endpoint.close_frame]
    exact hsame rfl rfl rfl rfl
  | noMem _ hno | writeNoMem hno => exact absurd ha.noMemory hno
  | pureAck _ hno => exact absurd ha.pureAck hno
  | rtoLost | timedOut => exact .closed rfl
  | sendReset | answeredOrphan | lastAcked | rstHandshake | rstClosing | rtoDestroy
  | timewaitExpired | timedOutOrphan | destroyq => cases hlive
  -- the handshake
  | sendHandshake hstate =>
    have hopens : p.state.opens = true := by
      rcases hstate with hs | ⟨hs, -⟩ <;> simp [hs, TcpState.opens]
    exact .opening hopens (hord.unsent_opens hopens)
  | rewindSynAck hstate | synRcvdBare hstate =>
    have hopens : p.state.opens = true := by simp [hstate, TcpState.opens]
    exact .opening hopens (hord.unsent_opens hopens)
  | synOnly hstate | listenSyn hstate =>
    exact .opening rfl (hord.unsent_opens (by simp [hstate, TcpState.opens]))
  | synAck _ hstate _ hlo hhi =>
    obtain ⟨-, huna, hbuf, -, -, hqi, honce⟩ := h.opening.synSent hp hstate
    have hack := synAck_acks_syn hlo hhi honce.sndNxt
    exact .established (.inl rfl) hbuf (congrArg (· + 1) huna) hack
      (hord.unsent_opens (by simp [hstate, TcpState.opens])) hqi
  | rstAck _ hstate _ _ _ hlo hhi =>
    obtain ⟨-, huna, hbuf, -, -, hqi, honce⟩ := h.opening.synSent hp hstate
    have hnxt := synSent_of_acked hlo hhi honce.sndNxt
    exact .established (.inr rfl) hbuf (congrArg (· + 1) huna) hnxt
      (hord.unsent_opens (by simp [hstate, TcpState.opens])) hqi
  | handshake answer _ hstate =>
    obtain ⟨-, huna, hbuf⟩ := h.opening.synRcvd hp hstate
    have hopens : p.state.opens = true := by simp [hstate, TcpState.opens]
    have hnone := h.closing.opening hopens
    by_cases hfull : answer = .full
    · exact .closed (if_pos hfull)
    · exact .established (.inl (if_neg hfull)) hbuf (congrArg (· + 1) huna) rfl
        (hord.unsent_opens hopens) (Nat.eq_zero_of_add_eq_zero_left hnone)
  -- the closing handshake
  | finEstablished _ hstate =>
    have hs : p.state = .established := hstate.resolve_right fun hno => h.reason hno.2
    have hsends : p.state.sends := by simp [hs, TcpState.sends]
    refine hord.moved hsends rfl (by simp [TcpState.sends]) (fun hfin => ?_) fun hsent => ?_
    · exact hord.final hsends (.inr (hfin.resolve_left (by simp [TcpState.leaving])))
    · have := hord.unsent hsent
      simp [hs, TcpState.closes] at this
  | rstEstablished _ _ _ hstate =>
    have hsends : p.state.sends := by rcases hstate with hs | hs <;> simp [hs, TcpState.sends]
    refine hord.moved hsends rfl (by simp [TcpState.sends]) (fun hfin => ?_) fun hsent => ?_
    · exact hord.final hsends (.inr (hfin.resolve_left (by simp [TcpState.leaving])))
    · have := hord.unsent hsent
      rcases hstate with hs | hs <;> simp [hs, TcpState.closes] at this
  | finClosing _ hstate =>
    have hsends : p.state.sends := by simp [hstate, TcpState.sends]
    refine hord.moved hsends rfl (by simp [TcpState.sends]) (fun _ => ?_) fun _ => ?_
    · exact hord.final hsends (.inl (by simp [hstate, TcpState.leaving]))
    · simp [TcpState.closes]
  | finAcked _ hstate _ hsent hack hdrained =>
    exact hord.finAcked hsmall (.inl hstate) hsent hdrained hack rfl rfl rfl (.inr rfl) rfl rfl
      (.inl rfl)
  | closingAcked _ hstate _ hsent hack hdrained =>
    exact hord.finAcked hsmall (.inr hstate) hsent hdrained hack rfl rfl rfl (.inl rfl) rfl rfl
      (.inr rfl)
  | finTimewait _ hstate =>
    have hs : p.state = .finWait2 := hstate.resolve_right fun hno => h.reason hno.2
    have hdone := hord.finished (.inl hs)
    exact ⟨fun hs => by simp [TcpState.sends] at hs, fun _ => hdone,
      fun hs => by simp [TcpState.sends] at hs, fun _ => by simp [TcpState.closes]⟩
  -- `snd_nxt`
  | sendFin hstate hon =>
    obtain ⟨hsends, hcloses, hle⟩ := hord.fin_due h.listed hsmall hon (hstate.imp_left And.left)
    have hbusy : p.state ≠ .finWait2 ∧ p.state ≠ .timeWait := by
      rcases hstate with ⟨hs | hs, -⟩ | ⟨hs, -⟩ <;> simp [hs]
    refine hord.renumbered rfl rfl rfl rfl rfl rfl hbusy (fun _ => ?_) fun _ => .inl hcloses
    have hahead : (p.sndNxt + 1 - p.base).toNat = p.ahead + 1 := sent_ahead (n := 1) (by omega)
    change (p.sndNxt + 1 - p.base).toNat ≤ p.buffered + 1
    omega
  | @data p t b hstate _ hbuf _ _ hlen =>
    have hsends : p.state.sends := by rcases hstate with hs | hs | hs | hs <;> simp [hs, TcpState.sends]
    have hbusy : p.state ≠ .finWait2 ∧ p.state ≠ .timeWait := by
      rcases hstate with hs | hs | hs | hs <;> simp [hs]
    rw [← base_some hbuf, ← buffered_some hbuf] at hlen
    refine hord.renumbered rfl rfl rfl rfl rfl rfl hbusy (fun _ => ?_) hord.unsent
    have hahead := sent_ahead (p := p) (n := t.payload.length) (by unfold Endpoint.ahead; omega)
    change (p.sndNxt + BitVec.ofNat 32 t.payload.length - p.base).toNat ≤
      p.buffered + p.isFinSent.toNat
    rw [hahead, Endpoint.ahead]
    omega
  | rewind hbuf _ hlt hstale =>
    have hfresh := hstale ha.staleRewind
    refine hord.renumbered rfl rfl rfl rfl rfl rfl (hord.rewind_busy hlt hfresh) (fun hs => ?_)
      hord.unsent
    have hback := hord.rewind_ahead hsmall hs hlt hfresh
    exact hback.le.trans (hord.window hs).2
  | recover hbuf hend hgt hfar =>
    have hfar := hfar ha.farAck
    refine hord.renumbered rfl rfl rfl rfl rfl rfl (hord.recover_busy hsmall hbuf hend hgt hfar)
      (fun hs => ?_) hord.unsent
    exact Nat.le_add_right_of_le (hord.recover_ahead hsmall hbuf (.inl hs) hend hgt hfar).2
  | acked hbuf hend hhead hnxt hfar =>
    exact hord.acked hsmall hbuf (h.opening.state_of_buffer hp hbuf) hend hhead hnxt (hfar ha.farAck) _
  | rtoRewind _ _ hstate =>
    rw [Endpoint.requeue_frame]
    refine hord.renumbered rfl rfl rfl rfl rfl rfl hstate.2.2 (fun hs => ?_) hord.unsent
    have hzero : (p.sndUna - p.base).toNat = 0 := by simp [(hord.window hs).1]
    change (p.sndUna - p.base).toNat ≤ _
    omega
  -- the application
  | openBuffer hstate hmap hnone =>
    refine h.ordered_write hstate hmap rfl ?_ ?_
    · simp [Endpoint.base, hnone, sbInit]
    · simp [Endpoint.buffered, hnone]
  | @wrote p b b' bytes n hstate hmap _ hbuf hput hn =>
    rw [Endpoint.enqueueSend_frame]
    obtain ⟨hlen, hhead⟩ : b.len ≤ b'.len ∧ b'.headSeq = b.headSeq := by
      rcases sbPut_shape hput with ⟨hle, -⟩ | ⟨-, -, -, hl, hh, -⟩
      · omega
      · exact ⟨by omega, hh⟩
    refine h.ordered_write hstate hmap rfl ?_ ?_
    · rw [base_some hbuf, base_some (b := b') rfl, hhead]
    · rw [buffered_some hbuf, buffered_some (b := b') rfl]
      exact hlen
  | closeq hq => exact h.ordered_dequeueClose hq hlive
  | closeqInt hq => exact h.ordered_dequeueCloseInt hq
  | resetq =>
    have htaken : Ordered { p with resetq := p.resetq - 1, onResetq := false } :=
      hsame rfl rfl rfl rfl
    exact htaken.resetTaken hlive
  | resetqInt => exact hord.dequeueResetInt
  | abort => exact hord.abort

theorem Effect.reason (hmem : avoid .noMemory) (heff : Effect avoid sg p q)
    (hlive : q.live = true) (h : p.closeReason ≠ .noMem) : q.closeReason ≠ .noMem := by
  cases heff with
  | @payload c env seg _ _ hmem =>
    rw [(processTCPPayload_takes seg.payload seg.seq hmem).frame]
    exact h
  | @read c b len =>
    rw [core_copyToUser]
    exact h
  | noMem _ hno | writeNoMem hno => exact absurd hmem hno
  | rstAck | rstEstablished | timedOut => simp
  | rtoLost reason hreason => rcases hreason with rfl | rfl <;> simp
  | handshake answer =>
    by_cases hfull : answer = .full
    · simp [hfull]
    · simpa [hfull] using h
  | sendReset | answeredOrphan | lastAcked | rstHandshake | rstClosing | rtoDestroy
  | timewaitExpired | timedOutOrphan | destroyq => cases hlive
  | dataDone =>
    rw [Endpoint.leaveSend_frame]
    exact h
  | ackDone =>
    rw [Endpoint.leaveAck_frame]
    exact h
  | rtoRewind =>
    rw [Endpoint.requeue_frame]
    exact h
  | accept =>
    rw [Endpoint.accept_frame]
    exact h
  | wrote =>
    rw [Endpoint.enqueueSend_frame]
    exact h
  | close =>
    rw [Endpoint.close_frame]
    exact h
  | closeq =>
    rw [Endpoint.dequeueClose_frame hlive]
    exact h
  | closeqInt =>
    rw [Endpoint.dequeueCloseInt_frame]
    exact h
  | resetq =>
    have hcases := p.dequeueReset_cases
    generalize p.dequeueReset = q at hcases hlive ⊢
    cases hcases with
    | freed => cases hlive
    | kept | requeued => exact h
    | resets => simp
  | resetqInt =>
    have hcases := p.dequeueResetInt_cases
    generalize p.dequeueResetInt = q at hcases ⊢
    cases hcases with
    | deferred | kept => exact h
    | resets => simp
  | abort =>
    have hcases := p.abort_cases
    generalize p.abort = q at hcases ⊢
    cases hcases with
    | unmapped | closed | queued | resets => exact h
    | closes => simp
  | _ => exact h

/-! ### Effects on the lists -/

theorem Listed.quiet (hout : ¬ finOut q.state q.sndNxt q.fss) (hle : q.sendq ≤ 1)
    (hflag : 0 < q.sendq → q.onSendq = true) : Listed q :=
  ⟨fun _ => hout, fun h => absurd h hout, hle, hflag⟩

theorem Listed.congr (h : Listed p) (hstate : q.state = p.state) (hnxt : q.sndNxt = p.sndNxt)
    (hfss : q.fss = p.fss)
    (hon : q.onControlList = true → p.onControlList = true ∨ ¬ finOut p.state p.sndNxt p.fss)
    (hsend : p.onSendList = false → q.onSendList = false) (hq : q.onSendq = p.onSendq)
    (hn : q.sendq = p.sendq) : Listed q := by
  refine ⟨?_, ?_, ?_, ?_⟩
  · rw [hstate, hnxt, hfss]
    exact fun hc => (hon hc).elim h.control id
  · rw [hstate, hnxt, hfss, hq]
    exact fun hout => ⟨hsend (h.out hout).1, (h.out hout).2⟩
  · rw [hn]
    exact h.sendq_le
  · rw [hn, hq]
    exact h.flagged

theorem Ordered.not_finOut_of_unsent (h : Ordered p) (hsmall : p.buffered + 1 < 2 ^ 31)
    (hsent : p.isFinSent = false) : ¬ finOut p.state p.sndNxt p.fss := by
  intro hout
  have hsends : p.state.sends := by rcases hout.1 with hs | hs <;> simp [hs, TcpState.sends]
  have hle := (h.window hsends).2
  rw [hsent] at hle
  exact h.not_finOut hsmall hle hout

/-- The FIN of a stream on the send list is not out. -/
theorem Listed.leaveSend (h : Listed p) (hon : p.onSendList = true) : Listed p.leaveSend := by
  have hfin : ¬ finOut p.state p.sndNxt p.fss := fun hout => by
    simp [(h.out hout).1] at hon
  rw [Endpoint.leaveSend_frame]
  exact .quiet hfin h.sendq_le h.flagged

theorem Listed.leaveAck (h : Listed p) (stays : Bool)
    (hfin : p.waiting = true → p.onSendList = false → p.onControlList = false →
      ¬ finOut p.state p.sndNxt p.fss) : Listed (p.leaveAck stays) := by
  unfold Endpoint.leaveAck Endpoint.release
  simp only
  split
  case isTrue hrel =>
    obtain ⟨hwait, hsend⟩ := Bool.and_eq_true_iff.mp hrel
    refine h.congr rfl rfl rfl (fun _ => ?_) id rfl rfl
    cases hc : p.onControlList with
    | true => exact .inl rfl
    | false => exact .inr (hfin hwait (by simpa using hsend) hc)
  case isFalse => exact h.congr rfl rfl rfl .inl id rfl rfl

theorem Listed.dequeueSend (h : Listed p) (hq : 0 < p.sendq) : Listed p.dequeueSend := by
  refine .quiet (fun hout => ?_) (Nat.le_trans (Nat.sub_le _ _) h.sendq_le) fun hpos => ?_
  · have hoff := (h.out hout).2
    simp [h.flagged hq] at hoff
  · have hle := h.sendq_le
    simp only [Endpoint.dequeueSend] at hpos
    omega

theorem Listed.enqueueSend (h : Listed p) (hout : ¬ finOut p.state p.sndNxt p.fss) :
    Listed p.enqueueSend := by
  unfold Endpoint.enqueueSend
  split
  case isTrue => exact h
  case isFalse hoff =>
    refine .quiet hout ?_ fun _ => rfl
    have hzero : p.sendq = 0 := by
      by_contra hpos
      have := h.flagged (Nat.pos_of_ne_zero hpos)
      simp [this] at hoff
    simp only
    omega

theorem Listed.resetTaken (h : Listed p) (hlive : p.resetTaken.live = true) :
    Listed p.resetTaken := by
  have hcases := p.resetTaken_cases
  generalize p.resetTaken = q at hcases hlive ⊢
  cases hcases with
  | freed => cases hlive
  | kept => exact h
  | requeued => exact h.congr rfl rfl rfl .inl id rfl rfl
  | resets => exact .quiet (by simp [finOut]) h.sendq_le h.flagged

theorem Listed.dequeueResetInt (h : Listed p) : Listed p.dequeueResetInt := by
  have hcases := p.dequeueResetInt_cases
  generalize p.dequeueResetInt = q at hcases ⊢
  cases hcases with
  | deferred => exact h
  | resets => exact .quiet (by simp [finOut]) h.sendq_le h.flagged
  | kept => exact h.congr rfl rfl rfl .inl id rfl rfl

theorem Listed.abort (h : Listed p) : Listed p.abort := by
  have hcases := p.abort_cases
  generalize p.abort = q at hcases ⊢
  cases hcases with
  | unmapped => exact h
  | closed | queued | resets => exact h.congr rfl rfl rfl .inl id rfl rfl
  | closes => exact .quiet (by simp [finOut]) h.sendq_le h.flagged

theorem Sending.listed_effect (ha : OrderSafe avoid) (h : Sending avoid p)
    (heff : Effect avoid sg p q) (hlive : q.live = true) (hord : Ordered q)
    (hsmall : q.buffered + 1 < 2 ^ 31) : Listed q := by
  have hlist := h.listed
  have hle := hlist.sendq_le
  have hflag := hlist.flagged
  cases heff with
  | @payload c env seg _ _ hmem =>
    rw [(processTCPPayload_takes seg.payload seg.seq hmem).frame]
    exact hlist.congr rfl rfl rfl .inl id rfl rfl
  | @read c b len =>
    rw [core_copyToUser]
    exact hlist.congr rfl rfl rfl .inl id rfl rfl
  | queueAck | restartTimewait | sendAck | flushFault | dupAck | rstSeen | rtoIgnored | rtoStray
  | ackq | closeListener | acked | openBuffer =>
    exact hlist.congr rfl rfl rfl .inl id rfl rfl
  | control _ hfin | connectq _ hfin =>
    refine hlist.congr rfl rfl rfl (fun _ => ?_) id rfl rfl
    cases hc : p.onControlList with
    | true => exact .inl rfl
    | false => exact .inr (hfin ha.finRequeued hc)
  | leaveControl => exact hlist.congr rfl rfl rfl (by simp) id rfl rfl
  | accept =>
    rw [Endpoint.accept_frame]
    exact hlist.congr rfl rfl rfl .inl id rfl rfl
  | close =>
    rw [Endpoint.close_frame]
    exact hlist.congr rfl rfl rfl .inl id rfl rfl
  | dataDone hon => exact hlist.leaveSend hon
  | ackDone _ hfin => exact hlist.leaveAck _ (hfin ha.finRequeued)
  | noMem _ hno | writeNoMem hno => exact absurd ha.noMemory hno
  | pureAck _ hno => exact absurd ha.pureAck hno
  -- the FIN is not out in these states
  | sendHandshake hstate =>
    exact .quiet (by rcases hstate with hs | ⟨hs, -⟩ <;> simp [finOut, Endpoint.act, hs]) hle hflag
  | rewindSynAck hstate | synRcvdBare hstate | synEstablished _ hstate | finLate _ hstate =>
    exact .quiet (by simp [finOut, hstate]) hle hflag
  | synOnly | listenSyn | synAck | rstAck | finEstablished | rstEstablished | finClosing | finAcked
  | finTimewait | closingAcked | rtoLost | timedOut => exact .quiet (by simp [finOut]) hle hflag
  | handshake answer => exact .quiet (by cases answer <;> simp [finOut]) hle hflag
  -- the FIN is not out at these places
  | sendFin hstate =>
    refine ⟨by simp [Endpoint.act], fun hout => ?_, hle, hflag⟩
    rcases hstate with ⟨-, hsend, -, hq⟩ | ⟨hs, -⟩
    · exact ⟨hsend, hq ha.finBehindQueue⟩
    · simp [finOut, Endpoint.act, hs] at hout
  | @data p t b _ _ hbuf _ _ hlen =>
    rw [← base_some hbuf, ← buffered_some hbuf] at hlen
    have hfit : p.ahead + t.payload.length ≤ p.buffered := hlen
    have hold := h.small ha
    have hahead := sent_ahead (p := p) (n := t.payload.length) (by omega)
    exact .quiet (hord.not_finOut hsmall (hahead.trans_le hfit)) hle hflag
  | rewind _ _ hlt hstale =>
    refine .quiet (fun hout => ?_) hle hflag
    have hsends : p.state.sends := by rcases hout.1 with hs | hs <;> simp_all [TcpState.sends]
    have hback := h.ordered.rewind_ahead (h.small ha) hsends hlt (hstale ha.staleRewind)
    have hmax := h.ordered.ahead_le (.inl hsends)
    exact hord.not_finOut hsmall (Nat.le_of_lt_succ (hback.trans_le hmax)) hout
  | recover hbuf hend hgt hfar =>
    refine .quiet (fun hout => ?_) hle hflag
    have hsends : p.state.sends := by rcases hout.1 with hs | hs <;> simp_all [TcpState.sends]
    have hon := h.ordered.recover_ahead (h.small ha) hbuf (.inl hsends) hend hgt (hfar ha.farAck)
    exact hord.not_finOut hsmall hon.2 hout
  | rtoRewind =>
    rw [Endpoint.requeue_frame] at hord hsmall ⊢
    refine .quiet (fun hout => ?_) hle hflag
    have hsends : p.state.sends := by rcases hout.1 with hs | hs <;> simp_all [TcpState.sends]
    have hzero : (p.sndUna - p.base).toNat = 0 := by simp [(h.ordered.window hsends).1]
    exact hord.not_finOut hsmall (hzero.trans_le (Nat.zero_le _)) hout
  | closeq hq =>
    have hsent := (h.closing.queued (Nat.add_pos_left hq _)).2
    rw [Endpoint.dequeueClose_frame hlive] at hord hsmall ⊢
    exact .quiet (hord.not_finOut_of_unsent hsmall hsent) hle hflag
  | closeqInt hq =>
    have hsent := (h.closing.queued (Nat.add_pos_right _ hq)).2
    rw [Endpoint.dequeueCloseInt_frame] at hord hsmall ⊢
    exact .quiet (hord.not_finOut_of_unsent hsmall hsent) hle hflag
  | sendq hq => exact hlist.dequeueSend hq
  | wrote hstate =>
    have hopen : ¬ finOut p.state p.sndNxt p.fss := by
      rcases hstate with hs | hs <;> simp [finOut, hs]
    exact Listed.enqueueSend (hlist.congr rfl rfl rfl .inl id rfl rfl) hopen
  | resetq =>
    have htaken : Listed { p with resetq := p.resetq - 1, onResetq := false } :=
      hlist.congr rfl rfl rfl .inl id rfl rfl
    exact htaken.resetTaken hlive
  | resetqInt => exact hlist.dequeueResetInt
  | abort => exact hlist.abort
  | sendReset | answeredOrphan | lastAcked | rstHandshake | rstClosing | rtoDestroy
  | timewaitExpired | timedOutOrphan | destroyq => cases hlive

theorem Sending.effect (ha : OrderSafe avoid) (h : Sending avoid p) (hp : p.live = true)
    (heff : Effect avoid sg p q) (hlive : q.live = true) : Sending avoid q := by
  have hsender := h.sender.effect heff hlive
  have hord := h.ordered_effect ha hp heff hlive
  exact ⟨hsender, h.opening.effect ha.pureAck (.inr fun _ => trivial) heff,
    h.closing.effect ha.acceptClosed heff hlive, heff.reason ha.noMemory hlive h.reason, hord,
    h.listed_effect ha heff hlive hord (hsender.small ha.bigBuffer)⟩

end

/-! ## Runs -/

theorem Born.opening {B : U32 → Prop} {c : Conn} (hborn : Born c)
    (hsyn : c.state = .synRcvd → B c.irs) : Opening True B c.core := by
  cases hborn with
  | active cfg iss socket sid sh queued =>
    rw [core_mtcpConnect]
    refine ⟨fun _ _ => ⟨trivial, rfl, rfl, rfl, rfl, rfl, .inl ⟨?_, rfl, rfl, rfl⟩⟩, nofun, nofun⟩
    cases queued <;> simp
  | passive env iss sid sh seg hseg =>
    have hcore := core_handlePassiveOpen env iss sid sh hseg
    have hirs := hsyn (congrArg (·.state) hcore)
    change B (Conn.core _).irs at hirs
    rw [hcore] at hirs ⊢
    exact ⟨nofun, fun _ _ => ⟨hirs, rfl, rfl⟩, nofun⟩

theorem Born.sending {c : Conn} (hborn : Born c) : Sending avoid c.core := by
  have hopens := hborn.fresh.opens
  have hq := hborn.fresh.sendq
  have hord : Ordered c.core := .opening hopens hborn.fresh.isFinSent
  refine ⟨hborn.sender, hborn.opening fun _ => trivial, hborn.closing, ?_, hord, .quiet ?_ ?_ ?_⟩
  · rw [hborn.fresh.closeReason]
    exact nofun
  · rintro ⟨hs | hs, -⟩ <;> rw [hs] at hopens <;> cases hopens
  · omega
  · omega

theorem Reached.sending {c : Conn} (ha : OrderSafe avoid) (hreached : Reached avoid c)
    (hlive : c.onHashTable = true) : Sending avoid c.core := by
  refine hreached.invariant (P := fun p => p.live = true → Sending avoid p)
    (fun hborn _ => hborn.sending) (fun heff h hl => ?_) hlive
  have hp := (heff.moves hl).1
  exact (h hp).effect ha hp heff hl

end MtcpStack
