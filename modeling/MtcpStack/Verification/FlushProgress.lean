import MtcpStack.Verification.Adjustments
import MtcpStack.Verification.SentData

/-! # Progress of the flush loop

A round of the loop that goes on has sent bytes, unless the peer has announced exactly the segment
size that the options fill. Then the loop goes on without sending any, if it goes on at all. -/

namespace MtcpStack

variable {env : Env} {b : SendBuffer} {packets : ℤ} {c d : Conn}

/-- `snd_una = head_seq <= snd_nxt <= head_seq + len`. -/
structure FlushWindow (b : SendBuffer) (c : Conn) : Prop where
  una_eq : c.sndUna = b.headSeq
  nxt_le : (c.sndNxt - b.headSeq).toNat ≤ b.len

/-- The stream, and the packets counted, when `k` rounds of the loop have gone on; `none` if the
loop was left before. -/
def flushRounds (env : Env) (b : SendBuffer) : ℕ → ℤ → Conn → Option (ℤ × Conn)
  | 0, packets, c => some (packets, c)
  | k + 1, packets, c =>
    let r := flushStep env b packets c
    match r.2 with
    | some _ => none
    | none => flushRounds env b k (packets + 1) r.1

/-! ## A round that goes on -/

/-- What a round has found and sent when the loop goes on. -/
structure FlushRound (env : Env) (b : SendBuffer) (c d : Conn) (t : TxSegment) : Prop where
  sent : sentSegments d.log = sentSegments c.log ++ [t]
  seq_eq : t.seq = c.sndNxt
  una_eq : d.sndUna = c.sndUna
  nxt_eq : d.sndNxt = c.sndNxt + BitVec.ofNat 32 t.payload.length
  mss_eq : d.mss = c.mss
  ahead : ¬ tcpSeqLt c.sndNxt b.headSeq
  waits : (c.sndNxt - b.headSeq).toNat < b.len
  window : 0 < remainingWindow c
  length_eq : t.payload.length = pktLen c (b.len - (c.sndNxt - b.headSeq).toNat) % 2 ^ 16
  fits : t.payload.length + 12 ≤ c.mss.toNat

theorem sendTCPPacket_fits {flags : TcpFlags} {payload : List U8}
    (h : 0 ≤ (sendTCPPacket env flags payload c).2) :
    payload.length + calculateOptionLength flags ≤ c.mss.toNat := by
  by_contra hlong
  rw [sendTCPPacket, if_pos (not_le.mp hlong)] at h
  have hneg : error < 0 := by decide
  exact absurd h (not_le.mpr hneg)

theorem flushStep_round (h : (flushStep env b packets c).2 = none) :
    ∃ t, FlushRound env b c (flushStep env b packets c).1 t := by
  have hround := flushStep_outcome env b packets c
  generalize flushStep env b packets c = r at h hround ⊢
  cases hround with
  | asserts | flushed | full | unread | refused => cases h
  | @sent payload hhead huna hlt hopen hslice hpos =>
    have hsent := sentSegments_sendTCPPacket env ackFlag payload c
    rw [if_neg (not_lt.2 hpos)] at hsent
    rcases core_sendTCPPacket env ackFlag payload c with ⟨hneg, -⟩ | ⟨-, hcore⟩
    · omega
    refine ⟨txSegment ackFlag payload c, hsent, rfl, congrArg (·.sndUna) hcore,
      congrArg (·.sndNxt) hcore, congrArg (·.mss) (gauge_sendTCPPacket env ackFlag payload c),
      hhead, hlt, ?_, Slice.slice_length hslice, sendTCPPacket_fits hpos⟩
    rw [windowFull, Bool.or_eq_false_iff, decide_eq_false_iff_not] at hopen
    exact not_le.1 hopen.1

namespace FlushRound

variable {t : TxSegment}

theorem length_eq_min (h : FlushRound env b c d t) :
    t.payload.length = min (min (b.len - (c.sndNxt - b.headSeq).toNat) (remainingWindow c).toNat)
      (c.mss.toNat - 12) := by
  have hfits := h.fits
  have hmss := c.mss.isLt
  have hopt : calculateOptionLength ackFlag = 12 := rfl
  have hroom : ¬ c.mss.toNat < 12 := by omega
  rw [h.length_eq]
  simp only [pktLen, hopt, if_neg hroom]
  exact Nat.mod_eq_of_lt (by omega)

/-- With room for a byte behind the options every segment carries one. -/
theorem payload_pos (h : FlushRound env b c d t) (hmss : c.mss ≠ 12) : 0 < t.payload.length := by
  have hwaits := h.waits
  have hwindow := h.window
  have hfits := h.fits
  have hne : c.mss.toNat ≠ 12 := fun heq => hmss (BitVec.eq_of_toNat_eq heq)
  rw [h.length_eq_min]
  omega

theorem offset_eq (h : FlushRound env b c d t) :
    (d.sndNxt - b.headSeq).toNat = (c.sndNxt - b.headSeq).toNat + t.payload.length := by
  have hahead := h.ahead
  have hfits := h.fits
  have hmss := c.mss.isLt
  have hhalf : (c.sndNxt - b.headSeq).toNat < 2 ^ 31 := by
    rw [tcpSeqLt, BitVec.toInt_neg_iff] at hahead
    omega
  have hsplit : d.sndNxt - b.headSeq = c.sndNxt - b.headSeq + BitVec.ofNat 32 t.payload.length := by
    rw [h.nxt_eq, BitVec.add_sub_comm]
  rw [hsplit, BitVec.toNat_add, BitVec.toNat_ofNat, Nat.mod_eq_of_lt (by omega : t.payload.length <
    2 ^ 32), Nat.mod_eq_of_lt (by omega)]

theorem flushWindow (h : FlushRound env b c d t) (hwin : FlushWindow b c) : FlushWindow b d where
  una_eq := h.una_eq.trans hwin.una_eq
  nxt_le := by
    have hlen := h.length_eq_min
    have hwaits := h.waits
    rw [h.offset_eq]
    omega

end FlushRound

/-! ## The loop -/

/-- What holds when `k` rounds have gone on: they have sent at least `k` bytes. -/
theorem flushRounds_window {k : ℕ} {p : ℤ} (hmss : c.mss ≠ 12) (hwin : FlushWindow b c)
    (hround : flushRounds env b k packets c = some (p, d)) :
    d.mss ≠ 12 ∧ FlushWindow b d ∧
      (c.sndNxt - b.headSeq).toNat + k ≤ (d.sndNxt - b.headSeq).toNat := by
  induction k generalizing packets c with
  | zero =>
      cases hround
      exact ⟨hmss, hwin, le_rfl⟩
  | succ k ih =>
      simp only [flushRounds] at hround
      split at hround
      case h_1 => cases hround
      case h_2 hgoes =>
        obtain ⟨t, ht⟩ := flushStep_round hgoes
        have hmss' : (flushStep env b packets c).1.mss ≠ 12 := ht.mss_eq.symm ▸ hmss
        obtain ⟨hd, hwin', hle⟩ := ih hmss' (ht.flushWindow hwin) hround
        have hpos := ht.payload_pos hmss
        rw [ht.offset_eq] at hle
        exact ⟨hd, hwin', by omega⟩

theorem flushRounds_le {k : ℕ} (hmss : c.mss ≠ 12) (hwin : FlushWindow b c)
    (hround : (flushRounds env b k packets c).isSome = true) : k ≤ b.len := by
  obtain ⟨⟨p, d⟩, hd⟩ := Option.isSome_iff_exists.mp hround
  obtain ⟨-, hwin', hle⟩ := flushRounds_window hmss hwin hd
  have := hwin'.nxt_le
  omega

/-- Fuel for one round more than those that go on is as good as any more of it. -/
theorem flushLoop_left {k fuel : ℕ} (hleft : flushRounds env b k packets c = none)
    (hfuel : k ≤ fuel) : flushLoop env b fuel packets c = flushLoop env b k packets c := by
  induction k generalizing fuel packets c with
  | zero => cases hleft
  | succ k ih =>
      obtain ⟨fuel, rfl⟩ : ∃ f, fuel = f + 1 := ⟨fuel - 1, by omega⟩
      cases hstep : (flushStep env b packets c).2 with
      | some ret => simp only [flushLoop, hstep]
      | none =>
        simp only [flushRounds, hstep] at hleft
        simp only [flushLoop, hstep]
        exact ih hleft (by omega)

/-- The options fill a segment, and nothing makes the loop end at once: bytes wait in the block
behind `snd_nxt`, the window is open and `IPOutput` takes the next segment. -/
structure Stalls (b : SendBuffer) (c : Conn) : Prop where
  mss_eq : c.mss = 12
  ahead : ¬ tcpSeqLt c.sndNxt b.headSeq
  waits : (c.sndNxt - b.headSeq).toNat < b.len
  window : windowFull c = false
  inside : b.head + (c.sndNxt - b.headSeq).toNat ≤ b.data.length
  taken : c.tx.head? = some true

theorem sendTCPPacket_empty_nonneg (env : Env) (hmss : c.mss = 12) :
    0 ≤ (sendTCPPacket env ackFlag [] c).2 ↔ c.tx.head? = some true := by
  have hfits : ¬ c.mss.toNat < ([] : List U8).length + calculateOptionLength ackFlag := by
    rw [hmss]
    decide
  rw [sendTCPPacket, if_neg hfits]
  split
  · next htx => simp [htx]
  · next htx => simp [htx]
  · next htx => simp [htx]

/-- With the options filling a segment the loop is left at once or stalls. -/
theorem flushStep_goes_iff (env : Env) (packets : ℤ) (hmss : c.mss = 12) (hwin : FlushWindow b c) :
    (flushStep env b packets c).2 = none ↔ Stalls b c := by
  have hpkt : ∀ n, pktLen c n % 2 ^ 16 = 0 := by
    intro n
    simp [pktLen, calculateOptionLength, ackFlag, TcpFlags.none, hmss]
  have hslice : Slice.slice b.data (b.head + (c.sndNxt - b.headSeq).toNat) 0 =
      if b.head + (c.sndNxt - b.headSeq).toNat ≤ b.data.length then some [] else none := by
    simp [Slice.slice]
  unfold flushStep
  simp only [hpkt, hslice, hwin.una_eq]
  constructor
  · intro hgoes
    split_ifs at hgoes with hhead hpast hdone hfull hinside
    have hsent : 0 ≤ (sendTCPPacket env ackFlag [] c).2 := by
      by_contra hrefused
      simp only [if_pos (not_le.mp hrefused)] at hgoes
      cases hgoes
    exact ⟨hmss, hhead, by omega, by simpa using hfull, hinside,
      (sendTCPPacket_empty_nonneg env hmss).mp hsent⟩
  · rintro ⟨-, hhead, hwaits, hopen, hinside, htaken⟩
    have hsent := (sendTCPPacket_empty_nonneg env hmss).mpr htaken
    rw [if_neg hhead, if_neg hhead, if_neg (by omega), if_neg (by omega), if_neg (by simp [hopen]),
      if_pos hinside]
    simp only [if_neg (not_lt.mpr hsent)]

/-- Every round leaves the loop or sends bytes and moves `snd_nxt` behind them, at most as many
rounds go on as there are bytes, and the loop is left, exactly when it does not stall. -/
theorem flush_progress (hwin : FlushWindow b c) :
    ((∀ k p d, flushRounds env b k packets c = some (p, d) →
      (flushStep env b p d).2.isSome = true ∨
        ∃ t, sentSegments (flushStep env b p d).1.log = sentSegments d.log ++ [t] ∧
          t.seq = d.sndNxt ∧ 0 < t.payload.length ∧
          (flushStep env b p d).1.sndNxt = d.sndNxt + BitVec.ofNat 32 t.payload.length) ∧
    (∀ k, (flushRounds env b k packets c).isSome = true → k ≤ b.len) ∧
    ∀ fuel, b.len < fuel →
      flushLoop env b fuel packets c = flushLoop env b (b.len + 1) packets c) ↔
    ¬ Stalls b c := by
  constructor
  · rintro ⟨hprogress, -⟩ hstalls
    have hgoes := (flushStep_goes_iff env packets hstalls.mss_eq hwin).mpr hstalls
    rcases hprogress 0 packets c rfl with hleft | ⟨t, hsent, -, hpos, -⟩
    · rw [hgoes] at hleft
      cases hleft
    · obtain ⟨t', ht⟩ := flushStep_round hgoes
      have hempty := ht.length_eq_min
      obtain rfl : t = t' := by simpa using hsent.symm.trans ht.sent
      rw [hstalls.mss_eq] at hempty
      simp [hempty] at hpos
  · intro hgoes
    by_cases hmss : c.mss = 12
    · -- The first round leaves the loop.
      obtain ⟨ret, hret⟩ := Option.ne_none_iff_exists'.mp
        (mt (flushStep_goes_iff env packets hmss hwin).mp hgoes)
      have hleft : ∀ k, flushRounds env b (k + 1) packets c = none := by
        intro k
        simp only [flushRounds, hret]
      refine ⟨fun k p d hd => ?_, fun k hk => ?_, fun fuel hfuel => ?_⟩
      · cases k with
        | zero =>
          cases hd
          exact .inl (by rw [hret]; rfl)
        | succ k => rw [hleft k] at hd; cases hd
      · cases k with
        | zero => exact Nat.zero_le _
        | succ k => rw [hleft k] at hk; cases hk
      · exact flushLoop_left (hleft b.len) hfuel
    · refine ⟨fun k p d hd => ?_, fun k => flushRounds_le hmss hwin, fun fuel hfuel => ?_⟩
      · obtain ⟨hmss', -, -⟩ := flushRounds_window hmss hwin hd
        cases hstep : (flushStep env b p d).2 with
        | some ret => exact .inl rfl
        | none =>
          obtain ⟨t, ht⟩ := flushStep_round hstep
          exact .inr ⟨t, ht.sent, ht.seq_eq, ht.payload_pos hmss', ht.nxt_eq⟩
      · refine flushLoop_left ?_ hfuel
        by_contra hsome
        have := flushRounds_le hmss hwin (Option.isSome_iff_ne_none.mpr hsome)
        omega

/-- Three bytes wait to be sent to a peer that has announced the segment size in the option. -/
def announcedConn (opt : List U8) : Conn :=
  ((exchange opt []).take 6).foldl Event.apply connectingConn

/-- A peer announces 12: the segments are empty, and the loop goes on as long as they leave. -/
theorem flush_stalls :
    let c := { announcedConn [2, 4, 0, 12] with tx := List.replicate 9 true }
    Reached (fun _ => False) (announcedConn [2, 4, 0, 12]) ∧ c.mss = 12 ∧
      c.sndbuf.map (·.len) = some 3 ∧ c.sndbuf.map (·.headSeq) = some 101 ∧ c.sndUna = 101 ∧
      c.sndNxt = 101 ∧
      ((c.sndbuf.bind fun b => flushRounds quietEnv b 9 0 c).map fun r =>
        (r.2.sndNxt, (sentSegments r.2.log).drop 2 |>.map (·.payload))) =
          some (101, List.replicate 9 []) := by
  exact ⟨reached_connectingConn.run (by decide +kernel), by decide +kernel⟩

/-- With 13 each of the three bytes has its own segment. -/
theorem flush_progress_three :
    ∃ b, (announcedConn [2, 4, 0, 13]).sndbuf = some b ∧ b.len = 3 ∧
      let c := { announcedConn [2, 4, 0, 13] with tx := List.replicate 9 true }
      flushLoop quietEnv b 9 0 c = flushLoop quietEnv b 4 0 c ∧ (flushLoop quietEnv b 4 0 c).2 = 3 := by
  refine ⟨_, rfl, by decide +kernel, ?_, by decide +kernel⟩
  exact ((flush_progress ⟨by decide +kernel, by decide +kernel⟩).mpr
    fun hstalls => absurd hstalls.mss_eq (by decide +kernel)).2.2 9 (by decide +kernel)

end MtcpStack
