import Mathlib.Logic.Relation
import MtcpStack.Verification.Outcomes
import MtcpStack.Verification.Reassembly

/-! # Receiving a byte stream

Runs of `ProcessTCPPayload` and of reads, from a stream without a receive buffer. The receive
buffer refines the received set at every moment, so what the application reads is a prefix of
the peer's stream and `rcv_nxt` is its frontier. -/

namespace MtcpStack

open Serial Intervals Slice

variable {S : ℕ → U8} {c : Conn} {b : RingBuffer}

/-- The states in which `ProcessTCPPayload` is called. -/
def TcpState.receives (s : TcpState) : Prop := s = .established ∨ s = .finWait1 ∨ s = .finWait2

/-- A step of the receiving side: a segment that agrees with the peer's stream `S`, a read of
any length, and the transitions to FIN_WAIT_1 and FIN_WAIT_2, after which payload is thrown
away. -/
inductive RcvStep (S : ℕ → U8) : Conn → Conn → Prop
  | payload {c : Conn} (env : Env) (bytes : List U8) (seq : U32) (hstate : c.state.receives)
      (hlen : bytes.length < 2 ^ 31)
      (hchunk : ∀ chunk, env.rcvChunk = some chunk → chunk.length < 2 ^ 30)
      (hagree : Agrees S (c.irs + 1) (frontier (received c)) seq bytes) :
      RcvStep S c (processTCPPayload env bytes seq c).1
  | read {c : Conn} {b : RingBuffer} (len : ℕ) (hbuf : c.rcvbuf = some b) :
      RcvStep S c (copyToUser b len c).1
  | close {c : Conn} (hstate : c.state = .established) :
      RcvStep S c { c with state := .finWait1 }
  | finAcked {c : Conn} (hstate : c.state = .finWait1) :
      RcvStep S c { c with state := .finWait2 }

/-- A stream that has not received anything. -/
structure RcvStart (c : Conn) : Prop where
  rcvbuf_eq : c.rcvbuf = none
  rcvNxt_eq : c.rcvNxt = c.irs + 1
  rcvWnd_lt : c.rcvWnd.toNat < 2 ^ 30
  accepted_eq : acceptedSegs c.log = []
  delivered_eq : deliveredBytes c.log = []
  inside : Act.fault .ringBuffer ∉ c.log

/-- The first `n` bytes of a stream. -/
def streamPrefix (S : ℕ → U8) (n : ℕ) : List U8 := (List.range n).map S

theorem streamPrefix_add (S : ℕ → U8) (m n : ℕ) :
    streamPrefix S (m + n) = streamPrefix S m ++ (List.range n).map fun i => S (m + i) := by
  simp [streamPrefix, List.range_add]

/-- What has been read and what has arrived, for a stream with receive buffer `b`. After the
application has closed, the buffer may have run ahead of the reader; then it has no merged
bytes. -/
structure BufferedInv (S : ℕ → U8) (c : Conn) (b : RingBuffer) : Prop where
  holds : ∃ h n, Holds S (c.irs + 1) (received c) h b ∧
    c.rcvNxt = seqAt (c.irs + 1) (h + b.mergedLen) ∧ deliveredBytes c.log = streamPrefix S n ∧
    (n = h ∨ (b.mergedLen = 0 ∧ c.state ≠ .established))
  rcvWnd_eq : c.rcvWnd.toNat = b.size - b.mergedLen

/-- The invariant of the receiving side. -/
structure RcvInv (S : ℕ → U8) (c : Conn) : Prop where
  inside : Act.fault .ringBuffer ∉ c.log
  empty : c.rcvbuf = none → c.rcvNxt = c.irs + 1 ∧ c.rcvWnd.toNat < 2 ^ 30 ∧
    acceptedSegs c.log = [] ∧ deliveredBytes c.log = []
  buffered : ∀ b, c.rcvbuf = some b → BufferedInv S c b

theorem RcvStart.inv (h : RcvStart c) : RcvInv S c where
  inside := h.inside
  empty _ := ⟨h.rcvNxt_eq, h.rcvWnd_lt, h.accepted_eq, h.delivered_eq⟩
  buffered b hb := by simp [h.rcvbuf_eq] at hb

/-! ## Events leave the receiving side alone -/

/-- `c'` differs from `c` in nothing the receiving side reads. -/
structure SameRcv (c c' : Conn) : Prop where
  rcvbuf_eq : c'.rcvbuf = c.rcvbuf
  rcvNxt_eq : c'.rcvNxt = c.rcvNxt
  rcvWnd_eq : c'.rcvWnd = c.rcvWnd
  irs_eq : c'.irs = c.irs
  accepted_eq : acceptedSegs c'.log = acceptedSegs c.log
  delivered_eq : deliveredBytes c'.log = deliveredBytes c.log
  inside : Act.fault .ringBuffer ∉ c.log → Act.fault .ringBuffer ∉ c'.log

theorem SameRcv.received_eq {c c' : Conn} (h : SameRcv c c') : received c' = received c := by
  simp only [received, h.irs_eq, h.accepted_eq]

theorem RcvInv.congr {c c' : Conn} (hinv : RcvInv S c) (h : SameRcv c c')
    (hstate : c'.state = c.state ∨ c'.state ≠ .established) : RcvInv S c' where
  inside := h.inside hinv.inside
  empty hnone := by
    rw [h.rcvNxt_eq, h.irs_eq, h.rcvWnd_eq, h.accepted_eq, h.delivered_eq]
    exact hinv.empty (h.rcvbuf_eq ▸ hnone)
  buffered b hb := by
    obtain ⟨⟨p, n, hholds, hnxt, hdel, hn⟩, hwnd⟩ := hinv.buffered b (h.rcvbuf_eq ▸ hb)
    refine ⟨⟨p, n, ?_, ?_, ?_, ?_⟩, ?_⟩
    · rw [h.irs_eq, h.received_eq]
      exact hholds
    · rw [h.rcvNxt_eq, h.irs_eq]
      exact hnxt
    · rw [h.delivered_eq]
      exact hdel
    · rcases hstate with hs | hs
      · rw [hs]
        exact hn
      · exact hn.imp_right fun hm => ⟨hm.1, hs⟩
    · rw [h.rcvWnd_eq]
      exact hwnd

theorem raiseEvent_sameRcv (e : AppEvent) (reg : Socket → Bool) (c : Conn) :
    SameRcv c (raiseEvent e reg c) := by
  rcases raiseEvent_cases e reg c with heq | heq
  · rw [heq]
    exact ⟨rfl, rfl, rfl, rfl, rfl, rfl, id⟩
  · rw [heq]
    refine ⟨rfl, rfl, rfl, rfl, ?_, ?_, ?_⟩
    · simp [Conn.act, acceptedSegs]
    · simp [Conn.act, deliveredBytes]
    · simp [Conn.act]

theorem raiseEvent_state (e : AppEvent) (reg : Socket → Bool) (c : Conn) :
    (raiseEvent e reg c).state = c.state :=
  raiseEvent_view (fun c => c.state) reg rfl

/-! ## A segment -/

/-- The buffer a segment meets, fresh or not, refines the received set, and `rcv_nxt` is its
frontier. -/
theorem RcvInv.openRcvbuf (hinv : RcvInv S c) {env : Env}
    (hchunk : ∀ chunk, env.rcvChunk = some chunk → chunk.length < 2 ^ 30)
    (hopen : MtcpStack.openRcvbuf env c = some b) :
    ∃ h n, Holds S (c.irs + 1) (received c) h b ∧
      c.rcvNxt = seqAt (c.irs + 1) (h + b.mergedLen) ∧ deliveredBytes c.log = streamPrefix S n ∧
      (n = h ∨ (b.mergedLen = 0 ∧ c.state ≠ .established)) ∧ c.rcvWnd.toNat < 2 ^ 30 := by
  unfold MtcpStack.openRcvbuf at hopen
  split at hopen
  case h_1 b' hbuf =>
    obtain rfl : b' = b := by simpa using hopen
    obtain ⟨⟨h, n, hholds, hnxt, hdel, hn⟩, hwnd⟩ := hinv.buffered _ hbuf
    have hsize := hholds.size_lt
    exact ⟨h, n, hholds, hnxt, hdel, hn, by omega⟩
  case h_2 hbuf =>
    obtain ⟨chunk, hc, rfl⟩ := Option.map_eq_some_iff.mp hopen
    obtain ⟨hnxt, hwnd, hacc, hdel⟩ := hinv.empty hbuf
    refine ⟨0, 0, ?_, ?_, by simp [hdel, streamPrefix], Or.inl rfl, hwnd⟩
    · have hempty : received c = ∅ := by simp [received, hacc, receivedSet]
      rw [hempty]
      exact rbInit_holds S _ (hchunk chunk hc)
    · rw [hnxt]
      simp [rbInit]

/-- After the application has closed, the merged bytes are thrown away and the head runs ahead
of the reader; otherwise the buffer stays as `RBPut` left it. -/
theorem discard_spec {base : U32} {acc : Set ℕ} {h : ℕ}
    (hb : Holds S base acc h b) (state : TcpState) (ret : ℤ) :
    ∃ b' h', (if state = .finWait1 ∨ state = .finWait2 then
        (rbRemove b b.mergedLen).map fun q => (q.1, ret) else some (b, ret)) = some (b', ret) ∧
      Holds S base acc h' b' ∧ h' + b'.mergedLen = h + b.mergedLen ∧
      ((h' = h ∧ b'.mergedLen = b.mergedLen ∧ ¬ (state = .finWait1 ∨ state = .finWait2)) ∨
        (b'.mergedLen = 0 ∧ state ≠ .established)) := by
  split
  case isTrue hfin =>
    obtain ⟨b', hrem, -, hmerged, hholds⟩ := hb.remove b.mergedLen
    rw [min_self] at hmerged hholds
    refine ⟨b', h + b.mergedLen, by rw [hrem]; rfl, hholds, by omega, Or.inr ⟨by omega, ?_⟩⟩
    rcases hfin with rfl | rfl <;> decide
  case isFalse hopen => exact ⟨b, h, rfl, hb, rfl, Or.inl ⟨rfl, rfl, hopen⟩⟩

theorem storePayload_inv {h n : ℕ}
    (hb : Holds S (c.irs + 1) (received c) h b) (hinside : Act.fault .ringBuffer ∉ c.log)
    (hdel : deliveredBytes c.log = streamPrefix S n)
    (hn : n = h ∨ (b.mergedLen = 0 ∧ c.state ≠ .established)) :
    RcvInv S (storePayload b c) := by
  refine ⟨hinside, fun hnone => by simp [storePayload] at hnone, fun b' hb' => ?_⟩
  obtain rfl : b = b' := by simpa [storePayload] using hb'
  refine ⟨⟨h, n, hb, ?_, hdel, hn⟩, ?_⟩
  · change b.headSeq + BitVec.ofNat 32 b.mergedLen = seqAt (c.irs + 1) (h + b.mergedLen)
    rw [seqAt_add, ← hb.headSeq_eq]
  · have hsize := hb.size_lt
    simp only [storePayload, BitVec.toNat_ofNat]
    exact Nat.mod_eq_of_lt (by omega)

/-- The trace records an accepted segment exactly when its places join the received set. -/
theorem received_accepted (c : Conn) (seq : U32) (bytes : List U8) :
    received (c.act (.accepted seq bytes)) =
      received c ∪ segmentPlaces (c.irs + 1) (frontier (received c)) (seq, bytes) := by
  simp only [received, Conn.act, acceptedSegs_append]
  exact receivedSet_append _ _ _

/-- Putting a segment keeps the invariant, whether it is accepted or not. -/
theorem putPayload_spec {h n : ℕ} {bytes : List U8}
    {seq : U32} (hb : Holds S (c.irs + 1) (received c) h b)
    (hnxt : c.rcvNxt = seqAt (c.irs + 1) (h + b.mergedLen)) (hwnd : c.rcvWnd.toNat < 2 ^ 30)
    (hinside : Act.fault .ringBuffer ∉ c.log) (hdel : deliveredBytes c.log = streamPrefix S n)
    (hn : n = h ∨ (b.mergedLen = 0 ∧ c.state ≠ .established)) (hstate : c.state.receives)
    (hlen : bytes.length < 2 ^ 31)
    (hlo : ¬ tcpSeqLt (seq + BitVec.ofNat 32 bytes.length) c.rcvNxt)
    (hhi : ¬ tcpSeqGt (seq + BitVec.ofNat 32 bytes.length) (c.rcvNxt + c.rcvWnd))
    (hagree : Agrees S (c.irs + 1) (frontier (received c)) seq bytes) :
    ∃ b' ret, putPayload c.state b bytes seq = some (b', ret) ∧
      RcvInv S (storePayload b' (if 0 < ret then c.act (.accepted seq bytes) else c)) := by
  rw [hnxt] at hlo hhi
  rw [hb.frontier_eq] at hagree
  rcases hb.put hlen hwnd hlo hhi hagree with ⟨b₁, ret, hput, hpos, -, hholds⟩ | ⟨ret, hput, hle, -⟩
  · obtain ⟨b', h', hdisc, hholds', -, hahead⟩ := discard_spec hholds c.state ret
    refine ⟨b', ret, by rw [putPayload, hput]; exact hdisc, ?_⟩
    rw [if_pos hpos]
    refine storePayload_inv (h := h') (n := n) ?_ ?_ ?_ ?_
    · rw [received_accepted, hb.frontier_eq]
      exact hholds'
    · simpa [Conn.act] using hinside
    · simpa [Conn.act, deliveredBytes_append, deliveredBytes] using hdel
    · rcases hahead with ⟨rfl, -, hopen⟩ | hahead
      · -- still established, where the reader is at the head
        refine Or.inl (hn.resolve_right fun hm => ?_)
        rcases hstate with hs | hs | hs
        · exact hm.2 hs
        · exact hopen (Or.inl hs)
        · exact hopen (Or.inr hs)
      · exact Or.inr hahead
  · obtain ⟨b', h', hdisc, hholds', -, hahead⟩ := discard_spec hb c.state ret
    refine ⟨b', ret, by rw [putPayload, hput]; exact hdisc, ?_⟩
    rw [if_neg (by omega)]
    refine storePayload_inv (h := h') (n := n) hholds' hinside hdel ?_
    rcases hahead with ⟨rfl, hm, -⟩ | hahead
    · rw [hm]
      exact hn
    · exact Or.inr hahead

theorem processTCPPayload_inv (hinv : RcvInv S c) {env : Env}
    {bytes : List U8} {seq : U32} (hstate : c.state.receives) (hlen : bytes.length < 2 ^ 31)
    (hchunk : ∀ chunk, env.rcvChunk = some chunk → chunk.length < 2 ^ 30)
    (hagree : Agrees S (c.irs + 1) (frontier (received c)) seq bytes) :
    RcvInv S (processTCPPayload env bytes seq c).1 := by
  -- a buffer that refines the received set takes every segment of the window
  have htakes : ∀ b, openRcvbuf env c = some b →
      ¬ tcpSeqLt (seq + BitVec.ofNat 32 bytes.length) c.rcvNxt →
      ¬ tcpSeqGt (seq + BitVec.ofNat 32 bytes.length) (c.rcvNxt + c.rcvWnd) →
      ∃ b' ret, putPayload c.state b bytes seq = some (b', ret) ∧
        RcvInv S (storePayload b' (if 0 < ret then c.act (.accepted seq bytes) else c)) := by
    intro b hopen hlo hhi
    obtain ⟨h, n, hholds, hnxt, hdel, hn, hwnd⟩ := hinv.openRcvbuf hchunk hopen
    exact putPayload_spec hholds hnxt hwnd hinv.inside hdel hn hstate hlen hlo hhi hagree
  refine processTCPPayload_rule (P := RcvInv S)
    (fun e reg d hd => hd.congr (raiseEvent_sameRcv e reg d) (Or.inl (raiseEvent_state e reg d)))
    fun d hout => ?_
  cases hout with
  | dropped => exact hinv
  | noMemory => exact hinv.congr ⟨rfl, rfl, rfl, rfl, rfl, rfl, id⟩ (Or.inr (by simp))
  | faulted hlo hhi hopen hnone =>
    obtain ⟨b', ret, hput, -⟩ := htakes _ hopen hlo hhi
    cases hput.symm.trans hnone
  | stored hlo hhi hopen hput =>
    obtain ⟨b', ret, hput', hinv'⟩ := htakes _ hopen hlo hhi
    cases hput.symm.trans hput'
    exact hinv'

/-! ## A read -/

theorem advertiseWindow_sameRcv (c : Conn) : SameRcv c (advertiseWindow c) := by
  rcases advertiseWindow_cases c with heq | heq <;> rw [heq] <;>
    exact ⟨rfl, rfl, rfl, rfl, rfl, rfl, id⟩

theorem advertiseWindow_state (c : Conn) : (advertiseWindow c).state = c.state := by
  rcases advertiseWindow_cases c with heq | heq <;> rw [heq]

theorem copyToUser_inv (hinv : RcvInv S c) (len : ℕ)
    (hbuf : c.rcvbuf = some b) : RcvInv S (copyToUser b len c).1 := by
  obtain ⟨⟨h, n, hholds, hnxt, hdel, hn⟩, hwnd⟩ := hinv.buffered b hbuf
  obtain ⟨b', hrem, hsize, hmerged, hholds'⟩ := hholds.remove (min b.mergedLen len)
  obtain ⟨ivs, hrb, -⟩ := hholds.inv
  have hslice := slice_merged hrb (n := min b.mergedLen len) (by omega)
  have hcopy : min (min b.mergedLen len) b.mergedLen = min b.mergedLen len := by omega
  rw [hcopy] at hrem hmerged hholds'
  have hout := copyToUser_outcome b len c
  generalize copyToUser b len c = r at hout ⊢
  cases hout with
  | nothing => exact hinv
  | faulted _ hfail => simp [hslice, hrem] at hfail
  | taken hpos hslice' hrem' =>
    cases hslice.symm.trans hslice'
    cases hrem.symm.trans hrem'
    refine RcvInv.congr ?_ (advertiseWindow_sameRcv _) (Or.inl (advertiseWindow_state _))
    have hread : n = h := hn.resolve_right fun hm => by omega
    have hacc : acceptedSegs (c.log ++ [Act.delivered ((List.range (min b.mergedLen len)).map
        fun i => S (h + i))]) = acceptedSegs c.log := by
      simp [acceptedSegs]
    refine ⟨by simpa [Conn.act] using hinv.inside, fun hnone => by simp at hnone, ?_⟩
    intro b'' hb''
    obtain rfl : b' = b'' := by simpa using hb''
    refine ⟨⟨h + min b.mergedLen len, h + min b.mergedLen len, ?_, ?_, ?_, Or.inl rfl⟩, ?_⟩
    · simpa only [received, Conn.act, hacc] using hholds'
    · change c.rcvNxt = _
      rw [hnxt, hmerged]
      congr 1
      omega
    · simp only [Conn.act, deliveredBytes_append, hdel, hread, streamPrefix_add]
      simp [deliveredBytes]
    · have hlt := hholds'.size_lt
      simp only [BitVec.toNat_ofNat]
      exact Nat.mod_eq_of_lt (by omega)

/-! ## Runs -/

theorem RcvStep.inv {c c' : Conn} (hstep : RcvStep S c c') (hinv : RcvInv S c) :
    RcvInv S c' := by
  cases hstep with
  | payload env bytes seq hstate hlen hchunk hagree =>
      exact processTCPPayload_inv hinv hstate hlen hchunk hagree
  | read len hbuf => exact copyToUser_inv hinv len hbuf
  | close hstate => exact hinv.congr ⟨rfl, rfl, rfl, rfl, rfl, rfl, id⟩ (Or.inr (by simp))
  | finAcked hstate => exact hinv.congr ⟨rfl, rfl, rfl, rfl, rfl, rfl, id⟩ (Or.inr (by simp))

/-- The invariant of the receiving side holds along every run. -/
theorem rcvRun_inv {c₀ c : Conn} (h₀ : RcvInv S c₀)
    (hrun : Relation.ReflTransGen (RcvStep S) c₀ c) : RcvInv S c := by
  induction hrun with
  | refl => exact h₀
  | tail _ hstep ih => exact hstep.inv ih

theorem RcvStep.irs_eq {c c' : Conn} (hstep : RcvStep S c c') : c'.irs = c.irs := by
  cases hstep with
  | payload env bytes seq hstate hlen hchunk hagree =>
      refine processTCPPayload_rule (P := fun d => d.irs = c.irs)
        (fun e reg d hd => (raiseEvent_sameRcv e reg d).irs_eq.trans hd) fun d hout => ?_
      cases hout with
      | dropped | noMemory | faulted => rfl
      | stored => split <;> rfl
  | @read b len hbuf =>
      have hout := copyToUser_outcome b len c
      generalize copyToUser b len c = r at hout ⊢
      cases hout with
      | nothing | faulted => rfl
      | taken => exact (advertiseWindow_sameRcv _).irs_eq
  | close hstate => rfl
  | finAcked hstate => rfl

theorem rcvRun_irs {c₀ c : Conn} (hrun : Relation.ReflTransGen (RcvStep S) c₀ c) :
    c.irs = c₀.irs := by
  induction hrun with
  | refl => rfl
  | tail _ hstep ih => rw [hstep.irs_eq, ih]

/-- The frontier a stream in the invariant has reached, in `rcv_nxt`. -/
theorem RcvInv.rcvNxt_frontier (hinv : RcvInv S c) :
    ∃ L, c.rcvNxt = seqAt (c.irs + 1) L ∧ (∀ i < L, i ∈ received c) ∧ L ∉ received c := by
  cases hbuf : c.rcvbuf with
  | none =>
      obtain ⟨hnxt, -, hacc, -⟩ := hinv.empty hbuf
      exact ⟨0, by simpa using hnxt, by simp, by simp [received, hacc, receivedSet]⟩
  | some b =>
      obtain ⟨⟨h, n, hholds, hnxt, -, -⟩, -⟩ := hinv.buffered b hbuf
      exact ⟨_, hnxt, fun i hi => hholds.mem_of_lt hi, hholds.not_mem⟩

theorem RcvInv.delivered_prefix (hinv : RcvInv S c) :
    ∃ n, deliveredBytes c.log = streamPrefix S n := by
  cases hbuf : c.rcvbuf with
  | none =>
      obtain ⟨-, -, -, hdel⟩ := hinv.empty hbuf
      exact ⟨0, by simp [hdel, streamPrefix]⟩
  | some b =>
      obtain ⟨⟨h, n, -, -, hdel, -⟩, -⟩ := hinv.buffered b hbuf
      exact ⟨n, hdel⟩

/-- Receive-side integrity. Along every run from a stream without a receive buffer, the bytes
read are a prefix of the peer's stream, `rcv_nxt` is the end of the longest prefix all of whose
bytes lie in accepted segments, and no copy leaves the buffer. -/
theorem receive_integrity {S : ℕ → U8} {c₀ c : Conn} (h₀ : RcvStart c₀)
    (hrun : Relation.ReflTransGen (RcvStep S) c₀ c) :
    (∃ n, deliveredBytes c.log = streamPrefix S n) ∧
      (∃ L, c.rcvNxt = c₀.irs + 1 + BitVec.ofNat 32 L ∧ (∀ i < L, i ∈ received c) ∧
        L ∉ received c) ∧
      Act.fault .ringBuffer ∉ c.log := by
  have hinv := rcvRun_inv (S := S) h₀.inv hrun
  refine ⟨hinv.delivered_prefix, ?_, hinv.inside⟩
  obtain ⟨L, hnxt, hbelow, hmiss⟩ := hinv.rcvNxt_frontier
  rw [rcvRun_irs hrun] at hnxt
  exact ⟨L, hnxt, hbelow, hmiss⟩

/-! ## A run across the end of the sequence space -/

def sampleConfig : Config := { tcpTimeout := 30000, tcpTimewait := 0, sndbufSize := 8192 }

def sampleEnv : Env where
  cfg := sampleConfig
  curTs := 1
  rcvChunk := some (List.replicate 16 0)
  sndChunk := some (List.replicate 16 0)
  listener := .queued

/-- An established stream whose peer starts three places before the sequence space wraps. -/
def sampleConn : Conn :=
  { freshConn sampleConfig 100 none 0 Shared.init with
    state := .established
    irs := 4294967292
    rcvNxt := 4294967293 }

/-- The first segment leaves a gap of two bytes, the second fills it. -/
def sampleRun : Conn :=
  (processTCPPayload sampleEnv [0, 1] 4294967293
    (processTCPPayload sampleEnv [2, 3, 4] 4294967295 sampleConn).1).1

/-- A peer that counts in its bytes. -/
theorem agrees_count (base : U32) (cur : ℕ) (seq : U32) (k : ℕ) :
    Agrees (BitVec.ofNat 8) base cur seq
      ((List.range k).map fun j => (seq - base + BitVec.ofNat 32 j).setWidth 8) := by
  intro j hj n hn
  rw [List.length_map, List.length_range] at hj
  have hplace : BitVec.ofNat 32 n = seq - base + BitVec.ofNat 32 j := by
    rw [← BitVec.ofInt_natCast, hn, placeNear, seqAt, BitVec.ofInt_add, BitVec.ofInt_add,
      BitVec.ofInt_toInt, BitVec.ofInt_natCast, BitVec.ofInt_natCast]
    ring
  rw [List.getElem?_map, List.getElem?_range hj, Option.map_some, ← hplace]
  simp

/-- The peer's first three bytes are read. -/
theorem receive_integrity_wrap :
    ∃ b, sampleRun.rcvbuf = some b ∧
      let c := (copyToUser b 3 sampleRun).1
      deliveredBytes c.log = [0, 1, 2] ∧
      (∃ n, deliveredBytes c.log = streamPrefix (BitVec.ofNat 8) n) ∧
      (∃ L, c.rcvNxt = sampleConn.irs + 1 + BitVec.ofNat 32 L ∧ (∀ i < L, i ∈ received c) ∧
        L ∉ received c) ∧ Act.fault .ringBuffer ∉ c.log := by
  have hchunk : ∀ chunk, sampleEnv.rcvChunk = some chunk → chunk.length < 2 ^ 30 := by
    intro chunk hc
    obtain rfl : List.replicate 16 0 = chunk := by simpa [sampleEnv] using hc
    decide
  have hstart : RcvStart sampleConn := ⟨rfl, by decide, by decide, rfl, rfl, by decide⟩
  have hfirst : RcvStep (BitVec.ofNat 8) sampleConn
      (processTCPPayload sampleEnv [2, 3, 4] 4294967295 sampleConn).1 :=
    .payload sampleEnv [2, 3, 4] _ (Or.inl rfl) (by decide) hchunk (agrees_count _ _ _ 3)
  have hsecond : RcvStep (BitVec.ofNat 8)
      (processTCPPayload sampleEnv [2, 3, 4] 4294967295 sampleConn).1 sampleRun :=
    .payload sampleEnv [0, 1] _ (Or.inl (by decide +kernel)) (by decide) hchunk
      (agrees_count _ _ _ 2)
  have hrun := (Relation.ReflTransGen.single hfirst).tail hsecond
  have hread : (sampleRun.rcvbuf.map fun b => deliveredBytes (copyToUser b 3 sampleRun).1.log) =
      some [0, 1, 2] := by decide +kernel
  obtain ⟨b, hb, hdelivered⟩ := Option.map_eq_some_iff.mp hread
  exact ⟨b, hb, hdelivered, receive_integrity hstart (hrun.tail (.read 3 hb))⟩

end MtcpStack
