import MtcpStack.Verification.LedgerRuns
import MtcpStack.Verification.ScatterRead
import MtcpStack.Verification.SentData

/-! # Gather writes

`mtcp_writev` puts into the send buffer what one `mtcp_write` of all the bytes puts there. The send
window is the room in the send buffer, in every run of a stack whose memory blocks have the
configured size. -/

namespace MtcpStack

open Pieces Slice

/-! ## The send window is the room in the send buffer -/

/-- The memory blocks for send buffers have `n` bytes. -/
def Env.blocks (env : Env) (n : ℕ) : Prop := ∀ chunk, env.sndChunk = some chunk → chunk.length = n

/-- The states of a stream in the runs of a stack whose `CONFIG.sndbuf_size` is `n`. -/
inductive Configured (n : ℕ) : Conn → Prop
  | active (cfg : Config) (iss : U32) (socket : Socket) (sid : ℕ) (sh : Shared) (queued : Bool)
      (hsize : cfg.sndbufSize.toNat = n) : Configured n (mtcpConnect cfg iss socket sid sh queued)
  | passive (env : Env) (iss : U32) (sid : ℕ) (sh : Shared) (seg : Segment) (hsyn : seg.syn = true)
      (hack : seg.ack = false) (hsize : env.cfg.sndbufSize.toNat = n) (hblocks : env.blocks n) :
      Configured n (handlePassiveOpen env iss sid sh seg)
  | step {c : Conn} {e : Event} (hconf : Configured n c) (henabled : e.enabled c = true)
      (hblocks : ∀ env, e.env? = some env → env.blocks n) : Configured n (e.apply c)

theorem Configured.reached {n : ℕ} {c : Conn} (h : Configured n c) : Reached (fun _ => False) c := by
  induction h with
  | active cfg iss socket sid sh queued _ => exact .born (.active cfg iss socket sid sh queued)
  | passive env iss sid sh seg hsyn hack _ _ => exact .born (.passive env iss sid sh seg hsyn hack)
  | step _ henabled _ ih => exact .step ih henabled nofun

theorem Configured.run {n : ℕ} {env : Env} (hblocks : env.blocks n) {es : List Event} {c : Conn}
    (hconf : Configured n c) (hallowed : Event.allowed c es = true)
    (hes : ∀ e ∈ es, e.env? = none ∨ e.env? = some env) : Configured n (es.foldl Event.apply c) := by
  induction es generalizing c with
  | nil => exact hconf
  | cons e es ih =>
    obtain ⟨henabled, hrest⟩ := Bool.and_eq_true_iff.1 hallowed
    refine ih (hconf.step henabled ?_) hrest fun e' he' => hes e' (by simp [he'])
    intro env' henv'
    rcases hes e (by simp) with hnone | hsome
    · simp [hnone] at henv'
    · obtain rfl : env = env' := Option.some.inj (hsome.symm.trans henv')
      exact hblocks

/-- `snd_wnd` is what is free of the `n` bytes. -/
def Roomed (n : ℕ) (p : StreamLedger) : Prop :=
  p.live = true → (p.sndbuf = none → p.sndWnd.toNat = n) ∧
    ∀ b, p.sndbuf = some b → b.size = n ∧ b.len ≤ n ∧ p.sndWnd.toNat = n - b.len

theorem freeRoom_toNat {size len : ℕ} (hlen : len ≤ size) (hsize : size < 2 ^ 32) :
    (BitVec.ofNat 32 size - BitVec.ofNat 32 len).toNat = size - len := by
  bv_omega

theorem Roomed.step {n : ℕ} {env : Env} {p q : StreamLedger} (h : Roomed n p) (hn : n < 2 ^ 32)
    (hblocks : env.blocks n) (hstep : LedgerStep env p q) : Roomed n q := by
  cases hstep with
  | touched | timed | untimed | waited | unwaited => exact h
  | @released b len hbuf =>
    intro hlive
    obtain ⟨hsize, hlen, -⟩ := (h hlive).2 b hbuf
    obtain ⟨hlen', -, hsize'⟩ := sbRemove_shape b len
    refine ⟨nofun, ?_⟩
    rintro b' ⟨rfl⟩
    have hfit : (sbRemove b len).1.len ≤ n := by omega
    rw [hsize', hsize]
    exact ⟨rfl, hfit, freeRoom_toNat hfit hn⟩
  | @opened chunk iss hbuf hchunk hroom =>
    intro hlive
    refine ⟨nofun, ?_⟩
    rintro b' ⟨rfl⟩
    exact ⟨hblocks chunk hchunk, Nat.zero_le _, (h hlive).1 hbuf⟩
  | @wrote b b' bytes ret hbuf hput =>
    intro hlive
    obtain ⟨hsize, hlen, -⟩ := (h hlive).2 b hbuf
    have hput' : b'.size = n ∧ b'.len ≤ n := by
      rcases sbPut_shape hput with ⟨-, rfl⟩ | ⟨-, -, hroom, hlen', -, hsize'⟩
      · exact ⟨hsize, hlen⟩
      · exact ⟨hsize'.trans hsize, by omega⟩
    refine ⟨nofun, ?_⟩
    rintro b'' ⟨rfl⟩
    rw [hput'.1]
    exact ⟨rfl, hput'.2, freeRoom_toNat hput'.2 hn⟩
  | freed => exact nofun

theorem freshConn_roomed (cfg : Config) (iss : U32) (socket : Option Socket) (sid : ℕ) (sh : Shared) :
    Roomed cfg.sndbufSize.toNat (freshConn cfg iss socket sid sh).ledger :=
  fun _ => ⟨fun _ => rfl, nofun⟩

theorem Configured.lt {n : ℕ} {c : Conn} (h : Configured n c) : n < 2 ^ 32 := by
  induction h with
  | active cfg _ _ _ _ _ hsize => exact hsize ▸ cfg.sndbufSize.isLt
  | passive env _ _ _ _ _ _ hsize _ => exact hsize ▸ env.cfg.sndbufSize.isLt
  | step _ _ _ ih => exact ih

/-- What holds of a new stream and survives every ledger step, and what others do to the lists,
holds in all these states. -/
theorem Configured.invariant {n : ℕ} {P : StreamLedger → Prop}
    (hfresh : ∀ cfg iss sid sh, cfg.sndbufSize.toNat = n → P (freshConn cfg iss none sid sh).ledger)
    (hstep : ∀ {env p q}, Env.blocks env n → LedgerStep env p q → P p → P q)
    (hothers : ∀ {p : StreamLedger} (sh : Shared), P p →
      P { p with timewaitList := sh.timewaitList, timeoutList := sh.timeoutList })
    {c : Conn} (h : Configured n c) : P c.ledger := by
  have hbooked : ∀ {env : Env} {c d : Conn}, env.blocks n → Booked env c d → P c.ledger →
      P d.ledger := by
    intro env c d hblocks hbooked hc
    unfold Booked at hbooked
    generalize d.ledger = q at hbooked ⊢
    induction hbooked with
    | refl => exact hc
    | tail _ hlast ih => exact hstep hblocks hlast ih
  induction h with
  | active cfg iss socket sid sh queued hsize =>
    rw [ledger_mtcpConnect]
    exact hfresh cfg iss sid sh hsize
  | passive env iss sid sh seg _ _ hsize hblocks =>
    exact hbooked hblocks (handlePassiveOpen_booked env iss sid sh seg)
      (hfresh env.cfg iss sid sh hsize)
  | @step c e _ henabled hblocks ih =>
    by_cases hother : ∃ sh, e = .others sh
    · obtain ⟨sh, rfl⟩ := hother
      exact hothers sh ih
    · have hown : ∀ sh, e ≠ .others sh := fun sh h => hother ⟨sh, h⟩
      cases henv : e.env? with
      | none =>
        have hnone : Env.blocks ⟨⟨0, 0, 0⟩, 0, none, none, .absent⟩ n := nofun
        exact hbooked hnone (Event.booked henabled (by simp [henv]) hown) ih
      | some env =>
        exact hbooked (hblocks env henv) (Event.booked henabled (by simp [henv]) hown) ih

theorem Configured.roomed {n : ℕ} {c : Conn} (h : Configured n c) : Roomed n c.ledger :=
  h.invariant (fun cfg iss sid sh hsize => hsize ▸ freshConn_roomed cfg iss none sid sh)
    (fun hblocks hstep hroomed => hroomed.step h.lt hblocks hstep) (fun _ hroomed => hroomed)

/-! ## One copy -/

/-- A window that is open as a signed number is that number. -/
theorem toInt_eq_of_pos {w : U32} (h : 0 < w.toInt) : w.toInt = w.toNat := by
  have hlt := w.isLt
  rw [BitVec.toInt_eq_toNat_cond] at h ⊢
  split at h
  · rw [if_pos ‹_›]
  · omega

theorem toInt_pos_of_le {v w : U32} (hw : 0 < w.toInt) (hv : 0 < v.toNat)
    (hle : v.toNat ≤ w.toNat) : 0 < v.toInt := by
  have hint := toInt_eq_of_pos hw
  have hlt := BitVec.two_mul_toInt_lt (x := w)
  rw [BitVec.toInt_eq_toNat_of_lt (by omega)]
  omega

/-- The bytes of the first buffers and of a part of the next one. -/
theorem take_flatten {α : Type*} {xss before after : List (List α)} {p : List α} {k : ℕ}
    (hsplit : xss = before ++ p :: after) (hk : k ≤ p.length) :
    xss.flatten.take (before.flatten.length + k) = before.flatten ++ p.take k := by
  have hbytes : xss.flatten = before.flatten ++ (p ++ after.flatten) := by simp [hsplit]
  rw [hbytes, List.take_length_add_append, List.take_append_of_le_length hk]

/-- The bytes in a send buffer and the sequence number of the first of them. -/
def SendBuffer.contents (b : SendBuffer) : Option (List U8) × U32 :=
  (slice b.data b.head b.len, b.headSeq)

/-- A put of bytes that fit is taken whole. -/
theorem Queues.put_whole {W : List U8} {base : U32} {r : ℕ} {b : SendBuffer}
    (hq : Queues W base r b) {payload : List U8} (hpos : 0 < payload.length)
    (hfit : payload.length ≤ b.size - b.len) :
    ∃ b', sbPut b payload = some (b', (payload.length : ℤ)) ∧
      Queues (W ++ payload) base r b' ∧ b'.size = b.size ∧ b'.len = b.len + payload.length := by
  obtain ⟨b', n, hput, hqueues⟩ := hq.put payload
  have hn := sbPut_accepts hput
  rw [min_eq_left hfit] at hn
  obtain rfl : n = (payload.length : ℤ) := by omega
  rw [Int.toNat_natCast, List.take_length] at hqueues
  obtain ⟨hle, -⟩ | ⟨-, -, -, hlen, -, hsize⟩ := sbPut_shape hput
  · omega
  · exact ⟨b', hput, hqueues, hsize, hlen⟩

/-- The stream when `chunks` have been written and its send buffer is `b`. -/
def stored (c : Conn) (b : SendBuffer) (chunks : List (List U8)) : Conn :=
  { c with
    sndbuf := some b
    sndWnd := BitVec.ofNat 32 b.size - BitVec.ofNat 32 b.len
    log := c.log ++ chunks.map Act.wrote }

section

variable {env : Env} {c d : Conn} {n : ℕ} {W : List U8} {base : U32} {r : ℕ} {b : SendBuffer}

/-- A copy into a buffer of `n` bytes with room left takes what fits. -/
theorem copyFromUser_takes {buf : List U8} (hbuf : 0 < buf.length) (hopen : openSndbuf env d = some b)
    (hq : Queues W base r b) (hsize : b.size = n) (hwnd : d.sndWnd.toNat = n - b.len)
    (hroom : 0 < d.sndWnd.toInt) :
    ∃ b', copyFromUser env buf d = (stored d b' [buf.take (min buf.length (n - b.len))],
        ((min buf.length (n - b.len) : ℕ) : ℤ)) ∧
      Queues (W ++ buf.take (min buf.length (n - b.len))) base r b' ∧ b'.size = n ∧
      b'.len = b.len + min buf.length (n - b.len) := by
  obtain ⟨k, hk⟩ : ∃ k, k = min buf.length (n - b.len) := ⟨_, rfl⟩
  have hint := toInt_eq_of_pos hroom
  have hsndlen : min d.sndWnd.toInt (buf.length : ℤ) = (k : ℤ) := by omega
  have hkpos : 0 < k := by omega
  have htaken : (buf.take k).length = k := by
    rw [List.length_take]
    omega
  obtain ⟨b', hput, hqueues, hsize', hlen⟩ :=
    hq.put_whole (htaken.symm ▸ hkpos) (by omega)
  rw [htaken] at hput hlen
  rw [← hk]
  refine ⟨b', ?_, hqueues, hsize'.trans hsize, hlen⟩
  unfold copyFromUser
  simp only [hsndlen, hopen, Int.toNat_natCast, hput, if_neg (show ¬ (k : ℤ) ≤ 0 by omega), if_true]
  rfl

/-- What is free of the `n` bytes after a copy. -/
theorem stored_sndWnd {chunks : List (List U8)} (hsize : b.size = n) (hlen : b.len ≤ n)
    (hn : n < 2 ^ 32) : (stored c b chunks).sndWnd.toNat = n - b.len := by
  rw [← hsize] at hlen hn ⊢
  exact freeRoom_toNat hlen hn

/-- After `t` bytes of `bytes` have been written, in whatever portions. -/
def WroteSoFar (n : ℕ) (W : List U8) (base : U32) (r : ℕ) (b : SendBuffer) (bytes : List U8)
    (c : Conn) (t : ℕ) (d : Conn) : Prop :=
  (t = 0 ∧ d = c) ∨
    (0 < t ∧ ∃ b' chunks, chunks.flatten = bytes.take t ∧ Queues (W ++ bytes.take t) base r b' ∧
      b'.size = n ∧ b'.len = b.len + t ∧ d = stored c b' chunks)

theorem writev_fills (hopen : openSndbuf env c = some b) (hq : Queues W base r b) (hsize : b.size = n)
    (hlen : b.len ≤ n) (hn : n < 2 ^ 32) (hwnd : c.sndWnd.toNat = n - b.len)
    (hroom : 0 < c.sndWnd.toInt) (iov : List (List U8)) :
    Fills List.length (copyFromUser env) (n - b.len) iov (WroteSoFar n W base r b iov.flatten c) where
  move := by
    intro before p after d hsplit hp hleft hd
    have htotal : total List.length before = before.flatten.length := by
      simp [total, List.length_flatten]
    rw [htotal] at hleft hd ⊢
    obtain ⟨t, ht⟩ : ∃ t, t = before.flatten.length := ⟨_, rfl⟩
    obtain ⟨k, hk⟩ : ∃ k, k = min p.length (n - b.len - t) := ⟨_, rfl⟩
    have hend : min (t + p.length) (n - b.len) = t + k := by omega
    have htake : iov.flatten.take t = before.flatten := by
      simpa [← ht] using take_flatten hsplit (Nat.zero_le _)
    have hnext : iov.flatten.take (t + k) = iov.flatten.take t ++ p.take k := by
      rw [htake, ht, take_flatten hsplit (by omega)]
    rw [← ht] at hleft hd ⊢
    rw [← hk, hend]
    rcases hd with ⟨htzero, rfl⟩ | ⟨htpos, b', chunks, hchunks, hq', hsize', hlen', rfl⟩
    · obtain ⟨b', hcopy, hq', hsize', hlen'⟩ := copyFromUser_takes hp hopen hq hsize hwnd hroom
      have hk' : min p.length (n - b.len) = k := by omega
      rw [hk'] at hcopy hq' hlen'
      refine ⟨_, hcopy, .inr ⟨by omega, b', [p.take k], ?_, ?_, hsize', by omega, rfl⟩⟩
      · rw [hnext, htzero]
        simp
      · rw [hnext, htzero]
        simpa using hq'
    · have hwnd' : (stored c b' chunks).sndWnd.toNat = n - b'.len :=
        stored_sndWnd hsize' (by omega) hn
      have hroom' := toInt_pos_of_le hroom (v := (stored c b' chunks).sndWnd) (by omega) (by omega)
      obtain ⟨b'', hcopy, hq'', hsize'', hlen''⟩ :=
        copyFromUser_takes hp (b := b') (show openSndbuf env (stored c b' chunks) = some b' from rfl)
          hq' hsize' hwnd' hroom'
      have hk' : min p.length (n - b'.len) = k := by omega
      rw [hk'] at hcopy hq'' hlen''
      refine ⟨_, hcopy, .inr ⟨by omega, b'', chunks ++ [p.take k], ?_, ?_, hsize'', by omega, ?_⟩⟩
      · rw [hnext, List.flatten_append, hchunks]
        simp
      · rwa [hnext, ← List.append_assoc]
      · simp [stored]
  full := by
    intro p d hd
    have hkept := hd
    rcases hd with ⟨hzero, rfl⟩ | ⟨-, b', chunks, -, -, hsize', hlen', rfl⟩
    · have hint := toInt_eq_of_pos hroom
      omega
    · have hclosed : (stored c b' chunks).sndWnd = 0 := by
        apply BitVec.eq_of_toNat_eq
        rw [stored_sndWnd hsize' (by omega) hn, hlen', Nat.add_sub_cancel' hlen]
        simp
      refine ⟨stored c b' chunks, -1, ?_, by decide, hkept⟩
      unfold copyFromUser
      simp [hclosed]

/-! ## The two calls -/

/-- Two writes that leave the same bytes to send and the same traces in the application; the memory
block of the send buffer may be laid out in another way. -/
structure SameWrite (x y : Conn × ℤ) : Prop where
  value : x.2 = y.2
  contents : x.1.sndbuf.map SendBuffer.contents = y.1.sndbuf.map SendBuffer.contents
  events : raisedEvents x.1.log = raisedEvents y.1.log
  written : writtenBytes x.1.log = writtenBytes y.1.log
  rest : { x.1 with sndbuf := none, log := [] } = { y.1 with sndbuf := none, log := [] }

theorem SameWrite.refl (x : Conn × ℤ) : SameWrite x x := ⟨rfl, rfl, rfl, rfl, rfl⟩

@[simp] theorem writtenBytes_wrote (chunks : List (List U8)) :
    writtenBytes (chunks.map Act.wrote) = chunks.flatten := by
  simp [writtenBytes, List.flatMap_map]

@[simp] theorem raisedEvents_append (l l' : List Act) :
    raisedEvents (l ++ l') = raisedEvents l ++ raisedEvents l' :=
  List.filterMap_append

@[simp] theorem raisedEvents_wrote (chunks : List (List U8)) :
    raisedEvents (chunks.map Act.wrote) = [] := by
  simp [raisedEvents, List.filterMap_map]

/-- What both calls do when the bytes have been copied. -/
def finishWrite (s : Socket) (moved ret : ℤ) (c : Conn) : Conn × ℤ :=
  let c := if 0 < moved then enqueueSend c else c
  (if 0 < c.sndWnd.toNat ∧ s.epollOut ∧ s.epollEt = false then c.act (.raised .write) else c, ret)

theorem finishWrite_same (s : Socket) (k : ℤ) {b b' : SendBuffer} {chunks chunks' : List (List U8)}
    (hsize : b.size = b'.size) (hlen : b.len = b'.len) (hcontents : b.contents = b'.contents)
    (hbytes : chunks.flatten = chunks'.flatten) :
    SameWrite (finishWrite s k k (stored c b chunks)) (finishWrite s k k (stored c b' chunks')) := by
  unfold finishWrite stored enqueueSend
  simp only [hsize, hlen]
  split_ifs
  all_goals
    refine ⟨rfl, congrArg some hcontents, ?_, ?_, rfl⟩
    · simp [Conn.act]
    · simp [Conn.act, hbytes]

/-- What `mtcp_writev` comes to behind its checks. -/
def gathered (env : Env) (s : Socket) (iov : List (List U8)) (c : Conn) : Conn × ℤ :=
  let r := copyAll List.length (copyFromUser env) iov 0 c
  finishWrite s r.2 (if r.2 = 0 ∧ s.nonblock then -1 else r.2) r.1

/-- What `mtcp_write` comes to behind its checks. -/
def written (env : Env) (s : Socket) (buf : List U8) (c : Conn) : Conn × ℤ :=
  let r := copyFromUser env buf c
  finishWrite s r.2 r.2 r.1

theorem total_length (iov : List (List U8)) : total List.length iov = iov.flatten.length := by
  simp [total, List.length_flatten]

/-- No copy moves anything: the window is closed, or no memory is left. -/
theorem sameWrite_refused {s : Socket} (hnonblock : s.nonblock = true)
    (hcopy : ∀ buf : List U8, 0 < buf.length → copyFromUser env buf c = (d, -1))
    {iov : List (List U8)} (htotal : 0 < iov.flatten.length) :
    SameWrite (gathered env s iov c) (written env s iov.flatten c) := by
  have hnone := copyAll_refused hcopy (by decide) iov (by rwa [total_length])
  unfold gathered written
  simp only [hnone, hcopy _ htotal, hnonblock]
  exact .refl _

/-- There is room in the buffer. -/
theorem sameWrite_room (s : Socket) (hopen : openSndbuf env c = some b) (hq : Queues W base r b)
    (hsize : b.size = n) (hlen : b.len ≤ n) (hn : n < 2 ^ 32) (hwnd : c.sndWnd.toNat = n - b.len)
    (hroom : 0 < c.sndWnd.toInt) {iov : List (List U8)} (htotal : 0 < iov.flatten.length) :
    SameWrite (gathered env s iov c) (written env s iov.flatten c) := by
  obtain ⟨d, hwritev, hd⟩ := (writev_fills hopen hq hsize hlen hn hwnd hroom iov).copyAll
    (.inl ⟨rfl, rfl⟩)
  obtain ⟨b', hwrite, hq', hsize', hlen'⟩ := copyFromUser_takes htotal hopen hq hsize hwnd hroom
  rw [total_length] at hwritev hd
  obtain ⟨k, hk⟩ : ∃ k, k = min iov.flatten.length (n - b.len) := ⟨_, rfl⟩
  have hkpos : 0 < k := by
    have hint := toInt_eq_of_pos hroom
    omega
  rw [← hk] at hwritev hd hwrite hq' hlen'
  unfold gathered written
  rw [hwritev, hwrite]
  simp only [show ¬ ((k : ℤ) = 0 ∧ s.nonblock = true) by omega, if_false]
  rcases hd with ⟨hzero, -⟩ | ⟨-, b'', chunks, hchunks, hq'', hsize'', hlen'', rfl⟩
  · omega
  have hcontents : b''.contents = b'.contents :=
    Prod.ext (hq''.bytes_eq.trans hq'.bytes_eq.symm) (hq''.headSeq_eq.trans hq'.headSeq_eq.symm)
  exact finishWrite_same s k (hsize''.trans hsize'.symm) (hlen''.trans hlen'.symm) hcontents
    (by simp [hchunks])

/-- In the runs of a configured stack, a gather write to a socket that does not block is a plain
write of all the bytes. -/
theorem writev_eq_write (hconf : Configured n c) (hlive : c.onHashTable = true)
    (hblocks : env.blocks n) (hnonblock : ∀ s, c.socket = some s → s.nonblock = true)
    {iov : List (List U8)} (htotal : 0 < iov.flatten.length) :
    SameWrite (mtcpWritev env iov c) (mtcpWrite env iov.flatten c) := by
  have hroomed := hconf.roomed hlive
  have hsender := hconf.reached.sender hlive
  have hn := hconf.lt
  have hcopied : ∀ s, c.socket = some s →
      SameWrite (gathered env s iov c) (written env s iov.flatten c) := by
    intro s hsock
    by_cases hroom : 0 < c.sndWnd.toInt
    · cases hbuf : c.sndbuf with
      | some b =>
        obtain ⟨⟨r, hq⟩, -⟩ := hsender.queued b hbuf
        obtain ⟨hsize, hlen, hwnd⟩ := hroomed.2 b hbuf
        exact sameWrite_room s (by simp [openSndbuf, hbuf]) hq hsize hlen hn hwnd hroom htotal
      | none =>
        cases hchunk : env.sndChunk with
        | some chunk =>
          exact sameWrite_room s (by simp [openSndbuf, hbuf, hchunk]) (sbInit_queues chunk (c.iss + 1))
            (hblocks chunk hchunk) (Nat.zero_le n) hn (hroomed.1 hbuf) hroom htotal
        | none =>
          refine sameWrite_refused (d := { c with closeReason := .noMem }) (hnonblock s hsock)
            (fun buf hlen => ?_) htotal
          unfold copyFromUser
          simp only [openSndbuf, hbuf, hchunk, Option.map_none]
          exact if_neg (by omega)
    · refine sameWrite_refused (d := c) (hnonblock s hsock) (fun buf hlen => ?_) htotal
      unfold copyFromUser
      exact if_pos (by omega)
  unfold mtcpWritev mtcpWrite
  cases hmap : c.smap with
  | false => exact .refl _
  | true =>
    cases hsock : c.socket with
    | none => exact .refl _
    | some s =>
      simp only [if_neg htotal.ne']
      split
      · exact .refl _
      · exact hcopied s hsock

/-- A connected stream that has four bytes of room left in its send buffer of 16. -/
def crampedConn : Conn :=
  (activeOpen quietEnv ++ [Event.write quietEnv (List.replicate 12 5)]).foldl Event.apply
    connectingConn

theorem quietEnv_blocks : quietEnv.blocks 16 := by
  rintro chunk ⟨rfl⟩
  rfl

theorem configured_crampedConn : Configured 16 crampedConn :=
  Configured.run quietEnv_blocks (.active quietEnv.cfg 100 quietSocket 0 Shared.init true rfl)
    (by decide +kernel) (by decide +kernel)

/-- The second buffer is cut, the last one not reached. -/
theorem writev_eq_write_cut :
    SameWrite (mtcpWritev quietEnv [[1, 2], [], [3, 4, 5], [6]] crampedConn)
      (mtcpWrite quietEnv [1, 2, 3, 4, 5, 6] crampedConn) ∧
      (mtcpWritev quietEnv [[1, 2], [], [3, 4, 5], [6]] crampedConn).2 = 4 := by
  have hsock : crampedConn.socket = some quietSocket := by decide +kernel
  refine ⟨writev_eq_write configured_crampedConn (by decide +kernel) quietEnv_blocks
    (fun s hs => ?_) (by decide), by decide +kernel⟩
  obtain rfl : quietSocket = s := Option.some.inj (hsock.symm.trans hs)
  rfl

end

end MtcpStack
