import MtcpStack.Model.SendManager
import MtcpStack.Verification.GatherWrite
import MtcpStack.Verification.StreamQueue

/-! # The send buffers refine queues of bytes

Whatever calls are made on the send buffers of a core, in any order and on buffers that were used
before, every buffer holds what its queue has pending. The streams keep `snd_wnd` within the room of
their buffer, so that `SBPut` takes all that `CopyFromUser` gives it. -/

namespace MtcpStack

open Serial Slice

/-! ## One buffer -/

/-- A send buffer and the queue it stands for: `head_seq` counts what was removed, `cum_len` what
was accepted, and the pending bytes lie at the head, inside the block. -/
structure RefinesQueue {n : ℕ} (t : SendTrace n) (b : SendBuffer) : Prop where
  size_eq : b.size = n
  initSeq_eq : b.initSeq = t.initSeq
  cumLen_eq : b.cumLen = BitVec.ofNat 64 t.queue.accepted.length
  queues : Queues t.queue.accepted t.initSeq t.queue.removed b

section

variable {n : ℕ} {t : SendTrace n} {b : SendBuffer}

theorem RefinesQueue.length_pending (h : RefinesQueue t b) : t.queue.pending.length = b.len := by
  have haccepted := t.queue.length_accepted
  have hqueues := h.queues.length_eq
  omega

theorem RefinesQueue.take_room (h : RefinesQueue t b) (payload : List U8) :
    payload.take (n - t.queue.pending.length) =
      payload.take (min payload.length (b.size - b.len)) := by
  rw [h.length_pending, h.size_eq, min_comm, ← List.take_eq_take_min]

theorem refinesQueue_sbInit {data : List U8} (hdata : data.length = n) (initSeq : U32) :
    RefinesQueue (n := n) (.start initSeq) (sbInit data initSeq) where
  size_eq := hdata
  initSeq_eq := rfl
  cumLen_eq := rfl
  queues := sbInit_queues data initSeq

/-- `SBPut` accepts what there is room for, and the buffer follows its queue. -/
theorem RefinesQueue.put (h : RefinesQueue t b) (payload : List U8) :
    ∃ b' ret, sbPut b payload = some (b', ret) ∧
      ret.toNat = min payload.length (b.size - b.len) ∧ RefinesQueue (t.put payload) b' := by
  obtain ⟨b', ret, hput, hqueues⟩ := h.queues.put payload
  have hret := sbPut_accepts hput
  have haccepted : (t.put payload).queue.accepted = t.queue.accepted ++ payload.take ret.toNat := by
    rw [hret, ← h.take_room]
    rfl
  have hframe : b'.size = b.size ∧ b'.initSeq = b.initSeq ∧
      b'.cumLen = b.cumLen + BitVec.ofNat 64 ret.toNat := by
    cases sbPut_outcome hput with
    | empty | full => exact ⟨rfl, rfl, (BitVec.add_zero _).symm⟩
    | stored => exact ⟨rfl, rfl, rfl⟩
  refine ⟨b', ret, hput, hret, hframe.1.trans h.size_eq, hframe.2.1.trans h.initSeq_eq, ?_, ?_⟩
  · rw [hframe.2.2, h.cumLen_eq, haccepted, List.length_append, List.length_take, hret,
      ← BitVec.ofNat_add, min_eq_left (min_le_left _ _)]
  · rw [haccepted]
    exact hqueues

theorem RefinesQueue.remove (h : RefinesQueue t b) (len : ℕ) :
    RefinesQueue (t.remove len) (sbRemove b len).1 := by
  have hframe : (sbRemove b len).1.size = b.size ∧ (sbRemove b len).1.initSeq = b.initSeq ∧
      (sbRemove b len).1.cumLen = b.cumLen := by
    unfold sbRemove
    simp only
    split_ifs <;> exact ⟨rfl, rfl, rfl⟩
  have hqueues := h.queues.remove len
  rw [← h.length_pending] at hqueues
  exact ⟨hframe.1.trans h.size_eq, hframe.2.1.trans h.initSeq_eq, hframe.2.2.trans h.cumLen_eq,
    hqueues⟩

end

/-! ## All buffers -/

/-- The queue of free buffers has whole blocks in it, and every buffer in use refines its queue. -/
structure HostRefines (chunkSize cnum : ℕ) (h : SbHost) (ts : ℕ → SendTrace (blockSize chunkSize)) :
    Prop where
  chunkSize_eq : h.sbm.chunkSize = chunkSize
  freeq : ∃ es ds, Ring cnum h.sbm.freeq es ds ∧ ∀ b ∈ es, b.data.length = blockSize chunkSize
  bufs : ∀ p b, h.bufs p = some b → RefinesQueue (ts p) b

section

variable {chunkSize cnum : ℕ} {h : SbHost} {ts : ℕ → SendTrace (blockSize chunkSize)}

theorem hostRefines_create (chunkSize cnum : ℕ) :
    HostRefines chunkSize cnum (.create chunkSize cnum) (fun _ => .start 0) where
  chunkSize_eq := rfl
  freeq := ⟨[], [], (queueOk_start cnum).ring, nofun⟩
  bufs := nofun

/-- `SBInit` sets up a block of the right size, new or used before, whatever is in it. -/
theorem HostRefines.sbInit (hh : HostRefines chunkSize cnum h ts) {chunk : Option (List U8)}
    (hchunk : ∀ data ∈ chunk, data.length = blockSize chunkSize) (initSeq : U32) :
    ∃ sbm buf, h.sbm.sbInit chunk initSeq = some (sbm, buf) ∧ sbm.chunkSize = chunkSize ∧
      (∃ es ds, Ring cnum sbm.freeq es ds ∧ ∀ b ∈ es, b.data.length = blockSize chunkSize) ∧
      ∀ b ∈ buf, ∃ data, data.length = blockSize chunkSize ∧ b = MtcpStack.sbInit data initSeq := by
  have hstart : ∀ data : List U8, data.length = blockSize chunkSize →
      h.sbm.start data initSeq = MtcpStack.sbInit data initSeq := by
    intro data hdata
    simp only [SbManager.start, MtcpStack.sbInit, hh.chunkSize_eq, hdata]
  obtain ⟨es, ds, hring, hes⟩ := hh.freeq
  unfold SbManager.sbInit
  rcases hring.streamDequeue with hnone | ⟨b, freeq, hb, hsome, hring'⟩
  · rw [hnone]
    cases chunk with
    | none => exact ⟨_, _, rfl, hh.chunkSize_eq, hh.freeq, by simp⟩
    | some data =>
      refine ⟨_, _, rfl, hh.chunkSize_eq, hh.freeq, ?_⟩
      rintro b ⟨rfl⟩
      exact ⟨data, hchunk data rfl, hstart data (hchunk data rfl)⟩
  · rw [hsome]
    refine ⟨_, _, rfl, hh.chunkSize_eq, ⟨es, _, hring', hes⟩, ?_⟩
    rintro b' ⟨rfl⟩
    exact ⟨b.data, hes b hb, hstart b.data (hes b hb)⟩

/-- The other buffers are not touched. -/
theorem HostRefines.update (hh : HostRefines chunkSize cnum h ts) {p : ℕ} {buf : Option SendBuffer}
    {t : SendTrace (blockSize chunkSize)} (hbuf : ∀ b, buf = some b → RefinesQueue t b) :
    ∀ q b, Function.update h.bufs p buf q = some b →
      RefinesQueue (Function.update ts p t q) b := by
  intro q b hb
  by_cases hq : q = p
  · subst hq
    rw [Function.update_self] at hb ⊢
    exact hbuf b hb
  · rw [Function.update_of_ne hq] at hb ⊢
    exact hh.bufs q b hb

/-- Every allowed call goes through and keeps the refinement. -/
theorem HostRefines.call (hh : HostRefines chunkSize cnum h ts) {c : SbCall}
    (hallowed : h.allows c = true) :
    ∃ h', h.call c = some h' ∧
      HostRefines chunkSize cnum h' ((sbSystem (blockSize chunkSize)).note ts h c) := by
  cases c with
  | init p chunk initSeq =>
    have hchunk : ∀ data ∈ chunk, data.length = blockSize chunkSize := by
      rintro data ⟨rfl⟩
      rw [SbHost.allows, Bool.and_eq_true, hh.chunkSize_eq] at hallowed
      simpa using hallowed.2
    obtain ⟨sbm, buf, hinit, hsize, hfreeq, hnew⟩ := hh.sbInit hchunk initSeq
    refine ⟨⟨sbm, Function.update h.bufs p buf⟩, ?_, hsize, hfreeq, hh.update ?_⟩
    · rw [SbHost.call, hinit]
      rfl
    · rintro b rfl
      obtain ⟨data, hdata, rfl⟩ := hnew b rfl
      exact refinesQueue_sbInit hdata initSeq
  | put p payload =>
    obtain ⟨b, hb⟩ := Option.isSome_iff_exists.mp hallowed
    obtain ⟨b', ret, hput, -, hrefines⟩ := (hh.bufs p b hb).put payload
    refine ⟨{ h with bufs := Function.update h.bufs p (some b') }, ?_, hh.chunkSize_eq, hh.freeq,
      hh.update ?_⟩
    · rw [SbHost.call, hb, Option.bind_some, hput]
      rfl
    · rintro _ ⟨rfl⟩
      exact hrefines
  | remove p len =>
    obtain ⟨b, hb⟩ := Option.isSome_iff_exists.mp hallowed
    refine ⟨{ h with bufs := Function.update h.bufs p (some (sbRemove b len).1) }, ?_,
      hh.chunkSize_eq, hh.freeq, hh.update ?_⟩
    · rw [SbHost.call, hb]
      rfl
    · rintro _ ⟨rfl⟩
      exact (hh.bufs p b hb).remove len
  | free p =>
    obtain ⟨b, hb⟩ := Option.isSome_iff_exists.mp hallowed
    have hb' := hh.bufs p b hb
    obtain ⟨es, ds, hring, hes⟩ := hh.freeq
    obtain ⟨es', hring', hes'⟩ := hring.streamEnqueue b
    refine ⟨⟨h.sbm.sbFree b, Function.update h.bufs p none⟩, ?_, hh.chunkSize_eq,
      ⟨es', ds, hring', ?_⟩, ?_⟩
    · rw [SbHost.call, hb]
      rfl
    · intro x hx
      rcases hes' with rfl | rfl
      · exact hes x hx
      · rcases List.mem_append.mp hx with hx | hx
        · exact hes x hx
        · rw [List.mem_singleton.mp hx]
          exact hb'.queues.data_length.trans hb'.size_eq
    · have hkept : ∀ q b, Function.update h.bufs p none q = some b →
          RefinesQueue (Function.update ts p (ts p) q) b := hh.update nofun
      rwa [Function.update_eq_self] at hkept

theorem SbReached.refines (hrun : SbReached chunkSize cnum h ts) :
    HostRefines chunkSize cnum h ts := by
  refine hrun.invariant (hostRefines_create chunkSize cnum) fun {h ts c} hh hallowed => ?_
  obtain ⟨h', hcall, hh'⟩ := hh.call hallowed
  have hnext : (sbSystem (blockSize chunkSize)).apply h c = h' := by
    change (h.call c).getD h = h'
    rw [hcall, Option.getD_some]
  rwa [hnext]

end

/-! ## The window of a stream -/

/-- The send window is no larger than the room in the buffer, or in the block of a buffer that is
not there yet. -/
structure Backed (n : ℕ) (p : StreamLedger) : Prop where
  unopened : p.sndbuf = none → p.sndWnd.toNat ≤ n
  queued : ∀ b, p.sndbuf = some b → b.size = n ∧ p.sndWnd.toNat ≤ n - b.len ∧
    ∃ W base r, Queues W base r b

theorem Backed.step {n : ℕ} {env : Env} {p q : StreamLedger} (h : Backed n p) (hn : n < 2 ^ 32)
    (hblocks : env.blocks n) (hstep : LedgerStep env p q) : Backed n q := by
  -- both writers of the window set it to what is free of the buffer they leave
  have hfree : ∀ {W : List U8} {base : U32} {r : ℕ} {b : SendBuffer}, b.size = n →
      Queues W base r b → (BitVec.ofNat 32 b.size - BitVec.ofNat 32 b.len).toNat ≤ n - b.len := by
    intro W base r b hsize hq
    have htail := hq.tail_eq
    have hle := hq.tail_le
    rw [freeRoom_toNat (by omega) (by omega), hsize]
  cases hstep with
  | touched | timed | untimed | waited | unwaited => exact ⟨h.unopened, h.queued⟩
  | @released b len hbuf =>
    obtain ⟨hsize, -, W, base, r, hq⟩ := h.queued b hbuf
    have hsize' := (sbRemove_shape b len).2.2.trans hsize
    refine ⟨nofun, ?_⟩
    rintro _ ⟨rfl⟩
    exact ⟨hsize', hfree hsize' (hq.remove len), W, base, _, hq.remove len⟩
  | @opened chunk iss hbuf hchunk hroom =>
    refine ⟨nofun, ?_⟩
    rintro _ ⟨rfl⟩
    exact ⟨hblocks chunk hchunk, h.unopened hbuf, [], iss, 0, sbInit_queues chunk iss⟩
  | @wrote b b' bytes ret hbuf hput =>
    obtain ⟨hsize, -, W, base, r, hq⟩ := h.queued b hbuf
    obtain ⟨b'', ret', hput', hq'⟩ := hq.put bytes
    obtain ⟨rfl, rfl⟩ := Prod.mk.inj (Option.some.inj (hput'.symm.trans hput))
    have hsize' : b''.size = n := by
      rcases sbPut_shape hput with ⟨-, rfl⟩ | ⟨-, -, -, -, -, hsize'⟩
      · exact hsize
      · exact hsize'.trans hsize
    refine ⟨nofun, ?_⟩
    rintro _ ⟨rfl⟩
    exact ⟨hsize', hfree hsize' hq', _, base, r, hq'⟩
  | freed =>
    refine ⟨fun _ => ?_, nofun⟩
    cases hbuf : p.sndbuf with
    | none => exact h.unopened hbuf
    | some b => exact (h.queued b hbuf).2.1.trans (Nat.sub_le n b.len)

section

variable {n : ℕ} {c : Conn}

theorem Configured.backed (h : Configured n c) : Backed n c.ledger :=
  h.invariant (fun _ _ _ _ hsize => ⟨fun _ => hsize.le, nofun⟩)
    (fun hblocks hstep hbacked => hbacked.step h.lt hblocks hstep)
    (fun _ hbacked => ⟨hbacked.unopened, hbacked.queued⟩)

/-- `SBPut` takes all of the `sndlen` bytes that `CopyFromUser` gives it. -/
theorem Configured.put_sndlen (h : Configured n c) {env : Env} (hblocks : env.blocks n)
    {buf : List U8} {b : SendBuffer} (hopen : openSndbuf env c = some b)
    (hpos : 0 < min c.sndWnd.toInt (buf.length : ℤ)) :
    ∃ b', sbPut b (buf.take (min c.sndWnd.toInt (buf.length : ℤ)).toNat) =
      some (b', min c.sndWnd.toInt (buf.length : ℤ)) := by
  have hroom : b.size = n ∧ c.sndWnd.toNat ≤ n - b.len ∧ ∃ W base r, Queues W base r b := by
    cases hbuf : c.sndbuf with
    | some b₀ =>
      obtain rfl : b₀ = b := by simpa [openSndbuf, hbuf] using hopen
      exact h.backed.queued b₀ hbuf
    | none =>
      obtain ⟨chunk, hchunk, rfl⟩ : ∃ chunk, env.sndChunk = some chunk ∧
          sbInit chunk (c.iss + 1) = b := by simpa [openSndbuf, hbuf] using hopen
      exact ⟨hblocks chunk hchunk, h.backed.unopened hbuf, [], _, 0, sbInit_queues chunk _⟩
  obtain ⟨hsize, hwnd, W, base, r, hq⟩ := hroom
  have hint := toInt_eq_of_pos (lt_min_iff.mp hpos).1
  obtain ⟨k, hk⟩ := Int.eq_ofNat_of_zero_le hpos.le
  have hlength : (buf.take k).length = k := by
    rw [List.length_take]
    omega
  obtain ⟨b', hput, -⟩ := hq.put_whole (show 0 < (buf.take k).length by omega) (by omega)
  rw [hlength] at hput
  rw [hk, Int.toNat_natCast]
  exact ⟨b', hput⟩

end

/-- The send buffers of a core refine queues of bytes under every sequence of calls, all of which go
through, and the assertion of `CopyFromUser` holds in the runs of every stream whose send buffers
have that size. -/
theorem send_buffer_refines_queue {chunkSize cnum : ℕ} {h : SbHost}
    {ts : ℕ → SendTrace (blockSize chunkSize)} (hrun : SbReached chunkSize cnum h ts) {c : Conn}
    (hconf : Configured (blockSize chunkSize) c) :
    (∀ p b, h.bufs p = some b →
      slice b.data b.head b.len = some (ts p).queue.pending ∧
      b.initSeq = (ts p).initSeq ∧ b.headSeq = b.initSeq + BitVec.ofNat 32 (ts p).queue.removed ∧
      b.cumLen = BitVec.ofNat 64 (ts p).queue.accepted.length ∧
      b.head = b.headOff ∧ b.tailOff = b.headOff + b.len ∧ b.tailOff ≤ b.size ∧
      b.data.length = b.size ∧
      (∀ payload, ∃ b' ret, sbPut b payload = some (b', ret) ∧
        ret.toNat = min payload.length (b.size - b.len) ∧
        slice b'.data b'.head b'.len = some ((ts p).queue.pending ++ payload.take ret.toNat)) ∧
      ∀ len, slice (sbRemove b len).1.data (sbRemove b len).1.head (sbRemove b len).1.len =
        some ((ts p).queue.pending.drop len)) ∧
    (∀ call, h.allows call = true → (h.call call).isSome = true) ∧
    (c.onHashTable = true → ∀ b, c.sndbuf = some b → c.sndWnd.toNat = b.size - b.len) ∧
    ∀ (env : Env) (buf : List U8) (b : SendBuffer), env.blocks (blockSize chunkSize) →
      openSndbuf env c = some b → 0 < min c.sndWnd.toInt (buf.length : ℤ) →
      ∃ b', sbPut b (buf.take (min c.sndWnd.toInt (buf.length : ℤ)).toNat) =
        some (b', min c.sndWnd.toInt (buf.length : ℤ)) := by
  have hrefines := hrun.refines
  refine ⟨fun p b hb => ?_, fun call hallowed => ?_, fun hlive b hbuf => ?_, ?_⟩
  · have hr := hrefines.bufs p b hb
    have hq := hr.queues
    refine ⟨hq.bytes_eq, hr.initSeq_eq, ?_, hr.cumLen_eq, hq.head_eq, hq.tail_eq, hq.tail_le,
      hq.data_length, fun payload => ?_, fun len => ?_⟩
    · rw [hq.headSeq_eq, hr.initSeq_eq]
      rfl
    · obtain ⟨b', ret, hput, hret, hr'⟩ := hr.put payload
      have hpending := (ts p).queue.pending_put payload
      rw [hr.take_room, ← hret] at hpending
      exact ⟨b', ret, hput, hret, hr'.queues.bytes_eq.trans (congrArg some hpending)⟩
    · exact (hr.remove len).queues.bytes_eq.trans
        (congrArg some ((ts p).queue.pending_remove len))
  · obtain ⟨h', hcall, -⟩ := hrefines.call hallowed
    rw [hcall]
    rfl
  · obtain ⟨hsize, -, hwnd⟩ := (hconf.roomed hlive).2 b hbuf
    rw [hsize]
    exact hwnd
  · intro env buf b hblocks hopen hpos
    exact hconf.put_sndlen hblocks hopen hpos

/-- A buffer is filled, so that its bytes move to the front, freed, and taken from the queue for
another stream when the pool is empty. -/
def recycledCalls : List SbCall :=
  [.init 0 (some (List.replicate 16 0)) 100, .put 0 [1, 2, 3], .remove 0 2,
    .put 0 (List.replicate 20 7), .free 0, .init 1 none 500, .put 1 [9]]

theorem send_buffer_refines_queue_recycled :
    let r := (sbSystem (blockSize 16)).after (.create 16 1) (fun _ => .start 0) recycledCalls
    (∃ b, r.1.bufs 1 = some b ∧ b.data.getD 1 0 = 7 ∧ b.headSeq = 500 ∧
      slice b.data b.head b.len = some (r.2 1).queue.pending ∧ (r.2 1).queue.pending = [9]) ∧
    ∃ b b', openSndbuf quietEnv crampedConn = some b ∧ sbPut b [1, 2, 3, 4] = some (b', 4) := by
  intro r
  have hfacts := send_buffer_refines_queue (Noting.Run.start.after (by decide +kernel) :
    SbReached 16 1 r.1 r.2) configured_crampedConn
  constructor
  · obtain ⟨b, hb⟩ := Option.isSome_iff_exists.mp
      (show (r.1.bufs 1).isSome = true by decide +kernel)
    have hvalues : (r.1.bufs 1).map (fun b => (b.data.getD 1 0, b.headSeq)) = some (7, 500) := by
      decide +kernel
    rw [hb, Option.map_some, Option.some.injEq, Prod.mk.injEq] at hvalues
    exact ⟨b, hb, hvalues.1, hvalues.2, (hfacts.1 1 b hb).1, by decide +kernel⟩
  · obtain ⟨b, hopen⟩ := Option.isSome_iff_exists.mp
      (show (openSndbuf quietEnv crampedConn).isSome = true by decide +kernel)
    have hwnd : min crampedConn.sndWnd.toInt (([1, 2, 3, 4, 5, 6] : List U8).length : ℤ) = 4 := by
      decide +kernel
    have hput := hfacts.2.2.2 quietEnv [1, 2, 3, 4, 5, 6] b quietEnv_blocks hopen
      (hwnd ▸ by decide)
    rw [hwnd] at hput
    obtain ⟨b', hput⟩ := hput
    exact ⟨b, b', hopen, hput⟩

end MtcpStack
