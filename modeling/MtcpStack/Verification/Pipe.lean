import MtcpStack.Library.BlockRing
import MtcpStack.Verification.PipeCalls

/-! # Pipes are queues of bytes -/

namespace MtcpStack

open Slice BlockRing

namespace Pipe

/-! ## The ring buffer -/

/-- The layout of the buffer when it holds `contents`. -/
structure Ring (p : Pipe) (contents : List U8) : Prop where
  buf_length : p.buf.length = p.bufSize
  off_lt : p.bufOff < p.bufSize
  len_le : p.bufLen ≤ p.bufSize
  tail_eq : p.bufTail = (p.bufOff + p.bufLen) % p.bufSize
  contents_eq : window p.buf p.bufOff p.bufLen = contents

variable {p : Pipe} {contents : List U8}

theorem Ring.length (h : p.Ring contents) : contents.length = p.bufLen := by
  rw [← h.contents_eq, window_length (by rw [h.buf_length]; exact h.len_le)]

theorem add_mod_of_wraps {a n size : ℕ} (ha : a < size) (hn : n ≤ size) (hround : size ≤ a + n) :
    (a + n) % size = n - (size - a) := by
  rw [Nat.mod_eq_sub_mod hround, Nat.mod_eq_of_lt (by omega)]
  omega

/-- The buffer after `n` bytes have been taken out. -/
theorem Ring.advance (h : p.Ring contents) {n : ℕ} (hn : n ≤ p.bufLen) :
    { p with bufOff := (p.bufOff + n) % p.bufSize, bufLen := p.bufLen - n : Pipe }.Ring
      (contents.drop n) where
  buf_length := h.buf_length
  off_lt := Nat.mod_lt _ (by have := h.off_lt; omega)
  len_le := (Nat.sub_le _ _).trans h.len_le
  tail_eq := by
    have hsum : p.bufOff + n + (p.bufLen - n) = p.bufOff + p.bufLen := by omega
    rw [Nat.mod_add_mod, hsum]
    exact h.tail_eq
  contents_eq := by
    have hlen : p.bufLen ≤ p.buf.length := by
      rw [h.buf_length]
      exact h.len_le
    rw [← h.contents_eq, window_drop hlen hn, h.buf_length]

/-- The copy of a read stays inside the buffer and yields the oldest bytes. -/
theorem Ring.copyOut (h : p.Ring contents) {n : ℕ} (hn : n ≤ p.bufLen) :
    p.copyOut n =
      some ({ p with bufOff := (p.bufOff + n) % p.bufSize, bufLen := p.bufLen - n },
        contents.take n) := by
  have hbuf := h.buf_length
  have hoff := h.off_lt
  have hlen := h.len_le
  have htake : contents.take n = window p.buf p.bufOff n := by
    rw [← h.contents_eq, window_take hn]
  rw [Pipe.copyOut, htake]
  split
  case isTrue hfit =>
    rw [slice_eq_window (by omega), Option.map_some, Nat.mod_eq_of_lt hfit]
  case isFalse hround =>
    obtain ⟨hback, hfront, hjoin⟩ :=
      slices_eq_window (m := p.buf) (n := n) (by omega) (by omega)
        (show p.buf.length ≤ p.bufOff + n by omega)
    rw [hbuf] at hback hfront hjoin
    simp only [hback, hfront, Option.bind_some, Option.map_some, hjoin]
    rw [add_mod_of_wraps hoff (by omega) (by omega)]

/-- The copy of a write stays inside the buffer and appends the bytes. -/
theorem Ring.copyIn (h : p.Ring contents) (data : List U8)
    (hfit : data.length ≤ p.bufSize - p.bufLen) :
    ∃ q, p.copyIn data = some q ∧ q.Ring (contents ++ data) ∧ q.state = p.state ∧
      q.bufSize = p.bufSize ∧ q.bufLen = p.bufLen + data.length := by
  have hbuf := h.buf_length
  have hoff := h.off_lt
  have hlen := h.len_le
  have htail : p.bufTail < p.bufSize := by
    rw [h.tail_eq]
    exact Nat.mod_lt _ (by omega)
  -- both ways of copying store the bytes behind the contents
  have key : ∀ buf tail, Stores p.buf buf p.bufTail data →
      tail = (p.bufTail + data.length) % p.bufSize →
      { p with buf, bufTail := tail, bufLen := p.bufLen + data.length : Pipe }.Ring
        (contents ++ data) := by
    intro buf tail hstores htaileq
    refine ⟨hstores.length_eq.trans hbuf, hoff, by simp only; omega, ?_, ?_⟩
    · rw [htaileq, h.tail_eq, Nat.mod_add_mod, Nat.add_assoc]
    · rw [h.tail_eq, ← hbuf] at hstores
      rw [hstores.window (by omega), h.contents_eq]
  rw [Pipe.copyIn]
  split
  case isTrue hend =>
    have hblit : ∃ buf, blit p.buf p.bufTail data = some buf :=
      ⟨_, blit_eq_some.mpr ⟨by omega, rfl⟩⟩
    obtain ⟨buf, hblit⟩ := hblit
    rw [hblit]
    exact ⟨_, rfl, key _ _ (.of_blit hblit) (Nat.mod_eq_of_lt hend).symm, rfl, rfl, rfl⟩
  case isFalse hround =>
    have hfirst : ∃ buf, blit p.buf p.bufTail (data.take (p.bufSize - p.bufTail)) = some buf :=
      ⟨_, blit_eq_some.mpr ⟨by rw [List.length_take]; omega, rfl⟩⟩
    obtain ⟨first, hfirst⟩ := hfirst
    have hlen₁ := blit_length hfirst
    have hsecond : ∃ buf, blit first 0 (data.drop (p.bufSize - p.bufTail)) = some buf :=
      ⟨_, blit_eq_some.mpr ⟨by rw [List.length_drop]; omega, rfl⟩⟩
    obtain ⟨second, hsecond⟩ := hsecond
    simp only [hfirst, hsecond, Option.bind_some, Option.map_some]
    refine ⟨_, rfl, key _ _ ?_ ?_, rfl, rfl, rfl⟩
    · rw [← hbuf] at hfirst hsecond
      exact .of_blits (by omega) (by omega) (by omega) hfirst hsecond
    · rw [add_mod_of_wraps htail (by omega) (by omega)]

/-- A non-blocking read of an active pipe. -/
theorem Ring.read (h : p.Ring contents) (hstate : p.state = .active) {len : ℤ} (hlen : 0 < len) :
    p.read true len =
      if p.bufLen = 0 then p.idle (.error .again)
      else
        ⟨{ p with
            bufOff := (p.bufOff + min len.toNat p.bufLen) % p.bufSize
            bufLen := p.bufLen - min len.toNat p.bufLen },
          .ok (contents.take len.toNat), true, p.bufLen = p.bufSize⟩ := by
  have hpos : 0 < len.toNat := by omega
  have htake : contents.take (min len.toNat p.bufLen) = contents.take len.toNat := by
    rw [← h.length, List.take_eq_take_iff]
    omega
  by_cases hempty : p.bufLen = 0
  · simp [Pipe.read, hstate, hempty, Int.not_le.mpr hlen]
  · have hmin : min len.toNat p.bufLen ≠ 0 := by omega
    simp only [Pipe.read, hstate, Int.not_le.mpr hlen, hempty, hmin, reduceCtorEq, and_false,
      if_false, h.copyOut (min_le_right len.toNat p.bufLen), htake]

/-- A non-blocking write to an active pipe. -/
theorem Ring.write (h : p.Ring contents) (hstate : p.state = .active) {data : List U8}
    (hdata : data ≠ []) :
    p.bufLen = p.bufSize ∧ p.write true data = p.idle (.error .again) ∨
      p.bufLen ≠ p.bufSize ∧
        ∃ q, p.write true data =
            ⟨q, .ok (min data.length (p.bufSize - p.bufLen)), true, p.bufLen = 0⟩ ∧
          q.Ring (contents ++ data.take (min data.length (p.bufSize - p.bufLen))) ∧
          q.state = .active ∧ q.bufSize = p.bufSize := by
  have hpos : data.length ≠ 0 := fun hnil => hdata (List.eq_nil_of_length_eq_zero hnil)
  have hle := h.len_le
  by_cases hfull : p.bufLen = p.bufSize
  · refine .inl ⟨hfull, ?_⟩
    simp [Pipe.write, hstate, hfull, hpos]
  · have hmin : min data.length (p.bufSize - p.bufLen) ≠ 0 := by omega
    obtain ⟨q, hcopy, hring, hq, hsize, -⟩ :=
      h.copyIn (data.take (min data.length (p.bufSize - p.bufLen)))
        (by rw [List.length_take]; omega)
    refine .inr ⟨hfull, q, ?_, hring, hq.trans hstate, hsize⟩
    simp only [Pipe.write, hstate, hpos, hfull, hmin, reduceCtorEq, and_false, if_false, hcopy]

end Pipe

namespace PipeHost

variable {h h' : PipeHost}

/-! ## The two ends -/

/-- Pipe `p` is active, holds `contents` and is the pipe of the sockets `ends`, which do not
block. -/
structure Open (h : PipeHost) (p : ℕ) (ends : List ℕ) (ctx : PipeCtx) (contents : List U8) :
    Prop where
  range : ∀ s ∈ ends, s < h.maxConcurrency
  socktype : ∀ s ∈ ends, (h.ep.smap s).socktype = .pipe
  nonblock : ∀ s ∈ ends, h.nonblock s = true
  ref : ∀ s ∈ ends, h.ref s = .pp p
  pipe : h.pipes p = some ctx
  active : ctx.state = .active
  ring : ctx.toPipe.Ring contents

namespace Open

variable {p : ℕ} {ends : List ℕ} {ctx : PipeCtx} {contents : List U8}

theorem findPipe {α : Type} (ho : Open h p ends ctx contents) {s : ℕ} (hs : s ∈ ends)
    (noPipe : PipeRet α) : h.findPipe s noPipe = .ok (p, ctx) := by
  simp [PipeHost.findPipe, Nat.not_le.mpr (ho.range s hs), ho.socktype s hs, ho.ref s hs, ho.pipe]

/-- After a copy the pipe is open with the new buffer. -/
theorem afterCopy {α : Type} (ho : Open h p ends ctx contents) {r : PipeCopy α}
    {contents' : List U8} (hstate : r.pipe.state = .active) (hring : r.pipe.Ring contents')
    {again : PipeHost → ℕ → Pipe → PipeHost} (hagain : ∀ h i p, Raises (· = i) h (again h i p))
    (s : ℕ) (event : U32) :
    ∃ ctx', Open (h.afterCopy s p ctx r event again) p ends ctx' contents' ∧
      ctx'.bufSize = r.pipe.bufSize := by
  have hr := afterCopy_raises (h := h) hagain s p ctx r event
  refine ⟨{ ctx with toPipe := r.pipe }, ⟨fun k hk => ?_, fun k hk => ?_, fun k hk => ?_,
    fun k hk => ?_, ?_, hstate, hring⟩, rfl⟩
  · rw [hr.maxConcurrency_eq]
    exact ho.range k hk
  · rw [hr.socktype_eq]
    exact ho.socktype k hk
  · rw [hr.nonblock_eq]
    exact ho.nonblock k hk
  · rw [hr.ref_eq]
    exact ho.ref k hk
  · rw [hr.pipes_eq]
    exact Function.update_self ..

theorem pipeRead (ho : Open h p ends ctx contents) {s : ℕ} (hs : s ∈ ends) {len : ℤ}
    (hlen : 0 < len) :
    (h.pipeRead s len).2 =
        (if min len.toNat ctx.bufLen = 0 then .error .again
        else .ok (contents.take len.toNat)) ∧
      ∃ ctx', Open (h.pipeRead s len).1 p ends ctx' (contents.drop len.toNat) ∧
        ctx'.bufSize = ctx.bufSize := by
  have hlength := ho.ring.length
  have hread := ho.ring.read ho.active hlen
  have hcall : h.pipeRead s len =
      (h.afterCopy s p ctx (ctx.toPipe.read true len) epollOut readAgain,
        (ctx.toPipe.read true len).ret) := by
    simp only [PipeHost.pipeRead, ho.findPipe hs, ho.nonblock s hs]
  simp only [hcall]
  by_cases hempty : ctx.bufLen = 0
  · rw [if_pos hempty] at hread
    have hnil : contents = [] := List.eq_nil_of_length_eq_zero (by omega)
    rw [hread, hempty, hnil]
    refine ⟨by simp [Pipe.idle], ho.afterCopy ho.active ?_ (fun _ => readAgain_raises) s _⟩
    rw [List.drop_nil, ← hnil]
    exact ho.ring
  · rw [if_neg hempty] at hread
    rw [hread, if_neg (by omega)]
    refine ⟨rfl, ho.afterCopy ho.active ?_ (fun _ => readAgain_raises) s _⟩
    have hdrop : contents.drop len.toNat = contents.drop (min len.toNat ctx.bufLen) := by
      rw [← hlength, List.drop_eq_drop_iff]
      omega
    rw [hdrop]
    exact ho.ring.advance (min_le_right ..)

theorem pipeWrite (ho : Open h p ends ctx contents) {s : ℕ} (hs : s ∈ ends) {data : List U8}
    (hdata : data ≠ []) :
    (h.pipeWrite s data).2 =
        (if min data.length (ctx.bufSize - ctx.bufLen) = 0 then .error .again
        else .ok (min data.length (ctx.bufSize - ctx.bufLen))) ∧
      ∃ ctx', Open (h.pipeWrite s data).1 p ends ctx'
          (contents ++ data.take (min data.length (ctx.bufSize - ctx.bufLen))) ∧
        ctx'.bufSize = ctx.bufSize := by
  have hcall : h.pipeWrite s data =
      (h.afterCopy s p ctx (ctx.toPipe.write true data) epollIn writeAgain,
        (ctx.toPipe.write true data).ret) := by
    simp only [PipeHost.pipeWrite, ho.findPipe hs, ho.nonblock s hs]
  have hpos : data.length ≠ 0 := fun hnil => hdata (List.eq_nil_of_length_eq_zero hnil)
  have hle := ho.ring.len_le
  simp only [hcall]
  rcases ho.ring.write ho.active hdata with ⟨hfull, hwrite⟩ | ⟨hfull, q, hwrite, hring, hq, hsize⟩
  · have hzero : min data.length (ctx.bufSize - ctx.bufLen) = 0 := by omega
    rw [hwrite, hzero, if_pos rfl, List.take_zero, List.append_nil]
    exact ⟨rfl, ho.afterCopy ho.active ho.ring (fun _ => writeAgain_raises) s _⟩
  · rw [hwrite, if_neg (by omega)]
    rw [← hsize] at hring ⊢
    exact ⟨rfl, ho.afterCopy hq hring (fun _ => writeAgain_raises) s _⟩

end Open

/-! ## Runs on the two ends -/

/-- A call on an end, of a positive length. -/
inductive Transfer where
  | read (len : ℤ) (hlen : 0 < len)
  | write (data : List U8) (hdata : data ≠ [])

/-- The map, the bytes the writes have accepted and those the reads have returned. -/
structure PipeLog where
  host : PipeHost
  accepted : List U8
  returned : List U8

/-- A call on socket `s`, noted. -/
def PipeLog.call (log : PipeLog) (s : ℕ) : Transfer → PipeLog
  | .read len _ =>
    { log with
      host := (log.host.pipeRead s len).1
      returned := log.returned ++
        match (log.host.pipeRead s len).2 with
        | .ok data => data
        | _ => [] }
  | .write data _ =>
    { log with
      host := (log.host.pipeWrite s data).1
      accepted := log.accepted ++
        match (log.host.pipeWrite s data).2 with
        | .ok n => data.take n
        | _ => [] }

/-- Calls on the first end (`false`) or the second one. -/
def PipeLog.run (i j : ℕ) (log : PipeLog) (calls : List (Bool × Transfer)) : PipeLog :=
  calls.foldl (fun log c => log.call (if c.1 then j else i) c.2) log

/-- The pipe is open and what it holds has been accepted and not returned. -/
def PipeLog.Holds (log : PipeLog) (p : ℕ) (ends : List ℕ) : Prop :=
  ∃ ctx contents, log.host.Open p ends ctx contents ∧ ctx.bufSize = pipeBufSize ∧
    log.accepted = log.returned ++ contents

theorem PipeLog.Holds.call {log : PipeLog} {p : ℕ} {ends : List ℕ} (hl : log.Holds p ends) {s : ℕ}
    (hs : s ∈ ends) (t : Transfer) : (log.call s t).Holds p ends := by
  obtain ⟨ctx, contents, ho, hsize, heq⟩ := hl
  cases t with
  | read len hlen =>
    obtain ⟨hret, ctx', ho', hsize'⟩ := ho.pipeRead hs hlen
    refine ⟨ctx', _, ho', hsize'.trans hsize, ?_⟩
    simp only [PipeLog.call, hret, heq, List.append_assoc, List.append_cancel_left_eq]
    split_ifs with hzero
    · have hnil : contents = [] :=
        List.eq_nil_of_length_eq_zero (by rw [ho.ring.length]; omega)
      simp [hnil]
    · exact (List.take_append_drop len.toNat contents).symm
  | write data hdata =>
    obtain ⟨hret, ctx', ho', hsize'⟩ := ho.pipeWrite hs hdata
    refine ⟨ctx', _, ho', hsize'.trans hsize, ?_⟩
    simp only [PipeLog.call, hret, heq, List.append_assoc, List.append_cancel_left_eq]
    split_ifs with hzero
    · rw [hzero, List.take_zero]
    · rfl

theorem PipeLog.Holds.run {log : PipeLog} {p i j : ℕ} (hl : log.Holds p [i, j])
    (calls : List (Bool × Transfer)) : (log.run i j calls).Holds p [i, j] := by
  induction calls generalizing log with
  | nil => exact hl
  | cons c calls ih =>
    refine ih (hl.call ?_ c.2)
    cases c.1 <;> simp

theorem setsockNonblock_ends {i j : ℕ} (hrange : ∀ s ∈ [i, j], s < h.maxConcurrency)
    (htype : ∀ s ∈ [i, j], (h.ep.smap s).socktype = .pipe) :
    (h.mtcpSetsockNonblock i).mtcpSetsockNonblock j =
      { h with nonblock := Function.update (Function.update h.nonblock i true) j true } := by
  have hi := Nat.not_le.mpr (hrange i (by simp))
  have hj := Nat.not_le.mpr (hrange j (by simp))
  simp [mtcpSetsockNonblock, hi, hj, htype i (by simp), htype j (by simp)]

theorem madePipe_ring (chunk : ℕ → U8) (i j : ℕ) : (madePipe chunk i j).toPipe.Ring [] where
  buf_length := by simp [madePipe]
  off_lt := show 0 < 10240 by decide
  len_le := Nat.zero_le _
  tail_eq := rfl
  contents_eq := window_zero

/-- A pipe that has just been made is open and empty once its ends do not block. -/
theorem open_made (hf : h.FreeBelow) {chunk : ℕ → U8} {i j : ℕ}
    (hpipe : h.mtcpPipe true chunk = (h', .ok (i, j))) :
    ((h'.mtcpSetsockNonblock i).mtcpSetsockNonblock j).Open h.nextPipe [i, j]
      (madePipe chunk i j) [] := by
  have hmade := mtcpPipe_made (h := h) true chunk
  rw [hpipe] at hmade
  cases hmade with
  | @made _ _ free free' hi hfree hj hfree' =>
    have hrange : ∀ s ∈ [i, j], s < h.maxConcurrency := by
      simp only [List.forall_mem_cons]
      exact ⟨hf i hi, hf j (hfree hj), by simp⟩
    have htype : ∀ s ∈ [i, j],
        (Function.update (Function.update h.ep.smap i ⟨.pipe, 0, 0, 0⟩) j ⟨.pipe, 0, 0, 0⟩
          s).socktype = .pipe :=
      fun s hs => by rw [update_pair hs]
    have hboth := setsockNonblock_ends
      (h := ((h.taken .pipe i free).taken .pipe j free').joined chunk i j) hrange htype
    rw [hboth]
    exact ⟨hrange, htype, fun s hs => update_pair hs, fun s hs => update_pair hs,
      Function.update_self .., rfl, madePipe_ring chunk i j⟩

/-- A pipe is a queue of bytes. After any non-blocking reads and writes of positive lengths on the
two ends of a new pipe, the bytes that were read are a prefix of those that were accepted and the
buffer has the rest; the next call, on either end, moves as many bytes as are asked for and
available, or fails when that is none. The results show that no copy leaves the buffer. -/
theorem pipe_fifo {ok : PipeHost → PipeCall → Prop} {n : ℕ} (hreach : Reached ok n h)
    {chunk : ℕ → U8} {i j : ℕ} (hpipe : h.mtcpPipe true chunk = (h', .ok (i, j)))
    (calls : List (Bool × Transfer)) :
    let log := PipeLog.run i j
      ⟨(h'.mtcpSetsockNonblock i).mtcpSetsockNonblock j, [], []⟩ calls
    ∃ ctx, log.host.pipes h.nextPipe = some ctx ∧
      ctx.bufLen ≤ ctx.bufSize ∧ ctx.bufSize = pipeBufSize ∧
      ctx.bufTail = (ctx.bufOff + ctx.bufLen) % ctx.bufSize ∧
      log.returned <+: log.accepted ∧
      log.accepted.length = log.returned.length + ctx.bufLen ∧
      ∀ s ∈ [i, j],
        (∀ len : ℤ, 0 < len → (log.host.pipeRead s len).2 =
          if min len.toNat ctx.bufLen = 0 then .error .again
          else .ok ((log.accepted.drop log.returned.length).take (min len.toNat ctx.bufLen))) ∧
        (∀ data : List U8, data ≠ [] → (log.host.pipeWrite s data).2 =
          if min data.length (ctx.bufSize - ctx.bufLen) = 0 then .error .again
          else .ok (min data.length (ctx.bufSize - ctx.bufLen))) := by
  have hstart : PipeLog.Holds ⟨(h'.mtcpSetsockNonblock i).mtcpSetsockNonblock j, [], []⟩
      h.nextPipe [i, j] :=
    ⟨_, [], open_made hreach.freeBelow hpipe, rfl, rfl⟩
  obtain ⟨ctx, contents, ho, hsize, heq⟩ := hstart.run calls
  have hlength := ho.ring.length
  refine ⟨ctx, ho.pipe, ho.ring.len_le, hsize, ho.ring.tail_eq, ⟨contents, heq.symm⟩, ?_,
    fun s hs => ⟨fun len hlen => ?_, fun data hdata => (ho.pipeWrite hs hdata).1⟩⟩
  · rw [heq, List.length_append, hlength]
  · have htake : contents.take (min len.toNat ctx.bufLen) = contents.take len.toNat := by
      rw [← hlength, List.take_eq_take_iff]
      omega
    rw [(ho.pipeRead hs hlen).1, heq, List.drop_left, htake]

theorem pipe_fifo_two :
    ((init 2).mtcpPipe true fun _ => 0).2 = .ok (0, 1) ∧
      ((PipeLog.run 0 1
        ⟨(((init 2).mtcpPipe true fun _ => 0).1.mtcpSetsockNonblock 0).mtcpSetsockNonblock 1,
          [], []⟩
        [(false, .write [1, 2, 3] (by decide)), (true, .read 2 (by decide))]).returned <+:
      (PipeLog.run 0 1
        ⟨(((init 2).mtcpPipe true fun _ => 0).1.mtcpSetsockNonblock 0).mtcpSetsockNonblock 1,
          [], []⟩
        [(false, .write [1, 2, 3] (by decide)), (true, .read 2 (by decide))]).accepted) := by
  have hok : ((init 2).mtcpPipe true fun _ => 0).2 = .ok (0, 1) := by rfl
  have hinit : Reached (fun _ _ => True) 2 (init 2) := .init
  have hpipe : (init 2).mtcpPipe true (fun _ => 0) =
      (((init 2).mtcpPipe true fun _ => 0).1, .ok (0, 1)) := Prod.ext rfl hok
  obtain ⟨ctx, -, -, -, -, hprefix, -⟩ := pipe_fifo hinit hpipe
      [(false, .write [1, 2, 3] (by decide)), (true, .read 2 (by decide))]
  exact ⟨hok, hprefix⟩

end PipeHost

end MtcpStack
