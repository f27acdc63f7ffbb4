import MtcpStack.Model.Vectored
import MtcpStack.Verification.OfferedWindow

/-! # Scatter reads

`mtcp_readv` takes from the receive buffer what one `mtcp_recv` of the total length takes. The
two differ in the event they leave behind at the end of a stream. -/

namespace MtcpStack

open Pieces Slice

variable {c d : Conn} {b : RingBuffer} {s : Socket}

/-- A receive buffer from which the in-order bytes can be taken in any portions: they lie inside
the memory block, and the first fragment covers them. -/
structure Readable (b : RingBuffer) : Prop where
  head_eq : b.head = b.headOffset
  fits : b.head + b.mergedLen ≤ b.data.length
  merged_le : b.mergedLen ≤ b.size
  size_lt : b.size < 2 ^ 31
  first : ∃ f rest, b.fctx = f :: rest ∧ b.mergedLen ≤ f.len

/-- The buffers of the runs are readable. -/
theorem Reached.readable {avoid : Hazard → Prop} (hroom : avoid .smallBuffer)
    (hreached : Reached avoid c) (hrcv : c.rcvbuf = some b) (hmerged : 0 < b.mergedLen) :
    Readable b := by
  obtain ⟨-, -, h, ⟨acc, hholds⟩, -⟩ := (hreached.window hroom).buffered b hrcv
  obtain ⟨ivs, hinv, -⟩ := hholds.inv
  have hlen : b.mergedLen = Intervals.prefixLen h ivs := hinv.merged_eq
  have hle : b.mergedLen ≤ b.lastLen := hinv.mergedLen_le
  have hlast : b.headOffset + b.lastLen ≤ b.size := hinv.toRbMem.lastLen_le
  have hhead : b.head = b.headOffset := hinv.head_eq
  have hdata : b.data.length = b.size := by simpa [RingBuffer.blank] using hinv.data_length
  have hsize : b.size < 2 ^ 30 := hholds.size_lt
  refine ⟨hhead, by omega, by omega, by omega, ?_⟩
  have hfctx : b.fctx = ivs.map (toFrag (c.core.irs + 1)) := hinv.fctx_eq
  cases ivs with
  | nil => exact absurd hlen hmerged.ne'
  | cons p ps =>
    refine ⟨_, _, hfctx, ?_⟩
    rw [hlen, Intervals.prefixLen]
    split
    case isTrue hstart => exact Nat.sub_le_sub_left hstart.le p.2
    case isFalse => exact Nat.zero_le _

/-! ## Taking bytes from the buffer -/

/-- The fragments left when `n` bytes have been taken from the first one. -/
def dropped (n : ℕ) : List FragmentCtx → List FragmentCtx
  | [] => []
  | f :: rest =>
    if n = f.len then rest else ⟨f.seq + BitVec.ofNat 32 n, f.len - n⟩ :: rest

/-- The buffer after `n` bytes have been taken. -/
def RingBuffer.taken (b : RingBuffer) (n : ℕ) : RingBuffer :=
  { b with
    headOffset := b.headOffset + n
    head := b.headOffset + n
    headSeq := b.headSeq + BitVec.ofNat 32 n
    mergedLen := b.mergedLen - n
    lastLen := b.lastLen - n
    fctx := dropped n b.fctx }

theorem Readable.remove (hb : Readable b) {n : ℕ} (hpos : 0 < n) (hle : n ≤ b.mergedLen) :
    rbRemove b n = some (b.taken n, n) := by
  obtain ⟨f, rest, hfctx, hfirst⟩ := hb.first
  have hdrop : dropFragment b.fctx n = some (dropped n b.fctx) := by
    simp only [hfctx, dropFragment, dropped]
    split
    · rfl
    · exact if_pos (by omega)
  unfold rbRemove
  simp only [if_neg (Nat.not_lt.2 hle), if_neg hpos.ne', hdrop, Option.map_some]
  rfl

theorem Readable.taken (hb : Readable b) {n : ℕ} (hlt : n < b.mergedLen) : Readable (b.taken n) := by
  obtain ⟨f, rest, hfctx, hfirst⟩ := hb.first
  have hhead := hb.head_eq
  have hfits := hb.fits
  have hmerged := hb.merged_le
  refine ⟨rfl, ?_, ?_, hb.size_lt, ⟨f.seq + BitVec.ofNat 32 n, f.len - n⟩, rest, ?_, ?_⟩
  · simp only [RingBuffer.taken]
    omega
  · simp only [RingBuffer.taken]
    omega
  · simp only [RingBuffer.taken, dropped, hfctx]
    exact if_neg (by omega)
  · exact Nat.sub_le_sub_right hfirst n

/-- Two portions are one. -/
theorem Readable.taken_taken (hb : Readable b) {m n : ℕ} (hlt : m < b.mergedLen) :
    (b.taken m).taken n = b.taken (m + n) := by
  obtain ⟨f, rest, hfctx, hfirst⟩ := hb.first
  have hfragments : dropped n (dropped m b.fctx) = dropped (m + n) b.fctx := by
    simp only [hfctx, dropped, if_neg (show ¬ m = f.len by omega)]
    by_cases hall : n = f.len - m
    · rw [if_pos hall, if_pos (by omega)]
    · rw [if_neg hall, if_neg (by omega)]
      simp [BitVec.ofNat_add, add_assoc, Nat.sub_sub]
  simp only [RingBuffer.taken, hfragments, Nat.sub_sub, add_assoc, BitVec.ofNat_add]

/-! ## One copy -/

/-- The stream after bytes have been delivered in the portions `chunks`, `n` bytes together. -/
def delivered (c : Conn) (b : RingBuffer) (chunks : List (List U8)) (n : ℕ) : Conn :=
  advertiseWindow
    { c with
      log := c.log ++ chunks.map Act.delivered
      rcvbuf := some (b.taken n)
      rcvWnd := BitVec.ofNat 32 (b.size - (b.mergedLen - n)) }

/-- The first `n` bytes of `b` have been delivered, in whatever portions. -/
def ReadSoFar (c : Conn) (b : RingBuffer) (n : ℕ) (d : Conn) : Prop :=
  (n = 0 ∧ d = c) ∨
    (0 < n ∧ ∃ chunks, slice b.data b.head n = some chunks.flatten ∧ d = delivered c b chunks n)

@[simp] theorem advertiseWindow_rcvbuf (c : Conn) : (advertiseWindow c).rcvbuf = c.rcvbuf := by
  unfold advertiseWindow
  split <;> rfl

theorem delivered_rcvbuf (c : Conn) (b : RingBuffer) (chunks : List (List U8)) (n : ℕ) :
    (delivered c b chunks n).rcvbuf = some (b.taken n) :=
  advertiseWindow_rcvbuf _

/-- A window that opens further is not advertised a second time. -/
theorem delivered_again (hb : Readable b) (chunks : List (List U8)) (bytes : List U8) {m n : ℕ}
    (hfit : m + n ≤ b.mergedLen) :
    advertiseWindow
        { (delivered c b chunks m).act (.delivered bytes) with
          rcvbuf := some (b.taken (m + n))
          rcvWnd := BitVec.ofNat 32 (b.size - (b.mergedLen - (m + n))) } =
      delivered c b (chunks ++ [bytes]) (m + n) := by
  have hmerged := hb.merged_le
  have hsize := hb.size_lt
  have hnarrow : (BitVec.ofNat 32 (b.size - (b.mergedLen - m))).toNat = b.size - (b.mergedLen - m) := by
    rw [BitVec.toNat_ofNat, Nat.mod_eq_of_lt (by omega)]
  have hwide : (BitVec.ofNat 32 (b.size - (b.mergedLen - (m + n)))).toNat =
      b.size - (b.mergedLen - (m + n)) := by
    rw [BitVec.toNat_ofNat, Nat.mod_eq_of_lt (by omega)]
  unfold delivered
  by_cases hadv : c.needWndAdv ∧ c.effMss.toNat < b.size - (b.mergedLen - m) ∧ c.onAckq = false
  · have hopen : c.effMss.toNat < b.size - (b.mergedLen - (m + n)) := by omega
    simp [advertiseWindow, Conn.act, hnarrow, hwide, hadv, hopen]
  · rw [show advertiseWindow { c with
      log := c.log ++ chunks.map Act.delivered
      rcvbuf := some (b.taken m)
      rcvWnd := BitVec.ofNat 32 (b.size - (b.mergedLen - m)) } = _ from
        if_neg (by simpa only [hnarrow] using hadv)]
    simp [Conn.act]

theorem copyToIov_moves (hb : Readable b) {len n : ℕ} (hrcv : c.rcvbuf = some b) (hlen : 0 < len)
    (hleft : n < b.mergedLen) (hd : ReadSoFar c b n d) :
    ∃ d', copyToIov len d = (d', ((min len (b.mergedLen - n) : ℕ) : ℤ)) ∧
      ReadSoFar c b (min (n + len) b.mergedLen) d' := by
  have hhead := hb.head_eq
  have hfits := hb.fits
  obtain ⟨k, hk⟩ : ∃ k, k = min len (b.mergedLen - n) := ⟨_, rfl⟩
  have hsum : min (n + len) b.mergedLen = n + k := by omega
  rw [← hk, hsum]
  rcases hd with ⟨rfl, rfl⟩ | ⟨hpos, chunks, hslice, rfl⟩
  · have hall : slice b.data b.head k = some ((b.data.drop b.head).take k) :=
      slice_eq_some.2 ⟨by omega, rfl⟩
    have hrem := hb.remove (n := k) (by omega) (by omega)
    refine ⟨_, ?_, .inr ⟨by omega, [(b.data.drop b.head).take k], ?_, rfl⟩⟩
    · unfold copyToIov copyToUser
      rw [hrcv]
      simp only [show min b.mergedLen len = k by omega, if_neg (show ¬ k = 0 by omega), hall, hrem]
      simp [delivered, Conn.act, RingBuffer.taken]
    · simpa using hall
  · have hb' := hb.taken hleft
    have hrem := hb'.remove (n := k) (by omega) (by simp only [RingBuffer.taken]; omega)
    have hall : slice (b.taken n).data (b.taken n).head k =
        some ((b.data.drop (b.head + n)).take k) := by
      rw [hhead]
      exact slice_eq_some.2 ⟨by simp only [RingBuffer.taken]; omega, rfl⟩
    refine ⟨delivered c b (chunks ++ [(b.data.drop (b.head + n)).take k]) (n + k), ?_,
      .inr ⟨by omega, chunks ++ [(b.data.drop (b.head + n)).take k], ?_, rfl⟩⟩
    · rw [← delivered_again hb chunks _ (show n + k ≤ b.mergedLen by omega)]
      unfold copyToIov copyToUser
      rw [delivered_rcvbuf]
      simp only [show min (b.taken n).mergedLen len = k by simp only [RingBuffer.taken]; omega,
        if_neg (show ¬ k = 0 by omega), hall, hrem, hb.taken_taken hleft]
      rfl
    · obtain ⟨-, hbytes⟩ := slice_eq_some.1 hslice
      rw [slice_eq_some]
      refine ⟨by omega, ?_⟩
      simp [hbytes, List.take_add, List.drop_drop]

theorem copyToIov_full {len : ℕ} (hmerged : 0 < b.mergedLen) (hd : ReadSoFar c b b.mergedLen d) :
    copyToIov len d = (d, -1) := by
  rcases hd with ⟨hzero, -⟩ | ⟨-, chunks, -, rfl⟩
  · omega
  · unfold copyToIov copyToUser
    rw [delivered_rcvbuf]
    simp [RingBuffer.taken]

theorem readv_fills (hb : Readable b) (hrcv : c.rcvbuf = some b) (hmerged : 0 < b.mergedLen)
    (iov : List ℕ) : Fills id copyToIov b.mergedLen iov (ReadSoFar c b) where
  move _ hlen hleft hd := copyToIov_moves hb hrcv hlen hleft hd
  full hd := ⟨_, _, copyToIov_full hmerged hd, by decide, hd⟩

/-! ## The two calls -/

def raisedEvents (log : List Act) : List AppEvent :=
  log.filterMap fun a =>
    match a with
    | .raised e => some e
    | _ => none

/-- Two reads that the application and the rest of the stack cannot tell apart: the trace may show
the bytes in other portions. -/
structure SameRead (r r' : Conn × ℤ) : Prop where
  value : r.2 = r'.2
  bytes : deliveredBytes r.1.log = deliveredBytes r'.1.log
  events : raisedEvents r.1.log = raisedEvents r'.1.log
  rest : { r.1 with log := [] } = { r'.1 with log := [] }

theorem SameRead.refl (r : Conn × ℤ) : SameRead r r := ⟨rfl, rfl, rfl, rfl⟩

/-- The stream after a read, but for its trace. -/
theorem delivered_forget (c : Conn) (b : RingBuffer) (chunks chunks' : List (List U8)) (n : ℕ) :
    { delivered c b chunks n with log := [] } = { delivered c b chunks' n with log := [] } := by
  unfold delivered advertiseWindow
  simp only
  split_ifs <;> rfl

theorem delivered_log (c : Conn) (b : RingBuffer) (chunks : List (List U8)) (n : ℕ) :
    (delivered c b chunks n).log = c.log ++ chunks.map Act.delivered := by
  unfold delivered advertiseWindow
  split_ifs <;> rfl

theorem delivered_state (c : Conn) (b : RingBuffer) (chunks : List (List U8)) (n : ℕ) :
    (delivered c b chunks n).state = c.state := by
  unfold delivered advertiseWindow
  split_ifs <;> rfl

theorem deliveredBytes_delivered (c : Conn) (b : RingBuffer) (chunks : List (List U8)) (n : ℕ) :
    deliveredBytes (delivered c b chunks n).log = deliveredBytes c.log ++ chunks.flatten := by
  simp [delivered_log, deliveredBytes, List.flatMap_map]

theorem raisedEvents_delivered (c : Conn) (b : RingBuffer) (chunks : List (List U8)) (n : ℕ) :
    raisedEvents (delivered c b chunks n).log = raisedEvents c.log := by
  simp [delivered_log, raisedEvents, List.filterMap_map]

/-- Whether any event is asked for: `socket->epoll` is not zero. -/
def Socket.registered (s : Socket) : Prop :=
  s.epollIn ∨ s.epollOut ∨ s.epollErr ∨ s.epollRdhup ∨ s.epollEt

/-- When a reader that has taken `n` bytes has an event to leave behind. -/
def Remaining (c : Conn) (s : Socket) (b : RingBuffer) (n : ℕ) : Prop :=
  (s.epollIn ∧ s.epollEt = false ∧ 0 < b.mergedLen - n) ∨
    (c.state = .closeWait ∧ b.mergedLen - n = 0 ∧ 0 < n)

/-- What is done behind two tests is done when both hold. -/
theorem ite_ite_cases {α : Type*} {p q : Prop} [Decidable p] [Decidable q] (x y : α) :
    (p ∧ q ∧ (if p then if q then x else y else y) = x) ∨
      (¬ (p ∧ q) ∧ (if p then if q then x else y else y) = y) := by
  by_cases hp : p
  · by_cases hq : q
    · exact .inl ⟨hp, hq, by rw [if_pos hp, if_pos hq]⟩
    · exact .inr ⟨fun h => hq h.2, by rw [if_pos hp, if_neg hq]⟩
  · exact .inr ⟨fun h => hp h.1, if_neg hp⟩

/-- `mtcp_recv` leaves the event to any registered socket. -/
theorem remindReader_cases (c : Conn) (s : Socket) (b : RingBuffer) (chunks : List (List U8)) (n : ℕ) :
    (Remaining c s b n ∧ s.registered ∧ remindReader s n (delivered c b chunks n) =
        (delivered c b chunks n).act (.raised .read)) ∨
      (¬ (Remaining c s b n ∧ s.registered) ∧
        remindReader s n (delivered c b chunks n) = delivered c b chunks n) := by
  unfold remindReader Remaining Socket.registered
  simp only [delivered_rcvbuf, delivered_state, RingBuffer.taken, Nat.cast_pos]
  exact ite_ite_cases _ _

/-- `mtcp_readv` leaves it to a socket that waits for input, level triggered. -/
theorem remindVectorReader_cases (c : Conn) (s : Socket) (b : RingBuffer) (chunks : List (List U8))
    (n : ℕ) :
    (Remaining c s b n ∧ (s.epollIn ∧ s.epollEt = false) ∧
        remindVectorReader s n (delivered c b chunks n) =
          (delivered c b chunks n).act (.raised .read)) ∨
      (¬ (Remaining c s b n ∧ s.epollIn ∧ s.epollEt = false) ∧
        remindVectorReader s n (delivered c b chunks n) = delivered c b chunks n) := by
  unfold remindVectorReader Remaining
  simp only [delivered_rcvbuf, delivered_state, RingBuffer.taken, Nat.cast_pos]
  exact ite_ite_cases _ _

theorem sameRead_delivered {chunks chunks' : List (List U8)} {n : ℕ}
    (hbytes : chunks.flatten = chunks'.flatten) :
    SameRead (delivered c b chunks n, (n : ℤ)) (delivered c b chunks' n, (n : ℤ)) where
  value := rfl
  bytes := by simp only [deliveredBytes_delivered, hbytes]
  events := by simp only [raisedEvents_delivered]
  rest := delivered_forget c b chunks chunks' n

theorem SameRead.act {d d' : Conn} {n : ℤ} (h : SameRead (d, n) (d', n)) (e : AppEvent) :
    SameRead (d.act (.raised e), n) (d'.act (.raised e), n) where
  value := rfl
  bytes := by simpa [Conn.act, deliveredBytes] using h.bytes
  events := by simpa [Conn.act, raisedEvents] using h.events
  rest := h.rest

/-- The part of the two calls behind their checks. -/
theorem sameRead_merged_iff {iov : List ℕ} (htotal : 0 < iov.sum) (hb : Readable b)
    (hrcv : c.rcvbuf = some b) (hpos : 0 < b.mergedLen) :
    SameRead (remindVectorReader s (copyAll id copyToIov iov 0 c).2 (copyAll id copyToIov iov 0 c).1,
        (copyAll id copyToIov iov 0 c).2)
      (remindReader s (copyToUser b iov.sum c).2 (copyToUser b iov.sum c).1,
        (copyToUser b iov.sum c).2) ↔
    (c.state = .closeWait → b.mergedLen ≤ iov.sum → s.registered →
      s.epollIn = true ∧ s.epollEt = false) := by
  have hsum : total id iov = iov.sum := by simp [total]
  -- both calls take the first `n` bytes, each in its own portions
  obtain ⟨d, hreadv, hd⟩ := (readv_fills hb hrcv hpos iov).copyAll (.inl ⟨rfl, rfl⟩)
  obtain ⟨d', hread, hd'⟩ := copyToIov_moves hb hrcv htotal hpos (.inl ⟨rfl, rfl⟩)
  rw [copyToIov, hrcv] at hread
  simp only [Nat.sub_zero, Nat.zero_add] at hread hd'
  rw [hsum] at hreadv hd
  obtain ⟨n, hn⟩ : ∃ n, n = min iov.sum b.mergedLen := ⟨_, rfl⟩
  rw [← hn] at hreadv hread hd hd'
  rw [hreadv, hread]
  rcases hd with ⟨hzero, -⟩ | ⟨-, chunks, hslice, rfl⟩
  · omega
  rcases hd' with ⟨hzero, -⟩ | ⟨-, chunks', hslice', rfl⟩
  · omega
  have hbytes : chunks.flatten = chunks'.flatten := Option.some.inj (hslice.symm.trans hslice')
  have hsame : SameRead (delivered c b chunks n, (n : ℤ)) (delivered c b chunks' n, (n : ℤ)) :=
    sameRead_delivered hbytes
  rcases remindVectorReader_cases c s b chunks n with ⟨hrem, hlevel, hleft⟩ | ⟨hno, hleft⟩
  · rcases remindReader_cases c s b chunks' n with ⟨-, -, hleft'⟩ | ⟨hno', -⟩
    · rw [hleft, hleft']
      exact iff_of_true (hsame.act .read) fun _ _ _ => hlevel
    · exact absurd ⟨hrem, .inl hlevel.1⟩ hno'
  · rcases remindReader_cases c s b chunks' n with ⟨hrem, hreg, hleft'⟩ | ⟨hno', hleft'⟩
    · -- Only `mtcp_recv` leaves an event.
      rw [hleft, hleft']
      refine iff_of_false (fun h => ?_) fun hend => hno ⟨hrem, ?_⟩
      · have hevents := h.events
        simp only [Conn.act, raisedEvents, List.filterMap_append] at hevents
        have hraised := raisedEvents_delivered c b chunks n
        have hraised' := raisedEvents_delivered c b chunks' n
        simp only [raisedEvents] at hraised hraised'
        rw [hraised, hraised'] at hevents
        simp at hevents
      · rcases hrem with ⟨hin, het, -⟩ | ⟨hwait, hempty, -⟩
        · exact ⟨hin, het⟩
        · exact hend hwait (by omega) hreg
    · rw [hleft, hleft']
      refine iff_of_true hsame fun hwait hall hreg => absurd ⟨.inr ⟨hwait, ?_, ?_⟩, hreg⟩ hno'
      · omega
      · omega

/-- The socket is told of the end of the stream by both calls: if the read takes the last bytes
before the peer's FIN, and the socket waits for some event, then it waits, level triggered, for
input. -/
def EndTold (c : Conn) (total : ℕ) : Prop :=
  ∀ s b, c.smap = true → c.socket = some s → c.rcvbuf = some b → c.state = .closeWait →
    0 < b.mergedLen → b.mergedLen ≤ total → s.registered → s.epollIn = true ∧ s.epollEt = false

/-- A scatter read is a plain read of the total length exactly when the end of the stream is told
by both. -/
theorem readv_eq_recv {iov : List ℕ} (htotal : 0 < iov.sum)
    (hbuf : ∀ b, c.rcvbuf = some b → 0 < b.mergedLen → Readable b) :
    SameRead (mtcpReadv iov c) (mtcpRead iov.sum c) ↔ EndTold c iov.sum := by
  unfold mtcpReadv mtcpRead EndTold
  cases hmap : c.smap with
  | false => exact iff_of_true (.refl _) (by simp)
  | true =>
    cases hsock : c.socket with
    | none => exact iff_of_true (.refl _) (by simp)
    | some s =>
      cases hrcv : c.rcvbuf with
      | none => exact iff_of_true (.refl _) (by simp)
      | some b =>
        by_cases hmerged : b.mergedLen = 0
        · simp only [if_pos hmerged]
          refine iff_of_true (.refl _) fun s' b' _ _ hb' _ hpos => ?_
          cases hb'
          omega
        simp only [if_neg hmerged]
        have hpos : 0 < b.mergedLen := Nat.pos_of_ne_zero hmerged
        split
        · next hcode =>
            refine iff_of_true (.refl _) fun _ _ _ _ _ hwait => absurd hcode ?_
            rw [hwait]
            decide
        · rw [sameRead_merged_iff htotal (hbuf b hrcv hpos) hrcv hpos]
          constructor
          · intro hend s' b' _ hs' hb' hwait _
            cases hs'
            cases hb'
            exact hend hwait
          · exact fun hend hwait => hend s b trivial rfl rfl hwait hpos

/-- A stream of the socket `s` whose peer has sent the bytes 7, 8, 9 and, if `fin`, its FIN. -/
def unreadConn (s : Socket) (fin : Bool) : Conn :=
  (activeOpen quietEnv ++ [Event.packet quietEnv { plainSegment with
    seq := 501, ack := true, payload := [7, 8, 9], fin := fin }]).foldl Event.apply
      (mtcpConnect quietEnv.cfg 100 s 0 Shared.init true)

/-- Waits for input, edge triggered. -/
def edgeSocket : Socket := ⟨true, true, false, false, false, true⟩

/-- Edge triggered, only `mtcp_recv` announces the end of the stream after the last byte. -/
theorem readv_keeps_end_silent :
    let c := unreadConn edgeSocket true
    Reached (fun _ => False) c ∧ c.state = .closeWait ∧
      (mtcpReadv [1, 2] c).2 = 3 ∧ (mtcpRead 3 c).2 = 3 ∧
      raisedEvents (mtcpRead 3 c).1.log = raisedEvents c.log ++ [.read] ∧
      raisedEvents (mtcpReadv [1, 2] c).1.log = raisedEvents c.log :=
  ⟨(Reached.born (.active quietEnv.cfg 100 edgeSocket 0 Shared.init true)).run (by decide +kernel),
    by decide +kernel⟩

theorem readv_eq_recv_open :
    SameRead (mtcpReadv [1, 0, 5] (unreadConn edgeSocket false)) (mtcpRead 6 (unreadConn edgeSocket false)) ∧
      (mtcpReadv [1, 0, 5] (unreadConn edgeSocket false)).2 = 3 := by
  refine ⟨(readv_eq_recv (by decide) fun b hb _ => ?_).mpr fun s b _ _ _ hwait => ?_,
    by decide +kernel⟩
  · obtain ⟨b', hb', hread⟩ : ∃ b', (unreadConn edgeSocket false).rcvbuf = some b' ∧
        b'.head = b'.headOffset ∧ b'.head + b'.mergedLen ≤ b'.data.length ∧ b'.mergedLen ≤ b'.size ∧
        b'.size < 2 ^ 31 ∧ b'.fctx = [⟨501, 3⟩] ∧ b'.mergedLen = 3 :=
      ⟨_, rfl, by decide +kernel⟩
    obtain rfl : b' = b := Option.some.inj (hb'.symm.trans hb)
    obtain ⟨hhead, hfits, hmerged, hsize, hfctx, hthree⟩ := hread
    exact ⟨hhead, hfits, hmerged, hsize, _, _, hfctx, hthree.le⟩
  · exact absurd hwait (by decide +kernel)

end MtcpStack
