import MtcpStack.Model.Api

/-! # What a segment, a read and a request can do to a stream

The later modules look at different parts of a stream. What the checks of a segment, its payload, a
read and a request to close or reset can come to is said here once; what happens to a part of the
stream follows by cases. -/

namespace MtcpStack

variable {env : Env} {seg : Segment} {payload : List U8} {seq : U32} {b : RingBuffer} {len : ℕ}
  {c : Conn}

/-! ## Events -/

theorem raiseEvent_cases (e : AppEvent) (reg : Socket → Bool) (c : Conn) :
    raiseEvent e reg c = c ∨ raiseEvent e reg c = c.act (.raised e) := by
  unfold raiseEvent
  split
  · exact .inl rfl
  · split
    · exact .inr rfl
    · exact .inl rfl

/-- Raising an event keeps what noting it keeps. -/
theorem raiseEvent_view {α : Type*} (view : Conn → α) {e : AppEvent} (reg : Socket → Bool)
    (hact : view (c.act (.raised e)) = view c) : view (raiseEvent e reg c) = view c := by
  rcases raiseEvent_cases e reg c with heq | heq
  · rw [heq]
  · rw [heq, hact]

/-! ## Checks -/

/-- The ways the timestamp test can go. -/
inductive TimestampOutcome (env : Env) (seg : Segment) (c : Conn) : Conn × Bool → Prop
  | unused (huses : (!seg.rst && c.sawTimestamp) = false) : TimestampOutcome env seg c (c, true)
  | looped : TimestampOutcome env seg c (c.fault .optionLoop, false)
  | missing : TimestampOutcome env seg c (c, false)
  | stale : TimestampOutcome env seg c (enqueueACK .now c, false)
  | taken (huses : (!seg.rst && c.sawTimestamp) = true) (recent rcvd upd : U32) :
      TimestampOutcome env seg c
        ({ c with tsRecent := recent, tsLastackRcvd := rcvd, tsLastTsUpd := upd }, true)

theorem checkTimestamp_outcome (env : Env) (seg : Segment) (c : Conn) :
    TimestampOutcome env seg c (checkTimestamp env seg c) := by
  unfold checkTimestamp
  split
  case isFalse hno => exact .unused (by simpa using hno)
  case isTrue huses =>
    split
    · exact .looped
    · exact .missing
    · next ts _ =>
        split
        · exact .stale
        · simp only
          split
          · exact .taken huses ts.tsVal ts.tsRef env.curTs
          · exact .taken huses ts.tsVal ts.tsRef c.tsLastTsUpd

/-- A segment with a good timestamp moves the clocks only. -/
theorem checkTimestamp_passed (hts : (checkTimestamp env seg c).2 = true) :
    ∃ recent rcvd upd, (checkTimestamp env seg c).1 =
      { c with tsRecent := recent, tsLastackRcvd := rcvd, tsLastTsUpd := upd } := by
  have hout := checkTimestamp_outcome env seg c
  generalize checkTimestamp env seg c = r at hout hts ⊢
  cases hout with
  | unused => exact ⟨c.tsRecent, c.tsLastackRcvd, c.tsLastTsUpd, rfl⟩
  | looped | missing | stale => cases hts
  | taken _ recent rcvd upd => exact ⟨recent, rcvd, upd, rfl⟩

/-- The answers to a segment outside the window. -/
inductive RefuseOutcome (env : Env) (seg : Segment) (c : Conn) : Conn → Prop
  | silent : RefuseOutcome env seg c c
  | acked (opt : AckOpt) : RefuseOutcome env seg c (enqueueACK opt c)
  | restarted (hstate : c.state = .timeWait) :
      RefuseOutcome env seg c (addtoControlList (addtoTimewaitList env c))
  | control (hrst : seg.rst = false) : RefuseOutcome env seg c (addtoControlList c)

theorem refuseSequence_outcome (env : Env) (seg : Segment) (c : Conn) :
    RefuseOutcome env seg c (refuseSequence env seg c) := by
  unfold refuseSequence
  split_ifs with hrst _ _ _ hstate
  · exact .silent
  · exact .acked .aggregate
  · exact .acked .aggregate
  · exact .acked .now
  · exact .restarted hstate
  · exact .control (by simpa using hrst)

/-- The ways `ValidateSequence` can go, after the timestamp test. -/
inductive ValidateOutcome (env : Env) (seg : Segment) (c : Conn) : Conn × Bool → Prop
  | accepted {d : Conn} (hcheck : checkTimestamp env seg c = (d, true)) :
      ValidateOutcome env seg c (d, true)
  | outside {d : Conn} (hcheck : checkTimestamp env seg c = (d, true)) :
      ValidateOutcome env seg c (refuseSequence env seg d, false)
  | unchecked {d : Conn} (hcheck : checkTimestamp env seg c = (d, false)) :
      ValidateOutcome env seg c (d, false)

theorem validateSequence_outcome (env : Env) (seg : Segment) (c : Conn) :
    ValidateOutcome env seg c (validateSequence env seg c) := by
  unfold validateSequence
  cases hcheck : checkTimestamp env seg c with
  | mk d ok =>
    cases ok with
    | false => exact .unchecked hcheck
    | true =>
      simp only [if_true]
      split
      · exact .accepted hcheck
      · exact .outside hcheck

/-! ## Payload -/

/-- The ways `ProcessTCPPayload` can go, before it tells the application. -/
inductive PayloadOutcome (env : Env) (payload : List U8) (seq : U32) (c : Conn) : Conn → Prop
  | dropped : PayloadOutcome env payload seq c c
  | noMemory (hopen : openRcvbuf env c = none) :
      PayloadOutcome env payload seq c { c with state := .closed, closeReason := .noMem }
  | faulted {b : RingBuffer}
      (hlo : ¬ tcpSeqLt (seq + BitVec.ofNat 32 payload.length) c.rcvNxt)
      (hhi : ¬ tcpSeqGt (seq + BitVec.ofNat 32 payload.length) (c.rcvNxt + c.rcvWnd))
      (hopen : openRcvbuf env c = some b) (hput : putPayload c.state b payload seq = none) :
      PayloadOutcome env payload seq c (Conn.fault { c with rcvbuf := some b } .ringBuffer)
  | stored {b b' : RingBuffer} {ret : ℤ}
      (hlo : ¬ tcpSeqLt (seq + BitVec.ofNat 32 payload.length) c.rcvNxt)
      (hhi : ¬ tcpSeqGt (seq + BitVec.ofNat 32 payload.length) (c.rcvNxt + c.rcvWnd))
      (hopen : openRcvbuf env c = some b)
      (hput : putPayload c.state b payload seq = some (b', ret)) :
      PayloadOutcome env payload seq c
        (storePayload b' (if 0 < ret then c.act (.accepted seq payload) else c))

/-- What holds of every outcome, and stays when an event is raised, holds after
`ProcessTCPPayload`. -/
theorem processTCPPayload_rule {P : Conn → Prop}
    (hraise : ∀ (e : AppEvent) (reg : Socket → Bool) (d : Conn), P d → P (raiseEvent e reg d))
    (hout : ∀ d, PayloadOutcome env payload seq c d → P d) :
    P (processTCPPayload env payload seq c).1 := by
  unfold processTCPPayload
  simp only
  split
  case isTrue => exact hout c .dropped
  split
  case isTrue => exact hout c .dropped
  rename_i hlo hhi
  split
  case h_1 hopen => exact hraise _ _ _ (hout _ (.noMemory hopen))
  rename_i b hopen
  split
  case h_1 hput => exact hout _ (.faulted hlo hhi hopen hput)
  rename_i b' ret hput
  have hstored := hout _ (.stored hlo hhi hopen hput)
  generalize storePayload b' _ = d at hstored ⊢
  split
  · exact hstored
  · simp only
    split
    · exact hraise _ _ _ hstored
    · exact hstored

/-! ## Reads -/

theorem advertiseWindow_cases (c : Conn) :
    advertiseWindow c = c ∨
      advertiseWindow c = { c with onAckq := true, ackq := c.ackq + 1, needWndAdv := false } := by
  unfold advertiseWindow
  split
  · exact .inr rfl
  · exact .inl rfl

/-- The ways `copy_to_user` can go. -/
inductive ReadOutcome (b : RingBuffer) (len : ℕ) (c : Conn) : Conn × ℤ → Prop
  | nothing : ReadOutcome b len c (c, -1)
  | taken {bytes : List U8} {b' : RingBuffer} {n : ℕ} (hpos : min b.mergedLen len ≠ 0)
      (hslice : Slice.slice b.data b.head (min b.mergedLen len) = some bytes)
      (hremove : rbRemove b (min b.mergedLen len) = some (b', n)) :
      ReadOutcome b len c (advertiseWindow
        { c.act (.delivered bytes) with
          rcvbuf := some b'
          rcvWnd := BitVec.ofNat 32 (b'.size - b'.mergedLen) }, ((min b.mergedLen len : ℕ) : ℤ))
  | faulted (hpos : min b.mergedLen len ≠ 0)
      (hfail : Slice.slice b.data b.head (min b.mergedLen len) = none ∨
        rbRemove b (min b.mergedLen len) = none) : ReadOutcome b len c (c.fault .ringBuffer, -1)

theorem copyToUser_outcome (b : RingBuffer) (len : ℕ) (c : Conn) :
    ReadOutcome b len c (copyToUser b len c) := by
  unfold copyToUser
  simp only
  split
  case isTrue => exact .nothing
  case isFalse hpos =>
    split
    case h_1 hslice hremove => exact .taken hpos hslice hremove
    case h_2 hfail =>
      refine .faulted hpos ?_
      cases hslice : Slice.slice b.data b.head (min b.mergedLen len) with
      | none => exact .inl rfl
      | some bytes =>
        cases hremove : rbRemove b (min b.mergedLen len) with
        | none => exact .inr rfl
        | some result => exact (hfail bytes result.1 result.2 hslice hremove).elim

/-! ## Requests to close and to reset -/

/-- What a request of the application can come to for a stream that is `c` when it is taken. -/
inductive RequestOutcome (c : Conn) : Conn → Prop
  | destroyed (cfg : Config) : RequestOutcome c
      (destroyTCPStream cfg { c with closeReason := .reset, state := .closed })
  | kept : RequestOutcome c c
  | closeRequeued : RequestOutcome c
      { c with onCloseqInt := true, closeqInt := c.closeqInt + 1 }
  | resetRequeued : RequestOutcome c
      { c with onResetqInt := true, resetqInt := c.resetqInt + 1 }
  | waits : RequestOutcome c
      { c with state := closingState c.state, controlListWaiting := true }
  | closes : RequestOutcome c (addtoControlList { c with state := closingState c.state })
  | resets : RequestOutcome c
      (addtoControlList { c with closeReason := .activeClose, state := .closed })

theorem resetStream_outcome (c : Conn) : RequestOutcome c (resetStream c) := by
  unfold resetStream
  split
  · exact .resets
  · exact .kept

theorem dequeueClose_outcome (cfg : Config) (c : Conn) :
    RequestOutcome
      (if 0 < cfg.tcpTimeout then
        removeFromTimeoutList { c with closeq := c.closeq - 1, onCloseq := false, fss := finalSeq c }
      else { c with closeq := c.closeq - 1, onCloseq := false, fss := finalSeq c })
      (dequeueClose cfg c) := by
  unfold dequeueClose
  simp only
  generalize (if 0 < cfg.tcpTimeout then removeFromTimeoutList _ else _) = d
  split_ifs
  · exact .destroyed cfg
  · exact .kept
  · exact .closeRequeued
  · exact .waits
  · exact .closes
  · exact .kept

theorem dequeueReset_outcome (cfg : Config) (c : Conn) :
    RequestOutcome
      (if 0 < cfg.tcpTimeout then
        removeFromTimeoutList { c with resetq := c.resetq - 1, onResetq := false }
      else { c with resetq := c.resetq - 1, onResetq := false })
      (dequeueReset cfg c) := by
  unfold dequeueReset
  simp only
  generalize (if 0 < cfg.tcpTimeout then removeFromTimeoutList _ else _) = d
  split_ifs
  · exact .destroyed cfg
  · exact .kept
  · exact .resetRequeued
  · exact resetStream_outcome d

/-- A request of the internal queue stays there, or is taken. -/
theorem dequeueCloseInt_outcome (c : Conn) :
    dequeueCloseInt c = c ∨
      RequestOutcome { c with closeqInt := c.closeqInt - 1, onCloseqInt := false }
        (dequeueCloseInt c) := by
  unfold dequeueCloseInt
  simp only
  split_ifs
  · exact .inl rfl
  · exact .inr .closes
  · exact .inr .kept

theorem dequeueResetInt_outcome (c : Conn) :
    dequeueResetInt c = c ∨
      RequestOutcome { c with resetqInt := c.resetqInt - 1, onResetqInt := false }
        (dequeueResetInt c) := by
  unfold dequeueResetInt
  split
  · exact .inl rfl
  · exact .inr (resetStream_outcome _)

end MtcpStack
