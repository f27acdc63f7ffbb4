import Mathlib.Logic.Relation
import MtcpStack.Model.Machine
import MtcpStack.Verification.FlushRules
import MtcpStack.Verification.Outcomes

/-! # The ledger of a stream

The stamps and flags of the idle and time-wait timers with their two lists, and the room in the
send buffer. Everything the stack does to these fields is a chain of a few steps. -/

namespace MtcpStack

structure StreamLedger where
  sid : ℕ
  lastActiveTs : U32
  tsTwExpire : U32
  onTimewaitList : Bool
  onTimeoutList : Bool
  timewaitList : List ℕ
  timeoutList : List ℕ
  sndWnd : U32
  sndbuf : Option SendBuffer
  live : Bool

def Conn.ledger (c : Conn) : StreamLedger where
  sid := c.sid
  lastActiveTs := c.lastActiveTs
  tsTwExpire := c.tsTwExpire
  onTimewaitList := c.onTimewaitList
  onTimeoutList := c.onTimeoutList
  timewaitList := c.timewaitList
  timeoutList := c.timeoutList
  sndWnd := c.sndWnd
  sndbuf := c.sndbuf
  live := c.onHashTable

/-- One write to the ledger in a call that is given `env`. -/
inductive LedgerStep (env : Env) : StreamLedger → StreamLedger → Prop
  | touched (p : StreamLedger) : LedgerStep env p
      { p with
        lastActiveTs := env.curTs
        timeoutList := if p.onTimeoutList then p.timeoutList.erase p.sid ++ [p.sid]
          else p.timeoutList }
  -- a stream is put on the timeout list in the call that has just touched it
  | timed {p : StreamLedger} (hoff : p.onTimeoutList = false) (hstamp : p.lastActiveTs = env.curTs) :
      LedgerStep env p { p with onTimeoutList := true, timeoutList := p.timeoutList ++ [p.sid] }
  | untimed {p : StreamLedger} (hon : p.onTimeoutList = true) :
      LedgerStep env p { p with onTimeoutList := false, timeoutList := p.timeoutList.erase p.sid }
  | waited (p : StreamLedger) : LedgerStep env p
      { p with
        tsTwExpire := env.curTs + env.cfg.tcpTimewait
        onTimewaitList := true
        timewaitList := (if p.onTimewaitList then p.timewaitList.erase p.sid else p.timewaitList) ++
          [p.sid] }
  | unwaited {p : StreamLedger} (hon : p.onTimewaitList = true) :
      LedgerStep env p
        { p with onTimewaitList := false, timewaitList := p.timewaitList.erase p.sid }
  | released {p : StreamLedger} {b : SendBuffer} (len : ℕ) (hbuf : p.sndbuf = some b) : LedgerStep env p
      { p with
        sndbuf := some (sbRemove b len).1
        sndWnd := BitVec.ofNat 32 (sbRemove b len).1.size - BitVec.ofNat 32 (sbRemove b len).1.len }
  | opened {p : StreamLedger} {chunk : List U8} (iss : U32) (hbuf : p.sndbuf = none)
      (hchunk : env.sndChunk = some chunk) (hroom : 0 < p.sndWnd.toInt) :
      LedgerStep env p { p with sndbuf := some (sbInit chunk iss) }
  | wrote {p : StreamLedger} {b b' : SendBuffer} {bytes : List U8} {n : ℤ} (hbuf : p.sndbuf = some b)
      (hput : sbPut b bytes = some (b', n)) : LedgerStep env p
      { p with
        sndbuf := some b'
        sndWnd := BitVec.ofNat 32 b'.size - BitVec.ofNat 32 b'.len }
  | freed (p : StreamLedger) : LedgerStep env p { p with sndbuf := none, live := false }

/-- The ledger has gone from that of `c` to that of `d` in steps of one call. -/
def Booked (env : Env) (c d : Conn) : Prop :=
  Relation.ReflTransGen (LedgerStep env) c.ledger d.ledger

section

variable {env : Env} {c d e : Conn}

theorem Booked.of_eq (h : d.ledger = c.ledger) : Booked env c d := by
  rw [Booked, h]

theorem Booked.refl (env : Env) (c : Conn) : Booked env c c := .of_eq rfl

theorem Booked.trans (h : Booked env c d) (h' : Booked env d e) : Booked env c e :=
  Relation.ReflTransGen.trans h h'

theorem Booked.of_step (h : LedgerStep env c.ledger d.ledger) : Booked env c d :=
  Relation.ReflTransGen.single h

end

/-! ## Functions that leave the ledger alone -/

section

variable (env : Env) (c : Conn)

@[simp] theorem ledger_addtoControlList : (addtoControlList c).ledger = c.ledger := by
  unfold addtoControlList
  split <;> rfl

@[simp] theorem ledger_removeFromControlList : (removeFromControlList c).ledger = c.ledger := by
  unfold removeFromControlList
  split <;> rfl

@[simp] theorem ledger_addtoSendList : (addtoSendList c).ledger = c.ledger := by
  unfold addtoSendList
  split_ifs <;> rfl

@[simp] theorem ledger_removeFromSendList : (removeFromSendList c).ledger = c.ledger := by
  unfold removeFromSendList
  split <;> rfl

@[simp] theorem ledger_addtoACKList : (addtoACKList c).ledger = c.ledger := by
  unfold addtoACKList
  split <;> rfl

@[simp] theorem ledger_removeFromACKList : (removeFromACKList c).ledger = c.ledger := by
  unfold removeFromACKList
  split <;> rfl

@[simp] theorem ledger_enqueueACK (opt : AckOpt) : (enqueueACK opt c).ledger = c.ledger := by
  unfold enqueueACK
  rw [ledger_addtoACKList]
  cases opt with
  | now | wack => rfl
  | aggregate =>
    simp only
    split <;> rfl

@[simp] theorem ledger_addtoRTOList : (addtoRTOList c).ledger = c.ledger := by
  unfold addtoRTOList rebaseRTOStore
  simp only
  split_ifs <;> rfl

@[simp] theorem ledger_removeFromRTOList : (removeFromRTOList c).ledger = c.ledger := by
  unfold removeFromRTOList
  split <;> rfl

@[simp] theorem ledger_updateRetransmissionTimer :
    (updateRetransmissionTimer env c).ledger = c.ledger := by
  have hzero : (if c.rto = 0 then c.fault .rtoZero else c).ledger = c.ledger := by
    split <;> rfl
  unfold updateRetransmissionTimer
  simp only
  rw [← hzero]
  generalize (if c.rto = 0 then c.fault .rtoZero else c) = d
  have hremoved : (removeFromRTOList { d with nrtx := 0 }).ledger = d.ledger :=
    ledger_removeFromRTOList _
  generalize removeFromRTOList { d with nrtx := 0 } = r at hremoved ⊢
  split
  · exact (ledger_addtoRTOList _).trans hremoved
  · exact hremoved

@[simp] theorem ledger_raiseEvent (event : AppEvent) (registered : Socket → Bool) :
    (raiseEvent event registered c).ledger = c.ledger :=
  raiseEvent_view Conn.ledger registered rfl

theorem ledger_applyOption (curTs : U32) (opt : ℕ → U8) (kind : U8) (optlen i : ℕ) :
    (applyOption curTs opt kind optlen i c).1.ledger = c.ledger := by
  unfold applyOption
  split_ifs <;> rfl

theorem ledger_parseOptionsFrom {curTs : U32} {opt : ℕ → U8} {len fuel i : ℕ} {c c' : Conn}
    (h : parseOptionsFrom curTs opt len fuel i c = some c') : c'.ledger = c.ledger := by
  induction fuel generalizing i c with
  | zero => simp [parseOptionsFrom] at h
  | succ fuel ih =>
    simp only [parseOptionsFrom] at h
    split_ifs at h
    · simp_all
    · exact ih h
    · simp_all
    · rw [ih h, ledger_applyOption]
    · simp_all

end

/-! ## The two timer lists -/

section

variable {env : Env} {c d : Conn}

theorem touched_booked (env : Env) (c : Conn) :
    Booked env c (updateTimeoutList { c with lastActiveTs := env.curTs }) := by
  have hledger : (updateTimeoutList { c with lastActiveTs := env.curTs }).ledger =
      { c.ledger with
        lastActiveTs := env.curTs
        timeoutList := if c.ledger.onTimeoutList then c.ledger.timeoutList.erase c.ledger.sid ++
          [c.ledger.sid] else c.ledger.timeoutList } := by
    cases hon : c.onTimeoutList <;> simp [updateTimeoutList, Conn.ledger, hon]
  rw [Booked, hledger]
  exact .single (.touched c.ledger)

theorem addtoTimewaitList_booked (env : Env) (c : Conn) : Booked env c (addtoTimewaitList env c) := by
  refine .of_step ?_
  have hstep : LedgerStep env c.ledger _ := .waited c.ledger
  have hremoved := ledger_removeFromRTOList
    { c with tsTwExpire := env.curTs + env.cfg.tcpTimewait }
  unfold addtoTimewaitList
  simp only
  split
  case isTrue hon => simpa [Conn.ledger, hon] using hstep
  case isFalse hoff =>
    generalize removeFromRTOList _ = d at hremoved ⊢
    have hledger : Conn.ledger { d with
        onTimewaitList := true
        timewaitList := d.timewaitList ++ [d.sid]
        timewaitListCnt := d.timewaitListCnt + 1 } = { d.ledger with
        onTimewaitList := true, timewaitList := d.ledger.timewaitList ++ [d.ledger.sid] } := rfl
    rw [hledger, hremoved]
    simpa [Conn.ledger, hoff] using hstep

theorem removeFromTimewaitList_booked (env : Env) (c : Conn) :
    Booked env c (removeFromTimewaitList c) := by
  unfold removeFromTimewaitList
  split
  case isTrue hon => exact .of_step (.unwaited hon)
  case isFalse => exact .refl env c

theorem addtoTimeoutList_booked (hstamp : c.lastActiveTs = env.curTs) :
    Booked env c (addtoTimeoutList c) := by
  unfold addtoTimeoutList
  split
  case isTrue => exact .refl env c
  case isFalse hoff => exact .of_step (.timed (Bool.eq_false_iff.2 hoff) hstamp)

theorem removeFromTimeoutList_booked (env : Env) (c : Conn) :
    Booked env c (removeFromTimeoutList c) := by
  unfold removeFromTimeoutList
  split
  case isTrue hon => exact .of_step (.untimed hon)
  case isFalse => exact .refl env c

theorem stopTimeout_booked (env : Env) (cfg : Config) (c : Conn) :
    Booked env c (if 0 < cfg.tcpTimeout then removeFromTimeoutList c else c) := by
  split
  · exact removeFromTimeoutList_booked env c
  · exact .refl env c

/-! ## Destroying a stream -/

theorem unlinkStream_booked (env : Env) (cfg : Config) (c : Conn) :
    Booked env c (unlinkStream cfg c) := by
  unfold unlinkStream
  simp only
  have hsenders : (removeFromRTOList (removeFromACKList (removeFromSendList
      (removeFromControlList c)))).ledger = c.ledger := by simp
  generalize removeFromRTOList _ = d at hsenders ⊢
  have hwait : Booked env d (if d.onTimewaitList then removeFromTimewaitList d else d) := by
    split
    · exact removeFromTimewaitList_booked env d
    · exact .refl env d
  exact (Booked.of_eq hsenders).trans (hwait.trans (stopTimeout_booked env cfg _))

theorem destroyTCPStream_booked (env : Env) (cfg : Config) (c : Conn) :
    Booked env c (destroyTCPStream cfg c) := by
  have hunlink := unlinkStream_booked env cfg c
  unfold destroyTCPStream
  simp only
  generalize unlinkStream cfg c = d at hunlink ⊢
  have hfault : (if d.onHashTable then d else d.fault .notOnHashTable).ledger = d.ledger := by
    split <;> rfl
  generalize (if d.onHashTable then d else d.fault .notOnHashTable) = e at hfault ⊢
  exact hunlink.trans ((Booked.of_eq hfault).trans (.of_step (.freed e.ledger)))

theorem Booked.destroy (h : Booked env c d) (cfg : Config) : Booked env c (destroyTCPStream cfg d) :=
  h.trans (destroyTCPStream_booked env cfg d)

theorem notifyOrDestroy_booked (env : Env) (c : Conn) : Booked env c (notifyOrDestroy env c) := by
  unfold notifyOrDestroy
  split
  · exact .of_eq (ledger_raiseEvent ..)
  · exact destroyTCPStream_booked env env.cfg c

end

/-! ## Sending -/

section

variable (env : Env) (c : Conn)

theorem fillHeader_booked (flags : TcpFlags) (payload : List U8) :
    Booked env c (fillHeader env flags payload c) := by
  have hfin : (if flags.sendsFin then { c with isFinSent := true } else c).ledger = c.ledger := by
    split <;> rfl
  unfold fillHeader
  simp only
  generalize (if flags.sendsFin then { c with isFinSent := true } else c) = d at hfin ⊢
  have hack : Booked env d (if flags.ack then updateTimeoutList
      { d with tsLastackSent := env.curTs, lastActiveTs := env.curTs } else d) := by
    split
    · exact touched_booked env { d with tsLastackSent := env.curTs }
    · exact .refl env d
  generalize (if flags.ack then updateTimeoutList _ else d) = e at hack ⊢
  refine (Booked.of_eq hfin).trans (hack.trans (.of_eq ?_))
  split <;> rfl

theorem sendTCPPacket_booked (flags : TcpFlags) (payload : List U8) :
    Booked env c (sendTCPPacket env flags payload c).1 := by
  unfold sendTCPPacket
  split
  · exact .refl env c
  · split
    · exact .refl env c
    · exact .of_eq rfl
    · rename_i tx htx
      have hfill : Booked env c (fillHeader env flags payload { c with tx }) :=
        fillHeader_booked env { c with tx } flags payload
      simp only
      generalize fillHeader env flags payload { c with tx } = d at hfill ⊢
      split
      · exact hfill.trans (.of_eq (ledger_addtoRTOList _))
      · exact hfill

theorem flushStep_booked (b : SendBuffer) (packets : ℤ) :
    Booked env c (flushStep env b packets c).1 := by
  have hround := flushStep_outcome env b packets c
  generalize flushStep env b packets c = r at hround ⊢
  cases hround with
  | asserts | unread => exact .of_eq rfl
  | flushed => exact .refl env c
  | full =>
    refine .of_eq ?_
    unfold probeWindow
    split <;> simp
  | refused | sent => exact sendTCPPacket_booked env c ackFlag _

theorem flushTCPSendingBuffer_booked : Booked env c (flushTCPSendingBuffer env c).1 :=
  flushTCPSendingBuffer_keeps (P := Booked env c) (.of_eq rfl)
    (fun b packets d hd => hd.trans (flushStep_booked env d b packets)) (.refl env c)

theorem sendControlPacket_booked : Booked env c (sendControlPacket env c).1 := by
  unfold sendControlPacket
  split
  case h_1 | h_3 | h_4 | h_5 | h_6 => exact sendTCPPacket_booked ..
  case h_2 => exact sendTCPPacket_booked env { c with sndNxt := c.iss } _ _
  case h_7 | h_8 =>
    split
    · exact .refl env c
    · exact sendTCPPacket_booked ..
  case h_9 => split_ifs <;> exact sendTCPPacket_booked ..
  case h_10 =>
    split
    · exact .refl env c
    · have hsend := sendTCPPacket_booked env c rstFlag []
      simp only
      split
      · exact hsend.trans (destroyTCPStream_booked env env.cfg _)
      · exact hsend
  case h_11 => exact .refl env c

theorem controlListStep_booked : Booked env c (controlListStep env c).1 := by
  unfold controlListStep
  simp only
  split
  · have hsend := sendControlPacket_booked env
      { c with
        controlList := c.controlList.erase c.sid, controlListCnt := c.controlListCnt - 1
        onControlList := false }
    generalize sendControlPacket env _ = r at hsend ⊢
    split_ifs <;> exact hsend
  · exact .of_eq rfl

theorem dataListStep_booked : Booked env c (dataListStep env c).1 := by
  have hlisted : ∀ d : Conn, Booked env d (sendListed env d).1 := by
    intro d
    unfold sendListed
    split
    · split
      · exact .refl env d
      · exact flushTCPSendingBuffer_booked env d
    · exact flushTCPSendingBuffer_booked env d
    · exact flushTCPSendingBuffer_booked env d
    · exact flushTCPSendingBuffer_booked env d
    · exact .refl env d
  unfold dataListStep
  simp only
  split
  · have hsend := hlisted { c with sendList := c.sendList.erase c.sid }
    generalize sendListed env _ = r at hsend ⊢
    split_ifs
    · exact hsend
    · exact hsend.trans (.of_eq (ledger_addtoControlList _))
    · exact hsend
  · exact .of_eq rfl

theorem sendAcks_booked (fuel : ℕ) (c : Conn) : Booked env c (sendAcks env fuel c) := by
  induction fuel generalizing c with
  | zero => exact .refl env c
  | succ fuel ih =>
    have hsend := sendTCPPacket_booked env c ackFlag []
    unfold sendAcks
    simp only
    generalize sendTCPPacket env ackFlag [] c = r at hsend ⊢
    split_ifs
    · exact hsend
    · exact hsend.trans (ih { r.1 with ackCnt := r.1.ackCnt - 1 })
    · exact .refl env c

theorem sendWack_booked : Booked env c (sendWack env c) := by
  unfold sendWack
  split
  · have hsend : Booked env c (sendTCPPacket env wackFlag [] { c with isWack := false }).1 :=
      sendTCPPacket_booked env { c with isWack := false } wackFlag []
    simp only
    generalize sendTCPPacket env wackFlag [] { c with isWack := false } = r at hsend ⊢
    split <;> exact hsend
  · exact .refl env c

theorem ackListStep_booked : Booked env c (ackListStep env c).1 := by
  have hacks : Booked env c (if toAck c then
      let d := sendWack env (sendAcks env c.ackCnt.toNat c)
      if d.ackCnt = 0 ∧ d.isWack = false then removeFromACKList d else d
      else removeFromACKList { c with ackCnt := 0, isWack := false }) := by
    have hsent := (sendAcks_booked env c.ackCnt.toNat c).trans (sendWack_booked env _)
    simp only
    split_ifs
    · exact hsent.trans (.of_eq (ledger_removeFromACKList _))
    · exact hsent
    · exact .of_eq (ledger_removeFromACKList _)
  unfold ackListStep
  split
  · simp only at hacks ⊢
    generalize (if toAck c then _ else _) = d at hacks ⊢
    split
    · exact hacks.trans (.of_eq (ledger_addtoControlList _))
    · exact hacks
  · exact .of_eq rfl

end

end MtcpStack
