import Mathlib.Tactic.Simps.Basic
import MtcpStack.Model.Machine
import MtcpStack.Verification.Outcomes

/-! # Refused segments

What a segment that the stack refuses leaves behind. A RST outside the window of an open stream
leaves nothing, but one with a wrong acknowledgement number during the handshake marks the stream
as reset. A segment outside the window leaves the state it was checked against, unless it carried
a timestamp that was taken over before its sequence number was looked at. -/

namespace MtcpStack

/-! ## Resets -/

/-- A RST that `ProcessRST`, the SYN_SENT handler or `ValidateSequence` refuses to act on. -/
def refusesReset (env : Env) (seg : Segment) (c : Conn) : Bool :=
  seg.rst &&
    match c.state with
    | .closed | .listen => false
    | .synSent => !seg.ack || decide (tcpSeqLeq seg.ackSeq c.iss) ||
        decide (tcpSeqGt seg.ackSeq c.sndNxt)
    | .synRcvd => decide (seg.ackSeq ≠ c.sndNxt)
    | _ => !(validateSequence env seg c).2

/-- `ValidateSequence` leaves the stream alone when it looks at a RST. -/
theorem validateSequence_rst (env : Env) {seg : Segment} (c : Conn) (hrst : seg.rst = true) :
    (validateSequence env seg c).1 = c := by
  have hts : checkTimestamp env seg c = (c, true) := by
    simp [checkTimestamp, hrst]
  have hno : refuseSequence env seg c = c := by
    simp [refuseSequence, hrst]
  unfold validateSequence
  simp only [hts, if_true, hno]
  split <;> rfl

/-- Behind SYN_SENT `ProcessRST` never leaves a segment to the state handler. -/
theorem processRST_taken (env : Env) (ackSeq : U32) {c : Conn}
    (hstate : TcpState.synSent.code < c.state.code) : (processRST env ackSeq c).2 = true := by
  unfold processRST
  split
  case h_4 => split <;> rfl
  case h_10 => split <;> rfl
  case h_11 => split <;> rfl
  all_goals
    rename_i hs
    first | rfl | simp [hs, TcpState.code] at hstate

/-- A refused RST leaves no trace on a stream past SYN_RCVD: every continuation goes as if the
segment had not arrived. -/
theorem refused_reset_no_trace {env : Env} {seg : Segment} {c : Conn}
    (hrefuse : refusesReset env seg c = true) (hopen : TcpState.synRcvd.code < c.state.code)
    (later : List Event) :
    later.foldl Event.apply (processTCPPacket env seg c) = later.foldl Event.apply c := by
  have hrst : seg.rst = true := by
    simp only [refusesReset, Bool.and_eq_true] at hrefuse
    exact hrefuse.1
  have hinvalid : (validateSequence env seg c).2 = false := by
    simp only [refusesReset, hrst, Bool.true_and] at hrefuse
    revert hrefuse hopen
    cases c.state <;> simp [TcpState.code]
  have hsame : processTCPPacket env seg c = c := by
    unfold processTCPPacket
    simp only [if_pos hopen, hinvalid, Bool.false_eq_true, if_false]
    exact validateSequence_rst env c hrst
  rw [hsame]

/-! ### A forged reset during the handshake -/

/-- A host without idle timeout and with buffers of 16 bytes. -/
def quietEnv : Env where
  cfg := { tcpTimeout := 0, tcpTimewait := 0, sndbufSize := 16 }
  curTs := 1
  rcvChunk := some (List.replicate 16 0)
  sndChunk := some (List.replicate 16 0)
  listener := .queued

def quietSocket : Socket := ⟨true, false, false, false, false, false⟩

/-- A segment without flags, payload and options. -/
def plainSegment : Segment where
  seq := 500
  ackSeq := 101
  window := 1000
  fin := false
  syn := false
  rst := false
  ack := false
  payload := []
  opt := fun _ => 0
  optLen := 0

/-- A segment with the given option bytes. -/
def Segment.withOptions (seg : Segment) (opt : List U8) : Segment :=
  { seg with opt := fun i => opt.getD i 0, optLen := opt.length }

/-- The peer's answer to a SYN, with a segment size of 1460. -/
def synAckSegment : Segment :=
  { plainSegment with syn := true, ack := true }.withOptions [2, 4, 5, 180]

/-- A stream whose SYN, with sequence number 100, has left. -/
def synSentConn : Conn :=
  [Event.connectq, .controlPass quietEnv [true]].foldl Event.apply
    (mtcpConnect quietEnv.cfg 100 quietSocket 0 Shared.init true)

/-- The peer answers, the application writes two bytes and closes. -/
def openAndClose : List Event :=
  [.packet quietEnv synAckSegment, .controlPass quietEnv [true], .write quietEnv [7, 8], .close,
    .closeq quietEnv.cfg]

/-- A RST that acknowledges nothing the stream has sent. -/
def forgedReset : Segment := { plainSegment with rst := true, ack := true, ackSeq := 0 }

/-- The forged RST is refused, and yet the close then destroys the stream with its two unsent
bytes, where it would have gone to FIN_WAIT_1. -/
theorem forged_reset_discards_data :
    refusesReset quietEnv forgedReset synSentConn = true ∧
      (let c := openAndClose.foldl Event.apply synSentConn
       c.onHashTable = true ∧ c.state = .finWait1 ∧ c.sndbuf.map (·.len) = some 2) ∧
      (let c := openAndClose.foldl Event.apply
         (processTCPPacket quietEnv forgedReset synSentConn)
       c.onHashTable = false ∧ c.state = .closed ∧ c.sndbuf = none) := by
  decide +kernel

/-- The same stream once it is established. -/
def establishedConn : Conn := (openAndClose.take 2).foldl Event.apply synSentConn

theorem refused_reset_no_trace_established :
    (openAndClose.drop 2).foldl Event.apply (processTCPPacket quietEnv
        { forgedReset with seq := 400 } establishedConn) =
      (openAndClose.drop 2).foldl Event.apply establishedConn :=
  refused_reset_no_trace (by decide +kernel) (by decide +kernel) _

/-! ## Segments outside the window -/

/-- What decides which segments are accepted and what is sent. -/
structure Acceptance where
  tsRecent : U32
  tsLastackRcvd : U32
  rcvNxt : U32
  rcvWnd : U32
  peerWnd : U32
  sndUna : U32
  sndNxt : U32
  cwnd : U32
  sndbuf : Option SendBuffer
  rcvbuf : Option RingBuffer
  sawTimestamp : Bool
  state : TcpState

@[simps] def Conn.acceptance (c : Conn) : Acceptance where
  tsRecent := c.tsRecent
  tsLastackRcvd := c.tsLastackRcvd
  rcvNxt := c.rcvNxt
  rcvWnd := c.rcvWnd
  peerWnd := c.peerWnd
  sndUna := c.sndUna
  sndNxt := c.sndNxt
  cwnd := c.cwnd
  sndbuf := c.sndbuf
  rcvbuf := c.rcvbuf
  sawTimestamp := c.sawTimestamp
  state := c.state

theorem addtoControlList_acceptance (c : Conn) :
    (addtoControlList c).acceptance = c.acceptance := by
  unfold addtoControlList
  split <;> rfl

theorem enqueueACK_acceptance (opt : AckOpt) (c : Conn) :
    (enqueueACK opt c).acceptance = c.acceptance := by
  have hadd : ∀ d : Conn, (addtoACKList d).acceptance = d.acceptance := by
    intro d
    unfold addtoACKList
    split <;> rfl
  unfold enqueueACK
  rw [hadd]
  cases opt with
  | now => rfl
  | aggregate =>
      simp only
      split <;> rfl
  | wack => rfl

theorem addtoTimewaitList_acceptance (env : Env) (c : Conn) :
    (addtoTimewaitList env c).acceptance = c.acceptance := by
  have hremove : ∀ d : Conn, (removeFromRTOList d).acceptance = d.acceptance := by
    intro d
    unfold removeFromRTOList
    split <;> rfl
  unfold addtoTimewaitList
  simp only
  split
  · rfl
  · exact hremove { c with tsTwExpire := env.curTs + env.cfg.tcpTimewait }

theorem refuseSequence_acceptance (env : Env) (seg : Segment) (c : Conn) :
    (refuseSequence env seg c).acceptance = c.acceptance := by
  have hout := refuseSequence_outcome env seg c
  generalize refuseSequence env seg c = d at hout ⊢
  cases hout with
  | silent => rfl
  | acked opt => exact enqueueACK_acceptance opt c
  | restarted => rw [addtoControlList_acceptance, addtoTimewaitList_acceptance]
  | control => exact addtoControlList_acceptance c

/-- The timestamp of the segment is not taken over: the stream uses none, the segment is a RST, or
its timestamp is missing or too old. -/
def keepsTimestamp (env : Env) (seg : Segment) (c : Conn) : Bool :=
  !c.sawTimestamp || seg.rst || !(checkTimestamp env seg c).2

theorem checkTimestamp_acceptance {env : Env} {seg : Segment} {c : Conn}
    (hkeep : keepsTimestamp env seg c = true) :
    (checkTimestamp env seg c).1.acceptance = c.acceptance := by
  unfold keepsTimestamp at hkeep
  have hout := checkTimestamp_outcome env seg c
  generalize checkTimestamp env seg c = r at hout hkeep ⊢
  cases hout with
  | unused | looped | missing => rfl
  | stale => exact enqueueACK_acceptance .now c
  | taken huses =>
    simp only [Bool.and_eq_true, Bool.not_eq_true'] at huses
    simp [huses.1, huses.2] at hkeep

/-- The stream is past the handshake and `ValidateSequence` refuses the segment. -/
def refusesSegment (env : Env) (seg : Segment) (c : Conn) : Bool :=
  decide (TcpState.synRcvd.code < c.state.code) && !(validateSequence env seg c).2

theorem refused_acceptance {env : Env} {seg : Segment} {c : Conn}
    (hrefuse : refusesSegment env seg c = true) (hkeep : keepsTimestamp env seg c = true) :
    (processTCPPacket env seg c).acceptance = c.acceptance := by
  simp only [refusesSegment, Bool.and_eq_true, decide_eq_true_eq, Bool.not_eq_true'] at hrefuse
  obtain ⟨hopen, hinvalid⟩ := hrefuse
  have hts := checkTimestamp_acceptance hkeep
  unfold processTCPPacket
  simp only [if_pos hopen, hinvalid, Bool.false_eq_true, if_false]
  have hout := validateSequence_outcome env seg c
  generalize validateSequence env seg c = r at hout ⊢
  cases hout with
  | accepted hd => rwa [hd] at hts
  | outside hd =>
    rw [hd] at hts
    rw [refuseSequence_acceptance, hts]
  | unchecked hd => rwa [hd] at hts

/-- The verdict on a segment depends on these fields only. -/
theorem validateSequence_congr {c c' : Conn} (h : c'.acceptance = c.acceptance) (env : Env)
    (seg : Segment) : (validateSequence env seg c').2 = (validateSequence env seg c).2 := by
  have hsaw : c'.sawTimestamp = c.sawTimestamp := congrArg (·.sawTimestamp) h
  have hrecent : c'.tsRecent = c.tsRecent := congrArg (·.tsRecent) h
  have hverdict : (checkTimestamp env seg c').2 = (checkTimestamp env seg c).2 := by
    unfold checkTimestamp
    rw [hsaw, hrecent]
    split
    · split
      · rfl
      · rfl
      · split <;> rfl
    · rfl
  have hwindow : ∀ d : Conn, (checkTimestamp env seg d).1.rcvNxt = d.rcvNxt ∧
      (checkTimestamp env seg d).1.rcvWnd = d.rcvWnd := by
    intro d
    have hout := checkTimestamp_outcome env seg d
    generalize checkTimestamp env seg d = r at hout ⊢
    cases hout with
    | unused | looped | missing | taken => exact ⟨rfl, rfl⟩
    | stale =>
      have hack := enqueueACK_acceptance .now d
      exact ⟨congrArg (·.rcvNxt) hack, congrArg (·.rcvWnd) hack⟩
  have hnxt : c'.rcvNxt = c.rcvNxt := congrArg (·.rcvNxt) h
  have hwnd : c'.rcvWnd = c.rcvWnd := congrArg (·.rcvWnd) h
  unfold validateSequence
  simp only [hverdict, (hwindow c).1, (hwindow c).2, (hwindow c').1, (hwindow c').2, hnxt, hwnd]
  split_ifs <;> rfl

/-- Segments that arrive one after another and are all refused, none leaving its timestamp. -/
def RefusedRun : Conn → List (Env × Segment) → Prop
  | _, [] => True
  | c, (env, seg) :: rest =>
    refusesSegment env seg c = true ∧ keepsTimestamp env seg c = true ∧
      RefusedRun (processTCPPacket env seg c) rest

/-- The stream after a sequence of segments. -/
def arrive (c : Conn) (segs : List (Env × Segment)) : Conn :=
  segs.foldl (fun c s => processTCPPacket s.1 s.2 c) c

/-- Refused segments leave no trace: whatever their number, the fields that decide about later
segments and about sending stay, and so does the verdict on every later segment. -/
theorem refused_segments_no_trace {c : Conn} {segs : List (Env × Segment)}
    (hrun : RefusedRun c segs) :
    (arrive c segs).acceptance = c.acceptance ∧
      ∀ env seg, (validateSequence env seg (arrive c segs)).2 = (validateSequence env seg c).2 := by
  have hsame : (arrive c segs).acceptance = c.acceptance := by
    induction segs generalizing c with
    | nil => rfl
    | cons s segs ih =>
        obtain ⟨hrefuse, hkeep, hrest⟩ := hrun
        have htail := ih hrest
        rw [refused_acceptance hrefuse hkeep] at htail
        exact htail
  exact ⟨hsame, validateSequence_congr hsame⟩

/-! ### A forged timestamp -/

/-- A timestamp option, padded; the value is 101 with the given highest byte. -/
def timestampOption (high : U8) : List U8 := [1, 1, 8, 10, high, 0, 0, 101, 0, 0, 0, 0]

/-- The stream established with a peer that sends timestamps. -/
def timestampConn : Conn :=
  [Event.packet quietEnv (synAckSegment.withOptions ([2, 4, 5, 180] ++ timestampOption 0)),
    .controlPass quietEnv [true]].foldl Event.apply synSentConn

/-- A segment far outside the window with a timestamp far ahead. -/
def forgedSegment : Segment :=
  { plainSegment with seq := 90000 }.withOptions (timestampOption 0x70)

/-- The next segment of the peer. -/
def genuineSegment : Segment :=
  { plainSegment with seq := 501, ack := true }.withOptions (timestampOption 0)

/-- The forged segment is refused but leaves its timestamp, and the genuine one, which would have
been accepted, is dropped for its older one. -/
theorem forged_timestamp_blocks_peer :
    refusesSegment quietEnv forgedSegment timestampConn = true ∧
      (validateSequence quietEnv genuineSegment timestampConn).2 = true ∧
      (processTCPPacket quietEnv forgedSegment timestampConn).tsRecent ≠
        timestampConn.tsRecent ∧
      (validateSequence quietEnv genuineSegment
        (processTCPPacket quietEnv forgedSegment timestampConn)).2 = false := by
  decide +kernel

theorem refused_segments_no_trace_old :
    let forged := forgedSegment.withOptions (timestampOption 0xF0)
    (arrive timestampConn [(quietEnv, forged), (quietEnv, forged)]).acceptance =
        timestampConn.acceptance ∧
      ∀ env seg, (validateSequence env seg
          (arrive timestampConn [(quietEnv, forged), (quietEnv, forged)])).2 =
        (validateSequence env seg timestampConn).2 :=
  refused_segments_no_trace ⟨by decide +kernel, by decide +kernel, by decide +kernel,
    by decide +kernel, trivial⟩

end MtcpStack
