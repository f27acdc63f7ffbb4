import MtcpStack.Model.Lists

/-! # Timeouts (`timer.c`)

`HandleRTO` and what the three timer passes do with a stream they reach. -/

namespace MtcpStack

/-- A closed stream is reported to its socket, or destroyed when it has none. -/
def notifyOrDestroy (env : Env) (c : Conn) : Conn :=
  if c.socket.isSome then raiseErrorEvent c else destroyTCPStream env.cfg c

/-! ## Retransmission -/

/-- The retransmission limit is exceeded. -/
def giveUpRTO (env : Env) (c : Conn) : Conn :=
  if c.state.code < TcpState.established.code then
    destroyTCPStream env.cfg { c with state := .closed, closeReason := .connFail }
  else
    notifyOrDestroy env { c with state := .closed, closeReason := .connLost }

/-- The retransmission counter and its maximum. -/
def countRtx (c : Conn) : Conn :=
  let nrtx := c.nrtx + 1
  { c with nrtx, maxNrtx := if c.maxNrtx.toNat < nrtx.toNat then nrtx else c.maxNrtx }

/-- The next timeout: from the measured round trip once there is one, doubled before that. -/
def backoffRTO (c : Conn) : Conn :=
  if TcpState.established.code ≤ c.state.code then
    let rto := (c.srtt >>> 3 + c.rttvar) <<< min c.nrtx.toNat tcpMaxBackoff.toNat
    { c with rto := if rto = 0 then c.rto else rto }
  else if TcpState.synSent.code ≤ c.state.code ∧ c.nrtx.toNat < tcpMaxBackoff.toNat then
    { c with rto := c.rto <<< 1 }
  else c

/-- Half of the usable window, at least two segments: the new slow start threshold after a
loss. -/
def lossThreshold (c : Conn) : U32 :=
  let half := BitVec.ofNat 32 (min c.cwnd.toNat c.peerWnd.toNat / 2)
  if half.toNat < 2 * c.mss.toNat then BitVec.ofNat 32 (2 * c.mss.toNat) else half

def shrinkWindow (c : Conn) : Conn :=
  { c with ssthresh := lossThreshold c, cwnd := BitVec.ofNat 32 c.mss.toNat }

/-- The rewound stream goes on the list that will send again. -/
def requeueRTO (c : Conn) : Conn :=
  match c.state with
  | .established | .closeWait => addtoSendList c
  | .finWait1 | .closing | .lastAck =>
    if tcpSeqLt c.sndNxt c.fss then
      addtoSendList { removeFromControlList c with controlListWaiting := true }
    else addtoControlList c
  | _ => addtoControlList c

def retransmitRTO (env : Env) (c : Conn) : Conn :=
  match c.state with
  | .synSent =>
    if tcpMaxSynRetry.toNat < c.nrtx.toNat then
      notifyOrDestroy env { c with state := .closed, closeReason := .connFail }
    else requeueRTO { c with sndNxt := c.sndUna }
  | .synRcvd =>
    if c.haveReset then destroyTCPStream env.cfg c
    else requeueRTO { c with sndNxt := c.sndUna }
  | .established | .closeWait | .lastAck | .finWait1 | .closing =>
    requeueRTO { c with sndNxt := c.sndUna }
  | .closed | .listen | .finWait2 | .timeWait => c.fault .rtoState

def handleRTO (env : Env) (c : Conn) : Conn :=
  let c := c.act .timedOut
  let c := if c.rto = 0 then c.fault .rtoZero else c
  if c.closeReason ≠ .notClosed then c
  else if c.nrtx.toNat < tcpMaxRtx.toNat then
    retransmitRTO env (shrinkWindow (backoffRTO (countRtx c)))
  else giveUpRTO env c

/-! ## The loop bodies of the timer passes -/

/-- Body of the inner loop of `CheckRtmTimeout` over the slot `slot`. -/
def rtoListStep (env : Env) (slot : ℕ) (c : Conn) : Conn :=
  if 0 ≤ c.onRtoIdx then
    handleRTO env
      { c with
        rtoList := Function.update c.rtoList slot ((c.rtoList slot).erase c.sid)
        rtoListCnt := c.rtoListCnt - 1
        onRtoIdx := -1 }
  else c

/-- Body of `CheckTimewaitExpire`; `true` ends the pass. -/
def timewaitStep (env : Env) (c : Conn) : Conn × Bool :=
  if c.onTimewaitList then
    if 0 ≤ (env.curTs - c.tsTwExpire).toInt then
      if c.onControlList then (c, false)
      else
        (destroyTCPStream env.cfg
          { c with
            timewaitList := c.timewaitList.erase c.sid
            onTimewaitList := false
            timewaitListCnt := c.timewaitListCnt - 1
            state := .closed
            closeReason := .activeClose }, false)
    else (c, true)
  else (c, false)

/-- Body of `CheckConnectionTimeout`; `true` ends the pass. -/
def timeoutStep (env : Env) (c : Conn) : Conn × Bool :=
  if env.cfg.tcpTimeout ≤ (env.curTs - c.lastActiveTs).toInt then
    (notifyOrDestroy env
      { c with
        onTimeoutList := false
        timeoutList := c.timeoutList.erase c.sid
        timeoutListCnt := c.timeoutListCnt - 1
        state := .closed
        closeReason := .timedOut }, false)
  else (c, true)

end MtcpStack
