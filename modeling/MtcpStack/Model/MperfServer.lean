import MtcpStack.Model.MperfConfig

/-! # The mperf server

`server.c`: a worker context that listens, accepts a control and a data connection, reads control
messages and data, and the loop over the batches of events that `mtcp_epoll_wait` returns. What
the stack answers to a call is part of the event: the connection that is accepted, the bytes that
have arrived, whether a write goes through. -/

namespace MtcpStack.Mperf

/-- `TEST_STATE_*`. -/
inductive TestState where
  | uninit
  | createStream
  | start
  | running
  | testEnd
  | paramExchange
  | accessDeny
  | error
deriving DecidableEq, Repr

/-- The byte that stands for a state in a control message. -/
def TestState.code : TestState → U8
  | .uninit => 0
  | .createStream => 1
  | .start => 2
  | .running => 3
  | .testEnd => 4
  | .paramExchange => paramExchangeByte
  | .accessDeny => 6
  | .error => 7

/-- What the server does that its session can tell: every value that is stored to `test_state`,
every control message it handles, and that it takes the control connection for closed. -/
inductive ServerAct where
  | state (s : TestState)
  | message (code : U8)
  | closed
deriving DecidableEq, Repr

/-- What one `nwrite` of a state byte returns: the byte is written, nothing is written but the
return value is not negative (`EAGAIN`), or an error. -/
inductive WriteResult where
  | written
  | again
  | failed
deriving DecidableEq, Repr

/-- `struct worker_context` of a server with its `server_context`, beside the bytes of the control
connection that are unread and those written to it, and what the server has done. -/
structure ServerContext where
  connConf : ConnConfig := initConfig
  ctlfd : Option ℕ := none
  datafd : Option ℕ := none
  testState : TestState := .start
  cliIp : U32 := 0
  cliCtlPort : U16 := 0
  cliDataPort : U16 := 0
  rxBytes : U64 := 0
  unread : List U8 := []
  written : List U8 := []
  log : List ServerAct := []
deriving DecidableEq

namespace ServerContext

variable (ctx : ServerContext)

def note (act : ServerAct) : ServerContext := { ctx with log := ctx.log ++ [act] }

/-- An assignment to `test_state`. -/
def setState (s : TestState) : ServerContext := { ctx.note (.state s) with testState := s }

/-- `mperf_set_test_state`; the result says whether it returns 0. -/
def setTestState (write : WriteResult) (s : TestState) : ServerContext × Bool :=
  match write with
  | .written => ({ ctx.setState s with written := ctx.written ++ [s.code] }, true)
  | .again => (ctx.setState s, true)
  | .failed => (ctx.setState s, false)

/-! ## Accepting -/

end ServerContext

/-- What `mtcp_accept` returns: the socket and the peer's address. -/
structure Incoming where
  sock : ℕ
  addr : U32
  port : U16
deriving DecidableEq, Repr

namespace ServerContext

variable (ctx : ServerContext)

/-- `mperf_accept` denies the connection. -/
def Denies (conn : Incoming) : Prop :=
  ctx.ctlfd ≠ none ∧
    ¬ (ctx.testState = .createStream ∧ ctx.datafd = none ∧ ctx.cliIp = conn.addr)

instance (conn : Incoming) : Decidable (ctx.Denies conn) :=
  inferInstanceAs (Decidable (_ ∧ _))

/-- `mperf_accept` behind `mtcp_accept`. A denied connection is told so and closed. -/
def mperfAccept (write : WriteResult) (conn : Incoming) : ServerContext × ℤ :=
  if ctx.ctlfd = none then
    let ctx := { ctx with ctlfd := some conn.sock }
    let (ctx, sent) := ctx.setTestState write .paramExchange
    if sent then ({ ctx with cliCtlPort := conn.port, cliIp := conn.addr }, 0)
    else (ctx, -1)
  else if ctx.testState = .createStream ∧ ctx.datafd = none then
    if ctx.cliIp ≠ conn.addr then (ctx, -1)
    else
      let (ctx, sent) := ctx.setTestState write .running
      if sent then ({ ctx with datafd := some conn.sock, cliDataPort := conn.port }, 0)
      else (ctx, -1)
  else (ctx, -1)

/-! ## Control messages -/

/-- The case `TEST_STATE_PARAM_EXCHANGE` in the state that waits for it, on the result of
`JSON_read`. -/
def takeConf (write : WriteResult) (json : Option Json) : ServerContext × ℤ :=
  let conf := applyConf json ctx.connConf
  let ctx := { ctx with connConf := conf.1 }
  if ¬ conf.2 then ((ctx.setTestState write .error).1, -1)
  else
    let (ctx, sent) := ctx.setTestState write .createStream
    if sent then (ctx, 0)
    else (ctx.setState .error, -1)

/-- The `switch` of `mperf_handle_server_msg` on a state byte and, for the message that carries
one, the result of `JSON_read`. -/
def switchServerMsg (write : WriteResult) (state : U8) (json : Option Json) :
    ServerContext × ℤ :=
  if state = TestState.paramExchange.code then
    if ctx.testState = .paramExchange then ctx.takeConf write json
    else ((ctx.setTestState write .error).1, -1)
  else if state = TestState.error.code then (ctx.setState .error, 1)
  else if state = TestState.testEnd.code then (ctx.setState .testEnd, 1)
  else (ctx, -1)

/-- `mperf_handle_server_msg` on an open connection. A read of no byte is taken for the end of the
connection. -/
def handleServerMsg (env : ReadEnv) (write : WriteResult) : ServerContext × ℤ :=
  let first := nread (env.want 0) 1 ctx.unread
  match first.1 with
  | [] => ((ctx.note .closed).setState .testEnd, 0)
  | state :: _ =>
    let ctx : ServerContext := { ctx.note (.message state) with unread := first.2 }
    if state = TestState.paramExchange.code ∧ ctx.testState = .paramExchange then
      let json := jsonRead env ctx.unread
      { ctx with unread := json.2 }.switchServerMsg write state json.1
    else ctx.switchServerMsg write state none

/-! ## Data -/

end ServerContext

/-- What one `mtcp_read` on the data connection returns. -/
inductive ReadResult where
  | bytes (n : ℕ)
  | again
  | failed
deriving DecidableEq, Repr

namespace ServerContext

variable (ctx : ServerContext)

/-- The loop of `mperf_recv`; the result says whether it returns 0. Without another answer the
read would block. -/
def mperfRecvLoop (ctx : ServerContext) : ℤ → List ReadResult → ServerContext × Bool
  | _, [] => (ctx, true)
  | nleft, result :: results =>
    if nleft ≤ 0 then (ctx, true)
    else
      match result with
      | .again => (ctx, true)
      | .failed => (ctx, false)
      | .bytes n =>
        if n = 0 then (ctx, false)
        else
          mperfRecvLoop { ctx with rxBytes := ctx.rxBytes + BitVec.ofNat 64 n } (nleft - n) results

/-- `mperf_recv`. -/
def mperfRecv (results : List ReadResult) : ServerContext × Bool :=
  mperfRecvLoop ctx ctx.connConf.blksize.toNat results

/-! ## The loop -/

end ServerContext

/-- One event of a batch, with what the calls that handle it find. -/
inductive ServerEvent where
  /-- the listener; `none` when `mtcp_accept` fails -/
  | listen (conn : Option Incoming) (write : WriteResult)
  /-- the control connection -/
  | ctl (env : ReadEnv) (write : WriteResult)
  /-- the data connection -/
  | data (results : List ReadResult)

/-- What one `mtcp_epoll_wait` returns, and the bytes that have arrived on the control connection
since the one before. -/
structure Batch where
  arrived : List U8
  events : List ServerEvent

namespace ServerContext

variable (ctx : ServerContext)

/-- The body of the loop over a batch; the result says whether the loop goes on. -/
def serverEvent : ServerEvent → ServerContext × Bool
  | .listen none _ => (ctx, false)
  | .listen (some conn) write =>
    let (ctx, ret) := ctx.mperfAccept write conn
    (ctx, 0 ≤ ret)
  | .ctl env write =>
    if ctx.ctlfd = none then (ctx, true)
    else
      let (ctx, ret) := ctx.handleServerMsg env write
      (ctx, ret = 0)
  | .data results =>
    if ctx.datafd = none then (ctx, true)
    else
      let (ctx, received) := ctx.mperfRecv results
      if received then (ctx, true) else (ctx.setState .error, false)

/-- The loop over the events of one batch. A `break` leaves those behind it. -/
def serverEvents (ctx : ServerContext) : List ServerEvent → ServerContext
  | [] => ctx
  | event :: events =>
    if (ctx.serverEvent event).2 then serverEvents (ctx.serverEvent event).1 events
    else (ctx.serverEvent event).1

/-- Bytes arrive on the control connection. -/
def arrive (bytes : List U8) : ServerContext := { ctx with unread := ctx.unread ++ bytes }

def serverBatch (batch : Batch) : ServerContext :=
  (ctx.arrive batch.arrived).serverEvents batch.events

/-- The test is over. -/
def Finished : Prop := ctx.testState = .testEnd ∨ ctx.testState = .error

instance : Decidable ctx.Finished := inferInstanceAs (Decidable (_ ∨ _))

/-- `mperf_server_loop` over the batches of a run. -/
def serverLoop (ctx : ServerContext) : List Batch → ServerContext
  | [] => ctx
  | batch :: batches =>
    if (ctx.serverBatch batch).Finished then ctx.serverBatch batch
    else serverLoop (ctx.serverBatch batch) batches

end ServerContext

end MtcpStack.Mperf
