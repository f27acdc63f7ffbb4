import MtcpStack.Model.MperfServer

/-! # The writes of mperf

`nwrite` and what is sent through it, call by call: `JSON_write` with `mperf_send_conf`,
`mperf_set_test_state`, and `mperf_accept` with the sockets it closes. What `mtcp_write` returns is
given by a sequence of answers; each call uses the next one. -/

namespace MtcpStack.Mperf

/-! ## `nwrite` -/

/-- The values of `errno` that `nwrite` tells apart. `EWOULDBLOCK` is `EAGAIN`. -/
inductive WriteErrno where
  | intr
  | again
  | noBufs
  | other
deriving DecidableEq, Repr

/-- What one `mtcp_write` returns: how many bytes it takes, or `-1`. -/
inductive WriteAnswer where
  | taken (n : ℕ)
  | failed (errno : WriteErrno)
deriving DecidableEq, Repr

def netHarderror : ℤ := -1
def netSofterror : ℤ := -2

/-- A `size_t` that is returned as an `int`. -/
def asInt (n : ℕ) : ℤ := (BitVec.ofNat 32 n).toInt

/-- What a writing function comes to: its return value, the bytes that `mtcp_write` has taken, and
the number of answers that have been used. -/
structure Written where
  ret : ℤ
  taken : List U8
  used : ℕ
deriving DecidableEq, Repr

/-- The loop of `nwrite` on what is left of `count` bytes; the next answer is answer `k`. A write
takes no more than it is offered. -/
def nwriteLoop (answer : ℕ → WriteAnswer) (count : ℕ) : ℕ → ℕ → List U8 → Written
  | 0, k, _ => ⟨asInt count, [], k⟩
  | fuel + 1, k, left =>
    if left = [] then ⟨asInt count, [], k⟩
    else
      match answer k with
      | .failed .intr | .failed .again => ⟨asInt (count - left.length), [], k + 1⟩
      | .failed .noBufs => ⟨netSofterror, [], k + 1⟩
      | .failed .other => ⟨netHarderror, [], k + 1⟩
      | .taken n =>
        let r := min n left.length
        if r = 0 then ⟨netSofterror, [], k + 1⟩
        else
          let rest := nwriteLoop answer count fuel (k + 1) (left.drop r)
          { rest with taken := left.take r ++ rest.taken }

/-- `nwrite`. Every round that goes on takes a byte, so that `count` rounds are enough. -/
def nwrite (answer : ℕ → WriteAnswer) (k : ℕ) (bytes : List U8) : Written :=
  nwriteLoop answer bytes.length bytes.length k bytes

/-! ## Messages -/

namespace Written

/-- A function that returns `-1` when a write has failed and writes on otherwise. -/
def andThen (w : Written) (next : ℕ → Written) : Written :=
  if w.ret < 0 then { w with ret := -1 }
  else
    let rest := next w.used
    { rest with taken := w.taken ++ rest.taken }

/-- The last write of a function that returns 0 or `-1`. -/
def status (w : Written) : Written := { w with ret := if w.ret < 0 then -1 else 0 }

/-- The result of writing a single byte, as `setTestState` takes it. -/
def result (w : Written) : WriteResult :=
  if w.ret < 0 then .failed else if w.taken = [] then .again else .written

end Written

/-- `JSON_write`; without a text `cJSON_PrintUnformatted` has failed. The length of the text is a
`uint32_t`, and so many bytes of it are sent. -/
def jsonWriteBy (answer : ℕ → WriteAnswer) (k : ℕ) (text : Option (List U8)) : Written :=
  match text with
  | none => ⟨-1, [], k⟩
  | some str =>
    let hsize := str.length % 2 ^ 32
    (nwrite answer k [paramExchangeByte]).andThen fun k =>
      (nwrite answer k (htonl hsize)).andThen fun k =>
        (nwrite answer k (str.take hsize)).status

/-- What `mperf_send_conf` finds around it: whether the worker is a client, whether the JSON object
can be created and whether it can be printed. -/
structure SendEnv where
  isClient : Bool
  created : Bool
  printed : Bool
deriving DecidableEq, Repr

/-- `mperf_send_conf`. -/
def mperfSendConfBy (answer : ℕ → WriteAnswer) (env : SendEnv) (cjson : Cjson)
    (conf : ConnConfig) : Written :=
  if ¬ env.isClient then ⟨-1, [], 0⟩
  else if ¬ env.created then ⟨-1, [], 0⟩
  else jsonWriteBy answer 0 (if env.printed then some (cjson.print (confItems conf)) else none)

/-- What `mperf_set_test_state` writes and returns. -/
def mperfSetTestState (answer : ℕ → WriteAnswer) (s : TestState) : Written :=
  (nwrite answer 0 [s.code]).status

/-! ## Accepting -/

/-- What `mperf_accept` comes to: the context it leaves, its return value and the sockets it has
closed. -/
structure AcceptCall where
  ctx : ServerContext
  ret : ℤ
  closed : List ℕ

namespace ServerContext

variable (ctx : ServerContext) (answer : ℕ → WriteAnswer)

/-- `mperf_set_test_state` on a context: the state is stored before it is sent. -/
def storeTestState (s : TestState) : ServerContext × ℤ :=
  let w := mperfSetTestState answer s
  ({ ctx.setState s with written := ctx.written ++ w.taken }, w.ret)

/-- The label `access_deny`: the client is told so, and its connection is closed. -/
def accessDeny (conn : Incoming) : AcceptCall := ⟨ctx, -1, [conn.sock]⟩

/-- `mperf_accept`; `conn` is what `mtcp_accept` returns, if it does. -/
def mperfAcceptCall (conn : Option Incoming) : AcceptCall :=
  match conn with
  | none => ⟨ctx, -1, []⟩
  | some conn =>
    if ctx.ctlfd = none then
      let ctx := { ctx with ctlfd := some conn.sock }
      let (ctx, ret) := ctx.storeTestState answer .paramExchange
      if ret < 0 then ⟨ctx, -1, [conn.sock]⟩
      else ⟨{ ctx with cliCtlPort := conn.port, cliIp := conn.addr }, 0, []⟩
    else if ctx.testState = .createStream ∧ ctx.datafd = none then
      if ctx.cliIp ≠ conn.addr then ctx.accessDeny conn
      else
        let (ctx, ret) := ctx.storeTestState answer .running
        if ret < 0 then ⟨ctx, -1, [conn.sock]⟩
        else ⟨{ ctx with datafd := some conn.sock, cliDataPort := conn.port }, 0, []⟩
    else ctx.accessDeny conn

end ServerContext

end MtcpStack.Mperf
