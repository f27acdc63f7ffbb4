import Mathlib.Logic.Function.Basic
import MtcpStack.Model.MperfServer

/-! # Sessions of an mperf server

One server context and any number of clients. Connections are numbered in the order in which they
are opened; they reach the accept queue of the server in any order. Control messages are delivered
whole and in order. -/

namespace MtcpStack.Mperf

/-! ## Clients -/

/-- A control message of a client. -/
inductive CtlMsg where
  | conf (json : Json)
  | state (s : TestState)
deriving DecidableEq

/-- `struct worker_context` of a client, with the state bytes on its control connection that it has
not read and the messages on it that the server has not read. -/
structure Client where
  testState : TestState := .uninit
  ctlfd : Option ℕ := none
  datafd : Option ℕ := none
  inbox : List U8 := []
  outbox : List CtlMsg := []
deriving DecidableEq

namespace Client

variable (c : Client)

/-- `mperf_set_test_state`. -/
def setTestState (s : TestState) : Client :=
  { c with testState := s, outbox := c.outbox ++ [.state s] }

/-- The test is over: the loop ends and both connections are closed. -/
def Finished : Prop := c.testState = .testEnd ∨ c.testState = .error

instance : Decidable c.Finished := inferInstanceAs (Decidable (_ ∨ _))

/-- `mperf_handle_client_msg` on a state byte. `ok` says whether `mperf_send_conf` or
`mperf_connect` succeeds; `link` is the connection that `mperf_connect` opens. -/
def handleClientMsg (conf : ConnConfig) (ok : Bool) (link : ℕ) (state : U8) : Client :=
  if state = TestState.paramExchange.code then
    if c.testState = .start then
      if ok then
        { c with outbox := c.outbox ++ [.conf (confItems conf)], testState := .paramExchange }
      else c.setTestState .error
    else c
  else if state = TestState.createStream.code then
    if c.testState = .paramExchange then
      if ok then { c with datafd := some link, testState := .createStream }
      else c.setTestState .error
    else c
  else if state = TestState.running.code then
    if c.testState = .createStream then { c with testState := .running } else c
  else if state = TestState.error.code then { c with testState := .error }
  else c

/-- The case of the data connection in `mperf_client_loop`; `ok` says whether `mperf_send`
succeeds. -/
def handleData (ok : Bool) : Client :=
  if ok then c.setTestState .testEnd else { c with testState := .error }

end Client

/-! ## The server -/

namespace ServerContext

variable (ctx : ServerContext)

/-- `mperf_handle_server_msg` on a whole message. -/
def handleMessage (msg : CtlMsg) : ServerContext :=
  match msg with
  | .conf json =>
    ((ctx.note (.message TestState.paramExchange.code)).switchServerMsg .written
      TestState.paramExchange.code (some json)).1
  | .state s => ((ctx.note (.message s.code)).switchServerMsg .written s.code none).1

/-- `mperf_handle_server_msg` when the client has closed the connection. -/
def handleClosed : ServerContext := (ctx.note .closed).setState .testEnd

/-- The case of the data connection in `mperf_server_loop`. -/
def handleData (results : List ReadResult) : ServerContext :=
  if (ctx.mperfRecv results).2 then (ctx.mperfRecv results).1
  else (ctx.mperfRecv results).1.setState .error

end ServerContext

/-! ## The system -/

/-- The addresses and the configurations of the clients, and the port of each connection. -/
structure Site (ι : Type) where
  host : ι → U32
  conf : ι → ConnConfig
  port : ℕ → U16

/-- A connection: who has opened it, and what for. -/
structure Link (ι : Type) where
  owner : ι
  isCtl : Bool
deriving DecidableEq

structure World (ι : Type) where
  server : ServerContext := {}
  /-- all connections; a socket is the number of its connection -/
  links : List (Link ι) := []
  /-- connections that are not in the accept queue yet -/
  connecting : List ℕ := []
  /-- the accept queue -/
  backlog : List ℕ := []
  /-- connections that the server has denied and closed -/
  denied : List ℕ := []
  client : ι → Client := fun _ => {}

namespace World

variable {ι : Type} [DecidableEq ι] (site : Site ι) (w : World ι)

def setClient (i : ι) (c : Client) : World ι := { w with client := Function.update w.client i c }

/-- `mperf_connect` of client `i`: one more connection. -/
def connect (i : ι) (isCtl : Bool) : World ι :=
  { w with
    links := w.links ++ [⟨i, isCtl⟩]
    connecting := w.connecting ++ [w.links.length] }

/-- The start of `mperf_client_loop`. -/
def start (i : ι) : World ι :=
  (w.connect i true).setClient i
    { w.client i with ctlfd := some w.links.length, testState := .start }

/-- A connection gets into the accept queue. -/
def arrive (k : ℕ) : World ι :=
  { w with connecting := w.connecting.erase k, backlog := w.backlog ++ [k] }

/-- Bytes for the client on the other side of connection `k`, if it is a control connection. -/
def post (k : ℕ) (bytes : List U8) : World ι :=
  match w.links[k]? with
  | some ⟨i, true⟩ => w.setClient i { w.client i with inbox := (w.client i).inbox ++ bytes }
  | _ => w

/-- The server has gone on to `ctx`; what it has written is under way to its client. -/
def serve (ctx : ServerContext) : World ι :=
  match ctx.ctlfd with
  | some k => { w with server := ctx }.post k (ctx.written.drop w.server.written.length)
  | none => { w with server := ctx }

/-- `mperf_accept` on connection `k`, the first of the queue. -/
def accept (k : ℕ) (owner : ι) (rest : List ℕ) : World ι :=
  let conn : Incoming := ⟨k, site.host owner, site.port k⟩
  let w := { w with backlog := rest }
  if w.server.Denies conn then
    { w with denied := w.denied ++ [k] }.post k [TestState.accessDeny.code]
  else w.serve (w.server.mperfAccept .written conn).1

/-- The client reads a state byte; a data connection that it opens is one more connection. -/
def clientMsg (i : ι) (ok : Bool) (state : U8) (rest : List U8) : World ι :=
  let c := { w.client i with inbox := rest }.handleClientMsg (site.conf i) ok w.links.length state
  if c.datafd = (w.client i).datafd then w.setClient i c
  else (w.connect i false).setClient i c

/-- One step of the server, of a client or of the network. -/
inductive Step : World ι → World ι → Prop where
  | start (w : World ι) (i : ι) (hstate : (w.client i).testState = .uninit) : Step w (w.start i)
  | arrive (w : World ι) (k : ℕ) (hconn : k ∈ w.connecting) : Step w (w.arrive k)
  | accept (w : World ι) (k : ℕ) (link : Link ι) (rest : List ℕ) (hqueue : w.backlog = k :: rest)
      (hlink : w.links[k]? = some link) (hrun : ¬ w.server.Finished) :
      Step w (w.accept site k link.owner rest)
  | serverMsg (w : World ι) (k : ℕ) (i : ι) (msg : CtlMsg) (rest : List CtlMsg)
      (hctl : w.server.ctlfd = some k) (hlink : w.links[k]? = some ⟨i, true⟩)
      (hmsg : (w.client i).outbox = msg :: rest) (hrun : ¬ w.server.Finished) :
      Step w ((w.setClient i { w.client i with outbox := rest }).serve
        (w.server.handleMessage msg))
  | serverClosed (w : World ι) (k : ℕ) (i : ι) (hctl : w.server.ctlfd = some k)
      (hlink : w.links[k]? = some ⟨i, true⟩) (hmsg : (w.client i).outbox = [])
      (hclosed : (w.client i).Finished) (hrun : ¬ w.server.Finished) :
      Step w (w.serve w.server.handleClosed)
  /-- reading data fails only when the client has closed the connection -/
  | serverData (w : World ι) (d : ℕ) (link : Link ι) (results : List ReadResult)
      (hdata : w.server.datafd = some d) (hlink : w.links[d]? = some link)
      (hfail : (w.server.mperfRecv results).2 = false → (w.client link.owner).Finished)
      (hrun : ¬ w.server.Finished) :
      Step w (w.serve (w.server.handleData results))
  | clientMsg (w : World ι) (i : ι) (ok : Bool) (state : U8) (rest : List U8)
      (hmsg : (w.client i).inbox = state :: rest) (hrun : ¬ (w.client i).Finished) :
      Step w (w.clientMsg site i ok state rest)
  /-- the data connection is watched once the client is in `RUNNING` -/
  | clientData (w : World ι) (i : ι) (ok : Bool) (hstate : (w.client i).testState = .running) :
      Step w (w.setClient i ((w.client i).handleData ok))
  /-- the server has closed the control connection -/
  | clientClosed (w : World ι) (i : ι) (k : ℕ) (hctl : (w.client i).ctlfd = some k)
      (hmsg : (w.client i).inbox = []) (hclosed : k ∈ w.denied ∨ w.server.Finished)
      (hrun : ¬ (w.client i).Finished) :
      Step w (w.setClient i { w.client i with testState := .testEnd })

/-- The worlds that can come about from the start. -/
inductive Reached : World ι → Prop where
  | init : Reached {}
  | step {w w' : World ι} (h : Reached w) (hstep : Step site w w') : Reached w'

end World

end MtcpStack.Mperf
