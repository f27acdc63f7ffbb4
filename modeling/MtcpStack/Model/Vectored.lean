import MtcpStack.Library.Pieces
import MtcpStack.Model.Api

/-! # Scatter reads and gather writes (`mtcp_readv` and `mtcp_writev` in `api.c`)

The two calls repeat the code of `mtcp_recv` and `mtcp_write` around a loop over the caller's
buffers. The lengths of the buffers together fit an `int`. -/

namespace MtcpStack

/-- `CopyToUser` from the buffer the stream has at the moment of the call. -/
def copyToIov (len : ℕ) (c : Conn) : Conn × ℤ :=
  match c.rcvbuf with
  | none => (c.fault .noRcvbuf, -1)
  | some b => copyToUser b len c

/-- The event `mtcp_readv` leaves behind. Unlike `mtcp_recv` it asks a second time whether the
socket waits for input, level triggered. -/
def remindVectorReader (s : Socket) (bytesRead : ℤ) (c : Conn) : Conn :=
  let merged := match c.rcvbuf with
    | none => 0
    | some b => b.mergedLen
  if (s.epollIn ∧ s.epollEt = false ∧ 0 < merged) ∨
      (c.state = .closeWait ∧ merged = 0 ∧ 0 < bytesRead) then
    if s.epollIn ∧ s.epollEt = false then c.act (.raised .read) else c
  else c

/-- `mtcp_readv` into buffers of the lengths `iov`. -/
def mtcpReadv (iov : List ℕ) (c : Conn) : Conn × ℤ :=
  match c.smap, c.socket with
  | true, some s =>
    if c.state.code < TcpState.established.code ∨ TcpState.closeWait.code < c.state.code then (c, -1)
    else
      match c.rcvbuf with
      | none =>
        if c.state = .closeWait then (c, 0)
        else if s.nonblock then (c, -1)
        else (c.fault .noRcvbuf, -1)
      | some b =>
        if b.mergedLen = 0 then (c, if c.state = .closeWait then 0 else -1)
        else
          let r := Pieces.copyAll id copyToIov iov 0 c
          (remindVectorReader s r.2 r.1, r.2)
  | _, _ => (c, -1)

/-- `mtcp_writev` of the buffers `iov`. -/
def mtcpWritev (env : Env) (iov : List (List U8)) (c : Conn) : Conn × ℤ :=
  match c.smap, c.socket with
  | true, some s =>
    if c.state ≠ .established ∧ c.state ≠ .closeWait then (c, -1)
    else
      let r := Pieces.copyAll List.length (copyFromUser env) iov 0 c
      let c := if 0 < r.2 then enqueueSend r.1 else r.1
      let toWrite := if r.2 = 0 ∧ s.nonblock then -1 else r.2
      let c := if 0 < c.sndWnd.toNat ∧ s.epollOut ∧ s.epollEt = false then c.act (.raised .write)
        else c
      (c, toWrite)
  | _, _ => (c, -1)

end MtcpStack
