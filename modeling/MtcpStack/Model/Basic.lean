import Mathlib.Data.BitVec
import Mathlib.Data.List.Basic

/-! # Words, constants and enumerations

The machine words of the stack, the comparison macros and constants of `tcp_in.h`, and the
states, close reasons and flags a stream carries. -/

namespace MtcpStack

abbrev U32 := BitVec 32
abbrev U16 := BitVec 16
abbrev U8 := BitVec 8

/-! ## Sequence comparison -/

/-- `TCP_SEQ_LT`: the sign of the wrapped difference decides. -/
def tcpSeqLt (a b : U32) : Prop := (a - b).toInt < 0

def tcpSeqLeq (a b : U32) : Prop := (a - b).toInt ≤ 0

def tcpSeqGt (a b : U32) : Prop := 0 < (a - b).toInt

def tcpSeqGeq (a b : U32) : Prop := 0 ≤ (a - b).toInt

def tcpSeqBetween (a b c : U32) : Prop := tcpSeqGeq a b ∧ tcpSeqLeq a c

instance (a b : U32) : Decidable (tcpSeqLt a b) := inferInstanceAs (Decidable (_ < _))

instance (a b : U32) : Decidable (tcpSeqLeq a b) := inferInstanceAs (Decidable (_ ≤ _))

instance (a b : U32) : Decidable (tcpSeqGt a b) := inferInstanceAs (Decidable (_ < _))

instance (a b : U32) : Decidable (tcpSeqGeq a b) := inferInstanceAs (Decidable (_ ≤ _))

instance (a b c : U32) : Decidable (tcpSeqBetween a b c) := inferInstanceAs (Decidable (_ ∧ _))

/-! ## Constants -/

def tcpDefaultMss : U16 := 1460
def tcpDefaultWscale : U8 := 7
def tcpInitialWindow : U32 := 14600
def tcpMaxWindow : U32 := 65535
def tcpInitialCwnd : U32 := 2
def tcpInitialRto : U32 := 500
def tcpMaxRtx : U8 := 16
def tcpMaxSynRetry : U8 := 7
def tcpMaxBackoff : U8 := 7
def rtoHash : ℕ := 3000

/-- `ERROR`, the negative result shared by the send path. -/
def error : ℤ := -1

/-! ## States -/

/-- `enum tcp_state`. -/
inductive TcpState where
  | closed
  | listen
  | synSent
  | synRcvd
  | established
  | finWait1
  | finWait2
  | closeWait
  | closing
  | lastAck
  | timeWait
  deriving DecidableEq, Repr

/-- The numbers of `enum tcp_state`, which the source compares with `<` and `>=`. -/
def TcpState.code : TcpState → ℕ
  | .closed => 0
  | .listen => 1
  | .synSent => 2
  | .synRcvd => 3
  | .established => 4
  | .finWait1 => 5
  | .finWait2 => 6
  | .closeWait => 7
  | .closing => 8
  | .lastAck => 9
  | .timeWait => 10

/-- `enum tcp_close_reason`. -/
inductive CloseReason where
  | notClosed
  | activeClose
  | passiveClose
  | connFail
  | connLost
  | reset
  | noMem
  | notAccepted
  | timedOut
  deriving DecidableEq, Repr

/-- The flag bits of a segment, `TCP_FLAG_WACK` included. -/
structure TcpFlags where
  fin : Bool
  syn : Bool
  rst : Bool
  ack : Bool
  wack : Bool
  deriving DecidableEq, Repr

def TcpFlags.none : TcpFlags := ⟨false, false, false, false, false⟩

/-- The options of `EnqueueACK`. -/
inductive AckOpt where
  | now
  | aggregate
  | wack
  deriving DecidableEq, Repr

/-- The events raised to the application, by the function that raises them. -/
inductive AppEvent where
  | read
  | write
  | close
  | error
  deriving DecidableEq, Repr

end MtcpStack
