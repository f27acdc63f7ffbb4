import MtcpStack.Library.Memory
import MtcpStack.Model.Options
import MtcpStack.Model.Output

/-! # Writing options (`tcp_out.c`)

The bytes are listed in the order in which the source stores them, so the length of the list is
the index `i` at the end of `GenerateTCPOptions`. -/

namespace MtcpStack

open Memory

/-- `htonl` stores a double word with its most significant byte first. -/
def generateTCPTimestamp (c : Conn) (curTs : U32) : List U8 :=
  [optTimestamp, 10] ++ bytes32 curTs ++ bytes32 c.tsRecent

/-- `GenerateTCPOptions` with timestamps enabled and SACK disabled. -/
def generateTCPOptions (c : Conn) (curTs : U32) (flags : TcpFlags) : List U8 :=
  if flags.syn then
    [optMss, 4, (c.mss >>> 8).setWidth 8, (c.mss % 256).setWidth 8]
      ++ [optNop, optNop] ++ generateTCPTimestamp c curTs
      ++ [optNop, optWscale, 3, c.wscaleMine]
  else [optNop, optNop] ++ generateTCPTimestamp c curTs

end MtcpStack
