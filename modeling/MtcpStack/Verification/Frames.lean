import MtcpStack.Model.IpInput
import MtcpStack.Verification.Checksum

/-! # Lengths in a received frame

Two functions test the lengths a sender writes into the headers of a frame: the total length
against both header lengths, and the length of the IP header through its checksum. The data
offset alone and the number of bytes received are not tested. -/

namespace MtcpStack

open Memory

variable {hw : Offload} {env : IcmpEnv} {eths : List U32} {pkt : ℕ → U8} {d : Delivery}

/-- The segment that is handed to the lookup, if any. -/
def IpResult.delivered : IpResult → Option Delivery
  | .tcp d => d
  | _ => none

/-! ## What the tests show -/

end MtcpStack
