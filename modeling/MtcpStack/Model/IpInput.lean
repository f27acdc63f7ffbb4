import MtcpStack.Model.Icmp
import MtcpStack.Model.Stream

/-! # From frames to segments (`ip_in.c`, `tcp_in.c`)

`len`, the number of bytes received, is handed on for the release of the frame only. -/

namespace MtcpStack

open Memory

/-- Which checksums the device has verified: `dev_ioctl` answers 0. -/
structure Offload where
  ipCsum : Bool
  tcpCsum : Bool
  deriving DecidableEq, Repr

/-! ## The TCP header -/

def doff (pkt : ℕ → U8) : ℕ := (pkt (ipNext pkt + 12)).toNat / 16

/-- Bit `k` of the flags. -/
def tcpFlag (pkt : ℕ → U8) (k : ℕ) : Bool := (pkt (ipNext pkt + 13)).getLsbD k

/-- `ip_len - (payload - iph)`. -/
def payloadLen (pkt : ℕ → U8) (ipLen : ℕ) : ℤ := (ipLen : ℤ) - ((ihl pkt + doff pkt) * 4 : ℕ)

/-- The segment in a frame. A negative option length ends both option loops at once, as zero
does. -/
def segmentOf (pkt : ℕ → U8) (ipLen : ℕ) : Segment where
  seq := read32 pkt (ipNext pkt + 4)
  ackSeq := read32 pkt (ipNext pkt + 8)
  window := read16 pkt (ipNext pkt + 14)
  fin := tcpFlag pkt 0
  syn := tcpFlag pkt 1
  rst := tcpFlag pkt 2
  ack := tcpFlag pkt 4
  payload := load pkt (ipNext pkt + doff pkt * 4) (payloadLen pkt ipLen).toNat
  opt := fun k => pkt (ipNext pkt + 20 + k)
  optLen := doff pkt * 4 - 20

/-- A segment with the addresses its stream is looked up under. -/
structure Delivery where
  loc : SockAddr
  rem : SockAddr
  seg : Segment

/-- `ProcessTCPPacket` up to the lookup; `none` is `ERROR`. -/
def readTCPPacket (hw : Offload) (pkt : ℕ → U8) (ipLen : ℕ) : Option Delivery :=
  if ipLen < (ihl pkt + doff pkt) * 4 then none
  else
    let check := tcpCalcChecksum (fun k => pkt (ipNext pkt + k))
      (BitVec.ofInt 16 ((doff pkt * 4 : ℕ) + payloadLen pkt ipLen)) (ipSaddr pkt) (ipDaddr pkt)
    if hw.tcpCsum = false ∧ check ≠ 0 then none
    else some {
      loc := ⟨ipDaddr pkt, wordAt pkt (ipNext pkt + 2)⟩
      rem := ⟨ipSaddr pkt, wordAt pkt (ipNext pkt)⟩
      seg := segmentOf pkt ipLen }

/-! ## Dispatch -/

/-- What becomes of an IP packet; `refused` is `ERROR` and `released` is `FALSE`. -/
inductive IpResult where
  | refused
  | released
  | tcp (d : Option Delivery)
  | icmp (r : IcmpResult)

def processIPv4Packet (hw : Offload) (env : IcmpEnv) (eths : List U32) (pkt : ℕ → U8) : IpResult :=
  if totLen pkt < 20 then .refused
  else if hw.ipCsum = false ∧ ipFastCsum (fun k => pkt (iphOffset + k)) (ihl pkt) ≠ 0 then .refused
  else if version pkt ≠ 4 then .released
  else if protocol pkt = 6 then .tcp (readTCPPacket hw pkt (totLen pkt))
  else if protocol pkt = 1 then .icmp (processICMPPacket env eths pkt (totLen pkt))
  else .released

end MtcpStack
