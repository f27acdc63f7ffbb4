import MtcpStack.Library.Memory
import MtcpStack.Model.Checksum

/-! # ICMP (`icmp.c`)

Packets are read from memory: `pkt k` is the byte at `pkt_data + k`. -/

namespace MtcpStack

open Memory

/-! ## The IP header -/

/-- Where the IP header is in a frame. -/
def iphOffset : ℕ := 14

def version (pkt : ℕ → U8) : ℕ := (pkt iphOffset).toNat / 16
def ihl (pkt : ℕ → U8) : ℕ := (pkt iphOffset).toNat % 16
def totLen (pkt : ℕ → U8) : ℕ := (read16 pkt (iphOffset + 2)).toNat
def protocol (pkt : ℕ → U8) : U8 := pkt (iphOffset + 9)
def ipSaddr (pkt : ℕ → U8) : U32 := dwordAt pkt (iphOffset + 12)
def ipDaddr (pkt : ℕ → U8) : U32 := dwordAt pkt (iphOffset + 16)

/-- `IP_NEXT_PTR`. -/
def ipNext (pkt : ℕ → U8) : ℕ := iphOffset + ihl pkt * 4

/-! ## Replies -/

def icmpEchoReply : U8 := 0
def icmpEcho : U8 := 8

/-- An ICMP message as it leaves, with what the IP header says about it. -/
structure IcmpMessage where
  saddr : U32
  daddr : U32
  totLen : U16
  bytes : List U8
  deriving DecidableEq, Repr

/-- What becomes of an ICMP packet. -/
inductive IcmpResult where
  | assertFailed
  | error
  | ignored
  | noBuffer
  | sent (m : IcmpMessage)
  deriving DecidableEq, Repr

/-- What the stack leaves in the uninitialised bytes of two calls of `ICMPChecksum`, and whether
`IPOutputStandalone` has a route, a hardware address and a buffer. -/
structure IcmpEnv where
  staleIn : U8
  staleOut : U8
  buffer : Bool
  deriving DecidableEq, Repr

/-- The header and the data before the checksum is stored. -/
def icmpBytes (type code : U8) (id seq : U16) (data : List U8) : List U8 :=
  [type, code, 0, 0] ++ (bytes16 id ++ bytes16 seq ++ data)

/-- `ICMPOutput`. -/
def icmpOutput (env : IcmpEnv) (saddr daddr : U32) (type code : U8) (id seq : U16)
    (icmpd : ℕ → U8) (len : U16) : IcmpResult :=
  if env.buffer then
    let icmph := ofList (icmpBytes type code id seq (load icmpd 0 len.toNat))
    let check := icmpChecksum icmph env.staleOut (8 + len.toNat)
    .sent ⟨saddr, daddr, 20 + (8 + len), load (storeWord icmph 2 check) 0 (8 + len.toNat)⟩
  else .noBuffer

/-- `ProcessICMPECHORequest`. The length of the data is computed unsigned and cut to 16 bits. -/
def processICMPECHORequest (env : IcmpEnv) (pkt : ℕ → U8) (len : ℕ) : IcmpResult :=
  let icmph := fun k => pkt (ipNext pkt + k)
  let n : ℤ := len - (ihl pkt * 4 : ℕ)
  if n < 0 then .assertFailed
  else if icmpChecksum icmph env.staleIn n.toNat ≠ 0 then .error
  else icmpOutput env (ipDaddr pkt) (ipSaddr pkt) icmpEchoReply 0 (read16 icmph 4) (read16 icmph 6)
    (fun k => icmph (8 + k)) (BitVec.ofInt 16 (n - 8))

/-- `ProcessICMPPacket`; `eths` are the addresses of the interfaces. -/
def processICMPPacket (env : IcmpEnv) (eths : List U32) (pkt : ℕ → U8) (len : ℕ) : IcmpResult :=
  if ipDaddr pkt ∈ eths then
    if pkt (ipNext pkt) = icmpEcho then processICMPECHORequest env pkt len else .ignored
  else .ignored

end MtcpStack
