import MtcpStack.Model.Routing
import MtcpStack.Model.Rss

/-! # The ARP table (`arp.c`, `config.c`)

How the table is loaded, looked up and extended by the packets that arrive. The array has
`maxArpEntry` elements; nothing in the source compares the number of entries with it. -/

namespace MtcpStack

abbrev HwAddr := BitVec 48

/-- `struct arp_entry`. -/
structure ArpEntry where
  ip : U32
  prefixLen : ℤ
  ipMask : U32
  ipMasked : U32
  haddr : HwAddr
  deriving DecidableEq, Repr

/-- `struct arp_queue_entry`. -/
structure ArpQueueEntry where
  ip : U32
  nifOut : ℤ
  tsOut : U32
  deriving DecidableEq, Repr

/-- `enum arp_opcode`. -/
inductive ArpOpcode where
  | request
  | reply
  deriving DecidableEq, Repr

/-- The arguments of a call of `ARPOutput`. -/
structure ArpOutput where
  nif : ℤ
  opcode : ArpOpcode
  dstIp : U32
  dstHaddr : HwAddr
  targetHaddr : Option HwAddr
  deriving DecidableEq, Repr

/-- What the ARP functions read of an interface. -/
structure ArpEth where
  ipAddr : U32
  ifindex : ℤ
  deriving DecidableEq, Repr

/-- `CONFIG`, `CONFIG.arp` and `g_arpm` together: `entry` holds the entries in use, `gateway` is
the index of the one `CONFIG.arp.gateway` points to, `route` the address of `CONFIG.gateway`. -/
structure ArpState where
  eths : List ArpEth
  route : Option U32
  entry : List ArpEntry
  gateway : Option ℕ
  queue : List ArpQueueEntry
  sent : List ArpOutput
  deriving DecidableEq, Repr

/-- `MAX_ARPENTRY`, the size of the array that `InitARPTable` allocates. -/
def maxArpEntry : ℕ := 1024

namespace ArpState

variable (st : ArpState)

/-! ## Lookup -/

/-- The loop of `GetDestinationHWaddr` with its locals `prefix` and `d_haddr`. -/
def hwaddrLoop (dip : U32) : List ArpEntry → ℤ → Option HwAddr → Option HwAddr
  | [], _, dHaddr => dHaddr
  | e :: rest, best, dHaddr =>
    if e.prefixLen = 1 then
      if e.ip = dip then some e.haddr else hwaddrLoop dip rest best dHaddr
    else if dip &&& e.ipMask = e.ipMasked then
      if best < e.prefixLen then hwaddrLoop dip rest e.prefixLen (some e.haddr)
      else hwaddrLoop dip rest best dHaddr
    else hwaddrLoop dip rest best dHaddr

/-- `GetDestinationHWaddr`. -/
def getDestinationHWaddr (dip : U32) (isGateway : Bool) : Option HwAddr :=
  match if isGateway then st.gateway.bind (st.entry[·]?) else none with
  | some g => some g.haddr
  | none => hwaddrLoop dip st.entry 0 none

/-! ## Adding entries -/

/-- An entry is stored behind the others; it becomes that of the gateway if it covers its
address. -/
def addEntry (e : ArpEntry) : ArpState :=
  { st with
    entry := st.entry ++ [e]
    gateway :=
      if st.route.any fun daddr => daddr &&& e.ipMask = e.ipMasked then some st.entry.length
      else st.gateway }

/-- `RegisterARPEntry`. -/
def registerARPEntry (ip : U32) (haddr : HwAddr) : ArpState := st.addEntry ⟨ip, 32, -1, ip, haddr⟩

end ArpState

/-- A line of the ARP file. -/
structure ArpLine where
  ip : U32
  prefixLen : ℤ
  haddr : HwAddr
  deriving DecidableEq, Repr

namespace ArpState

variable (st : ArpState)

/-- `EnrollARPTableEntry`; a line whose length is out of range is skipped. -/
def enrollARPTableEntry (line : ArpLine) : ArpState :=
  if 32 < line.prefixLen ∨ line.prefixLen < 0 then st
  else
    let mask := maskFromPrefix line.prefixLen.toNat
    st.addEntry ⟨line.ip, line.prefixLen, mask, line.ip &&& mask, line.haddr⟩

/-- `InitARPTable`. -/
def initARPTable (eths : List ArpEth) (route : Option U32) : ArpState :=
  ⟨eths, route, [], none, [], []⟩

/-- `LoadARPTable` on a file, if there is one: the number of entries it announces and its lines.
`none` is an exit. -/
def loadARPTable (eths : List ArpEth) (route : Option U32) (file : Option (ℤ × List ArpLine)) :
    Option ArpState :=
  match file with
  | none => some (initARPTable eths route)
  | some (numEntry, lines) =>
    if numEntry ≤ 0 ∨ numEntry < lines.length then none
    else some (lines.foldl enrollARPTableEntry (initARPTable eths route))

/-! ## Packets -/

end ArpState

/-- The fields of `struct arphdr` that are read. -/
structure ArpHdr where
  arOp : U16
  arSha : HwAddr
  arSip : U32
  arTip : U32
  deriving DecidableEq, Repr

namespace ArpState

variable (st : ArpState)

def arpOutput (out : ArpOutput) : ArpState := { st with sent := st.sent ++ [out] }

/-- The sender of a packet is registered if it is not known. -/
def learn (arph : ArpHdr) : ArpState :=
  match st.getDestinationHWaddr arph.arSip false with
  | some _ => st
  | none => st.registerARPEntry arph.arSip arph.arSha

def processARPRequest (arph : ArpHdr) (nif : ℤ) : ArpState :=
  (st.learn arph).arpOutput ⟨nif, .reply, arph.arSip, arph.arSha, none⟩

def processARPReply (arph : ArpHdr) : ArpState :=
  let st := st.learn arph
  { st with queue := st.queue.eraseP fun ent => ent.ip = arph.arSip }

/-- The packet is destined to one of the interfaces. -/
def ToMe (arph : ArpHdr) : Prop := ∃ eth ∈ st.eths, arph.arTip = eth.ipAddr

instance (arph : ArpHdr) : Decidable (st.ToMe arph) :=
  inferInstanceAs (Decidable (∃ eth ∈ st.eths, _))

/-- The opcode of a packet, if it has one. -/
def opcode (arph : ArpHdr) : Option ArpOpcode :=
  if ntohs arph.arOp = 1 then some .request else if ntohs arph.arOp = 2 then some .reply else none

/-- `ProcessARPPacket` on a packet from interface `ifidx`. -/
def processARPPacket (ifidx : ℕ) (arph : ArpHdr) : ArpState :=
  if ¬ st.ToMe arph then st
  else
    match opcode arph with
    | some .request =>
      st.processARPRequest arph ((st.eths[ifidx]?).elim 0 ArpEth.ifindex)
    | some .reply => st.processARPReply arph
    | none => st

/-! ## Requests of the stack -/

/-- `RequestARP`: one request at a time for an address. -/
def requestARP (ip : U32) (nif : ℤ) (curTs : U32) : ArpState :=
  if st.queue.any fun ent => ent.ip = ip then st
  else
    let ent : ArpQueueEntry := ⟨ip, nif, curTs⟩
    { st with queue := st.queue ++ [ent] }.arpOutput ⟨nif, .request, ip, -1, some 0⟩

/-- `ARPTimer`: requests older than a second, that is 1000 ticks, are dropped. -/
def arpTimer (curTs : U32) : ArpState :=
  { st with queue := st.queue.filter fun ent => ¬ tcpSeqGt curTs (ent.tsOut + 1000) }

end ArpState

/-- What happens to the table: a packet arrives, or the stack asks for an address or its timer
runs. -/
inductive ArpEvent where
  | packet (ifidx : ℕ) (arph : ArpHdr)
  | request (ip : U32) (nif : ℤ) (curTs : U32)
  | timer (curTs : U32)
  deriving DecidableEq, Repr

def ArpState.apply (st : ArpState) : ArpEvent → ArpState
  | .packet ifidx arph => st.processARPPacket ifidx arph
  | .request ip nif curTs => st.requestARP ip nif curTs
  | .timer curTs => st.arpTimer curTs

def ArpState.run (st : ArpState) (events : List ArpEvent) : ArpState :=
  events.foldl ArpState.apply st

end MtcpStack
