import MtcpStack.Model.Basic

/-! # The routing table (`config.c`, `ip_out.c`)

How the table is filled from the interfaces and from the lines of the route file, and how
`GetOutputInterface` looks an address up. Addresses and masks are in network order: byte `i` of an
address is in the bits from `8 * i` on. -/

namespace MtcpStack

/-- `struct route_table`. -/
structure RouteEntry where
  daddr : U32
  mask : U32
  masked : U32
  prefixLen : ℤ
  nif : ℤ
  deriving DecidableEq, Repr

/-- `CONFIG.rtable` and `CONFIG.gateway`, which points to one of its entries. -/
structure RouteTable where
  rtable : List RouteEntry
  gateway : Option ℕ
  deriving DecidableEq, Repr

def maxRouteEntry : ℕ := 64

/-! ## Filling the table -/

/-- `MaskFromPrefix`: the leading bits of each byte in turn. -/
def maskFromPrefix (len : ℕ) : U32 :=
  (List.range 4).foldl (fun mask i =>
    if i ≤ len / 8 then
      (List.range 8).foldl (fun mask j =>
        if j + 8 * i < len then mask ||| 1#32 <<< (7 - j) <<< (8 * i) else mask) mask
    else mask) 0

/-- What `SetRoutingTable` reads of an interface. -/
structure EthRow where
  ipAddr : U32
  netmask : U32
  ifindex : ℤ
  deriving DecidableEq, Repr

/-- The loop `while ((c = (c >> 1))) prefix++`. -/
def ethPrefixLoop : ℕ → U32 → ℕ → ℕ
  | 0, _, len => len
  | fuel + 1, c, len => if c >>> 1 = 0 then len else ethPrefixLoop fuel (c >>> 1) (len + 1)

/-- The length `SetRoutingTable` stores for a netmask: the place of its highest bit. -/
def ethPrefix (netmask : U32) : ℕ := ethPrefixLoop 32 netmask 0 + 1

/-- The entry of an interface. -/
def ethEntry (eth : EthRow) : RouteEntry where
  daddr := eth.ipAddr &&& eth.netmask
  mask := eth.netmask
  masked := eth.ipAddr &&& eth.netmask
  prefixLen := ethPrefix eth.netmask
  nif := eth.ifindex

/-- A line of the route file; `ifidx` is the index of its device, `-1` if there is none. -/
structure RouteLine where
  daddr : U32
  prefixLen : ℤ
  ifidx : ℤ
  deriving DecidableEq, Repr

/-- `EnrollRouteTableEntry`; `none` is an exit. -/
def enrollRouteTableEntry (t : RouteTable) (line : RouteLine) : Option RouteTable :=
  let ridx := t.rtable.length
  if ridx = maxRouteEntry then none
  else if 32 < line.prefixLen ∨ line.prefixLen < 0 then none
  else
    let mask := maskFromPrefix line.prefixLen.toNat
    let entry : RouteEntry := ⟨line.daddr, mask, line.daddr &&& mask, line.prefixLen, line.ifidx⟩
    some ⟨t.rtable ++ [entry], if mask = 0 then some ridx else t.gateway⟩

/-- `SetRoutingTableFromFile`: the default route has to be the last line. -/
def setRoutingTableFromFile (t : RouteTable) (lines : List RouteLine) : Option RouteTable :=
  lines.foldlM (fun t line => if t.gateway = none then enrollRouteTableEntry t line else none) t

/-- `SetRoutingTable`. -/
def setRoutingTable (eths : List EthRow) (lines : List RouteLine) : Option RouteTable :=
  setRoutingTableFromFile ⟨eths.map ethEntry, none⟩ lines

/-! ## Looking an address up -/

/-- The test of the loop. -/
def RouteEntry.Matches (daddr : U32) (r : RouteEntry) : Prop := daddr &&& r.mask = r.masked

instance (daddr : U32) : DecidablePred (RouteEntry.Matches daddr) := fun r =>
  inferInstanceAs (Decidable (daddr &&& r.mask = r.masked))

/-- The loop of `GetOutputInterface` with its locals `nif`, `prefix` and the flag `is_external`. -/
def outputLoop (gateway : Option RouteEntry) (daddr : U32) :
    List RouteEntry → ℤ → ℤ → Bool → ℤ × Bool
  | [], nif, _, isExternal => (nif, isExternal)
  | r :: rest, nif, best, isExternal =>
    if r.Matches daddr then
      -- whatever the entry decides, the loop ends here
      if best < r.prefixLen then (r.nif, isExternal)
      else
        match gateway with
        | some g => (g.nif, true)
        | none => (nif, isExternal)
    else outputLoop gateway daddr rest nif best isExternal

/-- The entry `CONFIG.gateway` points to. -/
def RouteTable.gatewayEntry (t : RouteTable) : Option RouteEntry := t.gateway.bind (t.rtable[·]?)

/-- `GetOutputInterface`: the interface and `is_external`. A build with assertions stops when the
interface is negative. -/
def RouteTable.getOutputInterface (t : RouteTable) (daddr : U32) : ℤ × Bool :=
  outputLoop t.gatewayEntry daddr t.rtable (-1) 0 false

end MtcpStack
