import MtcpStack.Model.Basic

/-! # Receive side scaling (`rss.c`)

The core a connection is received on, as the network card computes it: a Toeplitz hash of the
addresses and ports, cut to the bits of the redirection table. -/

namespace MtcpStack

/-- An address and a port, in network order (`struct sockaddr_in`). -/
structure SockAddr where
  addr : U32
  port : U16
  deriving DecidableEq, Repr

/-- `INADDR_ANY` and `INPORT_ANY`, which a cleared `struct sockaddr_in` holds. -/
def SockAddr.any : SockAddr := ⟨0, 0⟩

/-- `ntohl`, which is also `htonl`, on a little endian host. -/
def ntohl (x : U32) : U32 :=
  x.extractLsb' 0 8 ++ x.extractLsb' 8 8 ++ x.extractLsb' 16 8 ++ x.extractLsb' 24 8

/-- `ntohs`, which is also `htons`. -/
def ntohs (x : U16) : U16 := x.extractLsb' 0 8 ++ x.extractLsb' 8 8

/-! ## The key cache -/

/-- `key[]` of `BuildKeyCache`. -/
def rssKey : List U8 := List.replicate 40 0x05

/-- The bit of the key at `idx`; the byte is shifted as an `int`. -/
def keyBit (idx : ℕ) : U32 :=
  if ((rssKey.getD (idx / 8) 0).setWidth 32 <<< (idx % 8)) &&& 0x80#32 ≠ 0 then 1 else 0

/-- The loop of `BuildKeyCache` for `n` more entries. -/
def buildKeyCacheFrom : ℕ → U32 → ℕ → List U32
  | 0, _, _ => []
  | n + 1, result, idx => result :: buildKeyCacheFrom n (result <<< 1 ||| keyBit idx) (idx + 1)

def buildKeyCache (cacheLen : ℕ) : List U32 :=
  let byte := fun i => (rssKey.getD i 0).setWidth 32
  buildKeyCacheFrom cacheLen (byte 0 <<< 24 ||| byte 1 <<< 16 ||| byte 2 <<< 8 ||| byte 3) 32

def keyCacheLen : ℕ := 96

/-- `key_cache`, filled by the first call of `GetRSSHash`. -/
def keyCache : List U32 := buildKeyCache keyCacheLen

/-! ## The hash -/

/-- One loop of `GetRSSHash`: `n` more bits of `x`, its next entry of the cache at `i`. -/
def hashBits {w : ℕ} : ℕ → ℕ → BitVec w → U32 → U32
  | 0, _, _, res => res
  | n + 1, i, x, res =>
    hashBits n (i + 1) (x <<< 1) (if x.msb then res ^^^ keyCache.getD i 0 else res)

def getRSSHash (sip dip : U32) (sp dp : U16) : U32 :=
  hashBits 16 80 dp (hashBits 16 64 sp (hashBits 32 32 dip (hashBits 32 0 sip 0)))

/-- `RSS_BIT_MASK_IXGBE` and `RSS_BIT_MASK_I40E`. -/
def rssBitMaskIxgbe : U32 := 0x0000007F
def rssBitMaskI40e : U32 := 0x000001FF

/-- `off[]`: the redirection table of the i40e is in little endian byte order. -/
def rssOffset (i : U32) : U32 :=
  if i = 0 then 3 else if i = 1 then 1 else if i = 2 then -1 else -3

/-- `GetRSSCPUCore`; the remainder is taken unsigned, and by zero it traps. -/
def getRSSCPUCore (sip dip : U32) (sp dp : U16) (numQueues : U32) (endianCheck : Bool) :
    Option U32 :=
  let masked :=
    if endianCheck then
      let masked := getRSSHash sip dip sp dp &&& rssBitMaskI40e
      masked + rssOffset (masked &&& 3)
    else getRSSHash sip dip sp dp &&& rssBitMaskIxgbe
  if numQueues = 0 then none else some (masked % numQueues)

/-! ## The callers -/

/-- The core `mtcp_connect` computes for a bound socket, from addresses in network order. -/
def connectRssCore (saddr daddr : SockAddr) (numQueues : U32) (endianCheck : Bool) : Option U32 :=
  getRSSCPUCore saddr.addr daddr.addr saddr.port daddr.port numQueues endianCheck

/-- The core `FetchAddress` computes for an entry of the pool, from addresses in host order. -/
def fetchRssCore (saddr daddr : SockAddr) (numQueues : U32) (endianCheck : Bool) : Option U32 :=
  getRSSCPUCore (ntohl saddr.addr) (ntohl daddr.addr) (ntohs saddr.port) (ntohs daddr.port)
    numQueues endianCheck

/-- The core `CreateAddressPoolPerCore` computes for an entry, with the destination first. -/
def poolRssCore (saddr daddr : SockAddr) (numQueues : U32) (endianCheck : Bool) : Option U32 :=
  getRSSCPUCore (ntohl daddr.addr) (ntohl saddr.addr) (ntohs daddr.port) (ntohs saddr.port)
    numQueues endianCheck

end MtcpStack
