import MtcpStack.Model.Rss

/-! # Checksums (`tcp_util.c`, `icmp.c`, `ps.h`)

Words are read from memory as a little endian host reads them. -/

namespace MtcpStack

/-- The word at `i`. -/
def wordAt (buf : ℕ → U8) (i : ℕ) : U16 := buf (i + 1) ++ buf i

/-- Memory after the word `v` is stored at `i`. -/
def storeWord (buf : ℕ → U8) (i : ℕ) (v : U16) (k : ℕ) : U8 :=
  if k = i then v.extractLsb' 0 8 else if k = i + 1 then v.extractLsb' 8 8 else buf k

/-- The loop over the words of `nleft` bytes at `i`; `last` is the word added for a byte that
is left over. -/
def sumWords (buf : ℕ → U8) (last : ℕ → U16) : ℕ → ℕ → U32 → U32
  | 0, _, sum => sum
  | 1, i, sum => sum + (last i).setWidth 32
  | nleft + 2, i, sum => sumWords buf last nleft (i + 2) (sum + (wordAt buf i).setWidth 32)

/-- The sum folded to 16 bits, twice, and its complement. -/
def foldSum (sum : U32) : U16 :=
  let sum := (sum >>> 16) + (sum &&& 0xFFFF#32)
  let sum := sum + (sum >>> 16)
  (~~~sum).setWidth 16

def ipprotoTCP : U16 := 6

/-- What `TCPCalcChecksum` adds for the last byte of an odd number of bytes. -/
def paddedByte (buf : ℕ → U8) (i : ℕ) : U16 := wordAt buf i &&& ntohs 0xFF00#16

/-- The accumulator of `TCPCalcChecksum` before it is folded. -/
def tcpSum (buf : ℕ → U8) (len : U16) (saddr daddr : U32) : U32 :=
  let sum := sumWords buf (paddedByte buf) len.toNat 0 0
  let sum := sum + ((saddr &&& 0x0000FFFF#32) + (saddr >>> 16))
  let sum := sum + ((daddr &&& 0x0000FFFF#32) + (daddr >>> 16))
  let sum := sum + (ntohs len).setWidth 32
  sum + (ntohs ipprotoTCP).setWidth 32

def tcpCalcChecksum (buf : ℕ → U8) (len : U16) (saddr daddr : U32) : U16 :=
  foldSum (tcpSum buf len saddr daddr)

/-- `ICMPChecksum`; only the low byte of `odd_byte` is written, `stale` is what its high byte
holds. -/
def icmpChecksum (buf : ℕ → U8) (stale : U8) (len : ℕ) : U16 :=
  foldSum (sumWords buf (fun i => stale ++ buf i) len 0 0)

/-! ## IP headers -/

/-- The double word at `i`. -/
def dwordAt (buf : ℕ → U8) (i : ℕ) : U32 := wordAt buf (i + 2) ++ wordAt buf i

/-- `adcl`: the sum and the carry flag after it. -/
def adcl (x y : U32) (cf : Bool) : U32 × Bool :=
  (x + y + BitVec.ofNat 32 cf.toNat, 2 ^ 32 ≤ x.toNat + y.toNat + cf.toNat)

/-- The carry chain over `n` double words from `i` on. -/
def addDwords (buf : ℕ → U8) : ℕ → ℕ → U32 × Bool → U32 × Bool
  | 0, _, acc => acc
  | n + 1, i, acc => addDwords buf n (i + 4) (adcl acc.1 (dwordAt buf i) acc.2)

/-- `ip_fast_csum` of the x86 version. With `ihl` up to four the subtraction sends it to the
end, and the first word is returned as it is. -/
def ipFastCsum (buf : ℕ → U8) (ihl : ℕ) : U16 :=
  if ihl ≤ 4 then (dwordAt buf 0).setWidth 16
  else
    let acc := addDwords buf (ihl - 1) 4 (dwordAt buf 0, false)
    let sum := (adcl acc.1 0 acc.2).1
    let high : U16 := (sum >>> 16).setWidth 16
    let low : U16 := sum.setWidth 16
    ~~~(high + low + if 2 ^ 16 ≤ high.toNat + low.toNat then 1 else 0)

end MtcpStack
