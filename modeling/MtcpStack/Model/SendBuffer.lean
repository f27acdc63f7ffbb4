import MtcpStack.Library.Slice
import MtcpStack.Model.Basic

/-! # The send buffer (`tcp_send_buffer.c`)

A queue of bytes in one memory block: writes append at `tailOff`, acknowledgements remove at
`head`. A result of `none` is a copy outside the block. -/

namespace MtcpStack

open Slice

/-- `struct tcp_send_buffer`; `head` is the pointer, as an offset into `data`. -/
structure SendBuffer where
  data : List U8
  head : ℕ
  headOff : ℕ
  tailOff : ℕ
  len : ℕ
  cumLen : BitVec 64
  size : ℕ
  headSeq : U32
  initSeq : U32
  deriving DecidableEq, Repr

/-- `SBInit` on a memory block, fresh or recycled through the free queue with its old bytes. -/
def sbInit (chunk : List U8) (initSeq : U32) : SendBuffer where
  data := chunk
  head := 0
  headOff := 0
  tailOff := 0
  len := 0
  cumLen := 0
  size := chunk.length
  headSeq := initSeq
  initSeq := initSeq

def sbPut (b : SendBuffer) (payload : List U8) : Option (SendBuffer × ℤ) :=
  if payload.length = 0 then some (b, 0)
  else
    let toPut := min payload.length (b.size - b.len)
    if toPut = 0 then some (b, -2)
    else
      let src := payload.take toPut
      if b.tailOff + toPut < b.size then
        (blit b.data b.tailOff src).map fun data =>
          ({ b with
              data
              tailOff := b.tailOff + toPut
              len := b.len + toPut
              cumLen := b.cumLen + BitVec.ofNat 64 toPut }, (toPut : ℤ))
      else
        -- the payload still buffered moves to the front of the block first
        (slice b.data b.head b.len).bind fun moved =>
          (blit b.data 0 moved).bind fun data =>
            (blit data b.len src).map fun data =>
              ({ b with
                  data
                  head := 0
                  headOff := 0
                  tailOff := b.len + toPut
                  len := b.len + toPut
                  cumLen := b.cumLen + BitVec.ofNat 64 toPut }, (toPut : ℤ))

def sbRemove (b : SendBuffer) (len : ℕ) : SendBuffer × ℤ :=
  if len = 0 then (b, 0)
  else
    let toRemove := min len b.len
    if toRemove = 0 then (b, -2)
    else
      let headOff := b.headOff + toRemove
      let b' :=
        { b with
          headOff
          head := headOff
          headSeq := b.headSeq + BitVec.ofNat 32 toRemove
          len := b.len - toRemove }
      if b'.len = 0 ∧ 0 < b'.headOff then
        ({ b' with head := 0, headOff := 0, tailOff := 0 }, (toRemove : ℤ))
      else (b', (toRemove : ℤ))

end MtcpStack
