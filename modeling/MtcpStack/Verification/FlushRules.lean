import MtcpStack.Model.Output

/-! # Rules of the flush loop

What a round of the loop in `FlushTCPSendingBuffer` can do, and how a fact about every round carries
over to the loop. -/

namespace MtcpStack

open Slice

variable {env : Env} {b : SendBuffer} {packets : ℤ} {c : Conn}

/-- A round runs into an assertion, ends the loop, or sends the next bytes of the buffer. -/
inductive FlushOutcome (env : Env) (b : SendBuffer) (packets : ℤ) (c : Conn) :
    Conn × Option ℤ → Prop
  | asserts {f : Fault}
      (hf : f = .flushBelowHead ∧ tcpSeqLt c.sndNxt b.headSeq ∨
        f = .flushBelowUna ∧ tcpSeqLt c.sndNxt c.sndUna ∨
        f = .flushPastEnd ∧ b.len < (c.sndNxt - b.headSeq).toNat) :
      FlushOutcome env b packets c (c.fault f, some packets)
  | flushed (hdone : (c.sndNxt - b.headSeq).toNat = b.len) :
      FlushOutcome env b packets c (c, some packets)
  | full : FlushOutcome env b packets c (probeWindow env c, some (-3))
  | unread : FlushOutcome env b packets c (c.fault .sendRead, some (-3))
  | refused {payload : List U8} (hneg : (sendTCPPacket env ackFlag payload c).2 < 0) :
      FlushOutcome env b packets c ((sendTCPPacket env ackFlag payload c).1, some (-3))
  | sent {payload : List U8} (hhead : ¬ tcpSeqLt c.sndNxt b.headSeq)
      (huna : ¬ tcpSeqLt c.sndNxt c.sndUna) (hlt : (c.sndNxt - b.headSeq).toNat < b.len)
      (hopen : windowFull c = false)
      (hslice : slice b.data (b.head + (c.sndNxt - b.headSeq).toNat)
        (pktLen c (b.len - (c.sndNxt - b.headSeq).toNat) % 2 ^ 16) = some payload)
      (hpos : 0 ≤ (sendTCPPacket env ackFlag payload c).2) :
      FlushOutcome env b packets c ((sendTCPPacket env ackFlag payload c).1, none)

theorem flushStep_outcome (env : Env) (b : SendBuffer) (packets : ℤ) (c : Conn) :
    FlushOutcome env b packets c (flushStep env b packets c) := by
  unfold flushStep
  simp only
  split_ifs with hhead huna hpast hdone hfull
  · exact .asserts (.inl ⟨rfl, hhead⟩)
  · exact .asserts (.inr (.inl ⟨rfl, huna⟩))
  · exact .asserts (.inr (.inr ⟨rfl, hpast⟩))
  · exact .flushed (by omega)
  · exact .full
  · split
    case h_1 => exact .unread
    case h_2 payload hslice =>
      split
      case isTrue hneg => exact .refused hneg
      case isFalse hpos =>
        exact .sent hhead huna (by omega) (by simpa using hfull) hslice (not_lt.1 hpos)

/-- What every round keeps, the loop keeps. -/
theorem flushLoop_keeps {P : Conn → Prop}
    (hstep : ∀ packets c, P c → P (flushStep env b packets c).1) (fuel : ℕ) (hc : P c) :
    P (flushLoop env b fuel packets c).1 := by
  induction fuel generalizing packets c with
  | zero => exact hc
  | succ fuel ih =>
    have hround := hstep packets c hc
    unfold flushLoop
    simp only
    split
    · exact hround
    · exact ih hround

theorem flushTCPSendingBuffer_keeps {P : Conn → Prop} (hfault : P (c.fault .noSendBuffer))
    (hstep : ∀ b packets d, P d → P (flushStep env b packets d).1) (hc : P c) :
    P (flushTCPSendingBuffer env c).1 := by
  unfold flushTCPSendingBuffer
  split
  · exact hfault
  · split
    · exact hc
    · exact flushLoop_keeps (hstep _) _ hc

end MtcpStack
