import MtcpStack.Model.Machine

/-! # The streams of one thread

All streams of a thread, the lists they share, and the timer passes over them (`timer.c`). A pass
reads the next element of its list before it works on one, and the work unlinks no other stream:
it walks the list as it was at its start. -/

namespace MtcpStack

/-- The streams by their ids. A stream keeps the lists as it saw them last; `shared` is what they
are now. -/
structure Thread where
  streams : ℕ → Option Conn
  shared : Shared

namespace Thread

def init : Thread := ⟨fun _ => none, Shared.init⟩

/-- A stream together with the lists. -/
def look (t : Thread) (sid : ℕ) : Option Conn :=
  (t.streams sid).map fun c => { c with toShared := t.shared }

def put (t : Thread) (sid : ℕ) (c : Conn) : Thread :=
  ⟨Function.update t.streams sid (some c), c.toShared⟩

/-! ## Walking the timewait list and the timeout list -/

/-- The loop of `CheckTimewaitExpire` and `CheckConnectionTimeout`; `body` says whether the pass
ends here. -/
def walkList (body : Conn → Conn × Bool) (thresh : ℤ) : List ℕ → ℤ → Thread → Thread
  | [], _, t => t
  | walk :: rest, cnt, t =>
    if thresh < cnt + 1 then t
    else
      match t.look walk with
      | none => t
      | some c =>
        let r := body c
        if r.2 then t.put walk r.1 else walkList body thresh rest (cnt + 1) (t.put walk r.1)

def checkTimewaitExpire (env : Env) (thresh : ℤ) (t : Thread) : Thread :=
  walkList (timewaitStep env) thresh t.shared.timewaitList 0 t

def checkConnectionTimeout (env : Env) (thresh : ℤ) (t : Thread) : Thread :=
  walkList (timeoutStep env) thresh t.shared.timeoutList 0 t

/-! ## The wheel of retransmission timers -/

/-- The distance `RearrangeRTOStore` takes for the time left to a deadline. -/
def rearrangeDiff (t : Thread) (c : Conn) : U32 := t.shared.rtoNowTs - c.tsRto

/-- The slot it computes from that; the sum is taken in `uint32_t`. -/
def rearrangeSlot (t : Thread) (c : Conn) : ℕ :=
  (t.rearrangeDiff c + BitVec.ofNat 32 t.shared.rtoNowIdx).toNat % rtoHash

/-- Body of `RearrangeRTOStore`. -/
def rearrangeStep (t : Thread) (walk : ℕ) : Thread :=
  match t.look walk with
  | none => t
  | some c =>
    if (t.rearrangeDiff c).toInt < rtoHash then
      let slot := t.rearrangeSlot c
      let rtoList := Function.update c.rtoList rtoHash ((c.rtoList rtoHash).erase walk)
      t.put walk
        { c with
          onRtoIdx := slot
          rtoList := Function.update rtoList slot (rtoList slot ++ [walk]) }
    else t

def rearrangeRTOStore (t : Thread) : Thread :=
  (t.shared.rtoList rtoHash).foldl rearrangeStep t

/-- The inner loop of `CheckRtmTimeout`; the count goes over `thresh` when the loop is cut off. -/
def visitSlot (env : Env) (thresh : ℤ) (slot : ℕ) : List ℕ → ℤ → Thread → Thread × ℤ
  | [], cnt, t => (t, cnt)
  | walk :: rest, cnt, t =>
    if thresh < cnt + 1 then (t, cnt + 1)
    else
      match t.look walk with
      | none => (t, cnt + 1)
      | some c => visitSlot env thresh slot rest (cnt + 1) (t.put walk (rtoListStep env slot c))

/-- The store goes on to the next slot and the next tick. -/
def turnWheel (t : Thread) : Thread :=
  let idx := (t.shared.rtoNowIdx + 1) % rtoHash
  let t := { t with
    shared := { t.shared with rtoNowIdx := idx, rtoNowTs := t.shared.rtoNowTs + 1 } }
  if idx % 1000 = 0 then t.rearrangeRTOStore else t

/-- A round: the streams in the present slot have timed out. -/
def rtoRound (env : Env) (thresh : ℤ) (cnt : ℤ) (t : Thread) : Thread × ℤ :=
  visitSlot env thresh t.shared.rtoNowIdx (t.shared.rtoList t.shared.rtoNowIdx) cnt t

/-- The outer loop of `CheckRtmTimeout`, at most `rounds` times. -/
def rtoRounds (env : Env) (thresh : ℤ) : ℕ → ℤ → Thread → Thread
  | 0, _, t => t
  | rounds + 1, cnt, t =>
    if (env.curTs - t.shared.rtoNowTs).toInt < 0 then t
    else
      let r := rtoRound env thresh cnt t
      if thresh < r.2 then r.1 else rtoRounds env thresh rounds r.2 r.1.turnWheel

/-- `CheckRtmTimeout`: one round for each tick up to the present one. -/
def checkRtmTimeout (env : Env) (thresh : ℤ) (t : Thread) : Thread :=
  if t.shared.rtoListCnt = 0 then t
  else rtoRounds env thresh ((env.curTs - t.shared.rtoNowTs).toInt + 1).toNat 0 t

end Thread

/-! ## Steps of a thread -/

/-- An event of one stream that is not a step of a pass over all of them. -/
def Event.single : Event → Bool
  | .rtoPass _ | .timewaitPass _ | .timeoutPass _ | .others _ => false
  | _ => true

inductive ThreadEvent where
  | connect (cfg : Config) (iss : U32) (socket : Socket) (sid : ℕ) (queued : Bool)
  | passiveOpen (env : Env) (iss : U32) (sid : ℕ) (seg : Segment)
  | stream (sid : ℕ) (e : Event)
  | rtmTimeout (env : Env) (thresh : ℤ)
  | timewaitExpire (env : Env) (thresh : ℤ)
  | connectionTimeout (env : Env) (thresh : ℤ)

namespace ThreadEvent

def enabled (t : Thread) : ThreadEvent → Bool
  | connect _ _ _ sid _ => (t.streams sid).isNone
  | passiveOpen _ _ sid seg => (t.streams sid).isNone && seg.syn && !seg.ack
  | stream sid e => (t.look sid).any fun c => e.single && e.enabled c
  | rtmTimeout _ _ | timewaitExpire _ _ => true
  | connectionTimeout env _ => decide (0 < env.cfg.tcpTimeout)

def apply (t : Thread) : ThreadEvent → Thread
  | connect cfg iss socket sid queued =>
    t.put sid (mtcpConnect cfg iss socket sid t.shared queued)
  | passiveOpen env iss sid seg => t.put sid (handlePassiveOpen env iss sid t.shared seg)
  | stream sid e =>
    match t.look sid with
    | none => t
    | some c => t.put sid (e.apply c)
  | rtmTimeout env thresh => t.checkRtmTimeout env thresh
  | timewaitExpire env thresh => t.checkTimewaitExpire env thresh
  | connectionTimeout env thresh => t.checkConnectionTimeout env thresh

/-- The events can happen one after the other. -/
def allowed : Thread → List ThreadEvent → Bool
  | _, [] => true
  | t, e :: es => e.enabled t && allowed (e.apply t) es

end ThreadEvent

end MtcpStack
