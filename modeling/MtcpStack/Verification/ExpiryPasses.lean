import Mathlib.Tactic.Abel
import MtcpStack.Verification.ExpiryLists
import MtcpStack.Verification.StepQueues

/-! # Exactness of the expiry passes

`CheckConnectionTimeout` and `CheckTimewaitExpire` stop at the first stream that is not due. As the
lists are sorted they miss none, unless the signed comparison with `ts_tw_expire` wraps around. -/

namespace MtcpStack

namespace Thread

/-! ## Walks that stop -/

section

variable {body : Conn → Conn × Bool} {stop : Conn → Bool} {work : Conn → Conn} {thresh : ℤ}
  {t : Thread} {i : ℕ} {c : Conn}

/-- The walk goes on at a stream. -/
def goes (stop : Conn → Bool) (t : Thread) (i : ℕ) : Bool := (t.streams i).any fun c => !stop c

theorem takeWhile_goes_put {walk : ℕ} {l : List ℕ} (hwalk : walk ∉ l) (d : Conn) :
    l.takeWhile (goes stop (t.put walk d)) = l.takeWhile (goes stop t) := by
  induction l with
  | nil => rfl
  | cons i l ih =>
    rw [List.mem_cons, not_or] at hwalk
    have hi : goes stop (t.put walk d) i = goes stop t i := by
      rw [goes, put_streams_of_ne (Ne.symm hwalk.1), goes]
    rw [List.takeWhile_cons, List.takeWhile_cons, hi, ih hwalk.2]

variable (hbody : ∀ c, body c = if stop c then (c, true) else (work c, false))
  (hshared : ∀ c sh, stop { c with toShared := sh } = stop c)

include hbody hshared

/-- The walk works on the streams up to the first at which it stops, and on no other. -/
theorem walkList_visits {l : List ℕ} {cnt : ℤ} (hl : l.Nodup)
    (hpresent : ∀ i ∈ l, ∃ c, t.streams i = some c) (hthresh : cnt + l.length ≤ thresh)
    (hc : t.streams i = some c) :
    ∃ before after, (walkList body thresh l cnt t).streams i = some
      { (if i ∈ l.takeWhile (goes stop t) then work { c with toShared := before } else c) with
        toShared := after } := by
  induction l generalizing t cnt c with
  | nil => exact ⟨c.toShared, c.toShared, by simpa [walkList] using hc⟩
  | cons walk rest ih =>
    obtain ⟨hwalk, hrest⟩ := List.nodup_cons.1 hl
    obtain ⟨w, hw⟩ := hpresent walk (by simp)
    have hlook : t.look walk = some { w with toShared := t.shared } := by simp [look, hw]
    have hgoes : goes stop t walk = !stop w := by simp [goes, hw]
    rw [List.length_cons, Nat.cast_succ] at hthresh
    have hcnt : ¬ thresh < cnt + 1 := by omega
    have hcnt' : cnt + 1 + rest.length ≤ thresh := by omega
    unfold walkList
    rw [if_neg hcnt, hlook, List.takeWhile_cons, hgoes]
    simp only [hbody, hshared]
    by_cases hstop : stop w = true
    · simp only [hstop, if_true]
      refine ⟨c.toShared, if i = walk then t.shared else c.toShared, ?_⟩
      by_cases hi : i = walk
      · obtain rfl : w = c := by simpa [hi, hw] using hc
        simp [hi]
      · simpa [put_streams_of_ne hi, hi] using hc
    · simp only [hstop]
      generalize hd : work { w with toShared := t.shared } = d
      have hput : ∀ j ∈ rest, ∃ c, (t.put walk d).streams j = some c := by
        intro j hj
        have hne : j ≠ walk := fun h => hwalk (h ▸ hj)
        rw [put_streams_of_ne hne]
        exact hpresent j (by simp [hj])
      by_cases hi : i = walk
      · -- the walk has worked on the stream and does not meet it again
        obtain rfl : w = c := by simpa [hi, hw] using hc
        obtain ⟨before, after, hlast⟩ := ih hrest hput hcnt' (c := d)
          (by rw [hi, put_streams_self])
        have hout : i ∉ rest.takeWhile (goes stop (t.put walk d)) := fun h =>
          hwalk (hi ▸ (List.takeWhile_sublist _).subset h)
        rw [if_neg hout] at hlast
        exact ⟨t.shared, after, by simpa [hi, hd] using hlast⟩
      · obtain ⟨before, after, hlast⟩ := ih hrest hput hcnt' ((put_streams_of_ne hi).trans hc)
        rw [takeWhile_goes_put hwalk] at hlast
        exact ⟨before, after, by simpa [hi] using hlast⟩

/-- On a list kept in the order of `key`, the walk works on exactly the streams whose key has come,
if it stops at no others. -/
theorem walkList_exact {r : Roll ℕ} {n : ℕ} {key : Conn → ℤ} {off bound : ℤ} (hok : r.Ok n)
    (hpresent : ∀ i ∈ r.list, ∃ c, t.streams i = some c)
    (hkey : ∀ {i c}, t.streams i = some c → key c = r.stamp i + off)
    (hstop : ∀ {i c}, t.streams i = some c → i ∈ r.list → (stop c = false ↔ key c ≤ bound))
    (hthresh : (r.list.length : ℤ) ≤ thresh) (hc : t.streams i = some c) :
    (i ∈ r.list ∧ key c ≤ bound → ∃ before after, (walkList body thresh r.list 0 t).streams i =
      some { work { c with toShared := before } with toShared := after }) ∧
    (¬ (i ∈ r.list ∧ key c ≤ bound) → ∃ shared, (walkList body thresh r.list 0 t).streams i =
      some { c with toShared := shared }) := by
  have hgoes : ∀ {i c}, t.streams i = some c → i ∈ r.list →
      (goes stop t i = true ↔ r.stamp i + off ≤ bound) := by
    intro i c hc hi
    rw [← hkey hc, ← hstop hc hi]
    simp [goes, hc]
  have hdue : ∀ i ∈ r.list, ∀ j ∈ r.list, r.stamp i ≤ r.stamp j →
      goes stop t j = true → goes stop t i = true := by
    intro i hi j hj hle hgo
    obtain ⟨c, hc⟩ := hpresent i hi
    obtain ⟨d, hd⟩ := hpresent j hj
    have hj := (hgoes hd hj).1 hgo
    exact (hgoes hc hi).2 (by omega)
  have hfound : i ∈ r.list.takeWhile (goes stop t) ↔ i ∈ r.list ∧ key c ≤ bound := by
    rw [hok.takeWhile_due hdue, List.mem_filter]
    refine and_congr_right fun hi => ?_
    rw [hgoes hc hi, hkey hc]
  obtain ⟨before, after, hlast⟩ :=
    walkList_visits hbody hshared hok.nodup hpresent ((zero_add _).trans_le hthresh) hc
  rw [hlast]
  refine ⟨fun hdue => ⟨before, after, ?_⟩, fun hdue => ⟨after, ?_⟩⟩
  · rw [if_pos (hfound.2 hdue)]
  · rw [if_neg (mt hfound.1 hdue)]

end

/-- The streams of a list come in the order of `key`. -/
def SortedBy (t : Thread) (key : Conn → ℤ) (l : List ℕ) : Prop :=
  l.Pairwise fun i j => ∀ c d, t.streams i = some c → t.streams j = some d → key c ≤ key d

theorem sortedBy_of_ok {t : Thread} {r : Roll ℕ} {n : ℕ} {key : Conn → ℤ} {off : ℤ} (hok : r.Ok n)
    (hkey : ∀ {i c}, t.streams i = some c → key c = r.stamp i + off) : t.SortedBy key r.list := by
  refine hok.sorted.imp fun hle c d hc hd => ?_
  rw [hkey hc, hkey hd]
  omega

/-! ## What is due -/

/-- The tick at which a stream was active last. -/
def lastActive (t₀ : U32) (c : Conn) : ℤ := ticks t₀ c.lastActiveTs

/-- The tick at which the wait of a stream ends: `ts_tw_expire`, counted from the tick at which the
wait started. -/
def twExpire (t₀ wait : U32) (c : Conn) : ℤ := ticks (t₀ + wait) c.tsTwExpire + wait.toInt

variable {t₀ wait : U32} {t : Thread} {n : ℕ} {env : Env} {i : ℕ} {c : Conn}

/-- A stamp that lies `wait` ahead of a tick of the run is compared right, unless the distance does
not fit into an `int32_t`. -/
theorem toInt_sub_stamp (wait : U32) (hn : n < 2 ^ 31) (hspan : (n : ℤ) - wait.toInt < 2 ^ 31)
    {stamp : U32} (hle : ticks (t₀ + wait) stamp ≤ n) :
    (t₀ + BitVec.ofNat 32 n - stamp).toInt = n - (ticks (t₀ + wait) stamp + wait.toInt) := by
  have hstamp : stamp = t₀ + wait + BitVec.ofNat 32 (ticks (t₀ + wait) stamp) := by
    rw [ticks, BitVec.ofNat_toNat, BitVec.setWidth_eq, add_sub_cancel]
  generalize ticks (t₀ + wait) stamp = m at hle hstamp ⊢
  have hnat : BitVec.ofNat 32 n = BitVec.ofNat 32 m + BitVec.ofNat 32 (n - m) := by
    rw [← BitVec.ofNat_add, Nat.add_sub_cancel' hle]
  have hsub : t₀ + BitVec.ofNat 32 n - stamp = BitVec.ofNat 32 (n - m) - wait := by
    rw [hstamp, hnat]
    abel
  have hticks : (BitVec.ofNat 32 (n - m)).toInt = n - m := by
    rw [BitVec.toInt_ofNat', Int.bmod_eq_of_le] <;> omega
  have hwait := wait.toInt_lt
  rw [hsub, BitVec.toInt_sub, hticks, Int.bmod_eq_of_le] <;> omega

theorem InOrder.idle (h : InOrder t₀ wait n t) (hn : n < 2 ^ 31)
    (hnow : env.curTs = t₀ + BitVec.ofNat 32 n) (hi : i ∈ t.shared.timeoutList)
    (hc : t.streams i = some c) :
    (env.curTs - c.lastActiveTs).toInt = n - lastActive t₀ c := by
  have hle : ticks t₀ c.lastActiveTs ≤ n := by
    simpa [timeoutRoll, rollOf, hc] using h.timeout.stamp_le i hi
  rw [hnow, toInt_sub_stamp 0 hn (by simp; omega) (by simpa using hle)]
  simp [lastActive]

theorem InOrder.late (h : InOrder t₀ wait n t) (hn : n < 2 ^ 31)
    (hspan : (n : ℤ) - wait.toInt < 2 ^ 31) (hnow : env.curTs = t₀ + BitVec.ofNat 32 n)
    (hi : i ∈ t.shared.timewaitList) (hc : t.streams i = some c) :
    (env.curTs - c.tsTwExpire).toInt = n - twExpire t₀ wait c := by
  have hle : ticks (t₀ + wait) c.tsTwExpire ≤ n := by
    simpa [timewaitRoll, rollOf, hc] using h.timewait.stamp_le i hi
  rw [hnow, toInt_sub_stamp wait hn hspan hle, twExpire]

/-! ## Exact passes -/

/-- A pass from `t` to `t'` makes of the streams that are due what `closed` says and leaves every
other stream as it is. -/
structure Exact (t t' : Thread) (due : ℕ → Conn → Prop) (closed : Conn → Conn → Prop) : Prop where
  all : ∀ i c, t.streams i = some c → due i c → ∃ d, t'.streams i = some d ∧ closed c d
  only : ∀ i c, t.streams i = some c → ¬ due i c →
    ∃ shared, t'.streams i = some { c with toShared := shared }

/-- The stream is closed, and its application is told or, if there is none, the stream freed. -/
structure ClosedIdle (env : Env) (c d : Conn) : Prop where
  state : d.state = .closed
  reason : d.closeReason = .timedOut
  call : ∃ before after, d =
    { notifyOrDestroy env
        { c with
          toShared := before, onTimeoutList := false, state := .closed, closeReason := .timedOut } with
      toShared := after }

/-- The stream is closed and freed. -/
structure Destroyed (cfg : Config) (c d : Conn) : Prop where
  state : d.state = .closed
  reason : d.closeReason = .activeClose
  freed : d.onHashTable = false
  call : ∃ before after, d =
    { destroyTCPStream cfg
        { c with
          toShared := before, onTimewaitList := false, state := .closed,
          closeReason := .activeClose } with
      toShared := after }

/-! ### Idle streams -/

/-- `CheckConnectionTimeout` stops at a stream that was active within the timeout. -/
def recent (env : Env) (c : Conn) : Bool :=
  decide ((env.curTs - c.lastActiveTs).toInt < env.cfg.tcpTimeout)

def closeIdle (env : Env) (c : Conn) : Conn :=
  notifyOrDestroy env
    { c with
      onTimeoutList := false
      timeoutList := c.timeoutList.erase c.sid
      timeoutListCnt := c.timeoutListCnt - 1
      state := .closed
      closeReason := .timedOut }

theorem timeoutStep_eq (env : Env) (c : Conn) :
    timeoutStep env c = if recent env c then (c, true) else (closeIdle env c, false) := by
  unfold timeoutStep recent
  by_cases hdue : env.cfg.tcpTimeout ≤ (env.curTs - c.lastActiveTs).toInt
  · rw [if_pos hdue, if_neg (by simpa only [decide_eq_true_eq, not_lt] using hdue)]
    rfl
  · rw [if_neg hdue, if_pos (by simpa only [decide_eq_true_eq, not_le] using hdue)]

theorem closedIdle_closeIdle (env : Env) (c : Conn) (before after : Shared) :
    ClosedIdle env c { closeIdle env { c with toShared := before } with toShared := after } := by
  have hcore : ∀ d : Conn, d.state = .closed → d.closeReason = .timedOut →
      (notifyOrDestroy env d).state = .closed ∧ (notifyOrDestroy env d).closeReason = .timedOut := by
    intro d hstate hreason
    have hnotify := core_notifyOrDestroy env d
    split at hnotify
    · exact ⟨(congrArg (·.state) hnotify).trans hstate,
        (congrArg (·.closeReason) hnotify).trans hreason⟩
    · exact ⟨(congrArg (·.state) hnotify).trans hstate,
        (congrArg (·.closeReason) hnotify).trans hreason⟩
  obtain ⟨hstate, hreason⟩ := hcore
    { c with
      toShared := { before with
        timeoutList := before.timeoutList.erase c.sid
        timeoutListCnt := before.timeoutListCnt - 1 }
      onTimeoutList := false
      state := .closed
      closeReason := .timedOut } rfl rfl
  exact ⟨hstate, hreason, _, after, rfl⟩

/-! ### Streams in TIME_WAIT -/

/-- `CheckTimewaitExpire` stops at a stream that has to wait. -/
def waits (env : Env) (c : Conn) : Bool :=
  c.onTimewaitList && decide ((env.curTs - c.tsTwExpire).toInt < 0)

def endWait (env : Env) (c : Conn) : Conn :=
  if c.onTimewaitList && !c.onControlList then
    destroyTCPStream env.cfg
      { c with
        timewaitList := c.timewaitList.erase c.sid
        onTimewaitList := false
        timewaitListCnt := c.timewaitListCnt - 1
        state := .closed
        closeReason := .activeClose }
  else c

theorem timewaitStep_eq (env : Env) (c : Conn) :
    timewaitStep env c = if waits env c then (c, true) else (endWait env c, false) := by
  unfold timewaitStep waits endWait
  by_cases hon : c.onTimewaitList = true
  · by_cases hdue : 0 ≤ (env.curTs - c.tsTwExpire).toInt
    · have hlate : ¬ (env.curTs - c.tsTwExpire).toInt < 0 := not_lt.2 hdue
      simp only [hon, if_pos hdue, hlate]
      cases c.onControlList <;> rfl
    · have hwait : (env.curTs - c.tsTwExpire).toInt < 0 := not_le.1 hdue
      simp only [hon, if_neg hdue, hwait]
      rfl
  · simp only [hon]
    rfl

theorem destroyed_endWait {env : Env} {c : Conn} (hon : c.onTimewaitList = true)
    (hoff : c.onControlList = false) (before after : Shared) :
    Destroyed env.cfg c { endWait env { c with toShared := before } with toShared := after } := by
  have hend : endWait env { c with toShared := before } = destroyTCPStream env.cfg
      { c with
        toShared := { before with
          timewaitList := before.timewaitList.erase c.sid
          timewaitListCnt := before.timewaitListCnt - 1 }
        onTimewaitList := false
        state := .closed
        closeReason := .activeClose } := by
    unfold endWait
    simp only [hon, hoff]
    rfl
  rw [hend]
  have hcore := core_destroyTCPStream env.cfg
    { c with
      toShared := { before with
        timewaitList := before.timewaitList.erase c.sid
        timewaitListCnt := before.timewaitListCnt - 1 }
      onTimewaitList := false
      state := .closed
      closeReason := .activeClose }
  exact ⟨congrArg (·.state) hcore, congrArg (·.closeReason) hcore, congrArg (·.live) hcore,
    _, after, rfl⟩

/-! ### Threads in order -/

theorem InOrder.on_timeout (h : InOrder t₀ wait n t) (hi : i ∈ t.shared.timeoutList) :
    ∃ c, t.streams i = some c ∧ c.onTimeoutList = true :=
  (Option.any_eq_true _ _).1 ((h.timeout.mem_iff i).1 hi)

theorem InOrder.on_timewait (h : InOrder t₀ wait n t) (hi : i ∈ t.shared.timewaitList) :
    ∃ c, t.streams i = some c ∧ c.onTimewaitList = true :=
  (Option.any_eq_true _ _).1 ((h.timewait.mem_iff i).1 hi)

theorem lastActive_eq (hc : t.streams i = some c) :
    lastActive t₀ c = (t.timeoutRoll t₀).stamp i + 0 := by
  simp [lastActive, timeoutRoll, rollOf, hc]

theorem twExpire_eq (hc : t.streams i = some c) :
    twExpire t₀ wait c = (t.timewaitRoll t₀ wait).stamp i + wait.toInt := by
  simp [twExpire, timewaitRoll, rollOf, hc]

section

variable (hn : n < 2 ^ 31) (hnow : env.curTs = t₀ + BitVec.ofNat 32 n)

include hn hnow

theorem InOrder.timeout_exact (h : InOrder t₀ wait n t) {thresh : ℤ}
    (hthresh : (t.shared.timeoutList.length : ℤ) ≤ thresh) :
    Exact t (t.checkConnectionTimeout env thresh)
      (fun i c => i ∈ t.shared.timeoutList ∧ env.cfg.tcpTimeout ≤ n - lastActive t₀ c)
      (ClosedIdle env) := by
  have hstop : ∀ {i c}, t.streams i = some c → i ∈ t.shared.timeoutList →
      (recent env c = false ↔ lastActive t₀ c ≤ n - env.cfg.tcpTimeout) := by
    intro i c hc hi
    rw [recent, h.idle hn hnow hi hc, decide_eq_false_iff_not, not_lt, le_sub_comm]
  have hwalk := fun {i c} (hc : t.streams i = some c) => walkList_exact (timeoutStep_eq env)
    (fun _ _ => rfl) h.timeout (fun i hi => (h.on_timeout hi).imp fun _ h => h.1) lastActive_eq
    hstop hthresh hc
  simp only [le_sub_comm (a := env.cfg.tcpTimeout)]
  constructor
  · intro i c hc hdue
    obtain ⟨before, after, hlast⟩ := (hwalk hc).1 hdue
    exact ⟨_, hlast, closedIdle_closeIdle env c before after⟩
  · intro i c hc hdue
    exact (hwalk hc).2 hdue

/-- A stream on the control list is passed over. -/
theorem InOrder.timewait_exact (h : InOrder t₀ wait n t) (hspan : (n : ℤ) - wait.toInt < 2 ^ 31)
    {thresh : ℤ} (hthresh : (t.shared.timewaitList.length : ℤ) ≤ thresh) :
    Exact t (t.checkTimewaitExpire env thresh)
      (fun i c => i ∈ t.shared.timewaitList ∧ twExpire t₀ wait c ≤ n ∧ c.onControlList = false)
      (Destroyed env.cfg) := by
  have hon : ∀ {i c}, t.streams i = some c → i ∈ t.shared.timewaitList →
      c.onTimewaitList = true := by
    intro i c hc hi
    obtain ⟨d, hd, hflag⟩ := h.on_timewait hi
    rwa [Option.some.inj (hc.symm.trans hd)]
  have hstop : ∀ {i c}, t.streams i = some c → i ∈ t.shared.timewaitList →
      (waits env c = false ↔ twExpire t₀ wait c ≤ n) := by
    intro i c hc hi
    rw [waits, hon hc hi, h.late hn hspan hnow hi hc, Bool.true_and, decide_eq_false_iff_not, not_lt,
      sub_nonneg]
  have hwalk := fun {i c} (hc : t.streams i = some c) => walkList_exact (timewaitStep_eq env)
    (fun _ _ => rfl) h.timewait
    (fun i hi => (h.on_timewait hi).imp fun _ h => h.1) twExpire_eq hstop hthresh hc
  constructor
  · intro i c hc ⟨hi, hdue, hoff⟩
    obtain ⟨before, after, hlast⟩ := (hwalk hc).1 ⟨hi, hdue⟩
    exact ⟨_, hlast, destroyed_endWait (hon hc hi) hoff before after⟩
  · intro i c hc hkept
    by_cases hdue : i ∈ t.shared.timewaitList ∧ twExpire t₀ wait c ≤ n
    · have hctl : c.onControlList = true := by
        by_contra hoff
        exact hkept ⟨hdue.1, hdue.2, by simpa using hoff⟩
      obtain ⟨before, after, hlast⟩ := (hwalk hc).1 hdue
      have hend : endWait env { c with toShared := before } = { c with toShared := before } := by
        simp [endWait, hctl]
      rw [hend] at hlast
      exact ⟨after, hlast⟩
    · exact (hwalk hc).2 hdue

end

end Thread

/-! ## Every run -/

/-- In every run, both lists are sorted and the passes are exact. `CONFIG.tcp_timewait` must not be
so far below zero that a wait that has ended seems to lie ahead. -/
theorem expiry_passes_exact {cfg : Config} {t₀ : U32} {n : ℕ} {t : Thread}
    (hrun : ThreadRun cfg t₀ n t) (hwait : (n : ℤ) - cfg.tcpTimewait.toInt < 2 ^ 31) :
    t.SortedBy (Thread.lastActive t₀) t.shared.timeoutList ∧
    t.SortedBy (Thread.twExpire t₀ cfg.tcpTimewait) t.shared.timewaitList ∧
    ∀ (env : Env) (thresh : ℤ), env.cfg = cfg → env.curTs = t₀ + BitVec.ofNat 32 n →
      ((t.shared.timeoutList.length : ℤ) ≤ thresh →
        Thread.Exact t (t.checkConnectionTimeout env thresh)
          (fun i c => i ∈ t.shared.timeoutList ∧ cfg.tcpTimeout ≤ n - Thread.lastActive t₀ c)
          (Thread.ClosedIdle env)) ∧
      ((t.shared.timewaitList.length : ℤ) ≤ thresh →
        Thread.Exact t (t.checkTimewaitExpire env thresh)
          (fun i c => i ∈ t.shared.timewaitList ∧ Thread.twExpire t₀ cfg.tcpTimewait c ≤ n ∧
            c.onControlList = false)
          (Thread.Destroyed cfg)) := by
  have horder := hrun.inOrder
  refine ⟨Thread.sortedBy_of_ok horder.timeout Thread.lastActive_eq,
    Thread.sortedBy_of_ok horder.timewait Thread.twExpire_eq, ?_⟩
  rintro env thresh rfl hnow
  exact ⟨horder.timeout_exact hrun.span hnow, horder.timewait_exact hrun.span hnow hwait⟩

/-- A run at one tick. -/
theorem ThreadRun.events {cfg : Config} {t₀ : U32} {n : ℕ} {t : Thread} (h : ThreadRun cfg t₀ n t)
    {es : List ThreadEvent} (hallowed : ThreadEvent.allowed t es = true)
    (henv : (es.all fun e => e.env?.all fun env =>
      env.cfg = cfg && env.curTs = t₀ + BitVec.ofNat 32 n) = true) :
    ThreadRun cfg t₀ n (es.foldl ThreadEvent.apply t) := by
  induction es generalizing t with
  | nil => exact h
  | cons e es ih =>
    simp only [ThreadEvent.allowed, Bool.and_eq_true] at hallowed
    simp only [List.all_cons, Bool.and_eq_true] at henv
    have hstep : ThreadRun cfg t₀ n (e.apply t) := h.step hallowed.1 fun env he => by
      simpa [he] using henv.1
    exact ih hstep hallowed.2 henv.2

/-- The clock at tick `ts`, under a configuration with a given time to wait. -/
def waitEnv (wait ts : U32) : Env :=
  { quietEnv with cfg := { quietEnv.cfg with tcpTimeout := 30000, tcpTimewait := wait }, curTs := ts }

/-- A connection that is opened and closed at one tick, and then waits. -/
def openThenWait (env : Env) (sid : ℕ) : List ThreadEvent :=
  [.connect env.cfg 100 quietSocket sid true, .stream sid .connectq,
    .stream sid (.controlPass env [true]),
    .stream sid (.packet env { plainSegment with syn := true, ack := true }),
    .stream sid (.controlPass env [true]), .stream sid .close, .stream sid (.closeq env.cfg),
    .stream sid (.controlPass env [true]),
    .stream sid (.packet env { plainSegment with seq := 501, ackSeq := 102, ack := true, fin := true }),
    .stream sid (.controlPass env [true])]

/-- Two connections that wait from the ticks 0 and 5 on. -/
def twoWait (wait : U32) : Thread :=
  (openThenWait (waitEnv wait 5) 1).foldl ThreadEvent.apply
    ((openThenWait (waitEnv wait 0) 0).foldl ThreadEvent.apply Thread.init)

theorem twoWait_run {wait : U32}
    (hfirst : ThreadEvent.allowed Thread.init (openThenWait (waitEnv wait 0) 0) = true)
    (hsecond : ThreadEvent.allowed
      ((openThenWait (waitEnv wait 0) 0).foldl ThreadEvent.apply Thread.init)
      (openThenWait (waitEnv wait 5) 1) = true) :
    ThreadRun (waitEnv wait 0).cfg 0 12 (twoWait wait) := by
  have h₀ : ThreadRun (waitEnv wait 0).cfg 0 0
      ((openThenWait (waitEnv wait 0) 0).foldl ThreadEvent.apply Thread.init) :=
    ThreadRun.init.events hfirst (by simp [openThenWait, ThreadEvent.env?, Event.env?, waitEnv])
  have h₅ : ThreadRun (waitEnv wait 0).cfg 0 5 (twoWait wait) :=
    (h₀.wait (by decide) (by decide)).events hsecond
      (by simp [openThenWait, ThreadEvent.env?, Event.env?, waitEnv])
  exact h₅.wait (by decide) (by decide)

/-- With `CONFIG.tcp_timewait` at `10 - 2 ^ 31`, both waits have ended before they start. Twelve ticks
after its wait started the first connection seems to wait still; the pass stops there and does not
come to the second, which passes the test. -/
theorem expiry_pass_misses :
    let wait : U32 := 2 ^ 31 + 10
    let t := twoWait wait
    let t' := t.checkTimewaitExpire (waitEnv wait 12) 2
    ThreadRun (waitEnv wait 0).cfg 0 12 t ∧ t.shared.timewaitList = [0, 1] ∧
      (t.streams 0).any (fun c => Thread.twExpire 0 wait c ≤ 12 && !c.onControlList) = true ∧
      (t.streams 1).any (fun c => Thread.twExpire 0 wait c ≤ 12 && !c.onControlList &&
        decide (0 ≤ (12 - c.tsTwExpire).toInt)) = true ∧
      (t'.streams 0).any (·.onHashTable) = true ∧ (t'.streams 1).any (·.onHashTable) = true :=
  ⟨twoWait_run (by decide +kernel) (by decide +kernel), by decide +kernel⟩

/-- With a wait of ten ticks, the pass at tick 12 frees the first connection and leaves the second
as it is. -/
theorem expiry_passes_exact_first :
    let t := twoWait 10
    let t' := t.checkTimewaitExpire (waitEnv 10 12) 2
    (∃ d, t'.streams 0 = some d ∧ d.onHashTable = false) ∧
      (t'.streams 1).map (·.toTcpStream) = (t.streams 1).map (·.toTcpStream) := by
  intro t t'
  have hrun : ThreadRun (waitEnv 10 0).cfg 0 12 t :=
    twoWait_run (by decide +kernel) (by decide +kernel)
  have hexact : Thread.Exact t t' _ _ :=
    ((expiry_passes_exact hrun (by decide)).2.2 (waitEnv 10 12) 2 rfl rfl).2 (by decide +kernel)
  have hdue : (t.streams 0).any (fun c => Thread.twExpire 0 10 c ≤ 12 && !c.onControlList) = true := by
    decide +kernel
  have hearly : (t.streams 1).any (fun c => 12 < Thread.twExpire 0 10 c) = true := by
    decide +kernel
  obtain ⟨c, hc, hlate⟩ := (Option.any_eq_true _ _).1 hdue
  obtain ⟨d, hd, hwaits⟩ := (Option.any_eq_true _ _).1 hearly
  simp only [Bool.and_eq_true, decide_eq_true_eq, Bool.not_eq_true'] at hlate hwaits
  obtain ⟨e, he, hgone⟩ := hexact.all 0 c hc ⟨by decide +kernel, hlate⟩
  obtain ⟨shared, hkept⟩ := hexact.only 1 d hd fun h => not_le.2 hwaits h.2.1
  exact ⟨⟨e, he, hgone.freed⟩, by rw [hkept, hd]; rfl⟩

end MtcpStack
