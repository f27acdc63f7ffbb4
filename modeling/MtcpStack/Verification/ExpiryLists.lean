import MtcpStack.Library.Recency
import MtcpStack.Verification.LedgerRuns
import MtcpStack.Verification.RtoStore

/-! # Expiry passes

The idle timeout list and the time-wait list stay sorted by their stamps in every run whose clock
does not go back, so that the passes over them may stop at the first stream that is not due. -/

namespace MtcpStack

theorem LedgerStep.sid_eq {env : Env} {p q : StreamLedger} (h : LedgerStep env p q) :
    q.sid = p.sid := by
  cases h <;> rfl

theorem Booked.sid_eq {env : Env} {c d : Conn} (h : Booked env c d) : d.sid = c.sid := by
  have hledger : d.ledger.sid = c.ledger.sid := by
    unfold Booked at h
    generalize d.ledger = q at h ⊢
    induction h with
    | refl => rfl
    | tail _ hstep ih => exact hstep.sid_eq.trans ih
  exact hledger

namespace Thread

/-- What a call is given that reads nothing but the clock. -/
def clockAt (cfg : Config) (t₀ : U32) (n : ℕ) : Env where
  cfg
  curTs := t₀ + BitVec.ofNat 32 n
  rcvChunk := none
  sndChunk := none
  listener := .absent

theorem clockAt_curTs (cfg : Config) (t₀ : U32) (n : ℕ) :
    (clockAt cfg t₀ n).curTs = t₀ + BitVec.ofNat 32 n := rfl

/-! ## The two lists as rolls -/

/-- A stamp as the number of ticks since `t₀`. -/
def ticks (t₀ stamp : U32) : ℕ := (stamp - t₀).toNat

theorem ticks_now (t₀ : U32) {n : ℕ} (hn : n < 2 ^ 32) : ticks t₀ (t₀ + BitVec.ofNat 32 n) = n := by
  unfold ticks
  rw [add_sub_cancel_left, BitVec.toNat_ofNat, Nat.mod_eq_of_lt hn]

/-- The streams that are `on` a list, each with its stamp. -/
def rollOf (t : Thread) (list : List ℕ) (on : TcpStream → Bool) (stamp : TcpStream → ℕ) : Roll ℕ where
  list
  on i := (t.streams i).any fun c => on c.toTcpStream
  stamp i := (t.streams i).elim 0 fun c => stamp c.toTcpStream

/-- The idle timeout list; a stream is stamped when it is active. -/
def timeoutRoll (t₀ : U32) (t : Thread) : Roll ℕ :=
  t.rollOf t.shared.timeoutList (·.onTimeoutList) fun s => ticks t₀ s.lastActiveTs

/-- The time-wait list; a stream is stamped when its wait starts, `wait` ticks before it ends. -/
def timewaitRoll (t₀ wait : U32) (t : Thread) : Roll ℕ :=
  t.rollOf t.shared.timewaitList (·.onTimewaitList) fun s => ticks (t₀ + wait) s.tsTwExpire

/-- The rolls with the entry of stream `p.sid` replaced by the ledger `p`. -/
def timeoutWith (t₀ : U32) (t : Thread) (p : StreamLedger) : Roll ℕ where
  list := p.timeoutList
  on := Function.update (t.timeoutRoll t₀).on p.sid p.onTimeoutList
  stamp := Function.update (t.timeoutRoll t₀).stamp p.sid (ticks t₀ p.lastActiveTs)

def timewaitWith (t₀ wait : U32) (t : Thread) (p : StreamLedger) : Roll ℕ where
  list := p.timewaitList
  on := Function.update (t.timewaitRoll t₀ wait).on p.sid p.onTimewaitList
  stamp := Function.update (t.timewaitRoll t₀ wait).stamp p.sid (ticks (t₀ + wait) p.tsTwExpire)

variable {t₀ wait : U32} {t : Thread} {n : ℕ} {env : Env} {p q : StreamLedger}

theorem timeoutWith_step (hnow : env.curTs = t₀ + BitVec.ofNat 32 n) (hn : n < 2 ^ 32)
    (hok : (t.timeoutWith t₀ p).Ok n) (hstep : LedgerStep env p q) : (t.timeoutWith t₀ q).Ok n := by
  have hticks : ticks t₀ env.curTs = n := hnow ▸ ticks_now t₀ hn
  cases hstep with
  | touched =>
    by_cases hon : p.onTimeoutList = true
    · have hpush := hok.push p.sid
      simpa [Roll.push, timeoutWith, hon, hticks] using hpush
    · have hoff : (t.timeoutWith t₀ p).on p.sid = false := by simpa [timeoutWith] using hon
      have hmark := hok.mark hoff n
      simpa [Roll.mark, timeoutWith, hon, hticks] using hmark
  | timed hoff hstamp =>
    have hpush := hok.push p.sid
    simpa [Roll.push, timeoutWith, hoff, hstamp, hticks] using hpush
  | untimed hon =>
    have hdrop := hok.drop p.sid
    simpa [Roll.drop, timeoutWith] using hdrop
  | waited | unwaited | released | opened | wrote | freed => exact hok

theorem timewaitWith_step (hnow : env.curTs = t₀ + BitVec.ofNat 32 n) (hn : n < 2 ^ 32)
    (hwait : env.cfg.tcpTimewait = wait) (hok : (t.timewaitWith t₀ wait p).Ok n)
    (hstep : LedgerStep env p q) : (t.timewaitWith t₀ wait q).Ok n := by
  cases hstep with
  | waited =>
    have hticks : ticks (t₀ + wait) (env.curTs + env.cfg.tcpTimewait) = n := by
      rw [hnow, hwait, add_right_comm]
      exact ticks_now (t₀ + wait) hn
    have hpush := hok.push p.sid
    simpa [Roll.push, timewaitWith, hticks] using hpush
  | unwaited hon =>
    have hdrop := hok.drop p.sid
    simpa [Roll.drop, timewaitWith] using hdrop
  | touched | timed | untimed | released | opened | wrote | freed => exact hok

/-! ## Threads in order -/

/-- Every stream is stored under its id, and both lists are kept. -/
structure InOrder (t₀ wait : U32) (n : ℕ) (t : Thread) : Prop where
  sids : ∀ i c, t.streams i = some c → c.sid = i
  timeout : (t.timeoutRoll t₀).Ok n
  timewait : (t.timewaitRoll t₀ wait).Ok n

variable {c d : Conn} {i : ℕ}

theorem look_eq_some (h : t.look i = some c) :
    ∃ c₀, t.streams i = some c₀ ∧ c = { c₀ with toShared := t.shared } := by
  obtain ⟨c₀, hc₀, rfl⟩ := Option.map_eq_some_iff.1 h
  exact ⟨c₀, hc₀, rfl⟩

theorem InOrder.look_sid (h : InOrder t₀ wait n t) (hlook : t.look i = some c) : c.sid = i := by
  obtain ⟨c₀, hc₀, rfl⟩ := look_eq_some hlook
  exact h.sids i c₀ hc₀

@[simp] theorem put_streams_self (t : Thread) (i : ℕ) (c : Conn) : (t.put i c).streams i = some c :=
  Function.update_self ..

theorem put_streams_of_ne {j : ℕ} (hj : j ≠ i) : (t.put i c).streams j = t.streams j :=
  Function.update_of_ne hj _ _

section

variable {list : List ℕ} {on : TcpStream → Bool} {stamp : TcpStream → ℕ}

theorem rollOf_put (t : Thread) (i : ℕ) (d : Conn) :
    (t.put i d).rollOf list on stamp =
      ⟨list, Function.update (t.rollOf list on stamp).on i (on d.toTcpStream),
        Function.update (t.rollOf list on stamp).stamp i (stamp d.toTcpStream)⟩ := by
  simp only [rollOf, put]
  congr 1 <;> funext j <;> by_cases hj : j = i <;> simp [hj]

theorem rollOf_put_look (hlook : t.look i = some c) :
    (t.put i c).rollOf list on stamp = t.rollOf list on stamp := by
  obtain ⟨c₀, hc₀, rfl⟩ := look_eq_some hlook
  simp only [rollOf, put]
  congr 1 <;> funext j <;> by_cases hj : j = i <;> simp [hj, hc₀]

theorem rollOf_off (hfree : t.streams i = none) : (t.rollOf list on stamp).on i = false := by
  simp [rollOf, hfree]

end

theorem timeoutWith_put (hsid : d.sid = i) :
    (t.put i d).timeoutRoll t₀ = t.timeoutWith t₀ d.ledger := by
  subst hsid
  exact rollOf_put t d.sid d

theorem timewaitWith_put (hsid : d.sid = i) :
    (t.put i d).timewaitRoll t₀ wait = t.timewaitWith t₀ wait d.ledger := by
  subst hsid
  exact rollOf_put t d.sid d

/-- A call that works on one stream keeps the lists. -/
theorem InOrder.booked (hsids : ∀ j c', t.streams j = some c' → c'.sid = j) (hn : n < 2 ^ 32)
    (hnow : env.curTs = t₀ + BitVec.ofNat 32 n) (hwait : env.cfg.tcpTimewait = wait)
    (hsid : c.sid = i) (htimeout : (t.timeoutWith t₀ c.ledger).Ok n)
    (htimewait : (t.timewaitWith t₀ wait c.ledger).Ok n) (hbooked : Booked env c d) :
    InOrder t₀ wait n (t.put i d) := by
  have hsid' : d.sid = i := hbooked.sid_eq.trans hsid
  have hrolls : (t.timeoutWith t₀ d.ledger).Ok n ∧ (t.timewaitWith t₀ wait d.ledger).Ok n := by
    unfold Booked at hbooked
    generalize d.ledger = q at hbooked ⊢
    induction hbooked with
    | refl => exact ⟨htimeout, htimewait⟩
    | tail _ hstep ih =>
      exact ⟨timeoutWith_step hnow hn ih.1 hstep, timewaitWith_step hnow hn hwait ih.2 hstep⟩
  refine ⟨fun j c' hc' => ?_, timeoutWith_put hsid' ▸ hrolls.1, timewaitWith_put hsid' ▸ hrolls.2⟩
  by_cases hj : j = i
  · rw [hj, put_streams_self] at hc'
    rw [hj, ← Option.some.inj hc']
    exact hsid'
  · rw [put_streams_of_ne hj] at hc'
    exact hsids j c' hc'

theorem InOrder.put (h : InOrder t₀ wait n t) (hn : n < 2 ^ 32)
    (hnow : env.curTs = t₀ + BitVec.ofNat 32 n) (hwait : env.cfg.tcpTimewait = wait)
    (hlook : t.look i = some c) (hbooked : Booked env c d) : InOrder t₀ wait n (t.put i d) := by
  have hsid := h.look_sid hlook
  have hlists : (t.put i c).shared = t.shared := look_toShared hlook
  refine InOrder.booked h.sids hn hnow hwait hsid ?_ ?_ hbooked
  · rw [← timeoutWith_put hsid, timeoutRoll, rollOf_put_look hlook, hlists]
    exact h.timeout
  · rw [← timewaitWith_put hsid, timewaitRoll, rollOf_put_look hlook, hlists]
    exact h.timewait

theorem init_inOrder (t₀ wait : U32) : InOrder t₀ wait 0 init where
  sids i c hc := by simp [init] at hc
  timeout := Roll.ok_empty fun _ => 0
  timewait := Roll.ok_empty fun _ => 0

/-- A new stream is on neither list. -/
theorem InOrder.born (h : InOrder t₀ wait n t) (hn : n < 2 ^ 32)
    (hnow : env.curTs = t₀ + BitVec.ofNat 32 n) (hwait : env.cfg.tcpTimewait = wait)
    (hfree : t.streams i = none) {cfg : Config} {iss : U32}
    (hbooked : Booked env (freshConn cfg iss none i t.shared) d) : InOrder t₀ wait n (t.put i d) := by
  refine InOrder.booked h.sids hn hnow hwait rfl ?_ ?_ hbooked
  · exact h.timeout.enter (rollOf_off hfree) (ticks t₀ 0)
  · exact h.timewait.enter (rollOf_off hfree) (ticks (t₀ + wait) 0)

/-! ## The passes -/

theorem InOrder.rearranged (h : InOrder t₀ wait n t) (hn : n < 2 ^ 32) :
    InOrder t₀ wait n t.rearrangeRTOStore := by
  have hstep : ∀ {t : Thread} (walk : ℕ), InOrder t₀ wait n t →
      InOrder t₀ wait n (t.rearrangeStep walk) := by
    intro t walk h
    unfold rearrangeStep
    cases hlook : t.look walk with
    | none => exact h
    | some c =>
      simp only
      split
      · exact h.put hn (clockAt_curTs ⟨0, wait, 0⟩ t₀ n) rfl hlook (.of_eq rfl)
      · exact h
  unfold rearrangeRTOStore
  generalize t.shared.rtoList rtoHash = l
  induction l generalizing t with
  | nil => exact h
  | cons walk rest ih => exact ih (hstep walk h)

theorem InOrder.turned (h : InOrder t₀ wait n t) (hn : n < 2 ^ 32) :
    InOrder t₀ wait n t.turnWheel := by
  have hturned : InOrder t₀ wait n { t with
      shared := { t.shared with
        rtoNowIdx := (t.shared.rtoNowIdx + 1) % rtoHash, rtoNowTs := t.shared.rtoNowTs + 1 } } :=
    ⟨h.sids, h.timeout, h.timewait⟩
  unfold turnWheel
  simp only
  split
  · exact hturned.rearranged hn
  · exact hturned

section

variable (hn : n < 2 ^ 32) (hnow : env.curTs = t₀ + BitVec.ofNat 32 n)
  (hwait : env.cfg.tcpTimewait = wait)

include hn hnow hwait

theorem InOrder.visited (h : InOrder t₀ wait n t) (thresh : ℤ) (slot : ℕ) (l : List ℕ) (cnt : ℤ) :
    InOrder t₀ wait n (visitSlot env thresh slot l cnt t).1 := by
  induction l generalizing cnt t with
  | nil => exact h
  | cons walk rest ih =>
    unfold visitSlot
    split
    · exact h
    · cases hlook : t.look walk with
      | none => exact h
      | some c => exact ih (h.put hn hnow hwait hlook (rtoListStep_booked env c slot)) _

theorem InOrder.checkRtmTimeout (h : InOrder t₀ wait n t) (thresh : ℤ) :
    InOrder t₀ wait n (t.checkRtmTimeout env thresh) := by
  have hrounds : ∀ (rounds : ℕ) (cnt : ℤ) {t : Thread}, InOrder t₀ wait n t →
      InOrder t₀ wait n (rtoRounds env thresh rounds cnt t) := by
    intro rounds
    induction rounds with
    | zero => exact fun _ _ h => h
    | succ rounds ih =>
      intro cnt t h
      have hvisited := h.visited hn hnow hwait thresh t.shared.rtoNowIdx
        (t.shared.rtoList t.shared.rtoNowIdx) cnt
      unfold rtoRounds rtoRound
      simp only
      split_ifs
      · exact h
      · exact hvisited
      · exact ih _ (hvisited.turned hn)
  unfold Thread.checkRtmTimeout
  split
  · exact h
  · exact hrounds _ _ h

theorem InOrder.checkTimewaitExpire (h : InOrder t₀ wait n t) (thresh : ℤ) :
    InOrder t₀ wait n (t.checkTimewaitExpire env thresh) := by
  have hwalk : ∀ (l : List ℕ) (cnt : ℤ) {t : Thread}, InOrder t₀ wait n t →
      InOrder t₀ wait n (walkList (timewaitStep env) thresh l cnt t) := by
    intro l
    induction l with
    | nil => exact fun _ _ h => h
    | cons walk rest ih =>
      intro cnt t h
      unfold walkList
      split
      · exact h
      · cases hlook : t.look walk with
        | none => exact h
        | some c =>
          have hput := h.put hn hnow hwait hlook (timewaitStep_booked env c)
          simp only
          split
          · exact hput
          · exact ih _ hput
  exact hwalk _ _ h

/-- A stream the pass has not come to is still on the list. -/
theorem InOrder.checkConnectionTimeout (h : InOrder t₀ wait n t) (thresh : ℤ) :
    InOrder t₀ wait n (t.checkConnectionTimeout env thresh) := by
  have hwalk : ∀ (l : List ℕ) (cnt : ℤ) {t : Thread}, l.Nodup →
      (∀ i ∈ l, (t.timeoutRoll t₀).on i = true) → InOrder t₀ wait n t →
      InOrder t₀ wait n (walkList (timeoutStep env) thresh l cnt t) := by
    intro l
    induction l with
    | nil => exact fun _ _ _ _ h => h
    | cons walk rest ih =>
      intro cnt t hnodup hon h
      obtain ⟨hwalk, hrest⟩ := List.nodup_cons.1 hnodup
      unfold walkList
      split
      · exact h
      · cases hlook : t.look walk with
        | none => exact h
        | some c =>
          have hflag : c.onTimeoutList = true := by
            obtain ⟨c₀, hc₀, rfl⟩ := look_eq_some hlook
            simpa [timeoutRoll, rollOf, hc₀] using hon walk (by simp)
          have hput := h.put hn hnow hwait hlook (timeoutStep_booked hflag)
          simp only
          split
          · exact hput
          · refine ih _ hrest (fun i hi => ?_) hput
            have hne : i ≠ walk := fun heq => hwalk (heq ▸ hi)
            have hkept := hon i (by simp [hi])
            simpa [timeoutRoll, rollOf, put_streams_of_ne hne] using hkept
  exact hwalk _ _ h.timeout.nodup (fun i hi => (h.timeout.mem_iff i).1 hi) h

end

/-! ## Runs -/

end Thread

/-- What an event of the thread is given from outside. -/
def ThreadEvent.env? : ThreadEvent → Option Env
  | .connect .. => none
  | .stream _ e => e.env?
  | .passiveOpen env _ _ _ | .rtmTimeout env _ | .timewaitExpire env _
  | .connectionTimeout env _ => some env

/-- The states of a thread after `n` ticks in the runs that start at `t₀`, under the fixed
configuration `cfg`; the clock does not go back, and the run takes less than `2 ^ 31` ticks. -/
inductive ThreadRun (cfg : Config) (t₀ : U32) : ℕ → Thread → Prop
  | init : ThreadRun cfg t₀ 0 Thread.init
  | wait {n m : ℕ} {t : Thread} (hrun : ThreadRun cfg t₀ n t) (hle : n ≤ m) (hspan : m < 2 ^ 31) :
      ThreadRun cfg t₀ m t
  | step {n : ℕ} {t : Thread} {e : ThreadEvent} (hrun : ThreadRun cfg t₀ n t)
      (henabled : e.enabled t = true)
      (henv : ∀ env, e.env? = some env → env.cfg = cfg ∧ env.curTs = t₀ + BitVec.ofNat 32 n) :
      ThreadRun cfg t₀ n (e.apply t)

namespace ThreadRun

variable {cfg : Config} {t₀ : U32} {n : ℕ} {t : Thread}

theorem span (h : ThreadRun cfg t₀ n t) : n < 2 ^ 31 := by
  induction h with
  | init => decide
  | wait _ _ hspan _ => exact hspan
  | step _ _ _ ih => exact ih

theorem inOrder (h : ThreadRun cfg t₀ n t) : t.InOrder t₀ cfg.tcpTimewait n := by
  induction h with
  | init => exact Thread.init_inOrder t₀ cfg.tcpTimewait
  | wait _ hle _ ih => exact ⟨ih.sids, ih.timeout.later hle, ih.timewait.later hle⟩
  | @step n t e hrun henabled henv ih =>
    have hn : n < 2 ^ 32 := hrun.span.trans (by decide)
    cases e with
    | connect cfg' iss socket sid queued =>
      have hfree : t.streams sid = none := by simpa [ThreadEvent.enabled] using henabled
      exact ih.born hn (Thread.clockAt_curTs cfg t₀ n) rfl hfree
        (.of_eq (ledger_mtcpConnect cfg' iss socket sid t.shared queued))
    | passiveOpen env iss sid seg =>
      obtain ⟨rfl, hnow⟩ := henv env rfl
      have hfree : t.streams sid = none := by
        simp only [ThreadEvent.enabled, Bool.and_eq_true, Option.isNone_iff_eq_none] at henabled
        exact henabled.1.1
      exact ih.born hn hnow rfl hfree (handlePassiveOpen_booked env iss sid t.shared seg)
    | stream sid e =>
      simp only [ThreadEvent.apply]
      cases hlook : t.look sid with
      | none => exact ih
      | some c =>
        have hboth : e.single = true ∧ e.enabled c = true := by
          simpa [ThreadEvent.enabled, hlook] using henabled
        have hown : ∀ sh, e ≠ .others sh := by
          rintro sh rfl
          simp [Event.single] at hboth
        cases henv' : e.env? with
        | none =>
          exact ih.put hn (Thread.clockAt_curTs cfg t₀ n) rfl hlook
            (Event.booked hboth.2 (by simp [henv']) hown)
        | some env =>
          obtain ⟨rfl, hnow⟩ := henv env henv'
          exact ih.put hn hnow rfl hlook (Event.booked hboth.2 (by simp [henv']) hown)
    | rtmTimeout env thresh =>
      obtain ⟨rfl, hnow⟩ := henv env rfl
      exact ih.checkRtmTimeout hn hnow rfl thresh
    | timewaitExpire env thresh =>
      obtain ⟨rfl, hnow⟩ := henv env rfl
      exact ih.checkTimewaitExpire hn hnow rfl thresh
    | connectionTimeout env thresh =>
      obtain ⟨rfl, hnow⟩ := henv env rfl
      exact ih.checkConnectionTimeout hn hnow rfl thresh

end ThreadRun

end MtcpStack
