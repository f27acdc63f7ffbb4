import Mathlib.Data.List.Perm.Basic
import Mathlib.Logic.Relation
import MtcpStack.Model.Epoll

/-! # Events are delivered once

The calls on an epoll are made of three steps: an entry is stored, an entry is moved from the queue
of the stack to that of the user, and an entry is fetched. Each keeps the queues in order, the bits
of the sockets in agreement with the entries, and the account of what became of every entry. -/

namespace MtcpStack

namespace Epoll

open Relation

variable (ep : Epoll)

/-! ## The queues together -/

/-- The entries of the three queues. -/
def pending : List EventInt :=
  ep.usrQueue.contents ++ (ep.usrShadowQueue.contents ++ ep.mtcpQueue.contents)

/-- The queues are in order, all of one size. -/
structure Queued (n : ℕ) (ep : Epoll) : Prop where
  valid : ∀ q, (ep.queue q).Valid
  size : ∀ q, (ep.queue q).slots.length = n

@[simp] theorem queue_setQueue_self (q : QueueType) (eq : EventQueue) :
    (ep.setQueue q eq).queue q = eq := by
  cases q <;> rfl

theorem queue_setQueue_ne {q q' : QueueType} (h : q' ≠ q) (eq : EventQueue) :
    (ep.setQueue q eq).queue q' = ep.queue q' := by
  cases q <;> cases q' <;> first | rfl | exact absurd rfl h

section SetQueue

variable (q : QueueType) (eq : EventQueue)

@[simp] theorem smap_setQueue : (ep.setQueue q eq).smap = ep.smap := by cases q <;> rfl

@[simp] theorem incarnation_setQueue : (ep.setQueue q eq).incarnation = ep.incarnation := by
  cases q <;> rfl

@[simp] theorem raised_setQueue : (ep.setQueue q eq).raised = ep.raised := by cases q <;> rfl

@[simp] theorem returned_setQueue : (ep.setQueue q eq).returned = ep.returned := by cases q <;> rfl

@[simp] theorem invalidated_setQueue : (ep.setQueue q eq).invalidated = ep.invalidated := by
  cases q <;> rfl

end SetQueue

theorem Queued.setQueue {n : ℕ} {ep : Epoll} (h : ep.Queued n) (q : QueueType) {eq : EventQueue}
    (hvalid : eq.Valid) (hsize : eq.slots.length = n) : (ep.setQueue q eq).Queued n := by
  constructor <;> intro q' <;> by_cases hq : q' = q
  · subst hq
    rwa [queue_setQueue_self]
  · rw [queue_setQueue_ne ep hq]
    exact h.valid q'
  · subst hq
    rwa [queue_setQueue_self]
  · rw [queue_setQueue_ne ep hq]
    exact h.size q'

/-- An entry at the end of a queue is one more entry. -/
theorem pending_append (q : QueueType) {eq : EventQueue} {x : EventInt}
    (h : eq.contents = (ep.queue q).contents ++ [x]) :
    (ep.setQueue q eq).pending.Perm (x :: ep.pending) := by
  cases q <;> simp only [pending, setQueue, queue] at h ⊢ <;> rw [h]
  · rw [List.append_assoc]
    exact List.perm_middle
  · rw [List.append_assoc, ← List.append_assoc]
    exact List.perm_middle.trans (by simp)
  · rw [← List.append_assoc, ← List.append_assoc]
    exact (List.perm_append_singleton x _).trans (by simp)

/-- Without the first entry of a queue there is one entry less. -/
theorem pending_cons (q : QueueType) {eq : EventQueue} {x : EventInt}
    (h : (ep.queue q).contents = x :: eq.contents) :
    ep.pending.Perm (x :: (ep.setQueue q eq).pending) := by
  cases q <;> simp only [pending, setQueue, queue] at h ⊢ <;> rw [h]
  · exact List.Perm.refl _
  · exact List.perm_middle
  · rw [← List.append_assoc, ← List.append_assoc]
    exact List.perm_middle

/-! ## Steps -/

/-- What the calls do to the queues; `P` holds of the events that are raised. -/
inductive QueueStep (P : U32 → Prop) : Epoll → Epoll → Prop where
  | store (ep : Epoll) (q : QueueType) (i : ℕ) (event : U32) (hevent : P event)
      (hbit : (ep.smap i).events &&& event = 0)
      (hroom : (ep.queue q).num < (ep.queue q).slots.length) :
      QueueStep P ep (ep.storeEvent q i event)
  | move (ep : Epoll) (entry : EventInt) (hnum : 0 < ep.mtcpQueue.num)
      (hroom : ep.usrQueue.num < ep.usrQueue.slots.length)
      (hfront : ep.mtcpQueue.front? = some entry) :
      QueueStep P ep
        { ep with usrQueue := ep.usrQueue.enqueue entry, mtcpQueue := ep.mtcpQueue.dequeue }
  | fetch (ep : Epoll) (q : QueueType) (entry : EventInt) (hnum : 0 < (ep.queue q).num)
      (hfront : (ep.queue q).front? = some entry) : QueueStep P ep (ep.fetchEvent q entry)

variable {P : U32 → Prop} {ep} {n : ℕ} {q : QueueType} {entry : EventInt}

theorem addEpollEvent_steps (q : QueueType) (i : ℕ) {event : U32} (hevent : P event) :
    ReflTransGen (QueueStep P) ep (ep.addEpollEvent q i event).1 := by
  unfold addEpollEvent
  split_ifs with hzero hbit hfull
  · exact .refl
  · exact .refl
  · exact .refl
  · exact .single (.store ep q i event hevent (not_not.mp hbit) (not_le.mp hfull))

theorem flushLoop_steps (fuel : ℕ) (ep : Epoll) :
    ReflTransGen (QueueStep P) ep
      { ep with
        usrQueue := (flushLoop fuel ep.usrQueue ep.mtcpQueue).1
        mtcpQueue := (flushLoop fuel ep.usrQueue ep.mtcpQueue).2 } := by
  induction fuel generalizing ep with
  | zero => exact .refl
  | succ fuel ih =>
    unfold flushLoop
    split_ifs with hmore
    · cases hfront : ep.mtcpQueue.front? with
      | none => exact .refl
      | some entry => exact .head (.move ep entry hmore.1 hmore.2 hfront) (ih _)
    · exact .refl

theorem flushEpollEvents_steps : ReflTransGen (QueueStep P) ep ep.flushEpollEvents :=
  flushLoop_steps ep.mtcpQueue.num ep

theorem queue_fetchEvent (q : QueueType) (entry : EventInt) :
    (ep.fetchEvent q entry).queue q = (ep.queue q).dequeue := by
  unfold fetchEvent
  split_ifs <;> cases q <;> rfl

theorem fetchLoop_steps (q : QueueType) (n room : ℕ) (ep : Epoll) (hn : n ≤ (ep.queue q).num) :
    ReflTransGen (QueueStep P) ep (fetchLoop q n room ep).1 := by
  induction n generalizing room ep with
  | zero => exact .refl
  | succ n ih =>
    unfold fetchLoop
    split_ifs with hroom
    · exact .refl
    · cases hfront : (ep.queue q).front? with
      | none => exact .refl
      | some entry =>
        refine .head (.fetch ep q entry (by omega) hfront) (ih _ _ ?_)
        rw [queue_fetchEvent]
        simp only [CircularQueue.dequeue]
        omega

theorem mtcpEpollWait_steps (maxevents : ℕ) :
    ReflTransGen (QueueStep P) ep (ep.mtcpEpollWait maxevents) :=
  (fetchLoop_steps .usr ep.usrQueue.num maxevents ep le_rfl).trans
    (fetchLoop_steps .usrShadow _ _ _ le_rfl)

/-! ## The queues stay in order -/

/-- The step takes or stores entries: what it does to the queues and the pending entries. -/
theorem Queued.store (h : ep.Queued n) (i : ℕ) (event : U32)
    (hroom : (ep.queue q).num < (ep.queue q).slots.length) :
    (ep.storeEvent q i event).Queued n ∧
      (ep.storeEvent q i event).pending.Perm
        (⟨i, event, (ep.smap i).epData, ep.raised.length⟩ :: ep.pending) := by
  have hvalid := (h.valid q).enqueue hroom ⟨i, event, (ep.smap i).epData, ep.raised.length⟩
  have hcontents := (h.valid q).contents_enqueue hroom
    ⟨i, event, (ep.smap i).epData, ep.raised.length⟩
  have hsize : ((ep.queue q).enqueue ⟨i, event, (ep.smap i).epData, ep.raised.length⟩).slots.length
      = n := by simpa [CircularQueue.enqueue] using h.size q
  constructor
  · have := h.setQueue q hvalid hsize
    cases q <;> exact ⟨this.valid, this.size⟩
  · have := ep.pending_append q hcontents
    cases q <;> exact this

theorem Queued.fetch (h : ep.Queued n)
    (hnum : 0 < (ep.queue q).num) (hfront : (ep.queue q).front? = some entry) :
    (ep.fetchEvent q entry).Queued n ∧ ep.pending.Perm (entry :: (ep.fetchEvent q entry).pending) := by
  obtain ⟨x, hx, hcontents⟩ := (h.valid q).contents_dequeue hnum
  obtain rfl : entry = x := Option.some.inj (hfront.symm.trans hx)
  have hqueued := h.setQueue q ((h.valid q).dequeue hnum) (h.size q)
  have hpending := ep.pending_cons q hcontents
  unfold fetchEvent
  split_ifs
  · cases q <;> exact ⟨⟨hqueued.valid, hqueued.size⟩, hpending⟩
  · cases q <;> exact ⟨⟨hqueued.valid, hqueued.size⟩, hpending⟩

theorem Queued.move (h : ep.Queued n) (hnum : 0 < ep.mtcpQueue.num)
    (hroom : ep.usrQueue.num < ep.usrQueue.slots.length)
    (hfront : ep.mtcpQueue.front? = some entry) :
    Queued n { ep with usrQueue := ep.usrQueue.enqueue entry, mtcpQueue := ep.mtcpQueue.dequeue } ∧
      (ep.usrQueue.enqueue entry).contents ++ ep.mtcpQueue.dequeue.contents
        = ep.usrQueue.contents ++ ep.mtcpQueue.contents := by
  obtain ⟨x, hx, hcontents⟩ := (h.valid .mtcp).contents_dequeue hnum
  obtain rfl : entry = x := Option.some.inj (hfront.symm.trans hx)
  constructor
  · have husr := h.setQueue .usr ((h.valid .usr).enqueue hroom entry)
      (by simpa [CircularQueue.enqueue] using h.size .usr)
    exact husr.setQueue .mtcp ((h.valid .mtcp).dequeue hnum) (h.size .mtcp)
  · have husr := (h.valid .usr).contents_enqueue hroom entry
    simp only [queue] at husr hcontents
    rw [husr, hcontents]
    simp

theorem Queued.step {ep' : Epoll} (h : ep.Queued n) (hstep : QueueStep P ep ep') :
    ep'.Queued n := by
  cases hstep with
  | store q i event _ _ hroom => exact (h.store i event hroom).1
  | move entry hnum hroom hfront => exact (h.move hnum hroom hfront).1
  | fetch q entry hnum hfront => exact (h.fetch hnum hfront).1

theorem Queued.steps {ep' : Epoll} (h : ep.Queued n)
    (hsteps : ReflTransGen (QueueStep P) ep ep') : ep'.Queued n := by
  induction hsteps with
  | refl => exact h
  | tail _ hstep ih => exact ih.step hstep

theorem pending_move
    (hcontents : (ep.usrQueue.enqueue entry).contents ++ ep.mtcpQueue.dequeue.contents
      = ep.usrQueue.contents ++ ep.mtcpQueue.contents) :
    (pending { ep with usrQueue := ep.usrQueue.enqueue entry, mtcpQueue := ep.mtcpQueue.dequeue })
      |>.Perm ep.pending := by
  have hswap : ∀ a b c : List EventInt, (a ++ (b ++ c)).Perm (a ++ c ++ b) := fun a b c => by
    rw [List.append_assoc]
    exact List.perm_append_comm.append_left a
  exact (hswap _ _ _).trans ((List.Perm.of_eq (by rw [hcontents])).trans (hswap _ _ _).symm)

end Epoll

/-! ## Bits -/

/-- An event of one bit. -/
def SingleBit (b : U32) : Prop := ∃ k < 32, b = BitVec.twoPow 32 k

theorem and_twoPow_ne_zero (x : U32) {k : ℕ} (hk : k < 32) :
    x &&& BitVec.twoPow 32 k ≠ 0 ↔ x.getLsbD k = true := by
  rw [BitVec.and_twoPow]
  cases hbit : x.getLsbD k
  · simp
  · simp only [if_true, iff_true]
    intro hzero
    have hlsb := congrArg (fun v => BitVec.getLsbD v k) hzero
    simp [hk] at hlsb

theorem SingleBit.or_and_ne_zero {b b' : U32} (h : SingleBit b) (h' : SingleBit b') (x : U32) :
    (x ||| b) &&& b' ≠ 0 ↔ x &&& b' ≠ 0 ∨ b = b' := by
  obtain ⟨k, hk, rfl⟩ := h
  obtain ⟨k', hk', rfl⟩ := h'
  rw [and_twoPow_ne_zero _ hk', and_twoPow_ne_zero _ hk', BitVec.getLsbD_or, BitVec.getLsbD_twoPow]
  simp only [hk, decide_true, Bool.true_and, Bool.or_eq_true, decide_eq_true_eq]
  refine or_congr_right ⟨fun heq => by rw [heq], fun heq => ?_⟩
  have hlsb := congrArg (fun v => BitVec.getLsbD v k') heq
  have hkk : k' = k := by simpa [hk, hk'] using hlsb
  exact hkk.symm

theorem SingleBit.andNot_and_ne_zero {b b' : U32} (h : SingleBit b) (h' : SingleBit b') (x : U32) :
    (x &&& ~~~ b) &&& b' ≠ 0 ↔ x &&& b' ≠ 0 ∧ b ≠ b' := by
  obtain ⟨k, hk, rfl⟩ := h
  obtain ⟨k', hk', rfl⟩ := h'
  rw [and_twoPow_ne_zero _ hk', and_twoPow_ne_zero _ hk', BitVec.getLsbD_and, BitVec.getLsbD_not,
    BitVec.getLsbD_twoPow]
  simp only [hk, hk', decide_true, Bool.true_and, Bool.and_eq_true, Bool.not_eq_true',
    decide_eq_false_iff_not]
  refine and_congr_right fun _ => ⟨fun hne heq => hne ?_, fun hne heq => hne (by rw [heq])⟩
  have hlsb := congrArg (fun v => BitVec.getLsbD v k') heq
  have hkk : k' = k := by simpa [hk, hk'] using hlsb
  exact hkk.symm

/-! ## Bits and entries -/

/-- What the pending bits tell apart: the socket and the event. -/
def EventInt.key (e : EventInt) : ℕ × U32 := (e.sockid, e.events)

/-- The bits of the sockets are those of the entries, and no two entries are for the same socket
and event. -/
structure Marked (smap : ℕ → EpollSocket) (pending : List EventInt) : Prop where
  single : ∀ e ∈ pending, SingleBit e.events
  keys : (pending.map EventInt.key).Nodup
  marked : ∀ i b, SingleBit b →
    ((smap i).events &&& b ≠ 0 ↔ (i, b) ∈ pending.map EventInt.key)

namespace Marked

variable {smap : ℕ → EpollSocket} {pending pending' : List EventInt}

theorem perm (h : Marked smap pending) (hperm : pending'.Perm pending) : Marked smap pending' where
  single e he := h.single e (hperm.mem_iff.mp he)
  keys := (hperm.map _).nodup_iff.mpr h.keys
  marked i b hb := by rw [h.marked i b hb, (hperm.map _).mem_iff]

/-- An entry is stored and its bit is set. -/
theorem store (h : Marked smap pending) {x : EventInt} (hx : SingleBit x.events)
    (hbit : (smap x.sockid).events &&& x.events = 0) {socket : EpollSocket}
    (hsocket : socket.events = (smap x.sockid).events ||| x.events) :
    Marked (Function.update smap x.sockid socket) (x :: pending) where
  single e he := by
    rcases List.mem_cons.mp he with rfl | hold
    · exact hx
    · exact h.single e hold
  keys := by
    rw [List.map_cons, List.nodup_cons]
    refine ⟨fun hmem => ?_, h.keys⟩
    exact absurd hbit ((h.marked x.sockid x.events hx).mpr hmem)
  marked i b hb := by
    rw [List.map_cons, List.mem_cons, ← h.marked i b hb]
    by_cases hi : i = x.sockid
    · subst hi
      rw [Function.update_self, hsocket, hx.or_and_ne_zero hb, or_comm]
      simp [EventInt.key, eq_comm]
    · rw [Function.update_of_ne hi]
      simp [EventInt.key, hi]

/-- An entry is fetched and its bit is cleared. -/
theorem fetch {x : EventInt} (h : Marked smap (x :: pending)) {socket : EpollSocket}
    (hsocket : socket.events = (smap x.sockid).events &&& ~~~ x.events) :
    Marked (Function.update smap x.sockid socket) pending where
  single e he := h.single e (List.mem_cons_of_mem x he)
  keys := (List.nodup_cons.mp h.keys).2
  marked i b hb := by
    have hx := h.single x List.mem_cons_self
    have hnot : x.key ∉ pending.map EventInt.key := (List.nodup_cons.mp h.keys).1
    have hold := h.marked i b hb
    rw [List.map_cons, List.mem_cons] at hold
    by_cases hi : i = x.sockid
    · subst hi
      rw [Function.update_self, hsocket, hx.andNot_and_ne_zero hb, hold]
      constructor
      · rintro ⟨hkey | hmem, hne⟩
        · exact absurd (congrArg Prod.snd hkey).symm hne
        · exact hmem
      · intro hmem
        refine ⟨.inr hmem, fun heq => hnot ?_⟩
        rwa [EventInt.key, heq]
    · rw [Function.update_of_ne hi, hold]
      simp [EventInt.key, hi]

/-- The bit of an entry that is pending is set. -/
theorem bit (h : Marked smap pending) {x : EventInt} (hx : x ∈ pending) :
    (smap x.sockid).events &&& x.events ≠ 0 :=
  (h.marked _ _ (h.single x hx)).mpr (List.mem_map_of_mem hx)

end Marked

namespace Epoll

open Relation

variable {P : U32 → Prop} {ep ep' : Epoll} {n : ℕ} {q : QueueType} {entry : EventInt}

/-! ## The account of the entries -/

/-- The socket is registered for the event. -/
def Registered (ep : Epoll) (i : ℕ) (b : U32) : Prop :=
  (ep.smap i).socktype ≠ .unused ∧ (ep.smap i).epoll &&& b ≠ 0

/-- Every entry that was ever stored. -/
def entries (ep : Epoll) : List EventInt := ep.returned ++ (ep.invalidated ++ ep.pending)

/-- Every event that was raised has one entry, which is pending, has been returned, or has been
dropped; and only events that their socket is not registered for are dropped. -/
structure Account (ep : Epoll) : Prop where
  stamps : (ep.entries.map EventInt.stamp).Perm (List.range ep.raised.length)
  genuine : ∀ e ∈ ep.entries, ∃ inc, ep.raised[e.stamp]? = some ⟨e.sockid, e.events, e.data, inc⟩
  dropped : ∀ e ∈ ep.invalidated, ¬ ep.Registered e.sockid e.events

structure Sound (n : ℕ) (ep : Epoll) : Prop where
  queued : ep.Queued n
  marked : Marked ep.smap ep.pending
  account : ep.Account

theorem Account.store (h : ep.Account) {i : ℕ} {event : U32}
    (hperm : (ep.storeEvent q i event).pending.Perm
      (⟨i, event, (ep.smap i).epData, ep.raised.length⟩ :: ep.pending)) :
    (ep.storeEvent q i event).Account := by
  have hraised : (ep.storeEvent q i event).raised
      = ep.raised ++ [⟨i, event, (ep.smap i).epData, ep.incarnation i⟩] := by
    simp [storeEvent, setSocket]
  have hentries : (ep.storeEvent q i event).entries.Perm
      (⟨i, event, (ep.smap i).epData, ep.raised.length⟩ :: ep.entries) := by
    have hreturned : (ep.storeEvent q i event).returned = ep.returned := by
      simp [storeEvent, setSocket]
    have hinvalidated : (ep.storeEvent q i event).invalidated = ep.invalidated := by
      simp [storeEvent, setSocket]
    rw [entries, entries, hreturned, hinvalidated]
    refine ((hperm.append_left ep.invalidated).append_left ep.returned).trans ?_
    exact (List.perm_middle.append_left ep.returned).trans List.perm_middle
  refine ⟨?_, ?_, ?_⟩
  · rw [hraised, List.length_append, List.length_singleton, List.range_succ]
    refine (hentries.map EventInt.stamp).trans ?_
    rw [List.map_cons]
    exact (List.Perm.cons _ h.stamps).trans (List.perm_append_singleton _ _).symm
  · intro e he
    rw [hraised]
    rcases List.mem_cons.mp (hentries.mem_iff.mp he) with rfl | hold
    · exact ⟨ep.incarnation i, by simp⟩
    · obtain ⟨inc, hinc⟩ := h.genuine e hold
      have hlt := (List.getElem?_eq_some_iff.mp hinc).1
      exact ⟨inc, by rw [List.getElem?_append_left hlt, hinc]⟩
  · intro e he
    have hinvalidated : (ep.storeEvent q i event).invalidated = ep.invalidated := by
      simp [storeEvent, setSocket]
    rw [hinvalidated] at he
    have hold := h.dropped e he
    by_cases hi : e.sockid = i
    · simpa [Registered, storeEvent, setSocket, hi] using hold
    · simpa [Registered, storeEvent, setSocket, Function.update_of_ne hi] using hold

theorem smap_fetchEvent (ep : Epoll) (q : QueueType) (entry : EventInt) :
    (ep.fetchEvent q entry).smap = Function.update ep.smap entry.sockid
      { ep.smap entry.sockid with
        events := (ep.smap entry.sockid).events &&& ~~~ entry.events } := by
  unfold fetchEvent
  split_ifs <;> simp [setSocket]

theorem raised_fetchEvent (ep : Epoll) (q : QueueType) (entry : EventInt) :
    (ep.fetchEvent q entry).raised = ep.raised := by
  unfold fetchEvent
  split_ifs <;> simp [setSocket]

theorem registered_fetchEvent (ep : Epoll) (q : QueueType) (entry : EventInt) (i : ℕ) (b : U32) :
    (ep.fetchEvent q entry).Registered i b ↔ ep.Registered i b := by
  unfold Registered
  rw [smap_fetchEvent]
  by_cases hi : i = entry.sockid
  · subst hi
    simp
  · rw [Function.update_of_ne hi]

theorem fetchEvent_valid (h : ep.Validity entry) :
    (ep.fetchEvent q entry).returned = ep.returned ++ [entry] ∧
      (ep.fetchEvent q entry).invalidated = ep.invalidated := by
  simp [fetchEvent, h, setSocket]

theorem fetchEvent_invalid (h : ¬ ep.Validity entry) :
    (ep.fetchEvent q entry).returned = ep.returned ∧
      (ep.fetchEvent q entry).invalidated = ep.invalidated ++ [entry] := by
  simp [fetchEvent, h, setSocket]

/-- An entry whose bit is set is returned if its socket is registered for it, and dropped if not. -/
theorem Account.fetch (h : ep.Account) (hbit : (ep.smap entry.sockid).events &&& entry.events ≠ 0)
    (hperm : ep.pending.Perm (entry :: (ep.fetchEvent q entry).pending)) :
    (ep.fetchEvent q entry).Account := by
  have hentries : ep.entries.Perm (ep.fetchEvent q entry).entries := by
    refine ((hperm.append_left ep.invalidated).append_left ep.returned).trans ?_
    unfold entries
    by_cases hvalid : ep.Validity entry
    · rw [(fetchEvent_valid hvalid).1, (fetchEvent_valid hvalid).2, List.append_assoc]
      exact List.perm_middle.append_left ep.returned
    · rw [(fetchEvent_invalid hvalid).1, (fetchEvent_invalid hvalid).2, List.append_assoc]
      exact List.Perm.refl _
  refine ⟨?_, ?_, ?_⟩
  · rw [raised_fetchEvent]
    exact (hentries.symm.map EventInt.stamp).trans h.stamps
  · intro e he
    rw [raised_fetchEvent]
    exact h.genuine e (hentries.mem_iff.mpr he)
  · intro e he
    rw [registered_fetchEvent]
    by_cases hvalid : ep.Validity entry
    · rw [(fetchEvent_valid hvalid).2] at he
      exact h.dropped e he
    · rw [(fetchEvent_invalid hvalid).2] at he
      rcases List.mem_append.mp he with hold | hnew
      · exact h.dropped e hold
      · obtain rfl : e = entry := List.mem_singleton.mp hnew
        exact fun hregistered => hvalid ⟨hregistered.1, hregistered.2, hbit⟩

theorem Account.move (h : ep.Account) {usrq mtcpq : EventQueue}
    (hperm : (pending { ep with usrQueue := usrq, mtcpQueue := mtcpq }).Perm ep.pending) :
    Account { ep with usrQueue := usrq, mtcpQueue := mtcpq } := by
  have hentries : (entries { ep with usrQueue := usrq, mtcpQueue := mtcpq }).Perm ep.entries :=
    (hperm.append_left ep.invalidated).append_left ep.returned
  exact ⟨(hentries.map EventInt.stamp).trans h.stamps,
    fun e he => h.genuine e (hentries.mem_iff.mp he), h.dropped⟩

theorem Sound.step (h : Sound n ep) (hstep : QueueStep SingleBit ep ep') :
    Sound n ep' := by
  refine ⟨h.queued.step hstep, ?_, ?_⟩
  · cases hstep with
    | store q i event hevent hbit hroom =>
      have hsmap : (ep.storeEvent q i event).smap = Function.update ep.smap i
          { ep.smap i with events := (ep.smap i).events ||| event } := by
        simp [storeEvent, setSocket]
      rw [hsmap]
      exact (h.marked.store (x := ⟨i, event, _, _⟩) hevent hbit rfl).perm
        (h.queued.store i event hroom).2
    | move entry hnum hroom hfront =>
      exact h.marked.perm (pending_move (h.queued.move hnum hroom hfront).2)
    | fetch q entry hnum hfront =>
      rw [smap_fetchEvent]
      exact (h.marked.perm (h.queued.fetch hnum hfront).2.symm).fetch rfl
  · cases hstep with
    | store q i event _ _ hroom => exact h.account.store (h.queued.store i event hroom).2
    | move entry hnum hroom hfront =>
      exact h.account.move (pending_move (h.queued.move hnum hroom hfront).2)
    | fetch q entry hnum hfront =>
      have hperm := (h.queued.fetch hnum hfront).2
      exact h.account.fetch (h.marked.bit (hperm.mem_iff.mpr List.mem_cons_self)) hperm

theorem Sound.steps (h : Sound n ep) (hsteps : ReflTransGen (QueueStep SingleBit) ep ep') :
    Sound n ep' := by
  induction hsteps with
  | refl => exact h
  | tail _ hstep ih => exact ih.step hstep

theorem queued_create (hn : 0 < n) (smap : ℕ → EpollSocket) (freeSmap : List ℕ) :
    (create n smap freeSmap).Queued n := by
  have hvalid : (createEventQueue n).Valid := CircularQueue.valid_ofSlots (by simpa using hn)
  have hsize : (createEventQueue n).slots.length = n := List.length_replicate ..
  constructor <;> intro q <;> cases q <;> assumption

theorem sound_create (hn : 0 < n) {smap : ℕ → EpollSocket} (freeSmap : List ℕ)
    (hclean : ∀ i, (smap i).events = 0) : Sound n (create n smap freeSmap) where
  queued := queued_create hn smap freeSmap
  marked := ⟨by simp [pending, create, createEventQueue], by simp [pending, create, createEventQueue],
    by simp [pending, create, createEventQueue, hclean]⟩
  account := ⟨by simp [entries, pending, create, createEventQueue],
    by simp [entries, pending, create, createEventQueue], by simp [create]⟩

/-! ## Flushing -/

/-- Flushing keeps the order of the entries, from the first of the user's queue to the last of the
stack's. -/
theorem Queued.contents_flushLoop (fuel : ℕ) (h : ep.Queued n) :
    (flushLoop fuel ep.usrQueue ep.mtcpQueue).1.contents
        ++ (flushLoop fuel ep.usrQueue ep.mtcpQueue).2.contents
      = ep.usrQueue.contents ++ ep.mtcpQueue.contents := by
  induction fuel generalizing ep with
  | zero => rfl
  | succ fuel ih =>
    unfold flushLoop
    split_ifs with hmore
    · cases hfront : ep.mtcpQueue.front? with
      | none => rfl
      | some entry =>
        obtain ⟨hqueued, hcontents⟩ := h.move hmore.1 hmore.2 hfront
        exact (ih hqueued).trans hcontents
    · rfl

/-- It stops when the stack's queue is empty or the user's is full. -/
theorem Queued.flushLoop_stops (fuel : ℕ) (h : ep.Queued n) (hfuel : ep.mtcpQueue.num ≤ fuel) :
    (flushLoop fuel ep.usrQueue ep.mtcpQueue).2.num = 0 ∨
      n ≤ (flushLoop fuel ep.usrQueue ep.mtcpQueue).1.num := by
  induction fuel generalizing ep with
  | zero => exact .inl (Nat.le_zero.mp hfuel)
  | succ fuel ih =>
    have husr : ep.usrQueue.slots.length = n := h.size .usr
    unfold flushLoop
    split_ifs with hmore
    · obtain ⟨entry, hfront, _⟩ := (h.valid .mtcp).contents_dequeue hmore.1
      have hfront' : ep.mtcpQueue.front? = some entry := hfront
      simp only [hfront']
      refine ih (h.move hmore.1 hmore.2 hfront').1 ?_
      simp only [CircularQueue.dequeue]
      omega
    · by_cases hzero : ep.mtcpQueue.num = 0
      · exact .inl hzero
      · refine .inr ?_
        simp only
        omega

/-! ## Everything is delivered in the end -/

theorem Queued.length_fetchEvent (h : ep.Queued n)
    (hnum : 0 < (ep.queue q).num) (hfront : (ep.queue q).front? = some entry) :
    (ep.fetchEvent q entry).pending.length + 1 = ep.pending.length := by
  rw [(h.fetch hnum hfront).2.length_eq, List.length_cons]

/-- Fetching never adds an entry, and takes one when there are one and room for it. -/
theorem Queued.length_fetchLoop (h : ep.Queued n) (q : QueueType) (m room : ℕ)
    (hm : m ≤ (ep.queue q).num) :
    (fetchLoop q m room ep).1.pending.length ≤ ep.pending.length ∧
      (0 < m → 0 < room → (fetchLoop q m room ep).1.pending.length < ep.pending.length) := by
  induction m generalizing ep room with
  | zero => exact ⟨le_rfl, fun hzero => absurd hzero (lt_irrefl 0)⟩
  | succ m ih =>
    obtain ⟨entry, hfront, _⟩ := (h.valid q).contents_dequeue (by omega)
    have hlength := h.length_fetchEvent (by omega) hfront
    have hqueued := (h.fetch (by omega) hfront).1
    have hnum : m ≤ ((ep.fetchEvent q entry).queue q).num := by
      rw [queue_fetchEvent]
      simp only [CircularQueue.dequeue]
      omega
    unfold fetchLoop
    split_ifs with hroom
    · exact ⟨le_rfl, fun _ hpos => absurd hroom (by omega)⟩
    · simp only [hfront]
      split_ifs
      · have hrest := (ih hqueued (room - 1) hnum).1
        exact ⟨by omega, fun _ _ => by omega⟩
      · have hrest := (ih hqueued room hnum).1
        exact ⟨by omega, fun _ _ => by omega⟩

theorem Queued.length_wait (h : ep.Queued n) (maxevents : ℕ) :
    (ep.mtcpEpollWait maxevents).pending.length ≤ ep.pending.length ∧
      (0 < maxevents → 0 < ep.usrQueue.num ∨ 0 < ep.usrShadowQueue.num →
        (ep.mtcpEpollWait maxevents).pending.length < ep.pending.length) := by
  have husr := h.length_fetchLoop .usr ep.usrQueue.num maxevents le_rfl
  have hqueued : (fetchLoop .usr ep.usrQueue.num maxevents ep).1.Queued n :=
    h.steps (fetchLoop_steps (P := SingleBit) _ _ _ _ le_rfl)
  have hshadow := hqueued.length_fetchLoop .usrShadow
    (fetchLoop .usr ep.usrQueue.num maxevents ep).1.usrShadowQueue.num
    (fetchLoop .usr ep.usrQueue.num maxevents ep).2 le_rfl
  unfold mtcpEpollWait
  refine ⟨hshadow.1.trans husr.1, fun hmax hsome => ?_⟩
  by_cases hpos : 0 < ep.usrQueue.num
  · exact lt_of_le_of_lt hshadow.1 (husr.2 hpos hmax)
  · -- The user's queue is empty, so its loop does nothing.
    have hzero : ep.usrQueue.num = 0 := by omega
    simp only [hzero, fetchLoop] at hshadow ⊢
    exact hshadow.2 (by omega) hmax

/-- One round: the stack flushes its events and the user fetches. -/
def round (maxevents : ℕ) (ep : Epoll) : Epoll := ep.flushEpollEvents.mtcpEpollWait maxevents

theorem round_steps (maxevents : ℕ) : ReflTransGen (QueueStep P) ep (round maxevents ep) :=
  flushEpollEvents_steps.trans (mtcpEpollWait_steps maxevents)

theorem Sound.round (h : Sound n ep) (maxevents : ℕ) : Sound n (round maxevents ep) :=
  h.steps (round_steps maxevents)

theorem Queued.pending_flush (h : ep.Queued n) :
    ep.flushEpollEvents.pending.length = ep.pending.length := by
  have hcontents := congrArg List.length (h.contents_flushLoop ep.mtcpQueue.num)
  simp only [List.length_append] at hcontents
  simp only [pending, flushEpollEvents, List.length_append]
  omega

/-- A round adds no entry, and takes one when there is one. -/
theorem Sound.length_round (hn : 0 < n) (h : Sound n ep) {maxevents : ℕ} (hmax : 0 < maxevents) :
    (Epoll.round maxevents ep).pending.length ≤ ep.pending.length - 1 := by
  have hflushed := h.queued.steps (flushEpollEvents_steps (P := SingleBit))
  have hlength := h.queued.pending_flush
  rw [← hlength]
  obtain ⟨hle, hlt⟩ := hflushed.length_wait maxevents
  by_cases hpending : ep.flushEpollEvents.pending.length = 0
  · exact hle.trans (by omega)
  refine Nat.le_sub_one_of_lt (hlt hmax ?_)
  by_contra hnone
  push Not at hnone
  have hstops := h.queued.flushLoop_stops ep.mtcpQueue.num le_rfl
  have husr := (hflushed.valid .usr).length_contents
  have hshadow := (hflushed.valid .usrShadow).length_contents
  have hmtcp := (hflushed.valid .mtcp).length_contents
  have hnum : ep.flushEpollEvents.mtcpQueue.num = 0 := by
    rcases hstops with hzero | hfull
    · exact hzero
    · have : n ≤ ep.flushEpollEvents.usrQueue.num := hfull
      omega
  simp only [pending, List.length_append, queue] at hpending husr hshadow hmtcp
  omega

/-- As many rounds as there are entries empty the queues. -/
theorem Sound.drained (hn : 0 < n) {maxevents : ℕ} (hmax : 0 < maxevents) (k : ℕ)
    (h : Sound n ep) (hk : ep.pending.length ≤ k) :
    ((Epoll.round maxevents)^[k] ep).pending = [] ∧ Sound n ((Epoll.round maxevents)^[k] ep) := by
  induction k generalizing ep with
  | zero => exact ⟨List.length_eq_zero_iff.mp (Nat.le_zero.mp hk), h⟩
  | succ k ih =>
    rw [Function.iterate_succ_apply]
    refine ih (h.round maxevents) ?_
    have := h.length_round hn hmax
    omega

theorem registered_step {i : ℕ} {b : U32} (hstep : QueueStep P ep ep') :
    ep'.Registered i b ↔ ep.Registered i b := by
  cases hstep with
  | store q j event _ _ _ =>
    by_cases hi : i = j
    · subst hi
      simp [Registered, storeEvent, setSocket]
    · simp [Registered, storeEvent, setSocket, Function.update_of_ne hi]
  | move entry _ _ _ => exact Iff.rfl
  | fetch q entry _ _ => exact registered_fetchEvent ep q entry i b

theorem raised_step (hstep : QueueStep P ep ep') : ep.raised <+: ep'.raised := by
  cases hstep with
  | store q i event _ _ _ => simp [storeEvent, setSocket]
  | move entry _ _ _ => exact List.prefix_rfl
  | fetch q entry _ _ => rw [raised_fetchEvent]

theorem steps_frame (hsteps : ReflTransGen (QueueStep P) ep ep') :
    ep.raised <+: ep'.raised ∧ ∀ i b, ep'.Registered i b ↔ ep.Registered i b := by
  induction hsteps with
  | refl => exact ⟨List.prefix_rfl, fun _ _ => Iff.rfl⟩
  | tail _ hstep ih =>
    exact ⟨ih.1.trans (raised_step hstep), fun i b => (registered_step hstep).trans (ih.2 i b)⟩

theorem rounds_steps (maxevents k : ℕ) :
    ReflTransGen (QueueStep P) ep ((Epoll.round maxevents)^[k] ep) := by
  induction k generalizing ep with
  | zero => exact .refl
  | succ k ih =>
    rw [Function.iterate_succ_apply]
    exact (round_steps maxevents).trans ih

/-- Once the queues are empty, every event that its socket is registered for has been returned. -/
theorem Sound.returned_of_drained {n k : ℕ} (h : Sound n ep) (hpending : ep.pending = [])
    {r : Raised} (hr : ep.raised[k]? = some r) (hregistered : ep.Registered r.sockid r.event) :
    (ep.returned.map EventInt.stamp).count k = 1 := by
  have hlt := (List.getElem?_eq_some_iff.mp hr).1
  have hentries : (ep.entries.map EventInt.stamp).count k = 1 := by
    rw [h.account.stamps.count_eq]
    exact List.count_eq_one_of_mem List.nodup_range (List.mem_range.mpr hlt)
  have hnone : (ep.invalidated.map EventInt.stamp).count k = 0 := by
    rw [List.count_eq_zero]
    intro hmem
    obtain ⟨e, he, rfl⟩ := List.mem_map.mp hmem
    obtain ⟨inc, hinc⟩ := h.account.genuine e (by simp [entries, he])
    have hsame : r = ⟨e.sockid, e.events, e.data, inc⟩ := Option.some.inj (hr.symm.trans hinc)
    subst hsame
    exact h.account.dropped e he hregistered
  simpa [entries, hpending, hnone] using hentries

/-! ## The calls of a run -/

end Epoll

/-- A call that raises one event, flushes, or waits for at least one event. -/
def EpollCall.Plain : EpollCall → Prop
  | .raise _ _ event => SingleBit event
  | .flush => True
  | .wait maxevents => 0 < maxevents
  | _ => False

namespace Epoll

open Relation

variable {ep : Epoll} {n : ℕ}

theorem plain_steps {call : EpollCall} (h : call.Plain) :
    ReflTransGen (QueueStep SingleBit) ep (call.apply ep) := by
  cases call with
  | raise q i event => exact addEpollEvent_steps q i h
  | flush => exact flushEpollEvents_steps
  | wait maxevents => exact mtcpEpollWait_steps maxevents
  | allocate _ | ctl _ _ _ _ _ _ | close _ => exact h.elim

theorem Sound.run {calls : List EpollCall} (h : Sound n ep)
    (hcalls : ∀ call ∈ calls, call.Plain) : Sound n (ep.run calls) := by
  induction calls generalizing ep with
  | nil => exact h
  | cons call calls ih =>
    exact ih (h.steps (plain_steps (hcalls call List.mem_cons_self)))
      fun call' hcall => hcalls call' (List.mem_cons_of_mem call hcall)

/-- What is asked of the queues, the bits and the entries of an epoll of size `n`. -/
structure ExactlyOnce (n : ℕ) (ep : Epoll) : Prop where
  queues : ∀ q, (ep.queue q).slots.length = n ∧ (ep.queue q).num ≤ n ∧
    (ep.queue q).stop = ((ep.queue q).start + (ep.queue q).num) % n
  bits : ∀ i b, SingleBit b →
    ((ep.smap i).events &&& b ≠ 0 ↔ (ep.pending.map EventInt.key).count (i, b) = 1)
  flushed : ep.flushEpollEvents.usrQueue.contents ++ ep.flushEpollEvents.mtcpQueue.contents
      = ep.usrQueue.contents ++ ep.mtcpQueue.contents ∧
    ep.flushEpollEvents.usrShadowQueue = ep.usrShadowQueue
  accepted : ∀ q i b, SingleBit b → (ep.addEpollEvent q i b).2 = 0 →
    (i, b) ∈ (ep.addEpollEvent q i b).1.pending.map EventInt.key
  rejected : ∀ q i b, (ep.addEpollEvent q i b).2 ≠ 0 →
    (b = 0 ∨ (ep.queue q).num = n) ∧ (ep.addEpollEvent q i b).1 = ep
  once : ∀ k < ep.raised.length, (ep.entries.map EventInt.stamp).count k = 1
  genuine : ∀ e ∈ ep.entries, ∃ inc, ep.raised[e.stamp]? = some ⟨e.sockid, e.events, e.data, inc⟩
  dropped : ∀ e ∈ ep.invalidated, ¬ ep.Registered e.sockid e.events
  delivered : ∀ maxevents, 0 < maxevents → ∀ rounds, ep.pending.length ≤ rounds →
    ∀ (k : ℕ) (r : Raised), ep.raised[k]? = some r → ep.Registered r.sockid r.event →
      (((round maxevents)^[rounds] ep).returned.map EventInt.stamp).count k = 1

theorem Sound.accepted (h : Sound n ep) {q : QueueType} {i : ℕ} {b : U32}
    (hb : SingleBit b) (haccepted : (ep.addEpollEvent q i b).2 = 0) :
    (i, b) ∈ (ep.addEpollEvent q i b).1.pending.map EventInt.key := by
  have hsound := h.steps (addEpollEvent_steps q i hb)
  rw [← hsound.marked.marked i b hb]
  unfold addEpollEvent at haccepted ⊢
  split_ifs at haccepted ⊢ with hzero hbit hfull
  · simp [error] at haccepted
  · exact hbit
  · simp [error] at haccepted
  · have hsmap : (ep.storeEvent q i b).smap i
        = { ep.smap i with events := (ep.smap i).events ||| b } := by
      simp [storeEvent, setSocket]
    rw [hsmap]
    exact (hb.or_and_ne_zero hb _).mpr (.inr rfl)

/-- Besides the empty event only a full queue makes `AddEpollEvent` fail. -/
theorem Sound.rejected (h : Sound n ep) (q : QueueType) (i : ℕ) (b : U32)
    (hno : (ep.addEpollEvent q i b).2 ≠ 0) :
    (b = 0 ∨ (ep.queue q).num = n) ∧ (ep.addEpollEvent q i b).1 = ep := by
  have hsize := h.queued.size q
  have hle := (h.queued.valid q).num_le
  unfold addEpollEvent at hno ⊢
  split_ifs at hno ⊢ with hzero hbit hfull
  · exact ⟨.inl hzero, rfl⟩
  · exact absurd rfl hno
  · exact ⟨.inr (by omega), rfl⟩
  · exact absurd rfl hno

theorem Sound.exactlyOnce (hn : 0 < n) (h : Sound n ep) : ExactlyOnce n ep where
  queues q := by
    have hsize := h.queued.size q
    have hvalid := h.queued.valid q
    exact ⟨hsize, hsize ▸ hvalid.num_le, hsize ▸ hvalid.stop_eq⟩
  bits i b hb := by
    rw [h.marked.marked i b hb]
    constructor
    · exact List.count_eq_one_of_mem h.marked.keys
    · intro hcount
      exact List.count_pos_iff.mp (by omega)
  flushed := ⟨h.queued.contents_flushLoop _, rfl⟩
  accepted q i b := h.accepted
  rejected := h.rejected
  once k hk := by
    rw [h.account.stamps.count_eq]
    exact List.count_eq_one_of_mem List.nodup_range (List.mem_range.mpr hk)
  genuine := h.account.genuine
  dropped := h.account.dropped
  delivered maxevents hmax rounds hrounds k r hr hregistered := by
    obtain ⟨hpending, hsound⟩ := h.drained hn hmax rounds hrounds
    obtain ⟨hgrows, hsame⟩ := steps_frame (rounds_steps (P := SingleBit) maxevents rounds)
    refine hsound.returned_of_drained hpending ?_ ((hsame _ _).mpr hregistered)
    have hlt := (List.getElem?_eq_some_iff.mp hr).1
    obtain ⟨more, hmore⟩ := hgrows
    rw [← hmore, List.getElem?_append_left hlt, hr]

end Epoll

/-- In every run of raising events, flushing and waiting, the queues are in order, the bits agree
with the entries, and every event that is raised is delivered exactly once. -/
theorem events_exactly_once {n : ℕ} (hn : 0 < n) {smap : ℕ → EpollSocket} (freeSmap : List ℕ)
    (hclean : ∀ i, (smap i).events = 0) {calls : List EpollCall}
    (hcalls : ∀ call ∈ calls, call.Plain) :
    Epoll.ExactlyOnce n ((Epoll.create n smap freeSmap).run calls) :=
  ((Epoll.sound_create hn freeSmap hclean).run hcalls).exactlyOnce hn

/-- A stream socket registered for reading, among unused ones. -/
def readerSocket (i : ℕ) : EpollSocket :=
  if i = 0 then ⟨.stream, epollIn, 0, 7⟩ else ⟨.unused, 0, 0, 0⟩

theorem events_exactly_once_reader :
    Epoll.ExactlyOnce 1 ((Epoll.create 1 readerSocket []).run
      [.raise .mtcp 0 epollIn, .flush, .raise .usrShadow 0 epollIn, .wait 1]) := by
  refine events_exactly_once (by decide) [] (fun i => ?_) ?_
  · unfold readerSocket
    split_ifs <;> rfl
  · have hbit : SingleBit epollIn := ⟨0, by decide, by decide⟩
    simp [EpollCall.Plain, hbit]

end MtcpStack
