import Mathlib.Data.List.Infix
import MtcpStack.Library.CircularQueue
import MtcpStack.Model.StreamQueue

/-! # One producer and one consumer

The two threads read and write the shared words one at a time. Each works with a copy of the other
one's index that may be out of date, and only ever errs on the safe side. -/

namespace MtcpStack

variable {α : Type*} {c : ℕ} {sq : StreamQueue α} {w : QueueThreads α} {n : QueueHistory α}

/-! ## A call that nobody disturbs -/

theorem producerStep_alone (sq : StreamQueue α) (stream : α) (k : Consumer α) :
    producerStep^[6] ⟨sq, .entered stream, k⟩ = ⟨(streamEnqueue sq stream).1, .idle, k⟩ := by
  by_cases hroom : nextIndex sq sq.tail = sq.head
  · simp [producerStep, streamEnqueue, hroom]
  · simp [producerStep, streamEnqueue, hroom]

/-- A consumer that finds nothing is through after two loads. -/
theorem consumerStep_alone (sq : StreamQueue α) (p : Producer α) :
    consumerStep^[if sq.head = sq.tail then 2 else 6] ⟨sq, p, .idle⟩ =
      ⟨(streamDequeue sq).1, p, .idle⟩ := by
  by_cases hempty : sq.head = sq.tail
  · simp [consumerStep, streamDequeue, hempty]
  · simp [consumerStep, streamDequeue, hempty]

/-! ## The ring

The `k`-th pointer ever enqueued goes into slot `k` modulo the size of the array, so the indices
are those of the numbers of enqueues and dequeues. -/

theorem nextIndex_mod (hcap : sq.capacity = c) (k : ℕ) :
    nextIndex sq (k % (c + 1)) = (k + 1) % (c + 1) := by
  have hlt : k % (c + 1) < c + 1 := Nat.mod_lt k (Nat.succ_pos c)
  have hnext : (k + 1) % (c + 1) = (k % (c + 1) + 1) % (c + 1) := (Nat.mod_add_mod k _ 1).symm
  rw [nextIndex, hcap, hnext]
  by_cases hlast : k % (c + 1) = c
  · simp [hlast]
  · rw [if_pos hlast]
    exact (Nat.mod_eq_of_lt (by omega)).symm

/-- Two counts that are no further apart than the capacity have the same slot only if they are
equal. -/
theorem eq_of_slot_eq {i j : ℕ} (hle : i ≤ j) (hnear : j ≤ i + c)
    (hslot : i % (c + 1) = j % (c + 1)) : i = j := by
  have hzero : (i + 0) % (c + 1) = (i + (j - i)) % (c + 1) := by
    rw [Nat.add_zero, Nat.add_sub_cancel' hle]
    exact hslot
  have := CircularQueue.add_mod_inj (Nat.succ_pos c) (by omega) hzero
  omega

/-- The shared memory when the pointers `es` have been enqueued and `ds` dequeued. -/
structure Ring (c : ℕ) (sq : StreamQueue α) (es : List α) (ds : List (Option α)) : Prop where
  capacity_eq : sq.capacity = c
  slots : sq.q.length = c + 1
  head_eq : sq.head = ds.length % (c + 1)
  tail_eq : sq.tail = es.length % (c + 1)
  returned : ds <+: es.map some
  fits : es.length ≤ ds.length + c
  stored : ∀ k x, ds.length ≤ k → es[k]? = some x → sq.q[k % (c + 1)]? = some (some x)

/-- What the producer knows. The `_head` it has read is that of an earlier moment, when `d` pointers
had been dequeued and `m` were present; nothing has been enqueued since. -/
def ProducerKnows (c : ℕ) (sq : StreamQueue α) (es : List α) (ds : List (Option α)) (m : ℕ) :
    Producer α → Prop
  | .idle | .entered _ => True
  | .headRead _ h => ∃ d ≤ ds.length, h = d % (c + 1) ∧ m = es.length - d ∧ es.length ≤ d + c
  | .roomy _ t nt => t = sq.tail ∧ nt = nextIndex sq t ∧ es.length < ds.length + c
  | .written stream t nt | .slotFenced stream t nt => t = sq.tail ∧ nt = nextIndex sq t ∧
      es.length < ds.length + c ∧ sq.q[sq.tail]? = some (some stream)
  | .fenced stream nt => nt = nextIndex sq sq.tail ∧ es.length < ds.length + c ∧
      sq.q[sq.tail]? = some (some stream)

/-- What the consumer knows: its `_head` is current, and a pointer it has seen stays there. -/
def ConsumerKnows (sq : StreamQueue α) (es : List α) (ds : List (Option α)) : Consumer α → Prop
  | .idle => True
  | .headRead h => h = sq.head
  | .filled h => h = sq.head ∧ ds.length < es.length
  | .taken h stream | .slotFenced h stream | .fenced h stream => h = sq.head ∧
      ∃ x, es[ds.length]? = some x ∧ stream = some x

structure QueueOk (c : ℕ) (w : QueueThreads α) (n : QueueHistory α) : Prop where
  ring : Ring c w.sq n.enqueued n.dequeued
  producer : ProducerKnows c w.sq n.enqueued n.dequeued n.presentAtHead w.producer
  consumer : ConsumerKnows w.sq n.enqueued n.dequeued w.consumer
  refused : ∀ k ∈ n.refused, k = c
  nulls : ∀ k ∈ n.nulls, k = 0

section
variable {es : List α} {ds : List (Option α)}

theorem Ring.behind (h : Ring c sq es ds) : ds.length ≤ es.length := by
  simpa using h.returned.length_le

theorem Ring.nextIndex_tail (h : Ring c sq es ds) :
    nextIndex sq sq.tail = (es.length + 1) % (c + 1) := by
  rw [h.tail_eq, nextIndex_mod h.capacity_eq]

/-- The slots of the pointers in the queue are not the one that the producer writes. -/
theorem Ring.write (h : Ring c sq es ds) (hroom : es.length < ds.length + c) (x : α) :
    Ring c { sq with q := sq.q.set sq.tail (some x) } es ds where
  capacity_eq := h.capacity_eq
  slots := by simpa using h.slots
  head_eq := h.head_eq
  tail_eq := h.tail_eq
  returned := h.returned
  fits := h.fits
  stored := by
    intro k y hk hy
    obtain ⟨hlt, -⟩ := List.getElem?_eq_some_iff.mp hy
    have hne : sq.tail ≠ k % (c + 1) := by
      intro heq
      rw [h.tail_eq] at heq
      have := eq_of_slot_eq hlt.le (by omega) heq.symm
      omega
    rw [List.getElem?_set_ne hne]
    exact h.stored k y hk hy

theorem Ring.written (h : Ring c sq es ds) (x : α) :
    (sq.q.set sq.tail (some x))[sq.tail]? = some (some x) := by
  have hlt : sq.tail < sq.q.length := by
    rw [h.slots, h.tail_eq]
    exact Nat.mod_lt _ (Nat.succ_pos c)
  rw [List.getElem?_set_self hlt]

theorem Ring.publish (h : Ring c sq es ds) (hroom : es.length < ds.length + c) {x : α}
    (hslot : sq.q[sq.tail]? = some (some x)) :
    Ring c { sq with tail := nextIndex sq sq.tail } (es ++ [x]) ds where
  capacity_eq := h.capacity_eq
  slots := h.slots
  head_eq := h.head_eq
  tail_eq := by simpa using h.nextIndex_tail
  returned := by
    rw [List.map_append]
    exact h.returned.trans (List.prefix_append _ _)
  fits := by
    rw [List.length_append, List.length_singleton]
    exact hroom
  stored := by
    intro k y hk hy
    by_cases hold : k < es.length
    · rw [List.getElem?_append_left hold] at hy
      exact h.stored k y hk hy
    · rw [List.getElem?_append_right (not_lt.mp hold), List.getElem?_singleton] at hy
      split at hy
      case isTrue hzero =>
        have hlast : k = es.length := by omega
        cases hy
        rw [hlast, ← h.tail_eq]
        exact hslot
      case isFalse => cases hy

/-- The pointer at the head is the first one that has not been dequeued. -/
theorem Ring.front (h : Ring c sq es ds) (hfull : ds.length < es.length) :
    ∃ x, es[ds.length]? = some x ∧ sq.q.getD sq.head none = some x := by
  refine ⟨_, List.getElem?_eq_getElem hfull, ?_⟩
  have hslot := h.stored _ _ le_rfl (List.getElem?_eq_getElem hfull)
  rw [← h.head_eq] at hslot
  rw [List.getD_eq_getElem?_getD, hslot, Option.getD_some]

theorem Ring.take (h : Ring c sq es ds) {x : α} (hx : es[ds.length]? = some x) :
    Ring c { sq with head := nextIndex sq sq.head } es (ds ++ [some x]) where
  capacity_eq := h.capacity_eq
  slots := h.slots
  head_eq := by
    simpa [h.head_eq] using nextIndex_mod h.capacity_eq ds.length
  tail_eq := h.tail_eq
  returned := by
    obtain ⟨rest, hrest⟩ := h.returned
    have hnext : rest[0]? = some (some x) := by
      have hmap : (es.map some)[ds.length]? = some (some x) := by simp [hx]
      rw [← hrest, List.getElem?_append_right le_rfl, Nat.sub_self] at hmap
      exact hmap
    cases rest with
    | nil => cases hnext
    | cons y rest =>
      cases hnext
      exact ⟨rest, by simpa using hrest⟩
  fits := by
    have := h.fits
    simp only [List.length_append, List.length_singleton]
    omega
  stored := by
    intro k y hk hy
    simp only [List.length_append, List.length_singleton] at hk
    exact h.stored k y (by omega) hy

/-- The old `_head` shows room only if there is room; it shows none only if there was none. -/
theorem Ring.room (h : Ring c sq es ds) {d : ℕ} (hd : d ≤ ds.length) (hfits : es.length ≤ d + c) :
    nextIndex sq sq.tail = d % (c + 1) ↔ es.length - d = c := by
  have hbehind := h.behind
  rw [h.nextIndex_tail]
  constructor
  · intro heq
    by_contra hroom
    have := eq_of_slot_eq (c := c) (i := d) (j := es.length + 1) (by omega) (by omega) heq.symm
    omega
  · intro hfull
    have hturn : es.length + 1 = d + (c + 1) := by omega
    rw [hturn, Nat.add_mod_right]

/-- An undisturbed enqueue appends the pointer, or drops it when there is no room. -/
theorem Ring.streamEnqueue (h : Ring c sq es ds) (x : α) :
    ∃ es', Ring c (MtcpStack.streamEnqueue sq x).1 es' ds ∧ (es' = es ∨ es' = es ++ [x]) := by
  have hbehind := h.behind
  have hfits := h.fits
  have hroom := h.room le_rfl hfits
  rw [← h.head_eq] at hroom
  unfold MtcpStack.streamEnqueue
  by_cases hfull : nextIndex sq sq.tail = sq.head
  · simp only [hfull, ne_eq, not_true_eq_false, if_false]
    exact ⟨es, h, .inl rfl⟩
  · simp only [ne_eq, hfull, not_false_eq_true, if_true]
    have hlt : es.length < ds.length + c := by
      have := mt hroom.mpr hfull
      omega
    exact ⟨es ++ [x], (h.write hlt x).publish hlt (h.written x), .inr rfl⟩

/-- An undisturbed dequeue finds nothing, or the pointer that was enqueued first. -/
theorem Ring.streamDequeue (h : Ring c sq es ds) :
    MtcpStack.streamDequeue sq = (sq, none) ∨
      ∃ x sq', x ∈ es ∧ MtcpStack.streamDequeue sq = (sq', some (some x)) ∧
        Ring c sq' es (ds ++ [some x]) := by
  unfold MtcpStack.streamDequeue
  by_cases hempty : sq.head = sq.tail
  · simp [hempty]
  · have hbehind := h.behind
    have hlt : ds.length < es.length := by
      refine lt_of_le_of_ne hbehind fun heq => hempty ?_
      rw [h.head_eq, h.tail_eq, heq]
    obtain ⟨x, hx, hslot⟩ := h.front hlt
    refine .inr ⟨x, _, List.mem_of_getElem? hx, ?_, h.take hx⟩
    simp only [ne_eq, hempty, not_false_eq_true, if_true, hslot]

/-! ## One access -/

/-- The consumer looks at its own index and at the pointers that are there already. -/
theorem ConsumerKnows.produced {sq' : StreamQueue α} {k : Consumer α}
    (h : ConsumerKnows sq es ds k) (hhead : sq'.head = sq.head) (x : α) :
    ConsumerKnows sq' (es ++ [x]) ds k := by
  have hkept : ∀ y, es[ds.length]? = some y → (es ++ [x])[ds.length]? = some y := by
    intro y hy
    obtain ⟨hlt, -⟩ := List.getElem?_eq_some_iff.mp hy
    rwa [List.getElem?_append_left hlt]
  cases k with
  | idle => trivial
  | headRead => exact h.trans hhead.symm
  | filled =>
    refine ⟨h.1.trans hhead.symm, ?_⟩
    have := h.2
    simp only [List.length_append, List.length_singleton]
    omega
  | taken | slotFenced | fenced =>
    obtain ⟨hh, y, hy, hv⟩ := h
    exact ⟨hh.trans hhead.symm, y, hkept y hy, hv⟩

/-- What the producer has found stays true when the consumer makes more room. -/
theorem ProducerKnows.consumed {m i : ℕ} {p : Producer α} (h : ProducerKnows c sq es ds m p)
    (v : Option α) : ProducerKnows c { sq with head := i } es (ds ++ [v]) m p := by
  have hmore : ds.length ≤ (ds ++ [v]).length := by simp
  cases p with
  | idle | entered => trivial
  | headRead =>
    obtain ⟨d, hd, hrest⟩ := h
    exact ⟨d, hd.trans hmore, hrest⟩
  | roomy => exact ⟨h.1, h.2.1, by have := h.2.2; omega⟩
  | written | slotFenced => exact ⟨h.1, h.2.1, by have := h.2.2.1; omega, h.2.2.2⟩
  | fenced => exact ⟨h.1, by have := h.2.1; omega, h.2.2⟩

/-- A write to a slot is no concern of what the consumer knows. -/
theorem ConsumerKnows.written {k : Consumer α} (h : ConsumerKnows sq es ds k)
    (q : List (Option α)) : ConsumerKnows { sq with q := q } es ds k := by
  cases k <;> exact h

end

theorem QueueOk.produce (h : QueueOk c w n) :
    QueueOk c (producerStep w) (n.noteProduce w) := by
  obtain ⟨sq, p, k⟩ := w
  obtain ⟨hring, hp, hk, hrefused, hnulls⟩ := h
  dsimp only at hring hp hk
  cases p with
  | idle => exact ⟨hring, trivial, hk, hrefused, hnulls⟩
  | entered stream =>
    exact ⟨hring, ⟨_, le_rfl, hring.head_eq, rfl, hring.fits⟩, hk, hrefused, hnulls⟩
  | headRead stream h =>
    obtain ⟨d, hd, rfl, hpresent, hfits⟩ := hp
    have hroom := hring.room hd hfits
    by_cases hfull : nextIndex sq sq.tail = d % (c + 1)
    · simp only [producerStep, QueueHistory.noteProduce, hfull, ne_eq, not_true_eq_false, if_false]
      refine ⟨hring, trivial, hk, fun m hm => ?_, hnulls⟩
      rcases List.mem_append.mp hm with hm | hm
      · exact hrefused m hm
      · rw [List.mem_singleton.mp hm, hpresent]
        exact hroom.mp hfull
    · simp only [producerStep, QueueHistory.noteProduce, ne_eq, hfull, not_false_eq_true, if_true]
      refine ⟨hring, ⟨rfl, rfl, ?_⟩, hk, hrefused, hnulls⟩
      have := mt hroom.mpr hfull
      omega
  | roomy stream t nt =>
    obtain ⟨rfl, rfl, hroom⟩ := hp
    exact ⟨hring.write hroom stream, ⟨rfl, rfl, hroom, hring.written stream⟩, hk.written _, hrefused,
      hnulls⟩
  | written stream t nt => exact ⟨hring, hp, hk, hrefused, hnulls⟩
  | slotFenced stream t nt =>
    obtain ⟨rfl, hrest⟩ := hp
    exact ⟨hring, hrest, hk, hrefused, hnulls⟩
  | fenced stream nt =>
    obtain ⟨rfl, hroom, hslot⟩ := hp
    exact ⟨hring.publish hroom hslot, trivial, hk.produced rfl stream, hrefused, hnulls⟩

theorem QueueOk.consume (h : QueueOk c w n) :
    QueueOk c (consumerStep w) (n.noteConsume w) := by
  obtain ⟨sq, p, k⟩ := w
  obtain ⟨hring, hp, hk, hrefused, hnulls⟩ := h
  dsimp only at hring hp hk
  cases k with
  | idle => exact ⟨hring, hp, rfl, hrefused, hnulls⟩
  | headRead h =>
    obtain rfl : h = sq.head := hk
    by_cases hempty : sq.head = sq.tail
    · simp only [consumerStep, QueueHistory.noteConsume, hempty, ne_eq, not_true_eq_false, if_false]
      refine ⟨hring, hp, trivial, hrefused, fun m hm => ?_⟩
      rcases List.mem_append.mp hm with hm | hm
      · exact hnulls m hm
      · have heq : n.dequeued.length = n.enqueued.length := by
          refine eq_of_slot_eq hring.behind hring.fits ?_
          rw [← hring.head_eq, ← hring.tail_eq, hempty]
        rw [List.mem_singleton.mp hm, QueueHistory.present, heq, Nat.sub_self]
    · simp only [consumerStep, QueueHistory.noteConsume, ne_eq, hempty, not_false_eq_true, if_true]
      refine ⟨hring, hp, ⟨rfl, lt_of_le_of_ne hring.behind fun heq => hempty ?_⟩, hrefused, hnulls⟩
      rw [hring.head_eq, hring.tail_eq, heq]
  | filled h =>
    obtain ⟨rfl, hfull⟩ := hk
    exact ⟨hring, hp, ⟨rfl, hring.front hfull⟩, hrefused, hnulls⟩
  | taken h stream => exact ⟨hring, hp, hk, hrefused, hnulls⟩
  | slotFenced h stream => exact ⟨hring, hp, hk, hrefused, hnulls⟩
  | fenced h stream =>
    obtain ⟨rfl, x, hx, rfl⟩ := hk
    exact ⟨hring.take hx, hp.consumed (some x), trivial, hrefused, hnulls⟩

/-! ## Every interleaving -/

theorem queueOk_start (c : ℕ) : QueueOk c (queueStart c : QueueThreads α) {} where
  ring := {
    capacity_eq := rfl
    slots := List.length_replicate
    head_eq := (Nat.zero_mod _).symm
    tail_eq := (Nat.zero_mod _).symm
    returned := List.prefix_rfl
    fits := Nat.zero_le _
    stored := nofun }
  producer := trivial
  consumer := trivial
  refused := nofun
  nulls := nofun

theorem QueueReached.ok (h : QueueReached c w n) : QueueOk c w n := by
  refine Noting.Run.invariant (P := QueueOk c) (queueOk_start c) (fun {s n a} hok _ => ?_) h
  cases a with
  | call stream => exact ⟨hok.ring, trivial, hok.consumer, hok.refused, hok.nulls⟩
  | produce => exact hok.produce
  | consume => exact hok.consume

/-- What is dequeued is what was enqueued, in its order; an enqueue fails only on a full queue and a
dequeue only on an empty one. -/
theorem stream_queue_fifo (h : QueueReached c w n) :
    n.dequeued <+: n.enqueued.map some ∧ (∀ k ∈ n.refused, k = c) ∧ ∀ k ∈ n.nulls, k = 0 :=
  ⟨h.ok.ring.returned, h.ok.refused, h.ok.nulls⟩

/-- The producer fills a queue of one slot while the consumer, which has read the old `_tail`, finds
nothing; its second call races with an enqueue that is refused. -/
def racingSteps : List (QueueStep ℕ) :=
  [.call 7, .produce, .produce, .produce, .consume, .consume, .produce, .produce, .produce,
    .consume, .consume, .call 8, .produce, .consume, .consume, .produce, .consume, .consume]

theorem stream_queue_fifo_race :
    let r := (queueSystem ℕ).after (queueStart 1) {} racingSteps
    (r.2.enqueued, r.2.dequeued, r.2.refused, r.2.nulls) = ([7], [some 7], [1], [0]) ∧
      r.2.dequeued <+: r.2.enqueued.map some := by
  refine ⟨by decide, (stream_queue_fifo (c := 1)
    (w := ((queueSystem ℕ).after (queueStart 1) {} racingSteps).1) ?_).1⟩
  exact Noting.Run.start.after (by decide)

end MtcpStack
