import MtcpStack.Verification.Epoll

/-! # Events and the owners of sockets

An entry in an event queue names a socket by its number alone. As long as a number is given out
again only when no queue has an entry for it, every event that is returned was raised for the
present owner of the number. -/

namespace MtcpStack

namespace Epoll

open Relation

variable {P : U32 → Prop} {ep ep' : Epoll} {n : ℕ}

/-! ## The invariant -/

/-- The entry is that of an event that was raised for the present incarnation of its socket, with
the data that the socket was registered with when it was raised. -/
def Current (ep : Epoll) (e : EventInt) : Prop :=
  ep.raised[e.stamp]? = some ⟨e.sockid, e.events, e.data, ep.incarnation e.sockid⟩

/-- The entries for the sockets in use were raised for their present incarnations. -/
structure Owned (n : ℕ) (ep : Epoll) : Prop where
  queued : ep.Queued n
  current : ∀ e ∈ ep.pending, (ep.smap e.sockid).socktype ≠ .unused → ep.Current e

/-- Storing or fetching an entry does not touch whose the sockets are. -/
structure SameOwners (ep ep' : Epoll) : Prop where
  socktype : ∀ i, (ep'.smap i).socktype = (ep.smap i).socktype
  incarnation : ep'.incarnation = ep.incarnation

theorem Current.same (hsame : SameOwners ep ep') (hraised : ep.raised <+: ep'.raised)
    {e : EventInt} (h : ep.Current e) : ep'.Current e := by
  obtain ⟨more, hmore⟩ := hraised
  unfold Current at h ⊢
  have hlt := (List.getElem?_eq_some_iff.mp h).1
  rw [hsame.incarnation, ← hmore, List.getElem?_append_left hlt, h]

theorem sameOwners_step (hstep : QueueStep P ep ep') : SameOwners ep ep' := by
  cases hstep with
  | store q i event _ _ _ =>
    refine ⟨fun j => ?_, by simp [storeEvent, setSocket]⟩
    by_cases hj : j = i
    · subst hj
      simp [storeEvent, setSocket]
    · simp [storeEvent, setSocket, Function.update_of_ne hj]
  | move entry _ _ _ => exact ⟨fun _ => rfl, rfl⟩
  | fetch q entry _ _ =>
    refine ⟨fun j => ?_, ?_⟩
    · rw [smap_fetchEvent]
      by_cases hj : j = entry.sockid
      · subst hj
        simp
      · rw [Function.update_of_ne hj]
    · unfold fetchEvent
      split_ifs <;> simp [setSocket]

theorem Owned.step (h : Owned n ep) (hstep : QueueStep P ep ep') : Owned n ep' := by
  have hsame := sameOwners_step hstep
  have hgrows := raised_step hstep
  refine ⟨h.queued.step hstep, fun e he hused => ?_⟩
  rw [hsame.socktype] at hused
  cases hstep with
  | store q i event _ _ hroom =>
    rcases List.mem_cons.mp ((h.queued.store i event hroom).2.mem_iff.mp he) with rfl | hold
    · simp [Current, storeEvent, setSocket]
    · exact (h.current e hold hused).same hsame hgrows
  | move entry hnum hroom hfront =>
    have hold := (pending_move (h.queued.move hnum hroom hfront).2).mem_iff.mp he
    exact (h.current e hold hused).same hsame hgrows
  | fetch q entry hnum hfront =>
    have hold := (h.queued.fetch hnum hfront).2.mem_iff.mpr (List.mem_cons_of_mem entry he)
    exact (h.current e hold hused).same hsame hgrows

theorem Owned.steps (h : Owned n ep) (hsteps : ReflTransGen (QueueStep P) ep ep') :
    Owned n ep' := by
  induction hsteps with
  | refl => exact h
  | tail _ hstep ih => exact ih.step hstep

theorem owned_create (hn : 0 < n) (smap : ℕ → EpollSocket) (freeSmap : List ℕ) :
    Owned n (create n smap freeSmap) where
  queued := queued_create hn smap freeSmap
  current := by simp [pending, create, createEventQueue]

/-! ## Sockets change hands -/

/-- A change of one socket that gives it no new owner. -/
theorem Owned.setSocket (h : Owned n ep) {i : ℕ} {socket : EpollSocket}
    (hsocket : socket.socktype ≠ .unused → socket.socktype = (ep.smap i).socktype) :
    Owned n (ep.setSocket i socket) := by
  refine ⟨⟨h.queued.valid, h.queued.size⟩, fun e he hused => ?_⟩
  refine h.current e he ?_
  by_cases hi : e.sockid = i
  · rw [hi] at hused ⊢
    have hnew : socket.socktype ≠ .unused := by simpa [Epoll.setSocket] using hused
    rwa [← hsocket hnew]
  · simpa [Epoll.setSocket, Function.update_of_ne hi] using hused

theorem Owned.freeSocket (h : Owned n ep) (i : ℕ) : Owned n (ep.freeSocket i) := by
  unfold Epoll.freeSocket
  split_ifs
  · exact h
  · have hfreed : Owned n (ep.setSocket i
        { ep.smap i with socktype := .unused, epoll := 0, events := 0 }) :=
      h.setSocket fun hused => absurd rfl hused
    exact ⟨⟨hfreed.queued.valid, hfreed.queued.size⟩, hfreed.current⟩

theorem Owned.raisePending (h : Owned n ep) (i : ℕ) (readable writable : Bool) :
    Owned n (ep.raisePending i readable writable) := by
  have hadd : ∀ {ep : Epoll} (event : U32), Owned n ep →
      Owned n (ep.addEpollEvent .usrShadow i event).1 := fun event hep =>
    hep.steps (addEpollEvent_steps (P := fun _ => True) .usrShadow i trivial)
  unfold Epoll.raisePending
  dsimp only
  split_ifs
  · exact hadd _ (hadd _ h)
  · exact hadd _ h
  · exact hadd _ h
  · exact h

theorem Owned.mtcpEpollCtl (h : Owned n ep) (op : CtlOp) (i : ℕ) (events : U32)
    (data : EpollData) (readable writable : Bool) :
    Owned n (ep.mtcpEpollCtl op i events data readable writable).1 := by
  have hregister : Owned n (ep.register i events data) := h.setSocket fun _ => rfl
  cases op with
  | add =>
    unfold Epoll.mtcpEpollCtl
    dsimp only
    split_ifs
    · exact h
    · exact hregister.raisePending i readable writable
  | mod =>
    unfold Epoll.mtcpEpollCtl
    dsimp only
    split_ifs
    · exact h
    · exact hregister.raisePending i readable writable
  | del =>
    unfold Epoll.mtcpEpollCtl
    dsimp only
    split_ifs
    · exact h
    · exact h.setSocket fun _ => rfl

/-- A socket that no entry is for gets a new owner. -/
theorem Owned.allocateSocket (h : Owned n ep) {socktype : SockType}
    (hfree : ∀ i, (ep.allocateSocket socktype).2 = some i → ∀ e ∈ ep.pending, e.sockid ≠ i) :
    Owned n (ep.allocateSocket socktype).1 := by
  unfold Epoll.allocateSocket at hfree ⊢
  dsimp only at hfree ⊢
  split at hfree
  · exact h
  · rename_i i rest hlist
    refine ⟨⟨h.queued.valid, h.queued.size⟩, fun e he hused => ?_⟩
    have hi : e.sockid ≠ i := hfree i rfl e he
    have hold := h.current e he (by
      simpa [Epoll.setSocket, Function.update_of_ne hi] using hused)
    simpa [Current, Epoll.setSocket, Function.update_of_ne hi] using hold

/-! ## What a wait returns -/

/-- The events returned on the way are current. -/
structure Fetched (ep ep' : Epoll) : Prop where
  owners : SameOwners ep ep'
  raised : ep'.raised = ep.raised
  returned : ∃ new, ep'.returned = ep.returned ++ new ∧ ∀ e ∈ new, ep.Current e

theorem Fetched.refl (ep : Epoll) : Fetched ep ep :=
  ⟨⟨fun _ => rfl, rfl⟩, rfl, [], by simp, by simp⟩

theorem Fetched.trans {ep'' : Epoll} (h : Fetched ep ep') (h' : Fetched ep' ep'') :
    Fetched ep ep'' := by
  obtain ⟨new, hnew, hcurrent⟩ := h.returned
  obtain ⟨new', hnew', hcurrent'⟩ := h'.returned
  refine ⟨⟨fun i => (h'.owners.socktype i).trans (h.owners.socktype i),
    h'.owners.incarnation.trans h.owners.incarnation⟩, h'.raised.trans h.raised, new ++ new', ?_, ?_⟩
  · rw [hnew', hnew, List.append_assoc]
  · intro e he
    rcases List.mem_append.mp he with hold | hlater
    · exact hcurrent e hold
    · have := hcurrent' e hlater
      rwa [Current, h.raised, h.owners.incarnation] at this

/-- An entry that passes the validity test belongs to a socket in use. -/
theorem Owned.fetched (h : Owned n ep) {q : QueueType} {entry : EventInt}
    (hnum : 0 < (ep.queue q).num) (hfront : (ep.queue q).front? = some entry) :
    Fetched ep (ep.fetchEvent q entry) := by
  have hmem : entry ∈ ep.pending :=
    (h.queued.fetch hnum hfront).2.mem_iff.mpr List.mem_cons_self
  refine ⟨sameOwners_step (.fetch (P := fun _ => True) ep q entry hnum hfront),
    raised_fetchEvent ep q entry, ?_⟩
  by_cases hvalid : ep.Validity entry
  · refine ⟨[entry], (fetchEvent_valid hvalid).1, fun e he => ?_⟩
    obtain rfl := List.mem_singleton.mp he
    exact h.current e hmem hvalid.1
  · exact ⟨[], by simp [(fetchEvent_invalid hvalid).1], by simp⟩

theorem Owned.fetchLoop (h : Owned n ep) (q : QueueType) (m room : ℕ)
    (hm : m ≤ (ep.queue q).num) : Fetched ep (Epoll.fetchLoop q m room ep).1 := by
  induction m generalizing ep room with
  | zero => exact .refl ep
  | succ m ih =>
    unfold Epoll.fetchLoop
    split_ifs
    · exact .refl ep
    · cases hfront : (ep.queue q).front? with
      | none => exact .refl ep
      | some entry =>
        have hnext : Owned n (ep.fetchEvent q entry) :=
          h.step (.fetch (P := fun _ => True) ep q entry (by omega) hfront)
        refine (h.fetched (by omega) hfront).trans (ih hnext _ ?_)
        rw [queue_fetchEvent]
        simp only [CircularQueue.dequeue]
        omega

theorem Owned.wait (h : Owned n ep) (maxevents : ℕ) :
    Fetched ep (ep.mtcpEpollWait maxevents) := by
  have husr := h.fetchLoop .usr ep.usrQueue.num maxevents le_rfl
  have hnext : Owned n (Epoll.fetchLoop .usr ep.usrQueue.num maxevents ep).1 :=
    h.steps (fetchLoop_steps (P := fun _ => True) .usr _ maxevents ep le_rfl)
  exact husr.trans (hnext.fetchLoop .usrShadow _ _ le_rfl)

/-! ## Runs -/

/-- A call that gives out a socket finds no entry for it in the queues. -/
def Careful (ep : Epoll) : EpollCall → Prop
  | .allocate socktype =>
    ∀ i, (ep.allocateSocket socktype).2 = some i → ∀ e ∈ ep.pending, e.sockid ≠ i
  | _ => True

theorem careful_of_drained {call : EpollCall} (h : ep.pending = []) : ep.Careful call := by
  cases call <;> simp [Careful, h]

/-- Every call of a run is careful. -/
def CarefulRun (ep : Epoll) : List EpollCall → Prop
  | [] => True
  | call :: calls => ep.Careful call ∧ CarefulRun (call.apply ep) calls

theorem Owned.apply (h : Owned n ep) {call : EpollCall} (hcall : ep.Careful call) :
    Owned n (call.apply ep) := by
  cases call with
  | raise q i event =>
    exact h.steps (addEpollEvent_steps (P := fun _ => True) q i trivial)
  | flush => exact h.steps (flushEpollEvents_steps (P := fun _ => True))
  | wait maxevents => exact h.steps (mtcpEpollWait_steps (P := fun _ => True) maxevents)
  | allocate socktype => exact h.allocateSocket hcall
  | ctl op i events data readable writable => exact h.mtcpEpollCtl op i events data readable writable
  | close i => exact h.freeSocket i

theorem Owned.run (h : Owned n ep) {calls : List EpollCall}
    (hcalls : ep.CarefulRun calls) : Owned n (ep.run calls) := by
  induction calls generalizing ep with
  | nil => exact h
  | cons call calls ih => exact ih (h.apply hcalls.1) hcalls.2

end Epoll

/-- When sockets are given out only while no event queue has an entry for them, every event that is
returned was raised for the present incarnation of its socket and carries the data of the
registration of that time. -/
theorem events_of_owner {n : ℕ} (hn : 0 < n) (smap : ℕ → EpollSocket) (freeSmap : List ℕ)
    {calls : List EpollCall} (hcalls : (Epoll.create n smap freeSmap).CarefulRun calls)
    (maxevents : ℕ) :
    ∀ e ∈ ((Epoll.create n smap freeSmap).run calls).waitReturns maxevents,
      ((Epoll.create n smap freeSmap).run calls).Current e := by
  have howned := (Epoll.owned_create hn smap freeSmap).run hcalls
  obtain ⟨new, hnew, hcurrent⟩ := (howned.wait maxevents).returned
  intro e he
  rw [Epoll.waitReturns, hnew, List.drop_left] at he
  exact hcurrent e he

/-! ### A socket that is used again -/

def unusedSocket (_ : ℕ) : EpollSocket := ⟨.unused, 0, 0, 0⟩

/-- A socket is allocated and registered with the given data, and becomes readable. -/
def openReader (data : EpollData) : List EpollCall :=
  [.allocate .stream, .ctl .add 0 epollIn data false false, .raise .mtcp 0 epollIn, .flush]

/-- The event of the first owner is fetched before the socket is closed. -/
theorem events_of_owner_drained :
    ((Epoll.create 4 unusedSocket [0]).run
        (openReader 1 ++ [.wait 4, .close 0] ++ openReader 2)).waitReturns 4 =
      [⟨0, epollIn, 2, 1⟩] ∧
    ((Epoll.create 4 unusedSocket [0]).run
        (openReader 1 ++ [.wait 4, .close 0] ++ openReader 2)).Current ⟨0, epollIn, 2, 1⟩ := by
  have hreturned : ((Epoll.create 4 unusedSocket [0]).run
      (openReader 1 ++ [.wait 4, .close 0] ++ openReader 2)).waitReturns 4 =
      [⟨0, epollIn, 2, 1⟩] := by
    decide +kernel
  refine ⟨hreturned, events_of_owner (by decide) unusedSocket [0] ?_ 4 _ (hreturned ▸ .head _)⟩
  exact ⟨Epoll.careful_of_drained (by decide +kernel), trivial, trivial, trivial, trivial, trivial,
    Epoll.careful_of_drained (by decide +kernel), trivial, trivial, trivial, trivial⟩

/-- The event of the first owner is still queued when the socket is used again: the second owner
gets the event of the first, with the data of the first. -/
theorem event_of_former_owner :
    ((Epoll.create 4 unusedSocket [0]).run
        (openReader 1 ++ [.close 0] ++ openReader 2)).waitReturns 4 = [⟨0, epollIn, 1, 0⟩] ∧
      ((Epoll.create 4 unusedSocket [0]).run
        (openReader 1 ++ [.close 0] ++ openReader 2)).raised[0]? = some ⟨0, epollIn, 1, 1⟩ ∧
      ((Epoll.create 4 unusedSocket [0]).run
        (openReader 1 ++ [.close 0] ++ openReader 2)).incarnation 0 = 2 := by
  decide +kernel

end MtcpStack
