import MtcpStack.Verification.FlowEffects

/-! # Calls that fail

What the calls of the socket interface leave behind when they return an error. A call that gives up
early enough leaves the whole host as it was; one that fails behind a certain point has lost the
type of a socket, a connection, an address or a stream. The conditions name that point in terms of
the state before the call. -/

namespace MtcpStack

/-- A call that changes nothing, or else fails to keep something. -/
theorem kept_iff_of_kinds {same kept bad : Prop} (hkinds : same ∧ ¬ bad ∨ ¬ kept ∧ bad)
    (hkept : same → kept) : (kept ↔ ¬ bad) ∧ (¬ bad → same) := by
  rcases hkinds with ⟨hsame, hok⟩ | ⟨hlost, hbad⟩
  · exact ⟨iff_of_true (hkept hsame) hok, fun _ => hsame⟩
  · exact ⟨iff_of_false hlost (not_not.mpr hbad), fun hok => absurd hbad hok⟩

namespace Host

/-! ## `mtcp_listen` -/

theorem mtcpListen_error {sockid backlog : ℤ} {mem : ListenMem} {h : Host} {e : Errno}
    (htype : ¬ (h.inRange sockid = true ∧ (h.smap sockid.toNat).socktype = .stream))
    (herr : (h.mtcpListen sockid backlog mem).2 = .error e) :
    (h.mtcpListen sockid backlog mem).1 = h := by
  unfold mtcpListen at herr ⊢
  by_cases hin : h.inRange sockid = true
  · have hother : (h.smap sockid.toNat).socktype ≠ .stream := fun hs => htype ⟨hin, hs⟩
    simp only [if_neg hother] at herr ⊢
    split_ifs at herr ⊢
    · rfl
    · rfl
    · rfl
    · rcases listenOn_outcome sockid.toNat backlog mem h with ⟨e', hout⟩ | hout
      · rw [hout]
      · rw [hout] at herr
        cases herr
  · simp [hin]

/-- The type has been changed when the backlog, the port and the memory are looked at. -/
theorem mtcpListen_stream {sockid backlog : ℤ} {mem : ListenMem} {h : Host} {e : Errno}
    (hin : h.inRange sockid = true) (htype : (h.smap sockid.toNat).socktype = .stream)
    (herr : (h.mtcpListen sockid backlog mem).2 = .error e) :
    ((h.mtcpListen sockid backlog mem).1.smap sockid.toNat).socktype = .listener := by
  let h' := h.setSocket sockid.toNat { h.smap sockid.toNat with socktype := .listener }
  have hset : (h'.smap sockid.toNat).socktype = .listener := by
    simp [h', setSocket]
  have hres : h.mtcpListen sockid backlog mem = listenOn sockid.toNat backlog mem h' := by
    unfold mtcpListen
    simp only [hin, htype, Bool.not_true, Bool.false_eq_true, if_false, reduceCtorEq, if_true]
    exact if_neg fun hne => hne hset
  rw [hres] at herr ⊢
  rcases listenOn_outcome sockid.toNat backlog mem h' with ⟨e', hout⟩ | hout
  · rw [hout]
    exact hset
  · rw [hout] at herr
    cases herr

/-! ## `mtcp_accept` -/

/-- A stream that has no socket yet is the first in the accept queue. -/
def waiting (h : Host) (sockid : ℤ) : Prop :=
  h.inRange sockid = true ∧ (h.smap sockid.toNat).socktype = .listener ∧
    ∃ l i backlog sid rest f, (h.smap sockid.toNat).ref = .listener l ∧
      h.listener l = some ⟨i, backlog, some (sid :: rest)⟩ ∧ h.streams sid = some f ∧
      f.sockid = none

/-- `AllocateSocket` fails when no socket is free. -/
theorem allocateSocket_full {socktype : SockType} {h h' : Host}
    (hfull : h.allocateSocket socktype = (h', .full)) : h' = h ∧ h.freeSmap = [] := by
  unfold allocateSocket at hfull
  simp only at hfull
  split at hfull
  · obtain ⟨rfl, hout⟩ := Prod.mk.inj hfull
    split at hout
    case isTrue hnone => exact ⟨rfl, hnone⟩
    case isFalse => cases hout
  · cases (Prod.mk.inj hfull).2

/-- A stream without socket is taken from the queue for nothing when no socket is free; every other
error comes before the queue is touched. -/
theorem mtcpAccept_error {sockid : ℤ} {interrupted : Bool} {h : Host} {e : Errno}
    (herr : (h.mtcpAccept sockid interrupted).2 = .error e) :
    (h.mtcpAccept sockid interrupted).1 = h ∧ ¬ (h.waiting sockid ∧ h.freeSmap = []) ∨
      (h.mtcpAccept sockid interrupted).1.listener ≠ h.listener ∧ h.waiting sockid ∧
        h.freeSmap = [] := by
  unfold mtcpAccept at herr ⊢
  simp only at herr ⊢
  split at herr
  case isTrue hout =>
    rw [if_pos hout]
    exact .inl ⟨rfl, fun hw => by simp [hw.1.1] at hout⟩
  case isFalse hin =>
    rw [if_neg hin]
    split at herr
    case isTrue hother =>
      rw [if_pos hother]
      exact .inl ⟨rfl, fun hw => hother hw.1.2.1⟩
    case isFalse hlistens =>
      rw [if_neg hlistens]
      split at herr
      case h_2 => simp at herr
      case h_1 l hl =>
        split at herr
        case h_3 => simp at herr
        case h_2 i backlog hqueue =>
          refine .inl ⟨by split_ifs <;> rfl, ?_⟩
          rintro ⟨⟨-, -, l', i', backlog', sid, rest, f, hl', hqueue', -⟩, -⟩
          cases hl.symm.trans hl'
          cases hqueue.symm.trans hqueue'
        case h_1 i backlog sid rest hqueue =>
          unfold acceptStream at herr ⊢
          simp only at herr ⊢
          split at herr
          case h_1 => simp at herr
          case h_2 f hf =>
            split at herr
            case h_1 => simp at herr
            case h_2 hsock =>
              split at herr
              case h_2 => simp at herr
              case h_3 => simp at herr
              case h_1 h' hfull =>
                obtain ⟨rfl, hnone⟩ := allocateSocket_full hfull
                refine .inr ⟨fun hsame => ?_, ⟨by simpa using hin, by simpa using hlistens, l, i,
                  backlog, sid, rest, f, hl, hqueue, hf, hsock⟩, hnone⟩
                have hl' := congrFun hsame l
                simp [setListener, hqueue] at hl'

end Host

/-- A failed `mtcp_listen` leaves the types of the sockets and the listeners if and only if the
socket was not a stream socket, and a failed `mtcp_accept` leaves the accept queues if and only if
there was no stream waiting for which no socket is free. Then nothing at all has changed. -/
theorem failed_listen_accept_no_effect (h : Host) :
    (∀ sockid backlog mem e, (h.mtcpListen sockid backlog mem).2 = .error e →
      let h' := (h.mtcpListen sockid backlog mem).1
      let ok := ¬ (h.inRange sockid = true ∧ (h.smap sockid.toNat).socktype = .stream)
      ((∀ i, (h'.smap i).socktype = (h.smap i).socktype) ∧ h'.listeners = h.listeners ∧
        h'.listener = h.listener ↔ ok) ∧ (ok → h' = h)) ∧
    ∀ sockid interrupted e, (h.mtcpAccept sockid interrupted).2 = .error e →
      let h' := (h.mtcpAccept sockid interrupted).1
      let ok := ¬ (h.waiting sockid ∧ h.freeSmap = [])
      (h'.listener = h.listener ↔ ok) ∧ (ok → h' = h) := by
  refine ⟨fun sockid backlog mem e herr => ⟨⟨?_, fun hok => ?_⟩, fun hok => ?_⟩,
    fun sockid interrupted e herr => ?_⟩
  · rintro ⟨hsame, -⟩ ⟨hin, htype⟩
    have hnow := Host.mtcpListen_stream hin htype herr
    rw [hsame, htype] at hnow
    cases hnow
  · rw [Host.mtcpListen_error hok herr]
    exact ⟨fun _ => rfl, rfl, rfl⟩
  · exact Host.mtcpListen_error hok herr
  · exact kept_iff_of_kinds (Host.mtcpAccept_error herr) fun hsame => by rw [hsame]

/-! ### A lost socket type and a lost connection -/

/-- A core with the given number of sockets and one interface 10.0.0.1/8. -/
def smallHost (sockets : ℕ) : Host :=
  .init { tcpTimeout := 0, tcpTimewait := 0, sndbufSize := 8192 }
    { cpu := 0, numCpus := 1, numQueues := 1, endianCheck := false, maxConcurrency := sockets,
      connectqSize := 10240 }
    { eths := [(0x0100000A, 0)], rtable := [⟨0x000000FF, 0x0000000A, 8, 0⟩], gateway := none }

/-- Everything a listener needs. -/
def listenMem : ListenMem := ⟨true, true, true, true⟩

/-- The HTTP port of the interface. -/
def webAddr : SockAddr := ⟨0x0100000A, 0x5000⟩

/-- A client of the web server. -/
def clientAddr : SockAddr := ⟨0x0900000A, 0x3930⟩

/-- One socket, non-blocking, that listens, and a connection in its accept queue. -/
def acceptingHost (sockets : ℕ) : Host :=
  [Call.socket, .setNonblock 0, .bind 0 (some webAddr) true, .listen 0 1 listenMem,
    .syn clientAddr webAddr ⟨true, true, 7⟩, .offer 0].foldl Host.apply (smallHost sockets)

/-- A stream socket whose backlog is refused is a listening socket afterwards, on which
`mtcp_connect` fails. A connection for which there is no free socket has left the accept queue
when `mtcp_accept` fails, and the next call finds nothing. -/
theorem failed_calls_lose_state :
    (let h := (smallHost 2).apply .socket
     let r := h.mtcpListen 0 0 listenMem
     (h.smap 0).socktype = .stream ∧ r.2 = .error .inval ∧ (r.1.smap 0).socktype = .listener ∧
       (r.1.mtcpConnect 0 (some clientAddr) true ⟨true, true, 7⟩ none).2 = .error .notSock) ∧
    (let h := acceptingHost 1
     let r := h.mtcpAccept 0 false
     h.listener 0 = some ⟨0, 1, some [0]⟩ ∧ r.2 = .error .nFile ∧
       r.1.listener 0 = some ⟨0, 1, some []⟩ ∧ (r.1.streams 0).isSome = true ∧
       (r.1.mtcpAccept 0 false).2 = .error .again) := by
  decide +kernel

theorem failed_listen_accept_no_effect_listening :
    ((acceptingHost 2).mtcpListen 0 1 listenMem).1 = acceptingHost 2 ∧
      ((smallHost 2).apply .socket).mtcpListen (-1) 1 listenMem =
        ((smallHost 2).apply .socket, .error .badf) ∧
      (((acceptingHost 2).mtcpAccept 0 false).1.mtcpAccept 0 false).1 =
        ((acceptingHost 2).mtcpAccept 0 false).1 := by
  have hfree : ((acceptingHost 2).mtcpAccept 0 false).1.freeSmap = [] := by decide +kernel
  have hqueue : ((acceptingHost 2).mtcpAccept 0 false).1.listener 0 = some ⟨0, 1, some []⟩ := by
    decide +kernel
  have href : (((acceptingHost 2).mtcpAccept 0 false).1.smap 0).ref = .listener 0 := by
    decide +kernel
  refine ⟨?_, Prod.ext ?_ (by decide +kernel), ?_⟩
  · exact ((failed_listen_accept_no_effect _).1 0 1 listenMem .addrInUse (by decide +kernel)).2
      (by decide +kernel)
  · exact ((failed_listen_accept_no_effect _).1 (-1) 1 listenMem .badf (by decide +kernel)).2
      (by decide +kernel)
  · -- no socket is free any more, and nothing is waiting either
    refine ((failed_listen_accept_no_effect _).2 0 false .again (by decide +kernel)).2 ?_
    rintro ⟨⟨-, -, l, i, backlog, sid, rest, f, hl, hlist, -⟩, -⟩
    cases href.symm.trans hl
    cases hqueue.symm.trans hlist

/-! ## `mtcp_connect` -/

namespace Host

/-- A pool has an address for a connection to `dst` from a socket with the address `saddr`. -/
def hasSource (h : Host) (dst saddr : SockAddr) : Bool :=
  match h.ap with
  | some ap => !ap.freeList.isEmpty
  | none => (getOutputInterface h.net dst.addr).any fun nif => (h.pools[nif]?).any fun ap =>
      ap.freeList.any (fetchMatches h.core.cpu h.core.numQueues h.core.endianCheck dst saddr)

/-- The call gets to the point where it takes an address from a pool, or opens a stream from an
explicit one. -/
def opens (h : Host) (sockid : ℤ) (addr : Option SockAddr) (inet : Bool) (mem : StreamMem) : Prop :=
  let s := h.smap sockid.toNat
  h.inRange sockid = true ∧ s.socktype = .stream ∧ inet = true ∧ s.ref = .null ∧
    ∃ dst, addr = some dst ∧
      if s.explicit then
        connectRssCore s.saddr dst h.core.numQueues h.core.endianCheck = some h.core.cpu ∧
          mem.chunks = true
      else h.hasSource dst s.saddr = true

theorem fetchSource_iff {dst saddr : SockAddr} {h : Host} :
    (∃ r, h.fetchSource dst saddr = .ok r) ↔ h.hasSource dst saddr = true := by
  unfold fetchSource hasSource
  cases h.ap with
  | some ap =>
      simp only [fetchAddressPerCore]
      cases ap.freeList <;> simp
  | none =>
      simp only
      cases getOutputInterface h.net dst.addr with
      | none => simp
      | some nif =>
          simp only [Option.any_some]
          cases h.pools[nif]? with
          | none => simp
          | some ap =>
              simp only [Option.bind_some, fetchAddress, Option.any_some]
              cases hfind : ap.freeList.find?
                  (fetchMatches h.core.cpu h.core.numQueues h.core.endianCheck dst saddr) with
              | none =>
                  have hno := List.find?_eq_none.mp hfind
                  simpa using hno
              | some e =>
                  have hmem := List.mem_of_find?_eq_some hfind
                  have hmatch := List.find?_some hfind
                  simp only [Option.map_some, Except.ok.injEq, exists_eq', true_iff,
                    List.any_eq_true]
                  exact ⟨e, hmem, hmatch⟩

/-- Taking an address changes a pool. -/
theorem fetches_changed {v v' : FlowView} {pid : PoolId} {a : SockAddr} (h : v.Fetches pid a v') :
    ¬ (v'.ap = v.ap ∧ v'.pools = v.pools) := by
  have huse : ∀ ap : AddrPool, ap.use a ≠ ap := by
    intro ap heq
    have hused := congrArg (·.usedList.length) heq
    simp [AddrPool.use] at hused
  obtain ⟨ap, hap, -, -, rfl⟩ | ⟨-, i, ap, hpool, -, -, rfl⟩ := h
  · rintro ⟨hsame, -⟩
    exact huse ap (Option.some.inj (hsame.trans hap))
  · rintro ⟨-, hsame⟩
    have hlt := (List.getElem?_eq_some_iff.mp hpool).1
    have hi := congrArg (·[i]?) hsame
    simp only [List.getElem?_set_self hlt, hpool, Option.some.injEq] at hi
    exact huse ap hi

theorem openStream_ref (i : ℕ) (dst : SockAddr) (bound : Bool) {mem : StreamMem}
    (waited : Option TcpState) (h : Host) (hchunks : mem.chunks = true) :
    ((h.openStream i dst bound mem waited).1.smap i).ref = .stream h.gId := by
  have hqueue : ∀ (sid : ℕ) (h : Host), (h.queueConnect i sid waited).1.smap = h.smap := by
    intro sid h
    unfold queueConnect
    simp only
    split
    · split
      · rfl
      · cases waited with
        | none => rfl
        | some s => simp only; split_ifs <;> rfl
    · rfl
  have hstart : ∀ (sid : ℕ) (h : Host), (startStream sid bound h).smap = h.smap := by
    intro sid h
    unfold startStream
    split <;> rfl
  unfold openStream createTCPStream
  simp only [hchunks, if_true]
  split
  case h_1 heq =>
    obtain ⟨rfl, -⟩ := Prod.mk.inj heq
    simp [setSocket]
  case h_2 heq =>
    obtain ⟨rfl, -⟩ := Prod.mk.inj heq
    rw [hqueue, hstart]
    simp [setSocket]

/-- From a socket without stream, the state is as before, or a stream is linked to the socket or an
address taken from a pool. -/
theorem connectSocket_kept (i : ℕ) (dst : SockAddr) (mem : StreamMem) (waited : Option TcpState)
    (h : Host) (hnull : (h.smap i).ref = .null) :
    let h' := (h.connectSocket i dst mem waited).1
    let reached := if (h.smap i).explicit then
        connectRssCore (h.smap i).saddr dst h.core.numQueues h.core.endianCheck =
          some h.core.cpu ∧ mem.chunks = true
      else h.hasSource dst (h.smap i).saddr = true
    h' = h ∧ ¬ reached ∨
      ¬ (h'.smap i = h.smap i ∧ h'.ap = h.ap ∧ h'.pools = h.pools) ∧ reached := by
  unfold connectSocket
  simp only
  split
  case isTrue =>
    split
    case isFalse hcore => exact .inl ⟨rfl, fun hr => hcore hr.1⟩
    case isTrue hcore =>
      cases hchunks : mem.chunks with
      | false =>
          left
          simp [openStream, createTCPStream, hchunks]
      | true =>
          refine .inr ⟨fun hsame => ?_, hcore, rfl⟩
          have href := openStream_ref i dst false waited h hchunks
          rw [hsame.1, hnull] at href
          cases href
  case isFalse =>
    split
    case h_1 e hno =>
      refine .inl ⟨rfl, fun hsource => ?_⟩
      obtain ⟨r, hfetch⟩ := fetchSource_iff.mpr hsource
      cases hno.symm.trans hfetch
    case h_2 h₁ a hfetch =>
      refine .inr ⟨fun hsame => ?_, fetchSource_iff.mp ⟨_, hfetch⟩⟩
      obtain ⟨pid, hfetches⟩ := fetchSource_spec hfetch
      let s := { h.smap i with saddr := a, addrBind := true }
      obtain ⟨f, -, -, hview⟩ := view_openStream i dst true mem waited (h₁.setSocket i s)
      have hpools : (h₁.setSocket i s).view.ap = h.ap ∧
          (h₁.setSocket i s).view.pools = h.pools := by
        rw [← hsame.2.1, ← hsame.2.2, ← view_ap, ← view_pools, hview]
        split <;> exact ⟨rfl, rfl⟩
      exact fetches_changed hfetches hpools

end Host

section

variable {h : Host} {sockid : ℤ} {addr : Option SockAddr} {inet : Bool} {mem : StreamMem}
  {waited : Option TcpState} {e : Errno}

/-- A failed `mtcp_connect` changes nothing, or has got to the point where it opens a stream or
takes an address. -/
theorem Host.mtcpConnect_error
    (herr : (h.mtcpConnect sockid addr inet mem waited).2 = .error e) :
    let h' := (h.mtcpConnect sockid addr inet mem waited).1
    h' = h ∧ ¬ h.opens sockid addr inet mem ∨
      ¬ (h'.smap sockid.toNat = h.smap sockid.toNat ∧ h'.ap = h.ap ∧ h'.pools = h.pools) ∧
        h.opens sockid addr inet mem := by
  unfold mtcpConnect at herr ⊢
  simp only at herr ⊢
  split at herr
  case isTrue hout =>
    rw [if_pos hout]
    exact .inl ⟨rfl, fun ho => by simp [ho.1] at hout⟩
  case isFalse hin =>
    rw [if_neg hin]
    split at herr
    case isTrue hunused =>
      rw [if_pos hunused]
      exact .inl ⟨rfl, fun ho => by simp [ho.2.1] at hunused⟩
    case isFalse hused =>
      rw [if_neg hused]
      split at herr
      case isTrue hother =>
        rw [if_pos hother]
        exact .inl ⟨rfl, fun ho => hother ho.2.1⟩
      case isFalse hstream =>
        rw [if_neg hstream]
        cases addr with
        | none =>
            refine .inl ⟨rfl, ?_⟩
            rintro ⟨-, -, -, -, dst, hdst, -⟩
            cases hdst
        | some dst =>
            simp only at herr ⊢
            split at herr
            case isTrue hfam =>
              rw [if_pos hfam]
              exact .inl ⟨rfl, fun ho => by simp [ho.2.2.1] at hfam⟩
            case isFalse hfam =>
              rw [if_neg hfam]
              split at herr
              case h_1 hnull =>
                have hopens : h.opens sockid (some dst) inet mem ↔
                    if (h.smap sockid.toNat).explicit then
                      connectRssCore (h.smap sockid.toNat).saddr dst h.core.numQueues
                        h.core.endianCheck = some h.core.cpu ∧ mem.chunks = true
                    else h.hasSource dst (h.smap sockid.toNat).saddr = true := by
                  simp only [Bool.not_eq_true', Bool.not_eq_false] at hin hfam
                  simp only [ne_eq, not_not] at hstream
                  simp [opens, hin, hfam, hstream, hnull]
                rw [hopens]
                exact connectSocket_kept _ dst mem waited h hnull
              case h_2 hlinked =>
                have hno : ¬ h.opens sockid (some dst) inet mem := fun ho => by
                  simp [ho.2.2.2.1] at hlinked
                split at herr
                · simp at herr
                · exact .inl ⟨by split <;> rfl, hno⟩
              case h_3 => simp at herr

/-- A failed `mtcp_connect` leaves the entry of the socket and the pools if and only if it gave up
before it opened a stream or took an address from a pool. Then nothing at all has changed. -/
theorem failed_connect_no_effect
    (herr : (h.mtcpConnect sockid addr inet mem waited).2 = .error e) :
    let h' := (h.mtcpConnect sockid addr inet mem waited).1
    (h'.smap sockid.toNat = h.smap sockid.toNat ∧ h'.ap = h.ap ∧ h'.pools = h.pools ↔
        ¬ h.opens sockid addr inet mem) ∧
      (¬ h.opens sockid addr inet mem → h' = h) :=
  kept_iff_of_kinds (Host.mtcpConnect_error herr) fun hsame => by simp [hsame]

end

/-! ### A lost address -/

/-- Memory for a stream runs out behind the source address: the address stays with the socket and
off the free list, and a second call takes it for an explicit one, which is never given back. -/
theorem failed_connect_loses_address :
    let h := (smallHost 2).apply .socket
    let r := h.mtcpConnect 0 (some clientAddr) true ⟨false, true, 7⟩ none
    r.2 = .error .noMem ∧ (h.smap 0).addrBind = false ∧ (r.1.smap 0).addrBind = true ∧
      (r.1.smap 0).saddr ≠ (h.smap 0).saddr ∧
      (r.1.pools.map fun ap => ap.freeList.head?) ≠ (h.pools.map fun ap => ap.freeList.head?) ∧
      ((r.1.mtcpConnect 0 (some clientAddr) true ⟨true, true, 7⟩ none).1.streams 0).map
        (·.isBoundAddr) = some false := by
  decide +kernel

/-- No route leads to 1.2.3.4, whether or not there is memory for a stream. -/
theorem failed_connect_no_effect_unrouted :
    (((smallHost 2).apply .socket).mtcpConnect 0 (some ⟨0x04030201, 0x5000⟩) true
      ⟨false, true, 7⟩ none).1 = (smallHost 2).apply .socket := by
  refine (failed_connect_no_effect (e := .inval) (by decide +kernel)).2 fun hopens => ?_
  obtain ⟨-, -, -, -, dst, hdst, hsource⟩ := hopens
  cases hdst
  exact absurd hsource (by decide +kernel)

end MtcpStack
