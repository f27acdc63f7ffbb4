import MtcpStack.Library.NotedRun
import MtcpStack.Verification.FlowEffects
import MtcpStack.Verification.SocketCalls

/-! # The table of listeners

`mtcp_listen` enters a listener in the table and nothing takes it out again: `CloseListeningSocket`
frees it where it is. As long as no listener is closed, the table holds open ones only. -/

namespace MtcpStack

/-! ## Runs -/

/-- The listeners `mtcp_listen` has opened and those `mtcp_close` has closed. -/
structure Ledger where
  opened : List ℕ
  closed : List ℕ
  deriving DecidableEq, Repr

/-- The listener a call of `mtcp_close` closes. -/
def Host.closes (h : Host) (sockid : ℤ) : Option ℕ :=
  if h.inRange sockid && (h.smap sockid.toNat).socktype == .listener then
    match (h.smap sockid.toNat).ref with
    | .listener l => some l
    | _ => none
  else none

def Call.enters (g : Ledger) (h : Host) : Call → Ledger
  | .listen sockid backlog mem =>
    if (h.mtcpListen sockid backlog mem).2 = .ok () then
      { g with opened := g.opened ++ [h.nextListener] }
    else g
  | .close sockid => { g with closed := g.closed ++ (h.closes sockid).toList }
  | _ => g

/-- `mtcp_close` is called on a listening socket that has a listener. -/
def Call.closesListener (h : Host) : Call → Bool
  | .close sockid =>
    h.inRange sockid && (h.smap sockid.toNat).socktype == .listener &&
      (h.smap sockid.toNat).ref != .null
  | _ => false

/-- Runs in which no listener is closed. -/
def listenerRuns : Noting Host Call Ledger where
  apply := Host.apply
  note g h call := call.enters g h
  allowed _ h call := call.enabled h && !call.closesListener h

/-! ## Open listeners -/

/-- The listener has its accept queue. -/
def Host.IsOpen (h : Host) (l : ℕ) : Prop :=
  ∃ i backlog q, h.listener l = some ⟨i, backlog, some q⟩

/-- Every listener in the table was opened, is open and was not closed. -/
structure Host.TableSound (h : Host) (g : Ledger) : Prop where
  opened : ∀ {b l}, l ∈ h.listeners b → l ∈ g.opened
  live : ∀ {b l}, l ∈ h.listeners b → h.IsOpen l
  closed : g.closed = []

namespace Host

variable {h h' : Host} {g : Ledger}

theorem IsOpen.setListener {l : ℕ} (hopen : h.IsOpen l) (l' i backlog : ℕ) (q : List ℕ) :
    (setListener l' ⟨i, backlog, some q⟩ h).IsOpen l := by
  by_cases hl : l = l'
  · subst hl
    exact ⟨i, backlog, q, by simp [Host.setListener]⟩
  · obtain ⟨j, backlog', q', hlive⟩ := hopen
    exact ⟨j, backlog', q', by simpa [Host.setListener, hl] using hlive⟩

/-- A new open listener is entered in the table. -/
def Opens (h h' : Host) : Prop :=
  ∃ i n port, h'.listener = Function.update h.listener h.nextListener (some ⟨i, n, some []⟩) ∧
    h'.listeners = Function.update h.listeners (hashListener port)
      (h.listeners (hashListener port) ++ [h.nextListener])

theorem listenOn_cases (i : ℕ) (backlog : ℤ) (mem : ListenMem) (h : Host) :
    (h.listenOn i backlog mem).2 ≠ .ok () ∧ (h.listenOn i backlog mem).1.rest = h.rest ∨
      (h.listenOn i backlog mem).2 = .ok () ∧ h.Opens (h.listenOn i backlog mem).1 := by
  rcases listenOn_outcome i backlog mem h with ⟨e, hout⟩ | hout
  · rw [hout]
    exact .inl ⟨nofun, rfl⟩
  · rw [hout]
    exact .inr ⟨rfl, _, _, _, rfl, rfl⟩

theorem mtcpListen_cases (sockid backlog : ℤ) (mem : ListenMem) (h : Host) :
    (h.mtcpListen sockid backlog mem).2 ≠ .ok () ∧ (h.mtcpListen sockid backlog mem).1.rest = h.rest ∨
      (h.mtcpListen sockid backlog mem).2 = .ok () ∧ h.Opens (h.mtcpListen sockid backlog mem).1 := by
  unfold mtcpListen
  simp only
  split
  · exact .inl ⟨nofun, rfl⟩
  · split
    · exact .inl ⟨nofun, rfl⟩
    · split
      · split
        · exact .inl ⟨nofun, rfl⟩
        · exact listenOn_cases _ backlog mem (h.setSocket _ _)
      · split
        · exact .inl ⟨nofun, rfl⟩
        · exact listenOn_cases _ backlog mem h

/-- The search depends on the ports of the sockets only. -/
theorem listenerHTSearch_setSocket {i : ℕ} {s : SockEntry}
    (hport : s.saddr.port = (h.smap i).saddr.port) (port : U16) :
    (h.setSocket i s).listenerHTSearch port = h.listenerHTSearch port := by
  have hsame : (h.setSocket i s).listenerPort = h.listenerPort := by
    funext l
    refine congrArg (Option.map · (h.listener l)) (funext fun x => ?_)
    by_cases hx : x.sockid = i
    · simp [setSocket, hx, hport]
    · simp [setSocket, hx]
  unfold listenerHTSearch
  rw [hsame]
  rfl

/-- With everything it needs, `mtcp_listen` succeeds at a port the search does not find. -/
theorem mtcpListen_of_free {sockid backlog : ℤ} (hin : h.inRange sockid = true)
    (htype : (h.smap sockid.toNat).socktype = .stream ∨
      (h.smap sockid.toNat).socktype = .listener)
    (hnone : h.listenerHTSearch (h.smap sockid.toNat).saddr.port = none) (hpos : 0 < backlog)
    (hle : backlog ≤ h.core.maxConcurrency) :
    (h.mtcpListen sockid backlog listenMem).2 = .ok () := by
  have hbacklog : ¬ (backlog ≤ 0 ∨ h.core.maxConcurrency < backlog) := by omega
  have hfree : ∀ h' : Host, h'.core = h.core →
      h'.listenerHTSearch (h'.smap sockid.toNat).saddr.port = none →
      (h'.listenOn sockid.toNat backlog listenMem).2 = .ok () := by
    intro h' hcore hsearch
    unfold listenOn
    simp only
    rw [hcore, if_neg hbacklog, hsearch]
    rfl
  unfold mtcpListen
  simp only [hin, Bool.not_true, Bool.false_eq_true, if_false]
  rcases htype with hstream | hlistener
  · rw [if_neg (by simp [hstream]), if_pos hstream, if_neg (by simp [setSocket])]
    refine hfree _ rfl ((listenerHTSearch_setSocket (by rfl) _).trans ?_)
    simpa [setSocket] using hnone
  · rw [if_neg (by simp [hlistener]), if_neg (by simp [hlistener]), if_neg (by simp [hlistener])]
    exact hfree h rfl hnone

theorem fetchSource_listeners {dst saddr a : SockAddr}
    (hfetch : h.fetchSource dst saddr = .ok (h', a)) :
    h'.listener = h.listener ∧ h'.listeners = h.listeners := by
  unfold fetchSource at hfetch
  split at hfetch
  · split at hfetch
    · cases hfetch
    · cases hfetch
      exact ⟨rfl, rfl⟩
  · split at hfetch
    · cases hfetch
    · split at hfetch
      · cases hfetch
      · cases hfetch
        exact ⟨rfl, rfl⟩

namespace TableSound

theorem congr (hs : TableSound h g) (hlistener : h'.listener = h.listener)
    (htable : h'.listeners = h.listeners) : TableSound h' g where
  opened hmem := hs.opened (htable ▸ hmem)
  live hmem := by
    obtain ⟨i, backlog, q, hlive⟩ := hs.live (htable ▸ hmem)
    exact ⟨i, backlog, q, hlistener ▸ hlive⟩
  closed := hs.closed

theorem of_rest (hs : TableSound h g) (hrest : h'.rest = h.rest) : TableSound h' g :=
  hs.congr (congrArg (fun r => r.2.2.1) hrest) (congrArg (fun r => r.2.2.2) hrest)

/-- The accept queue of a listener changes. -/
theorem setListener (hs : TableSound h g) (l i backlog : ℕ) (q : List ℕ) :
    TableSound (Host.setListener l ⟨i, backlog, some q⟩ h) g where
  opened := hs.opened
  live hmem := (hs.live hmem).setListener l i backlog q
  closed := hs.closed

theorem mtcpListen (hs : TableSound h g) (sockid backlog : ℤ) (mem : ListenMem) :
    TableSound (h.mtcpListen sockid backlog mem).1
      (Call.enters g h (.listen sockid backlog mem)) := by
  obtain ⟨hfail, hrest⟩ | ⟨hok, i, n, port, hlistener, htable⟩ :=
    mtcpListen_cases sockid backlog mem h
  · rw [Call.enters, if_neg hfail]
    exact hs.of_rest hrest
  · rw [Call.enters, if_pos hok]
    have hnew : (h.mtcpListen sockid backlog mem).1.IsOpen h.nextListener :=
      ⟨i, n, [], by simp [hlistener]⟩
    have hkept : ∀ {l}, h.IsOpen l → (h.mtcpListen sockid backlog mem).1.IsOpen l := by
      intro l hopen
      obtain ⟨j, m, q, hlive⟩ := hopen.setListener h.nextListener i n []
      exact ⟨j, m, q, hlistener ▸ hlive⟩
    have hmem : ∀ {b l}, l ∈ (h.mtcpListen sockid backlog mem).1.listeners b →
        l = h.nextListener ∨ l ∈ h.listeners b := by
      intro b l hl
      rw [htable] at hl
      by_cases hb : b = hashListener port
      · subst hb
        simpa [or_comm] using hl
      · exact .inr (by simpa [hb] using hl)
    refine ⟨fun hl => ?_, fun hl => ?_, hs.closed⟩
    · rcases hmem hl with rfl | hold
      · exact List.mem_append_right _ (List.mem_singleton_self _)
      · exact List.mem_append_left _ (hs.opened hold)
    · rcases hmem hl with rfl | hold
      · exact hnew
      · exact hkept (hs.live hold)

theorem mtcpAccept (hs : TableSound h g) (sockid : ℤ) (interrupted : Bool) :
    TableSound (h.mtcpAccept sockid interrupted).1 g := by
  unfold Host.mtcpAccept
  simp only
  split
  · exact hs
  · split
    · exact hs
    · split
      · split
        · exact (hs.setListener ..).of_rest (rest_acceptStream ..)
        · split_ifs <;> exact hs
        · exact hs
      · exact hs

theorem offerStream (hs : TableSound h g) (sid : ℕ) : TableSound (h.offerStream sid) g := by
  unfold Host.offerStream
  split
  · exact hs.congr rfl rfl
  · split
    · split
      · exact hs.setListener ..
      · exact hs
    · exact hs.congr rfl rfl

theorem mtcpConnect (hs : TableSound h g) (sockid : ℤ) (addr : Option SockAddr) (inet : Bool)
    (mem : StreamMem) (waited : Option TcpState) :
    TableSound (h.mtcpConnect sockid addr inet mem waited).1 g := by
  have hconnect : ∀ i dst, TableSound (h.connectSocket i dst mem waited).1 g := by
    intro i dst
    unfold Host.connectSocket
    simp only
    split
    · split
      · exact hs.of_rest (rest_openStream ..)
      · exact hs
    · split
      · exact hs
      · next hget =>
        obtain ⟨hlistener, htable⟩ := fetchSource_listeners hget
        have hfetched : TableSound _ g := hs.congr hlistener htable
        exact hfetched.of_rest (rest_openStream ..)
  unfold Host.mtcpConnect
  simp only
  iterate 3 (split; · exact hs)
  split
  · exact hs
  · split
    · exact hs
    · split
      · exact hconnect ..
      · split
        · exact hs.congr rfl rfl
        · split <;> exact hs
      · exact hs

theorem mtcpInitRss (hs : TableSound h g) (base : U32) (numAddr : ℕ) (daddr : SockAddr)
    (memory : Bool) : TableSound (h.mtcpInitRss base numAddr daddr memory).1 g := by
  unfold Host.mtcpInitRss
  simp only
  split
  · split
    · exact hs.congr rfl rfl
    · split
      · exact hs.congr rfl rfl
      · split <;> exact hs.congr rfl rfl
  · split <;> exact hs.congr rfl rfl

/-- A closed socket that is not a listening one, or one without a listener. -/
theorem mtcpClose (hs : TableSound h g) {sockid : ℤ}
    (hsafe : Call.closesListener h (.close sockid) = false) :
    TableSound (h.mtcpClose sockid).1 (Call.enters g h (.close sockid)) := by
  have hnone : h.closes sockid = none := by
    unfold Host.closes
    split
    case isFalse => rfl
    case isTrue hlistens =>
      have hnull : (h.smap sockid.toNat).ref = .null := by
        simpa [Call.closesListener, hlistens] using hsafe
      rw [hnull]
  have hsame : Call.enters g h (.close sockid) = g := by simp [Call.enters, hnone]
  rw [hsame]
  unfold Host.mtcpClose
  simp only
  split
  · exact hs
  case isFalse hrange =>
    split
    case h_2 => exact (hs.of_rest (rest_closeStreamSocket ..)).of_rest (rest_freeSocket ..)
    case h_3 htype =>
      have hnull : (h.smap sockid.toNat).ref = .null := by
        simp only [Bool.not_eq_true', Bool.not_eq_false] at hrange
        simpa [Call.closesListener, htype, hrange] using hsafe
      have hclose : h.closeListeningSocket sockid.toNat = (h, .error .inval) := by
        rw [closeListeningSocket, hnull]
      rw [hclose]
      exact hs.of_rest (rest_freeSocket ..)
    all_goals first | exact hs | exact hs.of_rest (rest_freeSocket ..)

theorem destroyTCPStream (hs : TableSound h g) (sid : ℕ) :
    TableSound (h.destroyTCPStream sid) g := by
  have hreturn : ∀ {h' : Host} {a}, TableSound h' g → TableSound (h'.returnAddress sid a) g := by
    intro h' a hs'
    unfold Host.returnAddress
    split
    · split <;> exact hs'.congr rfl rfl
    · split
      · exact hs'
      · exact hs'.congr rfl rfl
      · split <;> exact hs'.congr rfl rfl
  unfold Host.destroyTCPStream
  split
  · exact hs.congr rfl rfl
  · simp only
    split
    · exact hreturn (hs.congr rfl rfl)
    · exact hs.congr rfl rfl

theorem apply (hs : TableSound h g) {call : Call} (hsafe : call.closesListener h = false) :
    TableSound (h.apply call) (call.enters g h) := by
  cases call with
  | socket => exact hs.of_rest (rest_mtcpSocket h)
  | setNonblock sockid => exact hs.of_rest (rest_mtcpSetsockNonblock sockid h)
  | bind sockid addr inet => exact hs.of_rest (rest_mtcpBind sockid addr inet h)
  | listen sockid backlog mem => exact hs.mtcpListen sockid backlog mem
  | accept sockid interrupted => exact hs.mtcpAccept sockid interrupted
  | initRss base numAddr daddr memory => exact hs.mtcpInitRss base numAddr daddr memory
  | connect sockid addr inet mem waited => exact hs.mtcpConnect sockid addr inet mem waited
  | close sockid => exact hs.mtcpClose hsafe
  | syn rem loc mem => exact hs.of_rest (rest_synArrives rem loc mem h)
  | offer sid => exact hs.offerStream sid
  | stack sid s =>
    simp only [Host.apply]
    split <;> exact hs.congr rfl rfl
  | dequeueConnect => exact hs.congr rfl rfl
  | destroy sid => exact hs.destroyTCPStream sid
  | events i pending => exact hs.congr rfl rfl

end TableSound

end Host

theorem listenerRuns_sound {cfg : Config} {core : CoreConfig} {net : NetConfig} {h : Host}
    {g : Ledger} (hrun : listenerRuns.Run (Host.init cfg core net) ⟨[], []⟩ h g) :
    h.TableSound g := by
  have hempty : (Host.init cfg core net).TableSound ⟨[], []⟩ := by
    refine ⟨fun hl => ?_, fun hl => ?_, rfl⟩ <;> cases hl
  refine hrun.invariant hempty fun {_ _ call} hs hallowed => ?_
  simp only [listenerRuns, Bool.and_eq_true, Bool.not_eq_true'] at hallowed
  exact hs.apply hallowed.2

/-! ## The search -/

/-- While no listener is closed, every listener the search finds was opened by `mtcp_listen`, has
not been closed, and listens at the port. At a port where none does, a SYN is refused and
`mtcp_listen` succeeds. -/
theorem listeners_sound {cfg : Config} {core : CoreConfig} {net : NetConfig} {h : Host}
    {g : Ledger} (hrun : listenerRuns.Run (Host.init cfg core net) ⟨[], []⟩ h g) (port : U16) :
    (∀ l, h.listenerHTSearch port = some l →
      l ∈ g.opened ∧ l ∉ g.closed ∧ h.IsOpen l ∧ h.listenerPort l = some port) ∧
    ((∀ l ∈ g.opened, l ∉ g.closed → h.listenerPort l ≠ some port) →
      (∀ addr, h.filterSYNPacket ⟨addr, port⟩ = false) ∧
      ∀ sockid backlog : ℤ, h.inRange sockid = true →
        (h.smap sockid.toNat).socktype = .stream ∨ (h.smap sockid.toNat).socktype = .listener →
        (h.smap sockid.toNat).saddr.port = port → 0 < backlog → backlog ≤ h.core.maxConcurrency →
        (h.mtcpListen sockid backlog listenMem).2 = .ok ()) := by
  have hs := listenerRuns_sound hrun
  have hfound : ∀ l, h.listenerHTSearch port = some l →
      l ∈ g.opened ∧ l ∉ g.closed ∧ h.IsOpen l ∧ h.listenerPort l = some port := by
    intro l hl
    have hmem := List.mem_of_find?_eq_some hl
    have hclosed : l ∉ g.closed := by simp [hs.closed]
    exact ⟨hs.opened hmem, hclosed, hs.live hmem, by simpa using List.find?_some hl⟩
  refine ⟨hfound, fun hfree => ?_⟩
  have hnone : h.listenerHTSearch port = none := by
    rw [Option.eq_none_iff_forall_ne_some]
    intro l hl
    obtain ⟨hopened, hclosed, -, hport⟩ := hfound l hl
    exact hfree l hopened hclosed hport
  refine ⟨fun addr => by simp [Host.filterSYNPacket, hnone], ?_⟩
  rintro sockid backlog hin htype rfl hpos hle
  exact Host.mtcpListen_of_free hin htype hnone hpos hle

/-! ### A closed listener in the table -/

/-- A socket listens at the HTTP port. -/
def listeningCalls : List Call := [.socket, .bind 0 (some webAddr) true, .listen 0 1 listenMem]

/-- After `mtcp_close` the search still finds the listener, whose accept queue is gone. A SYN to
its port is taken, and the port cannot be listened at again. -/
theorem closed_listener_found :
    let h := (listeningCalls ++ [Call.close 0]).foldl Host.apply (smallHost 2)
    let h' := [Call.socket, .bind 1 (some webAddr) true].foldl Host.apply h
    Host.Reached (fun _ => False) (smallHost 2).cfg (smallHost 2).core (smallHost 2).net h ∧
      (h.smap 0).socktype = .unused ∧ h.listenerHTSearch webAddr.port = some 0 ∧
      h.listener 0 = some ⟨0, 1, none⟩ ∧ h.filterSYNPacket webAddr = true ∧
      (h'.mtcpListen 1 1 listenMem).2 = .error .addrInUse :=
  ⟨Host.Reached.init.after (by decide +kernel), by decide +kernel⟩

/-- The search finds the listener of the open socket, and another port can be listened at. -/
theorem listeners_sound_open :
    let h := (listeningCalls ++ [Call.socket, .bind 1 (some clientAddr) true]).foldl Host.apply
      (smallHost 2)
    h.IsOpen 0 ∧ (h.mtcpListen 1 1 listenMem).2 = .ok () := by
  intro h
  have hlegal : listenerRuns.legal (smallHost 2) ⟨[], []⟩
      (listeningCalls ++ [Call.socket, .bind 1 (some clientAddr) true]) = true := by decide +kernel
  have hrun : listenerRuns.Run (smallHost 2) ⟨[], []⟩ h _ := .after .start hlegal
  refine ⟨((listeners_sound hrun webAddr.port).1 0 (by decide +kernel)).2.2.1, ?_⟩
  refine ((listeners_sound hrun clientAddr.port).2 ?_).2 1 1 ?_ ?_ ?_ ?_ ?_
  all_goals decide +kernel

end MtcpStack
