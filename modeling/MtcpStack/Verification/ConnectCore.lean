import MtcpStack.Library.NotedRun
import MtcpStack.Verification.Flows

/-! # Connections on their core

`mtcp_connect` hashes the 4-tuple itself for a bound socket and leaves it to `FetchAddress` for the
pool of an interface. From the pool of the core it takes any address: that pool was filled for one
destination by `mtcp_init_rss`. -/

namespace MtcpStack

/-! ## Runs -/

/-- The destination of the last `mtcp_init_rss`. -/
def Call.prepares (d : Option SockAddr) : Call → Option SockAddr
  | .initRss _ _ daddr _ => some daddr
  | _ => d

/-- `mtcp_connect` would use the pool of the core for another destination than it was filled for,
or while the number of queues is not the number of cores it was filled with. -/
def Call.strays (d : Option SockAddr) (h : Host) : Call → Bool
  | .connect sockid (some dst) _ _ _ =>
    !(h.smap sockid.toNat).explicit && h.ap.isSome &&
      !(d == some dst && h.core.numCpus == h.core.numQueues)
  | _ => false

/-- Runs in which no connection strays, with the destination the pool was filled for. -/
def coreRuns : Noting Host Call (Option SockAddr) where
  apply := Host.apply
  note d _ call := call.prepares d
  allowed d h call := call.enabled h && !call.strays d h

/-! ## What the calls leave alone -/

namespace Host

/-- The configuration and the pool of the core. -/
def base (h : Host) : CoreConfig × Option AddrPool := (h.core, h.ap)

theorem base_of_rest {h h' : Host} (hrest : h'.rest = h.rest) : h'.base = h.base :=
  congrArg (fun r => (r.1, r.2.1)) hrest

theorem base_listenOn (i : ℕ) (backlog : ℤ) (mem : ListenMem) (h : Host) :
    (h.listenOn i backlog mem).1.base = h.base := by
  rcases listenOn_outcome i backlog mem h with ⟨e, hout⟩ | hout
  · rw [hout]
  · rw [hout]
    rfl

theorem base_mtcpListen (sockid backlog : ℤ) (mem : ListenMem) (h : Host) :
    (h.mtcpListen sockid backlog mem).1.base = h.base := by
  unfold mtcpListen
  simp only
  split_ifs <;> first | rfl | exact base_listenOn ..

theorem base_mtcpAccept (sockid : ℤ) (interrupted : Bool) (h : Host) :
    (h.mtcpAccept sockid interrupted).1.base = h.base := by
  unfold mtcpAccept
  simp only
  split
  · rfl
  · split
    · rfl
    · split
      · split
        · exact (base_of_rest (rest_acceptStream ..)).trans rfl
        · split_ifs <;> rfl
        · rfl
      · rfl

theorem base_closeListeningSocket (i : ℕ) (h : Host) :
    (h.closeListeningSocket i).1.base = h.base := by
  unfold closeListeningSocket
  split
  · split <;> rfl
  · rfl
  · rfl

theorem base_mtcpClose (sockid : ℤ) (h : Host) : (h.mtcpClose sockid).1.base = h.base := by
  have hfree : ∀ i h', (freeSocket i h').base = h'.base := fun i h' =>
    base_of_rest (rest_freeSocket i h')
  unfold mtcpClose
  simp only
  split
  · rfl
  · split
    case h_2 => exact (hfree ..).trans (base_of_rest (rest_closeStreamSocket ..))
    case h_3 => exact (hfree ..).trans (base_closeListeningSocket ..)
    all_goals first | rfl | exact hfree ..

theorem base_offerStream (sid : ℕ) (h : Host) : (h.offerStream sid).base = h.base := by
  unfold offerStream
  split
  · rfl
  · split
    · split <;> rfl
    · rfl

end Host

/-! ## The pool of the core -/

/-- Every address of the pool is received on the core when it connects to `d`. -/
def AddrPool.FilledFor (ap : AddrPool) (core : CoreConfig) (d : Option SockAddr) : Prop :=
  ∃ dst, d = some dst ∧ ∀ e ∈ ap.freeList ++ ap.usedList,
    poolRssCore e dst core.numCpus core.endianCheck = some core.cpu

/-- The configuration is the one of the start, and the pool is filled for `d`. -/
structure Host.Grounded (core : CoreConfig) (h : Host) (d : Option SockAddr) : Prop where
  core_eq : h.core = core
  filled : ∀ {ap}, h.ap = some ap → ap.FilledFor core d

namespace Host.Grounded

variable {core : CoreConfig} {h h' : Host} {d : Option SockAddr}

theorem of_base (hg : Grounded core h d) (hbase : h'.base = h.base) : Grounded core h' d := by
  obtain ⟨hcore, hap⟩ := Prod.mk.inj hbase
  exact ⟨hcore.trans hg.core_eq, fun h => hg.filled (hap ▸ h)⟩

/-- The pool is exchanged for another with the same addresses. -/
theorem of_perm (hg : Grounded core h d) (hcore : h'.core = h.core) {ap ap' : AddrPool}
    (hap : h.ap = some ap) (hap' : h'.ap = some ap')
    (hperm : (ap'.freeList ++ ap'.usedList).Perm (ap.freeList ++ ap.usedList)) :
    Grounded core h' d := by
  refine ⟨hcore.trans hg.core_eq, fun {p} hp => ?_⟩
  obtain rfl : ap' = p := Option.some.inj (hap'.symm.trans hp)
  obtain ⟨dst, hd, hall⟩ := hg.filled hap
  exact ⟨dst, hd, fun e he => hall e (hperm.mem_iff.mp he)⟩

theorem fetchSource (hg : Grounded core h d) {dst saddr a : SockAddr}
    (hfetch : h.fetchSource dst saddr = .ok (h', a)) : Grounded core h' d := by
  unfold Host.fetchSource at hfetch
  split at hfetch
  case h_1 ap hap =>
    split at hfetch
    case h_1 => cases hfetch
    case h_2 hget =>
      cases hfetch
      obtain ⟨hfree, rfl⟩ := fetchAddressPerCore_spec hget
      exact hg.of_perm rfl hap rfl (AddrPool.use_perm hfree)
  case h_2 =>
    split at hfetch
    · cases hfetch
    · split at hfetch
      · cases hfetch
      · cases hfetch
        exact hg.of_base rfl

theorem mtcpConnect (hg : Grounded core h d) (sockid : ℤ) (addr : Option SockAddr) (inet : Bool)
    (mem : StreamMem) (waited : Option TcpState) :
    Grounded core (h.mtcpConnect sockid addr inet mem waited).1 d := by
  have hconnect : ∀ i dst, Grounded core (h.connectSocket i dst mem waited).1 d := by
    intro i dst
    unfold Host.connectSocket
    simp only
    split
    · split
      · exact hg.of_base (Host.base_of_rest (Host.rest_openStream ..))
      · exact hg
    · split
      · exact hg
      · next hget =>
        exact (hg.fetchSource hget).of_base (Host.base_of_rest (Host.rest_openStream ..))
  unfold Host.mtcpConnect
  simp only
  iterate 3 (split; · exact hg)
  split
  · exact hg
  · split
    · exact hg
    · split
      · exact hconnect ..
      · split
        · exact hg.of_base rfl
        · split <;> exact hg
      · exact hg

theorem mtcpInitRss (hg : Grounded core h d) (base : U32) (numAddr : ℕ) (daddr : SockAddr)
    (memory : Bool) : Grounded core (h.mtcpInitRss base numAddr daddr memory).1 (some daddr) := by
  have hnone : ∀ {h'}, h'.core = h.core → h'.ap = none → Grounded core h' (some daddr) := by
    intro h' hcore hap
    refine ⟨hcore.trans hg.core_eq, fun h => ?_⟩
    rw [hap] at h
    cases h
  have hcreate : ∀ b, Grounded core { h with
      ap := some (createAddressPoolPerCore h.core.cpu h.core.numCpus h.core.endianCheck b numAddr
        daddr)
      apGen := h.apGen + 1 } (some daddr) := by
    intro b
    refine ⟨hg.core_eq, fun {ap} hap => ?_⟩
    cases hap
    rw [hg.core_eq]
    exact ⟨daddr, rfl, fun e he => createAddressPoolPerCore_core he⟩
  unfold Host.mtcpInitRss
  simp only
  split
  · split
    · exact hnone rfl rfl
    · split
      · exact hnone rfl rfl
      · split
        · exact hcreate _
        · exact hnone rfl rfl
  · split
    · exact hcreate _
    · exact hnone rfl rfl

theorem destroyTCPStream (hg : Grounded core h d) (sid : ℕ) :
    Grounded core (h.destroyTCPStream sid) d := by
  have hreturn : ∀ {h' : Host} {a}, Grounded core h' d → Grounded core (h'.returnAddress sid a) d := by
    intro h' a hg'
    unfold Host.returnAddress
    split
    case h_1 ap hap =>
      split
      case h_1 hfreed => exact hg'.of_perm rfl hap rfl (freeAddress_spec hfreed).1
      case h_2 => exact hg'.of_base rfl
      case h_3 => exact hg'
    case h_2 =>
      split
      · exact hg'
      · exact hg'.of_base rfl
      · split
        · exact hg'.of_base rfl
        · exact hg'.of_base rfl
        · exact hg'
        · exact hg'
  unfold Host.destroyTCPStream
  split
  · exact hg.of_base rfl
  · simp only
    split
    · exact hreturn (hg.of_base rfl)
    · exact hg.of_base rfl

theorem apply (hg : Grounded core h d) (call : Call) :
    Grounded core (h.apply call) (call.prepares d) := by
  cases call with
  | socket => exact hg.of_base (Host.base_of_rest (Host.rest_mtcpSocket h))
  | setNonblock sockid =>
    exact hg.of_base (Host.base_of_rest (Host.rest_mtcpSetsockNonblock sockid h))
  | bind sockid addr inet =>
    exact hg.of_base (Host.base_of_rest (Host.rest_mtcpBind sockid addr inet h))
  | listen sockid backlog mem => exact hg.of_base (Host.base_mtcpListen sockid backlog mem h)
  | accept sockid interrupted => exact hg.of_base (Host.base_mtcpAccept sockid interrupted h)
  | initRss base numAddr daddr memory => exact hg.mtcpInitRss base numAddr daddr memory
  | connect sockid addr inet mem waited => exact hg.mtcpConnect sockid addr inet mem waited
  | close sockid => exact hg.of_base (Host.base_mtcpClose sockid h)
  | syn rem loc mem => exact hg.of_base (Host.base_of_rest (Host.rest_synArrives rem loc mem h))
  | offer sid => exact hg.of_base (Host.base_offerStream sid h)
  | stack sid s =>
    simp only [Host.apply]
    split <;> exact hg.of_base rfl
  | dequeueConnect => exact hg.of_base rfl
  | destroy sid => exact hg.destroyTCPStream sid
  | events i pending => exact hg.of_base rfl

end Host.Grounded

theorem coreRuns_grounded {cfg : Config} {core : CoreConfig} {net : NetConfig} {h : Host}
    {d : Option SockAddr} (hrun : coreRuns.Run (Host.init cfg core net) none h d) :
    h.Grounded core d :=
  hrun.invariant (P := Host.Grounded core) ⟨rfl, fun hap => by cases hap⟩
    fun {_ _ call} hg _ => hg.apply call

/-! ## New streams -/

namespace Host

variable {h h' : Host} {sid : ℕ} {f : Flow}

theorem openStream_key {i : ℕ} {dst : SockAddr} {bound : Bool} {mem : StreamMem}
    {waited : Option TcpState} (hnew : h.streams sid = none)
    (hopened : (h.openStream i dst bound mem waited).1.streams sid = some f) :
    f.key = ((h.smap i).saddr, dst) := by
  obtain ⟨g, hkey, -, hview⟩ := view_openStream i dst bound mem waited h
  have hstreams := congrArg (·.streams sid) hview
  simp only [view_streams, hopened] at hstreams
  split_ifs at hstreams
  · rcases FlowView.update_live hstreams.symm with ⟨-, rfl⟩ | ⟨-, hold⟩
    · exact hkey
    · rw [view_streams, hnew] at hold
      cases hold
  · rw [view_streams, hnew] at hstreams
    cases hstreams

/-- An address from a pool is received on the core, if the pool of the core is filled for the
destination. -/
theorem fetchSource_core {dst saddr a : SockAddr}
    (hpool : ∀ {ap}, h.ap = some ap → ∀ e ∈ ap.freeList,
      connectRssCore e dst h.core.numQueues h.core.endianCheck = some h.core.cpu)
    (hfetch : h.fetchSource dst saddr = .ok (h', a)) :
    connectRssCore a dst h.core.numQueues h.core.endianCheck = some h.core.cpu := by
  unfold fetchSource at hfetch
  split at hfetch
  case h_1 ap hap =>
    split at hfetch
    case h_1 => cases hfetch
    case h_2 hget =>
      cases hfetch
      exact hpool hap a (fetchAddressPerCore_spec hget).1
  case h_2 =>
    split at hfetch
    case h_1 => cases hfetch
    case h_2 =>
      split at hfetch
      case h_1 => cases hfetch
      case h_2 hget =>
        cases hfetch
        obtain ⟨ap, -, hget'⟩ := Option.bind_eq_some_iff.mp hget
        rw [← fetchRssCore_eq]
        exact (fetchAddress_spec hget').2.1

theorem connectSocket_core {i : ℕ} {dst : SockAddr} {mem : StreamMem} {waited : Option TcpState}
    (hpool : (h.smap i).explicit = false → ∀ {ap}, h.ap = some ap → ∀ e ∈ ap.freeList,
      connectRssCore e dst h.core.numQueues h.core.endianCheck = some h.core.cpu)
    (hnew : h.streams sid = none)
    (hopened : (h.connectSocket i dst mem waited).1.streams sid = some f) :
    connectRssCore f.src f.dst h.core.numQueues h.core.endianCheck = some h.core.cpu := by
  have hsame : ∀ {h' : Host}, h'.streams = h.streams → h'.streams sid ≠ some f := by
    intro h' heq
    rw [heq, hnew]
    nofun
  unfold connectSocket at hopened
  simp only at hopened
  split at hopened
  case isTrue =>
    split at hopened
    case isTrue hcore =>
      obtain ⟨hsrc, hdst⟩ := Prod.mk.inj (openStream_key hnew hopened)
      rw [hsrc, hdst, hcore]
    case isFalse => exact absurd hopened (hsame rfl)
  case isFalse hexp =>
    split at hopened
    case h_1 => exact absurd hopened (hsame rfl)
    case h_2 h' a hget =>
      obtain ⟨pid, hfetch⟩ := fetchSource_spec hget
      have hfrom := hfetch.frame.1
      have hnew' : h'.streams sid = none := (congrFun hfrom sid).trans hnew
      obtain ⟨hsrc, hdst⟩ := Prod.mk.inj (openStream_key (h := h'.setSocket i _) hnew' hopened)
      rw [hdst, hsrc]
      simp only [setSocket, Function.update_self]
      exact fetchSource_core (hpool (by simpa using hexp)) hget

end Host

/-- While `mtcp_connect` from the pool of the core goes to the destination of the last
`mtcp_init_rss`, and there are as many queues as cores, every stream it creates is received on the
core it belongs to, in both directions. -/
theorem connects_stay_on_core {cfg : Config} {core : CoreConfig} {net : NetConfig} {h : Host}
    {d : Option SockAddr} (hrun : coreRuns.Run (Host.init cfg core net) none h d) {sockid : ℤ}
    {addr : Option SockAddr} {inet : Bool} {mem : StreamMem} {waited : Option TcpState}
    (hsafe : Call.strays d h (.connect sockid addr inet mem waited) = false) {sid : ℕ} {f : Flow}
    (hnew : h.streams sid = none)
    (hopened : (h.apply (.connect sockid addr inet mem waited)).streams sid = some f) :
    connectRssCore f.src f.dst core.numQueues core.endianCheck = some core.cpu ∧
      connectRssCore f.dst f.src core.numQueues core.endianCheck = some core.cpu := by
  have hg := coreRuns_grounded hrun
  suffices hcore : connectRssCore f.src f.dst core.numQueues core.endianCheck = some core.cpu from
    ⟨hcore, (getRSSCPUCore_congr _ _ (getRSSHash_exchange _ _ _ _)).trans hcore⟩
  have hsame : h.streams sid ≠ some f := by
    rw [hnew]
    nofun
  simp only [Host.apply] at hopened
  unfold Host.mtcpConnect at hopened
  simp only at hopened
  iterate 3 (split at hopened; · exact absurd hopened hsame)
  split at hopened
  case h_1 => exact absurd hopened hsame
  case h_2 dst =>
    split at hopened
    · exact absurd hopened hsame
    · split at hopened
      case h_1 =>
        rw [← hg.core_eq]
        refine Host.connectSocket_core (fun hexp {ap} hap e he => ?_) hnew hopened
        have hprepared : d = some dst ∧ h.core.numCpus = h.core.numQueues := by
          simpa [Call.strays, hexp, hap] using hsafe
        obtain ⟨dst', hd, hall⟩ := hg.filled hap
        obtain rfl : dst = dst' := Option.some.inj (hprepared.1.symm.trans hd)
        rw [← poolRssCore_eq, ← hprepared.2, hg.core_eq]
        exact hall e (List.mem_append_left _ he)
      case h_2 =>
        split at hopened
        · exact absurd hopened hsame
        · split at hopened <;> exact absurd hopened hsame
      case h_3 => exact absurd hopened hsame

/-! ### Another destination, and another number of queues -/

/-- The first core of several. -/
def firstCore (numCpus numQueues : U32) : CoreConfig where
  cpu := 0
  numCpus := numCpus
  numQueues := numQueues
  endianCheck := false
  maxConcurrency := 2
  connectqSize := 10240

/-- A socket, after `mtcp_init_rss` for a destination. -/
def preparedHost (core : CoreConfig) (prepared : SockAddr) : Host :=
  ((Host.init (smallHost 2).cfg core (smallHost 2).net).apply
    (.initRss 0x0100000A 1 prepared true)).apply .socket

theorem preparedHost_reached (core : CoreConfig) (prepared : SockAddr) :
    Host.Reached (fun _ => False) (smallHost 2).cfg core (smallHost 2).net
      (preparedHost core prepared) :=
  .call (.call .init rfl fun _ => False.elim) rfl fun _ => False.elim

/-- The core that receives the stream 0. -/
def Host.receives (h : Host) : Option U32 :=
  (h.streams 0).bind fun f => connectRssCore f.src f.dst h.core.numQueues h.core.endianCheck

/-- A connection from core 0 to another port than the pool was filled for is received on core 1,
and one to the right port on core 2 when there are four cores and three queues. -/
theorem connects_leave_core :
    (Host.Reached (fun _ => False) (smallHost 2).cfg (firstCore 2 2) (smallHost 2).net
        (preparedHost (firstCore 2 2) clientAddr) ∧
      (preparedHost (firstCore 2 2) clientAddr).receives = none ∧
      ((preparedHost (firstCore 2 2) clientAddr).apply
        (.connect 0 (some ⟨0x0900000A, 0x5200⟩) true ⟨true, true, 7⟩ none)).receives = some 1) ∧
    Host.Reached (fun _ => False) (smallHost 2).cfg (firstCore 4 3) (smallHost 2).net
        (preparedHost (firstCore 4 3) clientAddr) ∧
      (preparedHost (firstCore 4 3) clientAddr).receives = none ∧
      ((preparedHost (firstCore 4 3) clientAddr).apply
        (.connect 0 (some clientAddr) true ⟨true, true, 7⟩ none)).receives = some 2 := by
  refine ⟨⟨preparedHost_reached _ _, ?_⟩, preparedHost_reached _ _, ?_⟩
  all_goals decide +kernel

/-- A connection to the destination the pool was filled for. -/
theorem connects_stay_on_core_prepared :
    ∃ f, ((preparedHost (firstCore 2 2) clientAddr).apply
      (.connect 0 (some clientAddr) true ⟨true, true, 7⟩ none)).streams 0 = some f ∧
      connectRssCore f.dst f.src 2 false = some 0 := by
  have hlegal : coreRuns.legal (Host.init (smallHost 2).cfg (firstCore 2 2) (smallHost 2).net) none
      [.initRss 0x0100000A 1 clientAddr true, .socket] = true := by decide +kernel
  have hrun : coreRuns.Run (Host.init (smallHost 2).cfg (firstCore 2 2) (smallHost 2).net) none
      (preparedHost (firstCore 2 2) clientAddr) (some clientAddr) := .after .start hlegal
  have hnew : (preparedHost (firstCore 2 2) clientAddr).streams 0 = none :=
    Option.isNone_iff_eq_none.mp (by decide +kernel)
  obtain ⟨f, hopened⟩ := Option.isSome_iff_exists.mp
    (show (((preparedHost (firstCore 2 2) clientAddr).apply
      (.connect 0 (some clientAddr) true ⟨true, true, 7⟩ none)).streams 0).isSome = true by
        decide +kernel)
  exact ⟨f, hopened, (connects_stay_on_core hrun (by decide +kernel) hnew hopened).2⟩

end MtcpStack
