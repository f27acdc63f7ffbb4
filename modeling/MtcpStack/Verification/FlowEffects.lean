import Mathlib.Logic.Relation
import Mathlib.Tactic.Simps.Basic
import MtcpStack.Verification.AddrPool
import MtcpStack.Verification.HostFrames

/-! # What a call does to the flows and the pools

`FlowView` is the part of a host that matters for the flow table and the address pools.
`FlowEffect` lists every change a call or a step of the stack makes to it. The hazards name the
situations in which an address comes to be used by two streams or is lost. -/

namespace MtcpStack

/-! ## The view -/

structure FlowView where
  net : NetConfig
  ap : Option AddrPool
  apGen : ℕ
  pools : List AddrPool
  streams : ℕ → Option Flow
  flowTable : ℕ → List ℕ
  gId : ℕ
  log : List PoolAct

@[simps] def Host.view (h : Host) : FlowView where
  net := h.net
  ap := h.ap
  apGen := h.apGen
  pools := h.pools
  streams := h.streams
  flowTable := h.flowTable
  gId := h.gId
  log := h.log

namespace FlowView

/-- The pools `mtcp_connect` takes addresses from at this moment. -/
def active (v : FlowView) : List AddrPool :=
  match v.ap with
  | some ap => [ap]
  | none => v.pools

/-- A stream to `dst` uses an address that a pool could hand out, without having it from there. -/
def Shared (v : FlowView) (dst : SockAddr) : Prop :=
  ∃ sid f, v.streams sid = some f ∧ f.isBoundAddr = false ∧ f.dst = dst ∧
    ∃ ap ∈ v.active, ap.mapped f.src = true

def search (v : FlowView) (key : SockAddr × SockAddr) : Option ℕ :=
  (v.flowTable (Host.hashFlow key)).find? fun sid => (v.streams sid).map Flow.key == some key

/-- A new stream in the table. -/
def insert (f : Flow) (v : FlowView) : FlowView :=
  { v with
    streams := Function.update v.streams v.gId (some f)
    flowTable := Function.update v.flowTable (Host.hashFlow f.key)
      (v.flowTable (Host.hashFlow f.key) ++ [v.gId])
    gId := v.gId + 1 }

/-- A stream taken out of the table. -/
def remove (sid : ℕ) (f : Flow) (v : FlowView) : FlowView :=
  { v with
    streams := Function.update v.streams sid none
    flowTable := Function.update v.flowTable (Host.hashFlow f.key)
      ((v.flowTable (Host.hashFlow f.key)).erase sid) }

/-- The address `a` is taken from the pool `pid` for the next stream. -/
def Fetches (v : FlowView) (pid : PoolId) (a : SockAddr) (v' : FlowView) : Prop :=
  (∃ ap, v.ap = some ap ∧ a ∈ ap.freeList ∧ pid = .perCore v.apGen ∧
      v' = { v with ap := some (ap.use a), log := v.log ++ [.fetched v.gId pid a] }) ∨
    v.ap = none ∧ ∃ i ap, v.pools[i]? = some ap ∧ a ∈ ap.freeList ∧ pid = .global i ∧
      v' = { v with
        pools := v.pools.set i (ap.use a), log := v.log ++ [.fetched v.gId pid a] }

/-- The address of a destroyed stream goes back. -/
def giveBack (sid : ℕ) (a : SockAddr) (v : FlowView) : FlowView :=
  match v.ap with
  | some ap =>
    match freeAddress ap a with
    | .freed ap => { v with ap := some ap, log := v.log ++ [.returned sid (.perCore v.apGen) a] }
    | _ => v
  | none =>
    match (getOutputInterface v.net a.addr).map (nifToEidx v.net) with
    | some (some eidx) =>
      match (v.pools[eidx]?).map (freeAddress · a) with
      | some (.freed ap) =>
        { v with
          pools := v.pools.set eidx ap
          log := v.log ++ [.returned sid (.global eidx) a] }
      | _ => v
    | _ => v

end FlowView

/-! ## Hazards -/

inductive HostHazard where
  /-- `mtcp_connect` from an explicit address whose 4-tuple is in use, or from a pool although a
  stream to the same peer uses an address of the pool behind its back -/
  | sharedAddress
  /-- `mtcp_init_rss` changes the pool while streams hold addresses of one -/
  | replacedPool
  /-- there is no memory for a stream with an address from a pool, or its locks cannot be
  initialised -/
  | lostAddress

/-- The call is an instance of the hazard. -/
def HostHazard.hits (h : Host) : HostHazard → Call → Prop
  | .sharedAddress, .connect sockid (some dst) _ _ _ =>
    if (h.smap sockid.toNat).explicit then
      h.streamHTSearch ((h.smap sockid.toNat).saddr, dst) ≠ none
    else h.view.Shared dst
  | .replacedPool, .initRss .. => ∃ sid f, h.streams sid = some f ∧ f.isBoundAddr = true
  | .lostAddress, .connect sockid _ _ mem _ =>
    (h.smap sockid.toNat).explicit = false ∧ (mem.chunks = false ∨ mem.locks = false)
  | _, _ => False

/-! ## Effects -/

/-- The changes a call makes to the view when the hazards in `avoid` do not occur. -/
inductive FlowEffect (avoid : HostHazard → Prop) : FlowView → FlowView → Prop
  | same {v} : FlowEffect avoid v v
  | touched {v sid f f'} (hlive : v.streams sid = some f) (hkey : f'.key = f.key)
      (hbound : f'.isBoundAddr = f.isBoundAddr) :
      FlowEffect avoid v { v with streams := Function.update v.streams sid (some f') }
  | opened {v f} (hbound : f.isBoundAddr = false)
      (hnew : avoid .sharedAddress → v.search f.key = none) : FlowEffect avoid v (v.insert f)
  | fetched {v v' pid a} (hfetch : v.Fetches pid a v') (hlost : ¬ avoid .lostAddress) :
      FlowEffect avoid v v'
  | openedFrom {v v' f pid} (hfetch : v.Fetches pid f.src v')
      (hbound : avoid .lostAddress → f.isBoundAddr = true)
      (hshare : avoid .sharedAddress → ¬ v.Shared f.dst) : FlowEffect avoid v (v'.insert f)
  | replaced {v ap gen} (hsound : ∀ p, ap = some p → p.Sound)
      (hfree : avoid .replacedPool → ∀ sid f, v.streams sid = some f → f.isBoundAddr = false) :
      FlowEffect avoid v { v with ap := ap, apGen := gen }
  | destroyed {v sid f} (hlive : v.streams sid = some f) :
      FlowEffect avoid v
        (if f.isBoundAddr then (v.remove sid f).giveBack sid f.src else v.remove sid f)

/-! ## Operations that leave the view alone -/

namespace Host

variable {avoid : HostHazard → Prop}

@[simp] theorem view_allocateSocket (t : SockType) (h : Host) :
    (h.allocateSocket t).1.view = h.view := by
  unfold allocateSocket
  simp only
  split <;> rfl

@[simp] theorem view_freeSocket (i : ℕ) (h : Host) : (freeSocket i h).view = h.view := by
  unfold freeSocket
  simp only
  split <;> rfl

theorem view_mtcpSocket (h : Host) : h.mtcpSocket.1.view = h.view := by
  have halloc := view_allocateSocket .stream h
  unfold mtcpSocket
  split <;> next heq => rwa [heq] at halloc

theorem view_mtcpSetsockNonblock (sockid : ℤ) (h : Host) :
    (h.mtcpSetsockNonblock sockid).1.view = h.view := by
  unfold mtcpSetsockNonblock
  split_ifs <;> rfl

theorem view_mtcpBind (sockid : ℤ) (addr : Option SockAddr) (inet : Bool) (h : Host) :
    (h.mtcpBind sockid addr inet).1.view = h.view := by
  unfold mtcpBind
  cases addr <;> simp only <;> split_ifs <;> rfl

theorem view_listenOn (i : ℕ) (backlog : ℤ) (mem : ListenMem) (h : Host) :
    (h.listenOn i backlog mem).1.view = h.view := by
  rcases listenOn_outcome i backlog mem h with ⟨e, hout⟩ | hout
  · rw [hout]
  · rw [hout]
    rfl

theorem view_mtcpListen (sockid backlog : ℤ) (mem : ListenMem) (h : Host) :
    (h.mtcpListen sockid backlog mem).1.view = h.view := by
  unfold mtcpListen
  simp only
  split_ifs <;> first | rfl | exact view_listenOn ..

theorem view_offerStream (sid : ℕ) (h : Host) : (h.offerStream sid).view = h.view := by
  unfold offerStream
  split
  · rfl
  · split
    · split <;> rfl
    · rfl

theorem view_queueConnect (i sid : ℕ) (waited : Option TcpState) (h : Host) :
    (h.queueConnect i sid waited).1.view = h.view := by
  unfold queueConnect
  simp only
  split
  · split
    · rfl
    · cases waited with
      | none => rfl
      | some s => simp only; split_ifs <;> rfl
  · rfl

theorem view_closeListeningSocket (i : ℕ) (h : Host) :
    (h.closeListeningSocket i).1.view = h.view := by
  unfold closeListeningSocket
  split
  · split <;> rfl
  · rfl
  · rfl

/-! ## Streams that stay -/

theorem setStream_effect {h : Host} {sid : ℕ} {f f' : Flow} (hlive : h.streams sid = some f)
    (hkey : f'.key = f.key) (hbound : f'.isBoundAddr = f.isBoundAddr) :
    FlowEffect avoid h.view (h.setStream sid f').view :=
  .touched hlive hkey hbound

theorem acceptStream_effect (sid : ℕ) (h : Host) :
    FlowEffect avoid h.view (h.acceptStream sid).1.view := by
  unfold acceptStream
  split
  case h_1 => exact .same
  case h_2 f hlive =>
    split
    case h_1 => exact .same
    case h_2 =>
      have halloc := view_allocateSocket .stream h
      split
      case h_1 heq => exact (heq ▸ halloc) ▸ .same
      case h_2 heq => exact (heq ▸ halloc) ▸ .same
      case h_3 h' i heq =>
        rw [heq] at halloc
        rw [← halloc]
        have hlive' := congrArg (·.streams sid) halloc
        exact setStream_effect (h := h'.setSocket i _) (hlive'.trans hlive) rfl rfl

theorem mtcpAccept_effect (sockid : ℤ) (interrupted : Bool) (h : Host) :
    FlowEffect avoid h.view (h.mtcpAccept sockid interrupted).1.view := by
  unfold mtcpAccept
  simp only
  split
  · exact .same
  · split
    · exact .same
    · split
      · split
        · next l _ _ i backlog sid rest _ =>
          exact acceptStream_effect sid (setListener l ⟨i, backlog, some rest⟩ h)
        · split_ifs <;> exact .same
        · exact .same
      · exact .same

theorem closeStreamSocket_effect (i : ℕ) (h : Host) :
    FlowEffect avoid h.view (h.closeStreamSocket i).1.view := by
  unfold closeStreamSocket
  split
  case h_2 => exact .same
  case h_1 sid _ =>
    split
    case h_1 => exact .same
    case h_2 f hlive =>
      let g := { f with
        sockid := none, stream := { f.stream with closed := true, socket := none } }
      have heff : FlowEffect avoid h.view (h.setStream sid g).view := setStream_effect hlive rfl rfl
      simp only
      split
      · exact .same
      · split <;> exact heff

theorem mtcpClose_effect (sockid : ℤ) (h : Host) :
    FlowEffect avoid h.view (h.mtcpClose sockid).1.view := by
  unfold mtcpClose
  simp only
  split
  · exact .same
  · split
    case h_2 =>
      rw [view_freeSocket]
      exact closeStreamSocket_effect ..
    case h_3 =>
      rw [view_freeSocket, view_closeListeningSocket]
      exact .same
    all_goals simp only [view_freeSocket]; exact .same

/-! ## New streams -/

/-- The record `CreateTCPStream` fills in. -/
def newFlow (h : Host) (mem : StreamMem) (sockid : Option ℕ) (src dst : SockAddr) : Flow :=
  ⟨src, dst, false, sockid, MtcpStack.createTCPStream h.cfg mem.iss
    (sockid.map fun i => (h.smap i).toSocket)⟩

theorem view_createTCPStream (mem : StreamMem) (sockid : Option ℕ) (src dst : SockAddr)
    (h : Host) :
    (h.createTCPStream mem sockid src dst).1.view =
      if mem.chunks then h.view.insert (h.newFlow mem sockid src dst) else h.view := by
  unfold createTCPStream
  split
  · cases sockid <;> rfl
  · rfl

theorem synArrives_effect (rem loc : SockAddr) (mem : StreamMem) (h : Host) :
    FlowEffect avoid h.view (h.synArrives rem loc mem).view := by
  unfold synArrives
  split
  · exact .same
  · split
    · next hnone _ =>
      rw [view_createTCPStream]
      split
      · exact .opened rfl fun _ => hnone
      · exact .same
    · exact .same

/-- The stream `mtcp_connect` sets up, as far as the view is concerned. -/
theorem view_openStream (i : ℕ) (dst : SockAddr) (bound : Bool) (mem : StreamMem)
    (waited : Option TcpState) (h : Host) :
    ∃ f : Flow, f.key = ((h.smap i).saddr, dst) ∧ f.isBoundAddr = (bound && mem.locks) ∧
      (h.openStream i dst bound mem waited).1.view =
        if mem.chunks then h.view.insert f else h.view := by
  let f := h.newFlow mem (some i) (h.smap i).saddr dst
  let s : TcpStream := { f.stream with
    cwnd := 1, ssthresh := f.stream.mss.setWidth 32 * 10, state := .synSent }
  refine ⟨if mem.locks then { f with isBoundAddr := bound, stream := s } else f, ?_, ?_, ?_⟩
  · split <;> rfl
  · cases mem.locks <;> simp [f, newFlow]
  · unfold openStream createTCPStream
    split_ifs with hchunks hlocks
    · simp only
      rw [view_queueConnect]
      unfold startStream
      simp only [setStream, streamHTInsert, setSocket, Function.update_self, view,
        Function.update_idem]
      rfl
    · rfl
    · rfl

theorem fetchSource_spec {dst saddr a : SockAddr} {h h' : Host}
    (hfetch : h.fetchSource dst saddr = .ok (h', a)) : ∃ pid, h.view.Fetches pid a h'.view := by
  unfold fetchSource at hfetch
  split at hfetch
  case h_1 ap hap =>
    split at hfetch
    case h_1 => cases hfetch
    case h_2 ap' a' hget =>
      cases hfetch
      obtain ⟨hfree, rfl⟩ := fetchAddressPerCore_spec hget
      exact ⟨_, .inl ⟨ap, hap, hfree, rfl, rfl⟩⟩
  case h_2 hap =>
    split at hfetch
    case h_1 => cases hfetch
    case h_2 nif _ =>
      split at hfetch
      case h_1 => cases hfetch
      case h_2 ap' a' hget =>
        cases hfetch
        obtain ⟨ap, hpool, hget'⟩ := Option.bind_eq_some_iff.mp hget
        obtain ⟨hfree, -, rfl⟩ := fetchAddress_spec hget'
        exact ⟨_, .inr ⟨hap, nif, ap, hpool, hfree, rfl, rfl⟩⟩

theorem connectSocket_effect (i : ℕ) (dst : SockAddr) (mem : StreamMem) (waited : Option TcpState)
    (h : Host)
    (hnew : avoid .sharedAddress → (h.smap i).explicit = true →
      h.streamHTSearch ((h.smap i).saddr, dst) = none)
    (hshare : avoid .sharedAddress → (h.smap i).explicit = false → ¬ h.view.Shared dst)
    (hlost : avoid .lostAddress → (h.smap i).explicit = false →
      ¬ (mem.chunks = false ∨ mem.locks = false)) :
    FlowEffect avoid h.view (h.connectSocket i dst mem waited).1.view := by
  unfold connectSocket
  simp only
  split
  case isTrue hexp =>
    split
    case isFalse => exact .same
    case isTrue =>
      obtain ⟨f, hkey, hb, hview⟩ := view_openStream i dst false mem waited h
      rw [hview]
      split_ifs
      · exact .opened hb fun hav => hkey ▸ hnew hav hexp
      · exact .same
  case isFalse hexp =>
    have hexp' : (h.smap i).explicit = false := by simpa using hexp
    split
    case h_1 => exact .same
    case h_2 h' a hget =>
      obtain ⟨pid, hfetch⟩ := fetchSource_spec hget
      let s := { h.smap i with saddr := a, addrBind := true }
      obtain ⟨f, hkey, hb, hview⟩ := view_openStream i dst true mem waited (h'.setSocket i s)
      have haddr : ((h'.setSocket i s).smap i).saddr = a := by
        simp [setSocket, s]
      rw [haddr] at hkey
      obtain ⟨hsrc, hdst⟩ := Prod.mk.inj hkey
      rw [hview]
      split_ifs with hchunks
      · have hfetch' : h.view.Fetches pid f.src h'.view := hsrc ▸ hfetch
        refine .openedFrom hfetch' (fun hav => ?_) fun hav => hdst ▸ hshare hav hexp'
        have hlocks := (not_or.mp (hlost hav hexp')).2
        simpa [hb] using hlocks
      · exact .fetched hfetch fun hav => hlost hav hexp' (.inl (by simpa using hchunks))

theorem mtcpConnect_effect (sockid : ℤ) (addr : Option SockAddr) (inet : Bool) (mem : StreamMem)
    (waited : Option TcpState) (h : Host)
    (hsafe : ∀ z, avoid z → ¬ z.hits h (.connect sockid addr inet mem waited)) :
    FlowEffect avoid h.view (h.mtcpConnect sockid addr inet mem waited).1.view := by
  unfold mtcpConnect
  simp only
  iterate 3 (split; · exact .same)
  split
  case h_1 => exact .same
  case h_2 dst =>
    split
    · exact .same
    · split
      case h_1 =>
        refine connectSocket_effect _ _ _ _ _ (fun hav hexp => ?_) (fun hav hexp => ?_)
          (fun hav hexp hmem => hsafe _ hav ⟨hexp, hmem⟩)
        · have := hsafe _ hav
          simpa [HostHazard.hits, hexp] using this
        · have := hsafe _ hav
          simpa [HostHazard.hits, hexp] using this
      case h_2 =>
        split
        · exact .same
        · split <;> exact .same
      case h_3 => exact .same

/-! ## The pool of the core -/

theorem mtcpInitRss_effect (base : U32) (numAddr : ℕ) (daddr : SockAddr) (memory : Bool) (h : Host)
    (hnum : numAddr < 2 ^ 31)
    (hsafe : ∀ z, avoid z → ¬ z.hits h (.initRss base numAddr daddr memory)) :
    FlowEffect avoid h.view (h.mtcpInitRss base numAddr daddr memory).1.view := by
  have hreplaced : ∀ (ap : Option AddrPool) (gen : ℕ), (∀ p, ap = some p → p.Sound) →
      FlowEffect avoid h.view { h.view with ap := ap, apGen := gen } := by
    intro ap gen hsound
    refine .replaced hsound fun hav sid f hlive => ?_
    by_contra hbad
    exact hsafe _ hav ⟨sid, f, hlive, by simpa using hbad⟩
  have hnone := hreplaced none h.apGen nofun
  have hcreate : ∀ b, FlowEffect avoid h.view { h.view with
      ap := some (createAddressPoolPerCore h.core.cpu h.core.numCpus h.core.endianCheck b numAddr
        daddr)
      apGen := h.apGen + 1 } := by
    intro b
    refine hreplaced _ _ fun p hp => ?_
    cases hp
    exact createAddressPoolPerCore_sound _ _ _ _ hnum _
  unfold mtcpInitRss
  simp only
  split
  · split
    · exact hnone
    · split
      · exact hnone
      · split
        · exact hcreate _
        · exact hnone
  · split
    · exact hcreate _
    · exact hnone

theorem view_returnAddress (sid : ℕ) (a : SockAddr) (h : Host) :
    (returnAddress sid a h).view = h.view.giveBack sid a := by
  unfold returnAddress FlowView.giveBack
  simp only [view_ap, view_net, view_pools]
  cases hap : h.ap with
  | some ap =>
    simp only
    cases freeAddress ap a <;> simp only [view, hap]
  | none =>
    simp only
    rcases (getOutputInterface h.net a.addr).map (nifToEidx h.net) with _ | _ | eidx
    · rfl
    · simp only [view, hap]
    · simp only
      rcases (h.pools[eidx]?).map (freeAddress · a) with _ | _ | _ | ap <;> simp only [view, hap]

theorem destroyTCPStream_effect {h : Host} {sid : ℕ} {f : Flow} (hlive : h.streams sid = some f) :
    FlowEffect avoid h.view (h.destroyTCPStream sid).view := by
  have hview : (h.destroyTCPStream sid).view =
      if f.isBoundAddr then (h.view.remove sid f).giveBack sid f.src else h.view.remove sid f := by
    unfold destroyTCPStream
    rw [hlive]
    simp only
    split
    · rw [view_returnAddress]
      rfl
    · rfl
  rw [hview]
  exact .destroyed hlive

/-! ## Every call -/

/-- A call or a step of the stack changes the flows and the pools by one of the effects. -/
theorem apply_effect {h : Host} {call : Call} (henabled : call.enabled h = true)
    (hsafe : ∀ z, avoid z → ¬ z.hits h call) : FlowEffect avoid h.view (h.apply call).view := by
  cases call with
  | socket => exact (view_mtcpSocket h).symm ▸ .same
  | setNonblock sockid => exact (view_mtcpSetsockNonblock sockid h).symm ▸ .same
  | bind sockid addr inet => exact (view_mtcpBind sockid addr inet h).symm ▸ .same
  | listen sockid backlog mem => exact (view_mtcpListen sockid backlog mem h).symm ▸ .same
  | accept sockid interrupted => exact mtcpAccept_effect sockid interrupted h
  | initRss base numAddr daddr memory =>
    exact mtcpInitRss_effect base numAddr daddr memory h (of_decide_eq_true henabled) hsafe
  | connect sockid addr inet mem waited => exact mtcpConnect_effect _ _ _ _ _ h hsafe
  | close sockid => exact mtcpClose_effect sockid h
  | syn rem loc mem => exact synArrives_effect rem loc mem h
  | offer sid => exact (view_offerStream sid h).symm ▸ .same
  | stack sid s =>
    obtain ⟨f, hlive⟩ := Option.isSome_iff_exists.mp henabled
    simp only [apply, hlive]
    exact setStream_effect hlive rfl rfl
  | dequeueConnect => exact .same
  | destroy sid =>
    obtain ⟨f, hlive⟩ := Option.isSome_iff_exists.mp henabled
    exact destroyTCPStream_effect hlive
  | events i pending => exact .same

/-! ## Runs -/

/-- The states of a core in the runs that avoid the hazards in `avoid`. -/
inductive Reached (avoid : HostHazard → Prop) (cfg : Config) (core : CoreConfig)
    (net : NetConfig) : Host → Prop
  | init : Reached avoid cfg core net (Host.init cfg core net)
  | call {h call} (hreached : Reached avoid cfg core net h) (henabled : call.enabled h = true)
      (hsafe : ∀ z, avoid z → ¬ z.hits h call) : Reached avoid cfg core net (h.apply call)

theorem Reached.view_induction {cfg : Config} {core : CoreConfig} {net : NetConfig}
    {P : FlowView → Prop} (hinit : P (Host.init cfg core net).view)
    (heffect : ∀ {v v'}, FlowEffect avoid v v' → P v → P v') {h : Host}
    (hreached : Reached avoid cfg core net h) : P h.view := by
  induction hreached with
  | init => exact hinit
  | call _ henabled hsafe ih => exact heffect (apply_effect henabled hsafe) ih

/-- All calls of the list are enabled in turn. -/
def legal (h : Host) : List Call → Bool
  | [] => true
  | call :: calls => call.enabled h && legal (h.apply call) calls

theorem Reached.after {cfg : Config} {core : CoreConfig} {net : NetConfig} {h : Host}
    (hreached : Reached (fun _ => False) cfg core net h) {calls : List Call}
    (hlegal : h.legal calls = true) :
    Reached (fun _ => False) cfg core net (calls.foldl Host.apply h) := by
  induction calls generalizing h with
  | nil => exact hreached
  | cons call calls ih =>
    obtain ⟨henabled, hrest⟩ := Bool.and_eq_true_iff.mp hlegal
    exact ih (hreached.call henabled fun _ => False.elim) hrest

end Host

end MtcpStack
