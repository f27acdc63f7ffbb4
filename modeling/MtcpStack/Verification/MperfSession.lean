import Mathlib.Data.List.Nodup
import MtcpStack.Model.MperfSession
import MtcpStack.Verification.MperfServer

/-! # Agreement of the server and its client

When no two clients have the same address, the control and the data connection of a running server
belong to one client, whose configuration it has. The invariant names the phase in which the server
and the client it serves are; the other clients have received nothing but a denial. -/

namespace MtcpStack.Mperf

/-! ## Whole messages

The steps of the server on messages are those of its loop on bytes. -/

/-- The bytes of a message on the control connection. -/
def CtlMsg.bytes (cjson : Cjson) : CtlMsg → List U8
  | .conf json => jsonWrite (cjson.print json)
  | .state s => [s.code]

/-- A message that the server can read in one go: a configuration when it waits for one, and a
state that announces no configuration. -/
def ServerContext.Expects (ctx : ServerContext) (cjson : Cjson) : CtlMsg → Prop
  | .conf json => cjson.Faithful json ∧ ctx.testState = .paramExchange
  | .state s => s ≠ .paramExchange

theorem handleServerMsg_message (ctx : ServerContext) (env : ReadEnv) {msg : CtlMsg}
    (rest : List U8) (hunread : ctx.unread = []) (hmsg : ctx.Expects env.cjson msg) :
    ((ctx.arrive (msg.bytes env.cjson ++ rest)).handleServerMsg env .written).1
      = (ctx.handleMessage msg).arrive rest := by
  have hswitch : ∀ act u state json,
      (({ ctx.note act with unread := u } : ServerContext).switchServerMsg .written state json).1
        = ((ctx.note act).switchServerMsg .written state json).1.arrive u := by
    intro act u state json
    have hnote : ({ ctx.note act with unread := u } : ServerContext) = (ctx.note act).arrive u := by
      simp [ServerContext.arrive, ServerContext.note, hunread]
    rw [hnote, ServerContext.switchServerMsg_arrive]
  have hfirst : ∀ (b : U8) (tail : List U8), nread (env.want 0) 1 (b :: tail) = ([b], tail) :=
    fun b tail => by simp [nread_eq]
  cases msg with
  | conf json =>
    have hread := jsonRead_append env (env.cjson.print json) rest hmsg.1.2
    simp only [ServerContext.handleServerMsg, ServerContext.arrive, hunread, List.nil_append,
      CtlMsg.bytes, jsonWrite, List.cons_append, hfirst]
    rw [if_pos ⟨rfl, hmsg.2⟩, hread, hmsg.1.1]
    exact hswitch _ _ _ _
  | state s =>
    have hcode : s.code ≠ TestState.paramExchange.code := by
      have hs : s ≠ .paramExchange := hmsg
      revert hs
      cases s <;> decide
    simp only [ServerContext.handleServerMsg, ServerContext.arrive, hunread, List.nil_append,
      CtlMsg.bytes, List.cons_append, hfirst]
    rw [if_neg fun h => hcode h.1]
    exact hswitch _ _ _ _

theorem handleServerMsg_message_conf :
    let msg := CtlMsg.conf (confItems gigabitConf)
    ((greetedServer.arrive (msg.bytes bracesCjson ++ [7])).handleServerMsg bytewiseEnv .written).1 =
      (greetedServer.handleMessage msg).arrive [7] :=
  handleServerMsg_message greetedServer bytewiseEnv [7] rfl ⟨⟨rfl, by decide⟩, rfl⟩

theorem handleServerMsg_closed {ctx : ServerContext} (env : ReadEnv) (write : WriteResult)
    (hunread : ctx.unread = []) : (ctx.handleServerMsg env write).1 = ctx.handleClosed := by
  simp [ServerContext.handleServerMsg, nread_eq, hunread, ServerContext.handleClosed]

theorem serverEvent_data {ctx : ServerContext} (results : List ReadResult)
    (hdata : ctx.datafd ≠ none) :
    (ctx.serverEvent (.data results)).1 = ctx.handleData results := by
  simp only [ServerContext.serverEvent, if_neg hdata, ServerContext.handleData]
  split_ifs <;> rfl

/-! ## The phases of a session -/

/-- A client that the server has not answered. -/
structure Client.Waiting (c : Client) : Prop where
  state : c.testState = .uninit ∨ c.testState = .start
  datafd : c.datafd = none
  inbox : c.inbox = []
  outbox : c.outbox = []

/-- A client that the server does not serve. -/
structure Client.Unserved (c : Client) : Prop where
  state : c.testState = .uninit ∨ c.testState = .start ∨ c.testState = .testEnd
  datafd : c.datafd = none
  inbox : ∀ b ∈ c.inbox, b = TestState.accessDeny.code
  outbox : c.outbox = []

theorem Client.Waiting.unserved {c : Client} (h : c.Waiting) : c.Unserved where
  state := by
    rcases h.state with hs | hs
    · exact .inl hs
    · exact .inr (.inl hs)
  datafd := h.datafd
  inbox := by simp [h.inbox]
  outbox := h.outbox

/-- The server's configuration after it has taken over that of the client. -/
def received (conf : ConnConfig) : ConnConfig := takeItems (confItems conf) initConfig

/-- How far the server and the client it serves have come. -/
inductive Phase (conf : ConnConfig) (s : ServerContext) (c : Client) : Prop where
  /-- the server has accepted the control connection -/
  | greeting (hs : s.testState = .paramExchange) (hc : c.testState = .start)
      (hin : c.inbox = [TestState.paramExchange.code]) (hout : c.outbox = [])
      (hconf : s.connConf = initConfig) (hsdata : s.datafd = none) (hcdata : c.datafd = none)
  /-- the client has sent its configuration -/
  | exchanging (hs : s.testState = .paramExchange) (hc : c.testState = .paramExchange)
      (hin : c.inbox = []) (hout : c.outbox = [.conf (confItems conf)])
      (hconf : s.connConf = initConfig) (hsdata : s.datafd = none) (hcdata : c.datafd = none)
  /-- the server has taken it over -/
  | configured (hs : s.testState = .createStream) (hc : c.testState = .paramExchange)
      (hin : c.inbox = [TestState.createStream.code]) (hout : c.outbox = [])
      (hconf : s.connConf = received conf) (hsdata : s.datafd = none) (hcdata : c.datafd = none)
  /-- the client has opened the data connection -/
  | opening (hs : s.testState = .createStream) (hc : c.testState = .createStream)
      (hin : c.inbox = []) (hout : c.outbox = [])
      (hconf : s.connConf = received conf) (hsdata : s.datafd = none)
  /-- the server has accepted it -/
  | starting (hs : s.testState = .running) (hc : c.testState = .createStream)
      (hin : c.inbox = [TestState.running.code]) (hout : c.outbox = [])
      (hconf : s.connConf = received conf) (hdata : s.datafd = c.datafd)
      (hsome : c.datafd ≠ none)
  | running (hs : s.testState = .running) (hc : c.testState = .running)
      (hin : c.inbox = []) (hout : c.outbox = [])
      (hconf : s.connConf = received conf) (hdata : s.datafd = c.datafd)
      (hsome : c.datafd ≠ none)
  /-- the client has left; the server may still have to read its last message -/
  | left (hs : s.testState ≠ .start) (hc : c.Finished)
      (hout : ∀ m ∈ c.outbox, m = .state .testEnd ∨ m = .state .error)
      (hcreate : s.testState = .createStream → c.datafd = none)
      (hrun : s.testState = .running →
        s.connConf = received conf ∧ s.datafd = c.datafd ∧ c.datafd ≠ none)

namespace Phase

variable {conf : ConnConfig} {ctx : ServerContext} {c : Client}

/-- A client that has finished has left its session. -/
theorem of_finished (h : Phase conf ctx c) (hc : c.Finished) :
    (∀ m ∈ c.outbox, m = .state .testEnd ∨ m = .state .error) := by
  cases h with
  | greeting _ hc' | exchanging _ hc' | configured _ hc' | opening _ hc' | starting _ hc'
  | running _ hc' => simp [Client.Finished, hc'] at hc
  | left _ _ hout => exact hout

/-- A phase does not depend on the bytes that the server has counted. -/
theorem rxBytes (h : Phase conf ctx c) (n : U64) : Phase conf { ctx with rxBytes := n } c := by
  cases h with
  | greeting hs hc hin hout hconf hsdata hcdata =>
    exact .greeting hs hc hin hout hconf hsdata hcdata
  | exchanging hs hc hin hout hconf hsdata hcdata =>
    exact .exchanging hs hc hin hout hconf hsdata hcdata
  | configured hs hc hin hout hconf hsdata hcdata =>
    exact .configured hs hc hin hout hconf hsdata hcdata
  | opening hs hc hin hout hconf hsdata => exact .opening hs hc hin hout hconf hsdata
  | starting hs hc hin hout hconf hdata hsome => exact .starting hs hc hin hout hconf hdata hsome
  | running hs hc hin hout hconf hdata hsome => exact .running hs hc hin hout hconf hdata hsome
  | left hs hc hout hcreate hrun => exact .left hs hc hout hcreate hrun

/-- While the client is there, the data connection of the server is its own. -/
theorem datafd (h : Phase conf ctx c) {d : ℕ} (hd : ctx.datafd = some d) :
    c.Finished ∨ c.datafd = some d := by
  cases h with
  | greeting _ _ _ _ _ hsdata | exchanging _ _ _ _ _ hsdata | configured _ _ _ _ _ hsdata
  | opening _ _ _ _ _ hsdata => simp [hsdata] at hd
  | starting _ _ _ _ _ hdata | running _ _ _ _ _ hdata => exact .inr (hdata ▸ hd)
  | left _ hc => exact .inl hc

end Phase

namespace World

variable {ι : Type} {w w' : World ι} {i : ι} {c : Client} {k : ℕ} {link : Link ι}
  {ctx : ServerContext}

/-! ## Connections -/

/-- Every client has at most one control and one data connection, and a connection that is on its
way to the server is there once. -/
structure Books (w : World ι) : Prop where
  ctl : ∀ i k, (w.client i).ctlfd = some k ↔ w.links[k]? = some ⟨i, true⟩
  data : ∀ i d, (w.client i).datafd = some d ↔ w.links[d]? = some ⟨i, false⟩
  fresh : ∀ i, (w.client i).testState = .uninit → (w.client i).ctlfd = none
  queued : ∀ k ∈ w.backlog ++ w.connecting, k < w.links.length
  nodup : (w.backlog ++ w.connecting).Nodup

/-- A control connection is that of one client. -/
theorem Books.owner_unique (h : Books w) {i j : ι} (hi : (w.client i).ctlfd = some k)
    (hj : (w.client j).ctlfd = some k) : i = j := by
  have hlink := (h.ctl j k).mp hj
  rw [(h.ctl i k).mp hi] at hlink
  exact congrArg Link.owner (Option.some.inj hlink)

/-- What the steps that open no connection do to the connections. -/
structure Kept (w w' : World ι) : Prop where
  links : w'.links = w.links
  ctlfd : ∀ i, (w'.client i).ctlfd = (w.client i).ctlfd
  datafd : ∀ i, (w'.client i).datafd = (w.client i).datafd
  fresh : ∀ i, (w'.client i).testState = .uninit → (w.client i).testState = .uninit
  queued : ∀ k ∈ w'.backlog ++ w'.connecting, k ∈ w.backlog ++ w.connecting
  nodup : (w.backlog ++ w.connecting).Nodup → (w'.backlog ++ w'.connecting).Nodup

theorem Books.kept (h : Books w) (hkept : Kept w w') : Books w' where
  ctl i k := by rw [hkept.ctlfd, hkept.links, h.ctl]
  data i d := by rw [hkept.datafd, hkept.links, h.data]
  fresh i hi := by rw [hkept.ctlfd, h.fresh i (hkept.fresh i hi)]
  queued k hk := by rw [hkept.links]; exact h.queued k (hkept.queued k hk)
  nodup := hkept.nodup h.nodup

/-- A new connection of client `i`, which has none of the kind. -/
theorem Books.connect [DecidableEq ι] (h : Books w) {isCtl : Bool}
    (hctl : c.ctlfd = if isCtl then some w.links.length else (w.client i).ctlfd)
    (hdata : c.datafd = if isCtl then (w.client i).datafd else some w.links.length)
    (hnone : if isCtl then (w.client i).ctlfd = none else (w.client i).datafd = none)
    (hstate : c.testState ≠ .uninit) : Books ((w.connect i isCtl).setClient i c) := by
  have hlink : ∀ (k : ℕ) (l : Link ι), (w.links ++ [⟨i, isCtl⟩])[k]? = some l ↔
      w.links[k]? = some l ∨ k = w.links.length ∧ l = ⟨i, isCtl⟩ := by
    intro k l
    rcases Nat.lt_trichotomy k w.links.length with hk | rfl | hk
    · simp [List.getElem?_append_left hk, hk.ne]
    · simp [eq_comm]
    · have hlen : (w.links ++ ([⟨i, isCtl⟩] : List (Link ι))).length ≤ k := by
        rw [List.length_append, List.length_singleton]
        omega
      simp [List.getElem?_eq_none hlen, List.getElem?_eq_none hk.le, hk.ne']
  refine ⟨?_, ?_, ?_, ?_, ?_⟩
  · intro j k
    simp only [setClient, World.connect, hlink, Link.mk.injEq]
    by_cases hj : j = i
    · subst hj
      rw [Function.update_self, hctl, ← h.ctl]
      cases isCtl with
      | true => simp [show (w.client j).ctlfd = none from hnone, eq_comm]
      | false => simp
    · rw [Function.update_of_ne hj, ← h.ctl]
      simp [hj]
  · intro j k
    simp only [setClient, World.connect, hlink, Link.mk.injEq]
    by_cases hj : j = i
    · subst hj
      rw [Function.update_self, hdata, ← h.data]
      cases isCtl with
      | true => simp
      | false => simp [show (w.client j).datafd = none from by simpa using hnone, eq_comm]
    · rw [Function.update_of_ne hj, ← h.data]
      simp [hj]
  · intro j hj
    by_cases hji : j = i
    · subst hji
      exact absurd (by simpa [setClient] using hj) hstate
    · simp only [setClient, World.connect, Function.update_of_ne hji] at hj ⊢
      exact h.fresh j hj
  · intro k hk
    have hmem : k ∈ w.backlog ++ w.connecting ∨ k = w.links.length := by
      simpa [setClient, World.connect, or_assoc] using hk
    simp only [setClient, World.connect, List.length_append, List.length_singleton]
    rcases hmem with hold | rfl
    · have := h.queued k hold
      omega
    · omega
  · have hnew : w.links.length ∉ w.backlog ++ w.connecting := fun hmem =>
      absurd (h.queued _ hmem) (lt_irrefl _)
    have hqueue : (w.backlog ++ w.connecting ++ [w.links.length]).Nodup := by
      simpa using h.nodup.concat hnew
    simpa [setClient, World.connect] using hqueue

/-! ## The invariant -/

/-- The server waits for its first connection, or serves the client `i` on connection `k`. -/
inductive Session (site : Site ι) (w : World ι) : Prop where
  | idle (hctl : w.server.ctlfd = none) (hdata : w.server.datafd = none)
      (hstate : w.server.testState = .start) (hconf : w.server.connConf = initConfig)
      (hdenied : w.denied = []) (hclients : ∀ j, (w.client j).Waiting)
  | served (i : ι) (k : ℕ) (hctl : w.server.ctlfd = some k) (hlink : (w.client i).ctlfd = some k)
      (hip : w.server.cliIp = site.host i) (hqueue : k ∉ w.backlog ++ w.connecting)
      (hdenied : k ∉ w.denied) (hphase : Phase (site.conf i) w.server (w.client i))
      (hothers : ∀ j, j ≠ i → (w.client j).Unserved)

structure Orderly (site : Site ι) (w : World ι) : Prop where
  books : Books w
  session : Session site w

theorem orderly_init (site : Site ι) : Orderly site {} where
  books := by
    constructor <;> simp
  session := .idle rfl rfl rfl rfl rfl fun _ => ⟨.inl rfl, rfl, rfl, rfl⟩

variable {site : Site ι}

/-! ### Connections on their way to the server -/

theorem Orderly.arrive (h : Orderly site w) (hconn : k ∈ w.connecting) :
    Orderly site (w.arrive k) := by
  have hperm : ((w.arrive k).backlog ++ (w.arrive k).connecting).Perm
      (w.backlog ++ w.connecting) := by
    have herase := List.perm_cons_erase hconn
    simpa [World.arrive] using (herase.symm.append_left w.backlog)
  have hkept : Kept w (w.arrive k) :=
    ⟨rfl, fun _ => rfl, fun _ => rfl, fun _ hi => hi, fun _ => hperm.mem_iff.mp,
      hperm.nodup_iff.mpr⟩
  refine ⟨h.books.kept hkept, ?_⟩
  cases h.session with
  | idle hctl hdata hs hconf hdenied hclients =>
    exact .idle hctl hdata hs hconf hdenied hclients
  | served i k' hctl hlink hip hqueue hdenied hphase hothers =>
    exact .served i k' hctl hlink hip (fun hk => hqueue (hperm.mem_iff.mp hk)) hdenied hphase
      hothers

/-- The first connection of the queue is taken from it. -/
theorem Orderly.dequeue (h : Orderly site w) {rest : List ℕ} (hqueue : w.backlog = k :: rest) :
    Orderly site { w with backlog := rest } ∧ k ∉ rest ++ w.connecting := by
  have hnodup : (k :: (rest ++ w.connecting)).Nodup := by
    simpa [hqueue] using h.books.nodup
  have hmem : ∀ k' ∈ rest ++ w.connecting, k' ∈ w.backlog ++ w.connecting := fun k' hk' => by
    rw [hqueue]
    exact List.mem_cons_of_mem k hk'
  have hkept : Kept w { w with backlog := rest } :=
    ⟨rfl, fun _ => rfl, fun _ => rfl, fun _ hi => hi, hmem, fun _ => (List.nodup_cons.mp hnodup).2⟩
  refine ⟨⟨h.books.kept hkept, ?_⟩, (List.nodup_cons.mp hnodup).1⟩
  cases h.session with
  | idle hctl hdata hs hconf hdenied hclients =>
    exact .idle hctl hdata hs hconf hdenied hclients
  | served i k' hctl hlink hip hnot hdenied hphase hothers =>
    exact .served i k' hctl hlink hip (fun hk => hnot (hmem k' hk)) hdenied hphase hothers

/-- The server denies a connection that is not its control connection. -/
theorem Orderly.deny (h : Orderly site w) (hserved : w.server.ctlfd ≠ none)
    (hk : w.server.ctlfd ≠ some k) : Orderly site { w with denied := w.denied ++ [k] } := by
  refine ⟨h.books.kept ⟨rfl, fun _ => rfl, fun _ => rfl, fun _ hi => hi, fun _ hk => hk, id⟩, ?_⟩
  cases h.session with
  | idle hnone => exact absurd hnone hserved
  | served i k' hctl hlink hip hqueue hdenied hphase hothers =>
    refine .served i k' hctl hlink hip hqueue (fun hmem => ?_) hphase hothers
    rcases List.mem_append.mp hmem with hold | hnew
    · exact hdenied hold
    · exact hk (hctl.trans (congrArg some (List.mem_singleton.mp hnew)))

/-- The client on the control connection of the server, and how far they are. -/
theorem Orderly.phase (h : Orderly site w) (hctl : w.server.ctlfd = some k)
    (hlink : w.links[k]? = some ⟨i, true⟩) :
    (w.client i).ctlfd = some k ∧ Phase (site.conf i) w.server (w.client i) := by
  cases h.session with
  | idle hnone => simp [hnone] at hctl
  | served i' k' hctl' hlink' _ _ _ hphase _ =>
    obtain rfl : k' = k := Option.some.inj (hctl'.symm.trans hctl)
    obtain rfl := h.books.owner_unique ((h.books.ctl i k').mpr hlink) hlink'
    exact ⟨hlink', hphase⟩

variable [DecidableEq ι]

/-! ### A client starts -/

theorem Orderly.start (h : Orderly site w) (hstate : (w.client i).testState = .uninit) :
    Orderly site (w.start i) := by
  have hnone : (w.client i).ctlfd = none := h.books.fresh i hstate
  have hbooks : Books (w.start i) :=
    h.books.connect (by simp) (by simp) (by simpa using hnone) (by simp)
  refine ⟨hbooks, ?_⟩
  have hself : (w.start i).client i
      = { w.client i with ctlfd := some w.links.length, testState := .start } :=
    Function.update_self ..
  have hne : ∀ j, j ≠ i → (w.start i).client j = w.client j := fun j hj =>
    Function.update_of_ne hj ..
  cases h.session with
  | idle hctl hdata hs hconf hdenied hclients =>
    refine .idle hctl hdata hs hconf hdenied fun j => ?_
    by_cases hj : j = i
    · subst hj
      rw [hself]
      exact ⟨.inr rfl, (hclients j).datafd, (hclients j).inbox, (hclients j).outbox⟩
    · rw [hne j hj]
      exact hclients j
  | served i' k hctl hlink hip hqueue hdenied hphase hothers =>
    have hi : i' ≠ i := by
      rintro rfl
      simp [hnone] at hlink
    have hk : k ∉ (w.start i).backlog ++ (w.start i).connecting := by
      have hlt : k < w.links.length :=
        (List.getElem?_eq_some_iff.mp ((h.books.ctl i' k).mp hlink)).1
      simp only [World.start, setClient, World.connect, ← List.append_assoc, List.mem_append,
        List.mem_singleton] at hqueue ⊢
      rintro (hold | rfl)
      · exact hqueue hold
      · exact lt_irrefl _ hlt
    refine .served i' k hctl (by rw [hne i' hi, hlink]) hip hk hdenied
      (by rw [hne i' hi]; exact hphase) fun j hj => ?_
    by_cases hji : j = i
    · subst hji
      rw [hself]
      exact ⟨.inr (.inl rfl), (hothers j hj).datafd, (hothers j hj).inbox, (hothers j hj).outbox⟩
    · rw [hne j hji]
      exact hothers j hj

/-! ### What the server and its client do

Most steps change the server and the client it serves, and no connection. -/

theorem kept_setClient (w : World ι) (ctx : ServerContext)
    (hctl : c.ctlfd = (w.client i).ctlfd) (hdata : c.datafd = (w.client i).datafd)
    (hstate : c.testState = .uninit → (w.client i).testState = .uninit) :
    Kept w ({ w with server := ctx }.setClient i c) := by
  refine ⟨rfl, fun j => ?_, fun j => ?_, fun j => ?_, fun _ hk => hk, id⟩ <;>
    by_cases hj : j = i
  · subst hj
    simpa [setClient] using hctl
  · simp [setClient, Function.update_of_ne hj]
  · subst hj
    simpa [setClient] using hdata
  · simp [setClient, Function.update_of_ne hj]
  · subst hj
    simpa [setClient] using hstate
  · simp [setClient, Function.update_of_ne hj]

/-- The server and the client it serves go on to another phase. -/
theorem Orderly.advance (h : Orderly site w)
    (hctl : w.server.ctlfd = some k) (hlink : (w.client i).ctlfd = some k)
    (hctx : ctx.ctlfd = w.server.ctlfd) (hip : ctx.cliIp = w.server.cliIp)
    (hcctl : c.ctlfd = (w.client i).ctlfd) (hcdata : c.datafd = (w.client i).datafd)
    (hstate : c.testState ≠ .uninit) (hphase : Phase (site.conf i) ctx c) :
    Orderly site ({ w with server := ctx }.setClient i c) := by
  refine ⟨h.books.kept (kept_setClient w ctx hcctl hcdata fun hu => absurd hu hstate), ?_⟩
  have hself : ({ w with server := ctx }.setClient i c).client i = c := Function.update_self ..
  cases h.session with
  | idle hnone => simp [hnone] at hctl
  | served i' k' hctl' hlink' hip' hqueue hdenied _ hothers =>
    obtain rfl : k' = k := Option.some.inj (hctl'.symm.trans hctl)
    obtain rfl := h.books.owner_unique hlink hlink'
    refine .served i k' (hctx.trans hctl') (by rw [hself, hcctl, hlink]) (hip.trans hip') hqueue
      hdenied (by rw [hself]; exact hphase) fun j hj => ?_
    have hne : ({ w with server := ctx }.setClient i c).client j = w.client j :=
      Function.update_of_ne hj ..
    rw [hne]
    exact hothers j hj

theorem post_ctl (w : World ι) (hlink : w.links[k]? = some ⟨i, true⟩) (bytes : List U8) :
    w.post k bytes = w.setClient i { w.client i with inbox := (w.client i).inbox ++ bytes } := by
  simp only [post, hlink]

theorem post_data (w : World ι) (hlink : w.links[k]? = some ⟨i, false⟩)
    (bytes : List U8) : w.post k bytes = w := by
  simp only [post, hlink]

/-- What the server writes goes to the client on its control connection. -/
theorem serve_ctl (w : World ι) (hlink : w.links[k]? = some ⟨i, true⟩) (hctl : ctx.ctlfd = some k) :
    w.serve ctx = { w with server := ctx }.setClient i
      { w.client i with
        inbox := (w.client i).inbox ++ ctx.written.drop w.server.written.length } := by
  simp only [serve, hctl]
  exact post_ctl { w with server := ctx } hlink _

theorem serve_setClient (w : World ι) (c : Client)
    (hlink : w.links[k]? = some ⟨i, true⟩) (hctl : ctx.ctlfd = some k) :
    (w.setClient i c).serve ctx = { w with server := ctx }.setClient i
      { c with inbox := c.inbox ++ ctx.written.drop w.server.written.length } := by
  rw [serve_ctl (w.setClient i c) hlink hctl]
  simp [setClient]

theorem serve_quiet (w : World ι) (hlink : w.links[k]? = some ⟨i, true⟩) (hctl : ctx.ctlfd = some k)
    (hwritten : ctx.written = w.server.written) :
    w.serve ctx = { w with server := ctx }.setClient i (w.client i) := by
  rw [serve_ctl w hlink hctl, hwritten]
  simp

/-! ### Steps of the server -/

/-- The configuration of a client is taken over. -/
theorem handleMessage_conf (conf : ConnConfig)
    (hs : ctx.testState = .paramExchange) (hconf : ctx.connConf = initConfig) :
    ctx.handleMessage (.conf (confItems conf)) =
      { ctx with
        connConf := received conf
        testState := .createStream
        written := ctx.written ++ [TestState.createStream.code]
        log := ctx.log ++ [.message TestState.paramExchange.code] ++ [.state .createStream] } := by
  have happly : applyConf (some (confItems conf)) ctx.connConf = (received conf, true) := by
    simp [applyConf, versionMatches_confItems, hconf, received]
  simp [ServerContext.handleMessage, ServerContext.switchServerMsg, ServerContext.takeConf,
    ServerContext.note, ServerContext.setTestState, ServerContext.setState, hs, happly]

/-- The last message of a client ends the test. -/
theorem handleMessage_last (ctx : ServerContext) {s : TestState} (hs : s = .testEnd ∨ s = .error) :
    ctx.handleMessage (.state s) =
      { ctx with testState := s, log := ctx.log ++ [.message s.code] ++ [.state s] } := by
  rcases hs with rfl | rfl <;> rfl

/-- The server handles a message of its client. -/
theorem Orderly.serverMsg (h : Orderly site w) {msg : CtlMsg} {rest : List CtlMsg}
    (hctl : w.server.ctlfd = some k) (hlink : w.links[k]? = some ⟨i, true⟩)
    (hmsg : (w.client i).outbox = msg :: rest) :
    Orderly site ((w.setClient i { w.client i with outbox := rest }).serve
      (w.server.handleMessage msg)) := by
  obtain ⟨hclient, hphase⟩ := h.phase hctl hlink
  cases hphase with
  | greeting _ _ _ hout | configured _ _ _ hout | opening _ _ _ hout | starting _ _ _ hout
  | running _ _ _ hout => simp [hout] at hmsg
  | exchanging hs hc hin hout hconf hsdata hcdata =>
    rw [hout] at hmsg
    obtain ⟨rfl, rfl⟩ : .conf (confItems (site.conf i)) = msg ∧ [] = rest := List.cons.inj hmsg
    rw [handleMessage_conf _ hs hconf, serve_setClient w _ hlink (by exact hctl)]
    refine h.advance hctl hclient rfl rfl rfl rfl (by simp [hc]) ?_
    exact .configured rfl hc (by simp [hin]) rfl rfl hsdata hcdata
  | left hs hc hout hcreate hrun =>
    obtain ⟨s, rfl, hlast⟩ : ∃ s, msg = .state s ∧ (s = .testEnd ∨ s = .error) := by
      rcases hout msg (by simp [hmsg]) with rfl | rfl
      · exact ⟨_, rfl, .inl rfl⟩
      · exact ⟨_, rfl, .inr rfl⟩
    rw [handleMessage_last _ hlast, serve_setClient w _ hlink (by exact hctl)]
    have hnew : (w.client i).testState ≠ .uninit := by
      rcases hc with hc | hc <;> simp [hc]
    refine h.advance hctl hclient rfl rfl rfl rfl hnew ?_
    refine .left ?_ hc (fun m hm => hout m (by simp [hmsg, hm])) ?_ ?_ <;>
      rcases hlast with rfl | rfl <;> simp

/-- The server ends the test of a client that has finished. -/
theorem Orderly.serverEnds (h : Orderly site w)
    (hctl : w.server.ctlfd = some k) (hlink : w.links[k]? = some ⟨i, true⟩)
    (hc : (w.client i).Finished) (hctx : ctx.ctlfd = w.server.ctlfd)
    (hip : ctx.cliIp = w.server.cliIp) (hwritten : ctx.written = w.server.written)
    (hend : ctx.Finished) : Orderly site (w.serve ctx) := by
  obtain ⟨hclient, hphase⟩ := h.phase hctl hlink
  have hnew : (w.client i).testState ≠ .uninit := by
    rcases hc with hc | hc <;> simp [hc]
  rw [serve_quiet w hlink (hctx.trans hctl) hwritten]
  refine h.advance hctl hclient hctx hip rfl rfl hnew ?_
  refine .left ?_ hc (hphase.of_finished hc) ?_ ?_ <;>
    rcases hend with hend | hend <;> simp [hend]

theorem Orderly.serverClosed (h : Orderly site w)
    (hctl : w.server.ctlfd = some k) (hlink : w.links[k]? = some ⟨i, true⟩)
    (hclosed : (w.client i).Finished) : Orderly site (w.serve w.server.handleClosed) :=
  h.serverEnds hctl hlink hclosed rfl rfl rfl (.inl rfl)

/-- Reading data changes the count of bytes only. -/
theorem mperfRecvLoop_frame (ctx : ServerContext) (nleft : ℤ) (results : List ReadResult) :
    ∃ n, (ctx.mperfRecvLoop nleft results).1 = { ctx with rxBytes := n } := by
  induction results generalizing ctx nleft with
  | nil => exact ⟨_, rfl⟩
  | cons result results ih =>
    unfold ServerContext.mperfRecvLoop
    split_ifs
    · exact ⟨_, rfl⟩
    · cases result with
      | again => exact ⟨_, rfl⟩
      | failed => exact ⟨_, rfl⟩
      | bytes n =>
        dsimp only
        split_ifs
        · exact ⟨_, rfl⟩
        · exact ih _ _

theorem Orderly.serverData (h : Orderly site w) {d : ℕ} {results : List ReadResult}
    (hdata : w.server.datafd = some d) (hlink : w.links[d]? = some link)
    (hfail : (w.server.mperfRecv results).2 = false → (w.client link.owner).Finished) :
    Orderly site (w.serve (w.server.handleData results)) := by
  cases h.session with
  | idle _ hnone => simp [hnone] at hdata
  | served i k hctl hclient _ _ _ hphase _ =>
    have hctlLink := (h.books.ctl i k).mp hclient
    obtain ⟨n, hframe⟩ := mperfRecvLoop_frame w.server w.server.connConf.blksize.toNat results
    have hrecv : (w.server.mperfRecv results).1 = { w.server with rxBytes := n } := hframe
    have hnew : (w.client i).testState ≠ .uninit := by
      intro hu
      simp [h.books.fresh i hu] at hclient
    unfold ServerContext.handleData
    rw [hrecv]
    by_cases hok : (w.server.mperfRecv results).2 = true
    · rw [if_pos hok, serve_quiet w hctlLink (by exact hctl) (by exact rfl)]
      exact h.advance hctl hclient rfl rfl rfl rfl hnew (hphase.rxBytes n)
    · rw [if_neg hok]
      have hfinished : (w.client i).Finished := by
        rcases hphase.datafd hdata with hc | hc
        · exact hc
        · have howner := (h.books.data i d).mp hc
          rw [hlink] at howner
          rw [Option.some.inj howner] at hfail
          exact hfail (Bool.eq_false_of_not_eq_true hok)
      exact h.serverEnds hctl hctlLink hfinished rfl rfl rfl (.inr rfl)

/-! ### Steps around the clients that are not served -/

/-- A client that is not served changes, and stays unserved. -/
theorem Orderly.setOther (h : Orderly site w) {i j : ι}
    (hctl : w.server.ctlfd = some k) (hlink : (w.client i).ctlfd = some k) (hj : j ≠ i)
    (hcctl : c.ctlfd = (w.client j).ctlfd) (hcdata : c.datafd = (w.client j).datafd)
    (hstate : c.testState = .uninit → (w.client j).testState = .uninit) (hc : c.Unserved) :
    Orderly site (w.setClient j c) := by
  refine ⟨h.books.kept (kept_setClient w w.server hcctl hcdata hstate), ?_⟩
  cases h.session with
  | idle hnone => simp [hnone] at hctl
  | served i' k' hctl' hlink' hip hqueue hdenied hphase hothers =>
    obtain rfl : k' = k := Option.some.inj (hctl'.symm.trans hctl)
    obtain rfl := h.books.owner_unique hlink hlink'
    have hself : (w.setClient j c).client i = w.client i := Function.update_of_ne hj.symm ..
    refine .served i k' hctl' (by rw [hself, hlink]) hip hqueue hdenied
      (by rw [hself]; exact hphase) fun j' hj' => ?_
    by_cases hjj : j' = j
    · subst hjj
      simpa [setClient] using hc
    · simpa [setClient, Function.update_of_ne hjj] using hothers j' hj'

/-! ### Accepting -/

theorem mperfAccept_ctl (hctl : ctx.ctlfd = none) (conn : Incoming) :
    (ctx.mperfAccept .written conn).1 =
      { ctx with
        ctlfd := some conn.sock
        testState := .paramExchange
        cliIp := conn.addr
        cliCtlPort := conn.port
        written := ctx.written ++ [TestState.paramExchange.code]
        log := ctx.log ++ [.state .paramExchange] } := by
  simp [ServerContext.mperfAccept, hctl, ServerContext.setTestState, ServerContext.setState,
    ServerContext.note]

theorem mperfAccept_data {conn : Incoming} (hctl : ctx.ctlfd ≠ none)
    (hs : ctx.testState = .createStream) (hdata : ctx.datafd = none)
    (haddr : ctx.cliIp = conn.addr) :
    (ctx.mperfAccept .written conn).1 =
      { ctx with
        datafd := some conn.sock
        testState := .running
        cliDataPort := conn.port
        written := ctx.written ++ [TestState.running.code]
        log := ctx.log ++ [.state .running] } := by
  simp [ServerContext.mperfAccept, hctl, hs, hdata, haddr, ServerContext.setTestState,
    ServerContext.setState, ServerContext.note]

/-- The first connection is a control connection, and its client is served from then on. -/
theorem Orderly.acceptCtl (h : Orderly site w)
    (hlink : w.links[k]? = some link) (hk : k ∉ w.backlog ++ w.connecting)
    (hctl : w.server.ctlfd = none) :
    Orderly site (w.serve (w.server.mperfAccept .written
      ⟨k, site.host link.owner, site.port k⟩).1) := by
  cases h.session with
  | served _ k' hctl' => simp [hctl] at hctl'
  | idle _ hdata hs hconf hdenied hclients =>
    obtain ⟨i, isCtl⟩ := link
    cases isCtl with
    | false =>
      have hsome := (h.books.data i k).mpr hlink
      simp [(hclients i).datafd] at hsome
    | true =>
      have hclient := (h.books.ctl i k).mpr hlink
      have hstart : (w.client i).testState = .start := by
        rcases (hclients i).state with hu | hstart
        · simp [h.books.fresh i hu] at hclient
        · exact hstart
      rw [mperfAccept_ctl hctl, serve_ctl w hlink (by exact rfl)]
      refine ⟨h.books.kept (kept_setClient w _ rfl rfl id), ?_⟩
      refine .served i k rfl ?_ rfl hk (by simp [hdenied, setClient]) ?_ fun j hj => ?_
      · simpa [setClient] using hclient
      · simp only [setClient, Function.update_self]
        exact .greeting rfl hstart (by simp [(hclients i).inbox]) (hclients i).outbox hconf hdata
          (hclients i).datafd
      · simpa [setClient, Function.update_of_ne hj] using (hclients j).unserved

/-- A connection that is accepted later is the data connection of the client that is served. -/
theorem Orderly.acceptData (hdistinct : Function.Injective site.host) (h : Orderly site w)
    (hlink : w.links[k]? = some link) (hserved : w.server.ctlfd ≠ none)
    (hk : w.server.ctlfd ≠ some k)
    (haccept : ¬ w.server.Denies ⟨k, site.host link.owner, site.port k⟩) :
    Orderly site (w.serve (w.server.mperfAccept .written
      ⟨k, site.host link.owner, site.port k⟩).1) := by
  have hopen : w.server.testState = .createStream ∧ w.server.datafd = none ∧
      w.server.cliIp = site.host link.owner := by
    by_contra hnot
    exact haccept ⟨hserved, hnot⟩
  obtain ⟨hs, hdata, haddr⟩ := hopen
  cases h.session with
  | idle hnone => exact absurd hnone hserved
  | served i k' hctl hclient hip _ _ hphase _ =>
    have hctlLink := (h.books.ctl i k').mp hclient
    -- The address tells the owner, and the owner's control connection is accepted already.
    have howner : link.owner = i := hdistinct (haddr.symm.trans hip)
    obtain ⟨owner, isCtl⟩ := link
    obtain rfl : owner = i := howner
    have hcdata : (w.client owner).datafd = some k := by
      cases isCtl with
      | false => exact (h.books.data owner k).mpr hlink
      | true => exact absurd (hctl.trans (hclient.symm.trans ((h.books.ctl owner k).mpr hlink))) hk
    rw [mperfAccept_data hserved hs hdata haddr, serve_ctl w hctlLink (by exact hctl)]
    cases hphase with
    | greeting hs' | exchanging hs' => simp [hs'] at hs
    | starting hs' | running hs' => simp [hs'] at hs
    | configured _ _ _ _ _ _ hnone => simp [hnone] at hcdata
    | left _ _ _ hcreate => simp [hcreate hs] at hcdata
    | opening _ hc hin hout hconf _ =>
      refine h.advance hctl hclient rfl rfl rfl rfl (by simp [hc]) ?_
      exact .starting rfl hc (by simp [hin]) hout hconf hcdata.symm (by simp [hcdata])

/-- A denial reaches a client that is not served, if anyone. -/
theorem Orderly.postDenial (h : Orderly site w)
    (hlink : w.links[k]? = some link) (hserved : w.server.ctlfd ≠ none)
    (hk : w.server.ctlfd ≠ some k) : Orderly site (w.post k [TestState.accessDeny.code]) := by
  obtain ⟨j, isCtl⟩ := link
  cases isCtl with
  | false =>
    rw [post_data w hlink]
    exact h
  | true =>
    rw [post_ctl w hlink]
    cases h.session with
    | idle hnone => exact absurd hnone hserved
    | served i k' hctl hclient _ _ _ _ hothers =>
      have hj : j ≠ i := by
        rintro rfl
        exact hk (hctl.trans (hclient.symm.trans ((h.books.ctl j k).mpr hlink)))
      have hother := hothers j hj
      refine h.setOther hctl hclient hj rfl rfl id ⟨hother.state, hother.datafd, ?_, hother.outbox⟩
      intro b hb
      rcases List.mem_append.mp hb with hold | hnew
      · exact hother.inbox b hold
      · exact List.mem_singleton.mp hnew

theorem Orderly.accept (hdistinct : Function.Injective site.host) (h : Orderly site w)
    {rest : List ℕ} (hqueue : w.backlog = k :: rest)
    (hlink : w.links[k]? = some link) : Orderly site (w.accept site k link.owner rest) := by
  obtain ⟨h', hk⟩ := h.dequeue hqueue
  unfold World.accept
  dsimp only
  by_cases hctl : w.server.ctlfd = none
  · rw [if_neg fun hdenies => hdenies.1 hctl]
    exact h'.acceptCtl hlink hk hctl
  · have hne : w.server.ctlfd ≠ some k := by
      cases h.session with
      | idle hnone => exact absurd hnone hctl
      | served _ k' hctl' _ _ hnot =>
        intro heq
        obtain rfl : k' = k := Option.some.inj (hctl'.symm.trans heq)
        exact hnot (by simp [hqueue])
    by_cases hdenies : w.server.Denies ⟨k, site.host link.owner, site.port k⟩
    · rw [if_pos hdenies]
      exact (h'.deny hctl hne).postDenial hlink hctl hne
    · rw [if_neg hdenies]
      exact h'.acceptData hdistinct hlink hctl hne hdenies

/-! ### Steps of the clients -/

/-- A denial leaves a client as it is. -/
theorem handleClientMsg_accessDeny (c : Client) (conf : ConnConfig) (ok : Bool) (link : ℕ) :
    c.handleClientMsg conf ok link TestState.accessDeny.code = c := rfl

theorem handleClientMsg_paramExchange (hc : c.testState = .start)
    (conf : ConnConfig) (ok : Bool) (link : ℕ) :
    c.handleClientMsg conf ok link TestState.paramExchange.code =
      if ok then
        { c with outbox := c.outbox ++ [.conf (confItems conf)], testState := .paramExchange }
      else c.setTestState .error := by
  simp [Client.handleClientMsg, hc]

theorem handleClientMsg_createStream (hc : c.testState = .paramExchange)
    (conf : ConnConfig) (ok : Bool) (link : ℕ) :
    c.handleClientMsg conf ok link TestState.createStream.code =
      if ok then { c with datafd := some link, testState := .createStream }
      else c.setTestState .error := by
  simp [Client.handleClientMsg, hc, TestState.code, paramExchangeByte]

theorem handleClientMsg_running (hc : c.testState = .createStream)
    (conf : ConnConfig) (ok : Bool) (link : ℕ) :
    c.handleClientMsg conf ok link TestState.running.code = { c with testState := .running } := by
  simp [Client.handleClientMsg, hc, TestState.code, paramExchangeByte]

/-- The client that is served opens its data connection. -/
theorem Orderly.openData (h : Orderly site w)
    (hctl : w.server.ctlfd = some k) (hlink : (w.client i).ctlfd = some k)
    (hnone : (w.client i).datafd = none) (hcctl : c.ctlfd = (w.client i).ctlfd)
    (hcdata : c.datafd = some w.links.length) (hstate : c.testState ≠ .uninit)
    (hphase : Phase (site.conf i) w.server c) :
    Orderly site ((w.connect i false).setClient i c) := by
  refine ⟨h.books.connect (by simpa using hcctl) (by simpa using hcdata) (by simpa using hnone)
    hstate, ?_⟩
  have hself : ((w.connect i false).setClient i c).client i = c := Function.update_self ..
  cases h.session with
  | idle hidle => simp [hidle] at hctl
  | served i' k' hctl' hlink' hip hqueue hdenied _ hothers =>
    obtain rfl : k' = k := Option.some.inj (hctl'.symm.trans hctl)
    obtain rfl := h.books.owner_unique hlink hlink'
    have hlt : k' < w.links.length :=
      (List.getElem?_eq_some_iff.mp ((h.books.ctl i k').mp hlink)).1
    have hk : k' ∉ w.backlog ++ (w.connecting ++ [w.links.length]) := by
      rw [← List.append_assoc, List.mem_append, List.mem_singleton]
      rintro (hold | rfl)
      · exact hqueue hold
      · exact lt_irrefl _ hlt
    refine .served i k' hctl' (by rw [hself, hcctl, hlink]) hip hk hdenied
      (by rw [hself]; exact hphase) fun j hj => ?_
    have hne : ((w.connect i false).setClient i c).client j = w.client j :=
      Function.update_of_ne hj ..
    rw [hne]
    exact hothers j hj

/-- A client that opens no connection changes alone. -/
theorem clientMsg_setClient {ok : Bool} {state : U8} {rest : List U8}
    (hc : { w.client i with inbox := rest }.handleClientMsg (site.conf i) ok w.links.length state
      = c) (hdata : c.datafd = (w.client i).datafd) :
    w.clientMsg site i ok state rest = w.setClient i c := by
  unfold World.clientMsg
  dsimp only at hc ⊢
  rw [hc, if_pos hdata]

/-- A client handles a state byte: the one that is served goes on to the next phase. -/
theorem Orderly.clientMsg (h : Orderly site w) {state : U8} {rest : List U8} (ok : Bool)
    (hmsg : (w.client i).inbox = state :: rest) (hrun : ¬ (w.client i).Finished) :
    Orderly site (w.clientMsg site i ok state rest) := by
  cases h.session with
  | idle _ _ _ _ _ hclients => simp [(hclients i).inbox] at hmsg
  | served i' k hctl hlink hip hqueue hdenied hphase hothers =>
    by_cases hi : i = i'
    · subst hi
      cases hphase with
      | exchanging _ _ hin | opening _ _ hin | running _ _ hin => simp [hin] at hmsg
      | left _ hc => exact absurd hc hrun
      | greeting hs hc hin hout hconf hsdata hcdata =>
        rw [hin] at hmsg
        obtain ⟨rfl, rfl⟩ : TestState.paramExchange.code = state ∧ [] = rest := List.cons.inj hmsg
        cases ok with
        | true =>
          rw [clientMsg_setClient (handleClientMsg_paramExchange (by exact hc) _ _ _) rfl]
          refine h.advance hctl hlink rfl rfl rfl rfl (by simp) ?_
          exact .exchanging hs rfl rfl (by simp [hout]) hconf hsdata hcdata
        | false =>
          rw [clientMsg_setClient (handleClientMsg_paramExchange (by exact hc) _ _ _) rfl]
          refine h.advance hctl hlink rfl rfl rfl rfl (by simp [Client.setTestState]) ?_
          exact .left (by simp [hs]) (.inr rfl) (by simp [Client.setTestState, hout]) (by simp [hs])
            (by simp [hs])
      | configured hs hc hin hout hconf hsdata hcdata =>
        rw [hin] at hmsg
        obtain ⟨rfl, rfl⟩ : TestState.createStream.code = state ∧ [] = rest := List.cons.inj hmsg
        cases ok with
        | true =>
          unfold World.clientMsg
          rw [handleClientMsg_createStream (by exact hc)]
          simp only [if_true, hcdata, reduceCtorEq, if_false]
          refine h.openData hctl hlink hcdata rfl rfl (by simp) ?_
          exact .opening hs rfl rfl hout hconf hsdata
        | false =>
          rw [clientMsg_setClient (handleClientMsg_createStream (by exact hc) _ _ _) rfl]
          refine h.advance hctl hlink rfl rfl rfl rfl (by simp [Client.setTestState]) ?_
          exact .left (by simp [hs]) (.inr rfl) (by simp [Client.setTestState, hout])
            (fun _ => hcdata) (by simp [hs])
      | starting hs hc hin hout hconf hdata hsome =>
        rw [hin] at hmsg
        obtain ⟨rfl, rfl⟩ : TestState.running.code = state ∧ [] = rest := List.cons.inj hmsg
        rw [clientMsg_setClient (handleClientMsg_running (by exact hc) _ _ _) rfl]
        refine h.advance hctl hlink rfl rfl rfl rfl (by simp) ?_
        exact .running hs rfl rfl hout hconf hdata hsome
    · have hdeny : state = TestState.accessDeny.code :=
        (hothers i hi).inbox state (by simp [hmsg])
      subst hdeny
      have hother := hothers i hi
      have hmsg' : w.clientMsg site i ok TestState.accessDeny.code rest
          = w.setClient i { w.client i with inbox := rest } :=
        clientMsg_setClient (handleClientMsg_accessDeny _ _ _ _) rfl
      rw [hmsg']
      exact h.setOther hctl hlink hi rfl rfl id ⟨hother.state, hother.datafd,
        fun b hb => hother.inbox b (by simp [hmsg, hb]), hother.outbox⟩

/-- A running client is the one that is served, and ends the test. -/
theorem Orderly.clientData (h : Orderly site w) (ok : Bool)
    (hstate : (w.client i).testState = .running) :
    Orderly site (w.setClient i ((w.client i).handleData ok)) := by
  cases h.session with
  | idle _ _ _ _ _ hclients =>
    rcases (hclients i).state with hs | hs <;> simp [hs] at hstate
  | served i' k hctl hlink hip hqueue hdenied hphase hothers =>
    by_cases hi : i = i'
    · subst hi
      cases hphase with
      | greeting _ hc | exchanging _ hc | configured _ hc | opening _ hc | starting _ hc =>
        simp [hc] at hstate
      | left _ hc => rcases hc with hc | hc <;> simp [hc] at hstate
      | running hs hc hin hout hconf hdata hsome =>
        cases ok with
        | true =>
          exact h.advance hctl hlink rfl rfl rfl rfl (by simp [Client.handleData, Client.setTestState])
            (.left (by simp [hs]) (.inl rfl) (by simp [Client.handleData, Client.setTestState, hout])
              (by simp [hs]) fun _ => ⟨hconf, hdata, hsome⟩)
        | false =>
          exact h.advance hctl hlink rfl rfl rfl rfl (by simp [Client.handleData])
            (.left (by simp [hs]) (.inr rfl) (by simp [Client.handleData, hout]) (by simp [hs])
              fun _ => ⟨hconf, hdata, hsome⟩)
    · rcases (hothers i hi).state with hs | hs | hs <;> simp [hs] at hstate

/-- The server closes no connection of the client that it serves before that client has left. -/
theorem Orderly.clientClosed (h : Orderly site w)
    (hctl : (w.client i).ctlfd = some k) (hclosed : k ∈ w.denied ∨ w.server.Finished)
    (hrun : ¬ (w.client i).Finished) :
    Orderly site (w.setClient i { w.client i with testState := .testEnd }) := by
  cases h.session with
  | idle _ _ hs _ hdenied =>
    rcases hclosed with hd | hf
    · simp [hdenied] at hd
    · simp [ServerContext.Finished, hs] at hf
  | served i' k' hsctl hlink hip hqueue hdenied hphase hothers =>
    by_cases hi : i = i'
    · subst hi
      obtain rfl : k' = k := Option.some.inj (hlink.symm.trans hctl)
      have hf : w.server.Finished := hclosed.resolve_left hdenied
      cases hphase with
      | left _ hc => exact absurd hc hrun
      | greeting hs | exchanging hs | configured hs | opening hs | starting hs | running hs =>
        simp [ServerContext.Finished, hs] at hf
    · have hother := hothers i hi
      exact h.setOther hsctl hlink hi rfl rfl (by simp) ⟨.inr (.inr rfl), hother.datafd,
        hother.inbox, hother.outbox⟩

/-! ## Agreement -/

theorem Orderly.step (hdistinct : Function.Injective site.host) (h : Orderly site w)
    (hstep : Step site w w') : Orderly site w' := by
  cases hstep with
  | start i hstate => exact h.start hstate
  | arrive k hconn => exact h.arrive hconn
  | accept k link rest hqueue hlink hrun => exact h.accept hdistinct hqueue hlink
  | serverMsg k i msg rest hctl hlink hmsg hrun => exact h.serverMsg hctl hlink hmsg
  | serverClosed k i hctl hlink hmsg hclosed hrun => exact h.serverClosed hctl hlink hclosed
  | serverData d link results hdata hlink hfail hrun => exact h.serverData hdata hlink hfail
  | clientMsg i ok state rest hmsg hrun => exact h.clientMsg ok hmsg hrun
  | clientData i ok hstate => exact h.clientData ok hstate
  | clientClosed i k hctl hmsg hclosed hrun => exact h.clientClosed hctl hclosed hrun

theorem Reached.orderly (hdistinct : Function.Injective site.host) (h : Reached site w) :
    Orderly site w := by
  induction h with
  | init => exact orderly_init site
  | step _ hstep ih => exact ih.step hdistinct hstep

/-- The server runs the test of client `i`: both of its connections are the client's own, and so is
its configuration. -/
structure Serves (site : Site ι) (w : World ι) (i : ι) : Prop where
  ctl : ∃ k, w.server.ctlfd = some k ∧ (w.client i).ctlfd = some k ∧
    w.links[k]? = some ⟨i, true⟩
  data : ∃ d, w.server.datafd = some d ∧ (w.client i).datafd = some d ∧
    w.links[d]? = some ⟨i, false⟩
  conf : w.server.connConf = takeItems (confItems (site.conf i)) initConfig

theorem Orderly.serves (h : Orderly site w) (hrun : w.server.testState = .running) :
    ∃ i, Serves site w i ∧ ∀ j, (w.client j).testState = .running → j = i := by
  cases h.session with
  | idle _ _ hs => simp [hs] at hrun
  | served i k hctl hlink _ _ _ hphase hothers =>
    have hfacts : w.server.connConf = received (site.conf i) ∧
        w.server.datafd = (w.client i).datafd ∧ (w.client i).datafd ≠ none := by
      cases hphase with
      | greeting hs | exchanging hs | configured hs | opening hs => simp [hs] at hrun
      | starting _ _ _ _ hconf hdata hsome | running _ _ _ _ hconf hdata hsome =>
        exact ⟨hconf, hdata, hsome⟩
      | left _ _ _ _ hfacts => exact hfacts hrun
    obtain ⟨hconf, hdata, hsome⟩ := hfacts
    obtain ⟨d, hd⟩ := Option.ne_none_iff_exists'.mp hsome
    refine ⟨i, ⟨⟨k, hctl, hlink, (h.books.ctl i k).mp hlink⟩,
      ⟨d, hdata.trans hd, hd, (h.books.data i d).mp hd⟩, hconf⟩, fun j hj => ?_⟩
    by_contra hne
    rcases (hothers j hne).state with hs | hs | hs <;> simp [hs] at hj

/-- A running client is served by a running server. -/
theorem Orderly.running (h : Orderly site w) {j : ι} (hj : (w.client j).testState = .running) :
    w.server.testState = .running := by
  cases h.session with
  | idle _ _ _ _ _ hclients =>
    rcases (hclients j).state with hs | hs <;> simp [hs] at hj
  | served i _ _ _ _ _ _ hphase hothers =>
    by_cases hji : j = i
    · subst hji
      cases hphase with
      | greeting _ hc | exchanging _ hc | configured _ hc | opening _ hc | starting _ hc =>
        simp [hc] at hj
      | running hs => exact hs
      | left _ hc => rcases hc with hc | hc <;> simp [hc] at hj
    · rcases (hothers j hji).state with hs | hs | hs <;> simp [hs] at hj

end World

/-- When no two clients have the same address, in every world that is reached: a running server
serves one client, on connections that are this client's own and with its configuration; and a
client that is running is served by the server. -/
theorem session_agreement {ι : Type} [DecidableEq ι] {site : Site ι} {w : World ι}
    (hdistinct : Function.Injective site.host) (h : World.Reached site w) :
    (w.server.testState = .running → ∃ i, World.Serves site w i) ∧
      ∀ j, (w.client j).testState = .running →
        w.server.testState = .running ∧ World.Serves site w j := by
  have horderly := h.orderly hdistinct
  refine ⟨fun hrun => ?_, fun j hj => ?_⟩
  · obtain ⟨i, hserves, _⟩ := horderly.serves hrun
    exact ⟨i, hserves⟩
  · have hrun := horderly.running hj
    obtain ⟨i, hserves, hunique⟩ := horderly.serves hrun
    obtain rfl := hunique j hj
    exact ⟨hrun, hserves⟩

/-! ### Runs of two clients -/

theorem not_over {t s : TestState} (h : t = s) (hs : ¬ (s = .testEnd ∨ s = .error)) :
    ¬ (t = .testEnd ∨ t = .error) := h ▸ hs

/-- Two clients, at the given addresses. -/
def twoClients (host : Fin 2 → U32) : Site (Fin 2) := ⟨host, fun _ => initConfig, fun _ => 40000⟩

section TwoClients

variable (host : Fin 2 → U32)

/-- The first client has connected and the server has accepted it. -/
def greeted : World (Fin 2) := ((({} : World (Fin 2)).start 0).arrive 0).accept (twoClients host) 0 0 []

def sentConf : World (Fin 2) :=
  (greeted host).clientMsg (twoClients host) 0 true TestState.paramExchange.code []

def tookConf : World (Fin 2) :=
  ((sentConf host).setClient 0 { (sentConf host).client 0 with outbox := [] }).serve
    ((sentConf host).server.handleMessage (.conf (confItems initConfig)))

/-- The first client has opened its data connection. -/
def openedData : World (Fin 2) :=
  (tookConf host).clientMsg (twoClients host) 0 true TestState.createStream.code []

theorem reached_openedData : World.Reached (twoClients host) (openedData host) := by
  have hstart : World.Reached (twoClients host) (({} : World (Fin 2)).start 0) :=
    .step .init (.start _ 0 rfl)
  have harrive := hstart.step (.arrive _ 0 (List.Mem.head _))
  have hgreeted : World.Reached (twoClients host) (greeted host) :=
    harrive.step (.accept _ 0 ⟨0, true⟩ [] rfl rfl (not_over (s := .start) rfl (by decide)))
  have hsent : World.Reached (twoClients host) (sentConf host) :=
    hgreeted.step (.clientMsg _ 0 true _ [] rfl (not_over (s := .start) rfl (by decide)))
  have htook : World.Reached (twoClients host) (tookConf host) :=
    hsent.step (.serverMsg _ 0 0 (.conf (confItems initConfig)) [] rfl rfl rfl
      (not_over (s := .paramExchange) rfl (by decide)))
  exact htook.step (.clientMsg _ 0 true _ [] rfl (not_over (s := .paramExchange) rfl (by decide)))

end TwoClients

def twoHosts (i : Fin 2) : U32 := BitVec.ofNat 32 (i.val + 1)

def oneHost (_ : Fin 2) : U32 := 1

/-- On different hosts: the data connection of the first client is accepted. -/
def firstRunning : World (Fin 2) :=
  ((openedData twoHosts).arrive 1).accept (twoClients twoHosts) 1 0 []

theorem session_agreement_first :
    firstRunning.server.testState = .running ∧
      ∃ i, World.Serves (twoClients twoHosts) firstRunning i := by
  have hrun : firstRunning.server.testState = .running := by decide +kernel
  have hreached : World.Reached (twoClients twoHosts) firstRunning :=
    ((reached_openedData twoHosts).step (.arrive _ 1 (by decide +kernel))).step
      (.accept _ 1 ⟨0, false⟩ [] (by decide +kernel) (by decide +kernel) (by decide +kernel))
  exact ⟨hrun, (session_agreement (by decide) hreached).1 hrun⟩

/-- On one host: the control connection of the second client arrives ahead of the data connection
of the first. -/
def secondAccepted : World (Fin 2) :=
  (((openedData oneHost).start 1).arrive 2).accept (twoClients oneHost) 2 1 []

/-- The server takes the control connection of the second client for the data connection of the
first, and runs. -/
theorem session_mixed :
    World.Reached (twoClients oneHost) secondAccepted ∧
      secondAccepted.server.testState = .running ∧
      secondAccepted.server.ctlfd = some 0 ∧ secondAccepted.links[0]? = some ⟨0, true⟩ ∧
      secondAccepted.server.datafd = some 2 ∧ secondAccepted.links[2]? = some ⟨1, true⟩ := by
  refine ⟨?_, by decide +kernel⟩
  exact (((reached_openedData oneHost).step (.start _ 1 (by decide +kernel))).step
    (.arrive _ 2 (by decide +kernel))).step
      (.accept _ 2 ⟨1, true⟩ [] (by decide +kernel) (by decide +kernel) (by decide +kernel))

end MtcpStack.Mperf
