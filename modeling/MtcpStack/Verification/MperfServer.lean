import MtcpStack.Model.MperfServer
import MtcpStack.Verification.MperfConfig

/-! # Runs of the mperf server

Two comparisons of runs of the server loop: the same events with the bytes of the control
connection arriving in another way, and the same session without the connection attempts that are
denied. -/

namespace MtcpStack.Mperf

namespace ServerContext

variable (ctx : ServerContext)

/-! ## Bytes that arrive later

Nothing but the control messages looks at the unread bytes, and bytes behind the message that is
read stay behind it. -/

theorem setTestState_arrive (more : List U8) (write : WriteResult) (s : TestState) :
    (ctx.arrive more).setTestState write s
      = ((ctx.setTestState write s).1.arrive more, (ctx.setTestState write s).2) := by
  cases write <;> rfl

theorem takeConf_arrive (more : List U8) (write : WriteResult) (json : Option Json) :
    (ctx.arrive more).takeConf write json
      = ((ctx.takeConf write json).1.arrive more, (ctx.takeConf write json).2) := by
  by_cases hconf : (applyConf json ctx.connConf).2 <;> cases write <;>
    simp [takeConf, arrive, hconf, setTestState, setState, note]

theorem switchServerMsg_arrive (more : List U8) (write : WriteResult) (state : U8)
    (json : Option Json) :
    (ctx.arrive more).switchServerMsg write state json
      = ((ctx.switchServerMsg write state json).1.arrive more,
          (ctx.switchServerMsg write state json).2) := by
  have hstate : (ctx.arrive more).testState = ctx.testState := rfl
  unfold switchServerMsg
  rw [hstate, takeConf_arrive, setTestState_arrive]
  split_ifs <;> rfl

/-- The next message is there: a byte is unread, and the length and the whole text behind it when
it announces a configuration. -/
def WholeMessage (unread : List U8) : Prop :=
  unread ≠ [] ∧ (unread.head? = some paramExchangeByte →
    ∃ text rest : List U8, text.length < 2 ^ 32 ∧ unread = jsonWrite text ++ rest)

/-- The event finds its message whole. -/
def WholeEvent : ServerEvent → Prop
  | .ctl _ _ => ctx.ctlfd ≠ none → WholeMessage ctx.unread
  | _ => True

/-- Every control event that the loop over a batch handles finds its message whole. -/
def WholeEvents (ctx : ServerContext) : List ServerEvent → Prop
  | [] => True
  | event :: events =>
    ctx.WholeEvent event ∧
      ((ctx.serverEvent event).2 = true → WholeEvents (ctx.serverEvent event).1 events)

/-- Every control event of a run finds its message whole. -/
def WholeRun (ctx : ServerContext) : List Batch → Prop
  | [] => True
  | batch :: batches =>
    (ctx.arrive batch.arrived).WholeEvents batch.events ∧
      (¬ (ctx.serverBatch batch).Finished → WholeRun (ctx.serverBatch batch) batches)

end ServerContext

/-- All the bytes that arrive in a run. -/
def arrivals (batches : List Batch) : List U8 := (batches.map Batch.arrived).flatten

/-- The same wake-ups with no byte arriving. -/
def Batch.silent (batch : Batch) : Batch := { batch with arrived := [] }

namespace ServerContext

variable (ctx : ServerContext)

/-- The server has not taken its control connection for closed. -/
def HeldOpen : Prop := ServerAct.closed ∉ ctx.log

variable {ctx}

theorem HeldOpen.note (h : ctx.HeldOpen) {act : ServerAct} (hact : act ≠ .closed) :
    (ctx.note act).HeldOpen := by
  intro hmem
  rcases List.mem_append.mp hmem with hold | hnew
  · exact h hold
  · exact hact (List.mem_singleton.mp hnew).symm

theorem HeldOpen.setState (h : ctx.HeldOpen) (s : TestState) : (ctx.setState s).HeldOpen :=
  h.note (by simp : ServerAct.state s ≠ .closed)

theorem HeldOpen.setTestState (h : ctx.HeldOpen) (write : WriteResult) (s : TestState) :
    (ctx.setTestState write s).1.HeldOpen := by
  cases write <;> exact h.setState s

theorem HeldOpen.mperfAccept (h : ctx.HeldOpen) (write : WriteResult) (conn : Incoming) :
    (ctx.mperfAccept write conn).1.HeldOpen := by
  have hctl : ({ ctx with ctlfd := some conn.sock } : ServerContext).HeldOpen := h
  unfold ServerContext.mperfAccept
  dsimp only
  split_ifs
  · exact hctl.setTestState write .paramExchange
  · exact hctl.setTestState write .paramExchange
  · exact h
  · exact h.setTestState write .running
  · exact h.setTestState write .running
  · exact h

theorem HeldOpen.takeConf (h : ctx.HeldOpen) (write : WriteResult) (json : Option Json) :
    (ctx.takeConf write json).1.HeldOpen := by
  have hconf : ({ ctx with connConf := (applyConf json ctx.connConf).1 } : ServerContext).HeldOpen :=
    h
  unfold ServerContext.takeConf
  dsimp only
  split_ifs
  · exact hconf.setTestState write .createStream
  · exact (hconf.setTestState write .createStream).setState .error
  · exact hconf.setTestState write .error

theorem HeldOpen.switchServerMsg (h : ctx.HeldOpen) (write : WriteResult) (state : U8)
    (json : Option Json) : (ctx.switchServerMsg write state json).1.HeldOpen := by
  unfold ServerContext.switchServerMsg
  split_ifs
  · exact h.takeConf write json
  · exact h.setTestState write .error
  · exact h.setState .error
  · exact h.setState .testEnd
  · exact h

theorem HeldOpen.handleServerMsg (h : ctx.HeldOpen) (env : ReadEnv) (write : WriteResult)
    (hwhole : WholeMessage ctx.unread) : (ctx.handleServerMsg env write).1.HeldOpen := by
  obtain ⟨state, rest, hunread⟩ := List.exists_cons_of_ne_nil hwhole.1
  have hnext : ∀ u, ({ ctx.note (.message state) with unread := u } : ServerContext).HeldOpen :=
    fun _ => h.note (by simp : ServerAct.message state ≠ .closed)
  simp only [ServerContext.handleServerMsg, nread_eq, hunread, List.take_succ_cons, List.take_zero]
  split_ifs
  · exact (hnext _).switchServerMsg write state _
  · exact (hnext _).switchServerMsg write state none

theorem log_mperfRecvLoop (ctx : ServerContext) (nleft : ℤ) (results : List ReadResult) :
    (mperfRecvLoop ctx nleft results).1.log = ctx.log := by
  induction results generalizing ctx nleft with
  | nil => rfl
  | cons result results ih =>
    unfold mperfRecvLoop
    split_ifs
    · rfl
    · cases result with
      | again => rfl
      | failed => rfl
      | bytes n =>
        dsimp only
        split_ifs
        · rfl
        · exact ih _ _

theorem HeldOpen.serverEvent (h : ctx.HeldOpen) {event : ServerEvent}
    (hwhole : ctx.WholeEvent event) : (ctx.serverEvent event).1.HeldOpen := by
  cases event with
  | listen conn write =>
    cases conn with
    | none => exact h
    | some conn => exact h.mperfAccept write conn
  | ctl env write =>
    simp only [ServerContext.serverEvent]
    split_ifs with hctl
    · exact h
    · exact h.handleServerMsg env write (hwhole hctl)
  | data results =>
    have hrecv : (ctx.mperfRecv results).1.HeldOpen := by
      unfold HeldOpen ServerContext.mperfRecv
      rwa [log_mperfRecvLoop]
    simp only [ServerContext.serverEvent]
    split_ifs
    · exact h
    · exact hrecv
    · exact hrecv.setState .error

theorem HeldOpen.serverEvents (h : ctx.HeldOpen) {events : List ServerEvent}
    (hwhole : ctx.WholeEvents events) : (ctx.serverEvents events).HeldOpen := by
  induction events generalizing ctx with
  | nil => exact h
  | cons event events ih =>
    have hnext := h.serverEvent hwhole.1
    unfold ServerContext.serverEvents
    split_ifs with hgo
    · exact ih hnext (hwhole.2 hgo)
    · exact hnext

theorem HeldOpen.serverLoop (h : ctx.HeldOpen) {batches : List Batch}
    (hwhole : ctx.WholeRun batches) : (ctx.serverLoop batches).HeldOpen := by
  induction batches generalizing ctx with
  | nil => exact h
  | cons batch batches ih =>
    have harrive : (ctx.arrive batch.arrived).HeldOpen := h
    have hnext : (ctx.serverBatch batch).HeldOpen := harrive.serverEvents hwhole.1
    unfold ServerContext.serverLoop
    split_ifs with hdone
    · exact hnext
    · exact ih hnext (hwhole.2 hdone)

end ServerContext

/-- A library that knows one document, whose text is a pair of braces. -/
def bracesCjson : Cjson where
  print _ := [123, 125]
  parse text := if text = [123, 125] then some (confItems gigabitConf) else none

/-- Reads of one byte; the length starts out as zero. -/
def bytewiseEnv : ReadEnv := ⟨bracesCjson, [0, 0, 0, 0], fun _ _ => 1⟩

/-- A server that has accepted a control connection. -/
def greetedServer : ServerContext := { ctlfd := some 7, testState := .paramExchange }

namespace ServerContext

variable (ctx : ServerContext)

/-- The event is a connection attempt that is denied. -/
def DeniedEvent : ServerEvent → Prop
  | .listen (some conn) _ => ctx.Denies conn
  | _ => False

instance (event : ServerEvent) : Decidable (ctx.DeniedEvent event) := by
  unfold DeniedEvent
  split <;> infer_instance

theorem mperfAccept_of_denies {conn : Incoming} (h : ctx.Denies conn) (write : WriteResult) :
    ctx.mperfAccept write conn = (ctx, -1) := by
  unfold mperfAccept
  rw [if_neg h.1]
  split_ifs with hdata haddr
  · rfl
  · exact absurd ⟨hdata.1, hdata.2, not_not.mp haddr⟩ h.2
  · rfl

theorem serverEvent_of_denied {event : ServerEvent} (h : ctx.DeniedEvent event) :
    ctx.serverEvent event = (ctx, false) := by
  match event, h with
  | .listen (some conn) write, h =>
    simp [serverEvent, mperfAccept_of_denies ctx h write]

/-- The events of a batch without the attempts that are denied. -/
def sessionEvents (ctx : ServerContext) : List ServerEvent → List ServerEvent
  | [] => []
  | event :: events =>
    if ctx.DeniedEvent event then sessionEvents ctx events
    else event :: sessionEvents (ctx.serverEvent event).1 events

/-- The batches of a run without the attempts that are denied. -/
def sessionRun (ctx : ServerContext) : List Batch → List Batch
  | [] => []
  | batch :: batches =>
    let session : Batch :=
      ⟨batch.arrived, (ctx.arrive batch.arrived).sessionEvents batch.events⟩
    session :: sessionRun (ctx.serverBatch session) batches

/-- Behind a denied attempt a batch has only denied attempts. -/
def DenialsLast (ctx : ServerContext) : List ServerEvent → Prop
  | [] => True
  | event :: events =>
    if ctx.DeniedEvent event then ∀ later ∈ events, ctx.DeniedEvent later
    else (ctx.serverEvent event).2 = true → DenialsLast (ctx.serverEvent event).1 events

theorem sessionEvents_of_denied {events : List ServerEvent}
    (h : ∀ event ∈ events, ctx.DeniedEvent event) : ctx.sessionEvents events = [] := by
  induction events with
  | nil => rfl
  | cons event events ih =>
    rw [sessionEvents, if_pos (h event List.mem_cons_self)]
    exact ih fun later hlater => h later (List.mem_cons_of_mem event hlater)

theorem serverEvents_sessionEvents {events : List ServerEvent} (h : ctx.DenialsLast events) :
    ctx.serverEvents (ctx.sessionEvents events) = ctx.serverEvents events := by
  induction events generalizing ctx with
  | nil => rfl
  | cons event events ih =>
    by_cases hdenied : ctx.DeniedEvent event
    · rw [DenialsLast, if_pos hdenied] at h
      rw [sessionEvents, if_pos hdenied, sessionEvents_of_denied ctx h, serverEvents,
        serverEvents, serverEvent_of_denied ctx hdenied]
      rfl
    · rw [DenialsLast, if_neg hdenied] at h
      rw [sessionEvents, if_neg hdenied, serverEvents, serverEvents]
      by_cases hgo : (ctx.serverEvent event).2 = true
      · rw [if_pos hgo, if_pos hgo, ih _ (h hgo)]
      · rw [if_neg hgo, if_neg hgo]

/-- In every batch up to the end of the loop the denied attempts come last. -/
def DenialsLastRun (ctx : ServerContext) : List Batch → Prop
  | [] => True
  | batch :: batches =>
    (ctx.arrive batch.arrived).DenialsLast batch.events ∧
      (¬ (ctx.serverBatch batch).Finished → DenialsLastRun (ctx.serverBatch batch) batches)

end ServerContext

/-- When no event of the session stands behind a denied attempt in its batch, the run without the
denied attempts comes to the same context: the same states, the same messages and the same data. -/
theorem denied_attempts_harmless (ctx : ServerContext) (batches : List Batch)
    (hlast : ctx.DenialsLastRun batches) :
    ctx.serverLoop (ctx.sessionRun batches) = ctx.serverLoop batches := by
  induction batches generalizing ctx with
  | nil => rfl
  | cons batch batches ih =>
    have hbatch : ctx.serverBatch
        ⟨batch.arrived, (ctx.arrive batch.arrived).sessionEvents batch.events⟩
          = ctx.serverBatch batch :=
      ServerContext.serverEvents_sessionEvents _ hlast.1
    simp only [ServerContext.sessionRun, ServerContext.serverLoop, hbatch]
    by_cases hdone : (ctx.serverBatch batch).Finished
    · rw [if_pos hdone, if_pos hdone]
    · rw [if_neg hdone, if_neg hdone]
      exact ih _ (hlast.2 hdone)

/-- A server in the middle of a test. -/
def runningServer : ServerContext :=
  { ctlfd := some 7, datafd := some 8, testState := .running, cliIp := 0x0A000001 }

/-- An attempt from another host. -/
def stranger : ServerEvent := .listen (some ⟨9, 0x0A000002, 40000⟩) .written

theorem denied_attempts_harmless_between :
    runningServer.serverLoop (runningServer.sessionRun
        [⟨[], [.data [.bytes 1460], stranger]⟩, ⟨[4], [.ctl bytewiseEnv .written]⟩])
      = runningServer.serverLoop
          [⟨[], [.data [.bytes 1460], stranger]⟩, ⟨[4], [.ctl bytewiseEnv .written]⟩] := by
  refine denied_attempts_harmless runningServer _ ⟨?_, fun _ => ⟨?_, fun _ => trivial⟩⟩
  · rw [ServerContext.DenialsLast, if_neg (by decide +kernel)]
    intro _
    rw [ServerContext.DenialsLast, if_pos (by decide +kernel)]
    simp
  · rw [ServerContext.DenialsLast, if_neg (by decide +kernel)]
    exact fun _ => trivial

/-- An attempt ahead of the client's `END` in one batch: the test does not end. -/
theorem denied_attempt_hides_end :
    (runningServer.serverLoop [⟨[4], [stranger, .ctl bytewiseEnv .written]⟩]).testState
        = .running ∧
      (runningServer.serverLoop (runningServer.sessionRun
        [⟨[4], [stranger, .ctl bytewiseEnv .written]⟩])).testState = .testEnd := by
  decide +kernel

end MtcpStack.Mperf
