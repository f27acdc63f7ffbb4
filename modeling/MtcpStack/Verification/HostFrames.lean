import MtcpStack.Model.Host

/-! # What the calls leave alone

Most calls change sockets and streams only. -/

namespace MtcpStack

namespace Host

/-- The configuration, the pool of the core and the listeners. -/
def rest (h : Host) : CoreConfig × Option AddrPool × (ℕ → Option Listener) × (ℕ → List ℕ) :=
  (h.core, h.ap, h.listener, h.listeners)

@[simp] theorem rest_allocateSocket (t : SockType) (h : Host) :
    (h.allocateSocket t).1.rest = h.rest := by
  unfold allocateSocket
  simp only
  split <;> rfl

@[simp] theorem rest_freeSocket (i : ℕ) (h : Host) : (freeSocket i h).rest = h.rest := by
  unfold freeSocket
  simp only
  split <;> rfl

/-- `listenOn` refuses and changes nothing, or enters the next listener in the table. -/
theorem listenOn_outcome (i : ℕ) (backlog : ℤ) (mem : ListenMem) (h : Host) :
    (∃ e, h.listenOn i backlog mem = (h, .error e)) ∨
      h.listenOn i backlog mem =
        (listenerHTInsert h.nextListener (h.smap i).saddr.port
          ((setListener h.nextListener ⟨i, backlog.toNat, some []⟩
            { h with nextListener := h.nextListener + 1 }).setSocket i
              { h.smap i with ref := .listener h.nextListener }), .ok ()) := by
  unfold listenOn
  simp only
  split_ifs
  all_goals first | exact .inl ⟨_, rfl⟩ | exact .inr rfl

theorem rest_mtcpSocket (h : Host) : h.mtcpSocket.1.rest = h.rest := by
  have halloc := rest_allocateSocket .stream h
  unfold mtcpSocket
  split <;> next heq => rwa [heq] at halloc

theorem rest_mtcpSetsockNonblock (sockid : ℤ) (h : Host) :
    (h.mtcpSetsockNonblock sockid).1.rest = h.rest := by
  unfold mtcpSetsockNonblock
  split_ifs <;> rfl

theorem rest_mtcpBind (sockid : ℤ) (addr : Option SockAddr) (inet : Bool) (h : Host) :
    (h.mtcpBind sockid addr inet).1.rest = h.rest := by
  unfold mtcpBind
  cases addr <;> simp only <;> split_ifs <;> rfl

theorem rest_acceptStream (sid : ℕ) (h : Host) : (h.acceptStream sid).1.rest = h.rest := by
  unfold acceptStream
  split
  · rfl
  · split
    · rfl
    · have halloc := rest_allocateSocket .stream h
      split <;> next heq => rw [heq] at halloc; exact halloc

theorem rest_closeStreamSocket (i : ℕ) (h : Host) : (h.closeStreamSocket i).1.rest = h.rest := by
  unfold closeStreamSocket
  split
  · split
    · rfl
    · simp only
      split
      · rfl
      · split <;> rfl
  · rfl

theorem rest_createTCPStream (mem : StreamMem) (sockid : Option ℕ) (src dst : SockAddr)
    (h : Host) : (h.createTCPStream mem sockid src dst).1.rest = h.rest := by
  unfold createTCPStream
  split
  · cases sockid <;> rfl
  · rfl

theorem rest_synArrives (rem loc : SockAddr) (mem : StreamMem) (h : Host) :
    (h.synArrives rem loc mem).rest = h.rest := by
  unfold synArrives
  split
  · rfl
  · split
    · exact rest_createTCPStream ..
    · rfl

theorem rest_startStream (sid : ℕ) (bound : Bool) (h : Host) :
    (startStream sid bound h).rest = h.rest := by
  unfold startStream
  split <;> rfl

theorem rest_queueConnect (i sid : ℕ) (waited : Option TcpState) (h : Host) :
    (queueConnect i sid waited h).1.rest = h.rest := by
  unfold queueConnect
  simp only
  split
  · split
    · rfl
    · cases waited with
      | none => rfl
      | some s => simp only; split_ifs <;> rfl
  · rfl

theorem rest_openStream (i : ℕ) (dst : SockAddr) (bound : Bool) (mem : StreamMem)
    (waited : Option TcpState) (h : Host) :
    (h.openStream i dst bound mem waited).1.rest = h.rest := by
  have hcreate := rest_createTCPStream mem (some i) (h.smap i).saddr dst h
  unfold openStream
  split
  case h_1 heq => rwa [heq] at hcreate
  case h_2 heq =>
    rw [heq] at hcreate
    rw [rest_queueConnect, rest_startStream, hcreate]

end Host

end MtcpStack
