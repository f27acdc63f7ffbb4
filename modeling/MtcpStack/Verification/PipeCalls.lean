import MtcpStack.Model.Pipe

/-! # What the calls on pipes and sockets do to the socket map -/

namespace MtcpStack

namespace PipeHost

variable {h h' : PipeHost}

/-! ## Events -/

/-- From `h` to `h'` events have been raised or delivered, and only the sockets of `only` have
another set of pending events. -/
structure Raises (only : ℕ → Prop) (h h' : PipeHost) : Prop where
  maxConcurrency_eq : h'.maxConcurrency = h.maxConcurrency
  nonblock_eq : h'.nonblock = h.nonblock
  ref_eq : h'.ref = h.ref
  pipes_eq : h'.pipes = h.pipes
  nextPipe_eq : h'.nextPipe = h.nextPipe
  wild_eq : h'.wild = h.wild
  freeSmap_eq : h'.ep.freeSmap = h.ep.freeSmap
  socktype_eq : ∀ k, (h'.ep.smap k).socktype = (h.ep.smap k).socktype
  epoll_eq : ∀ k, (h'.ep.smap k).epoll = (h.ep.smap k).epoll
  smap_eq : ∀ k, ¬ only k → h'.ep.smap k = h.ep.smap k

namespace Raises

variable {only : ℕ → Prop}

theorem refl : Raises only h h :=
  ⟨rfl, rfl, rfl, rfl, rfl, rfl, rfl, fun _ => rfl, fun _ => rfl, fun _ _ => rfl⟩

theorem trans {h'' : PipeHost} (h₁ : Raises only h h') (h₂ : Raises only h' h'') :
    Raises only h h'' where
  maxConcurrency_eq := h₂.maxConcurrency_eq.trans h₁.maxConcurrency_eq
  nonblock_eq := h₂.nonblock_eq.trans h₁.nonblock_eq
  ref_eq := h₂.ref_eq.trans h₁.ref_eq
  pipes_eq := h₂.pipes_eq.trans h₁.pipes_eq
  nextPipe_eq := h₂.nextPipe_eq.trans h₁.nextPipe_eq
  wild_eq := h₂.wild_eq.trans h₁.wild_eq
  freeSmap_eq := h₂.freeSmap_eq.trans h₁.freeSmap_eq
  socktype_eq k := (h₂.socktype_eq k).trans (h₁.socktype_eq k)
  epoll_eq k := (h₂.epoll_eq k).trans (h₁.epoll_eq k)
  smap_eq k hk := (h₂.smap_eq k hk).trans (h₁.smap_eq k hk)

theorem mono {only' : ℕ → Prop} (hr : Raises only h h') (hle : ∀ k, only k → only' k) :
    Raises only' h h' :=
  { hr with smap_eq := fun k hk => hr.smap_eq k fun ho => hk (hle k ho) }

/-- The event queues may change. -/
theorem of_queues {ep : Epoll} {hasEp : Bool} (hsmap : ep.smap = h.ep.smap)
    (hfree : ep.freeSmap = h.ep.freeSmap) : Raises (fun _ => False) h { h with ep, hasEp } :=
  ⟨rfl, rfl, rfl, rfl, rfl, rfl, hfree, fun k => congrArg (fun f => (f k).socktype) hsmap,
    fun k => congrArg (fun f => (f k).epoll) hsmap, fun k _ => congrFun hsmap k⟩

end Raises

theorem storeEvent_raises (q : QueueType) (i : ℕ) (event : U32) :
    Raises (· = i) h { h with ep := h.ep.storeEvent q i event } := by
  have hsmap : (h.ep.storeEvent q i event).smap =
      Function.update h.ep.smap i
        { h.ep.smap i with events := (h.ep.smap i).events ||| event } := by
    cases q <;> rfl
  refine ⟨rfl, rfl, rfl, rfl, rfl, rfl, ?_, fun k => ?_, fun k => ?_, fun k hk => ?_⟩
  · cases q <;> rfl
  · rw [hsmap, Function.update_apply]
    split
    case isTrue hk => rw [hk]
    case isFalse => rfl
  · rw [hsmap, Function.update_apply]
    split
    case isTrue hk => rw [hk]
    case isFalse => rfl
  · rw [hsmap, Function.update_of_ne hk]

theorem queueEvent_raises (q : QueueType) (i : ℕ) (event : U32) :
    Raises (· = i) h { h with ep := (h.ep.addEpollEvent q i event).1 } := by
  rw [Epoll.addEpollEvent]
  split_ifs
  · exact .refl
  · exact .refl
  · exact .refl
  · exact storeEvent_raises q i event

theorem addEpollEvent_raises (q : QueueType) (i : ℕ) (event : U32) :
    Raises (· = i) h (h.addEpollEvent q i event) := by
  rw [addEpollEvent]
  split_ifs
  · exact queueEvent_raises q i event
  · exact .refl

/-- Only an end that is registered is told. -/
theorem raiseEventToPair_raises (ctx : PipeCtx) (i : ℕ) (event : U32) :
    Raises (fun k => k = pairSocket ctx i ∧ (h.ep.smap k).epoll ≠ 0) h
      (h.raiseEventToPair ctx i event) := by
  rw [raiseEventToPair]
  split
  case isTrue htell =>
    refine (addEpollEvent_raises _ _ _).mono fun k hk => ?_
    subst hk
    exact ⟨rfl, htell.2⟩
  case isFalse => exact .refl

theorem readAgain_raises (i : ℕ) (p : Pipe) : Raises (· = i) h (h.readAgain i p) := by
  rw [readAgain]
  split_ifs
  · exact addEpollEvent_raises ..
  · exact .refl
  · exact addEpollEvent_raises ..
  · exact .refl

theorem writeAgain_raises (i : ℕ) (p : Pipe) : Raises (· = i) h (h.writeAgain i p) := by
  rw [writeAgain]
  split_ifs
  · exact addEpollEvent_raises ..
  · exact .refl
  · exact .refl

/-- What follows a copy raises events for the two ends. -/
theorem afterCopy_raises {α : Type} {again : PipeHost → ℕ → Pipe → PipeHost}
    (hagain : ∀ h i p, Raises (· = i) h (again h i p)) (i p : ℕ) (ctx : PipeCtx) (r : PipeCopy α)
    (event : U32) :
    Raises (fun k => k = i ∨ k = pairSocket ctx i ∧ (h.ep.smap k).epoll ≠ 0)
      (h.setPipe p (some { ctx with toPipe := r.pipe })) (h.afterCopy i p ctx r event again) := by
  have htell : Raises (fun k => k = i ∨ k = pairSocket ctx i ∧ (h.ep.smap k).epoll ≠ 0)
      (h.setPipe p (some { ctx with toPipe := r.pipe }))
      (if r.toNotify then
        (h.setPipe p (some { ctx with toPipe := r.pipe })).raiseEventToPair ctx i event
      else h.setPipe p (some { ctx with toPipe := r.pipe })) := by
    split
    · exact (raiseEventToPair_raises ctx i event).mono fun k hk => .inr hk
    · exact .refl
  rw [afterCopy]
  dsimp only
  split
  · exact htell.trans ((hagain _ i r.pipe).mono fun k hk => .inl hk)
  · exact htell

theorem fetchEvent_raises (q : QueueType) (entry : EventInt) :
    Raises (fun _ => True) h { h with ep := h.ep.fetchEvent q entry } := by
  have hsmap : (h.ep.fetchEvent q entry).smap = Function.update h.ep.smap entry.sockid
      { h.ep.smap entry.sockid with
        events := (h.ep.smap entry.sockid).events &&& ~~~ entry.events } := by
    rw [Epoll.fetchEvent]
    split_ifs <;> cases q <;> rfl
  have hfree : (h.ep.fetchEvent q entry).freeSmap = h.ep.freeSmap := by
    rw [Epoll.fetchEvent]
    split_ifs <;> cases q <;> rfl
  refine ⟨rfl, rfl, rfl, rfl, rfl, rfl, hfree, fun k => ?_, fun k => ?_,
    fun k hk => absurd trivial hk⟩
  · rw [hsmap, Function.update_apply]
    split
    case isTrue hk => rw [hk]
    case isFalse => rfl
  · rw [hsmap, Function.update_apply]
    split
    case isTrue hk => rw [hk]
    case isFalse => rfl

theorem fetchLoop_raises (q : QueueType) (n room : ℕ) (h : PipeHost) :
    Raises (fun _ => True) h { h with ep := (Epoll.fetchLoop q n room h.ep).1 } := by
  induction n generalizing room h with
  | zero => exact .refl
  | succ n ih =>
    rw [Epoll.fetchLoop]
    split
    case isTrue => exact .refl
    case isFalse =>
      split
      case h_1 entry hfront =>
        exact (fetchEvent_raises q entry).trans (ih _ { h with ep := h.ep.fetchEvent q entry })
      case h_2 => exact .refl

theorem wait_raises (maxevents : ℕ) :
    Raises (fun _ => True) h { h with ep := h.ep.mtcpEpollWait maxevents } :=
  (fetchLoop_raises .usr _ maxevents h).trans (fetchLoop_raises .usrShadow _ _ _)

/-- `mtcp_epoll_ctl` changes the registration of its socket and may raise events for it. -/
theorem mtcpEpollCtl_raises (epid : ℕ) (op : Epoll.CtlOp) (i : ℕ) (events : U32) (data : EpollData)
    (readable writable : Bool) :
    ∃ s : EpollSocket, s.socktype = (h.ep.smap i).socktype ∧
      Raises (· = i) { h with ep := h.ep.setSocket i s }
        (h.mtcpEpollCtl epid op i events data readable writable) := by
  have hsame : { h with ep := h.ep.setSocket i (h.ep.smap i) } = h := by
    rw [Epoll.setSocket, Function.update_eq_self]
  have hpending : ∀ h : PipeHost,
      Raises (· = i) h { h with ep := h.ep.raisePending i readable writable } := by
    intro h
    have hone : ∀ (h : PipeHost) (c : Prop) [Decidable c] (event : U32),
        Raises (· = i) h
          { h with ep := if c then (h.ep.addEpollEvent .usrShadow i event).1 else h.ep } := by
      intro h c _ event
      split_ifs
      · exact queueEvent_raises _ _ _
      · exact .refl
    rw [Epoll.raisePending]
    exact (hone h _ epollIn).trans (hone _ _ epollOut)
  have hnothing : ∃ s : EpollSocket, s.socktype = (h.ep.smap i).socktype ∧
      Raises (· = i) { h with ep := h.ep.setSocket i s } h :=
    ⟨h.ep.smap i, rfl, by rw [hsame]; exact .refl⟩
  have hregister : ∃ s : EpollSocket, s.socktype = (h.ep.smap i).socktype ∧
      Raises (· = i) { h with ep := h.ep.setSocket i s }
        { h with ep := (h.ep.register i events data).raisePending i readable writable } :=
    ⟨{ h.ep.smap i with epData := data, epoll := events ||| (epollErr ||| epollHup) }, rfl,
      hpending { h with ep := h.ep.register i events data }⟩
  rw [mtcpEpollCtl]
  split_ifs
  · exact hnothing
  · exact hnothing
  · cases op <;> rw [Epoll.mtcpEpollCtl] <;> split_ifs
    · exact hnothing
    · exact hregister
    · exact hnothing
    · exact hregister
    · exact hnothing
    · exact ⟨{ h.ep.smap i with epoll := 0 }, rfl, .refl⟩

/-! ## What a call on a pipe can do -/

/-- Socket `i` is an end of pipe `p`. -/
structure Found (h : PipeHost) (i p : ℕ) (ctx : PipeCtx) : Prop where
  range : i < h.maxConcurrency
  socktype : (h.ep.smap i).socktype = .pipe
  ref : h.ref i = .pp p
  pipe : h.pipes p = some ctx

theorem findPipe_ok {α : Type} {i p : ℕ} {ctx : PipeCtx} {noPipe : PipeRet α}
    (hfind : h.findPipe i noPipe = .ok (p, ctx)) : Found h i p ctx := by
  rw [findPipe] at hfind
  split_ifs at hfind with hrange htype
  split at hfind
  · cases hfind
  case h_2 q href =>
    split at hfind
    case h_1 ctx' hpipe =>
      cases hfind
      exact ⟨by omega, not_not.mp htype, href, hpipe⟩
    case h_2 => cases hfind
  · cases hfind

/-- What `PipeRead`, `PipeWrite` and `PipeClose` on socket `i` can do: nothing, use a pointer that
is not one to a pipe, change the pipe and raise events for its ends, or free it. -/
inductive PipeEffect (h : PipeHost) (i : ℕ) : PipeHost → Prop
  | idle : PipeEffect h i h
  | wild (hi : i < h.maxConcurrency) (htype : (h.ep.smap i).socktype = .pipe)
      (hnull : h.ref i ≠ .null) (hlost : ∀ p ctx, ¬ Found h i p ctx) :
      PipeEffect h i { h with wild := true }
  | used {p : ℕ} {ctx : PipeCtx} (hfound : Found h i p ctx) (q : Pipe) {h' : PipeHost}
      (hr : Raises (fun k => k = i ∨ k = pairSocket ctx i ∧ (h.ep.smap k).epoll ≠ 0)
        (h.setPipe p (some { ctx with toPipe := q })) h') : PipeEffect h i h'
  | freed {p : ℕ} {ctx : PipeCtx} (hfound : Found h i p ctx) :
      PipeEffect h i (((h.setRef ctx.socket0 .null).setRef ctx.socket1 .null).setPipe p none)

theorem findPipe_error {α : Type} {i : ℕ} {noPipe : PipeRet α} {r : PipeHost × PipeRet α}
    (hfind : h.findPipe i noPipe = .error r) : PipeEffect h i r.1 := by
  have hnot : ∀ p ctx, ¬ Found h i p ctx := by
    intro p ctx hfound
    have hok : h.findPipe i noPipe = .ok (p, ctx) := by
      simp [findPipe, Nat.not_le.mpr hfound.range, hfound.socktype, hfound.ref, hfound.pipe]
    rw [hok] at hfind
    cases hfind
  rw [findPipe] at hfind
  split_ifs at hfind with hrange htype
  · cases hfind
    exact .idle
  · cases hfind
    exact .idle
  · split at hfind
    · cases hfind
      exact .idle
    case h_2 q href =>
      split at hfind
      · cases hfind
      · cases hfind
        exact .wild (Nat.lt_of_not_le hrange) (not_not.mp htype) (by rw [href]; nofun) hnot
    case h_3 hnull hpp =>
      cases hfind
      exact .wild (Nat.lt_of_not_le hrange) (not_not.mp htype) (fun hn => hnull hn) hnot

theorem pipeRead_effect (i : ℕ) (len : ℤ) : PipeEffect h i (h.pipeRead i len).1 := by
  rw [pipeRead]
  split
  case h_1 r hnone => exact findPipe_error hnone
  case h_2 p ctx hfind =>
    exact .used (findPipe_ok hfind) _ (afterCopy_raises (fun _ => readAgain_raises) ..)

theorem pipeWrite_effect (i : ℕ) (data : List U8) : PipeEffect h i (h.pipeWrite i data).1 := by
  rw [pipeWrite]
  split
  case h_1 r hnone => exact findPipe_error hnone
  case h_2 p ctx hfind =>
    exact .used (findPipe_ok hfind) _ (afterCopy_raises (fun _ => writeAgain_raises) ..)

theorem pipeClose_effect (i : ℕ) : PipeEffect h i (h.pipeClose i).1 := by
  rw [pipeClose]
  split
  case h_1 r hnone => exact findPipe_error hnone
  case h_2 p ctx hfind =>
    have hfound := findPipe_ok hfind
    dsimp only
    rw [closePipe]
    split
    · exact .idle
    · exact .used hfound { ctx.toPipe with state := .closeWait }
        ((raiseEventToPair_raises ctx i epollIn).mono fun k hk => .inr hk)
    · exact .freed hfound

/-! ## Allocation -/

theorem update_pair {α : Type} {f : ℕ → α} {a : α} {i j s : ℕ} (hs : s ∈ [i, j]) :
    Function.update (Function.update f i a) j a s = a := by
  by_cases hj : s = j
  · rw [hj, Function.update_self]
  · have hi : s = i := (List.mem_pair.mp hs).resolve_right hj
    rw [Function.update_of_ne hj, hi, Function.update_self]

/-- The map after socket `i` has been taken from the free list, which leaves `free`. -/
def taken (h : PipeHost) (socktype : SockType) (i : ℕ) (free : List ℕ) : PipeHost :=
  { h with
    ep := { h.ep.setSocket i ⟨socktype, 0, 0, 0⟩ with
      freeSmap := free
      incarnation := Function.update h.ep.incarnation i (h.ep.incarnation i + 1) }
    nonblock := Function.update h.nonblock i false
    ref := Function.update h.ref i .null }

theorem filter_of_dropWhile {α : Type} {busy : α → Bool} {l rest : List α} {k : α}
    (hdrop : l.dropWhile busy = k :: rest) :
    busy k = false ∧ l.filter (!busy ·) = k :: (rest ++ l.takeWhile busy).filter (!busy ·) := by
  induction l with
  | nil => cases hdrop
  | cons a l ih =>
    cases ha : busy a with
    | true =>
      simp only [List.dropWhile_cons, ha, if_true] at hdrop
      simpa [ha] using ih hdrop
    | false =>
      simp only [List.dropWhile_cons, ha, Bool.false_eq_true, if_false, List.cons.injEq] at hdrop
      obtain ⟨rfl, rfl⟩ := hdrop
      simp [ha]

/-- The free sockets without pending events, in the order in which they are taken. -/
def next (h : PipeHost) : List ℕ := h.ep.freeSmap.filter fun i => !decide ((h.ep.smap i).events ≠ 0)

theorem allocateSocket_some {socktype : SockType} {i : ℕ}
    (ha : h.allocateSocket socktype = (h', some i)) :
    i ∈ h.ep.freeSmap ∧ h.next = i :: h'.next ∧
      ∃ free ⊆ h.ep.freeSmap, h' = h.taken socktype i free := by
  rw [allocateSocket, Epoll.allocateSocket] at ha
  dsimp only at ha
  cases hdrop : h.ep.freeSmap.dropWhile (fun i => (h.ep.smap i).events ≠ 0) with
  | nil => simp only [hdrop, Prod.mk.injEq, reduceCtorEq, and_false] at ha
  | cons k rest =>
    have hsub : k :: rest ⊆ h.ep.freeSmap := hdrop ▸ (List.dropWhile_sublist _).subset
    simp only [hdrop, Prod.mk.injEq, Option.some.injEq] at ha
    obtain ⟨rfl, rfl⟩ := ha
    refine ⟨hsub List.mem_cons_self, ?_, _, ?_, rfl⟩
    · obtain ⟨hk, hfilter⟩ := filter_of_dropWhile hdrop
      rw [next, hfilter, next]
      congr! 3 with i
      by_cases hi : i = k
      · subst hi
        simpa [Epoll.setSocket] using hk
      · simp [Epoll.setSocket, hi]
    exact List.append_subset.mpr
      ⟨fun x hx => hsub (List.mem_cons_of_mem _ hx), (List.takeWhile_sublist _).subset⟩

theorem allocateSocket_none {socktype : SockType} (ha : h.allocateSocket socktype = (h', none)) :
    h' = h := by
  rw [allocateSocket] at ha
  split at ha
  · exact (Prod.mk.inj ha).1.symm
  · simp at ha

/-- The pipe that `mtcp_pipe` makes for two sockets. -/
def madePipe (chunk : ℕ → U8) (i j : ℕ) : PipeCtx where
  state := .active
  buf := (List.range pipeBufSize).map chunk
  bufOff := 0
  bufTail := 0
  bufLen := 0
  bufSize := pipeBufSize
  socket0 := i
  socket1 := j

/-- The map after the sockets `i` and `j` have got their pipe. -/
def joined (h : PipeHost) (chunk : ℕ → U8) (i j : ℕ) : PipeHost :=
  { h with
    nextPipe := h.nextPipe + 1
    pipes := Function.update h.pipes h.nextPipe (some (madePipe chunk i j))
    ref := Function.update (Function.update h.ref i (.pp h.nextPipe)) j (.pp h.nextPipe) }

/-- The ways `mtcp_pipe` can go. -/
inductive PipeMade (h : PipeHost) (chunk : ℕ → U8) : PipeHost × PipeRet (ℕ × ℕ) → Prop
  | full : PipeMade h chunk (h, .error .nFile)
  | half {i : ℕ} {free : List ℕ} (hi : i ∈ h.ep.freeSmap) (hfree : free ⊆ h.ep.freeSmap)
      (hnext : i ∈ h.next.take 2) :
      PipeMade h chunk ((h.taken .pipe i free).freeSocket i, .error .nFile)
  | noMemory {i j : ℕ} {free free' : List ℕ} (hi : i ∈ h.ep.freeSmap) (hfree : free ⊆ h.ep.freeSmap)
      (hj : j ∈ free) (hfree' : free' ⊆ free) (hnext : h.next.take 2 = [i, j]) :
      PipeMade h chunk
        ((((h.taken .pipe i free).taken .pipe j free').freeSocket i).freeSocket j,
          .error .inherited)
  | made {i j : ℕ} {free free' : List ℕ} (hi : i ∈ h.ep.freeSmap) (hfree : free ⊆ h.ep.freeSmap)
      (hj : j ∈ free) (hfree' : free' ⊆ free) (hnext : h.next.take 2 = [i, j]) :
      PipeMade h chunk
        (((h.taken .pipe i free).taken .pipe j free').joined chunk i j, .ok (i, j))

theorem mtcpPipe_made (memory : Bool) (chunk : ℕ → U8) :
    PipeMade h chunk (h.mtcpPipe memory chunk) := by
  rw [mtcpPipe]
  split
  case h_1 h₁ hnone =>
    rw [allocateSocket_none hnone]
    exact .full
  case h_2 h₁ i hfirst =>
    obtain ⟨hi, hnext, free, hfree, rfl⟩ := allocateSocket_some hfirst
    split
    case h_1 h₂ hnone =>
      rw [allocateSocket_none hnone]
      exact .half hi hfree (by simp [hnext])
    case h_2 h₂ j hsecond =>
      obtain ⟨hj, hnext', free', hfree', rfl⟩ := allocateSocket_some hsecond
      have htwo : h.next.take 2 = [i, j] := by simp [hnext, hnext']
      cases memory with
      | false => exact .noMemory hi hfree hj hfree' htwo
      | true => exact .made hi hfree hj hfree' htwo

/-! ## Numbers on the free list -/

/-- The free list has sockets of the map only. -/
def FreeBelow (h : PipeHost) : Prop := ∀ i ∈ h.ep.freeSmap, i < h.maxConcurrency

theorem FreeBelow.raises {only : ℕ → Prop} (hf : h.FreeBelow) (hr : Raises only h h') :
    h'.FreeBelow := by
  rw [FreeBelow, hr.freeSmap_eq, hr.maxConcurrency_eq]
  exact hf

theorem FreeBelow.taken (socktype : SockType) {i : ℕ} {free : List ℕ} (hf : h.FreeBelow)
    (hfree : free ⊆ h.ep.freeSmap) : (h.taken socktype i free).FreeBelow :=
  fun k hk => hf k (hfree hk)

theorem FreeBelow.freeSocket (hf : h.FreeBelow) {i : ℕ} (hi : i < h.maxConcurrency) :
    (h.freeSocket i).FreeBelow := by
  rw [PipeHost.freeSocket, Epoll.freeSocket]
  split_ifs
  · exact hf
  · intro k hk
    rcases List.mem_append.mp hk with hk | hk
    · exact hf k hk
    · rw [List.mem_singleton.mp hk]
      exact hi

theorem FreeBelow.allocate (socktype : SockType) (hf : h.FreeBelow) :
    (h.allocateSocket socktype).1.FreeBelow := by
  cases ha : h.allocateSocket socktype with
  | mk h' socket =>
    cases socket with
    | none => exact allocateSocket_none ha ▸ hf
    | some i =>
      obtain ⟨-, -, free, hfree, rfl⟩ := allocateSocket_some ha
      exact hf.taken socktype hfree

theorem FreeBelow.mtcpPipe (hf : h.FreeBelow) (memory : Bool) (chunk : ℕ → U8) :
    (h.mtcpPipe memory chunk).1.FreeBelow := by
  have hmade := mtcpPipe_made (h := h) memory chunk
  generalize h.mtcpPipe memory chunk = result at hmade ⊢
  cases hmade with
  | full => exact hf
  | half hi hfree => exact (hf.taken .pipe hfree).freeSocket (hf _ hi)
  | noMemory hi hfree hj hfree' =>
    refine (((hf.taken .pipe hfree).taken .pipe hfree').freeSocket (hf _ hi)).freeSocket ?_
    rw [PipeHost.freeSocket]
    split_ifs <;> exact hf _ (hfree hj)
  | made hi hfree hj hfree' => exact (hf.taken .pipe hfree).taken .pipe hfree'

theorem FreeBelow.mtcpAccept (hf : h.FreeBelow) (i sid : ℕ) (more : Bool) :
    (h.mtcpAccept i sid more).FreeBelow := by
  have hf' := hf.allocate .stream
  rw [PipeHost.mtcpAccept]
  split_ifs
  · exact hf
  · cases ha : h.allocateSocket .stream with
    | mk h' socket =>
      rw [ha] at hf'
      cases socket with
      | none => exact hf'
      | some k =>
        dsimp only
        split_ifs
        · exact FreeBelow.raises (h := h'.setRef k _) hf' (addEpollEvent_raises ..)
        · exact hf'

theorem FreeBelow.mtcpEpollCreate (hf : h.FreeBelow) (size : ℕ) :
    (h.mtcpEpollCreate size).FreeBelow := by
  have hf' := hf.allocate .epoll
  rw [PipeHost.mtcpEpollCreate]
  split_ifs
  · exact hf
  · cases ha : h.allocateSocket .epoll with
    | mk h' socket =>
      rw [ha] at hf'
      cases socket <;> exact hf'

theorem FreeBelow.effect {i : ℕ} (hf : h.FreeBelow) (he : PipeEffect h i h') :
    h'.FreeBelow := by
  cases he with
  | idle => exact hf
  | wild => exact hf
  | used hfound q hr => exact FreeBelow.raises (h := h.setPipe _ _) hf hr
  | freed => exact hf

theorem PipeEffect.maxConcurrency_eq {i : ℕ} (he : PipeEffect h i h') :
    h'.maxConcurrency = h.maxConcurrency := by
  cases he with
  | idle => rfl
  | wild => rfl
  | used hfound q hr => exact hr.maxConcurrency_eq
  | freed => rfl

theorem FreeBelow.mtcpClose (hf : h.FreeBelow) (i : ℕ) : (h.mtcpClose i).FreeBelow := by
  rw [PipeHost.mtcpClose]
  by_cases hrange : h.maxConcurrency ≤ i
  · rw [if_pos hrange]
    exact hf
  rw [if_neg hrange]
  have hi := Nat.lt_of_not_le hrange
  split
  · exact hf
  · exact hf.freeSocket hi
  · exact hf.freeSocket hi
  · exact FreeBelow.freeSocket (h := h.setRef i .null) hf hi
  · split_ifs
    · exact FreeBelow.freeSocket (h := PipeHost.setRef { h with hasEp := false } i .null) hf hi
    · exact hf.freeSocket hi
  · have he := pipeClose_effect (h := h) i
    exact (hf.effect he).freeSocket (he.maxConcurrency_eq ▸ hi)

theorem FreeBelow.apply (hf : h.FreeBelow) (c : PipeCall) : (h.apply c).FreeBelow := by
  cases c with
  | pipe memory chunk => exact hf.mtcpPipe memory chunk
  | socket => exact hf.allocate .stream
  | accept i sid more => exact hf.mtcpAccept i sid more
  | connect i sid =>
    rw [PipeHost.apply, mtcpConnect]
    split_ifs <;> exact hf
  | listen i l ok =>
    rw [PipeHost.apply, mtcpListen]
    dsimp only
    split_ifs <;> exact hf
  | setNonblock i =>
    rw [PipeHost.apply, mtcpSetsockNonblock]
    split_ifs <;> exact hf
  | epollCreate size => exact hf.mtcpEpollCreate size
  | ctl epid op i events data readable writable =>
    obtain ⟨s, -, hr⟩ := mtcpEpollCtl_raises (h := h) epid op i events data readable writable
    exact FreeBelow.raises (h := { h with ep := h.ep.setSocket i s }) hf hr
  | read i len => exact hf.effect (pipeRead_effect i len)
  | write i data => exact hf.effect (pipeWrite_effect i data)
  | close i => exact hf.mtcpClose i
  | raise q i event => exact hf.raises (addEpollEvent_raises q i event)
  | flush => exact hf
  | wait maxevents => exact hf.raises (wait_raises maxevents)

theorem Reached.freeBelow {ok : PipeHost → PipeCall → Prop} {n : ℕ} (hreach : Reached ok n h) :
    h.FreeBelow := by
  induction hreach with
  | init => exact fun i hi => List.mem_range.mp hi
  | call _ c _ ih => exact ih.apply c

end PipeHost

end MtcpStack
