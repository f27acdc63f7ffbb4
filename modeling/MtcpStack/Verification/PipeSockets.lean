import MtcpStack.Verification.PipeCalls

/-! # Which entries of the socket map a call on a pipe changes

A pipe keeps the numbers of its two sockets after one of them has been closed. An entry belongs to
the pipe as long as its own union leads there. -/

namespace MtcpStack

/-- The two sockets a pipe points to. -/
def PipeCtx.ends (ctx : PipeCtx) : List ℕ := [ctx.socket0, ctx.socket1]

namespace PipeHost

variable {h h' : PipeHost}

/-- Entry `s` is an end of pipe `p`. -/
def Belongs (h : PipeHost) (p s : ℕ) : Prop :=
  h.ref s = .pp p ∧ (h.ep.smap s).socktype = .pipe

/-- Entry `s` is free and nothing is registered for it. -/
structure Vacant (h : PipeHost) (s : ℕ) : Prop where
  socktype : (h.ep.smap s).socktype = .unused
  ref : h.ref s = .null
  epoll : (h.ep.smap s).epoll = 0

/-- The unions and the pipes fit together. -/
structure Owned (h : PipeHost) : Prop where
  sane : h.wild = false
  ends : ∀ p ctx, h.pipes p = some ctx → ∀ s ∈ ctx.ends, h.Belongs p s ∨ h.Vacant s
  refs : ∀ i p, h.ref i = .pp p → ∃ ctx, h.pipes p = some ctx ∧ i ∈ ctx.ends
  unions : ∀ i, (h.ep.smap i).socktype = .pipe → h.ref i = .null ∨ ∃ p, h.ref i = .pp p
  fresh : ∀ p, h.nextPipe ≤ p → h.pipes p = none

/-- Socket `i` is not one that a pipe points to. -/
def Spare (h : PipeHost) (i : ℕ) : Prop := ∀ p ctx, h.pipes p = some ctx → i ∉ ctx.ends

/-- No call finds a socket that a pipe still points to next on the free list when it takes one, and
only sockets in use are registered. -/
def Spares (h : PipeHost) : PipeCall → Prop
  | .ctl _ _ i _ _ _ _ => (h.ep.smap i).socktype ≠ .unused
  | .pipe .. => ∀ s ∈ h.next.take 2, h.Spare s
  | .socket => ∀ s ∈ h.next.take 1, h.Spare s
  | .accept i _ _ => i < h.maxConcurrency → (h.ep.smap i).socktype = .listener →
      ∀ s ∈ h.next.take 1, h.Spare s
  | .epollCreate size => size ≠ 0 → ∀ s ∈ h.next.take 1, h.Spare s
  | _ => True

namespace Owned

theorem raises {only : ℕ → Prop} (ho : h.Owned) (hr : Raises only h h') : h'.Owned where
  sane := hr.wild_eq.trans ho.sane
  ends p ctx hp s hs := by
    rw [hr.pipes_eq] at hp
    refine (ho.ends p ctx hp s hs).imp (fun hb => ?_) fun hv => ?_
    · exact ⟨by rw [hr.ref_eq, hb.1], by rw [hr.socktype_eq, hb.2]⟩
    · exact ⟨by rw [hr.socktype_eq, hv.socktype], by rw [hr.ref_eq, hv.ref],
        by rw [hr.epoll_eq, hv.epoll]⟩
  refs i p hi := by
    rw [hr.ref_eq] at hi
    rw [hr.pipes_eq]
    exact ho.refs i p hi
  unions i hi := by
    rw [hr.socktype_eq] at hi
    rw [hr.ref_eq]
    exact ho.unions i hi
  fresh p hp := by
    rw [hr.nextPipe_eq] at hp
    rw [hr.pipes_eq]
    exact ho.fresh p hp

/-- A socket in use that is not one of a pipe is not an end. -/
theorem spare (ho : h.Owned) {i : ℕ} (hused : (h.ep.smap i).socktype ≠ .unused)
    (hpipe : (h.ep.smap i).socktype ≠ .pipe) : h.Spare i := by
  intro p ctx hp hi
  rcases ho.ends p ctx hp i hi with hb | hv
  · exact hpipe hb.2
  · exact hused hv.socktype

/-- Changing one entry that no pipe points to. -/
theorem of_entry {i : ℕ} (ho : h.Owned) (hspare : h.Spare i)
    (hpipes : h'.pipes = h.pipes) (hnext : h'.nextPipe = h.nextPipe) (hwild : h'.wild = h.wild)
    (hsmap : ∀ k, k ≠ i → h'.ep.smap k = h.ep.smap k) (href : ∀ k, k ≠ i → h'.ref k = h.ref k)
    (hnotpp : ∀ p, h'.ref i ≠ .pp p)
    (hunion : (h'.ep.smap i).socktype = .pipe → h'.ref i = .null) : h'.Owned where
  sane := hwild.trans ho.sane
  ends p ctx hp s hs := by
    rw [hpipes] at hp
    have hne : s ≠ i := fun heq => hspare p ctx hp (heq ▸ hs)
    refine (ho.ends p ctx hp s hs).imp (fun hb => ?_) fun hv => ?_
    · exact ⟨by rw [href s hne, hb.1], by rw [hsmap s hne, hb.2]⟩
    · exact ⟨by rw [hsmap s hne, hv.socktype], by rw [href s hne, hv.ref],
        by rw [hsmap s hne, hv.epoll]⟩
  refs k p hk := by
    have hne : k ≠ i := fun heq => hnotpp p (heq ▸ hk)
    rw [href k hne] at hk
    rw [hpipes]
    exact ho.refs k p hk
  unions k hk := by
    by_cases hne : k = i
    · subst hne
      exact .inl (hunion hk)
    · rw [hsmap k hne] at hk
      rw [href k hne]
      exact ho.unions k hk
  fresh p hp := by
    rw [hpipes]
    exact ho.fresh p (hnext ▸ hp)

theorem taken {i : ℕ} (ho : h.Owned) (hspare : h.Spare i) (socktype : SockType) (free : List ℕ) :
    (h.taken socktype i free).Owned := by
  have href : (h.taken socktype i free).ref i = .null := Function.update_self ..
  exact ho.of_entry hspare rfl rfl rfl (fun k hk => Function.update_of_ne hk ..)
    (fun k hk => Function.update_of_ne hk ..) (fun p => by rw [href]; nofun) fun _ => href

theorem setRef {i : ℕ} (ho : h.Owned) (hspare : h.Spare i) {r : UnionRef} (hr : ∀ p, r ≠ .pp p)
    (hpipe : (h.ep.smap i).socktype ≠ .pipe) : (h.setRef i r).Owned := by
  have href : (h.setRef i r).ref i = r := Function.update_self ..
  exact ho.of_entry hspare rfl rfl rfl (fun k _ => rfl) (fun k hk => Function.update_of_ne hk ..)
    (fun p => by rw [href]; exact hr p) fun ht => absurd ht hpipe

/-- An entry in use that keeps its type can be registered. -/
theorem setSocket {i : ℕ} (ho : h.Owned) {socket : EpollSocket}
    (htype : socket.socktype = (h.ep.smap i).socktype)
    (hused : (h.ep.smap i).socktype ≠ .unused) :
    { h with ep := h.ep.setSocket i socket }.Owned where
  sane := ho.sane
  ends p ctx hp s hs := by
    by_cases hne : s = i
    · subst hne
      refine (ho.ends p ctx hp s hs).imp (fun hb => ⟨hb.1, ?_⟩) fun hv => absurd hv.socktype hused
      simpa [Epoll.setSocket, htype] using hb.2
    · refine (ho.ends p ctx hp s hs).imp (fun hb => ⟨hb.1, ?_⟩) fun hv => ⟨?_, hv.ref, ?_⟩
      · simpa [Epoll.setSocket, hne] using hb.2
      · simpa [Epoll.setSocket, hne] using hv.socktype
      · simpa [Epoll.setSocket, hne] using hv.epoll
  refs := ho.refs
  unions k hk := by
    by_cases hne : k = i
    · subst hne
      exact ho.unions k (by simpa [Epoll.setSocket, htype] using hk)
    · exact ho.unions k (by simpa [Epoll.setSocket, hne] using hk)
  fresh := ho.fresh

theorem freeSocket (ho : h.Owned) (i : ℕ) : (h.freeSocket i).Owned := by
  rw [PipeHost.freeSocket]
  split
  case isTrue => exact ho
  case isFalse hused =>
    have hsmap : (h.ep.freeSocket i).smap = Function.update h.ep.smap i
        { h.ep.smap i with socktype := .unused, epoll := 0, events := 0 } := by
      rw [Epoll.freeSocket, if_neg hused]
      rfl
    refine ⟨ho.sane, fun p ctx hp s hs => ?_, fun k p hk => ?_, fun k hk => ?_, ho.fresh⟩
    · by_cases hne : s = i
      · -- the end that is closed becomes vacant
        subst hne
        refine .inr ⟨?_, Function.update_self .., ?_⟩
        · rw [hsmap, Function.update_self]
        · rw [hsmap, Function.update_self]
      · refine (ho.ends p ctx hp s hs).imp (fun hb => ⟨?_, ?_⟩) fun hv => ⟨?_, ?_, ?_⟩
        · exact (Function.update_of_ne hne ..).trans hb.1
        · rw [hsmap, Function.update_of_ne hne, hb.2]
        · rw [hsmap, Function.update_of_ne hne, hv.socktype]
        · exact (Function.update_of_ne hne ..).trans hv.ref
        · rw [hsmap, Function.update_of_ne hne, hv.epoll]
    · have hne : k ≠ i := by
        rintro rfl
        simp at hk
      exact ho.refs k p ((Function.update_of_ne hne ..).symm.trans hk)
    · have hne : k ≠ i := by
        rintro rfl
        simp [hsmap] at hk
      rw [hsmap, Function.update_of_ne hne] at hk
      simpa [hne] using ho.unions k hk

/-- Two sockets that no pipe points to get a new pipe. -/
theorem joined {i j : ℕ} (ho : h.Owned) (hi : h.Spare i) (hj : h.Spare j)
    (htype : ∀ s ∈ [i, j], (h.ep.smap s).socktype = .pipe) (chunk : ℕ → U8) :
    (h.joined chunk i j).Owned := by
  have hends : ∀ s ∈ [i, j], (h.joined chunk i j).ref s = .pp h.nextPipe :=
    fun s hs => update_pair hs
  have hothers : ∀ s, s ∉ [i, j] → (h.joined chunk i j).ref s = h.ref s := by
    intro s hs
    rw [List.mem_pair, not_or] at hs
    exact (Function.update_of_ne hs.2 ..).trans (Function.update_of_ne hs.1 ..)
  have hnew : (h.joined chunk i j).pipes h.nextPipe = some (madePipe chunk i j) :=
    Function.update_self ..
  have hold : ∀ p, p ≠ h.nextPipe → (h.joined chunk i j).pipes p = h.pipes p :=
    fun p hp => Function.update_of_ne hp ..
  refine ⟨ho.sane, fun p ctx hp s hs => ?_, fun k p hk => ?_, fun k hk => ?_, fun p hp => ?_⟩
  · by_cases hpn : p = h.nextPipe
    · subst hpn
      rw [hnew] at hp
      cases hp
      exact .inl ⟨hends s hs, htype s hs⟩
    · rw [hold p hpn] at hp
      have hs' : s ∉ [i, j] := by
        intro hmem
        rcases List.mem_pair.mp hmem with rfl | rfl
        · exact hi p ctx hp hs
        · exact hj p ctx hp hs
      refine (ho.ends p ctx hp s hs).imp (fun hb => ⟨?_, hb.2⟩) fun hv => ⟨hv.1, ?_, hv.3⟩
      · rw [hothers s hs', hb.1]
      · rw [hothers s hs', hv.ref]
  · by_cases hmem : k ∈ [i, j]
    · rw [hends k hmem] at hk
      cases hk
      exact ⟨_, hnew, hmem⟩
    · rw [hothers k hmem] at hk
      obtain ⟨ctx, hp, hin⟩ := ho.refs k p hk
      have hpn : p ≠ h.nextPipe := by
        rintro rfl
        rw [ho.fresh _ le_rfl] at hp
        cases hp
      exact ⟨ctx, (hold p hpn).trans hp, hin⟩
  · by_cases hmem : k ∈ [i, j]
    · exact .inr ⟨_, hends k hmem⟩
    · rw [hothers k hmem]
      exact ho.unions k hk
  · have hle : h.nextPipe + 1 ≤ p := hp
    rw [hold p (by omega)]
    exact ho.fresh p (by omega)

theorem setPipe {p : ℕ} {ctx : PipeCtx} (ho : h.Owned) (hp : h.pipes p = some ctx) (q : Pipe) :
    (h.setPipe p (some { ctx with toPipe := q })).Owned := by
  have hpipes : ∀ p' ctx', (h.setPipe p (some { ctx with toPipe := q })).pipes p' = some ctx' →
      ∃ ctx₀, h.pipes p' = some ctx₀ ∧ ctx'.ends = ctx₀.ends := by
    intro p' ctx' hp'
    by_cases hpp : p' = p
    · subst hpp
      cases (Function.update_self ..).symm.trans hp'
      exact ⟨ctx, hp, rfl⟩
    · exact ⟨ctx', (Function.update_of_ne hpp ..).symm.trans hp', rfl⟩
  refine ⟨ho.sane, fun p' ctx' hp' s hs => ?_, fun k p' hk => ?_, ho.unions, fun p' hp' => ?_⟩
  · obtain ⟨ctx₀, hp₀, hends⟩ := hpipes p' ctx' hp'
    exact (ho.ends p' ctx₀ hp₀ s (hends ▸ hs)).imp id fun hv => ⟨hv.1, hv.2, hv.3⟩
  · obtain ⟨ctx₀, hp₀, hin⟩ := ho.refs k p' hk
    by_cases hpp : p' = p
    · subst hpp
      rw [hp] at hp₀
      cases hp₀
      exact ⟨_, Function.update_self .., hin⟩
    · exact ⟨ctx₀, (Function.update_of_ne hpp ..).trans hp₀, hin⟩
  · have hpp : p' ≠ p := by
      rintro rfl
      rw [ho.fresh p' hp'] at hp
      cases hp
    exact (Function.update_of_ne hpp ..).trans (ho.fresh p' hp')

/-- The pipe is freed and the unions of its ends are cleared. -/
theorem freed {p : ℕ} {ctx : PipeCtx} (ho : h.Owned) (hp : h.pipes p = some ctx) :
    (((h.setRef ctx.socket0 .null).setRef ctx.socket1 .null).setPipe p none).Owned := by
  generalize hh' : ((h.setRef ctx.socket0 .null).setRef ctx.socket1 .null).setPipe p none = h'
  have hends : ∀ s ∈ ctx.ends, h'.ref s = .null := by
    intro s hs
    rw [← hh']
    exact update_pair hs
  have hothers : ∀ s, s ∉ ctx.ends → h'.ref s = h.ref s := by
    intro s hs
    rw [PipeCtx.ends, List.mem_pair, not_or] at hs
    rw [← hh']
    exact (Function.update_of_ne hs.2 ..).trans (Function.update_of_ne hs.1 ..)
  have hgone : h'.pipes p = none := by
    rw [← hh']
    exact Function.update_self ..
  have hold : ∀ p', p' ≠ p → h'.pipes p' = h.pipes p' := by
    intro p' hpp
    rw [← hh']
    exact Function.update_of_ne hpp ..
  have hsmap : h'.ep = h.ep := by rw [← hh']; rfl
  refine ⟨by rw [← hh']; exact ho.sane, fun p' ctx' hp' s hs => ?_, fun k p' hk => ?_,
    fun k hk => ?_, fun p' hp' => ?_⟩
  · have hpp : p' ≠ p := by
      rintro rfl
      rw [hgone] at hp'
      cases hp'
    rw [hold p' hpp] at hp'
    rcases ho.ends p' ctx' hp' s hs with hb | hv
    · -- an end of another pipe is not one of this pipe
      have hs' : s ∉ ctx.ends := by
        intro hmem
        rcases ho.ends p ctx hp s hmem with hb' | hv'
        · exact hpp (UnionRef.pp.inj (hb.1.symm.trans hb'.1))
        · exact absurd (hb.1.symm.trans hv'.ref) nofun
      exact .inl ⟨(hothers s hs').trans hb.1, hsmap ▸ hb.2⟩
    · refine .inr ⟨hsmap ▸ hv.socktype, ?_, hsmap ▸ hv.epoll⟩
      by_cases hmem : s ∈ ctx.ends
      · exact hends s hmem
      · exact (hothers s hmem).trans hv.ref
  · have hmem : k ∉ ctx.ends := by
      intro hmem
      rw [hends k hmem] at hk
      cases hk
    rw [hothers k hmem] at hk
    obtain ⟨ctx', hp', hin⟩ := ho.refs k p' hk
    have hpp : p' ≠ p := by
      rintro rfl
      rw [hp] at hp'
      cases hp'
      exact hmem hin
    exact ⟨ctx', (hold p' hpp).trans hp', hin⟩
  · by_cases hmem : k ∈ ctx.ends
    · exact .inl (hends k hmem)
    · rw [hothers k hmem]
      exact ho.unions k (hsmap ▸ hk)
  · by_cases hpp : p' = p
    · rw [hpp, hgone]
    · rw [hold p' hpp]
      refine ho.fresh p' ?_
      rw [← hh'] at hp'
      exact hp'

/-- A call on a pipe follows no stale pointer. -/
theorem effect {i : ℕ} (ho : h.Owned) (he : PipeEffect h i h') : h'.Owned := by
  cases he with
  | idle => exact ho
  | wild hi htype hnull hlost =>
    obtain ⟨p, hp⟩ := (ho.unions i htype).resolve_left hnull
    obtain ⟨ctx, hctx, -⟩ := ho.refs i p hp
    exact absurd ⟨hi, htype, hp, hctx⟩ (hlost p ctx)
  | used hfound q hr => exact (ho.setPipe hfound.pipe q).raises hr
  | freed hfound => exact ho.freed hfound.pipe

end Owned

/-! ## Runs -/

theorem Owned.mtcpPipe (ho : h.Owned) (memory : Bool) (chunk : ℕ → U8)
    (hspare : ∀ s ∈ h.next.take 2, h.Spare s) : (h.mtcpPipe memory chunk).1.Owned := by
  have hmade := mtcpPipe_made (h := h) memory chunk
  generalize h.mtcpPipe memory chunk = result at hmade ⊢
  cases hmade with
  | full => exact ho
  | half _ _ hnext => exact (ho.taken (hspare _ hnext) ..).freeSocket _
  | noMemory _ _ _ _ hnext =>
    rw [hnext, List.forall_mem_cons, List.forall_mem_singleton] at hspare
    obtain ⟨hi, hj⟩ := hspare
    exact (((ho.taken hi ..).taken hj ..).freeSocket _).freeSocket _
  | made _ _ _ _ hnext =>
    rw [hnext, List.forall_mem_cons, List.forall_mem_singleton] at hspare
    obtain ⟨hi, hj⟩ := hspare
    refine ((ho.taken hi ..).taken hj ..).joined hi hj (fun s hs => ?_) chunk
    exact congrArg EpollSocket.socktype (update_pair hs)

theorem Owned.allocate (ho : h.Owned) {socktype : SockType} {k : ℕ}
    (ha : h.allocateSocket socktype = (h', some k)) (hnext : ∀ s ∈ h.next.take 1, h.Spare s) :
    h'.Owned ∧ h'.Spare k ∧ (h'.ep.smap k).socktype = socktype := by
  obtain ⟨-, hfirst, free, -, rfl⟩ := allocateSocket_some ha
  have hspare := hnext k (by simp [hfirst])
  refine ⟨ho.taken hspare .., hspare, ?_⟩
  simp [PipeHost.taken, Epoll.setSocket]

theorem Owned.mtcpSocket (ho : h.Owned) (hnext : ∀ s ∈ h.next.take 1, h.Spare s) :
    h.mtcpSocket.Owned := by
  rw [PipeHost.mtcpSocket]
  cases ha : h.allocateSocket .stream with
  | mk h' socket =>
    cases socket with
    | none => exact allocateSocket_none ha ▸ ho
    | some k => exact (ho.allocate ha hnext).1

theorem Owned.mtcpAccept (ho : h.Owned) (i sid : ℕ) (more : Bool)
    (hnext : i < h.maxConcurrency → (h.ep.smap i).socktype = .listener →
      ∀ s ∈ h.next.take 1, h.Spare s) : (h.mtcpAccept i sid more).Owned := by
  rw [PipeHost.mtcpAccept]
  split_ifs with hno
  · exact ho
  · rw [not_or, not_le, not_not] at hno
    cases ha : h.allocateSocket .stream with
    | mk h' socket =>
      simp only
      cases socket with
      | none => exact allocateSocket_none ha ▸ ho
      | some k =>
        dsimp only
        have hr : Raises (· = i) (h'.setRef k (.stream sid))
            (if more = true ∧ ((h'.setRef k (.stream sid)).ep.smap i).epoll &&& epollEt = 0 then
              (h'.setRef k (.stream sid)).addEpollEvent .usrShadow i epollIn
            else h'.setRef k (.stream sid)) := by
          split
          · exact addEpollEvent_raises ..
          · exact .refl
        obtain ⟨ho', hspare, htype⟩ := ho.allocate ha (hnext hno.1 hno.2)
        exact (ho'.setRef (r := .stream sid) hspare (by simp) (by rw [htype]; decide)).raises hr

theorem Owned.mtcpEpollCreate (ho : h.Owned) (size : ℕ)
    (hnext : size ≠ 0 → ∀ s ∈ h.next.take 1, h.Spare s) : (h.mtcpEpollCreate size).Owned := by
  rw [PipeHost.mtcpEpollCreate]
  split_ifs with hsize
  · exact ho
  · cases ha : h.allocateSocket .epoll with
    | mk h' socket =>
      simp only
      cases socket with
      | none => exact allocateSocket_none ha ▸ ho
      | some k =>
        obtain ⟨ho', hspare, htype⟩ := ho.allocate ha (hnext hsize)
        have howned := ho'.setRef (r := .ep) hspare (by simp) (by rw [htype]; decide)
        exact howned.raises (.of_queues rfl rfl)

theorem Owned.mtcpClose (ho : h.Owned) (i : ℕ) : (h.mtcpClose i).Owned := by
  rw [PipeHost.mtcpClose]
  by_cases hrange : h.maxConcurrency ≤ i
  · rw [if_pos hrange]
    exact ho
  rw [if_neg hrange]
  split
  case h_1 => exact ho
  case h_2 => exact ho.freeSocket i
  case h_3 => exact ho.freeSocket i
  case h_4 htype =>
    have hspare := ho.spare (by rw [htype]; decide) (by rw [htype]; decide)
    exact (ho.setRef (r := .null) hspare (by simp) (by rw [htype]; decide)).freeSocket i
  case h_5 htype =>
    split_ifs
    · have hspare := ho.spare (by rw [htype]; decide) (by rw [htype]; decide)
      have hclosed : { h with hasEp := false }.Owned :=
        ⟨ho.sane, fun p ctx hp s hs => (ho.ends p ctx hp s hs).imp id fun hv => ⟨hv.1, hv.2, hv.3⟩,
          ho.refs, ho.unions, ho.fresh⟩
      exact (hclosed.setRef (r := .null) hspare (by simp) (by rw [htype]; decide)).freeSocket i
    · exact ho.freeSocket i
  case h_6 => exact (ho.effect (pipeClose_effect i)).freeSocket i

theorem Owned.mtcpListen (ho : h.Owned) (i l : ℕ) (ok : Bool) : (h.mtcpListen i l ok).Owned := by
  rw [PipeHost.mtcpListen]
  dsimp only
  by_cases hrange : h.maxConcurrency ≤ i
  · rw [if_pos hrange]
    exact ho
  rw [if_neg hrange]
  by_cases htype : (h.ep.smap i).socktype = .stream ∨ (h.ep.smap i).socktype = .listener
  · rw [if_pos htype]
    have hspare : h.Spare i := by
      rcases htype with ht | ht <;> exact ho.spare (by rw [ht]; decide) (by rw [ht]; decide)
    have hnotpp : ∀ p, h.ref i ≠ .pp p := by
      intro p hp
      obtain ⟨ctx, hctx, hi⟩ := ho.refs i p hp
      exact hspare p ctx hctx hi
    have hlisten : Owned
        { h with ep := h.ep.setSocket i { h.ep.smap i with socktype := .listener } } :=
      ho.of_entry hspare rfl rfl rfl (fun k hk => Function.update_of_ne hk ..) (fun k _ => rfl)
        hnotpp (by simp [Epoll.setSocket])
    split_ifs
    · exact hlisten.setRef (r := .listener l) hspare (by simp) (by simp [Epoll.setSocket])
    · exact hlisten
  · rw [if_neg htype]
    exact ho

theorem Owned.apply (ho : h.Owned) {c : PipeCall} (hc : h.Spares c) : (h.apply c).Owned := by
  cases c with
  | pipe memory chunk => exact ho.mtcpPipe memory chunk hc
  | socket => exact ho.mtcpSocket hc
  | accept i sid more => exact ho.mtcpAccept i sid more hc
  | connect i sid =>
    rw [PipeHost.apply, mtcpConnect]
    split_ifs with hrange hstream
    · exact ho
    · have htype := hstream.1
      exact ho.setRef (ho.spare (by rw [htype]; decide) (by rw [htype]; decide)) (by simp)
        (by rw [htype]; decide)
    · exact ho
  | listen i l ok => exact ho.mtcpListen i l ok
  | setNonblock i =>
    rw [PipeHost.apply, mtcpSetsockNonblock]
    split_ifs
    · exact ho
    · exact ⟨ho.sane, fun p ctx hp s hs =>
        (ho.ends p ctx hp s hs).imp id fun hv => ⟨hv.1, hv.2, hv.3⟩, ho.refs, ho.unions, ho.fresh⟩
  | epollCreate size => exact ho.mtcpEpollCreate size hc
  | ctl epid op i events data readable writable =>
    obtain ⟨s, hs, hr⟩ := mtcpEpollCtl_raises (h := h) epid op i events data readable writable
    exact (ho.setSocket hs hc).raises hr
  | read i len => exact ho.effect (pipeRead_effect i len)
  | write i data => exact ho.effect (pipeWrite_effect i data)
  | close i => exact ho.mtcpClose i
  | raise q i event => exact ho.raises (addEpollEvent_raises q i event)
  | flush => exact ho.raises (.of_queues rfl rfl)
  | wait maxevents => exact ho.raises (wait_raises maxevents)

theorem owned_init (n : ℕ) : (init n).Owned :=
  ⟨rfl, nofun, nofun, nofun, fun _ _ => rfl⟩

theorem Reached.owned {n : ℕ} (hreach : Reached Spares n h) : h.Owned := by
  induction hreach with
  | init => exact owned_init n
  | call _ c hc ih => exact ih.apply hc

/-! ## The frame of a call on a pipe -/

/-- From `h` to `h'` only entries that belong to the pipe of socket `i` have changed, and no freed
pipe has been used. -/
structure OwnEnds (h h' : PipeHost) (i : ℕ) : Prop where
  sane : h'.wild = false
  frame : ∀ k, h'.entry k ≠ h.entry k → ∃ p, h.Belongs p i ∧ h.Belongs p k

theorem Owned.ownEnds {i : ℕ} (ho : h.Owned) (he : PipeEffect h i h') : OwnEnds h h' i := by
  refine ⟨(ho.effect he).sane, fun k hk => ?_⟩
  cases he with
  | idle => exact absurd rfl hk
  | wild => exact absurd rfl hk
  | @used p ctx hfound q _ hr =>
    have hi : h.Belongs p i := ⟨hfound.ref, hfound.socktype⟩
    refine ⟨p, hi, ?_⟩
    -- an entry with other events is this one or the registered pair
    have honly : k = i ∨ k = pairSocket ctx i ∧ (h.ep.smap k).epoll ≠ 0 := by
      by_contra hother
      apply hk
      rw [entry, entry, hr.smap_eq k hother, hr.nonblock_eq, hr.ref_eq]
      rfl
    rcases honly with rfl | ⟨hpair, hepoll⟩
    · exact hi
    · have hmem : k ∈ ctx.ends := by
        rw [hpair, pairSocket, PipeCtx.ends]
        split_ifs <;> simp
      exact (ho.ends p ctx hfound.pipe k hmem).resolve_right fun hv => hepoll hv.epoll
  | @freed p ctx hfound =>
    refine ⟨p, ⟨hfound.ref, hfound.socktype⟩, ?_⟩
    -- an entry with another union is an end that was not yet vacant
    by_contra hnot
    apply hk
    have href : (((h.setRef ctx.socket0 .null).setRef ctx.socket1 .null).setPipe p none).ref k =
        h.ref k := by
      by_cases hmem : k ∈ ctx.ends
      · have hv := (ho.ends p ctx hfound.pipe k hmem).resolve_left hnot
        rw [hv.ref]
        exact update_pair hmem
      · rw [PipeCtx.ends, List.mem_pair, not_or] at hmem
        exact (Function.update_of_ne hmem.2 ..).trans (Function.update_of_ne hmem.1 ..)
    rw [entry, entry, href]
    rfl

/-- In a run in which no call takes a socket that a pipe still points to, reading, writing and
closing a pipe changes entries of the socket map that belong to it and no other. -/
theorem pipe_calls_frame {n : ℕ} (hreach : Reached Spares n h) (i : ℕ) :
    (∀ len, OwnEnds h (h.pipeRead i len).1 i) ∧
      (∀ data, OwnEnds h (h.pipeWrite i data).1 i) ∧
      OwnEnds h (h.pipeClose i).1 i :=
  ⟨fun len => hreach.owned.ownEnds (pipeRead_effect i len),
    fun data => hreach.owned.ownEnds (pipeWrite_effect i data),
    hreach.owned.ownEnds (pipeClose_effect i)⟩

/-- One end of a pipe is closed, its number is taken by a socket that connects, and then the other
end is closed: the connected socket loses its stream. -/
theorem reused_end_cleared :
    ∃ h, Reached (fun _ _ => True) 2 h ∧ (h.ep.smap 0).socktype = .stream ∧ h.ref 0 = .stream 7 ∧
      (h.pipeClose 1).2 = .ok () ∧ (h.pipeClose 1).1.ref 0 = .null := by
  have hrun : ∀ {h : PipeHost} (c : PipeCall), Reached (fun _ _ => True) 2 h →
      Reached (fun _ _ => True) 2 (h.apply c) := fun c hreach => .call hreach c trivial
  have hclosed := hrun (.close 0) (hrun (.pipe true fun _ => 0) .init)
  exact ⟨_, hrun (.connect 0 7) (hrun .socket hclosed),
    by rfl, by rfl, by rfl, by rfl⟩

/-- Beside another socket the first end of a pipe is closed, then the second one. -/
theorem pipe_calls_frame_close :
    ∃ h, Reached Spares 3 h ∧ (h.ep.smap 2).socktype = .stream ∧ (h.ep.smap 0).socktype = .unused ∧
      OwnEnds h (h.pipeClose 1).1 1 := by
  have hmade : Reached Spares 3 ((init 3).apply (.pipe true fun _ => 0)) :=
    .call .init _ fun _ _ _ _ hp => nomatch hp
  have hsocket := hmade.call .socket fun s hs p ctx hp => by
    obtain rfl : s = 2 := List.mem_singleton.mp hs
    change Function.update (fun _ => none) 0 (some (madePipe (fun _ => 0) 0 1)) p = some ctx at hp
    rw [Function.update_apply] at hp
    split_ifs at hp
    obtain rfl := Option.some.inj hp
    decide
  have hclosed := hsocket.call (.close 0) trivial
  exact ⟨_, hclosed, by rfl, by rfl, (pipe_calls_frame hclosed 1).2.2⟩

end PipeHost

end MtcpStack
