import MtcpStack.Verification.FlowEffects
import MtcpStack.Verification.SocketCalls

/-! # One stream for each flow, one owner for each address

The table lists exactly the live streams. A pool in use never holds an address as free that a
stream has from it. Both follow effect by effect, and with them that no 4-tuple has two streams
and that an address goes back to the pool it came from. -/

namespace MtcpStack

namespace FlowView

variable {avoid : HostHazard → Prop} {v v' : FlowView} {net : NetConfig} {a : SockAddr}
  {pid : PoolId} {sid : ℕ} {f : Flow}

/-! ## Live streams -/

theorem update_live {streams : ℕ → Option Flow} {sid sid' : ℕ} {f g : Flow}
    (hg : Function.update streams sid (some f) sid' = some g) :
    sid' = sid ∧ g = f ∨ sid' ≠ sid ∧ streams sid' = some g := by
  by_cases hs : sid' = sid
  · subst hs
    exact .inl ⟨rfl, by simpa [eq_comm] using hg⟩
  · exact .inr ⟨hs, by simpa [hs] using hg⟩

theorem remove_live {sid sid' : ℕ} {f g : Flow} (hg : (v.remove sid f).streams sid' = some g) :
    sid' ≠ sid ∧ v.streams sid' = some g := by
  by_cases hs : sid' = sid
  · simp [FlowView.remove, hs] at hg
  · exact ⟨hs, by simpa [FlowView.remove, hs] using hg⟩

theorem Fetches.frame (hfetch : v.Fetches pid a v') :
    v'.streams = v.streams ∧ v'.flowTable = v.flowTable ∧ v'.gId = v.gId ∧
      v'.log = v.log ++ [.fetched v.gId pid a] := by
  obtain ⟨ap, -, -, -, rfl⟩ | ⟨-, i, ap, -, -, -, rfl⟩ := hfetch <;> exact ⟨rfl, rfl, rfl, rfl⟩

theorem giveBack_frame (sid : ℕ) (a : SockAddr) (v : FlowView) :
    (v.giveBack sid a).streams = v.streams ∧ (v.giveBack sid a).flowTable = v.flowTable ∧
      (v.giveBack sid a).gId = v.gId := by
  unfold giveBack
  split
  · split <;> exact ⟨rfl, rfl, rfl⟩
  · split
    · split <;> exact ⟨rfl, rfl, rfl⟩
    · exact ⟨rfl, rfl, rfl⟩

/-! ## The table -/

/-- The table lists the live streams, each once and in the bin of its 4-tuple. -/
structure Tabled (v : FlowView) : Prop where
  listed : ∀ {sid f}, v.streams sid = some f → sid ∈ v.flowTable (Host.hashFlow f.key)
  live : ∀ {b sid}, sid ∈ v.flowTable b → ∃ f, v.streams sid = some f ∧ Host.hashFlow f.key = b
  fresh : ∀ {sid}, v.gId ≤ sid → v.streams sid = none
  nodup : ∀ b, (v.flowTable b).Nodup

theorem Tabled.congr (h : v.Tabled) (hstreams : v'.streams = v.streams)
    (htable : v'.flowTable = v.flowTable) (hid : v'.gId = v.gId) : v'.Tabled where
  listed hlive := by
    rw [htable]
    exact h.listed (hstreams ▸ hlive)
  live hmem := by
    rw [hstreams]
    exact h.live (htable ▸ hmem)
  fresh hle := by
    rw [hstreams]
    exact h.fresh (hid ▸ hle)
  nodup b := htable ▸ h.nodup b

theorem Tabled.touched (h : v.Tabled) {f f' : Flow} (hlive : v.streams sid = some f)
    (hkey : f'.key = f.key) :
    Tabled { v with streams := Function.update v.streams sid (some f') } where
  listed {sid' g} hg := by
    rcases update_live hg with ⟨rfl, rfl⟩ | ⟨-, hold⟩
    · exact hkey ▸ h.listed hlive
    · exact h.listed hold
  live {b sid'} hmem := by
    obtain ⟨g, hg, hb⟩ := h.live hmem
    by_cases hs : sid' = sid
    · subst hs
      obtain rfl : f = g := Option.some.inj (hlive.symm.trans hg)
      exact ⟨f', by simp, hkey ▸ hb⟩
    · exact ⟨g, by simpa [hs] using hg, hb⟩
  fresh {sid'} hle := by
    have hnone := h.fresh hle
    have hs : sid' ≠ sid := by
      rintro rfl
      rw [hlive] at hnone
      cases hnone
    simpa [hs] using hnone
  nodup := h.nodup

theorem Tabled.insert (h : v.Tabled) (f : Flow) : (v.insert f).Tabled where
  listed {sid g} hg := by
    rcases update_live hg with ⟨rfl, rfl⟩ | ⟨-, hold⟩
    · simp [FlowView.insert]
    · have hmem := h.listed hold
      by_cases hb : Host.hashFlow g.key = Host.hashFlow f.key
      · simpa [FlowView.insert, hb] using .inl (hb ▸ hmem)
      · simpa [FlowView.insert, hb] using hmem
  live {b sid} hmem := by
    have hcases : sid ∈ v.flowTable b ∨ sid = v.gId ∧ b = Host.hashFlow f.key := by
      by_cases hb : b = Host.hashFlow f.key
      · subst hb
        simpa [FlowView.insert] using hmem
      · exact .inl (by simpa [FlowView.insert, hb] using hmem)
    rcases hcases with hold | ⟨rfl, rfl⟩
    · obtain ⟨g, hg, hb⟩ := h.live hold
      have hs : sid ≠ v.gId := by
        rintro rfl
        rw [h.fresh le_rfl] at hg
        cases hg
      exact ⟨g, by simpa [FlowView.insert, hs] using hg, hb⟩
    · exact ⟨f, by simp [FlowView.insert], rfl⟩
  fresh {sid} hle := by
    have hlt : v.gId < sid := hle
    simpa [FlowView.insert, hlt.ne'] using h.fresh hlt.le
  nodup b := by
    have hnot : v.gId ∉ v.flowTable b := by
      intro hmem
      obtain ⟨g, hg, -⟩ := h.live hmem
      rw [h.fresh le_rfl] at hg
      cases hg
    by_cases hb : b = Host.hashFlow f.key
    · subst hb
      simpa [FlowView.insert, List.nodup_append, hnot] using
        ⟨h.nodup _, fun sid hmem heq => hnot (heq ▸ hmem)⟩
    · simpa [FlowView.insert, hb] using h.nodup b

theorem Tabled.remove (h : v.Tabled) (hlive : v.streams sid = some f) :
    (v.remove sid f).Tabled where
  listed {sid' g} hg := by
    obtain ⟨hs, hold⟩ := remove_live hg
    have hmem := h.listed hold
    by_cases hb : Host.hashFlow g.key = Host.hashFlow f.key
    · simpa [FlowView.remove, hb] using (List.mem_erase_of_ne hs).mpr (hb ▸ hmem)
    · simpa [FlowView.remove, hb] using hmem
  live {b sid'} hmem := by
    have hold : sid' ∈ v.flowTable b ∧ sid' ≠ sid := by
      by_cases hb : b = Host.hashFlow f.key
      · subst hb
        have hmem' : sid' ∈ (v.flowTable (Host.hashFlow f.key)).erase sid := by
          simpa [FlowView.remove] using hmem
        have := (h.nodup _).mem_erase_iff.mp hmem'
        exact ⟨this.2, this.1⟩
      · have hmem' : sid' ∈ v.flowTable b := by simpa [FlowView.remove, hb] using hmem
        refine ⟨hmem', ?_⟩
        rintro rfl
        obtain ⟨g, hg, hgb⟩ := h.live hmem'
        obtain rfl : f = g := Option.some.inj (hlive.symm.trans hg)
        exact hb hgb.symm
    obtain ⟨g, hg, hb⟩ := h.live hold.1
    exact ⟨g, by simpa [FlowView.remove, hold.2] using hg, hb⟩
  fresh {sid'} hle := by
    by_cases hs : sid' = sid
    · simp [FlowView.remove, hs]
    · simpa [FlowView.remove, hs] using h.fresh hle
  nodup b := by
    by_cases hb : b = Host.hashFlow f.key
    · subst hb
      simpa [FlowView.remove] using (h.nodup _).erase sid
    · simpa [FlowView.remove, hb] using h.nodup b

theorem Fetches.tabled (hfetch : v.Fetches pid a v') (h : v.Tabled) : v'.Tabled := by
  obtain ⟨hs, ht, hid, -⟩ := hfetch.frame
  exact h.congr hs ht hid

theorem Tabled.effect (h : v.Tabled) (heff : FlowEffect avoid v v') : v'.Tabled := by
  cases heff with
  | same => exact h
  | touched hlive hkey _ => exact h.touched hlive hkey
  | opened => exact h.insert _
  | fetched hfetch => exact hfetch.tabled h
  | openedFrom hfetch => exact (hfetch.tabled h).insert _
  | replaced => exact h.congr rfl rfl rfl
  | @destroyed sid f hlive =>
    split
    · obtain ⟨hs, ht, hid⟩ := giveBack_frame sid f.src (v.remove sid f)
      exact (h.remove hlive).congr hs ht hid
    · exact h.remove hlive

theorem Tabled.key_of_search (h : v.Tabled) {key : SockAddr × SockAddr}
    (hnone : v.search key = none) (hlive : v.streams sid = some f) :
    f.key ≠ key := by
  rintro rfl
  have := List.find?_eq_none.mp hnone sid (h.listed hlive)
  simp [hlive] at this

/-- The search finds a stream that is the only one with its 4-tuple. -/
theorem Tabled.search_of_unique (h : v.Tabled) (hlive : v.streams sid = some f)
    (hunique : ∀ {sid' g}, v.streams sid' = some g → g.key = f.key → sid' = sid) :
    v.search f.key = some sid := by
  cases hfind : v.search f.key with
  | none => exact absurd rfl (h.key_of_search hfind hlive)
  | some sid' =>
    have hkey : (v.streams sid').map Flow.key = some f.key := by
      simpa using List.find?_some hfind
    obtain ⟨g, hg, hgkey⟩ := Option.map_eq_some_iff.mp hkey
    rw [hunique hg hgkey]

/-! ## The pools -/

/-- The pools are sound, and those of the interfaces manage what they managed at the start. -/
structure Pooled (net : NetConfig) (v : FlowView) : Prop where
  net_eq : v.net = net
  core : ∀ {ap}, v.ap = some ap → ap.Sound
  each : ∀ {i : ℕ} {ap : AddrPool}, v.pools[i]? = some ap → ap.Sound
  mapped : v.pools.map AddrPool.mapped = net.eths.map fun e => (createAddressPool e.1 1).mapped

theorem Pooled.congr (h : v.Pooled net) (hnet : v'.net = v.net) (hap : v'.ap = v.ap)
    (hpools : v'.pools = v.pools) : v'.Pooled net where
  net_eq := hnet.trans h.net_eq
  core hap' := h.core (hap ▸ hap')
  each hpool := h.each (hpools ▸ hpool)
  mapped := hpools ▸ h.mapped

/-- One pool is exchanged for a sound one that manages the same addresses. -/
theorem Pooled.setPool (h : v.Pooled net) {i : ℕ} {ap ap' : AddrPool} (hpool : v.pools[i]? = some ap)
    (hsound : ap'.Sound) (hmapped : ap'.mapped = ap.mapped) :
    Pooled net { v with pools := v.pools.set i ap' } where
  net_eq := h.net_eq
  core := h.core
  each {j q} hq := by
    rw [List.getElem?_set] at hq
    split_ifs at hq with hij hlt
    · cases hq
      exact hsound
    · exact h.each hq
  mapped := by
    rw [← h.mapped, List.map_set, hmapped]
    refine List.ext_getElem? fun j => ?_
    rw [List.getElem?_set]
    split_ifs with hij hlt
    · subst hij
      simp [hpool]
    · subst hij
      simp only [List.length_map, not_lt] at hlt
      simp [hlt]
    · rfl

theorem Pooled.setCore (h : v.Pooled net) {ap : Option AddrPool} {gen : ℕ} {log : List PoolAct}
    (hsound : ∀ p, ap = some p → p.Sound) :
    Pooled net { v with ap := ap, apGen := gen, log := log } where
  net_eq := h.net_eq
  core := hsound _
  each := h.each
  mapped := h.mapped

theorem Fetches.pooled (hfetch : v.Fetches pid a v') (h : v.Pooled net) : v'.Pooled net := by
  obtain ⟨ap, hap, hfree, -, rfl⟩ | ⟨-, i, ap, hpool, hfree, -, rfl⟩ := hfetch
  · refine h.setCore fun p hp => ?_
    cases hp
    exact (h.core hap).use hfree
  · exact (h.setPool hpool ((h.each hpool).use hfree) rfl).congr rfl rfl rfl

theorem Pooled.giveBack (h : v.Pooled net) (sid : ℕ) (a : SockAddr) :
    (v.giveBack sid a).Pooled net := by
  unfold FlowView.giveBack
  split
  case h_1 ap hap =>
    split
    case h_1 ap' hfreed =>
      refine h.setCore fun p hp => ?_
      cases hp
      exact freeAddress_sound (h.core hap) hfreed
    case h_2 => exact h
  case h_2 =>
    split
    case h_2 => exact h
    case h_1 eidx _ =>
      split
      case h_2 => exact h
      case h_1 ap' hfreed =>
        obtain ⟨ap, hpool, hfreed'⟩ := Option.map_eq_some_iff.mp hfreed
        have hsound := freeAddress_sound (h.each hpool) hfreed'
        obtain ⟨-, -, -, -, hmapped⟩ := freeAddress_spec hfreed'
        exact (h.setPool hpool hsound hmapped).congr rfl rfl rfl

theorem Pooled.effect (h : v.Pooled net) (heff : FlowEffect avoid v v') : v'.Pooled net := by
  cases heff with
  | same => exact h
  | touched => exact h.congr rfl rfl rfl
  | opened => exact h.congr rfl rfl rfl
  | fetched hfetch => exact hfetch.pooled h
  | openedFrom hfetch => exact (hfetch.pooled h).congr rfl rfl rfl
  | replaced hsound => exact h.setCore hsound
  | @destroyed sid f _ =>
    have hremove : (v.remove sid f).Pooled net := h.congr rfl rfl rfl
    split
    · exact hremove.giveBack sid f.src
    · exact hremove

theorem createAddressPool_mapped {e : U32}
    (hmapped : (createAddressPool e 1).mapped a = true) : a.addr = e := by
  have hmem : a ∈ addressSpace (ntohl e) 1 := by
    have hcontains := (Bool.and_eq_true_iff.mp hmapped).2
    exact List.contains_iff_mem.mp hcontains
  obtain ⟨i, hi, hentry⟩ := List.mem_flatMap.mp hmem
  obtain ⟨j, -, rfl⟩ := List.mem_map.mp hentry
  obtain rfl : i = 0 := by simpa using hi
  simp [poolEntry, ntohl_ntohl]

/-- The pool of an interface manages only the address of the interface. -/
theorem Pooled.address (h : v.Pooled net) {i : ℕ} {ap : AddrPool}
    (hpool : v.pools[i]? = some ap) (hmapped : ap.mapped a = true) :
    ∃ eth, net.eths[i]? = some eth ∧ a.addr = eth.1 := by
  have hget := congrArg (·[i]?) h.mapped
  simp only [List.getElem?_map, hpool, Option.map_some] at hget
  obtain ⟨eth, heth, hsame⟩ := Option.map_eq_some_iff.mp hget.symm
  refine ⟨eth, heth, createAddressPool_mapped ?_⟩
  rwa [hsame]

theorem Pooled.same_pool (h : v.Pooled net) (hnodup : (net.eths.map Prod.fst).Nodup) {i j : ℕ}
    {p q : AddrPool} (hp : v.pools[i]? = some p) (hq : v.pools[j]? = some q)
    (hpa : p.mapped a = true) (hqa : q.mapped a = true) : i = j := by
  obtain ⟨e, he, hae⟩ := h.address hp hpa
  obtain ⟨e', he', hae'⟩ := h.address hq hqa
  have hi : (net.eths.map Prod.fst)[i]? = some a.addr := by simp [he, hae]
  have hj : (net.eths.map Prod.fst)[j]? = some a.addr := by simp [he', hae']
  obtain ⟨hlt, -⟩ := List.getElem?_eq_some_iff.mp hi
  exact (List.getElem?_inj hlt hnodup).mp (hi.trans hj.symm)

/-! ## Addresses lent to streams -/

/-- A pool in use has the address on its free list. -/
def Free (v : FlowView) (a : SockAddr) : Prop := ∃ ap ∈ v.active, a ∈ ap.freeList

theorem Pooled.active_sound (h : v.Pooled net) {ap : AddrPool} (hap : ap ∈ v.active) :
    ap.Sound := by
  unfold active at hap
  split at hap
  case h_1 p hp =>
    obtain rfl := List.mem_singleton.mp hap
    exact h.core hp
  case h_2 =>
    obtain ⟨i, hi⟩ := List.mem_iff_getElem?.mp hap
    exact h.each hi

theorem Fetches.was_free (hfetch : v.Fetches pid a v') : v.Free a := by
  obtain ⟨ap, hap, hfree, -, -⟩ | ⟨hap, i, ap, hpool, hfree, -, -⟩ := hfetch
  · exact ⟨ap, by simp [active, hap], hfree⟩
  · exact ⟨ap, by simpa [active, hap] using List.mem_of_getElem? hpool, hfree⟩

/-- An address that is fetched is not free any more, and no other becomes free. -/
theorem Fetches.free {a b : SockAddr} (hfetch : v.Fetches pid a v')
    (h : v.Pooled net) (hnodup : (net.eths.map Prod.fst).Nodup) (hfree : v'.Free b) :
    b ≠ a ∧ v.Free b := by
  obtain ⟨ap', hmem, hb⟩ := hfree
  obtain ⟨ap, hap, -, -, rfl⟩ | ⟨hap, i, ap, hpool, hfree, -, rfl⟩ := hfetch
  · obtain rfl : ap' = ap.use a := by simpa [active] using hmem
    have herase := ((List.nodup_append.mp (h.core hap).nodup).1.mem_erase_iff).mp hb
    exact ⟨herase.1, ap, by simp [active, hap], herase.2⟩
  · have hmem' : ap' ∈ v.pools.set i (ap.use a) := by simpa [active, hap] using hmem
    obtain ⟨j, hj⟩ := List.mem_iff_getElem?.mp hmem'
    rw [List.getElem?_set] at hj
    split_ifs at hj with hij hlt
    · cases hj
      have herase := ((List.nodup_append.mp (h.each hpool).nodup).1.mem_erase_iff).mp hb
      exact ⟨herase.1, ap, by simpa [active, hap] using List.mem_of_getElem? hpool, herase.2⟩
    · refine ⟨?_, ap', by simpa [active, hap] using List.mem_of_getElem? hj, hb⟩
      rintro rfl
      -- two interfaces would manage one address
      exact hij (h.same_pool hnodup hpool hj
        ((h.each hpool).mapped b (List.mem_append_left _ hfree))
        ((h.each hj).mapped b (List.mem_append_left _ hb)))

/-- Only the address that is given back becomes free. -/
theorem giveBack_free {a b : SockAddr} (hfree : (v.giveBack sid a).Free b) : b = a ∨ v.Free b := by
  obtain ⟨ap', hmem, hb⟩ := hfree
  unfold FlowView.giveBack at hmem
  split at hmem
  case h_1 ap hap =>
    split at hmem
    case h_2 => exact .inr ⟨ap', hmem, hb⟩
    case h_1 p hfreed =>
      obtain rfl : ap' = p := by simpa [active] using hmem
      rw [(freeAddress_spec hfreed).2.1, List.mem_append, List.mem_singleton] at hb
      exact hb.symm.imp_right fun hold => ⟨ap, by simp [active, hap], hold⟩
  case h_2 hap =>
    split at hmem
    case h_2 => exact .inr ⟨ap', hmem, hb⟩
    case h_1 eidx _ =>
      split at hmem
      case h_2 => exact .inr ⟨ap', hmem, hb⟩
      case h_1 p hfreed =>
        obtain ⟨ap, hpool, hfreed'⟩ := Option.map_eq_some_iff.mp hfreed
        have hmem' : ap' ∈ v.pools.set eidx p := by simpa [active, hap] using hmem
        rcases List.mem_or_eq_of_mem_set hmem' with hold | rfl
        · exact .inr ⟨ap', by simpa [active, hap] using hold, hb⟩
        · rw [(freeAddress_spec hfreed').2.1, List.mem_append, List.mem_singleton] at hb
          exact hb.symm.imp_right fun hold =>
            ⟨ap, by simpa [active, hap] using List.mem_of_getElem? hpool, hold⟩

/-- A stream with an address from a pool is the only one with it, and the address is not free. -/
structure Lent (v : FlowView) : Prop where
  taken : ∀ {sid f}, v.streams sid = some f → f.isBoundAddr = true → ¬ v.Free f.src
  owner : ∀ {sid sid' f f'}, v.streams sid = some f → v.streams sid' = some f' →
    f.isBoundAddr = true → f'.isBoundAddr = true → f.src = f'.src → sid = sid'

/-- Every bound stream was there before, with the same address. -/
theorem Lent.shrink (h : v.Lent)
    (hstreams : ∀ {sid f}, v'.streams sid = some f → f.isBoundAddr = true →
      ∃ g, v.streams sid = some g ∧ g.isBoundAddr = true ∧ g.src = f.src)
    (hfree : ∀ {sid f}, v'.streams sid = some f → f.isBoundAddr = true → v'.Free f.src →
      v.Free f.src) : v'.Lent where
  taken hlive hbound hf := by
    obtain ⟨g, hg, hgb, hsrc⟩ := hstreams hlive hbound
    exact h.taken hg hgb (hsrc ▸ hfree hlive hbound hf)
  owner hlive hlive' hbound hbound' hsrc := by
    obtain ⟨g, hg, hgb, hgsrc⟩ := hstreams hlive hbound
    obtain ⟨g', hg', hgb', hgsrc'⟩ := hstreams hlive' hbound'
    exact h.owner hg hg' hgb hgb' (hgsrc.trans (hsrc.trans hgsrc'.symm))

theorem Fetches.lent (hfetch : v.Fetches pid a v')
    (hpool : v.Pooled net) (hnodup : (net.eths.map Prod.fst).Nodup) (h : v.Lent) :
    v'.Lent ∧ ∀ {sid f}, v'.streams sid = some f → f.isBoundAddr = true → f.src ≠ a := by
  have hsame := hfetch.frame.1
  refine ⟨h.shrink (fun {sid f} hlive hbound => ⟨f, hsame ▸ hlive, hbound, rfl⟩)
    (fun _ _ hf => (hfetch.free hpool hnodup hf).2), fun hlive hbound heq => ?_⟩
  exact h.taken (hsame ▸ hlive) hbound (heq ▸ hfetch.was_free)

theorem Lent.insert (h : v.Lent) (hfree : f.isBoundAddr = true → ¬ v.Free f.src)
    (hnew : f.isBoundAddr = true → ∀ {sid g}, v.streams sid = some g → g.isBoundAddr = true →
      g.src ≠ f.src) : (v.insert f).Lent where
  taken {sid g} hg hbound := by
    rcases update_live hg with ⟨-, rfl⟩ | ⟨-, hold⟩
    · exact hfree hbound
    · exact h.taken hold hbound
  owner {sid sid' g g'} hg hg' hb hb' hsrc := by
    rcases update_live hg with ⟨rfl, rfl⟩ | ⟨-, hold⟩ <;>
      rcases update_live hg' with ⟨rfl, rfl⟩ | ⟨-, hold'⟩
    · rfl
    · exact absurd hsrc.symm (hnew hb hold' hb')
    · exact absurd hsrc (hnew hb' hold hb)
    · exact h.owner hold hold' hb hb' hsrc

theorem Lent.effect (h : v.Lent) (hpool : v.Pooled net) (hnodup : (net.eths.map Prod.fst).Nodup)
    (havoid : avoid .replacedPool) (heff : FlowEffect avoid v v') : v'.Lent := by
  cases heff with
  | same => exact h
  | @touched sid f f' hlive hkey hbound =>
    refine h.shrink (fun {sid' g} hg hgb => ?_) (fun _ _ hf => hf)
    rcases update_live hg with ⟨rfl, rfl⟩ | ⟨-, hold⟩
    · exact ⟨f, hlive, hbound ▸ hgb, (congrArg Prod.fst hkey).symm⟩
    · exact ⟨g, hold, hgb, rfl⟩
  | opened hbound => exact h.insert (by simp [hbound]) (by simp [hbound])
  | fetched hfetch => exact (hfetch.lent hpool hnodup h).1
  | openedFrom hfetch =>
    obtain ⟨hlent, hother⟩ := hfetch.lent hpool hnodup h
    exact hlent.insert (fun _ hf => (hfetch.free hpool hnodup hf).1 rfl) fun _ {_ _} => hother
  | replaced _ hfree =>
    have hnone := hfree havoid
    constructor
    · intro sid f hlive hb
      exact absurd hb (by simp [hnone sid f hlive])
    · intro sid _ f _ hlive _ hb
      exact absurd hb (by simp [hnone sid f hlive])
  | @destroyed sid f hlive =>
    split
    case isFalse =>
      exact h.shrink (fun hg hb => ⟨_, (remove_live hg).2, hb, rfl⟩) (fun _ _ hf => hf)
    case isTrue hbound =>
      have hsame := (giveBack_frame sid f.src (v.remove sid f)).1
      refine h.shrink (fun hg hb => ⟨_, (remove_live (hsame ▸ hg)).2, hb, rfl⟩)
        (fun hg hb hf => ?_)
      obtain ⟨hne, hg'⟩ := remove_live (hsame ▸ hg)
      rcases giveBack_free hf with heq | hf'
      · exact absurd (h.owner hg' hlive hb hbound heq) hne
      · exact hf'

/-! ## One stream for each 4-tuple -/

def Distinct (v : FlowView) : Prop :=
  ∀ ⦃sid sid' f f'⦄, v.streams sid = some f → v.streams sid' = some f' → f.key = f'.key →
    sid = sid'

theorem Distinct.congr (h : v.Distinct) (hstreams : v'.streams = v.streams) : v'.Distinct := by
  intro sid sid' f f' hf hf'
  rw [hstreams] at hf hf'
  exact h hf hf'

theorem Distinct.insert (h : v.Distinct)
    (hnew : ∀ {sid g}, v.streams sid = some g → g.key ≠ f.key) : (v.insert f).Distinct := by
  intro sid sid' g g' hg hg' hkey
  rcases update_live hg with ⟨rfl, rfl⟩ | ⟨-, hold⟩ <;>
    rcases update_live hg' with ⟨rfl, rfl⟩ | ⟨-, hold'⟩
  · rfl
  · exact absurd hkey.symm (hnew hold')
  · exact absurd hkey (hnew hold)
  · exact h hold hold' hkey

/-- A stream opened from a pool has a new 4-tuple. -/
theorem Fetches.new_key {f g : Flow} (hfetch : v.Fetches pid f.src v')
    (hpool : v.Pooled net) (hlent : v.Lent) (hshare : ¬ v.Shared f.dst)
    (hlive : v'.streams sid = some g) : g.key ≠ f.key := by
  intro hkey
  obtain ⟨hsrc, hdst⟩ := Prod.mk.inj hkey
  rw [hfetch.frame.1] at hlive
  obtain ⟨ap, hap, hfree⟩ := hfetch.was_free
  cases hbound : g.isBoundAddr with
  | true => exact hlent.taken hlive hbound ⟨ap, hap, hsrc ▸ hfree⟩
  | false =>
    have hmapped := (hpool.active_sound hap).mapped f.src (List.mem_append_left _ hfree)
    exact hshare ⟨sid, g, hlive, hbound, hdst, ap, hap, hsrc ▸ hmapped⟩

theorem Distinct.effect (h : v.Distinct) (htable : v.Tabled) (hpool : v.Pooled net)
    (hlent : v.Lent) (havoid : avoid .sharedAddress) (heff : FlowEffect avoid v v') :
    v'.Distinct := by
  cases heff with
  | same => exact h
  | touched hlive hkey _ =>
    intro sid sid' g g' hg hg' hsame
    rcases update_live hg with ⟨rfl, rfl⟩ | ⟨-, hold⟩ <;>
      rcases update_live hg' with ⟨rfl, rfl⟩ | ⟨-, hold'⟩
    · rfl
    · exact h hlive hold' (hkey.symm.trans hsame)
    · exact h hold hlive (hsame.trans hkey)
    · exact h hold hold' hsame
  | opened _ hnew => exact h.insert fun hlive => htable.key_of_search (hnew havoid) hlive
  | fetched hfetch => exact h.congr hfetch.frame.1
  | openedFrom hfetch _ hshare =>
    exact (h.congr hfetch.frame.1).insert
      fun hlive => hfetch.new_key hpool hlent (hshare havoid) hlive
  | replaced => exact h.congr rfl
  | @destroyed sid f _ =>
    have hremove : (v.remove sid f).Distinct :=
      fun _ _ _ _ hg hg' hkey => h (remove_live hg).2 (remove_live hg').2 hkey
    split
    · exact hremove.congr (giveBack_frame sid f.src (v.remove sid f)).1
    · exact hremove

end FlowView

/-! ## Runs -/

theorem Host.init_tabled (cfg : Config) (core : CoreConfig) (net : NetConfig) :
    (Host.init cfg core net).view.Tabled where
  listed := nofun
  live := nofun
  fresh _ := rfl
  nodup _ := List.nodup_nil

theorem Host.init_pooled (cfg : Config) (core : CoreConfig) (net : NetConfig) :
    (Host.init cfg core net).view.Pooled net where
  net_eq := rfl
  core := nofun
  each hpool := by
    obtain ⟨e, -, rfl⟩ := List.mem_map.mp (List.mem_of_getElem? hpool)
    exact createAddressPool_sound e.1 (by decide)
  mapped := List.map_map

theorem Host.init_lent (cfg : Config) (core : CoreConfig) (net : NetConfig) :
    (Host.init cfg core net).view.Lent where
  taken := nofun
  owner := nofun

theorem Host.init_distinct (cfg : Config) (core : CoreConfig) (net : NetConfig) :
    (Host.init cfg core net).view.Distinct := by
  intro sid _ f _ hlive
  have hnone : (Host.init cfg core net).view.streams sid = none := rfl
  rw [hnone] at hlive
  cases hlive

namespace Host.Reached

variable {avoid : HostHazard → Prop} {cfg : Config} {core : CoreConfig} {net : NetConfig} {h : Host}

theorem tabled (hreached : Reached avoid cfg core net h) : h.view.Tabled :=
  hreached.view_induction (P := FlowView.Tabled) (Host.init_tabled cfg core net)
    fun heff hinv => hinv.effect heff

theorem pooled (hreached : Reached avoid cfg core net h) : h.view.Pooled net :=
  hreached.view_induction (P := FlowView.Pooled net) (Host.init_pooled cfg core net)
    fun heff hinv => hinv.effect heff

theorem lent (hreached : Reached avoid cfg core net h) (hnodup : (net.eths.map Prod.fst).Nodup)
    (havoid : avoid .replacedPool) : h.view.Lent := by
  induction hreached with
  | init => exact Host.init_lent cfg core net
  | call hreached henabled hsafe ih =>
    exact ih.effect hreached.pooled hnodup havoid (apply_effect henabled hsafe)

theorem distinct (hreached : Reached avoid cfg core net h)
    (hnodup : (net.eths.map Prod.fst).Nodup) (hpool : avoid .replacedPool)
    (hshare : avoid .sharedAddress) : h.view.Distinct := by
  induction hreached with
  | init => exact Host.init_distinct cfg core net
  | call hreached henabled hsafe ih =>
    exact ih.effect hreached.tabled hreached.pooled (hreached.lent hnodup hpool) hshare
      (apply_effect henabled hsafe)

end Host.Reached

/-- Where no two interfaces have one address, `mtcp_init_rss` is not called while streams hold
addresses of a pool, and `mtcp_connect` does not reuse a 4-tuple or an address behind the back of
the pool, every live stream is the only one with its 4-tuple and the search finds it. -/
theorem flow_unique {cfg : Config} {core : CoreConfig} {net : NetConfig} {h : Host}
    (hnodup : (net.eths.map Prod.fst).Nodup)
    (hreached : Host.Reached (fun z => z = .sharedAddress ∨ z = .replacedPool) cfg core net h)
    {sid : ℕ} {f : Flow} (hlive : h.streams sid = some f) :
    h.streamHTSearch f.key = some sid ∧
      ∀ sid' f', h.streams sid' = some f' → f'.key = f.key → sid' = sid := by
  have hdistinct := hreached.distinct hnodup (.inr rfl) (.inl rfl)
  have hunique : ∀ sid' f', h.streams sid' = some f' → f'.key = f.key → sid' = sid :=
    fun sid' f' hlive' hkey => hdistinct hlive' hlive hkey
  exact ⟨hreached.tabled.search_of_unique hlive fun {sid' f'} => hunique sid' f', hunique⟩

/-! ### Two sockets with one address -/

/-- Two sockets bound to one address connect to one peer. -/
def collidingCalls : List Call :=
  [.socket, .socket, .bind 0 (some webAddr) true, .bind 1 (some webAddr) true,
    .connect 0 (some clientAddr) true ⟨true, true, 7⟩ none,
    .connect 1 (some clientAddr) true ⟨true, true, 8⟩ none]

/-- Both streams are in the table with one 4-tuple, and the search finds the first for both. -/
theorem bound_flows_collide :
    ∃ h, Host.Reached (fun _ => False) (smallHost 2).cfg (smallHost 2).core (smallHost 2).net h ∧
      (h.streams 0).map Flow.key = some (webAddr, clientAddr) ∧
      (h.streams 1).map Flow.key = some (webAddr, clientAddr) ∧
      h.streamHTSearch (webAddr, clientAddr) = some 0 :=
  ⟨collidingCalls.foldl Host.apply (smallHost 2),
    Host.Reached.init.after (by decide +kernel), by decide +kernel⟩

/-! ### Runs without hazards -/

/-- Whether the call is an instance of the hazard. -/
def HostHazard.met (h : Host) : HostHazard → Call → Bool
  | .sharedAddress, .connect sockid (some dst) _ _ _ =>
    if (h.smap sockid.toNat).explicit then
      (h.streamHTSearch ((h.smap sockid.toNat).saddr, dst)).isSome
    else (List.range h.gId).any fun sid => (h.streams sid).any fun f =>
      !f.isBoundAddr && decide (f.dst = dst) && h.view.active.any (·.mapped f.src)
  | .replacedPool, .initRss .. =>
    (List.range h.gId).any fun sid => (h.streams sid).any (·.isBoundAddr)
  | .lostAddress, .connect sockid _ _ mem _ =>
    !(h.smap sockid.toNat).explicit && !(mem.chunks && mem.locks)
  | _, _ => false

/-- Some stream satisfies the test. -/
theorem FlowView.Tabled.any {v : FlowView} (h : v.Tabled) {sid : ℕ} {f : Flow} {p : Flow → Bool}
    (hlive : v.streams sid = some f) (hp : p f = true) :
    (List.range v.gId).any (fun sid => (v.streams sid).any p) = true := by
  have hlt : sid < v.gId := by
    by_contra hge
    rw [h.fresh (not_lt.mp hge)] at hlive
    cases hlive
  simp only [List.any_eq_true, List.mem_range]
  exact ⟨sid, hlt, by rwa [hlive]⟩

theorem HostHazard.met_of_hits {h : Host} (htable : h.view.Tabled) {z : HostHazard} {call : Call}
    (hhits : z.hits h call) : z.met h call = true := by
  unfold HostHazard.hits at hhits
  split at hhits
  case h_1 sockid dst _ _ _ =>
    simp only [met]
    split at hhits
    case isTrue hexp =>
      rw [if_pos hexp]
      exact Option.isSome_iff_ne_none.mpr hhits
    case isFalse hexp =>
      rw [if_neg hexp]
      obtain ⟨sid, f, hlive, hbound, hdst, ap, hap, hmapped⟩ := hhits
      refine htable.any hlive ?_
      simp only [hbound, hdst, Bool.not_false, decide_true, Bool.and_self, Bool.true_and]
      exact List.any_eq_true.mpr ⟨ap, hap, hmapped⟩
  case h_2 =>
    obtain ⟨sid, f, hlive, hbound⟩ := hhits
    exact htable.any hlive hbound
  case h_3 sockid _ _ mem _ =>
    obtain ⟨hexp, hmem⟩ := hhits
    rcases hmem with hmem | hmem <;> simp [met, hexp, hmem]
  case h_4 => exact hhits.elim

/-- The calls are enabled one after the other, and none is an instance of one of the hazards. -/
def Host.clear (zs : List HostHazard) (h : Host) : List Call → Bool
  | [] => true
  | call :: calls =>
    call.enabled h && zs.all (fun z => !z.met h call) && clear zs (h.apply call) calls

theorem Host.Reached.clear {avoid : HostHazard → Prop} {cfg : Config} {core : CoreConfig}
    {net : NetConfig} {h : Host} (hreached : Host.Reached avoid cfg core net h)
    (zs : List HostHazard) (calls : List Call) (havoid : ∀ z, avoid z → z ∈ zs)
    (hclear : h.clear zs calls = true) :
    Host.Reached avoid cfg core net (calls.foldl Host.apply h) := by
  induction calls generalizing h with
  | nil => exact hreached
  | cons call calls ih =>
      simp only [Host.clear, Bool.and_eq_true, List.all_eq_true] at hclear
      obtain ⟨⟨henabled, hnone⟩, hrest⟩ := hclear
      refine ih (.call hreached henabled fun z hz hhits => ?_) hrest
      have hmet := hnone z (havoid z hz)
      simp [HostHazard.met_of_hits hreached.tabled hhits] at hmet

/-- The interfaces 10.0.0.1 and 10.1.0.1, each with the route to its own network. -/
def twoNetworks : NetConfig where
  eths := [(0x0100000A, 0), (0x0100010A, 1)]
  rtable := [⟨0x0000FFFF, 0x0000010A, 16, 1⟩, ⟨0x000000FF, 0x0000000A, 8, 0⟩]
  gateway := none

/-- Four sockets connect: two to one peer from the pool of its interface, one from the pool of the
other interface, and one that is bound, to the first peer again. -/
def connectingCalls : List Call :=
  [.socket, .socket, .socket, .socket, .bind 3 (some webAddr) true,
    .connect 0 (some clientAddr) true ⟨true, true, 7⟩ none,
    .connect 1 (some clientAddr) true ⟨true, true, 8⟩ none,
    .connect 2 (some ⟨0x0900010A, 0x3930⟩) true ⟨true, true, 9⟩ none,
    .connect 3 (some clientAddr) true ⟨true, true, 10⟩ none]

def connectedHost : Host :=
  connectingCalls.foldl Host.apply (.init (smallHost 4).cfg (smallHost 4).core twoNetworks)

theorem flow_unique_connected :
    (connectedHost.streams 1).map Flow.key = some (⟨0x0100000A, 0x0204⟩, clientAddr) ∧
      connectedHost.streamHTSearch (⟨0x0100000A, 0x0204⟩, clientAddr) = some 1 ∧
      (connectedHost.streams 3).map Flow.key = some (webAddr, clientAddr) ∧
      connectedHost.streamHTSearch (webAddr, clientAddr) = some 3 := by
  have hreached : Host.Reached (fun z => z = .sharedAddress ∨ z = .replacedPool) (smallHost 4).cfg
      (smallHost 4).core twoNetworks connectedHost :=
    Host.Reached.init.clear [.sharedAddress, .replacedPool] _ (by simp) (by decide +kernel)
  have hfound : ∀ {sid key}, (connectedHost.streams sid).map Flow.key = some key →
      connectedHost.streamHTSearch key = some sid := by
    intro sid key hopened
    obtain ⟨f, hlive, rfl⟩ := Option.map_eq_some_iff.mp hopened
    exact (flow_unique (by decide) hreached hlive).1
  have hpool : (connectedHost.streams 1).map Flow.key =
      some (⟨0x0100000A, 0x0204⟩, clientAddr) := by
    decide +kernel
  have hbound : (connectedHost.streams 3).map Flow.key = some (webAddr, clientAddr) := by
    decide +kernel
  exact ⟨hpool, hfound hpool, hbound, hfound hbound⟩

end MtcpStack
