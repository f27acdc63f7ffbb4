import MtcpStack.Verification.Flows

/-! # Addresses go back where they came from

The trace of a stream is what happened to its address: nothing, fetched from a pool, or fetched
and then returned to the same pool. -/

namespace MtcpStack

/-- The stream an entry of the trace is about. -/
def PoolAct.sid : PoolAct → ℕ
  | .fetched sid _ _ => sid
  | .returned sid _ _ => sid

/-- A packet to the address of an interface would leave through this interface. -/
def NetConfig.RoutesHome (net : NetConfig) : Prop :=
  ∀ {i : ℕ} {eth : U32 × ℕ}, net.eths[i]? = some eth →
    (getOutputInterface net eth.1).map (nifToEidx net) = some (some i)

theorem NetConfig.RoutesHome.nodup {net : NetConfig} (h : net.RoutesHome) :
    (net.eths.map Prod.fst).Nodup := by
  rw [List.nodup_iff_getElem?_ne_getElem?]
  intro i j hij hj heq
  have hi := hij.trans hj
  simp only [List.length_map] at hi hj
  have heth : net.eths[i].1 = net.eths[j].1 := by
    simpa [hi, hj] using heq
  have hroute := h (List.getElem?_eq_getElem hi)
  rw [heth, h (List.getElem?_eq_getElem hj)] at hroute
  exact hij.ne' (by simpa using hroute)

namespace FlowView

variable {avoid : HostHazard → Prop} {v v' : FlowView} {net : NetConfig} {pid pid' : PoolId}
  {a b : SockAddr}

def trace (v : FlowView) (sid : ℕ) : List PoolAct := v.log.filter fun act => act.sid == sid

theorem trace_append {w : FlowView} {log : List PoolAct} (hlog : w.log = v.log ++ log)
    (sid : ℕ) : w.trace sid = v.trace sid ++ log.filter fun act => act.sid == sid := by
  rw [trace, hlog, List.filter_append, trace]

/-! ## Addresses in use -/

/-- The pool `pid` is in use and has lent the address. -/
def Holds (v : FlowView) (pid : PoolId) (a : SockAddr) : Prop :=
  (∃ ap, v.ap = some ap ∧ pid = .perCore v.apGen ∧ a ∈ ap.usedList) ∨
    v.ap = none ∧ ∃ i ap, v.pools[i]? = some ap ∧ pid = .global i ∧ a ∈ ap.usedList

/-- One pool is exchanged for another that has lent the address as well. -/
theorem Holds.setPool (h : v.Holds pid b) {i : ℕ} {ap ap' : AddrPool}
    (hpool : v.pools[i]? = some ap) (hused : b ∈ ap.usedList → b ∈ ap'.usedList) :
    Holds { v with pools := v.pools.set i ap' } pid b := by
  obtain hcore | ⟨hap, j, q, hq, hpid, hb⟩ := h
  · exact .inl hcore
  · by_cases hij : i = j
    · subst hij
      obtain rfl : ap = q := Option.some.inj (hpool.symm.trans hq)
      have hlt := (List.getElem?_eq_some_iff.mp hpool).1
      exact .inr ⟨hap, i, ap', by simp [hlt], hpid, hused hb⟩
    · exact .inr ⟨hap, j, q, by simpa [hij] using hq, hpid, hb⟩

theorem Holds.setCore (h : v.Holds pid b) {ap ap' : AddrPool} (hap : v.ap = some ap)
    (hused : b ∈ ap.usedList → b ∈ ap'.usedList) : Holds { v with ap := some ap' } pid b := by
  obtain ⟨q, hq, hpid, hb⟩ | ⟨hnone, -⟩ := h
  · obtain rfl : ap = q := Option.some.inj (hap.symm.trans hq)
    exact .inl ⟨ap', rfl, hpid, hused hb⟩
  · rw [hap] at hnone
    cases hnone

theorem Fetches.holds (hfetch : v.Fetches pid a v') : v'.Holds pid a := by
  obtain ⟨ap, hap, -, rfl, rfl⟩ | ⟨hap, i, ap, hpool, -, rfl, rfl⟩ := hfetch
  · exact .inl ⟨ap.use a, rfl, rfl, by simp [AddrPool.use]⟩
  · have hlt := (List.getElem?_eq_some_iff.mp hpool).1
    exact .inr ⟨hap, i, ap.use a, by simp [hlt], rfl, by simp [AddrPool.use]⟩

theorem Holds.fetches (h : v.Holds pid b) (hfetch : v.Fetches pid' a v') : v'.Holds pid b := by
  obtain ⟨ap, hap, -, -, rfl⟩ | ⟨-, i, ap, hpool, -, -, rfl⟩ := hfetch
  · exact h.setCore hap fun hb => List.mem_append_left _ hb
  · exact h.setPool hpool fun hb => List.mem_append_left _ hb

/-- A lent address goes back to the pool that lent it. -/
theorem Holds.giveBack (h : v.Holds pid a) (hpool : v.Pooled net) (hhome : net.RoutesHome)
    (sid : ℕ) :
    (v.giveBack sid a).log = v.log ++ [.returned sid pid a] ∧
      ∀ {pid' b}, b ≠ a → v.Holds pid' b → (v.giveBack sid a).Holds pid' b := by
  obtain ⟨ap, hap, rfl, hused⟩ | ⟨hap, i, ap, hget, rfl, hused⟩ := h
  · obtain ⟨ap', hfreed⟩ := freeAddress_of_used (hpool.core hap) hused
    have hused' := (freeAddress_spec hfreed).2.2.1
    have hback : v.giveBack sid a =
        { v with ap := some ap', log := v.log ++ [.returned sid (.perCore v.apGen) a] } := by
      simp [FlowView.giveBack, hap, hfreed]
    rw [hback]
    exact ⟨rfl, fun hne hb => hb.setCore hap fun hmem => hused' ▸ (List.mem_erase_of_ne hne).mpr hmem⟩
  · obtain ⟨ap', hfreed⟩ := freeAddress_of_used (hpool.each hget) hused
    have hused' := (freeAddress_spec hfreed).2.2.1
    have hmapped := (hpool.each hget).mapped a (List.mem_append_right _ hused)
    obtain ⟨eth, heth, haddr⟩ := hpool.address hget hmapped
    have hroute : (getOutputInterface v.net a.addr).map (nifToEidx v.net) = some (some i) := by
      rw [hpool.net_eq, haddr]
      exact hhome heth
    have hback : v.giveBack sid a =
        { v with
          pools := v.pools.set i ap'
          log := v.log ++ [.returned sid (.global i) a] } := by
      simp [FlowView.giveBack, hap, hroute, hget, hfreed]
    rw [hback]
    exact ⟨rfl, fun hne hb => hb.setPool hget fun hmem => hused' ▸ (List.mem_erase_of_ne hne).mpr hmem⟩

/-! ## The books -/

/-- What the trace says about each stream. -/
structure Books (v : FlowView) : Prop where
  fresh : ∀ {sid}, v.gId ≤ sid → v.trace sid = []
  unbound : ∀ {sid f}, v.streams sid = some f → f.isBoundAddr = false → v.trace sid = []
  bound : ∀ {sid f}, v.streams sid = some f → f.isBoundAddr = true →
    ∃ pid, v.trace sid = [.fetched sid pid f.src] ∧ v.Holds pid f.src
  gone : ∀ {sid}, v.streams sid = none → v.trace sid = [] ∨
    ∃ pid a, v.trace sid = [.fetched sid pid a, .returned sid pid a]

/-- Nothing happens to the streams or to the trace, and lent addresses stay lent. -/
theorem Books.congr (h : v.Books) (hstreams : v'.streams = v.streams) (hid : v'.gId = v.gId)
    (hlog : v'.log = v.log)
    (hholds : ∀ {sid f pid}, v.streams sid = some f → f.isBoundAddr = true → v.Holds pid f.src →
      v'.Holds pid f.src) : v'.Books := by
  have htrace : ∀ sid, v'.trace sid = v.trace sid := fun sid => by simp [trace, hlog]
  constructor
  · intro sid hle
    rw [htrace]
    exact h.fresh (hid ▸ hle)
  · intro sid f hlive hb
    rw [htrace]
    exact h.unbound (hstreams ▸ hlive) hb
  · intro sid f hlive hb
    rw [hstreams] at hlive
    obtain ⟨pid, ht, hp⟩ := h.bound hlive hb
    exact ⟨pid, (htrace sid).trans ht, hholds hlive hb hp⟩
  · intro sid hnone
    rw [htrace]
    exact h.gone (hstreams ▸ hnone)

theorem Books.touched (h : v.Books) {sid : ℕ} {f f' : Flow} (hlive : v.streams sid = some f)
    (hkey : f'.key = f.key) (hbound : f'.isBoundAddr = f.isBoundAddr) :
    Books { v with streams := Function.update v.streams sid (some f') } where
  fresh := h.fresh
  unbound hg hb := by
    rcases update_live hg with ⟨rfl, rfl⟩ | ⟨-, hold⟩
    · exact h.unbound hlive (hbound ▸ hb)
    · exact h.unbound hold hb
  bound {sid' g} hg hb := by
    rcases update_live hg with ⟨rfl, rfl⟩ | ⟨-, hold⟩
    · have hsrc : g.src = f.src := congrArg Prod.fst hkey
      obtain ⟨pid, ht, hp⟩ := h.bound hlive (hbound ▸ hb)
      rw [← hsrc] at ht hp
      exact ⟨pid, ht, hp⟩
    · exact h.bound hold hb
  gone {sid'} hnone := by
    by_cases hs : sid' = sid
    · simp [hs] at hnone
    · exact h.gone (by simpa [hs] using hnone)

/-- A new stream, whose address has not been fetched. -/
theorem Books.insert (h : v.Books) {f : Flow} (hbound : f.isBoundAddr = false) :
    (v.insert f).Books where
  fresh hle := h.fresh (Nat.le_of_succ_le hle)
  unbound hg hb := by
    rcases update_live hg with ⟨rfl, -⟩ | ⟨-, hlive⟩
    · exact h.fresh le_rfl
    · exact h.unbound hlive hb
  bound hg hb := by
    rcases update_live hg with ⟨-, rfl⟩ | ⟨-, hlive⟩
    · simp [hbound] at hb
    · exact h.bound hlive hb
  gone {sid} hnone := by
    by_cases hs : sid = v.gId
    · simp [FlowView.insert, hs] at hnone
    · exact h.gone (by simpa [FlowView.insert, hs] using hnone)

/-- A new stream, for which the address has just been fetched. -/
theorem Fetches.books {f : Flow} (hfetch : v.Fetches pid f.src v') (h : v.Books)
    (hbound : f.isBoundAddr = true) : (v'.insert f).Books := by
  obtain ⟨hstreams, -, hid, hlog⟩ := hfetch.frame
  have hold : ∀ {sid}, sid ≠ v.gId → (v'.insert f).trace sid = v.trace sid := by
    intro sid hs
    rw [trace_append (v := v) (w := v'.insert f) hlog]
    simp [PoolAct.sid, hs.symm]
  have hnew : (v'.insert f).trace v.gId = [.fetched v.gId pid f.src] := by
    rw [trace_append (v := v) (w := v'.insert f) hlog, h.fresh le_rfl]
    simp [PoolAct.sid]
  constructor
  · intro sid hle
    have hlt : v.gId < sid := hid ▸ hle
    exact (hold hlt.ne').trans (h.fresh hlt.le)
  · intro sid g hg hb
    rcases update_live hg with ⟨-, rfl⟩ | ⟨hs, hlive⟩
    · simp [hbound] at hb
    · exact (hold (hid ▸ hs)).trans (h.unbound (hstreams ▸ hlive) hb)
  · intro sid g hg hb
    rcases update_live hg with ⟨rfl, rfl⟩ | ⟨hs, hlive⟩
    · rw [hid]
      exact ⟨pid, hnew, hfetch.holds⟩
    · have hlive' : v.streams sid = some g := hstreams ▸ hlive
      obtain ⟨pid', ht, hp⟩ := h.bound hlive' hb
      have hp' : v'.Holds pid' g.src := hp.fetches hfetch
      exact ⟨pid', (hold (hid ▸ hs)).trans ht, hp'⟩
  · intro sid hnone
    have hs : sid ≠ v'.gId := by
      rintro rfl
      simp [FlowView.insert] at hnone
    rw [hold (hid ▸ hs)]
    exact h.gone (hstreams ▸ by simpa [FlowView.insert, hs] using hnone)

/-- A destroyed stream that has its address from a pool. -/
theorem Books.giveBack (h : v.Books) (hlent : v.Lent) (hpool : v.Pooled net)
    (hhome : net.RoutesHome) {sid : ℕ} {f : Flow} (hlive : v.streams sid = some f)
    (hbound : f.isBoundAddr = true) : ((v.remove sid f).giveBack sid f.src).Books := by
  obtain ⟨pid, htrace, hholds⟩ := h.bound hlive hbound
  have hholds' : (v.remove sid f).Holds pid f.src := hholds
  obtain ⟨hlog, hstay⟩ := hholds'.giveBack (hpool.congr rfl rfl rfl) hhome sid
  obtain ⟨hstreams, -, hid⟩ := giveBack_frame sid f.src (v.remove sid f)
  have hself : ((v.remove sid f).giveBack sid f.src).trace sid =
      [.fetched sid pid f.src, .returned sid pid f.src] := by
    rw [trace_append (v := v) hlog, htrace]
    simp [PoolAct.sid]
  have hother : ∀ {sid'}, sid' ≠ sid →
      ((v.remove sid f).giveBack sid f.src).trace sid' = v.trace sid' := by
    intro sid' hs
    rw [trace_append (v := v) hlog]
    simp [PoolAct.sid, hs.symm]
  constructor
  · intro sid' hle
    rw [hid] at hle
    have hs : sid' ≠ sid := by
      rintro rfl
      rw [h.fresh hle] at htrace
      cases htrace
    exact (hother hs).trans (h.fresh hle)
  · intro sid' g hg hb
    obtain ⟨hs, hg'⟩ := remove_live (hstreams ▸ hg)
    exact (hother hs).trans (h.unbound hg' hb)
  · intro sid' g hg hb
    obtain ⟨hs, hg'⟩ := remove_live (hstreams ▸ hg)
    obtain ⟨pid', ht, hp⟩ := h.bound hg' hb
    have hne : g.src ≠ f.src := fun heq => hs (hlent.owner hg' hlive hb hbound heq)
    exact ⟨pid', (hother hs).trans ht, hstay hne hp⟩
  · intro sid' hnone
    by_cases hs : sid' = sid
    · subst hs
      exact .inr ⟨pid, f.src, hself⟩
    · rw [hother hs]
      rw [hstreams] at hnone
      exact h.gone (by simpa [FlowView.remove, hs] using hnone)

/-- A destroyed stream that has not. -/
theorem Books.remove (h : v.Books) {sid : ℕ} {f : Flow} (hlive : v.streams sid = some f)
    (hbound : f.isBoundAddr = false) : (v.remove sid f).Books where
  fresh := h.fresh
  unbound hg hb := h.unbound (remove_live hg).2 hb
  bound hg hb := h.bound (remove_live hg).2 hb
  gone {sid'} hnone := by
    by_cases hs : sid' = sid
    · subst hs
      exact .inl (h.unbound hlive hbound)
    · exact h.gone (by simpa [FlowView.remove, hs] using hnone)

theorem Books.effect (h : v.Books) (hlent : v.Lent) (hpool : v.Pooled net)
    (hhome : net.RoutesHome) (hreplaced : avoid .replacedPool) (hlost : avoid .lostAddress)
    (heff : FlowEffect avoid v v') : v'.Books := by
  cases heff with
  | same => exact h
  | touched hlive hkey hbound => exact h.touched hlive hkey hbound
  | opened hbound => exact h.insert hbound
  | fetched _ hnot => exact absurd hlost hnot
  | openedFrom hfetch hbound => exact hfetch.books h (hbound hlost)
  | replaced _ hfree =>
    refine h.congr rfl rfl rfl fun hlive hb => ?_
    exact absurd hb (by simp [hfree hreplaced _ _ hlive])
  | destroyed hlive =>
    split
    case isTrue hbound => exact h.giveBack hlent hpool hhome hlive hbound
    case isFalse hbound => exact h.remove hlive (by simpa using hbound)

end FlowView

/-! ## Runs -/

theorem Host.init_books (cfg : Config) (core : CoreConfig) (net : NetConfig) :
    (Host.init cfg core net).view.Books where
  fresh _ := rfl
  unbound := nofun
  bound := nofun
  gone _ := .inl rfl

theorem Host.Reached.books {avoid : HostHazard → Prop} {cfg : Config} {core : CoreConfig}
    {net : NetConfig} {h : Host} (hreached : Host.Reached avoid cfg core net h)
    (hhome : net.RoutesHome) (hreplaced : avoid .replacedPool) (hlost : avoid .lostAddress) :
    h.view.Books := by
  induction hreached with
  | init => exact Host.init_books cfg core net
  | call hreached henabled hsafe ih =>
    exact ih.effect (hreached.lent hhome.nodup hreplaced) hreached.pooled hhome hreplaced hlost
      (Host.apply_effect henabled hsafe)

end MtcpStack
