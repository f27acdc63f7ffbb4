import Mathlib.Data.List.Pairwise
import Mathlib.Data.List.Perm.Basic
import MtcpStack.Model.AddrPool
import MtcpStack.Model.Routing

/-! # Longest-prefix routing

The lookup takes the first entry that matches, so it finds a longest one only if the first one leads
to the same interface. -/

namespace MtcpStack

/-! ## Masks -/

/-- The number of bits of a mask. -/
def maskLen (mask : U32) : ℕ := (List.range 32).countP fun i => mask.getLsbD i

/-- A mask that is made from a length has it. -/
theorem maskLen_maskFromPrefix : ∀ len ≤ 32, maskLen (maskFromPrefix len) = len := by
  decide +kernel

theorem maskFromPrefix_eq_zero : ∀ len ≤ 32, maskFromPrefix len = 0 ↔ len = 0 := by
  decide +kernel

theorem maskLen_pos {mask : U32} (h : mask ≠ 0) : 0 < maskLen mask := by
  rw [maskLen, List.countP_pos_iff]
  by_contra hnone
  push Not at hnone
  refine h (BitVec.eq_of_getLsbD_eq fun i hi => ?_)
  simpa using hnone i (List.mem_range.mpr hi)

@[simp] theorem maskLen_zero : maskLen 0 = 0 := by decide

/-! ## Tables -/

/-- The stored length is positive for every entry but a default route, the gateway is a default
route of the table, and there is one if there is a default route. -/
structure RouteTable.WellFormed (t : RouteTable) : Prop where
  positive : ∀ r ∈ t.rtable, 0 < r.prefixLen ↔ r.mask ≠ 0
  gateway : ∀ g, t.gatewayEntry = some g → g ∈ t.rtable ∧ g.mask = 0 ∧ g.masked = 0
  default : ∀ r ∈ t.rtable, r.mask = 0 → t.gatewayEntry ≠ none

theorem enrollRouteTableEntry_wellFormed {t t' : RouteTable} {line : RouteLine}
    (h : t.WellFormed) (hnone : t.gateway = none)
    (henroll : enrollRouteTableEntry t line = some t') : t'.WellFormed := by
  unfold enrollRouteTableEntry at henroll
  simp only at henroll
  split_ifs at henroll with hfull hrange hzero
  all_goals obtain rfl := Option.some.inj henroll
  all_goals
    have hlen : line.prefixLen.toNat ≤ 32 := by omega
    have hmask := maskFromPrefix_eq_zero _ hlen
    have hpos : 0 < line.prefixLen ↔ maskFromPrefix line.prefixLen.toNat ≠ 0 := by
      rw [Ne, hmask]
      omega
    constructor
  case pos.positive | neg.positive =>
    intro r hr
    rcases List.mem_append.mp hr with hr | hr
    · exact h.positive r hr
    · obtain rfl := List.mem_singleton.mp hr
      exact hpos
  case pos.gateway =>
    intro g hg
    simp [RouteTable.gatewayEntry] at hg
    subst hg
    exact ⟨List.mem_append_right _ (List.mem_singleton_self _), hzero, by simp [hzero]⟩
  case neg.gateway =>
    intro g hg
    simp [RouteTable.gatewayEntry, hnone] at hg
  case pos.default => simp [RouteTable.gatewayEntry]
  case neg.default =>
    intro r hr hmask0
    rcases List.mem_append.mp hr with hr | hr
    · exact absurd (by simp [RouteTable.gatewayEntry, hnone]) (h.default r hr hmask0)
    · obtain rfl := List.mem_singleton.mp hr
      exact absurd hmask0 hzero

theorem setRoutingTableFromFile_wellFormed {t t' : RouteTable} {lines : List RouteLine}
    (h : t.WellFormed) (hset : setRoutingTableFromFile t lines = some t') : t'.WellFormed := by
  unfold setRoutingTableFromFile at hset
  induction lines generalizing t with
  | nil =>
    obtain rfl := Option.some.inj hset
    exact h
  | cons line lines ih =>
    rw [List.foldlM_cons] at hset
    obtain ⟨t₁, hline, hrest⟩ := Option.bind_eq_some_iff.mp hset
    split_ifs at hline with hnone
    exact ih (enrollRouteTableEntry_wellFormed h hnone hline) hrest

/-- A table that is built from interfaces with a netmask and from any lines. -/
theorem setRoutingTable_wellFormed {eths : List EthRow} {lines : List RouteLine} {t : RouteTable}
    (heths : ∀ eth ∈ eths, eth.netmask ≠ 0) (hset : setRoutingTable eths lines = some t) :
    t.WellFormed := by
  refine setRoutingTableFromFile_wellFormed ⟨fun r hr => ?_, fun g hg => ?_, fun r hr h0 => ?_⟩ hset
  case refine_2 => simp [RouteTable.gatewayEntry] at hg
  all_goals obtain ⟨eth, heth, rfl⟩ := List.mem_map.mp hr
  case refine_3 => exact absurd h0 (heths eth heth)
  have hpos : 0 < (ethEntry eth).prefixLen := by
    simp only [ethEntry, ethPrefix]
    omega
  exact iff_of_true hpos (heths eth heth)

/-! ## The lookup -/

/-- The first entry that matches decides. -/
theorem outputLoop_eq (gateway : Option RouteEntry) (daddr : U32) (rs : List RouteEntry) (nif : ℤ) :
    outputLoop gateway daddr rs nif 0 false =
      match rs.find? fun r => decide (r.Matches daddr) with
      | none => (nif, false)
      | some r =>
        if 0 < r.prefixLen then (r.nif, false)
        else
          match gateway with
          | some g => (g.nif, true)
          | none => (nif, false) := by
  induction rs with
  | nil => rfl
  | cons r rest ih =>
    unfold outputLoop
    by_cases hmatch : r.Matches daddr
    · have hfind : (r :: rest).find? (fun r => decide (r.Matches daddr)) = some r :=
        List.find?_cons_of_pos (by simpa using hmatch)
      cases gateway <;> rw [if_pos hmatch, hfind]
    · rw [if_neg hmatch, List.find?_cons_of_neg (by simpa using hmatch)]
      exact ih

variable {t : RouteTable} {daddr : U32}

/-- The first entry that matches the address. -/
def RouteTable.firstMatch (t : RouteTable) (daddr : U32) : Option RouteEntry :=
  t.rtable.find? fun r => decide (r.Matches daddr)

/-- What an entry that matches decides: its interface, or that of the gateway if it is a default
route. -/
def RouteTable.decides (t : RouteTable) (r : RouteEntry) : ℤ × Bool :=
  if r.mask ≠ 0 then (r.nif, false)
  else
    match t.gatewayEntry with
    | some g => (g.nif, true)
    | none => (-1, false)

theorem RouteTable.firstMatch_spec {f : RouteEntry} (hfirst : t.firstMatch daddr = some f) :
    f ∈ t.rtable ∧ f.Matches daddr :=
  ⟨List.mem_of_find?_eq_some hfirst, by simpa using List.find?_some hfirst⟩

theorem RouteTable.exists_firstMatch {r : RouteEntry} (hr : r ∈ t.rtable)
    (hmatch : r.Matches daddr) : ∃ f, t.firstMatch daddr = some f := by
  rw [← Option.isSome_iff_exists, RouteTable.firstMatch, List.find?_isSome]
  exact ⟨r, hr, by simpa using hmatch⟩

/-- In a well-formed table the first match decides. -/
theorem RouteTable.getOutputInterface_eq (h : t.WellFormed) {f : RouteEntry}
    (hfirst : t.firstMatch daddr = some f) : t.getOutputInterface daddr = t.decides f := by
  have hpos := h.positive f (firstMatch_spec hfirst).1
  rw [RouteTable.firstMatch] at hfirst
  rw [RouteTable.getOutputInterface, outputLoop_eq, hfirst, RouteTable.decides]
  simp only [hpos]

/-- An entry that matches the address and has the longest mask of all that do. -/
structure RouteTable.Longest (t : RouteTable) (daddr : U32) (best : RouteEntry) : Prop where
  mem : best ∈ t.rtable
  matches_addr : best.Matches daddr
  mask_ne : best.mask ≠ 0
  longest : ∀ r ∈ t.rtable, r.Matches daddr → maskLen r.mask ≤ maskLen best.mask

/-- What the lookup should find: the interface of a longest match, or the gateway where only
default routes match. -/
structure RouteTable.Routed (t : RouteTable) (daddr : U32) : Prop where
  route : ∀ r ∈ t.rtable, r.Matches daddr → r.mask ≠ 0 →
    ∃ best, t.Longest daddr best ∧ t.getOutputInterface daddr = (best.nif, false)
  default : (∀ r ∈ t.rtable, r.Matches daddr → r.mask = 0) →
    ∀ g, t.gatewayEntry = some g → t.getOutputInterface daddr = (g.nif, true)

/-- If routes that are not default routes match, the first match is one of them and leads to the
interface of a longest one. -/
def RouteTable.FirstBest (t : RouteTable) (daddr : U32) : Prop :=
  ∀ f, t.firstMatch daddr = some f → ∀ r ∈ t.rtable, r.Matches daddr → r.mask ≠ 0 →
    f.mask ≠ 0 ∧ ∃ best, t.Longest daddr best ∧ best.nif = f.nif

theorem RouteTable.routed_iff (h : t.WellFormed) : t.Routed daddr ↔ t.FirstBest daddr := by
  constructor
  · intro hrouted f hf r hr hmatch hmask
    obtain ⟨best, hbest, heq⟩ := hrouted.route r hr hmatch hmask
    rw [getOutputInterface_eq h hf, RouteTable.decides] at heq
    by_cases hzero : f.mask = 0
    · -- A default route leads to the gateway, as an external address.
      obtain ⟨g, hg⟩ := Option.ne_none_iff_exists'.mp (h.default f (firstMatch_spec hf).1 hzero)
      rw [if_neg (not_not.mpr hzero), hg] at heq
      cases congrArg Prod.snd heq
    · rw [if_pos hzero] at heq
      exact ⟨hzero, best, hbest, (congrArg Prod.fst heq).symm⟩
  · intro hbest
    refine ⟨fun r hr hmatch hmask => ?_, fun hnone g hgate => ?_⟩
    · obtain ⟨f, hf⟩ := exists_firstMatch hr hmatch
      obtain ⟨hne, best, hlongest, hnif⟩ := hbest f hf r hr hmatch hmask
      refine ⟨best, hlongest, ?_⟩
      rw [getOutputInterface_eq h hf, RouteTable.decides, if_pos hne, hnif]
    · -- The default route matches every address.
      obtain ⟨hmem, hmask, hmasked⟩ := h.gateway g hgate
      have hmatch : g.Matches daddr := by
        rw [RouteEntry.Matches, hmask, hmasked]
        exact BitVec.and_zero
      obtain ⟨f, hf⟩ := exists_firstMatch hmem hmatch
      obtain ⟨hfmem, hfmatch⟩ := firstMatch_spec hf
      rw [getOutputInterface_eq h hf, RouteTable.decides,
        if_neg (not_not.mpr (hnone f hfmem hfmatch)), hgate]

/-- The two tables have the same entries and the same gateway. -/
structure RouteTable.Reorders (t' t : RouteTable) : Prop where
  perm : t'.rtable.Perm t.rtable
  gateway : t'.gatewayEntry = t.gatewayEntry

/-- No two entries that match the address have the same length. -/
def RouteTable.Distinct (t : RouteTable) (daddr : U32) : Prop :=
  t.rtable.Pairwise fun r r' =>
    r.Matches daddr → r'.Matches daddr → maskLen r.mask ≠ maskLen r'.mask

theorem RouteTable.Distinct.eq (h : t.Distinct daddr) {r r' : RouteEntry} (hr : r ∈ t.rtable)
    (hr' : r' ∈ t.rtable) (hmatch : r.Matches daddr) (hmatch' : r'.Matches daddr)
    (hlen : maskLen r.mask = maskLen r'.mask) : r = r' := by
  by_contra hne
  have hsymm : Std.Symm fun r r' : RouteEntry =>
      r.Matches daddr → r'.Matches daddr → maskLen r.mask ≠ maskLen r'.mask :=
    ⟨fun r r' hrel hm hm' => (hrel hm' hm).symm⟩
  exact List.Pairwise.forall h hr hr' hne hmatch hmatch' hlen

theorem RouteTable.Reorders.wellFormed {t' : RouteTable} (hsame : t'.Reorders t)
    (h : t.WellFormed) : t'.WellFormed where
  positive r hr := h.positive r (hsame.perm.mem_iff.mp hr)
  gateway g hg := (h.gateway g (hsame.gateway ▸ hg)).imp_left hsame.perm.mem_iff.mpr
  default r hr h0 := hsame.gateway ▸ h.default r (hsame.perm.mem_iff.mp hr) h0

theorem RouteTable.Reorders.decides_eq {t' : RouteTable} (hsame : t'.Reorders t) (r : RouteEntry) :
    t'.decides r = t.decides r := by
  rw [RouteTable.decides, RouteTable.decides, hsame.gateway]

/-- Any entry can be brought to the front. -/
theorem RouteTable.exists_front (h : t.WellFormed) {r : RouteEntry} (hr : r ∈ t.rtable) :
    ∃ t' : RouteTable, t'.Reorders t ∧ ∃ rest, t'.rtable = r :: rest := by
  have hperm : (r :: t.rtable.erase r).Perm t.rtable := (List.perm_cons_erase hr).symm
  cases hgate : t.gatewayEntry with
  | none => exact ⟨⟨r :: t.rtable.erase r, none⟩, ⟨hperm, hgate.symm⟩, _, rfl⟩
  | some g =>
    obtain ⟨k, hk⟩ := List.mem_iff_getElem?.mp (hperm.mem_iff.mpr (h.gateway g hgate).1)
    exact ⟨⟨r :: t.rtable.erase r, some k⟩, ⟨hperm, hk.trans hgate.symm⟩, _, rfl⟩

/-- All entries that match the address decide alike. -/
def RouteTable.Unanimous (t : RouteTable) (daddr : U32) : Prop :=
  ∀ r ∈ t.rtable, ∀ r' ∈ t.rtable, r.Matches daddr → r'.Matches daddr → t.decides r = t.decides r'

theorem RouteTable.reorders_iff (h : t.WellFormed) :
    (∀ t' : RouteTable, t'.Reorders t → t'.getOutputInterface daddr = t.getOutputInterface daddr) ↔
      t.Unanimous daddr := by
  constructor
  · intro hsame
    have hdecides : ∀ r ∈ t.rtable, r.Matches daddr → t.decides r = t.getOutputInterface daddr := by
      intro r hr hmatch
      obtain ⟨t', ht', rest, hrest⟩ := exists_front h hr
      have hfirst : t'.firstMatch daddr = some r := by
        rw [RouteTable.firstMatch, hrest]
        exact List.find?_cons_of_pos (by simpa using hmatch)
      rw [← hsame t' ht', getOutputInterface_eq (ht'.wellFormed h) hfirst, ht'.decides_eq]
    intro r hr r' hr' hmatch hmatch'
    rw [hdecides r hr hmatch, hdecides r' hr' hmatch']
  · intro hall t' ht'
    cases hfirst : t.firstMatch daddr with
    | none =>
      have hnone : t'.firstMatch daddr = none := by
        rw [RouteTable.firstMatch, List.find?_eq_none] at hfirst ⊢
        exact fun r hr => hfirst r (ht'.perm.mem_iff.mp hr)
      rw [RouteTable.firstMatch] at hfirst hnone
      rw [RouteTable.getOutputInterface, RouteTable.getOutputInterface, outputLoop_eq,
        outputLoop_eq, hfirst, hnone]
    | some f =>
      obtain ⟨hmem, hmatch⟩ := firstMatch_spec hfirst
      obtain ⟨f', hfirst'⟩ := exists_firstMatch (ht'.perm.mem_iff.mpr hmem) hmatch
      obtain ⟨hmem', hmatch'⟩ := firstMatch_spec hfirst'
      rw [getOutputInterface_eq h hfirst, getOutputInterface_eq (ht'.wellFormed h) hfirst',
        ht'.decides_eq, hall f' (ht'.perm.mem_iff.mp hmem') f hmem hmatch' hmatch]

/-- The lookup finds the interface of a longest match, otherwise that of the gateway, exactly when
the first match leads to the same interface as a longest one. Where no two matches are of the same
length, it does not depend on the order exactly when all matches decide alike, and does not
distinguish orders in which it is right. -/
theorem longest_prefix_route (t : RouteTable) (h : t.WellFormed) (daddr : U32) :
    (t.Routed daddr ↔ t.FirstBest daddr) ∧
    (t.Distinct daddr →
      ((∀ t' : RouteTable, t'.Reorders t →
        t'.getOutputInterface daddr = t.getOutputInterface daddr) ↔ t.Unanimous daddr) ∧
      ∀ t' : RouteTable, t'.Reorders t → t'.FirstBest daddr → t.FirstBest daddr →
        t'.getOutputInterface daddr = t.getOutputInterface daddr) := by
  refine ⟨RouteTable.routed_iff h, fun hdistinct => ⟨RouteTable.reorders_iff h, ?_⟩⟩
  intro t' hsame hfirst' hfirst
  by_cases hroute : ∃ r ∈ t.rtable, r.Matches daddr ∧ r.mask ≠ 0
  · obtain ⟨r, hr, hmatch, hmask⟩ := hroute
    obtain ⟨best, hbest, heq⟩ := ((RouteTable.routed_iff h).mpr hfirst).route r hr hmatch hmask
    obtain ⟨best', hbest', heq'⟩ := ((RouteTable.routed_iff (hsame.wellFormed h)).mpr hfirst').route
      r (hsame.perm.mem_iff.mpr hr) hmatch hmask
    have hin' := hsame.perm.mem_iff.mp hbest'.mem
    have hlen : maskLen best'.mask = maskLen best.mask :=
      le_antisymm (hbest.longest best' hin' hbest'.matches_addr)
        (hbest'.longest best (hsame.perm.mem_iff.mpr hbest.mem) hbest.matches_addr)
    rw [heq, heq', hdistinct.eq hin' hbest.mem hbest'.matches_addr hbest.matches_addr hlen]
  · have hzero : ∀ r ∈ t.rtable, r.Matches daddr → r.mask = 0 := fun r hr hmatch =>
      by_contra fun hmask => hroute ⟨r, hr, hmatch, hmask⟩
    refine (RouteTable.reorders_iff h).mpr (fun r hr r' hr' hmatch hmatch' => ?_) t' hsame
    simp [RouteTable.decides, hzero r hr hmatch, hzero r' hr' hmatch']

/-- An interface 10.0.0.1 with netmask 255.0.0.0. -/
def wideEth : EthRow := ⟨0x0100000a, 0x000000ff, 0⟩

/-- The line 10.1.0.0/16 for another interface. -/
def narrowLine : RouteLine := ⟨0x0000010a, 16, 1⟩

/-- The interface stands in the table before the lines of the file: an address of the longer route
goes out on it. -/
theorem shorter_prefix_route :
    (setRoutingTable [wideEth] [narrowLine]).map (fun t => t.getOutputInterface 0x0302010a) =
        some (0, false) ∧
      (setRoutingTable [wideEth] [narrowLine]).map
          (fun t => t.rtable.map fun r => (decide (r.Matches 0x0302010a), maskLen r.mask, r.nif)) =
        some [(true, 8, 0), (true, 16, 1)] := by
  decide +kernel

/-- Routes of 24, 8 and 16 bits, in this order, and a default route. -/
def mixedTable : RouteTable :=
  ⟨[⟨0x0002010a, 0x00ffffff, 0x0002010a, 24, 1⟩, ⟨0x0000000a, 0x000000ff, 0x0000000a, 8, 0⟩,
    ⟨0x0000010a, 0x0000ffff, 0x0000010a, 16, 2⟩, ⟨0x0100000a, 0, 0, 0, 3⟩], some 3⟩

theorem mixedTable_wellFormed : mixedTable.WellFormed where
  positive := by decide +kernel
  gateway g hg := by
    obtain rfl := Option.some.inj hg
    decide +kernel
  default := by decide +kernel

theorem longest_prefix_route_mixed :
    mixedTable.Routed 0x0302010a ∧ mixedTable.getOutputInterface 0x0302010a = (1, false) ∧
      mixedTable.getOutputInterface 0x08080808 = (3, true) := by
  have hroute := fun daddr => (longest_prefix_route mixedTable mixedTable_wellFormed daddr).1.mpr
  refine ⟨hroute _ fun f hf _ _ _ _ => ?_, by decide +kernel,
    (hroute 0x08080808 fun f _ r hr hmatch hmask => ?_).default (by decide +kernel) _ rfl⟩
  · obtain rfl := Option.some.inj hf
    exact ⟨by decide, _, ⟨List.mem_cons_self, by decide, by decide, by decide +kernel⟩, rfl⟩
  · exact absurd ((by decide +kernel : ∀ r ∈ mixedTable.rtable, r.Matches 0x08080808 → r.mask = 0)
      r hr hmatch) hmask

/-! ## The lookup of the socket calls -/

/-- The table with interfaces that exist, as the socket calls see it. -/
def RouteTable.toNet (t : RouteTable) (eths : List (U32 × ℕ)) : NetConfig where
  eths := eths
  rtable := t.rtable.map fun r => ⟨r.mask, r.masked, r.prefixLen.toNat, r.nif.toNat⟩
  gateway := t.gatewayEntry.map fun g => g.nif.toNat

/-- The lookup of the socket calls is the lookup in the table. -/
theorem toNet_getOutputInterface (t : RouteTable) (eths : List (U32 × ℕ)) (daddr : U32)
    (hnif : ∀ r ∈ t.rtable, 0 ≤ r.nif) :
    MtcpStack.getOutputInterface (t.toNet eths) daddr =
      if (t.getOutputInterface daddr).1 < 0 then none
      else some (t.getOutputInterface daddr).1.toNat := by
  have hgate : ∀ g, t.gatewayEntry = some g → 0 ≤ g.nif := by
    intro g hg
    obtain ⟨i, -, hi⟩ := Option.bind_eq_some_iff.mp hg
    exact hnif g (List.mem_of_getElem? hi)
  rw [RouteTable.getOutputInterface, outputLoop_eq, MtcpStack.getOutputInterface]
  simp only [RouteTable.toNet, List.find?_map]
  have hcomp : ((fun r : Route => daddr &&& r.mask == r.masked) ∘
      fun r : RouteEntry => (⟨r.mask, r.masked, r.prefixLen.toNat, r.nif.toNat⟩ : Route)) =
      fun r => decide (r.Matches daddr) := rfl
  rw [hcomp]
  cases hfind : t.rtable.find? fun r => decide (r.Matches daddr) with
  | none => rfl
  | some r =>
    have hr := hnif r (List.mem_of_find?_eq_some hfind)
    simp only [Option.map_some]
    by_cases hpos : 0 < r.prefixLen
    · rw [if_pos (by omega), if_pos hpos, if_neg (by omega)]
    rw [if_neg (by omega), if_neg hpos]
    cases hg : t.gatewayEntry with
    | none => rfl
    | some g =>
      have hle := hgate g hg
      simp only [Option.map_some]
      rw [if_neg (by omega)]

end MtcpStack
