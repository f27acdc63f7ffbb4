import Mathlib.Data.List.Dedup
import Mathlib.Data.List.Nodup
import MtcpStack.Model.Arp

/-! # Learning hardware addresses

Every packet that is destined to an interface adds an entry for its sender, unless the table has an
answer for this address already. An address is therefore learned at most once, but the table grows
with every new sender. -/

namespace MtcpStack

/-! ## The lookup -/

/-- The entry gives `GetDestinationHWaddr` an answer for the address. -/
def ArpEntry.Resolves (dip : U32) (e : ArpEntry) : Prop :=
  if e.prefixLen = 1 then e.ip = dip else dip &&& e.ipMask = e.ipMasked ∧ 0 < e.prefixLen

instance (dip : U32) (e : ArpEntry) : Decidable (e.Resolves dip) := by
  unfold ArpEntry.Resolves
  infer_instance

theorem ArpEntry.resolves_of_one {dip : U32} {e : ArpEntry} (h : e.prefixLen = 1) :
    e.Resolves dip ↔ e.ip = dip := by
  rw [ArpEntry.Resolves, if_pos h]

theorem ArpEntry.resolves_of_ne {dip : U32} {e : ArpEntry} (h : e.prefixLen ≠ 1) :
    e.Resolves dip ↔ dip &&& e.ipMask = e.ipMasked ∧ 0 < e.prefixLen := by
  rw [ArpEntry.Resolves, if_neg h]

namespace ArpState

/-- The loop has found nothing as long as its best length is 0. -/
theorem hwaddrLoop_eq_none (dip : U32) (es : List ArpEntry) {best : ℤ} {dHaddr : Option HwAddr}
    (hbest : dHaddr = none → best = 0) :
    hwaddrLoop dip es best dHaddr = none ↔ dHaddr = none ∧ ∀ e ∈ es, ¬ e.Resolves dip := by
  induction es generalizing best dHaddr with
  | nil => simp [hwaddrLoop]
  | cons e es ih =>
    rw [hwaddrLoop, List.forall_mem_cons]
    by_cases hone : e.prefixLen = 1
    · rw [if_pos hone, ArpEntry.resolves_of_one hone]
      by_cases hip : e.ip = dip
      · simp [hip]
      · rw [if_neg hip, ih hbest]
        simp [hip]
    rw [if_neg hone, ArpEntry.resolves_of_ne hone]
    by_cases hmask : dip &&& e.ipMask = e.ipMasked
    · rw [if_pos hmask]
      by_cases hlong : best < e.prefixLen
      · have hsome : some e.haddr = none → e.prefixLen = 0 := nofun
        rw [if_pos hlong, ih hsome]
        refine iff_of_false (fun h => nomatch h.1) fun h => ?_
        have hzero := hbest h.1
        exact h.2.1 ⟨hmask, by omega⟩
      · rw [if_neg hlong, ih hbest]
        refine and_congr_right fun hnone => ⟨fun h => ⟨fun hpos => ?_, h⟩, And.right⟩
        have hzero := hbest hnone
        omega
    · rw [if_neg hmask, ih hbest]
      simp [hmask]

/-- Without a gateway the lookup fails when no entry has an answer. -/
theorem getDestinationHWaddr_eq_none (st : ArpState) (dip : U32) :
    st.getDestinationHWaddr dip false = none ↔ ∀ e ∈ st.entry, ¬ e.Resolves dip := by
  have hstart : (none : Option HwAddr) = none → (0 : ℤ) = 0 := fun _ => rfl
  simpa [getDestinationHWaddr] using hwaddrLoop_eq_none dip st.entry hstart

end ArpState

/-- The entry `RegisterARPEntry` makes. -/
def ArpEntry.learned (ip : U32) (haddr : HwAddr) : ArpEntry := ⟨ip, 32, -1, ip, haddr⟩

theorem ArpEntry.learned_resolves {ip dip : U32} {haddr : HwAddr} :
    (ArpEntry.learned ip haddr).Resolves dip ↔ ip = dip := by
  have hne : (ArpEntry.learned ip haddr).prefixLen ≠ 1 := show (32 : ℤ) ≠ 1 by decide
  have hmask : dip &&& (-1 : U32) = dip := BitVec.and_allOnes
  rw [ArpEntry.resolves_of_ne hne, ArpEntry.learned, hmask]
  simp [eq_comm]

/-! ## Packets -/

/-- The sender of a packet that is looked at. -/
def ArpState.sender (st : ArpState) : ArpEvent → Option U32
  | .packet _ arph => if st.ToMe arph ∧ (ArpState.opcode arph).isSome then some arph.arSip else none
  | _ => none

namespace ArpState

variable {st : ArpState}

theorem learn_entry (st : ArpState) (arph : ArpHdr) :
    (st.learn arph).entry = st.entry ++
      if ∃ e ∈ st.entry, e.Resolves arph.arSip then [] else [.learned arph.arSip arph.arSha] := by
  unfold learn
  split
  case h_1 hknown =>
    rw [if_pos, List.append_nil]
    by_contra hnone
    push Not at hnone
    rw [(st.getDestinationHWaddr_eq_none _).mpr hnone] at hknown
    cases hknown
  case h_2 hnew =>
    have hnone := (st.getDestinationHWaddr_eq_none _).mp hnew
    rw [if_neg (by push Not; exact hnone)]
    rfl

/-- An event changes the table only by an unknown sender. -/
theorem apply_entry (st : ArpState) (event : ArpEvent) :
    ∃ haddr, (st.apply event).entry = st.entry ++
      match st.sender event with
      | some ip => if ∃ e ∈ st.entry, e.Resolves ip then [] else [.learned ip haddr]
      | none => [] := by
  cases event with
  | packet ifidx arph =>
    refine ⟨arph.arSha, ?_⟩
    by_cases hme : st.ToMe arph
    · cases hop : opcode arph with
      | none => simp [apply, processARPPacket, sender, hme, hop]
      | some op =>
        have hlearn := st.learn_entry arph
        cases op <;> simpa [apply, processARPPacket, sender, hme, hop, processARPRequest,
          processARPReply, arpOutput] using hlearn
    · simp [apply, processARPPacket, sender, hme]
  | request ip nif curTs =>
    refine ⟨0, ?_⟩
    simp only [apply, requestARP, arpOutput, sender, List.append_nil]
    split <;> rfl
  | timer curTs => exact ⟨0, by simp [apply, arpTimer, sender]⟩

theorem apply_eths (st : ArpState) (event : ArpEvent) : (st.apply event).eths = st.eths := by
  cases event with
  | packet ifidx arph =>
    have hlearn : (st.learn arph).eths = st.eths := by
      unfold learn
      split <;> rfl
    unfold apply processARPPacket
    simp only
    split
    case isTrue => rfl
    case isFalse =>
      split
      · exact hlearn
      · exact hlearn
      · rfl
  | request ip nif curTs =>
    simp only [apply, requestARP]
    split <;> rfl
  | timer curTs => rfl

theorem sender_congr {st' : ArpState} (h : st'.eths = st.eths) (event : ArpEvent) :
    st'.sender event = st.sender event := by
  cases event with
  | packet ifidx arph =>
    have hme : st'.ToMe arph ↔ st.ToMe arph := by
      unfold ToMe
      rw [h]
    exact if_congr (and_congr_left' hme) rfl rfl
  | request | timer => rfl

/-! ## Runs -/

/-- The senders that the table has no answer for. -/
def strangers (st : ArpState) (events : List ArpEvent) : List U32 :=
  (events.filterMap st.sender).filter fun ip => decide (∀ e ∈ st.entry, ¬ e.Resolves ip)

/-- What a run from `st₀` has added to its table: one entry for each address in `ips`. -/
structure Learned (st₀ st : ArpState) (ips : List U32) : Prop where
  eths : st.eths = st₀.eths
  entry : ∃ es, st.entry = st₀.entry ++ es ∧ es.map ArpEntry.ip = ips ∧
    ∀ e ∈ es, ∃ haddr, e = .learned e.ip haddr
  nodup : ips.Nodup

/-- An address is answered by the first table, or it is one of the learned ones. -/
theorem Learned.resolves {st₀ : ArpState} {ips : List U32} (h : Learned st₀ st ips) (ip : U32) :
    (∃ e ∈ st.entry, e.Resolves ip) ↔ (∃ e ∈ st₀.entry, e.Resolves ip) ∨ ip ∈ ips := by
  obtain ⟨es, hentry, hips, hlearned⟩ := h.entry
  have hes : (∃ e ∈ es, e.Resolves ip) ↔ ip ∈ ips := by
    rw [← hips, List.mem_map]
    refine exists_congr fun e => and_congr_right fun he => ?_
    obtain ⟨haddr, heq⟩ := hlearned e he
    rw [heq, ArpEntry.learned_resolves]
    rfl
  rw [hentry, ← hes]
  simp only [List.mem_append, or_and_right, exists_or]

/-- One event adds its sender, unless the first table or an earlier event has it. -/
theorem Learned.apply {st₀ : ArpState} {ips : List U32} (h : Learned st₀ st ips)
    (event : ArpEvent) :
    ∃ ips', Learned st₀ (st.apply event) ips' ∧
      ∀ ip, ip ∈ ips' ↔ ip ∈ ips ∨ ip ∈ st₀.strangers [event] := by
  obtain ⟨haddr, happly⟩ := st.apply_entry event
  obtain ⟨es, hentry, hips, hlearned⟩ := h.entry
  have heths : (st.apply event).eths = st₀.eths := (st.apply_eths event).trans h.eths
  rw [sender_congr h.eths] at happly
  cases hsender : st₀.sender event with
  | none =>
    rw [hsender] at happly
    refine ⟨ips, ⟨heths, ⟨es, ?_, hips, hlearned⟩, h.nodup⟩, fun ip => ?_⟩
    · rw [happly, List.append_nil, hentry]
    · simp [strangers, hsender]
  | some ip =>
    have hknown := h.resolves ip
    have hstranger : ∀ a, a ∈ st₀.strangers [event] ↔
        a = ip ∧ ¬ ∃ e ∈ st₀.entry, e.Resolves ip := by
      intro a
      simp only [strangers, List.filterMap_cons, hsender, List.filterMap_nil, List.mem_filter,
        List.mem_singleton, decide_eq_true_eq, not_exists, not_and]
      exact and_congr_right fun ha => by rw [ha]
    rw [hsender] at happly
    simp only at happly
    split_ifs at happly with hold
    · refine ⟨ips, ⟨heths, ⟨es, ?_, hips, hlearned⟩, h.nodup⟩, fun a => ?_⟩
      · rw [happly, List.append_nil, hentry]
      · rw [hstranger]
        refine ⟨.inl, fun ha => ha.elim id fun ⟨ha, hnew⟩ => ?_⟩
        exact ha ▸ (hknown.mp hold).resolve_left hnew
    · have hnew := not_or.mp (fun hor => hold (hknown.mpr hor))
      refine ⟨ips ++ [ip], ⟨heths, ⟨es ++ [.learned ip haddr], ?_, ?_, ?_⟩, ?_⟩, fun a => ?_⟩
      · rw [happly, hentry, List.append_assoc]
      · rw [List.map_append, hips]
        rfl
      · intro e he
        rcases List.mem_append.mp he with he | he
        · exact hlearned e he
        · obtain rfl := List.mem_singleton.mp he
          exact ⟨haddr, rfl⟩
      · exact List.nodup_append.mpr ⟨h.nodup, List.nodup_singleton ip,
          fun a ha b hb => by
            rw [List.mem_singleton.mp hb]
            exact fun heq => hnew.2 (heq ▸ ha)⟩
      · rw [hstranger, List.mem_append, List.mem_singleton]
        exact or_congr_right (iff_self_and.mpr fun _ => hnew.1)

theorem strangers_append (st : ArpState) (before after : List ArpEvent) :
    st.strangers (before ++ after) = st.strangers before ++ st.strangers after := by
  simp [strangers]

/-- A run adds one entry for each stranger. -/
theorem run_learned (st₀ : ArpState) (events : List ArpEvent) :
    ∃ ips, Learned st₀ (st₀.run events) ips ∧ ∀ ip, ip ∈ ips ↔ ip ∈ st₀.strangers events := by
  induction events using List.reverseRecOn with
  | nil =>
    exact ⟨[], ⟨rfl, ⟨[], (List.append_nil _).symm, rfl, nofun⟩, List.nodup_nil⟩, fun _ => Iff.rfl⟩
  | append_singleton events event ih =>
    obtain ⟨ips, hlearned, hmem⟩ := ih
    obtain ⟨ips', hlearned', hmem'⟩ := hlearned.apply event
    refine ⟨ips', ?_, fun ip => ?_⟩
    · simpa [run] using hlearned'
    · rw [hmem', hmem, strangers_append, List.mem_append]

/-- The number of entries after a run. -/
theorem run_entry_length (st₀ : ArpState) (events : List ArpEvent) :
    (st₀.run events).entry.length = st₀.entry.length + (st₀.strangers events).dedup.length := by
  obtain ⟨ips, hlearned, hmem⟩ := st₀.run_learned events
  obtain ⟨es, hentry, hips, -⟩ := hlearned.entry
  have hperm : ips.Perm (st₀.strangers events).dedup :=
    (List.perm_ext_iff_of_nodup hlearned.nodup (List.nodup_dedup _)).mpr fun ip => by
      rw [hmem, List.mem_dedup]
  rw [hentry, List.length_append, ← hperm.length_eq, ← hips, List.length_map]

theorem strangers_dedup_mono (st : ArpState) {before events : List ArpEvent}
    (h : before <+: events) :
    (st.strangers before).dedup.length ≤ (st.strangers events).dedup.length := by
  obtain ⟨after, rfl⟩ := h
  refine (List.nodup_dedup _).length_le_of_subset fun ip hip => ?_
  rw [List.mem_dedup] at hip ⊢
  rw [strangers_append]
  exact List.mem_append_left _ hip

/-- An address is learned once, and the table keeps within its array as long as the entries it
starts with and the strangers that send packets fit into it. -/
theorem arp_learning_bounded (st₀ : ArpState) (events : List ArpEvent) :
    (∃ es, (st₀.run events).entry = st₀.entry ++ es ∧ (es.map ArpEntry.ip).Nodup) ∧
      (st₀.entry.length + (st₀.strangers events).dedup.length ≤ maxArpEntry →
        ∀ before, before <+: events → (st₀.run before).entry.length ≤ maxArpEntry) := by
  obtain ⟨ips, hlearned, -⟩ := st₀.run_learned events
  obtain ⟨es, hentry, hips, -⟩ := hlearned.entry
  refine ⟨⟨es, hentry, hips ▸ hlearned.nodup⟩, fun hroom before hbefore => ?_⟩
  rw [run_entry_length]
  have hmono := strangers_dedup_mono st₀ hbefore
  omega

/-- Requests for 10.0.0.1 from `n` different senders. -/
def flood (n : ℕ) : List ArpEvent :=
  (List.range n).map fun i => .packet 0 ⟨0x0100, 0, BitVec.ofNat 32 i, 0x0100000a⟩

/-- A stack with one interface and no ARP file. -/
def bareTable : ArpState := initARPTable [⟨0x0100000a, 0⟩] none

theorem strangers_flood (n : ℕ) :
    bareTable.strangers (flood n) = (List.range n).map (BitVec.ofNat 32) := by
  have hsender : ∀ ip : U32, bareTable.sender (.packet 0 ⟨0x0100, 0, ip, 0x0100000a⟩) = some ip :=
    fun ip => by
      have hop : opcode ⟨0x0100, 0, ip, 0x0100000a⟩ = some .request :=
        if_pos (show ntohs 0x0100 = 1 by decide)
      exact if_pos ⟨⟨_, List.mem_singleton_self _, rfl⟩, by rw [hop]; rfl⟩
  have hall : (flood n).filterMap bareTable.sender = (List.range n).map (BitVec.ofNat 32) := by
    rw [flood, List.filterMap_map, ← List.filterMap_eq_map]
    exact List.filterMap_congr fun i _ => hsender (BitVec.ofNat 32 i)
  rw [strangers, hall, List.filter_eq_self]
  intro ip _
  simp [bareTable, initARPTable]

/-- One request more than the array has elements. -/
theorem arp_table_overrun :
    loadARPTable [⟨0x0100000a, 0⟩] none none = some bareTable ∧
      (bareTable.run (flood 1025)).entry.length = 1025 ∧ maxArpEntry = 1024 := by
  refine ⟨rfl, ?_, rfl⟩
  have hnodup : ((List.range 1025).map (BitVec.ofNat 32)).Nodup := by
    refine List.Nodup.map_on (fun i hi j hj h => ?_) List.nodup_range
    have hnat := congrArg BitVec.toNat h
    simp only [List.mem_range, BitVec.toNat_ofNat] at hi hj hnat
    omega
  rw [run_entry_length, strangers_flood, hnodup.dedup]
  simp [bareTable, initARPTable]

/-- Two senders, one of them twice. -/
theorem arp_learning_bounded_two :
    (bareTable.run (flood 2 ++ flood 1)).entry.length ≤ maxArpEntry := by
  refine (arp_learning_bounded bareTable (flood 2 ++ flood 1)).2 ?_ _
    (List.prefix_refl _)
  rw [strangers_append, strangers_flood, strangers_flood]
  decide

end ArpState

end MtcpStack
