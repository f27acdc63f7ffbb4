import Mathlib.Tactic.IntervalCases
import MtcpStack.Library.Scan
import MtcpStack.Model.Api

/-! # The loops over TCP options

Both parsers advance over an option they do not handle by its length byte, counted from the
kind byte. A length byte of zero leads back to the same option. -/

namespace MtcpStack

open Scan

variable (curTs : U32) (opt : ℕ → U8) (len : ℕ)

/-! ## The parsers as loops -/

/-- One round of `ParseTCPOptions`. -/
def optionRound (i : ℕ) (c : Conn) : Conn ⊕ (ℕ × Conn) :=
  if i < len then
    if opt i = optEnd then .inl c
    else if opt i = optNop then .inr (i + 1, c)
    else if len < i + 2 + (opt (i + 1)).toNat - 2 then .inl c
    else .inr (applyOption curTs opt (opt i) (opt (i + 1)).toNat (i + 2) c).swap
  else .inl c

theorem parseOptionsFrom_eq_scan (fuel i : ℕ) (c : Conn) :
    parseOptionsFrom curTs opt len fuel i c = scan (optionRound curTs opt len) fuel i c := by
  induction fuel generalizing i c with
  | zero => rfl
  | succ fuel ih =>
      unfold parseOptionsFrom scan optionRound
      simp only
      split_ifs <;> first | rfl | exact ih ..

/-- One round of `ParseTCPTimestamp`. -/
def timestampRound (i : ℕ) (_ : Unit) : Option TcpTimestamp ⊕ (ℕ × Unit) :=
  if i < len then
    if opt i = optEnd then .inl none
    else if opt i = optNop then .inr (i + 1, ())
    else if len < i + 2 + (opt (i + 1)).toNat - 2 then .inl none
    else if opt i = optTimestamp then .inl (some ⟨readU32 opt (i + 2), readU32 opt (i + 6)⟩)
    else .inr (i + 2 + (opt (i + 1)).toNat - 2, ())
  else .inl none

theorem parseTimestampFrom_eq_scan (fuel i : ℕ) :
    parseTimestampFrom opt len fuel i = scan (timestampRound opt len) fuel i () := by
  induction fuel generalizing i with
  | zero => rfl
  | succ fuel ih =>
      unfold parseTimestampFrom scan timestampRound
      simp only
      split_ifs <;> first | rfl | exact ih ..

/-! ## Progress -/

/-- The kinds of options that `ParseTCPOptions` steps over by their own rules. -/
def handledOption (kind : U8) : Prop :=
  kind = optMss ∨ kind = optWscale ∨ kind = optSackPermit ∨ kind = optTimestamp

/-- An option with a length byte of zero. -/
def zeroOption (i : ℕ) : Prop :=
  i < len ∧ opt i ≠ optEnd ∧ opt i ≠ optNop ∧ opt (i + 1) = 0

variable {curTs opt len}

theorem optionRound_lt {i : ℕ} {c : Conn} {q : ℕ × Conn}
    (hround : optionRound curTs opt len i c = .inr q) : i < len := by
  by_contra h
  rw [optionRound, if_neg h] at hround
  cases hround

/-- An option leads to an index behind its kind byte, unless it is skipped and has length
zero. -/
theorem applyOption_progress {i : ℕ} {c : Conn}
    (hlen : ¬ handledOption (opt i) → opt (i + 1) ≠ 0) :
    i < (applyOption curTs opt (opt i) (opt (i + 1)).toNat (i + 2) c).2 := by
  unfold applyOption
  split_ifs with hmss hws hsack hts
  · simp only
    omega
  · simp only
    omega
  · simp only
    omega
  · simp only
    omega
  · have hne : (opt (i + 1)).toNat ≠ 0 := by
      have hzero := hlen (by simp [handledOption, hmss, hws, hsack, hts])
      simpa [BitVec.toNat_eq] using hzero
    simp only
    omega

theorem optionRound_progress {i : ℕ} {c : Conn} {q : ℕ × Conn}
    (hround : optionRound curTs opt len i c = .inr q)
    (hzero : ¬ (zeroOption opt len i ∧ ¬ handledOption (opt i))) : i < q.1 := by
  unfold optionRound at hround
  split_ifs at hround with hlt hend hnop hlong
  · obtain rfl := Sum.inr.inj hround
    exact Nat.lt_succ_self i
  · obtain rfl := Sum.inr.inj hround
    exact applyOption_progress fun hkind hz => hzero ⟨⟨hlt, hend, hnop, hz⟩, hkind⟩

theorem optionRound_stuck {i : ℕ} {c : Conn} (hzero : zeroOption opt len i)
    (hkind : ¬ handledOption (opt i)) : optionRound curTs opt len i c = .inr (i, c) := by
  obtain ⟨hlt, hend, hnop, hlen⟩ := hzero
  obtain ⟨hmss, hws, hsack, hts⟩ : opt i ≠ optMss ∧ opt i ≠ optWscale ∧ opt i ≠ optSackPermit ∧
      opt i ≠ optTimestamp := by simpa [handledOption] using hkind
  have hfits : ¬ len < i + 2 + (opt (i + 1)).toNat - 2 := by simp [hlen, hlt.le]
  rw [optionRound, if_pos hlt, if_neg hend, if_neg hnop, if_neg hfits, applyOption, if_neg hmss,
    if_neg hws, if_neg hsack, if_neg hts, hlen]
  rfl

theorem timestampRound_lt {i : ℕ} {u : Unit} {q : ℕ × Unit}
    (hround : timestampRound opt len i u = .inr q) : i < len := by
  by_contra h
  rw [timestampRound, if_neg h] at hround
  cases hround

theorem timestampRound_progress {i : ℕ} {u : Unit} {q : ℕ × Unit}
    (hround : timestampRound opt len i u = .inr q)
    (hzero : ¬ (zeroOption opt len i ∧ opt i ≠ optTimestamp)) : i < q.1 := by
  unfold timestampRound at hround
  split_ifs at hround with hlt hend hnop hlong hts
  · obtain rfl := Sum.inr.inj hround
    exact Nat.lt_succ_self i
  · obtain rfl := Sum.inr.inj hround
    have hne : (opt (i + 1)).toNat ≠ 0 := by
      have hz : opt (i + 1) ≠ 0 := fun hz => hzero ⟨⟨hlt, hend, hnop, hz⟩, hts⟩
      simpa [BitVec.toNat_eq] using hz
    simp only
    omega

theorem timestampRound_stuck {i : ℕ} {u : Unit} (hzero : zeroOption opt len i)
    (hkind : opt i ≠ optTimestamp) : timestampRound opt len i u = .inr (i, u) := by
  obtain ⟨hlt, hend, hnop, hlen⟩ := hzero
  have hfits : ¬ len < i + 2 + (opt (i + 1)).toNat - 2 := by simp [hlen, hlt.le]
  rw [timestampRound, if_pos hlt, if_neg hend, if_neg hnop, if_neg hfits, if_neg hkind, hlen]
  rfl

/-! ## Termination -/

/-- Every round of the loops moves the index forward, and both loops end, exactly when no option
that a parser comes to and skips has length zero. A parser that comes to such an option never
returns. -/
theorem option_parsing_terminates (curTs : U32) (opt : ℕ → U8) (len : ℕ) (c : Conn) :
    (((∀ p q, Visits (optionRound curTs opt len) (0, c) p →
          Round (optionRound curTs opt len) p q → p.1 < q.1) ∧
        ∀ fuel, len < fuel → (parseOptionsFrom curTs opt len fuel 0 c).isSome = true)
      ↔ ∀ p, Visits (optionRound curTs opt len) (0, c) p →
          ¬ (zeroOption opt len p.1 ∧ ¬ handledOption (opt p.1))) ∧
    (((∀ p q, Visits (timestampRound opt len) (0, ()) p →
          Round (timestampRound opt len) p q → p.1 < q.1) ∧
        ∀ fuel, len < fuel → (parseTimestampFrom opt len fuel 0).isSome = true)
      ↔ ∀ p, Visits (timestampRound opt len) (0, ()) p →
          ¬ (zeroOption opt len p.1 ∧ opt p.1 ≠ optTimestamp)) ∧
    (∀ p, Visits (optionRound curTs opt len) (0, c) p →
      zeroOption opt len p.1 ∧ ¬ handledOption (opt p.1) →
        ∀ fuel, parseOptionsFrom curTs opt len fuel 0 c = none) ∧
    ∀ p, Visits (timestampRound opt len) (0, ()) p →
      zeroOption opt len p.1 ∧ opt p.1 ≠ optTimestamp →
        ∀ fuel, parseTimestampFrom opt len fuel 0 = none := by
  simp only [parseOptionsFrom_eq_scan, parseTimestampFrom_eq_scan]
  refine ⟨?_, ?_, fun p hvisit hzero => ?_, fun p hvisit hzero => ?_⟩
  · exact scan_ends_iff (fun _ _ _ => optionRound_lt) (fun _ _ _ => optionRound_progress)
      fun _ _ hzero => optionRound_stuck hzero.1 hzero.2
  · exact scan_ends_iff (fun _ _ _ => timestampRound_lt) (fun _ _ _ => timestampRound_progress)
      fun _ _ hzero => timestampRound_stuck hzero.1 hzero.2
  · exact scan_eq_none hvisit (optionRound_stuck hzero.1 hzero.2)
  · exact scan_eq_none hvisit (timestampRound_stuck hzero.1 hzero.2)

/-- An option of kind 5 with a length byte of zero. -/
def stuckOption (i : ℕ) : U8 := if i = 0 then 5 else 0

/-- Both parsers come back to this option for ever. -/
theorem option_parsing_stuck :
    (∀ c fuel, parseOptionsFrom 0 stuckOption 4 fuel 0 c = none) ∧
      ∀ fuel, parseTimestampFrom stuckOption 4 fuel 0 = none := by
  refine ⟨fun c fuel => ?_, fun fuel => ?_⟩
  · have hround : Round (optionRound 0 stuckOption 4) (0, c) (0, c) := rfl
    rw [parseOptionsFrom_eq_scan]
    exact scan_eq_none .refl hround fuel
  · have hround : Round (timestampRound stuckOption 4) (0, ()) (0, ()) := rfl
    rw [parseTimestampFrom_eq_scan]
    exact scan_eq_none .refl hround fuel

/-- A maximum segment size option, followed by padding. -/
def mssOption (i : ℕ) : U8 :=
  match i with
  | 0 => 2
  | 1 => 4
  | 2 => 5
  | 3 => 180
  | _ => 1

theorem option_parsing_terminates_mss :
    (∀ c, (parseOptionsFrom 0 mssOption 4 5 0 c).isSome = true) ∧
      (parseTimestampFrom mssOption 4 5 0).isSome = true := by
  have hzero : ∀ i, ¬ zeroOption mssOption 4 i := by
    rintro i ⟨hlt, -, -, hz⟩
    interval_cases i <;> exact absurd hz (by decide)
  have hends := fun c => option_parsing_terminates 0 mssOption 4 c
  refine ⟨fun c => ((hends c).1.mpr fun p _ h => hzero p.1 h.1).2 5 (by omega), ?_⟩
  exact ((hends (freshConn ⟨0, 0, 16⟩ 100 none 0 Shared.init)).2.1.mpr
    fun p _ h => hzero p.1 h.1).2 5 (by omega)

end MtcpStack
