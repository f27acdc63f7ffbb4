import MtcpStack.Verification.Options

/-! # Which bytes option parsing reads

The parsers test the length an option declares against the length of the options, but read as many
bytes as its kind calls for. What they read lies within the options exactly when every option has
its length byte there and, unless it declares more than there is, the bytes its kind calls for. -/

namespace MtcpStack

open Scan

variable {curTs : U32} {opt opt' : ℕ → U8} {len i : ℕ}

/-! ## The shape of a round -/

section
variable {σ ρ : Type*} {stop : ρ} {s : σ} {body body' : ρ ⊕ (ℕ × σ)}

/-- A round of both parsers; `body` is what it does with an option that fits. -/
def optionWalk (opt : ℕ → U8) (len : ℕ) (stop : ρ) (s : σ) (body : ρ ⊕ (ℕ × σ)) (i : ℕ) :
    ρ ⊕ (ℕ × σ) :=
  if i < len then
    if opt i = optEnd then .inl stop
    else if opt i = optNop then .inr (i + 1, s)
    else if len < i + 2 + (opt (i + 1)).toNat - 2 then .inl stop
    else body
  else .inl stop

theorem optionRound_eq_walk (c : Conn) : optionRound curTs opt len i c = optionWalk opt len c c
    (.inr (applyOption curTs opt (opt i) (opt (i + 1)).toNat (i + 2) c).swap) i := rfl

theorem timestampRound_eq_walk (u : Unit) :
    timestampRound opt len i u = optionWalk opt len none ()
      (if opt i = optTimestamp then .inl (some ⟨readU32 opt (i + 2), readU32 opt (i + 6)⟩)
      else .inr (i + 2 + (opt (i + 1)).toNat - 2, ())) i := rfl

/-! ## The bytes of a round -/

/-- The indices a round at `i` reads, given the data bytes it reads of an option. -/
def roundReads (data : U8 → ℕ → List ℕ) (opt : ℕ → U8) (len i : ℕ) : List ℕ :=
  if i < len then
    if opt i = optEnd ∨ opt i = optNop then [i]
    else if len < i + 2 + (opt (i + 1)).toNat - 2 then [i, i + 1]
    else i :: (i + 1) :: data (opt i) (i + 2)
  else []

/-- A round depends on nothing but the bytes it reads. -/
theorem optionWalk_congr {data : U8 → ℕ → List ℕ}
    (h : ∀ k ∈ roundReads data opt len i, opt' k = opt k)
    (hbody : opt' i = opt i → opt' (i + 1) = opt (i + 1) →
      (∀ k ∈ data (opt i) (i + 2), opt' k = opt k) → body' = body) :
    optionWalk opt' len stop s body' i = optionWalk opt len stop s body i := by
  unfold roundReads at h
  unfold optionWalk
  by_cases hlt : i < len
  · rw [if_pos hlt] at h ⊢
    rw [if_pos hlt]
    have hkind : opt' i = opt i := h i (by split_ifs <;> simp)
    rw [hkind]
    by_cases hend : opt i = optEnd
    · rw [if_pos hend, if_pos hend]
    · by_cases hnop : opt i = optNop
      · rw [if_neg hend, if_neg hend, if_pos hnop, if_pos hnop]
      · rw [if_neg (not_or.mpr ⟨hend, hnop⟩)] at h
        have hlen : opt' (i + 1) = opt (i + 1) := h (i + 1) (by split_ifs <;> simp)
        rw [hlen, if_neg hend, if_neg hnop, if_neg hend, if_neg hnop]
        by_cases hlong : len < i + 2 + (opt (i + 1)).toNat - 2
        · rw [if_pos hlong, if_pos hlong]
        · rw [if_neg hlong] at h ⊢
          rw [if_neg hlong, hbody hkind hlen fun k hk => h k (by simp [hk])]
  · rw [if_neg hlt, if_neg hlt]

end

/-- An option that is not padding has its length byte within the options, and `need` bytes unless
it declares more than there is. -/
def optionFits (need : U8 → ℕ) (opt : ℕ → U8) (len i : ℕ) : Prop :=
  i < len → opt i ≠ optEnd → opt i ≠ optNop →
    i + 1 < len ∧ (i + (opt (i + 1)).toNat ≤ len → i + need (opt i) ≤ len)

instance (need : U8 → ℕ) (opt : ℕ → U8) (len i : ℕ) : Decidable (optionFits need opt len i) :=
  inferInstanceAs (Decidable (_ → _))

/-- A round stays within the options exactly when the option it is at fits. -/
theorem roundReads_lt_iff {data : U8 → ℕ → List ℕ} {need : U8 → ℕ}
    (hdata : ∀ kind j, j + 1 < len →
      ((∀ k ∈ data kind (j + 2), k < len) ↔ j + need kind ≤ len)) :
    (∀ k ∈ roundReads data opt len i, k < len) ↔ optionFits need opt len i := by
  unfold roundReads optionFits
  split_ifs with hlt hpad hlong
  · simp only [List.mem_singleton, forall_eq, hlt, true_iff]
    exact fun _ hend hnop => absurd hpad (not_or.mpr ⟨hend, hnop⟩)
  · have hpast : ¬ i + (opt (i + 1)).toNat ≤ len := by omega
    push Not at hpad
    simp [hlt, hpad, hpast]
  · have hdeclared : i + (opt (i + 1)).toNat ≤ len := by omega
    push Not at hpad
    simp only [List.forall_mem_cons, hlt, hpad, hdeclared, ne_eq, not_false_eq_true, true_and,
      forall_const]
    exact and_congr_right (hdata (opt i) i)
  · simp [hlt]

/-! ## The two parsers -/

/-- The data bytes `ParseTCPOptions` reads of an option of kind `kind` at `i`. -/
def optionData (kind : U8) (i : ℕ) : List ℕ :=
  if kind = optMss then [i, i + 1]
  else if kind = optWscale then [i]
  else if kind = optTimestamp then [i, i + 1, i + 2, i + 3]
  else []

/-- Likewise for `ParseTCPTimestamp`. -/
def timestampData (kind : U8) (i : ℕ) : List ℕ :=
  if kind = optTimestamp then [i, i + 1, i + 2, i + 3, i + 4, i + 5, i + 6, i + 7] else []

/-- The bytes of an option up to the last that `ParseTCPOptions` reads; of a timestamp it reads
the first value only. -/
def optionNeed (kind : U8) : ℕ :=
  if kind = optMss then 4 else if kind = optWscale then 3 else if kind = optTimestamp then 6 else 2

/-- Likewise for `ParseTCPTimestamp`. -/
def timestampNeed (kind : U8) : ℕ := if kind = optTimestamp then 10 else 2

def optionReads : (ℕ → U8) → ℕ → ℕ → List ℕ := roundReads optionData

def timestampReads : (ℕ → U8) → ℕ → ℕ → List ℕ := roundReads timestampData

theorem optionData_lt_iff (kind : U8) (j : ℕ) (hlen : j + 1 < len) :
    (∀ k ∈ optionData kind (j + 2), k < len) ↔ j + optionNeed kind ≤ len := by
  unfold optionData optionNeed
  split_ifs <;> simp <;> omega

theorem timestampData_lt_iff (kind : U8) (j : ℕ) (hlen : j + 1 < len) :
    (∀ k ∈ timestampData kind (j + 2), k < len) ↔ j + timestampNeed kind ≤ len := by
  unfold timestampData timestampNeed
  split_ifs <;> simp <;> omega

/-- Bytes that agree where an option is read give the same option. -/
theorem applyOption_congr {kind : U8} {optlen : ℕ} {c : Conn}
    (h : ∀ k ∈ optionData kind i, opt' k = opt k) :
    applyOption curTs opt' kind optlen i c = applyOption curTs opt kind optlen i c := by
  unfold optionData at h
  unfold applyOption readU32
  split_ifs at h ⊢ <;> simp_all

theorem optionRound_congr {c : Conn} (h : ∀ k ∈ optionReads opt len i, opt' k = opt k) :
    optionRound curTs opt' len i c = optionRound curTs opt len i c := by
  rw [optionRound_eq_walk, optionRound_eq_walk]
  refine optionWalk_congr h fun hkind hlen hdata => ?_
  rw [hkind, hlen, applyOption_congr hdata]

theorem timestampRound_congr {u : Unit} (h : ∀ k ∈ timestampReads opt len i, opt' k = opt k) :
    timestampRound opt' len i u = timestampRound opt len i u := by
  rw [timestampRound_eq_walk, timestampRound_eq_walk]
  refine optionWalk_congr h fun hkind hlen hdata => ?_
  rw [hkind, hlen]
  by_cases hts : opt i = optTimestamp
  · rw [if_pos hts, if_pos hts]
    unfold readU32
    simp_all [timestampData]
  · rw [if_neg hts, if_neg hts]

/-! ## Reads within the options -/

/-- `ParseTCPOptions` reads no byte behind the options, and what stands there has no influence,
exactly when every option it comes to fits; likewise `ParseTCPTimestamp`. -/
theorem option_reads_inside (curTs : U32) (opt : ℕ → U8) (len : ℕ) (c : Conn) :
    (((∀ p, Visits (optionRound curTs opt len) (0, c) p →
          ∀ k ∈ optionReads opt len p.1, k < len) ∧
        ∀ opt' : ℕ → U8, (∀ k < len, opt' k = opt k) → ∀ fuel,
          parseOptionsFrom curTs opt' len fuel 0 c = parseOptionsFrom curTs opt len fuel 0 c)
      ↔ ∀ p, Visits (optionRound curTs opt len) (0, c) p → optionFits optionNeed opt len p.1) ∧
    (((∀ p, Visits (timestampRound opt len) (0, ()) p →
          ∀ k ∈ timestampReads opt len p.1, k < len) ∧
        ∀ opt' : ℕ → U8, (∀ k < len, opt' k = opt k) → ∀ fuel,
          parseTimestampFrom opt' len fuel 0 = parseTimestampFrom opt len fuel 0)
      ↔ ∀ p, Visits (timestampRound opt len) (0, ()) p →
          optionFits timestampNeed opt len p.1) := by
  simp only [optionReads, timestampReads, roundReads_lt_iff optionData_lt_iff,
    roundReads_lt_iff timestampData_lt_iff, parseOptionsFrom_eq_scan, parseTimestampFrom_eq_scan]
  -- What a round does not read cannot change it, so the loops agree round by round.
  refine ⟨and_iff_left_of_imp fun hfits opt' hsame => ?_,
    and_iff_left_of_imp fun hfits opt' hsame => ?_⟩
  · refine scan_congr fun p hp => optionRound_congr fun k hk => hsame k ?_
    exact (roundReads_lt_iff optionData_lt_iff).mpr (hfits p hp) k hk
  · refine scan_congr fun p hp => timestampRound_congr fun k hk => hsame k ?_
    exact (roundReads_lt_iff timestampData_lt_iff).mpr (hfits p hp) k hk

/-- A new stream. -/
def blankConn : Conn := freshConn ⟨0, 0, 16⟩ 100 none 0 Shared.init

/-- Three bytes of padding and the kind byte of a maximum segment size, with `tail` behind. -/
def openOption (tail : List U8) (i : ℕ) : U8 := ([1, 1, 1, 2] ++ tail).getD i 0

/-- The length byte and the segment size are taken from behind the four option bytes. -/
theorem option_reads_payload :
    Visits (optionRound 0 (openOption [0, 5, 180]) 4) (0, blankConn) (3, blankConn) ∧
      optionReads (openOption [0, 5, 180]) 4 3 = [3, 4, 5, 6] ∧
      (parseTCPOptions 0 (openOption [0, 5, 180]) 4 blankConn).map (·.mss) = some 1460 ∧
      (parseTCPOptions 0 (openOption [0, 2, 24]) 4 blankConn).map (·.mss) = some 536 := by
  refine ⟨?_, by decide +kernel, by decide +kernel, by decide +kernel⟩
  have hpad : ∀ i < 3, Round (optionRound 0 (openOption [0, 5, 180]) 4) (i, blankConn)
      (i + 1, blankConn) := by
    intro i hi
    interval_cases i <;> rfl
  exact .head (hpad 0 (by omega)) (.head (hpad 1 (by omega)) (.single (hpad 2 (by omega))))

/-- A window scale of 7 that declares a length of one and a byte of padding, with `tail` behind. -/
def closedOption (tail : List U8) (i : ℕ) : U8 := ([3, 1, 7, 1] ++ tail).getD i 0

theorem option_reads_inside_wscale :
    parseOptionsFrom 0 (closedOption [2, 4]) 4 5 0 blankConn =
      parseOptionsFrom 0 (closedOption []) 4 5 0 blankConn := by
  have hfits : ∀ i < 4, optionFits optionNeed (closedOption []) 4 i := by decide
  have hinside := (option_reads_inside 0 (closedOption []) 4 blankConn).1.mpr
    fun p _ hlt => hfits p.1 hlt hlt
  refine hinside.2 (closedOption [2, 4]) (fun k hk => ?_) 5
  interval_cases k <;> rfl

end MtcpStack
