import Mathlib.Data.Nat.Digits.Defs
import MtcpStack.Model.MperfConfig

/-! # Quantities on the command line

What a number with a unit means, and what is left of it in the configuration. The unit has to be
given: without one `unit_atolu` answers `UINT64_MAX`. The shift wraps, and so does the store to a
field of 32 bits. -/

namespace MtcpStack.Mperf

variable {field : QuantityField} {c : Char} {ds : List Char}

/-! ## What the user typed -/

/-- A text of decimal digits and its value. -/
structure Decimal (ds : List Char) (v : ℕ) : Prop where
  ne_nil : ds ≠ []
  digits : ∀ c ∈ ds, c.isDigit = true
  value : Nat.ofDigitChars 10 ds 0 = v

/-- Every number has a text. -/
theorem decimal_toDigits (v : ℕ) : Decimal (Nat.toDigits 10 v) v where
  ne_nil := Nat.toDigits_ne_nil
  digits _ hc := Nat.isDigit_of_mem_toDigits (by decide) le_rfl hc
  value := Nat.ofDigitChars_toDigits (by decide) le_rfl

/-- The scale of a suffix, in bits. -/
def suffixBits : Char → Option ℕ
  | 'b' | 'B' => some 0
  | 'k' | 'K' => some 10
  | 'm' | 'M' => some 20
  | 'g' | 'G' => some 30
  | 't' | 'T' => some 40
  | _ => none

/-- The fields of a configuration that a quantity is stored to. -/
inductive QuantityField where
  | rate
  | bytes
  | blocks
  | blksize
deriving DecidableEq, Repr

/-- The width of the field in `struct mperf_conn_config`. -/
def QuantityField.width : QuantityField → ℕ
  | .rate => 64
  | .bytes | .blocks | .blksize => 32

def ConnConfig.quantity (conf : ConnConfig) : QuantityField → ℕ
  | .rate => conf.rate.toNat
  | .bytes => conf.bytes.toNat
  | .blocks => conf.blocks.toNat
  | .blksize => conf.blksize.toNat

/-- The field an option is for, and the text of the quantity. -/
def Arg.quantity? : Arg → Option (QuantityField × List Char)
  | .bitrate optarg => some (.rate, (splitSlash optarg).1)
  | .bytes optarg => some (.bytes, optarg)
  | .blockcount optarg => some (.blocks, optarg)
  | .length optarg => some (.blksize, optarg)
  | _ => none

/-! ## Reading it -/

theorem isSpace_of_isDigit (h : c.isDigit = true) : isSpace c = false := by
  simp only [Char.isDigit, Bool.and_eq_true, decide_eq_true_eq] at h
  simp only [isSpace, decide_eq_false_iff_not]
  have hlo : 48 ≤ c.toNat := h.1
  omega

theorem scanSign_of_isDigit (h : c.isDigit = true) (s : List Char) :
    scanSign (c :: s) = (false, c :: s) := by
  unfold scanSign
  split
  case h_1 heq =>
    obtain ⟨rfl, -⟩ := List.cons.inj heq
    exact absurd h (by decide)
  case h_2 heq =>
    obtain ⟨rfl, -⟩ := List.cons.inj heq
    exact absurd h (by decide)
  case h_3 => rfl

/-- The number ends at the first character that is not a digit. -/
theorem scanNumber_decimal {ds rest : List Char} {v : ℕ} (hds : Decimal ds v)
    (hrest : ∀ c ∈ rest.head?, c.isDigit = false) :
    scanNumber (ds ++ rest) = some (false, v, rest) := by
  obtain ⟨hne, hdigits, hvalue⟩ := hds
  have htake : rest.takeWhile Char.isDigit = [] := by
    cases rest with
    | nil => rfl
    | cons c rest => simp [hrest c rfl]
  have hdrop : rest.dropWhile Char.isDigit = rest := by
    cases rest with
    | nil => rfl
    | cons c rest => simp [hrest c rfl]
  have hsigned : scanSign ((ds ++ rest).dropWhile isSpace) = (false, ds ++ rest) := by
    cases ds with
    | nil => exact absurd rfl hne
    | cons c ds =>
      have hc := hdigits c List.mem_cons_self
      rw [List.cons_append, List.dropWhile_cons, isSpace_of_isDigit hc]
      exact scanSign_of_isDigit hc (ds ++ rest)
  simp only [scanNumber, hsigned, List.takeWhile_append_of_pos hdigits,
    List.dropWhile_append_of_pos hdigits, htake, hdrop, List.append_nil, if_neg hne]
  rw [← hvalue]
  rfl

theorem unitMatch_of_suffixBits {s : ℕ} (h : suffixBits c = some s) :
    ∃ unit, unitMatch c = some unit ∧ unit.shift = s := by
  unfold suffixBits at h
  split at h
  case h_1 | h_2 => exact ⟨.byte, by decide, Option.some.inj h⟩
  case h_3 | h_4 => exact ⟨.kilo, by decide, Option.some.inj h⟩
  case h_5 | h_6 => exact ⟨.mega, by decide, Option.some.inj h⟩
  case h_7 | h_8 => exact ⟨.giga, by decide, Option.some.inj h⟩
  case h_9 | h_10 => exact ⟨.tera, by decide, Option.some.inj h⟩
  case h_11 => cases h

theorem isDigit_of_suffixBits {s : ℕ} (h : suffixBits c = some s) :
    c.isDigit = false := by
  by_contra hdigit
  rw [Bool.not_eq_false] at hdigit
  unfold suffixBits at h
  split at h
  all_goals first | exact absurd hdigit (by decide) | cases h

/-- `%lu` stops at `ULONG_MAX`. -/
theorem toNat_unsignedLong (v : ℕ) : (unsignedLong false v).toNat = min v (2 ^ 64 - 1) := by
  rw [unsignedLong, if_neg Bool.false_ne_true]
  split
  case isTrue hlarge =>
    rw [min_eq_right (by omega)]
    rfl
  case isFalse hsmall =>
    rw [BitVec.toNat_ofNat, Nat.mod_eq_of_lt (by omega), min_eq_left (by omega)]

/-- With a suffix the number is shifted, and what does not fit 64 bits is lost. -/
theorem unitAtolu_scaled {v s : ℕ} (hds : Decimal ds v) (hc : suffixBits c = some s) :
    (unitAtolu (ds ++ [c])).toNat = min v (2 ^ 64 - 1) * 2 ^ s % 2 ^ 64 := by
  have hscan : scanNumber (ds ++ [c]) = some (false, v, [c]) :=
    scanNumber_decimal hds (by simpa using isDigit_of_suffixBits hc)
  obtain ⟨unit, hunit, hshift⟩ := unitMatch_of_suffixBits hc
  simp only [unitAtolu, hscan, List.headD_cons, hunit, hshift]
  rw [BitVec.toNat_shiftLeft, Nat.shiftLeft_eq, toNat_unsignedLong]

/-- Without a suffix every number is `UINT64_MAX`. -/
theorem unitAtolu_plain {v : ℕ} (hds : Decimal ds v) :
    unitAtolu ds = uint64Max := by
  have hscan : scanNumber (ds ++ []) = some (false, v, []) := scanNumber_decimal hds (by simp)
  rw [List.append_nil] at hscan
  have hnone : unitMatch '\x00' = none := by decide
  simp only [unitAtolu, hscan, List.headD_nil, hnone]

/-! ## Storing it -/

/-- The fields while the options are read; the block size is kept in a variable of its own. -/
def ArgState.quantity (st : ArgState) : QuantityField → ℕ
  | .blksize => st.blksize.toNat
  | field => st.connConf.quantity field

theorem parseBitrate_eq_some {optarg : List Char} {conf conf' : ConnConfig}
    (h : parseBitrate optarg conf = some conf') :
    ∃ burst, conf' = { conf with burst := burst, rate := unitAtolu (splitSlash optarg).1 } := by
  unfold parseBitrate at h
  simp only at h
  split at h
  · exact ⟨conf.burst, (Option.some.inj h).symm⟩
  · rw [Option.ite_none_left_eq_some] at h
    exact ⟨_, (Option.some.inj h.2).symm⟩

/-- An option with a quantity stores what fits its field. -/
theorem parseArg_stores {st st' : ArgState} {arg : Arg} {text : List Char}
    (h : parseArg st arg = some st') (harg : arg.quantity? = some (field, text)) :
    st'.quantity field = (unitAtolu text).toNat % 2 ^ field.width := by
  cases arg with
  | mtcpConf | port | format | verbose | version | server | client | time | help => cases harg
  | bitrate optarg =>
    obtain ⟨conf, hconf, rfl⟩ := Option.map_eq_some_iff.mp h
    obtain ⟨burst, rfl⟩ := parseBitrate_eq_some hconf
    cases harg
    exact (Nat.mod_eq_of_lt (BitVec.isLt _)).symm
  | bytes | blockcount | length =>
    cases h
    cases harg
    exact BitVec.toNat_setWidth _ _

/-- The other options leave the field. -/
theorem parseArg_keeps {st st' : ArgState} {arg : Arg}
    (h : parseArg st arg = some st') (harg : ∀ text, arg.quantity? ≠ some (field, text)) :
    st'.quantity field = st.quantity field := by
  cases arg with
  | mtcpConf | port | verbose =>
    cases h
    cases field <;> rfl
  | version | help => cases h
  | format optarg =>
    obtain ⟨unit, -, rfl⟩ := Option.map_eq_some_iff.mp h
    rfl
  | server valid | client valid =>
    obtain ⟨-, hst⟩ := Option.ite_none_right_eq_some.mp h
    rw [Option.some.inj hst]
  | bitrate optarg =>
    obtain ⟨conf, hconf, rfl⟩ := Option.map_eq_some_iff.mp h
    obtain ⟨burst, rfl⟩ := parseBitrate_eq_some hconf
    cases field with
    | rate => exact absurd rfl (harg _)
    | bytes | blocks | blksize => rfl
  | time optarg =>
    obtain ⟨-, hst⟩ := Option.ite_none_left_eq_some.mp h
    cases hst
    cases field <;> rfl
  | bytes optarg =>
    cases h
    cases field with
    | bytes => exact absurd rfl (harg _)
    | rate | blocks | blksize => rfl
  | blockcount optarg =>
    cases h
    cases field with
    | blocks => exact absurd rfl (harg _)
    | rate | bytes | blksize => rfl
  | length optarg =>
    cases h
    cases field with
    | blksize => exact absurd rfl (harg _)
    | rate | bytes | blocks => rfl

theorem parseArgs_keeps {st st' : ArgState} {args : List Arg}
    (h : args.foldlM parseArg st = some st')
    (hargs : ∀ arg ∈ args, ∀ text, arg.quantity? ≠ some (field, text)) :
    st'.quantity field = st.quantity field := by
  induction args generalizing st with
  | nil =>
    cases h
    rfl
  | cons arg args ih =>
    rw [List.foldlM_cons] at h
    obtain ⟨mid, hmid, hrest⟩ := Option.bind_eq_some_iff.mp h
    rw [ih hrest fun a ha => hargs a (List.mem_cons_of_mem _ ha)]
    exact parseArg_keeps hmid (hargs arg List.mem_cons_self)

/-- A block size of zero becomes the default behind the loop. -/
theorem finishArgs_quantity {st : ArgState} {conf : ConnConfig} (h : finishArgs st = some conf)
    (field : QuantityField) :
    conf.quantity field =
      if field = .blksize ∧ st.quantity field = 0 then defaultTcpBlksize.toNat
      else st.quantity field := by
  dsimp only [finishArgs] at h
  obtain ⟨-, hconf⟩ := Option.ite_none_left_eq_some.mp h
  have hfield : conf.quantity field =
      ({ st.connConf with
        blksize := if st.blksize = 0 then defaultTcpBlksize else st.blksize } :
        ConnConfig).quantity field := by
    split at hconf
    · cases hconf
      cases field <;> rfl
    · cases hconf
      rfl
  rw [hfield]
  cases field with
  | rate | bytes | blocks => rfl
  | blksize =>
    have hnat : st.blksize.toNat = 0 ↔ st.blksize = 0 := BitVec.toNat_inj (y := 0)
    simp only [ConnConfig.quantity, ArgState.quantity, hnat, true_and]
    split <;> rfl

/-- The last option for a field decides what is stored there. -/
theorem mperfParseArgs_quantity {before after : List Arg} {arg : Arg} {conf : ConnConfig}
    {text : List Char}
    (h : mperfParseArgs (before ++ arg :: after) = some conf)
    (harg : arg.quantity? = some (field, text))
    (hafter : ∀ a ∈ after, ∀ t, a.quantity? ≠ some (field, t)) :
    conf.quantity field =
      if field = .blksize ∧ (unitAtolu text).toNat % 2 ^ field.width = 0 then
        defaultTcpBlksize.toNat
      else (unitAtolu text).toNat % 2 ^ field.width := by
  obtain ⟨st, hloop, hfinish⟩ := Option.bind_eq_some_iff.mp h
  rw [List.foldlM_append] at hloop
  obtain ⟨first, -, hrest⟩ := Option.bind_eq_some_iff.mp hloop
  rw [List.foldlM_cons] at hrest
  obtain ⟨mid, hmid, hlast⟩ := Option.bind_eq_some_iff.mp hrest
  rw [finishArgs_quantity hfinish, parseArgs_keeps hlast hafter, parseArg_stores hmid harg]

/-- The number is read as it is meant exactly when it is below `2 ^ 64`. -/
theorem unitAtolu_eq_iff {v s : ℕ} (hds : Decimal ds v) (hc : suffixBits c = some s) :
    (unitAtolu (ds ++ [c])).toNat = v * 2 ^ s ↔ v * 2 ^ s < 2 ^ 64 := by
  constructor
  · intro heq
    rw [← heq]
    exact BitVec.isLt _
  · intro hlt
    have hle : v ≤ v * 2 ^ s := Nat.le_mul_of_pos_right v (by positivity)
    rw [unitAtolu_scaled hds hc, min_eq_left (by omega), Nat.mod_eq_of_lt hlt]

theorem quantity_lt (conf : ConnConfig) (field : QuantityField) :
    conf.quantity field < 2 ^ field.width := by
  cases field <;> exact BitVec.isLt _

/-- What is typed without a suffix is read as `UINT64_MAX`. With one it is read as the user means it
exactly when it is below `2 ^ 64`, and a command line that is accepted has stored it exactly when
it fits the field and is not a block size of zero. -/
theorem quantities_stored {ds : List Char} {v : ℕ} (hds : Decimal ds v) :
    unitAtolu ds = uint64Max ∧
      ∀ c s, suffixBits c = some s →
        ((unitAtolu (ds ++ [c])).toNat = v * 2 ^ s ↔ v * 2 ^ s < 2 ^ 64) ∧
        ∀ (before after : List Arg) (arg : Arg) (conf : ConnConfig) (field : QuantityField),
          mperfParseArgs (before ++ arg :: after) = some conf →
          arg.quantity? = some (field, ds ++ [c]) →
          (∀ a ∈ after, ∀ t, a.quantity? ≠ some (field, t)) →
          (conf.quantity field = v * 2 ^ s ↔
            v * 2 ^ s < 2 ^ field.width ∧ (field = .blksize → v ≠ 0)) := by
  refine ⟨unitAtolu_plain hds, fun c s hc => ⟨unitAtolu_eq_iff hds hc, ?_⟩⟩
  intro before after arg conf field hparse harg hafter
  have hstored := mperfParseArgs_quantity hparse harg hafter
  constructor
  · intro heq
    refine ⟨heq ▸ quantity_lt conf field, ?_⟩
    rintro rfl rfl
    rw [unitAtolu_scaled hds hc, heq] at hstored
    simp [defaultTcpBlksize] at hstored
  · rintro ⟨hlt, hzero⟩
    have hwidth : 2 ^ field.width ≤ 2 ^ 64 := by
      cases field <;> decide
    have hread := (unitAtolu_eq_iff hds hc).mpr (by omega)
    rw [hstored, hread, Nat.mod_eq_of_lt hlt, if_neg]
    rintro ⟨hfield, hprod⟩
    exact hzero hfield ((Nat.mul_eq_zero.mp hprod).resolve_right (by positivity))

/-- `-m conf -n 3K`. -/
theorem quantities_stored_kilobytes :
    ∃ conf, mperfParseArgs [.mtcpConf, .bytes ['3', 'K']] = some conf ∧
      conf.quantity .bytes = 3 * 2 ^ 10 :=
  ⟨{ initConfig with bytes := 3072, duration := 0 }, by decide +kernel,
    (((quantities_stored (decimal_toDigits 3)).2 'K' 10 rfl).2 [.mtcpConf] [] (.bytes ['3', 'K']) _
      .bytes (by decide +kernel) rfl nofun).mpr ⟨by decide, nofun⟩⟩

/-- `1000` is read as `UINT64_MAX` and stored. `16777216t`, which is `2 ^ 64`, is read as 0; `4g`
bytes or blocks are stored as 0, and `4g` or `0b` for the block size as the default. None of the
command lines is rejected. -/
theorem quantities_altered :
    (mperfParseArgs [.mtcpConf, .bitrate ['1', '0', '0', '0']]).map (·.quantity .rate) =
        some (2 ^ 64 - 1) ∧
      (unitAtolu ['1', '6', '7', '7', '7', '2', '1', '6', 't']).toNat = 0 ∧
      (mperfParseArgs [.mtcpConf, .bitrate ['1', '6', '7', '7', '7', '2', '1', '6', 't']]).map
        (·.quantity .rate) = some 0 ∧
      (mperfParseArgs [.mtcpConf, .bytes ['4', 'g']]).map (·.quantity .bytes) = some 0 ∧
      (mperfParseArgs [.mtcpConf, .blockcount ['4', 'g']]).map (·.quantity .blocks) = some 0 ∧
      (mperfParseArgs [.mtcpConf, .length ['4', 'g']]).map (·.quantity .blksize) = some 131072 ∧
      (mperfParseArgs [.mtcpConf, .length ['0', 'b']]).map (·.quantity .blksize) = some 131072 := by
  decide +kernel

end MtcpStack.Mperf
