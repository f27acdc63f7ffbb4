import MtcpStack.Model.OptionOutput
import MtcpStack.Verification.OptionReads

/-! # What options mean

A well-formed option string is a list of options. The parsers take one option a round, so what
they leave on the stream is told by the list alone. -/

namespace MtcpStack

open Memory Scan

/-! ## Options -/

/-- The kinds of options with a meaning of their own. -/
def knownKinds : List U8 := [optEnd, optNop, optMss, optWscale, optSackPermit, optTimestamp]

/-- An option before the end mark; one of another kind has a length byte for its data. -/
inductive TcpOption where
  | nop
  | mss (value : U16)
  | wscale (shift : U8)
  | sackPermit
  | timestamp (ts : TcpTimestamp)
  | unknown (kind : U8) (data : List U8) (hkind : kind ∉ knownKinds) (hlen : data.length + 2 < 256)
  deriving DecidableEq

namespace TcpOption

def encode : TcpOption → List U8
  | nop => [optNop]
  | mss value => optMss :: 4 :: bytes16 value
  | wscale shift => [optWscale, 3, shift]
  | sackPermit => [optSackPermit, 2]
  | timestamp ts => optTimestamp :: 10 :: (bytes32 ts.tsVal ++ bytes32 ts.tsRef)
  | unknown kind data _ _ => kind :: BitVec.ofNat 8 (data.length + 2) :: data

def mss? : TcpOption → Option U16
  | mss value => some value
  | _ => none

def wscale? : TcpOption → Option U8
  | wscale shift => some shift
  | _ => none

def timestamp? : TcpOption → Option TcpTimestamp
  | timestamp ts => some ts
  | _ => none

/-- What one option does to a stream. -/
def apply (curTs : U32) (c : Conn) : TcpOption → Conn
  | nop => c
  | mss value => { c with mss := value, effMss := value - 12 }
  | wscale shift => { c with wscalePeer := shift }
  | sackPermit => { c with sackPermit := true }
  | timestamp ts => { c with sawTimestamp := true, tsRecent := ts.tsVal, tsLastTsUpd := curTs }
  | unknown .. => c

def kind : TcpOption → U8
  | nop => optNop
  | mss _ => optMss
  | wscale _ => optWscale
  | sackPermit => optSackPermit
  | timestamp _ => optTimestamp
  | unknown kind .. => kind

theorem kind_ne_optEnd (o : TcpOption) : o.kind ≠ optEnd := by
  cases o with
  | unknown kind data hkind hlen => exact fun h => hkind (by simp [knownKinds, show kind = _ from h])
  | _ => simp [kind, optEnd, optNop, optMss, optWscale, optSackPermit, optTimestamp]

theorem encode_length_pos (o : TcpOption) : 0 < o.encode.length := by
  cases o <;> simp [encode]

end TcpOption

open TcpOption

/-- The bytes of a list of options. -/
def encodeOptions (opts : List TcpOption) : List U8 := opts.flatMap encode

/-- From `i` on, the options up to `len` are `opts`, which may be cut by an end mark. -/
structure CarriesOptions (opt : ℕ → U8) (len i : ℕ) (opts : List TcpOption) : Prop where
  holds : Holds opt i (encodeOptions opts)
  ends : i + (encodeOptions opts).length = len ∨
    i + (encodeOptions opts).length < len ∧ opt (i + (encodeOptions opts).length) = optEnd

variable {curTs : U32} {opt : ℕ → U8} {len i : ℕ} {opts : List TcpOption} {o : TcpOption}
  {c : Conn}

namespace CarriesOptions

theorem head (h : CarriesOptions opt len i (o :: opts)) :
    Holds opt i o.encode ∧ i + o.encode.length ≤ len := by
  have hholds := h.holds
  have hends := h.ends
  simp only [encodeOptions, List.flatMap_cons, List.length_append] at hholds hends
  exact ⟨(holds_append.mp hholds).1, by omega⟩

theorem tail (h : CarriesOptions opt len i (o :: opts)) : CarriesOptions opt len (i + o.encode.length) opts := by
  have hholds := h.holds
  have hends := h.ends
  simp only [encodeOptions, List.flatMap_cons, List.length_append, ← Nat.add_assoc]
    at hholds hends
  exact ⟨(holds_append.mp hholds).2, hends⟩

/-- Behind the last option the parsers stop. -/
theorem stop (h : CarriesOptions opt len i []) : ¬ i < len ∨ opt i = optEnd := by
  have hends := h.ends
  simp only [encodeOptions, List.flatMap_nil, List.length_nil, Nat.add_zero] at hends
  rcases hends with hlen | ⟨-, hend⟩
  · exact .inl (by omega)
  · exact .inr hend

end CarriesOptions

/-! ## One option, one round -/

theorem optionRound_stop (h : ¬ i < len ∨ opt i = optEnd) :
    optionRound curTs opt len i c = .inl c := by
  unfold optionRound
  rcases h with hlen | hend
  · rw [if_neg hlen]
  · rw [if_pos hend, ite_self]

theorem timestampRound_stop {u : Unit} (h : ¬ i < len ∨ opt i = optEnd) :
    timestampRound opt len i u = .inl none := by
  unfold timestampRound
  rcases h with hlen | hend
  · rw [if_neg hlen]
  · rw [if_pos hend, ite_self]

/-- The kind byte stands first; all but padding have their length behind it. -/
theorem holds_kind (hholds : Holds opt i o.encode) : opt i = o.kind := by
  cases o <;> exact hholds.1

theorem holds_length (hholds : Holds opt i o.encode) (hkind : o.kind ≠ optNop) :
    (opt (i + 1)).toNat = o.encode.length := by
  cases o with
  | nop => exact absurd rfl hkind
  | unknown kind data hknown hlen =>
      rw [hholds.2.1, BitVec.toNat_ofNat, Nat.mod_eq_of_lt hlen]
      rfl
  | _ =>
      rw [hholds.2.1]
      rfl

/-- A round that comes to an option that fits handles it, unless it is padding. -/
theorem optionWalk_encode {σ ρ : Type*} {stop : ρ} {s : σ} {body : ρ ⊕ (ℕ × σ)}
    (hholds : Holds opt i o.encode) (hlen : i + o.encode.length ≤ len) :
    optionWalk opt len stop s body i = if o.kind = optNop then .inr (i + 1, s) else body := by
  have hpos := o.encode_length_pos
  rw [optionWalk, if_pos (by omega), holds_kind hholds, if_neg o.kind_ne_optEnd]
  by_cases hnop : o.kind = optNop
  · rw [if_pos hnop, if_pos hnop]
  · rw [if_neg hnop, if_neg hnop, if_neg]
    have := holds_length hholds hnop
    omega

theorem optionRound_encode (hholds : Holds opt i o.encode) (hlen : i + o.encode.length ≤ len) :
    optionRound curTs opt len i c = .inr (i + o.encode.length, o.apply curTs c) := by
  rw [optionRound_eq_walk, optionWalk_encode hholds hlen, holds_kind hholds]
  cases o with
  | nop => rfl
  | mss value =>
      have hvalue : read16 opt (i + 2) = value := read16_of_holds hholds.2.2
      rw [← hvalue]
      rfl
  | wscale shift =>
      have hshift : opt (i + 2) = shift := hholds.2.2.1
      rw [← hshift]
      rfl
  | sackPermit => rfl
  | timestamp ts =>
      have hval : read32 opt (i + 2) = ts.tsVal := read32_of_holds (holds_append.mp hholds.2.2).1
      rw [apply, ← hval]
      rfl
  | unknown kind data hkind hdata =>
      simp only [knownKinds, List.mem_cons, List.not_mem_nil, or_false, not_or] at hkind
      obtain ⟨-, hnop, hmss, hwscale, hsack, hts⟩ := hkind
      rw [holds_length hholds hnop]
      simp only [TcpOption.kind, applyOption, hnop, hmss, hwscale, hsack, hts, if_false, apply,
        Prod.swap_prod_mk]
      congr 2
      omega

theorem timestampRound_encode {u : Unit} (hholds : Holds opt i o.encode)
    (hlen : i + o.encode.length ≤ len) :
    timestampRound opt len i u = match o.timestamp? with
      | some ts => .inl (some ts)
      | none => .inr (i + o.encode.length, ()) := by
  rw [timestampRound_eq_walk, optionWalk_encode hholds hlen, holds_kind hholds]
  cases o with
  | nop => rfl
  | timestamp ts =>
      obtain ⟨hval, href⟩ := holds_append.mp hholds.2.2
      have hval : read32 opt (i + 2) = ts.tsVal := read32_of_holds hval
      have href : read32 opt (i + 6) = ts.tsRef := read32_of_holds href
      have hts : ts = ⟨read32 opt (i + 2), read32 opt (i + 6)⟩ := by rw [hval, href]
      simp only [timestamp?, hts]
      rfl
  | unknown kind data hkind hdata =>
      simp only [knownKinds, List.mem_cons, List.not_mem_nil, or_false, not_or] at hkind
      obtain ⟨-, hnop, -, -, -, hts⟩ := hkind
      rw [holds_length hholds hnop]
      simp only [TcpOption.kind, hnop, hts, if_false, timestamp?]
      congr 2
      omega
  | _ =>
      rw [holds_length hholds
        (by simp [TcpOption.kind, optNop, optMss, optWscale, optSackPermit])]
      rfl

/-! ## A whole option string -/

theorem length_encodeOptions_tail {o : TcpOption} {n : ℕ}
    (h : (encodeOptions (o :: opts)).length < n + 1) : (encodeOptions opts).length < n := by
  have hpos := o.encode_length_pos
  rw [encodeOptions, List.flatMap_cons, List.length_append] at h
  exact lt_of_lt_of_le (Nat.lt_add_of_pos_left hpos) (Nat.lt_succ_iff.mp h)

theorem parseOptionsFrom_encode {fuel : ℕ} (h : CarriesOptions opt len i opts)
    (hfuel : (encodeOptions opts).length < fuel) :
    parseOptionsFrom curTs opt len fuel i c = some (opts.foldl (apply curTs) c) := by
  rw [parseOptionsFrom_eq_scan]
  induction opts generalizing fuel i c with
  | nil =>
      obtain ⟨fuel, rfl⟩ := Nat.exists_eq_add_of_lt hfuel
      rw [scan, optionRound_stop h.stop]
      rfl
  | cons o opts ih =>
      obtain ⟨hholds, hlen⟩ := h.head
      obtain ⟨fuel, rfl⟩ := Nat.exists_eq_add_of_lt hfuel
      rw [scan, optionRound_encode hholds hlen]
      exact ih h.tail (length_encodeOptions_tail hfuel)

theorem parseTimestampFrom_encode {fuel : ℕ} (h : CarriesOptions opt len i opts)
    (hfuel : (encodeOptions opts).length < fuel) :
    parseTimestampFrom opt len fuel i = some (opts.findSome? timestamp?) := by
  rw [parseTimestampFrom_eq_scan]
  induction opts generalizing fuel i with
  | nil =>
      obtain ⟨fuel, rfl⟩ := Nat.exists_eq_add_of_lt hfuel
      rw [scan, timestampRound_stop h.stop]
      rfl
  | cons o opts ih =>
      obtain ⟨hholds, hlen⟩ := h.head
      obtain ⟨fuel, rfl⟩ := Nat.exists_eq_add_of_lt hfuel
      rw [scan, timestampRound_encode hholds hlen, List.findSome?_cons]
      cases hts : o.timestamp? with
      | some ts => rfl
      | none => exact ih h.tail (length_encodeOptions_tail hfuel)

/-- An index for every byte of the options leaves fuel to spare. -/
theorem CarriesOptions.length_lt (h : CarriesOptions opt len 0 opts) : (encodeOptions opts).length < len + 1 := by
  have := h.ends
  omega

theorem parseTCPOptions_carries (h : CarriesOptions opt len 0 opts) :
    parseTCPOptions curTs opt len c = some (opts.foldl (apply curTs) c) :=
  parseOptionsFrom_encode h h.length_lt

theorem parseTCPTimestamp_carries (h : CarriesOptions opt len 0 opts) :
    parseTCPTimestamp opt len = some (opts.findSome? timestamp?) :=
  parseTimestampFrom_encode h h.length_lt

/-! ## The last option of a kind -/

def lastMss (opts : List TcpOption) : Option U16 := (opts.filterMap mss?).getLast?

def lastWscale (opts : List TcpOption) : Option U8 := (opts.filterMap wscale?).getLast?

def lastTimestamp (opts : List TcpOption) : Option TcpTimestamp :=
  (opts.filterMap timestamp?).getLast?

/-- The stream after the options of a SYN: the last option of a kind counts. -/
def agreedOptions (curTs : U32) (opts : List TcpOption) (c : Conn) : Conn :=
  { c with
    mss := (lastMss opts).getD c.mss
    effMss := (lastMss opts).elim c.effMss (· - 12)
    wscalePeer := (lastWscale opts).getD c.wscalePeer
    sackPermit := c.sackPermit || decide (sackPermit ∈ opts)
    sawTimestamp := c.sawTimestamp || (lastTimestamp opts).isSome
    tsRecent := (lastTimestamp opts).elim c.tsRecent (·.tsVal)
    tsLastTsUpd := (lastTimestamp opts).elim c.tsLastTsUpd fun _ => curTs }

theorem foldl_apply : opts.foldl (apply curTs) c = agreedOptions curTs opts c := by
  induction opts using List.reverseRecOn with
  | nil => simp [agreedOptions, lastMss, lastWscale, lastTimestamp]
  | append_singleton opts o ih =>
      rw [List.foldl_append, ih]
      cases o <;> simp [agreedOptions, lastMss, lastWscale, lastTimestamp, apply, mss?, wscale?,
        timestamp?, List.filterMap_cons]

/-- On well-formed options, cut by an end mark or not, `ParseTCPOptions` leaves what the last
option of each kind says and nothing else, and `ParseTCPTimestamp` returns the first timestamp. -/
theorem parse_well_formed (curTs : U32) (opt : ℕ → U8) (len : ℕ) (opts : List TcpOption)
    (c : Conn) (h : CarriesOptions opt len 0 opts) :
    parseTCPOptions curTs opt len c = some (agreedOptions curTs opts c) ∧
      parseTCPTimestamp opt len = some (opts.findSome? timestamp?) := by
  exact ⟨by rw [parseTCPOptions_carries h, foldl_apply], parseTCPTimestamp_carries h⟩

/-- Padding, an unknown option, two segment sizes and a timestamp, cut by an end mark. -/
def sampleOptions : List TcpOption :=
  [nop, unknown 5 [7, 7] (by decide) (by decide), mss 1460, mss 536, timestamp ⟨9, 4⟩]

theorem parse_well_formed_sample :
    (parseTCPOptions 3 (ofList (encodeOptions sampleOptions)) 25 blankConn).map (·.mss) =
        some 536 ∧
      parseTCPTimestamp (ofList (encodeOptions sampleOptions)) 25 = some (some ⟨9, 4⟩) := by
  have hcarries : CarriesOptions (ofList (encodeOptions sampleOptions)) 25 0 sampleOptions :=
    ⟨holds_ofList [] _, by decide⟩
  obtain ⟨hparse, hts⟩ := parse_well_formed 3 _ 25 sampleOptions blankConn hcarries
  exact ⟨by rw [hparse]; rfl, hts⟩

/-! ## The options the stack sends -/

/-- What `GenerateTCPOptions` writes, as options. -/
def generatedOptions (c : Conn) (curTs : U32) (flags : TcpFlags) : List TcpOption :=
  if flags.syn then
    [mss c.mss, nop, nop, timestamp ⟨curTs, c.tsRecent⟩, nop, wscale c.wscaleMine]
  else [nop, nop, timestamp ⟨curTs, c.tsRecent⟩]

/-- Storing the high and the low byte of a word writes the word. -/
theorem shift_mod_eq_bytes16 (x : U16) :
    [(x >>> 8).setWidth 8, (x % 256).setWidth 8] = bytes16 x := by
  have hlow : (x % 256).setWidth 8 = x.extractLsb' 0 8 := by
    apply BitVec.eq_of_toNat_eq
    simp
  have hhigh : (x >>> 8).setWidth 8 = x.extractLsb' 8 8 := by
    apply BitVec.eq_of_toNat_eq
    simp
  rw [hlow, hhigh, bytes16]

theorem generateTCPOptions_eq (c : Conn) (curTs : U32) (flags : TcpFlags) :
    generateTCPOptions c curTs flags = encodeOptions (generatedOptions c curTs flags) := by
  unfold generateTCPOptions generatedOptions
  split
  · rw [← List.singleton_append, ← List.singleton_append, ← List.singleton_append,
      shift_mod_eq_bytes16]
    rfl
  · rfl

theorem generateTCPOptions_length (c : Conn) (curTs : U32) (flags : TcpFlags) :
    (generateTCPOptions c curTs flags).length = calculateOptionLength flags := by
  unfold generateTCPOptions calculateOptionLength
  split <;> rfl

theorem generatedOptions_carries {c : Conn} {curTs : U32} {flags : TcpFlags} {opt : ℕ → U8}
    (h : Holds opt 0 (generateTCPOptions c curTs flags)) :
    CarriesOptions opt (calculateOptionLength flags) 0 (generatedOptions c curTs flags) := by
  rw [← generateTCPOptions_length c curTs flags, generateTCPOptions_eq]
  rw [generateTCPOptions_eq] at h
  exact ⟨h, .inl (Nat.zero_add _)⟩

/-- The options of a segment have the calculated length, a multiple of four; whatever follows
them, the other side reads the values of the sender. -/
theorem generated_options_parse (c : Conn) (curTs : U32) (flags : TcpFlags) :
    (generateTCPOptions c curTs flags).length = calculateOptionLength flags ∧
    4 ∣ calculateOptionLength flags ∧
    ∀ opt, Holds opt 0 (generateTCPOptions c curTs flags) →
      parseTCPTimestamp opt (calculateOptionLength flags) = some (some ⟨curTs, c.tsRecent⟩) ∧
      (flags.syn = true → ∀ now d,
        parseTCPOptions now opt (calculateOptionLength flags) d =
          some { d with
            mss := c.mss
            effMss := c.mss - 12
            wscalePeer := c.wscaleMine
            sawTimestamp := true
            tsRecent := curTs
            tsLastTsUpd := now }) := by
  refine ⟨generateTCPOptions_length c curTs flags, ?_, fun opt hopt => ?_⟩
  · unfold calculateOptionLength
    split <;> decide
  have hcarries := generatedOptions_carries hopt
  refine ⟨?_, fun hsyn now d => ?_⟩
  · rw [parseTCPTimestamp_carries hcarries, generatedOptions]
    split <;> rfl
  · rw [parseTCPOptions_carries hcarries, generatedOptions, if_pos hsyn]
    rfl

theorem generated_options_parse_syn :
    parseTCPTimestamp (ofList (generateTCPOptions blankConn 5 synFlag)) 20 =
      some (some ⟨5, 0⟩) :=
  ((generated_options_parse blankConn 5 synFlag).2.2 _ (holds_ofList [] _)).1

end MtcpStack
