import MtcpStack.Model.MperfConfig

/-! # The configuration a server takes over

What the reading loops take from the unread bytes, whatever the sizes of the single reads, and
which configurations come through the JSON document unchanged. -/

namespace MtcpStack.Mperf

/-! ## Reading -/

theorem nreadLoop_eq (want : ℕ → ℕ) (fuel k nleft : ℕ) (unread : List U8) (h : nleft ≤ fuel) :
    nreadLoop want fuel k nleft unread = (unread.take nleft, unread.drop nleft) := by
  induction fuel generalizing k nleft unread with
  | zero =>
    obtain rfl : nleft = 0 := by omega
    simp [nreadLoop]
  | succ fuel ih =>
    unfold nreadLoop
    by_cases hdone : nleft = 0 ∨ unread = []
    · rw [if_pos hdone]
      rcases hdone with rfl | rfl <;> simp
    · rw [if_neg hdone]
      push Not at hdone
      have hlength : 0 < unread.length := List.length_pos_iff.mpr hdone.2
      -- `r` bytes of this read and `nleft - r` of the rest are `nleft` bytes.
      generalize hr : max 1 (min (want k) (min nleft unread.length)) = r
      have hle : r ≤ nleft := by omega
      simp only [ih (k + 1) (nleft - r) (unread.drop r) (by omega), List.drop_drop, Prod.mk.injEq]
      constructor
      · rw [← List.take_add, Nat.add_sub_cancel' hle]
      · rw [Nat.add_sub_cancel' hle]

/-- `nread` takes as many bytes as there are, up to `count`, whatever the sizes of its reads. -/
theorem nread_eq (want : ℕ → ℕ) (count : ℕ) (unread : List U8) :
    nread want count unread = (unread.take count, unread.drop count) :=
  nreadLoop_eq want count 0 count unread le_rfl

@[simp] theorem length_htonl (n : ℕ) : (htonl n).length = 4 := rfl

theorem ntohl_htonl {n : ℕ} (h : n < 2 ^ 32) : ntohl (htonl n) = n := by
  simp only [htonl, ntohl, List.foldl_cons, List.foldl_nil, BitVec.toNat_ofNat]
  omega

/-- A message whose length and text are unread is read whole, and nothing behind it. -/
theorem jsonRead_append (env : ReadEnv) (text rest : List U8) (h : text.length < 2 ^ 32) :
    jsonRead env (htonl text.length ++ text ++ rest) = (env.cjson.parse text, rest) := by
  have htake : (htonl text.length ++ (text ++ rest)).take 4 = htonl text.length :=
    List.take_left' (length_htonl _)
  have hdrop : (htonl text.length ++ (text ++ rest)).drop 4 = text ++ rest :=
    List.drop_left' (length_htonl _)
  have hrest : (env.nsize.take 4).drop 4 = [] := by simp
  simp only [jsonRead, nread_eq, List.append_assoc, htake, hdrop, length_htonl, hrest,
    List.append_nil, ntohl_htonl h, List.take_left', List.drop_left', if_true]

/-! ## Looking up members -/

theorem getObjectItem_append (a b : Json) (key : ConfKey) :
    getObjectItem (a ++ b) key = (getObjectItem a key).or (getObjectItem b key) := by
  unfold getObjectItem
  rw [List.find?_append]
  cases a.find? (fun item => item.1 = key) <;> rfl

@[simp] theorem getObjectItem_nil (key : ConfKey) : getObjectItem [] key = none := rfl

theorem getObjectItem_cons (name key : ConfKey) (v : JsonValue) (rest : Json) :
    getObjectItem ((name, v) :: rest) key
      = if name = key then some v else getObjectItem rest key := by
  by_cases h : name = key <;> simp [getObjectItem, h]

theorem getObjectItem_optionalItem (name key : ConfKey) (n : ℕ) :
    getObjectItem (optionalItem name n) key
      = if name = key ∧ n ≠ 0 then some (createNumber n) else none := by
  by_cases hn : n = 0
  · simp [optionalItem, hn]
  · simp [optionalItem, hn, getObjectItem_cons]

/-- The field of a configuration that a member carries. -/
def ConnConfig.field (conf : ConnConfig) : ConfKey → ℕ
  | .duration => conf.duration.toNat
  | .blksize => conf.blksize.toNat
  | .rate => conf.rate.toNat
  | .burst => conf.burst.toNat
  | .bytes => conf.bytes.toNat
  | .blocks => conf.blocks.toNat
  | .clientVersion => 0

theorem getObjectItem_confItems (conf : ConnConfig) {key : ConfKey} (hduration : key ≠ .duration)
    (hversion : key ≠ .clientVersion) :
    getObjectItem (confItems conf) key
      = if conf.field key = 0 then none else some (createNumber (conf.field key)) := by
  by_cases hzero : conf.field key = 0 <;> cases key <;>
    simp_all [confItems, getObjectItem_append, getObjectItem_cons, getObjectItem_optionalItem,
      ConnConfig.field]

theorem getObjectItem_confItems_duration (conf : ConnConfig) :
    getObjectItem (confItems conf) .duration = some (createNumber conf.duration.toNat) := by
  simp [confItems, getObjectItem_cons]

theorem versionMatches_confItems (conf : ConnConfig) : versionMatches (confItems conf) = true := by
  have hitem : getObjectItem (confItems conf) .clientVersion = some (.string packageString) := by
    simp [confItems, getObjectItem_append, getObjectItem_cons, getObjectItem_optionalItem]
  simp [versionMatches, hitem, List.isPrefixOf_iff_prefix]

/-! ## Numbers -/

/-- A number comes back as it was when a double and a `long long` hold it. The one other number
is `LLONG_MAX`, which is rounded up and saturates back. -/
theorem valueint_createNumber_iff {n : ℕ} :
    (createNumber n).valueint = n ↔ Binary.Fits 53 n ∧ n < 2 ^ 63 ∨ n = 2 ^ 63 - 1 := by
  have hmax : Binary.roundEven 53 (2 ^ 63 - 1) = 2 ^ 63 := by decide +kernel
  simp only [createNumber, JsonValue.valueint]
  constructor
  · by_cases hsaturates : 2 ^ 63 ≤ Binary.roundEven 53 n
    · rw [if_pos hsaturates]
      exact fun h => .inr h.symm
    · rw [if_neg hsaturates]
      intro h
      exact .inl ⟨Binary.roundEven_eq_iff.mp h, by omega⟩
  · rintro (⟨hfits, hrange⟩ | rfl)
    · rw [Binary.roundEven_of_fits hfits]
      exact if_neg (by omega)
    · rw [hmax, if_pos le_rfl]

theorem valueint_createNumber_lt (n : ℕ) : (createNumber n).valueint < 2 ^ 63 := by
  simp only [createNumber, JsonValue.valueint]
  split <;> omega

theorem valueint_createNumber_word (x : U32) : (createNumber x.toNat).valueint = x.toNat := by
  have hlt := x.isLt
  exact valueint_createNumber_iff.mpr (.inl ⟨Binary.fits_of_lt (by omega), by omega⟩)

/-- A member that is left out when it is zero is stored as any other when the field it is stored
to is zero before. -/
theorem takeItem_confItems (key : ConfKey) (conf c : ConnConfig)
    {store : ℕ → ConnConfig → ConnConfig} (hduration : key ≠ .duration)
    (hversion : key ≠ .clientVersion) (hzero : conf.field key = 0 → store 0 c = c) :
    takeItem (confItems conf) key store c = store (createNumber (conf.field key)).valueint c := by
  rw [takeItem, getObjectItem_confItems conf hduration hversion]
  by_cases h : conf.field key = 0
  · have hvalue : (createNumber 0).valueint = 0 := rfl
    simp [h, hvalue, hzero h]
  · simp [h]

theorem takeItem_confItems_duration (conf c : ConnConfig) (store : ℕ → ConnConfig → ConnConfig) :
    takeItem (confItems conf) .duration store c = store conf.duration.toNat c := by
  rw [takeItem, getObjectItem_confItems_duration]
  simp only [valueint_createNumber_word]

/-- A configuration with a block size comes through to a freshly initialised one in every field
but the rate, which is what the double and `valueint` make of it. -/
theorem takeItems_confItems {conf : ConnConfig} (hblksize : conf.blksize ≠ 0) :
    takeItems (confItems conf) initConfig
      = { conf with rate := BitVec.ofNat 64 (createNumber conf.rate.toNat).valueint } := by
  have hword : ∀ x : U32, BitVec.ofNat 32 (createNumber x.toNat).valueint = x := fun x => by
    rw [valueint_createNumber_word, BitVec.ofNat_toNat, BitVec.setWidth_eq]
  have hblk : conf.field .blksize ≠ 0 := by
    intro h
    exact hblksize (BitVec.eq_of_toNat_eq h)
  dsimp only [takeItems]
  rw [takeItem_confItems_duration]
  rw [takeItem_confItems .blksize conf _ (by decide) (by decide) (fun h => absurd h hblk)]
  rw [takeItem_confItems .rate conf _ (by decide) (by decide) (fun _ => rfl)]
  rw [takeItem_confItems .burst conf _ (by decide) (by decide) (fun _ => rfl)]
  rw [takeItem_confItems .bytes conf _ (by decide) (by decide) (fun _ => rfl)]
  rw [takeItem_confItems .blocks conf _ (by decide) (by decide) (fun _ => rfl)]
  simp [ConnConfig.field, hword]

/-- The server takes over the configuration as it was sent exactly when the rate comes back. -/
theorem takeItems_confItems_iff {conf : ConnConfig} (hblksize : conf.blksize ≠ 0) :
    takeItems (confItems conf) initConfig = conf
      ↔ (createNumber conf.rate.toNat).valueint = conf.rate.toNat := by
  have hlt := valueint_createNumber_lt conf.rate.toNat
  rw [takeItems_confItems hblksize]
  constructor
  · intro h
    have hrate : BitVec.ofNat 64 (createNumber conf.rate.toNat).valueint = conf.rate :=
      congrArg ConnConfig.rate h
    rw [← BitVec.toNat_inj, BitVec.toNat_ofNat, Nat.mod_eq_of_lt (by omega)] at hrate
    exact hrate
  · intro h
    rw [h, BitVec.ofNat_toNat, BitVec.setWidth_eq]

/-! ## The exchange -/

/-- The command line never leaves a block size of zero. -/
theorem mperfParseArgs_blksize {args : List Arg} {conf : ConnConfig}
    (h : mperfParseArgs args = some conf) : conf.blksize ≠ 0 := by
  obtain ⟨st, -, hfinish⟩ := Option.bind_eq_some_iff.mp h
  have hne : (if st.blksize = 0 then defaultTcpBlksize else st.blksize) ≠ 0 := by
    by_cases hz : st.blksize = 0
    · rw [if_pos hz]
      decide
    · rwa [if_neg hz]
  dsimp only [finishArgs] at hfinish
  rw [Option.ite_none_left_eq_some] at hfinish
  obtain ⟨-, hconf⟩ := hfinish
  by_cases hflag : (st.connConf.bytes ≠ 0 ∨ st.connConf.blocks ≠ 0) ∧ ¬ st.durationFlag
  · rw [if_pos hflag] at hconf
    rwa [← Option.some.inj hconf]
  · rw [if_neg hflag] at hconf
    rwa [← Option.some.inj hconf]

/-- The server reads the document that the client has printed. -/
theorem mperfRecvConf_mperfSendConf (env : ReadEnv) (conf c : ConnConfig)
    (hdoc : env.cjson.Faithful (confItems conf)) :
    mperfRecvConf env (mperfSendConf env.cjson conf).tail c
      = (takeItems (confItems conf) c, true) := by
  have hread := jsonRead_append env (env.cjson.print (confItems conf)) [] hdoc.2
  rw [List.append_nil] at hread
  simp only [mperfRecvConf, mperfSendConf, jsonWrite, List.tail_cons, hread, hdoc.1, applyConf,
    versionMatches_confItems]

/-- A configuration of the command line reaches a freshly initialised server in every field
exactly when a double holds its rate and a `long long` has room for it, or when the rate is
`LLONG_MAX`. -/
theorem conf_exchange_faithful (args : List Arg) {conf : ConnConfig} (env : ReadEnv)
    (hargs : mperfParseArgs args = some conf) (hdoc : env.cjson.Faithful (confItems conf)) :
    mperfRecvConf env (mperfSendConf env.cjson conf).tail initConfig = (conf, true)
      ↔ Binary.Fits 53 conf.rate.toNat ∧ conf.rate.toNat < 2 ^ 63
        ∨ conf.rate.toNat = 2 ^ 63 - 1 := by
  rw [mperfRecvConf_mperfSendConf env conf initConfig hdoc, ← valueint_createNumber_iff,
    ← takeItems_confItems_iff (mperfParseArgs_blksize hargs), Prod.mk.injEq, and_iff_left rfl]

/-- A library that knows one document, whose text is a pair of braces. -/
def oneDocument (json : Json) : Cjson where
  print _ := [123, 125]
  parse _ := some json

/-- `-m conf -c ip -b 10g/4 -t 30`. -/
def gigabitArgs : List Arg :=
  [.mtcpConf, .client true, .bitrate ['1', '0', 'g', '/', '4'], .time ['3', '0']]

def gigabitConf : ConnConfig := { initConfig with rate := 10 <<< 30, burst := 4, duration := 30 }

theorem conf_exchange_faithful_gigabit :
    mperfRecvConf ⟨oneDocument (confItems gigabitConf), [], fun _ _ => 1⟩
      (mperfSendConf (oneDocument (confItems gigabitConf)) gigabitConf).tail initConfig
      = (gigabitConf, true) :=
  (conf_exchange_faithful gigabitArgs
    ⟨oneDocument (confItems gigabitConf), [], fun _ _ => 1⟩ (by decide +kernel)
    ⟨rfl, by decide⟩).mpr (.inl ⟨⟨10, 30, by decide, by decide⟩, by decide⟩)

/-- `-m conf -c ip -b 1000`: a rate without a unit is read as `UINT64_MAX`. -/
def unitlessArgs : List Arg :=
  [.mtcpConf, .client true, .bitrate ['1', '0', '0', '0']]

/-- The rate of `-b 1000` arrives as `LLONG_MAX`, whatever texts the library uses. -/
theorem conf_exchange_saturates :
    ∃ conf, mperfParseArgs unitlessArgs = some conf ∧
      ∀ env : ReadEnv, env.cjson.Faithful (confItems conf) →
        (mperfRecvConf env (mperfSendConf env.cjson conf).tail initConfig).1
            = { conf with rate := 2 ^ 63 - 1 } ∧
          (mperfRecvConf env (mperfSendConf env.cjson conf).tail initConfig).1 ≠ conf := by
  refine ⟨{ initConfig with rate := uint64Max }, by decide +kernel, fun env hdoc => ?_⟩
  rw [mperfRecvConf_mperfSendConf env _ initConfig hdoc]
  exact ⟨by decide +kernel, by decide +kernel⟩

end MtcpStack.Mperf
