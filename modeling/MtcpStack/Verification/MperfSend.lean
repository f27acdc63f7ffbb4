import MtcpStack.Model.MperfSend

/-! # Messages that are reported as sent

`nwrite` returns what it has written so far when a write would block, and its callers take every
return value that is not negative for success. A message is complete when no write was answered
that way. `mperf_accept` stores what it has accepted before it sends, and a send that fails leaves
it there. -/

namespace MtcpStack.Mperf

/-! ## Complete messages -/

/-- How many bytes a write takes. -/
def WriteAnswer.count : WriteAnswer → ℕ
  | .taken n => n
  | .failed _ => 0

/-- A write was interrupted or would have blocked. -/
def WriteAnswer.blocks (a : WriteAnswer) : Prop := a = .failed .intr ∨ a = .failed .again

/-- Taking `n` bytes from the first piece that is not empty. -/
def takeFirst (n : ℕ) : List ℕ → List ℕ
  | [] => []
  | 0 :: pieces => takeFirst n pieces
  | size :: pieces => (size - n) :: pieces

/-- What `i` answers from `k` on leave of pieces of these sizes. -/
def unsent (answer : ℕ → WriteAnswer) (k : ℕ) : ℕ → List ℕ → List ℕ
  | 0, pieces => pieces
  | i + 1, pieces => unsent answer (k + 1) i (takeFirst (answer k).count pieces)

/-- From answer `k` on, no write blocks before all the pieces are sent. -/
def Unblocked (answer : ℕ → WriteAnswer) (k : ℕ) (pieces : List ℕ) : Prop :=
  ∀ i, (unsent answer k i pieces).sum ≠ 0 → ¬ (answer (k + i)).blocks

variable {answer : ℕ → WriteAnswer} {k : ℕ} {pieces : List ℕ}

theorem unblocked_zero : Unblocked answer k (0 :: pieces) ↔ Unblocked answer k pieces := by
  refine forall_congr' fun i => ?_
  cases i <;> simp [unsent, takeFirst]

theorem unblocked_succ (n : ℕ) : Unblocked answer k ((n + 1) :: pieces) ↔
    ¬ (answer k).blocks ∧ Unblocked answer (k + 1) ((n + 1 - (answer k).count) :: pieces) := by
  constructor
  · intro h
    refine ⟨h 0 (by simp [unsent]), fun i hi => ?_⟩
    have hnext := h (i + 1) hi
    rwa [← Nat.add_assoc, Nat.add_right_comm] at hnext
  · rintro ⟨hfirst, hrest⟩ (_ | i) hi
    · exact hfirst
    · have hnext := hrest i hi
      rwa [Nat.add_right_comm, Nat.add_assoc] at hnext

theorem unsent_nil (k i : ℕ) : unsent answer k i [] = [] := by
  induction i generalizing k with
  | zero => rfl
  | succ i ih => exact ih (k + 1)

theorem unblocked_nil : Unblocked answer k [] := fun i h => absurd (by simp [unsent_nil]) h

/-- A write that starts with answer `k` sends these pieces: if it reports success, it has been given
all of them exactly when none of its answers blocks. -/
structure Sends (answer : ℕ → WriteAnswer) (k : ℕ) (w : Written) (parts : List (List U8)) :
    Prop where
  length_le : w.taken.length ≤ parts.flatten.length
  complete : 0 ≤ w.ret → ∀ pieces, Unblocked answer k (parts.map List.length ++ pieces) ↔
    w.taken = parts.flatten ∧ Unblocked answer w.used pieces

theorem not_nonneg_softerror : ¬ 0 ≤ netSofterror := by decide

theorem not_nonneg_harderror : ¬ 0 ≤ netHarderror := by decide

theorem nwriteLoop_sends (count : ℕ) {fuel : ℕ} {left : List U8} (hfuel : left.length ≤ fuel) :
    Sends answer k (nwriteLoop answer count fuel k left) [left] := by
  induction fuel generalizing k left with
  | zero =>
    obtain rfl := List.length_eq_zero_iff.mp (Nat.le_zero.mp hfuel)
    exact ⟨le_rfl, fun _ pieces => by simp [nwriteLoop, unblocked_zero]⟩
  | succ fuel ih =>
    rw [nwriteLoop]
    by_cases hleft : left = []
    · rw [if_pos hleft, hleft]
      exact ⟨le_rfl, fun _ pieces => by simp [unblocked_zero]⟩
    rw [if_neg hleft]
    obtain ⟨m, hm⟩ := Nat.exists_eq_succ_of_ne_zero (mt List.length_eq_zero_iff.mp hleft)
    -- A write that blocks ends the loop before all is taken.
    have hblocks : ∀ ret, (answer k).blocks → Sends answer k ⟨ret, [], k + 1⟩ [left] := by
      refine fun ret hanswer => ⟨Nat.zero_le _, fun _ pieces => ?_⟩
      rw [List.map_singleton, List.singleton_append, hm, unblocked_succ]
      simp [hanswer, Ne.symm hleft]
    have hfails : ∀ ret, ¬ 0 ≤ ret → Sends answer k ⟨ret, [], k + 1⟩ [left] :=
      fun ret hret => ⟨Nat.zero_le _, fun h => absurd h hret⟩
    split
    case h_1 hanswer => exact hblocks _ (.inl hanswer)
    case h_2 hanswer => exact hblocks _ (.inr hanswer)
    case h_3 => exact hfails _ not_nonneg_softerror
    case h_4 => exact hfails _ not_nonneg_harderror
    case h_5 n hanswer =>
      simp only
      split
      case isTrue => exact hfails _ not_nonneg_softerror
      case isFalse htaken =>
        have hrest : (left.drop (min n left.length)).length = m + 1 - n := by
          rw [List.length_drop]
          omega
        have hnext := ih (k := k + 1) (hrest.trans_le (by omega))
        have hlen := hnext.length_le
        simp only [List.flatten_singleton, hrest] at hlen
        refine ⟨?_, fun hret pieces => ?_⟩
        · simp only [List.length_append, List.length_take, List.flatten_singleton]
          omega
        · have hcomplete := hnext.complete hret pieces
          have hwhole : ∀ bs, left.take (min n left.length) ++ bs = left ↔
              bs = left.drop (min n left.length) := fun bs => by
            nth_rewrite 3 [← List.take_append_drop (min n left.length) left]
            exact List.append_right_inj _
          have hgoes : ¬ (WriteAnswer.taken n).blocks := by simp [WriteAnswer.blocks]
          rw [List.map_singleton, List.singleton_append, List.flatten_singleton, hrest] at hcomplete
          rw [List.map_singleton, List.singleton_append, List.flatten_singleton, hwhole,
            ← hcomplete, hm, Nat.succ_eq_add_one, unblocked_succ, hanswer, WriteAnswer.count]
          exact and_iff_right hgoes

theorem nwrite_sends (k : ℕ) (bytes : List U8) : Sends answer k (nwrite answer k bytes) [bytes] :=
  nwriteLoop_sends bytes.length le_rfl

theorem Sends.andThen {w : Written} {next : ℕ → Written} {parts rest : List (List U8)}
    (h : Sends answer k w parts) (hnext : ∀ k, Sends answer k (next k) rest) :
    Sends answer k (w.andThen next) (parts ++ rest) := by
  unfold Written.andThen
  split
  case isTrue =>
    refine ⟨?_, fun hret => absurd hret not_nonneg_harderror⟩
    rw [List.flatten_append, List.length_append]
    exact Nat.le_add_right_of_le h.length_le
  case isFalse hret =>
    have hrest := hnext w.used
    have hlen := h.length_le
    have hlen' := hrest.length_le
    refine ⟨?_, fun hok pieces => ?_⟩
    · simp only [List.flatten_append, List.length_append]
      omega
    · rw [List.map_append, List.append_assoc, h.complete (Int.not_lt.mp hret), hrest.complete hok,
        ← and_assoc, List.flatten_append]
      refine and_congr_left' ⟨?_, fun heq => ?_⟩
      · rintro ⟨hfirst, hsecond⟩
        exact congrArg₂ (· ++ ·) hfirst hsecond
      · -- Neither write takes more than it is offered.
        have htotal := congrArg List.length heq
        simp only [List.length_append] at htotal
        exact List.append_inj heq (by omega)

theorem Sends.status {w : Written} {parts : List (List U8)} (h : Sends answer k w parts) :
    Sends answer k w.status parts := by
  refine ⟨h.length_le, fun hret => h.complete ?_⟩
  unfold Written.status at hret
  by_contra hneg
  rw [if_pos (Int.not_le.mp hneg)] at hret
  exact not_nonneg_harderror hret

/-- `JSON_write` sends the length as a `uint32_t`, and so many bytes of the text. -/
theorem jsonWriteBy_sends (k : ℕ) (text : List U8) :
    Sends answer k (jsonWriteBy answer k (some text))
      [[paramExchangeByte], htonl (text.length % 2 ^ 32), text.take (text.length % 2 ^ 32)] :=
  (nwrite_sends k _).andThen fun k =>
    (nwrite_sends k _).andThen fun k => (nwrite_sends k _).status

theorem jsonWriteBy_complete_iff {text : List U8}
    (hret : (jsonWriteBy answer 0 (some text)).ret = 0) :
    (jsonWriteBy answer 0 (some text)).taken = jsonWrite text ↔
      text.length < 2 ^ 32 ∧ Unblocked answer 0 [1, 4, text.length] := by
  have hsends : Sends answer 0 _ _ := jsonWriteBy_sends 0 text
  have hfour : ∀ n, (htonl n).length = 4 := fun _ => rfl
  by_cases hlen : text.length < 2 ^ 32
  · have hcomplete := hsends.complete hret.ge []
    rw [Nat.mod_eq_of_lt hlen, List.take_length] at hcomplete
    rw [and_iff_right hlen]
    simpa [hfour, unblocked_nil, jsonWrite] using hcomplete.symm
  · -- A longer text is cut.
    refine iff_of_false (fun heq => ?_) fun h => hlen h.1
    have hle := hsends.length_le
    rw [heq] at hle
    simp [jsonWrite, hfour] at hle
    omega

/-- If `mperf_send_conf` or `mperf_set_test_state` reports success, `mtcp_write` has taken the whole
message exactly when none of its answers, up to the end of the message, says that the write was
interrupted or would have blocked, and the length of the text is a `uint32_t`. -/
theorem reported_send_complete (answer : ℕ → WriteAnswer) :
    (∀ (env : SendEnv) (cjson : Cjson) (conf : ConnConfig),
      (mperfSendConfBy answer env cjson conf).ret = 0 →
      ((mperfSendConfBy answer env cjson conf).taken = mperfSendConf cjson conf ↔
        (cjson.print (confItems conf)).length < 2 ^ 32 ∧
          Unblocked answer 0 [1, 4, (cjson.print (confItems conf)).length])) ∧
    ∀ s : TestState, (mperfSetTestState answer s).ret = 0 →
      ((mperfSetTestState answer s).taken = [s.code] ↔ Unblocked answer 0 [1]) := by
  refine ⟨fun env cjson conf hret => ?_, fun s hret => ?_⟩
  · have hfail : ¬ (-1 : ℤ) = 0 := by decide
    unfold mperfSendConfBy at hret ⊢
    split_ifs at hret ⊢
    · exact jsonWriteBy_complete_iff hret
    · exact absurd hret hfail
    · exact absurd hret hfail
    · exact absurd hret hfail
  · have hcomplete := (nwrite_sends 0 [s.code]).status.complete hret.ge []
    rw [and_iff_left unblocked_nil] at hcomplete
    exact hcomplete.symm

/-- A library that prints every document as an empty object. -/
def emptyCjson : Cjson where
  print _ := [0x7b, 0x7d]
  parse _ := none

/-- The type of the message is written, the length would block, and the text is written. -/
def blockedLength : ℕ → WriteAnswer
  | 0 => .taken 1
  | 1 => .failed .again
  | _ => .taken 2

/-- The length of the text is lost, and success is reported. -/
theorem reported_send_incomplete :
    (mperfSendConfBy blockedLength ⟨true, true, true⟩ emptyCjson initConfig).ret = 0 ∧
      (mperfSendConfBy blockedLength ⟨true, true, true⟩ emptyCjson initConfig).taken =
        [5, 0x7b, 0x7d] ∧
      mperfSendConf emptyCjson initConfig = [5, 0, 0, 0, 2, 0x7b, 0x7d] := by
  decide +kernel

/-- Every write takes one byte. -/
theorem reported_send_bytewise :
    (mperfSendConfBy (fun _ => .taken 1) ⟨true, true, true⟩ emptyCjson initConfig).ret = 0 ∧
      (mperfSendConfBy (fun _ => .taken 1) ⟨true, true, true⟩ emptyCjson initConfig).taken =
        mperfSendConf emptyCjson initConfig ∧
      (mperfSetTestState (fun _ => .taken 1) .running).taken = [3] := by
  have hret : (mperfSendConfBy (fun _ => .taken 1) ⟨true, true, true⟩ emptyCjson initConfig).ret =
      0 := by decide +kernel
  have htaken : ¬ (WriteAnswer.taken 1).blocks := by simp [WriteAnswer.blocks]
  have h := reported_send_complete fun _ => .taken 1
  exact ⟨hret, (h.1 _ emptyCjson initConfig hret).mpr ⟨by decide, fun _ _ => htaken⟩,
    (h.2 .running (by decide)).mpr fun _ _ => htaken⟩

/-! ## Accepting -/

/-- A byte is written, or the write would block, or it fails. -/
theorem nwrite_byte (answer : ℕ → WriteAnswer) (k : ℕ) (b : U8) :
    nwrite answer k [b] = ⟨1, [b], k + 1⟩ ∨ nwrite answer k [b] = ⟨0, [], k + 1⟩ ∨
      ∃ ret < 0, nwrite answer k [b] = ⟨ret, [], k + 1⟩ := by
  rw [nwrite, List.length_singleton, nwriteLoop, if_neg (List.cons_ne_nil b [])]
  split
  case h_1 => exact .inr (.inl rfl)
  case h_2 => exact .inr (.inl rfl)
  case h_3 => exact .inr (.inr ⟨netSofterror, by decide, rfl⟩)
  case h_4 => exact .inr (.inr ⟨netHarderror, by decide, rfl⟩)
  case h_5 n _ =>
    simp only
    split
    case isTrue => exact .inr (.inr ⟨netSofterror, by decide, rfl⟩)
    case isFalse hn =>
      have hone : min n [b].length = 1 := by
        simp only [List.length_singleton] at hn ⊢
        omega
      rw [hone]
      exact .inl rfl

namespace ServerContext

variable {ctx : ServerContext}

/-- Storing and sending a state, as the result of the write tells it. -/
theorem storeTestState_eq (answer : ℕ → WriteAnswer) (ctx : ServerContext) (s : TestState) :
    (ctx.storeTestState answer s).1 =
        (ctx.setTestState (nwrite answer 0 [s.code]).result s).1 ∧
      (decide (0 ≤ (ctx.storeTestState answer s).2) =
        (ctx.setTestState (nwrite answer 0 [s.code]).result s).2) := by
  unfold storeTestState mperfSetTestState
  rcases nwrite_byte answer 0 s.code with h | h | ⟨ret, hret, h⟩
  · simp [h, Written.status, Written.result, setTestState]
  · simp [h, Written.status, Written.result, setTestState, setState, note]
  · simp [h, hret, Written.status, Written.result, setTestState, setState, note]

/-- The state that `mperf_accept` sends to the client it does not deny. -/
def acceptState (ctx : ServerContext) : TestState :=
  if ctx.ctlfd = none then .paramExchange else .running

/-- Up to the sockets it closes, the call is the one of the session. -/
theorem mperfAcceptCall_eq (ctx : ServerContext) (conn : Incoming) :
    ((ctx.mperfAcceptCall answer (some conn)).ctx, (ctx.mperfAcceptCall answer (some conn)).ret) =
      ctx.mperfAccept (nwrite answer 0 [ctx.acceptState.code]).result conn := by
  by_cases hctl : ctx.ctlfd = none
  · obtain ⟨hctx, hret⟩ := storeTestState_eq answer
      { ctx with ctlfd := some conn.sock } .paramExchange
    simp only [mperfAcceptCall, mperfAccept, acceptState, if_pos hctl, ← hctx, ← hret,
      decide_eq_true_eq]
    split_ifs <;> first | omega | rfl
  by_cases hstream : ctx.testState = .createStream ∧ ctx.datafd = none
  · by_cases hip : ctx.cliIp = conn.addr
    · obtain ⟨hctx, hret⟩ := storeTestState_eq answer ctx .running
      simp only [mperfAcceptCall, mperfAccept, acceptState, if_neg hctl, if_pos hstream, ne_eq, hip,
        not_true, if_false, ← hctx, ← hret, decide_eq_true_eq]
      split_ifs <;> first | omega | rfl
    · simp only [mperfAcceptCall, mperfAccept, if_neg hctl, if_pos hstream, ne_eq, hip,
        not_false_eq_true, if_true, accessDeny]
  · simp only [mperfAcceptCall, mperfAccept, if_neg hctl, if_neg hstream, accessDeny]

/-- What a call that fails should leave as it was: both descriptors and the state, and neither
descriptor is one that the call has closed. -/
def LeftAlone (ctx : ServerContext) (r : AcceptCall) : Prop :=
  r.ctx.ctlfd = ctx.ctlfd ∧ r.ctx.datafd = ctx.datafd ∧ r.ctx.testState = ctx.testState ∧
    ∀ fd ∈ r.closed, r.ctx.ctlfd ≠ some fd ∧ r.ctx.datafd ≠ some fd

theorem accessDeny_leftAlone {conn : Incoming} :
    ctx.LeftAlone (ctx.accessDeny conn) ↔
      ctx.ctlfd ≠ some conn.sock ∧ ctx.datafd ≠ some conn.sock := by
  simp [LeftAlone, accessDeny]

@[simp] theorem ctlfd_storeTestState (s : TestState) :
    (ctx.storeTestState answer s).1.ctlfd = ctx.ctlfd := rfl

@[simp] theorem testState_storeTestState (s : TestState) :
    (ctx.storeTestState answer s).1.testState = s := rfl

/-- A failed `mperf_accept` leaves the session as it was exactly when `mtcp_accept` has failed, or
the connection is denied and its socket is not one that the session still holds. -/
theorem failed_accept_leaves (ctx : ServerContext) (answer : ℕ → WriteAnswer)
    (conn : Option Incoming) (hret : (ctx.mperfAcceptCall answer conn).ret = -1) :
    ctx.LeftAlone (ctx.mperfAcceptCall answer conn) ↔
      conn = none ∨ ∃ c, conn = some c ∧ ctx.Denies c ∧
        ctx.ctlfd ≠ some c.sock ∧ ctx.datafd ≠ some c.sock := by
  cases conn with
  | none => exact ⟨fun _ => .inl rfl, fun _ => ⟨rfl, rfl, rfl, nofun⟩⟩
  | some c =>
    simp only [reduceCtorEq, false_or, Option.some.injEq, exists_eq_left']
    unfold mperfAcceptCall at hret ⊢
    by_cases hfree : ctx.ctlfd = none
    · -- the descriptor stays behind
      simp only [if_pos hfree] at hret ⊢
      split_ifs at hret ⊢
      · refine iff_of_false (fun h => ?_) fun h => h.1.1 hfree
        have hleft := h.1
        simp [hfree] at hleft
    simp only [if_neg hfree] at hret ⊢
    by_cases hstream : ctx.testState = .createStream ∧ ctx.datafd = none
    · simp only [if_pos hstream] at hret ⊢
      split_ifs at hret ⊢ with hip hsent
      · rw [accessDeny_leftAlone]
        exact (and_iff_right ⟨hfree, fun h => hip h.2.2⟩).symm
      · -- the state stays behind
        refine iff_of_false (fun h => ?_)
          fun h => h.1.2 ⟨hstream.1, hstream.2, not_not.mp hip⟩
        have hleft := h.2.2.1
        simp [hstream.1] at hleft
    · simp only [if_neg hstream] at hret ⊢
      rw [accessDeny_leftAlone]
      exact (and_iff_right ⟨hfree, fun h => hstream ⟨h.1, h.2.1⟩⟩).symm

/-- The write of the state to a new client fails: the descriptor of its closed socket and the state
stay. -/
theorem failed_accept_leftover :
    let ctx : ServerContext := {}
    let r := ctx.mperfAcceptCall (fun _ => .failed .other) (some ⟨7, 0x0100000a, 4000⟩)
    ctx.ctlfd = none ∧ ctx.testState = .start ∧
      r.ret = -1 ∧ r.ctx.ctlfd = some 7 ∧ r.ctx.testState = .paramExchange ∧ r.closed = [7] := by
  decide +kernel

/-- A second client is denied while the first one has not sent its configuration. -/
theorem failed_accept_leaves_denied :
    let ctx : ServerContext := { ctlfd := some 3, testState := .paramExchange }
    ctx.LeftAlone (ctx.mperfAcceptCall (fun _ => .taken 1) (some ⟨7, 0x0100000a, 4000⟩)) := by
  intro ctx
  exact (failed_accept_leaves ctx (fun _ => .taken 1) (some ⟨7, 0x0100000a, 4000⟩) rfl).mpr
    (.inr ⟨_, rfl, by decide, by decide, by decide⟩)

end ServerContext

end MtcpStack.Mperf
