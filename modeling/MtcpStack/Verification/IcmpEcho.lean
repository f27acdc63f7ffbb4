import MtcpStack.Verification.Frames

/-! # Echo requests

A request with a whole header is answered by its own identifier, sequence number and data. A
header is taken for granted, and the last byte of an odd number is summed together with a byte
that was never written. Whatever that byte holds but zero shows in the sum. -/

namespace MtcpStack

open Memory OnesComplement

variable {buf : ℕ → U8} {stale : U8} {n : ℕ}

/-! ## The ICMP checksum -/

/-- What the byte that is never written adds to the sum of `n` bytes. -/
def strayWord (stale : U8) (n : ℕ) : ℕ := n % 2 * (256 * stale.toNat)

theorem strayWord_lt (stale : U8) (n : ℕ) : strayWord stale n < 65535 := by
  have hlt := stale.isLt
  rcases Nat.mod_two_eq_zero_or_one n with h | h <;> rw [strayWord, h] <;> omega

theorem strayWord_eq_zero : strayWord stale n = 0 ↔ n % 2 = 0 ∨ stale = 0 := by
  rw [strayWord, Nat.mul_eq_zero, Nat.mul_eq_zero, BitVec.toNat_eq]
  simp

theorem append_toNat (high low : U8) : (high ++ low).toNat = low.toNat + 256 * high.toNat := by
  rw [BitVec.toNat_append, ← Nat.shiftLeft_add_eq_or_of_lt low.isLt, Nat.shiftLeft_eq]
  omega

theorem sumWords_stale {i : ℕ} {sum : U32} :
    sumWords buf (fun i => stale ++ buf i) n i sum
      = sumWords buf (fun i => (0 : U8) ++ buf i) n i sum +
        BitVec.ofNat 32 (strayWord stale n) := by
  fun_induction sumWords buf (fun i => stale ++ buf i) n i sum with
  | case1 i sum => simp [sumWords, strayWord]
  | case2 i sum =>
      have hstale : ((stale ++ buf i).setWidth 32 : U32)
          = ((0 : U8) ++ buf i).setWidth 32 + BitVec.ofNat 32 (256 * stale.toNat) := by
        rw [← BitVec.toNat_inj, BitVec.toNat_setWidth, append_toNat, BitVec.toNat_add,
          BitVec.toNat_setWidth, append_toNat, BitVec.toNat_ofNat]
        simp
      rw [sumWords, hstale, strayWord, Nat.one_mod, Nat.one_mul, BitVec.add_assoc]
  | case3 n i sum ih =>
      have hparity : strayWord stale (n + 2) = strayWord stale n := by
        rw [strayWord, strayWord, Nat.add_mod_right]
      rw [sumWords, ih, hparity]

theorem icmpChecksum_toNat (hn : n < 65536) :
    (icmpChecksum buf stale n).toNat
      = 65535 - residue 65536 (leSum (load buf 0 n) + strayWord stale n) := by
  have hle := leSum_le (load buf 0 n)
  rw [load_length] at hle
  have hstray := strayWord_lt stale n
  have hzero : BitVec.toNat (0 : U32) = 0 := rfl
  have hlast : ∀ i, ((0 : U8) ++ buf i).toNat = (buf i).toNat := by
    intro i
    rw [append_toNat]
    simp
  have hsum : (sumWords buf (fun i => stale ++ buf i) n 0 0).toNat
      = leSum (load buf 0 n) + strayWord stale n := by
    rw [sumWords_stale, BitVec.toNat_add, sumWords_toNat hlast (by omega), hzero, Nat.zero_add,
      BitVec.toNat_ofNat, Nat.mod_eq_of_lt (show strayWord stale n < 2 ^ 32 by omega)]
    exact Nat.mod_eq_of_lt (by omega)
  rw [icmpChecksum, foldSum_toNat, hsum]

theorem swap_complement_inj {x y : ℕ} (hx : x < 65536) (hy : y < 65536) :
    swap 256 (65535 - x) = swap 256 (65535 - y) ↔ x = y := by
  unfold swap
  omega

/-- The checksum is that of the internet protocols, and so depends on the message alone, exactly
when there is no last byte or the byte above it holds zero. -/
theorem ntohs_icmpChecksum_iff (hn : n < 65536) :
    (ntohs (icmpChecksum buf stale n)).toNat = rfc1071 (load buf 0 n)
      ↔ n % 2 = 0 ∨ stale = 0 := by
  rw [ntohs_toNat, icmpChecksum_toNat hn, ← swap_complement_residue,
    swap_complement_inj (residue_lt (by decide)) (residue_lt (by decide)), ← strayWord_eq_zero]
  constructor
  · intro heq
    by_contra hne
    exact residue_add_ne (Nat.pos_of_ne_zero hne) (strayWord_lt stale n) heq
  · intro hzero
    rw [hzero, Nat.add_zero]

theorem ntohs_toNat_eq_zero (x : U16) : (ntohs x).toNat = 0 ↔ x = 0 := by
  rw [ntohs_toNat, BitVec.toNat_eq]
  change _ ↔ x.toNat = 0
  rw [swap]
  omega

/-! ## Replies -/

/-- The bytes of a message that leaves. -/
theorem load_icmpBytes {type code : U8} {id seq check : U16} {data : List U8}
    (hn : n = data.length) :
    load (storeWord (ofList (icmpBytes type code id seq data)) 2 check) 0 (8 + n) =
      [type, code] ++ ([check.extractLsb' 0 8, check.extractLsb' 8 8] ++
        (bytes16 id ++ bytes16 seq ++ data)) := by
  have hlength : 8 + n - (2 + 2) = (bytes16 id ++ bytes16 seq ++ data).length := by
    simp [bytes16, hn]
    omega
  have hrest : load (ofList (icmpBytes type code id seq data)) 4
      (bytes16 id ++ bytes16 seq ++ data).length = bytes16 id ++ bytes16 seq ++ data :=
    load_of_holds (holds_append.mp (holds_ofList [] (icmpBytes type code id seq data))).2
  rw [load_storeWord (by omega), hlength, hrest]
  rfl

/-- A message that leaves verifies exactly when there is no last byte or the byte above it held
zero. -/
theorem rfc1071_sent_iff (type code : U8) (id seq : U16) {data : List U8} (stale : U8)
    (hn : 8 + n < 65536) (hlen : n = data.length) :
    let icmph := ofList (icmpBytes type code id seq data)
    rfc1071 (load (storeWord icmph 2 (icmpChecksum icmph stale (8 + n))) 0 (8 + n)) = 0
      ↔ (8 + n) % 2 = 0 ∨ stale = 0 := by
  intro icmph
  have hblank : load (storeWord icmph 2 0) 0 (8 + n) = load icmph 0 (8 + n) := by
    have hlength : 8 + n = (icmpBytes type code id seq data).length := by
      simp [icmpBytes, bytes16, hlen]
      omega
    rw [load_icmpBytes hlen, hlength, show load icmph 0 _ = _ from load_ofList _]
    rfl
  have hones : ∀ x, swap 256 (65535 - residue 65536 x) = 0 ↔ residue 65536 x = 65535 := by
    intro x
    have hlt := residue_lt (b := 65536) (x := x) (by decide)
    unfold swap
    omega
  rw [← swap_complement_residue, leSum_storeWord (by omega) rfl, hblank, icmpChecksum_toNat hn,
    hones, ← strayWord_eq_zero]
  exact residue_add_complement_iff (by decide) (strayWord_lt stale (8 + n))

/-- What an echo request carries behind its checksum, in the reply. -/
theorem echo_rest (icmph : ℕ → U8) (n : ℕ) :
    bytes16 (read16 icmph 4) ++ bytes16 (read16 icmph 6) ++ load (fun k => icmph (8 + k)) 0 n =
      load icmph 4 (4 + n) := by
  rw [bytes16_read16, bytes16_read16, load_shift, ← load_add, ← load_add]

/-! ## Requests -/

/-- What becomes of an ICMP packet, for a packet that is one. -/
def IpResult.icmp? : IpResult → Option IcmpResult
  | .icmp r => some r
  | _ => none

def IcmpResult.answered : IcmpResult → Bool
  | .sent _ => true
  | _ => false

/-- The message of an ICMP packet. -/
def icmpMessage (pkt : ℕ → U8) : List U8 := load pkt (ipNext pkt) (totLen pkt - ihl pkt * 4)

variable {hw : Offload} {env : IcmpEnv} {eths : List U32} {pkt : ℕ → U8} {r : IcmpResult}

theorem icmp_cases (h : (processIPv4Packet hw env eths pkt).icmp? = some r) :
    r = processICMPPacket env eths pkt (totLen pkt) := by
  unfold processIPv4Packet at h
  split_ifs at h with hshort hsum hver htcp hicmp
  · cases h
  · cases h
  · cases h
  · cases h
  · exact (Option.some.inj h).symm
  · cases h

/-- The reply to a request of `n` bytes. -/
def echoReply (env : IcmpEnv) (pkt : ℕ → U8) (n : ℕ) : IcmpResult :=
  let icmph := fun k => pkt (ipNext pkt + k)
  icmpOutput env (ipDaddr pkt) (ipSaddr pkt) icmpEchoReply 0 (read16 icmph 4) (read16 icmph 6)
    (fun k => icmph (8 + k)) (BitVec.ofInt 16 ((n : ℤ) - 8))

/-- A message whose length is not below zero is summed, and answered when the sum is right. -/
theorem processICMPECHORequest_eq {len : ℕ} (hlen : ihl pkt * 4 ≤ len) :
    processICMPECHORequest env pkt len =
      if icmpChecksum (fun k => pkt (ipNext pkt + k)) env.staleIn (len - ihl pkt * 4) ≠ 0
      then .error else echoReply env pkt (len - ihl pkt * 4) := by
  have hn : ¬ (len : ℤ) - (ihl pkt * 4 : ℕ) < 0 := by omega
  have hnat : ((len : ℤ) - (ihl pkt * 4 : ℕ)).toNat = len - ihl pkt * 4 := by omega
  have hdata : (len : ℤ) - (ihl pkt * 4 : ℕ) - 8 = ((len - ihl pkt * 4 : ℕ) : ℤ) - 8 := by omega
  rw [processICMPECHORequest]
  simp only [hnat, hdata, if_neg hn, echoReply]

theorem echoReply_answered {n : ℕ} : (echoReply env pkt n).answered = env.buffer := by
  cases hbuffer : env.buffer <;> simp [echoReply, icmpOutput, hbuffer, IcmpResult.answered]

/-- The reply to a request of `n` bytes, and when it verifies. -/
theorem echoReply_sent (pkt : ℕ → U8) {n : ℕ} (hn : 8 ≤ n) (hlt : n < 65536)
    (hbuffer : env.buffer = true) :
    ∃ m, echoReply env pkt n = .sent m ∧ m.saddr = ipDaddr pkt ∧ m.daddr = ipSaddr pkt ∧
      m.totLen.toNat = (20 + n) % 65536 ∧ m.bytes.length = n ∧
      m.bytes.take 2 = [icmpEchoReply, 0] ∧
      m.bytes.drop 4 = (load pkt (ipNext pkt) n).drop 4 ∧
      (rfc1071 m.bytes = 0 ↔ n % 2 = 0 ∨ env.staleOut = 0) := by
  have hdata : (BitVec.ofInt 16 ((n : ℤ) - 8)).toNat = n - 8 := by
    rw [show (n : ℤ) - 8 = ((n - 8 : ℕ) : ℤ) by omega, BitVec.ofInt_natCast, BitVec.toNat_ofNat,
      Nat.mod_eq_of_lt (by omega)]
  have hsum : 8 + (n - 8) = n := by omega
  rw [echoReply, icmpOutput, if_pos hbuffer]
  simp only [hdata]
  refine ⟨_, rfl, rfl, rfl, ?_, ?_, ?_, ?_, ?_⟩
  · have h20 : BitVec.toNat (20 : U16) = 20 := rfl
    have h8 : BitVec.toNat (8 : U16) = 8 := rfl
    simp only [BitVec.toNat_add, hdata, h20, h8]
    omega
  · simp only [load_length]
    omega
  · simp only
    rw [load_icmpBytes load_length.symm]
    rfl
  · have hsplit : load pkt (ipNext pkt) n =
        load pkt (ipNext pkt) 4 ++ load pkt (ipNext pkt + 4) (4 + (n - 8)) := by
      rw [← load_add]
      congr 1
      omega
    simp only
    rw [load_icmpBytes load_length.symm, echo_rest, load_shift, hsplit,
      List.drop_left' load_length]
    rfl
  · have hverifies := rfc1071_sent_iff icmpEchoReply 0
      (read16 (fun k => pkt (ipNext pkt + k)) 4) (read16 (fun k => pkt (ipNext pkt + k)) 6)
      env.staleOut (by omega)
      (show n - 8 = (load (fun k => pkt (ipNext pkt + (8 + k))) 0 (n - 8)).length by simp)
    rw [hsum] at hverifies
    simpa only [hsum] using hverifies

/-- What is asked of an echo request in the packet `pkt` that ends in `r`: no length goes below
zero, the checksum depends on the message alone, a correct request for this host is answered by a
verifying reply with its identifier, sequence number and data, and a message that is wrong or too
short is not answered. -/
structure EchoHandled (env : IcmpEnv) (eths : List U32) (pkt : ℕ → U8) (r : IcmpResult) :
    Prop where
  asserts : r ≠ .assertFailed
  checksum : ipDaddr pkt ∈ eths → (ntohs (icmpChecksum (fun k => pkt (ipNext pkt + k)) env.staleIn
    (totLen pkt - ihl pkt * 4))).toNat = rfc1071 (icmpMessage pkt)
  answered : 8 ≤ (icmpMessage pkt).length → rfc1071 (icmpMessage pkt) = 0 →
    ipDaddr pkt ∈ eths → env.buffer = true →
      ∃ m, r = .sent m ∧ m.saddr = ipDaddr pkt ∧ m.daddr = ipSaddr pkt ∧
        m.totLen.toNat = 20 + (icmpMessage pkt).length ∧
        m.bytes.length = (icmpMessage pkt).length ∧
        m.bytes.take 2 = [icmpEchoReply, 0] ∧
        m.bytes.drop 4 = (icmpMessage pkt).drop 4 ∧ rfc1071 m.bytes = 0
  refused : rfc1071 (icmpMessage pkt) ≠ 0 ∨ (icmpMessage pkt).length < 8 → r.answered = false

theorem icmpMessage_length : (icmpMessage pkt).length = totLen pkt - ihl pkt * 4 := load_length

theorem totLen_lt (pkt : ℕ → U8) : totLen pkt < 65536 := (read16 pkt (iphOffset + 2)).isLt

theorem checksum_message_iff :
    (ntohs (icmpChecksum (fun k => pkt (ipNext pkt + k)) env.staleIn
        (totLen pkt - ihl pkt * 4))).toNat = rfc1071 (icmpMessage pkt)
      ↔ (icmpMessage pkt).length % 2 = 0 ∨ env.staleIn = 0 := by
  have htot := totLen_lt pkt
  have hiff : (ntohs (icmpChecksum (fun k => pkt (ipNext pkt + k)) env.staleIn
      (totLen pkt - ihl pkt * 4))).toNat = _ ↔ _ := ntohs_icmpChecksum_iff (by omega)
  rw [load_shift, Nat.add_zero] at hiff
  rw [icmpMessage_length]
  exact hiff

/-- What becomes of an echo request for this host when the checksum is that of its message. -/
theorem processICMPPacket_eq (hme : ipDaddr pkt ∈ eths) (hecho : pkt (ipNext pkt) = icmpEcho)
    (hlen : ihl pkt * 4 ≤ totLen pkt)
    (hodd : (icmpMessage pkt).length % 2 = 0 ∨ env.staleIn = 0) :
    processICMPPacket env eths pkt (totLen pkt) =
      if rfc1071 (icmpMessage pkt) ≠ 0 then .error
      else echoReply env pkt (icmpMessage pkt).length := by
  simp only [processICMPPacket, if_pos hme, if_pos hecho, processICMPECHORequest_eq hlen, ne_eq,
    ← checksum_message_iff.mpr hodd, ntohs_toNat_eq_zero, icmpMessage_length]

/-- An echo request in a packet that passes the tests is handled as it should be exactly when it
is not for this host or: the header is not longer than the packet, the length of the message is
even or the byte that is never written holds zero, and, if its checksum is right and a buffer is
there, it has a whole header, and its reply is even as well or finds zero, and no longer than a
packet can be. -/
theorem icmp_echo_answered (hw : Offload) (env : IcmpEnv) (eths : List U32) (pkt : ℕ → U8)
    (r : IcmpResult) (h : (processIPv4Packet hw env eths pkt).icmp? = some r)
    (hecho : pkt (ipNext pkt) = icmpEcho) :
    EchoHandled env eths pkt r ↔ (ipDaddr pkt ∈ eths →
      ihl pkt * 4 ≤ totLen pkt ∧ ((icmpMessage pkt).length % 2 = 0 ∨ env.staleIn = 0) ∧
      (rfc1071 (icmpMessage pkt) = 0 → env.buffer = true →
        8 ≤ (icmpMessage pkt).length ∧ ((icmpMessage pkt).length % 2 = 0 ∨ env.staleOut = 0) ∧
        20 + (icmpMessage pkt).length < 65536)) := by
  obtain rfl := icmp_cases h
  have hlt : (icmpMessage pkt).length < 65536 := by
    have htot := totLen_lt pkt
    rw [icmpMessage_length]
    omega
  constructor
  · intro hhandled hme
    have hlen : ihl pkt * 4 ≤ totLen pkt := by
      by_contra hshort
      refine hhandled.asserts ?_
      rw [processICMPPacket, if_pos hme, if_pos hecho, processICMPECHORequest, if_pos (by omega)]
    have hodd := checksum_message_iff.mp (hhandled.checksum hme)
    refine ⟨hlen, hodd, fun hok hbuffer => ?_⟩
    have hreply := processICMPPacket_eq hme hecho hlen hodd
    rw [if_neg (not_not.mpr hok)] at hreply
    have hwhole : 8 ≤ (icmpMessage pkt).length := by
      by_contra hshort
      have hrefused := hhandled.refused (.inr (by omega))
      rw [hreply, echoReply_answered, hbuffer] at hrefused
      cases hrefused
    obtain ⟨m, hm, -, -, htotal, -, -, -, hverifies⟩ := hhandled.answered hwhole hok hme hbuffer
    obtain ⟨m', hm', -, -, htotal', -, -, -, hverifies'⟩ :=
      echoReply_sent pkt hwhole hlt hbuffer
    obtain rfl : m = m' := IcmpResult.sent.inj (hm.symm.trans (hreply.trans hm'))
    exact ⟨hwhole, hverifies'.mp hverifies, by omega⟩
  · intro hsound
    by_cases hme : ipDaddr pkt ∈ eths
    · obtain ⟨hlen, hodd, hcorrect⟩ := hsound hme
      rw [processICMPPacket_eq hme hecho hlen hodd]
      by_cases hok : rfc1071 (icmpMessage pkt) = 0
      · rw [if_neg (not_not.mpr hok)]
        refine ⟨?_, fun _ => checksum_message_iff.mpr hodd, fun hwhole _ _ hbuffer => ?_, ?_⟩
        · rw [echoReply, icmpOutput]
          split <;> simp
        · obtain ⟨m, hm, hsaddr, hdaddr, htotal, hlength, hhead, hrest, hverifies⟩ :=
            echoReply_sent pkt hwhole hlt hbuffer
          obtain ⟨-, heven, hfits⟩ := hcorrect hok hbuffer
          refine ⟨m, hm, hsaddr, hdaddr, by omega, hlength, hhead, ?_, hverifies.mpr heven⟩
          rw [hrest, icmpMessage_length]
          rfl
        · rintro (hbad | hshort)
          · exact absurd hok hbad
          · cases hbuffer : env.buffer with
            | false => rw [echoReply_answered, hbuffer]
            | true => exact absurd (hcorrect hok hbuffer).1 (by omega)
      · rw [if_pos hok]
        exact ⟨by simp, fun _ => checksum_message_iff.mpr hodd, fun _ h0 => absurd h0 hok,
          fun _ => rfl⟩
    · have hignored : processICMPPacket env eths pkt (totLen pkt) = .ignored := if_neg hme
      rw [hignored]
      exact ⟨by simp, fun h => absurd h hme, fun _ _ h => absurd h hme, fun _ => rfl⟩

/-- A message of four bytes with a correct checksum. -/
def shortRequest : ℕ → U8 := ofList
  [0, 0, 0, 0, 0, 0, 0, 0, 0, 0, 0, 0, 8, 0, 69, 0, 0, 24, 0, 0, 0, 0, 64, 1, 102, 227,
    10, 0, 0, 1, 10, 0, 0, 2, 8, 0, 247, 255]

/-- An IP header of 60 bytes with a total length of 20. -/
def bareRequest : ℕ → U8 := ofList
  ([0, 0, 0, 0, 0, 0, 0, 0, 0, 0, 0, 0, 8, 0, 79, 0, 0, 20, 0, 0, 0, 0, 64, 1, 92, 231,
    10, 0, 0, 1, 10, 0, 0, 2] ++ List.replicate 40 0 ++ [8])

/-- A correct request of nine bytes. -/
def oddRequest : ℕ → U8 := ofList
  [0, 0, 0, 0, 0, 0, 0, 0, 0, 0, 0, 0, 8, 0, 69, 0, 0, 29, 0, 0, 0, 0, 64, 1, 102, 222,
    10, 0, 0, 1, 10, 0, 0, 2, 8, 0, 234, 249, 1, 2, 3, 4, 9]

/-- Half a header is answered, a length below zero is summed, and a correct request is refused for
what was left on the stack. -/
theorem icmp_echo_faults :
    ((processIPv4Packet ⟨false, false⟩ ⟨0, 0, true⟩ [33554442] shortRequest).icmp?.map
      IcmpResult.answered = some true ∧ (icmpMessage shortRequest).length = 4) ∧
    (processIPv4Packet ⟨false, false⟩ ⟨0, 0, true⟩ [33554442] bareRequest).icmp? =
      some .assertFailed ∧
    ((processIPv4Packet ⟨false, false⟩ ⟨1, 0, true⟩ [33554442] oddRequest).icmp? = some .error ∧
      rfc1071 (icmpMessage oddRequest) = 0) := by
  decide +kernel

/-- A correct request of ten bytes. -/
def evenRequest : ℕ → U8 := ofList
  [0, 0, 0, 0, 0, 0, 0, 0, 0, 0, 0, 0, 8, 0, 69, 0, 0, 30, 0, 0, 0, 0, 64, 1, 102, 221,
    10, 0, 0, 1, 10, 0, 0, 2, 8, 0, 234, 240, 1, 2, 3, 4, 9, 9]

theorem icmp_echo_answered_even :
    (processIPv4Packet ⟨false, false⟩ ⟨1, 1, true⟩ [33554442] evenRequest).icmp?.map
      IcmpResult.answered = some true := by
  have hsome : (processIPv4Packet ⟨false, false⟩ ⟨1, 1, true⟩ [33554442] evenRequest).icmp?.isSome =
      true := by decide +kernel
  obtain ⟨r, hr⟩ := Option.isSome_iff_exists.mp hsome
  have hhandled := (icmp_echo_answered _ _ _ _ r hr (by decide)).mpr (by decide +kernel)
  obtain ⟨m, rfl, -⟩ :=
    hhandled.answered (by decide +kernel) (by decide +kernel) (by decide +kernel) rfl
  rw [hr]
  rfl

end MtcpStack
