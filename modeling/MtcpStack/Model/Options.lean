import MtcpStack.Model.Stream

/-! # Option parsing (`tcp_util.c`)

`opt i` is the byte at offset `i` behind the fixed header. The loops are driven by the index
alone, so one that is still running after more rounds than there are indices never ends; the
result is `none` then. -/

namespace MtcpStack

/-- `ntohl` of the four bytes at offset `i`. -/
def readU32 (opt : ℕ → U8) (i : ℕ) : U32 :=
  opt i ++ opt (i + 1) ++ opt (i + 2) ++ opt (i + 3)

/-- The option kind bytes the parser knows. -/
def optEnd : U8 := 0
def optNop : U8 := 1
def optMss : U8 := 2
def optWscale : U8 := 3
def optSackPermit : U8 := 4
def optTimestamp : U8 := 8

/-- One known or unknown option of kind `kind` whose length byte is `optlen` and whose data
starts at `i`: the stream after it and the next index. -/
def applyOption (curTs : U32) (opt : ℕ → U8) (kind : U8) (optlen i : ℕ) (c : Conn) : Conn × ℕ :=
  if kind = optMss then
    let mss : U16 := opt i ++ opt (i + 1)
    ({ c with mss, effMss := mss - 12 }, i + 2)
  else if kind = optWscale then ({ c with wscalePeer := opt i }, i + 1)
  else if kind = optSackPermit then ({ c with sackPermit := true }, i)
  else if kind = optTimestamp then
    ({ c with sawTimestamp := true, tsRecent := readU32 opt i, tsLastTsUpd := curTs }, i + 8)
  else (c, i + optlen - 2)

/-- The loop of `ParseTCPOptions` from index `i`. -/
def parseOptionsFrom (curTs : U32) (opt : ℕ → U8) (len : ℕ) : ℕ → ℕ → Conn → Option Conn
  | 0, _, _ => none
  | fuel + 1, i, c =>
    if i < len then
      if opt i = optEnd then some c
      else if opt i = optNop then parseOptionsFrom curTs opt len fuel (i + 1) c
      else
        let optlen := (opt (i + 1)).toNat
        if len < i + 2 + optlen - 2 then some c
        else
          let r := applyOption curTs opt (opt i) optlen (i + 2) c
          parseOptionsFrom curTs opt len fuel r.2 r.1
    else some c

def parseTCPOptions (curTs : U32) (opt : ℕ → U8) (len : ℕ) (c : Conn) : Option Conn :=
  parseOptionsFrom curTs opt len (len + 1) 0 c

/-- `struct tcp_timestamp`. -/
structure TcpTimestamp where
  tsVal : U32
  tsRef : U32
  deriving DecidableEq, Repr

/-- The loop of `ParseTCPTimestamp`; the inner result is `none` when it returns `FALSE`. -/
def parseTimestampFrom (opt : ℕ → U8) (len : ℕ) : ℕ → ℕ → Option (Option TcpTimestamp)
  | 0, _ => none
  | fuel + 1, i =>
    if i < len then
      if opt i = optEnd then some none
      else if opt i = optNop then parseTimestampFrom opt len fuel (i + 1)
      else
        let optlen := (opt (i + 1)).toNat
        if len < i + 2 + optlen - 2 then some none
        else if opt i = optTimestamp then
          some (some ⟨readU32 opt (i + 2), readU32 opt (i + 6)⟩)
        else parseTimestampFrom opt len fuel (i + 2 + optlen - 2)
    else some none

def parseTCPTimestamp (opt : ℕ → U8) (len : ℕ) : Option (Option TcpTimestamp) :=
  parseTimestampFrom opt len (len + 1) 0

end MtcpStack
