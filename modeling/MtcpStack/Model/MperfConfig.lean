import MtcpStack.Library.Binary
import MtcpStack.Model.Basic

/-! # The mperf configuration and its exchange

The connection configuration of `mperf`, how the command line fills it in, and how a client sends
it and a server takes it over: `units.c`, `mperf_parse_args`, `mperf_config.c`, and `nread`. Texts
are lists of characters. A JSON number is the double that is stored for it. -/

namespace MtcpStack.Mperf

abbrev U64 := BitVec 64

/-- `struct mperf_conn_config`. -/
structure ConnConfig where
  /-- size of reads and writes (-l) -/
  blksize : U32
  /-- target data rate -/
  rate : U64
  /-- packet burst size -/
  burst : U32
  /-- number of bytes to send -/
  bytes : U32
  /-- number of blocks (packets) to send -/
  blocks : U32
  /-- time to send -/
  duration : U32
deriving DecidableEq, Repr

def defaultTcpBlksize : U32 := 131072
def defaultDuration : U32 := 10
def maxTime : U32 := 86400
def maxBurst : U32 := 1000
def uint64Max : U64 := -1

/-- The `conn_conf` of `global_conf`, and of a context after `mperf_init_server`. -/
def initConfig : ConnConfig where
  blksize := defaultTcpBlksize
  rate := 0
  burst := 0
  bytes := 0
  blocks := 0
  duration := defaultDuration

/-! ## Numbers on the command line -/

def isSpace (c : Char) : Bool := c.toNat = 32 ∨ 9 ≤ c.toNat ∧ c.toNat ≤ 13

def scanSign : List Char → Bool × List Char
  | '-' :: s => (true, s)
  | '+' :: s => (false, s)
  | s => (false, s)

def digitsValue (s : List Char) : ℕ := s.foldl (fun n c => 10 * n + (c.toNat - 48)) 0

/-- Blanks, a sign and decimal digits, as `strtol` and `sscanf` take them; `none` without a digit. -/
def scanNumber (s : List Char) : Option (Bool × ℕ × List Char) :=
  let signed := scanSign (s.dropWhile isSpace)
  let digits := signed.2.takeWhile Char.isDigit
  if digits = [] then none
  else some (signed.1, digitsValue digits, signed.2.dropWhile Char.isDigit)

/-- The value `%lu` stores: clamped above, and negated modulo `2 ^ 64` after a minus sign. -/
def unsignedLong (neg : Bool) (n : ℕ) : U64 :=
  if 2 ^ 64 ≤ n then uint64Max
  else if neg then - BitVec.ofNat 64 n
  else BitVec.ofNat 64 n

/-- `atoi`: the low half of a clamped `long`. -/
def atoi (s : List Char) : U32 :=
  match scanNumber s with
  | none => 0
  | some (neg, n, _) =>
    let value : ℤ := if neg then max (- n) (- 2 ^ 63) else min n (2 ^ 63 - 1)
    BitVec.ofInt 32 value

/-- The rows of `unit_list`. -/
inductive RateUnit where
  | byte
  | kilo
  | mega
  | giga
  | tera
deriving DecidableEq, Repr

def RateUnit.symbol : RateUnit → Char
  | .byte => 'b'
  | .kilo => 'k'
  | .mega => 'm'
  | .giga => 'g'
  | .tera => 't'

def RateUnit.shift : RateUnit → ℕ
  | .byte => 0
  | .kilo => 10
  | .mega => 20
  | .giga => 30
  | .tera => 40

/-- `unit_match`; `none` is `UNIT_MAX`. -/
def unitMatch (s : Char) : Option RateUnit :=
  [RateUnit.byte, .kilo, .mega, .giga, .tera].find? fun u => s.toLower = u.symbol

/-- `unit_atolu`. A text with no number or no character behind it leaves the suffix `'\0'`. -/
def unitAtolu (s : List Char) : U64 :=
  match scanNumber s with
  | none => uint64Max
  | some (neg, n, rest) =>
    match unitMatch (rest.headD '\x00') with
    | none => uint64Max
    | some unit => unsignedLong neg n <<< unit.shift

/-! ## The command line -/

/-- The options `getopt_long` finds, with the arguments that reach `conn_conf`. Whether an address
is one is settled by `inet_aton`. -/
inductive Arg where
  | mtcpConf
  | port
  | format (optarg : List Char)
  | verbose
  | version
  | server (valid : Bool)
  | client (valid : Bool)
  | bitrate (optarg : List Char)
  | time (optarg : List Char)
  | bytes (optarg : List Char)
  | blockcount (optarg : List Char)
  | length (optarg : List Char)
  | help
deriving DecidableEq, Repr

/-- The locals of `mperf_parse_args` beside `conn_conf`. -/
structure ArgState where
  connConf : ConnConfig := initConfig
  blksize : U32 := 0
  durationFlag : Bool := false
  mtcpFlag : Bool := false

/-- The characters before the first slash of an argument, and those behind it. -/
def splitSlash (s : List Char) : List Char × Option (List Char) :=
  (s.takeWhile (· ≠ '/'), (s.dropWhile (· ≠ '/')).tail?)

/-- The case `'b'`: the burst is checked before the rate is read. -/
def parseBitrate (optarg : List Char) (conf : ConnConfig) : Option ConnConfig :=
  let parts := splitSlash optarg
  match parts.2 with
  | none => some { conf with rate := unitAtolu parts.1 }
  | some slash =>
    let burst := atoi slash
    if burst = 0 ∨ maxBurst < burst then none
    else some { conf with burst := burst, rate := unitAtolu parts.1 }

/-- One round of the loop over the options; `none` is a return that is not 0, or an exit. -/
def parseArg (st : ArgState) : Arg → Option ArgState
  | .mtcpConf => some { st with mtcpFlag := true }
  | .port => some st
  | .format optarg => (unitMatch (optarg.headD '\x00')).map fun _ => st
  | .verbose => some st
  | .version => none
  | .server valid => if valid then some st else none
  | .client valid => if valid then some st else none
  | .bitrate optarg => (parseBitrate optarg st.connConf).map fun conf => { st with connConf := conf }
  | .time optarg =>
    let duration := atoi optarg
    if maxTime < duration then none
    else some { st with connConf.duration := duration, durationFlag := true }
  | .bytes optarg => some { st with connConf.bytes := (unitAtolu optarg).setWidth 32 }
  | .blockcount optarg => some { st with connConf.blocks := (unitAtolu optarg).setWidth 32 }
  | .length optarg => some { st with blksize := (unitAtolu optarg).setWidth 32 }
  | .help => none

/-- What `mperf_parse_args` does behind its loop. -/
def finishArgs (st : ArgState) : Option ConnConfig :=
  if ¬ st.mtcpFlag then none
  else
    let blksize := if st.blksize = 0 then defaultTcpBlksize else st.blksize
    let conf : ConnConfig := { st.connConf with blksize := blksize }
    if (conf.bytes ≠ 0 ∨ conf.blocks ≠ 0) ∧ ¬ st.durationFlag then some { conf with duration := 0 }
    else some conf

/-- `mperf_parse_args`: the `conn_conf` it leaves when it returns 0. -/
def mperfParseArgs (args : List Arg) : Option ConnConfig :=
  (args.foldlM parseArg {}).bind finishArgs

/-! ## JSON documents -/

/-- The names of the members that are sent. Members of other names are never looked up. -/
inductive ConfKey where
  | duration
  | blksize
  | rate
  | burst
  | bytes
  | blocks
  | clientVersion
deriving DecidableEq, Repr

inductive JsonValue where
  | number (valuedouble : ℕ)
  | string (valuestring : List Char)
deriving DecidableEq, Repr

/-- An object, by its members in order. -/
abbrev Json := List (ConfKey × JsonValue)

/-- The number an integer becomes as an argument of `cJSON_CreateNumber`: the nearest double. -/
def createNumber (n : ℕ) : JsonValue := .number (Binary.roundEven 53 n)

/-- `valueint`, saturated at `LLONG_MAX`; a string has the 0 of a new item. -/
def JsonValue.valueint : JsonValue → ℕ
  | .number valuedouble => if 2 ^ 63 ≤ valuedouble then 2 ^ 63 - 1 else valuedouble
  | .string _ => 0

/-- `cJSON_GetObjectItem`: the first member of the name. -/
def getObjectItem (json : Json) (key : ConfKey) : Option JsonValue :=
  (json.find? fun item => item.1 = key).map Prod.snd

/-- What `cJSON_PrintUnformatted` and `cJSON_Parse` do with a document. -/
structure Cjson where
  print : Json → List U8
  parse : List U8 → Option Json

/-- The library brings a document back from its text, whose length is a `uint32_t`. -/
def Cjson.Faithful (cjson : Cjson) (json : Json) : Prop :=
  cjson.parse (cjson.print json) = some json ∧ (cjson.print json).length < 2 ^ 32

/-! ## Sending the configuration -/

/-- `PACKAGE_STRING`. -/
def packageString : List Char :=
  ['t', 'c', 'p', '-', 's', 'a', 'm', 'p', 'l', 'e', 's', ' ', '1', '.', '0']

/-- A member that is added when its field is not zero. -/
def optionalItem (key : ConfKey) (n : ℕ) : Json :=
  if n ≠ 0 then [(key, createNumber n)] else []

/-- The object `mperf_send_conf` builds. -/
def confItems (conf : ConnConfig) : Json :=
  [(.duration, createNumber conf.duration.toNat)]
    ++ optionalItem .blksize conf.blksize.toNat
    ++ optionalItem .rate conf.rate.toNat
    ++ optionalItem .burst conf.burst.toNat
    ++ optionalItem .bytes conf.bytes.toNat
    ++ optionalItem .blocks conf.blocks.toNat
    ++ [(.clientVersion, .string packageString)]

/-- The four bytes of a number in network order. -/
def htonl (n : ℕ) : List U8 :=
  [BitVec.ofNat 8 (n / 2 ^ 24), BitVec.ofNat 8 (n / 2 ^ 16), BitVec.ofNat 8 (n / 2 ^ 8),
    BitVec.ofNat 8 n]

def ntohl (bytes : List U8) : ℕ := bytes.foldl (fun n b => n * 2 ^ 8 + b.toNat) 0

/-- `TEST_STATE_PARAM_EXCHANGE`, the type of the message. -/
def paramExchangeByte : U8 := 5

/-- The bytes `JSON_write` sends for a text: type, length, text. -/
def jsonWrite (text : List U8) : List U8 :=
  paramExchangeByte :: (htonl text.length ++ text)

/-- The bytes `mperf_send_conf` writes to the control connection. -/
def mperfSendConf (cjson : Cjson) (conf : ConnConfig) : List U8 :=
  jsonWrite (cjson.print (confItems conf))

/-! ## Receiving it -/

/-- The loop of `nread` on a connection that is open: read `k` takes `want k` bytes, at least one
and at most as many as are asked for and unread; without an unread byte it ends (`EAGAIN`). -/
def nreadLoop (want : ℕ → ℕ) : ℕ → ℕ → ℕ → List U8 → List U8 × List U8
  | 0, _, _, unread => ([], unread)
  | fuel + 1, k, nleft, unread =>
    if nleft = 0 ∨ unread = [] then ([], unread)
    else
      let r := max 1 (min (want k) (min nleft unread.length))
      let rest := nreadLoop want fuel (k + 1) (nleft - r) (unread.drop r)
      (unread.take r ++ rest.1, rest.2)

/-- `nread`: the bytes it stores, at most `count`, and those left unread. Every round takes a
byte, so that `count` rounds are enough. -/
def nread (want : ℕ → ℕ) (count : ℕ) (unread : List U8) : List U8 × List U8 :=
  nreadLoop want count 0 count unread

/-- What the reading functions find around them: the library, the four bytes that the variable of
the length holds before it is read, and the sizes of the single reads. -/
structure ReadEnv where
  cjson : Cjson
  nsize : List U8
  want : ℕ → ℕ → ℕ

/-- `JSON_read`: the document, and the bytes left unread. A length of fewer than four bytes is
completed by what `nsize` held. -/
def jsonRead (env : ReadEnv) (unread : List U8) : Option Json × List U8 :=
  let size := nread (env.want 1) 4 unread
  let hsize := ntohl (size.1 ++ (env.nsize.take 4).drop size.1.length)
  let text := nread (env.want 2) hsize size.2
  (if text.1.length = hsize then env.cjson.parse text.1 else none, text.2)

/-- Take over a member that is present. -/
def takeItem (json : Json) (key : ConfKey) (store : ℕ → ConnConfig → ConnConfig)
    (conf : ConnConfig) : ConnConfig :=
  match getObjectItem json key with
  | some item => store item.valueint conf
  | none => conf

/-- The assignments of `mperf_recv_conf`. -/
def takeItems (json : Json) (conf : ConnConfig) : ConnConfig :=
  let conf := takeItem json .duration (fun v c => { c with duration := BitVec.ofNat 32 v }) conf
  let conf := takeItem json .blksize (fun v c => { c with blksize := BitVec.ofNat 32 v }) conf
  let conf := takeItem json .rate (fun v c => { c with rate := BitVec.ofNat 64 v }) conf
  let conf := takeItem json .burst (fun v c => { c with burst := BitVec.ofNat 32 v }) conf
  let conf := takeItem json .bytes (fun v c => { c with bytes := BitVec.ofNat 32 v }) conf
  takeItem json .blocks (fun v c => { c with blocks := BitVec.ofNat 32 v }) conf

/-- The version test: the member is there and starts with the server's own text. -/
def versionMatches (json : Json) : Bool :=
  match getObjectItem json .clientVersion with
  | some (.string valuestring) => packageString.isPrefixOf valuestring
  | _ => false

/-- `mperf_recv_conf` behind `JSON_read`: the configuration it leaves, and whether it returns 0.
The fields are stored before the version is looked at. -/
def applyConf (json : Option Json) (conf : ConnConfig) : ConnConfig × Bool :=
  match json with
  | none => (conf, false)
  | some json => (takeItems json conf, versionMatches json)

/-- `mperf_recv_conf` on the unread bytes behind the type of the message. -/
def mperfRecvConf (env : ReadEnv) (unread : List U8) (conf : ConnConfig) : ConnConfig × Bool :=
  applyConf (jsonRead env unread).1 conf

end MtcpStack.Mperf
