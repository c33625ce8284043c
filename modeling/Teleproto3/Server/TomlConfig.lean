/-
# The secrets of a configuration file

`parse_secrets` of `server/src/common/toml-config.c` with what it reads them by: the lookup
`toml_get` of `common/toml/tomlc17.c`, `toml_config_parse_hex_secret`, `validate_label`,
`parse_byte_size` and `toml_ts_to_epoch`.  A file is the tree of values its parser returns; what
a secret does not look at, the values of floating-point numbers, dates and times, is left out,
and so are the settings that are no secrets.

An error is the text for `errbuf`, before `snprintf` cuts it to the length there is.
-/

import Mathlib.Tactic.SplitIfs
import Teleproto3.Lib.CString
import Teleproto3.Lib.Stage
import Teleproto3.Lib.Word32
import Teleproto3.Server.SecretTable
import Teleproto3.Wire.HttpChunk

namespace Teleproto3
namespace Server

open Lib Wire

/-! ### The values of a file -/

/-- `ts` of `toml_datum_t`, with the offset in minutes. -/
structure TomlTs where
  year : ℤ
  month : ℤ
  day : ℤ
  hour : ℤ
  minute : ℤ
  second : ℤ
  tz : ℤ

/-- `toml_datum_t`. -/
inductive TomlDatum
  | unknown
  | string (str : Bytes)
  | int64 (n : ℤ)
  | fp64
  | boolean (b : Bool)
  | date
  | time
  | datetime (ts : TomlTs)
  | datetimetz (ts : TomlTs)
  | array (elem : List TomlDatum)
  | table (entries : List (Bytes × TomlDatum))

/-- `toml_get`. -/
def tomlGet (datum : TomlDatum) (key : Bytes) : TomlDatum :=
  match datum with
  | .table entries => ((entries.find? fun e => cString e.1 = key).map Prod.snd).getD .unknown
  | _ => .unknown

/-! ### Keys and labels -/

/-- The bytes that pairs of hexadecimal digits stand for. -/
def hexPairs : Bytes → Option Bytes
  | [] => some []
  | [_] => none
  | c :: c' :: hex =>
    match hexDigit c, hexDigit c', hexPairs hex with
    | some d, some d', some out => some (UInt8.ofNat (d * 16 + d') :: out)
    | _, _, _ => none

/-- `toml_config_parse_hex_secret`. -/
def tomlConfigParseHexSecret (hex : Bytes) : Option Bytes :=
  if hex.length ≠ 32 then none else hexPairs hex

/-- A character `validate_label` accepts. -/
def labelChar (c : UInt8) : Bool :=
  0x61 ≤ c ∧ c ≤ 0x7A ∨ 0x41 ≤ c ∧ c ≤ 0x5A ∨ 0x30 ≤ c ∧ c ≤ 0x39 ∨ c = 0x5F ∨ c = 0x2D

/-- `validate_label`. -/
def validateLabel (label : Bytes) : Bool := label.all labelChar

/-! ### Numbers and sizes -/

/-- The number that decimal digits write. -/
def decimal (digits : Bytes) : ℕ := digits.foldl (fun n c => n * 10 + (c.toNat - 0x30)) 0

/-- `LLONG_MAX`. -/
def LLONG_MAX : ℤ := 2 ^ 63 - 1

/-- The sign in front of a number. -/
def strtollSign : Bytes → Bool × Bytes
  | [] => (false, [])
  | c :: s => if c = 0x2D then (true, s) else if c = 0x2B then (false, s) else (false, c :: s)

/-- `strtoll` to the base 10, with the rest of the string, which is all of it where there is no
number. -/
def strtoll (s : Bytes) : ℤ × Bytes :=
  let (negative, t) := strtollSign (s.dropWhile isSpace)
  let digits := t.takeWhile isDigit
  if digits = [] then (0, s)
  else
    let n : ℤ := decimal digits
    (if negative then max (-n) (-LLONG_MAX - 1) else min n LLONG_MAX, t.dropWhile isDigit)

/-- The factor a suffix stands for. -/
def sizeFactor (suffix : UInt8) : Option ℤ :=
  if suffix = 0x4B then some 1024
  else if suffix = 0x4D then some (1024 * 1024)
  else if suffix = 0x47 then some (1024 * 1024 * 1024)
  else if suffix = 0x54 then some (1024 * 1024 * 1024 * 1024)
  else none

/-- `parse_byte_size`, whose own text no caller keeps. -/
def parseByteSize (s : Bytes) : ℤ :=
  let (val, endp) := strtoll s
  if endp = s ∨ val < 0 then -1
  else
    -- The multiplication wraps around.
    let (val, endp) :=
      match endp with
      | [] => (val, [])
      | c :: rest =>
        match sizeFactor (toUpper c) with
        | some factor => (wrap64 (val * factor), rest)
        | none => (val, c :: rest)
    let endp :=
      match endp with
      | [] => []
      | c :: rest => if toUpper c = 0x42 then rest else c :: rest
    if endp ≠ [] then -1 else val

/-- The days from the first of January 1970 to a day of the Gregorian calendar. -/
def daysFromEpoch (year month day : ℤ) : ℤ :=
  -- Years begin in March, so that the leap day is the last one.
  let y := if month ≤ 2 then year - 1 else year
  let m := if month ≤ 2 then month + 9 else month - 3
  y * 365 + y / 4 - y / 100 + y / 400 + (153 * m + 2) / 5 + day - 1 - 719468

/-- `timegm` on the fields of a value; months outside the year count on into the years around
it. -/
def timegm (ts : TomlTs) : ℤ :=
  let month := ts.month - 1
  daysFromEpoch (ts.year + month / 12) (month % 12 + 1) ts.day * 86400 +
    ts.hour * 3600 + ts.minute * 60 + ts.second

/-! ### A secret -/

/-- The text of an error in the secret of index `i`. -/
def secretError (i : ℕ) (text : Bytes) : Bytes :=
  ascii "secret[" ++ ascii (toString i) ++ ascii "]: " ++ text

/-- `key`, which has to be there. -/
def secretKey (i : ℕ) : TomlDatum → Except Bytes Bytes
  | .string str =>
    match tomlConfigParseHexSecret (cString str) with
    | some key => .ok key
    | none => .error (secretError i (ascii "'key' must be exactly 32 hex digits"))
  | _ => .error (secretError i (ascii "'key' must be a string"))

/-- `label`. -/
def secretLabel (i : ℕ) : TomlDatum → Except Bytes Bytes
  | .string str =>
    let label := cString str
    if label.length > EXT_SECRET_LABEL_MAX then
      .error (secretError i
        (ascii "label too long (max " ++ ascii (toString EXT_SECRET_LABEL_MAX) ++ ascii " chars)"))
    else if label ≠ [] ∧ !validateLabel label then
      .error (secretError i (ascii "label contains invalid characters"))
    else .ok label
  | _ => .ok []

/-- A field that is a number which is not negative, and zero by default. -/
def secretNumber (i : ℕ) (name : Bytes) : TomlDatum → Except Bytes ℤ
  | .int64 n =>
    if n < 0 then .error (secretError i (name ++ ascii " must be non-negative")) else .ok n
  | _ => .ok 0

/-- A field that is a number of bytes, or a text for one. -/
def secretBytes (i : ℕ) (name : Bytes) : TomlDatum → Except Bytes ℤ
  | .string str =>
    if parseByteSize (cString str) < 0 then
      .error (secretError i
        (ascii "invalid " ++ name ++ ascii " '" ++ cString str ++ ascii "'"))
    else .ok (parseByteSize (cString str))
  | d => secretNumber i name d

/-- `expires`: a date, which is `toml_ts_to_epoch`, or the seconds since 1970. -/
def secretExpires (i : ℕ) : TomlDatum → Except Bytes ℤ
  | .datetime ts => .ok (timegm ts)
  | .datetimetz ts => .ok (timegm ts - ts.tz * 60)
  | d => secretNumber i (ascii "expires") d

/-- One turn of the loop of `parse_secrets`.  `limit` and `max_ips` are cut to an `int`. -/
def parseSecret (i : ℕ) (entry : TomlDatum) : Except Bytes SecretConfig :=
  match entry with
  | .table _ => do
    let key ← secretKey i (tomlGet entry (ascii "key"))
    let label ← secretLabel i (tomlGet entry (ascii "label"))
    let limit ← secretNumber i (ascii "limit") (tomlGet entry (ascii "limit"))
    let quota ← secretBytes i (ascii "quota") (tomlGet entry (ascii "quota"))
    let rateLimit ← secretBytes i (ascii "rate_limit") (tomlGet entry (ascii "rate_limit"))
    let maxIps ← secretNumber i (ascii "max_ips") (tomlGet entry (ascii "max_ips"))
    let expires ← secretExpires i (tomlGet entry (ascii "expires"))
    return ⟨key, label, wrap32 limit, quota, rateLimit, wrap32 maxIps, expires⟩
  | _ => .error (secretError i (ascii "expected table"))

/-- The loop of `parse_secrets`, from index `i` on. -/
def parseSecretList (i : ℕ) : List TomlDatum → Except Bytes (List SecretConfig)
  | [] => .ok []
  | entry :: entries => do
    let cfg ← parseSecret i entry
    let cfgs ← parseSecretList (i + 1) entries
    return cfg :: cfgs

/-- `TOML_CONFIG_MAX_SECRETS`. -/
def TOML_CONFIG_MAX_SECRETS : ℕ := 16

/-- `parse_secrets`. -/
def parseSecrets (toptab : TomlDatum) : Except Bytes (List SecretConfig) :=
  match tomlGet toptab (ascii "secret") with
  | .unknown => .ok []
  | .array elem =>
    if elem.length > TOML_CONFIG_MAX_SECRETS then
      .error (ascii "too many secrets (" ++ ascii (toString elem.length) ++ ascii ", max " ++
        ascii (toString TOML_CONFIG_MAX_SECRETS) ++ ascii ")")
    else parseSecretList 0 elem
  | _ => .error (ascii "'secret' must be an array of tables")

/-! ### What is admitted -/

theorem hexPairs_length {hex out : Bytes} (h : hexPairs hex = some out) :
    2 * out.length = hex.length := by
  induction hex using hexPairs.induct generalizing out with
  | case1 =>
    obtain rfl : [] = out := Option.some.inj h
    rfl
  | case2 c => simp [hexPairs] at h
  | case3 c c' hex d d' rest hrest hd' hd ih =>
    rw [hexPairs, hd, hd', hrest] at h
    obtain rfl := Option.some.inj h
    have hlen := ih hrest
    simp only [List.length_cons]
    omega
  | case4 c c' hex hnone ih =>
    rw [hexPairs] at h
    split at h
    · next hd hd' hrest => exact absurd hrest (hnone _ _ _ hd hd')
    · simp at h

/-- **A secret that is admitted**: a key of sixteen bytes, a short label of the characters there
may be, and numbers of bytes that are not negative. -/
structure SecretConfig.Admitted (cfg : SecretConfig) : Prop where
  key : cfg.key.length = 16
  label : cfg.label.length ≤ EXT_SECRET_LABEL_MAX
  chars : validateLabel cfg.label
  quota : 0 ≤ cfg.quota
  rateLimit : 0 ≤ cfg.rateLimit

section Entry

variable {i : ℕ} {name : Bytes} {d : TomlDatum}

theorem secretKey_length {key : Bytes} (h : secretKey i d = .ok key) : key.length = 16 := by
  unfold secretKey at h
  split at h
  · split at h
    · next str parsed hparsed =>
      obtain rfl := Except.ok.inj h
      unfold tomlConfigParseHexSecret at hparsed
      split_ifs at hparsed with hlen
      have htwice := hexPairs_length hparsed
      omega
    · simp at h
  · simp at h

theorem secretLabel_valid {label : Bytes} (h : secretLabel i d = .ok label) :
    label.length ≤ EXT_SECRET_LABEL_MAX ∧ validateLabel label := by
  unfold secretLabel at h
  split at h
  · dsimp only at h
    split_ifs at h with hlong hchars
    obtain rfl := Except.ok.inj h
    refine ⟨not_lt.mp hlong, ?_⟩
    rcases List.eq_nil_or_concat (cString _) with hnil | ⟨label, c, hconcat⟩
    · rw [hnil]
      rfl
    · simpa [hconcat] using hchars
  · obtain rfl := Except.ok.inj h
    exact ⟨Nat.zero_le _, rfl⟩

theorem secretNumber_nonneg {n : ℤ} (h : secretNumber i name d = .ok n) : 0 ≤ n := by
  unfold secretNumber at h
  split at h
  · split_ifs at h with hneg
    obtain rfl := Except.ok.inj h
    exact not_lt.mp hneg
  · exact (Except.ok.inj h).le

theorem secretBytes_nonneg {n : ℤ} (h : secretBytes i name d = .ok n) : 0 ≤ n := by
  unfold secretBytes at h
  split at h
  · split_ifs at h with hneg
    obtain rfl := Except.ok.inj h
    exact not_lt.mp hneg
  · exact secretNumber_nonneg h

theorem parseSecret_admitted {cfg : SecretConfig} (h : parseSecret i d = .ok cfg) :
    cfg.Admitted := by
  unfold parseSecret at h
  split at h
  · obtain ⟨key, hkey, h⟩ := bind_ok_iff.mp h
    obtain ⟨label, hlabel, h⟩ := bind_ok_iff.mp h
    obtain ⟨limit, -, h⟩ := bind_ok_iff.mp h
    obtain ⟨quota, hquota, h⟩ := bind_ok_iff.mp h
    obtain ⟨rateLimit, hrate, h⟩ := bind_ok_iff.mp h
    obtain ⟨maxIps, -, h⟩ := bind_ok_iff.mp h
    obtain ⟨expires, -, h⟩ := bind_ok_iff.mp h
    obtain rfl := Except.ok.inj h
    obtain ⟨hshort, hchars⟩ := secretLabel_valid hlabel
    exact ⟨secretKey_length hkey, hshort, hchars, secretBytes_nonneg hquota,
      secretBytes_nonneg hrate⟩
  · simp at h

end Entry

theorem parseSecretList_admitted {i : ℕ} {entries : List TomlDatum} {cfgs : List SecretConfig}
    (h : parseSecretList i entries = .ok cfgs) :
    cfgs.length = entries.length ∧ ∀ cfg ∈ cfgs, cfg.Admitted := by
  induction entries generalizing i cfgs with
  | nil =>
    obtain rfl : [] = cfgs := Except.ok.inj h
    exact ⟨rfl, by simp⟩
  | cons entry entries ih =>
    obtain ⟨cfg, hcfg, h⟩ := bind_ok_iff.mp h
    obtain ⟨rest, hrest, h⟩ := bind_ok_iff.mp h
    obtain rfl := Except.ok.inj h
    obtain ⟨hlen, hall⟩ := ih hrest
    refine ⟨by simp [hlen], fun c hc => ?_⟩
    rcases List.mem_cons.mp hc with rfl | hc
    · exact parseSecret_admitted hcfg
    · exact hall c hc

/-- **What the loader admits**: at most sixteen secrets, each of them admitted.  Nothing is asked
of two of them together. -/
theorem parseSecrets_admitted {toptab : TomlDatum} {cfgs : List SecretConfig}
    (h : parseSecrets toptab = .ok cfgs) :
    cfgs.length ≤ TOML_CONFIG_MAX_SECRETS ∧ ∀ cfg ∈ cfgs, cfg.Admitted := by
  unfold parseSecrets at h
  split at h
  · obtain rfl : [] = cfgs := Except.ok.inj h
    exact ⟨Nat.zero_le _, by simp⟩
  · split_ifs at h with hmany
    obtain ⟨hlen, hall⟩ := parseSecretList_admitted h
    exact ⟨hlen ▸ not_lt.mp hmany, hall⟩
  · simp at h

/-! ### The text of an error -/

/-- An error is one in the secret of index `i`. -/
def NamesSecret {α : Type*} (i : ℕ) (r : Except Bytes α) : Prop :=
  ∀ e, r = .error e → ∃ text, e = secretError i text

section Names

variable {α β : Type*} {i : ℕ}

theorem NamesSecret.ok (a : α) : NamesSecret i (.ok a) := by
  intro e h
  simp at h

theorem NamesSecret.error (text : Bytes) :
    NamesSecret i (.error (secretError i text) : Except Bytes α) :=
  fun _ h => ⟨text, (Except.error.inj h).symm⟩

theorem NamesSecret.bind {r : Except Bytes α} {f : α → Except Bytes β} (hr : NamesSecret i r)
    (hf : ∀ a, NamesSecret i (f a)) : NamesSecret i (r.bind f) := by
  intro e h
  rcases bind_error_iff.mp h with h | ⟨a, -, h⟩
  · exact hr e h
  · exact hf a e h

theorem secretKey_names (d : TomlDatum) : NamesSecret i (secretKey i d) := by
  unfold secretKey
  split
  · split
    · exact .ok _
    · exact .error _
  · exact .error _

theorem secretLabel_names (d : TomlDatum) : NamesSecret i (secretLabel i d) := by
  unfold secretLabel
  split
  · dsimp only
    split_ifs
    · exact .error _
    · exact .error _
    · exact .ok _
  · exact .ok _

theorem secretNumber_names (name : Bytes) (d : TomlDatum) :
    NamesSecret i (secretNumber i name d) := by
  unfold secretNumber
  split
  · split_ifs
    · exact .error _
    · exact .ok _
  · exact .ok _

theorem secretBytes_names (name : Bytes) (d : TomlDatum) :
    NamesSecret i (secretBytes i name d) := by
  unfold secretBytes
  split
  · split_ifs
    · exact .error _
    · exact .ok _
  · exact secretNumber_names name d

theorem secretExpires_names (d : TomlDatum) : NamesSecret i (secretExpires i d) := by
  unfold secretExpires
  split
  · exact .ok _
  · exact .ok _
  · exact secretNumber_names _ d

end Names

/-- **The text of an error in a secret names the secret.** -/
theorem parseSecret_names (i : ℕ) (entry : TomlDatum) : NamesSecret i (parseSecret i entry) := by
  unfold parseSecret
  split
  · refine (secretKey_names _).bind fun key => ?_
    refine (secretLabel_names _).bind fun label => ?_
    refine (secretNumber_names _ _).bind fun limit => ?_
    refine (secretBytes_names _ _).bind fun quota => ?_
    refine (secretBytes_names _ _).bind fun rateLimit => ?_
    refine (secretNumber_names _ _).bind fun maxIps => ?_
    exact (secretExpires_names _).bind fun expires => .ok _
  · exact .error _

end Server
end Teleproto3
