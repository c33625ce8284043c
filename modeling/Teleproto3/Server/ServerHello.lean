/-
# The size of the ServerHello

What the proxy sends for a ServerHello is as long as what the upstream server sends: `check_domain`
probes it `TRIES` times and stores the size of its encrypted records in a `short` of `domain_info`,
`get_domain_server_hello_encrypted_size` adds noise, and `tcp_rpcs_compact_parse_execute` builds the
ServerHello with that many encrypted bytes and their number in two bytes.

All of this fits together exactly if the aggregated size is a `short` (`helloSized_iff`), which it
is not for a server whose records add up to more than 32767 bytes.
-/

import Mathlib.Algebra.Order.BigOperators.Group.List
import Teleproto3.Lib.Bytes
import Teleproto3.Lib.Selection
import Teleproto3.Server.TlsParse

namespace Teleproto3
namespace Server

open Lib

/-! ### Probes -/

/-- A probe whose answer `tls_check_server_hello` admits; `sizes` is what stood in
`probe_record_sizes` before. -/
structure AdmittedProbe where
  response : Buffer
  requestSessionId : SessionId
  sizes : RecordSizes
  out : HelloOut
  admitted : tlsCheckServerHello response requestSessionId (-1) sizes.cells = .ok out

/-- `total_encrypted`: the sizes of the records that are kept. -/
def AdmittedProbe.total (p : AdmittedProbe) : ℤ :=
  (p.out.sizes.take (min p.out.count MAX_ENCRYPTED_RECORDS)).sum

/-- `TRIES`. -/
def TRIES : ℕ := 20

/-- All the probes of a domain. -/
structure Probes where
  probes : List AdmittedProbe
  length_eq : probes.length = TRIES

/-- `all_total_encrypted`. -/
def Probes.totals (p : Probes) : List ℤ := p.probes.map AdmittedProbe.total

/-- `encrypted_size_min`, `encrypted_size_max` and `encrypted_size_sum`. -/
structure EncryptedRange where
  min : ℤ
  max : ℤ
  sum : ℤ

/-- One turn of the loop over the totals. -/
def rangeTurn (r : EncryptedRange) (n : ℤ) : EncryptedRange :=
  { min := if n < r.min then n else r.min
    max := if n > r.max then n else r.max
    sum := r.sum + n }

/-- What the totals come to. -/
def encryptedRange : List ℤ → EncryptedRange
  | [] => { min := 0, max := 0, sum := 0 }
  | n :: rest => rest.foldl rangeTurn { min := n, max := n, sum := n }

/-- The size that is aggregated.  The mean of the last branch is rounded in `double`s: a quotient by
20 that is no half is at least a twentieth away from one, so nothing is lost there. -/
def aggregatedSize (r : EncryptedRange) : ℤ :=
  if r.min = r.max then r.min
  else if r.max - r.min ≤ 3 then r.max - 1
  else (r.sum + TRIES / 2) / TRIES

/-- What `domain_info` keeps of the answers of its server. -/
structure HelloInfo where
  serverHelloEncryptedSize : ℤ
  useRandomEncryptedSize : Bool
  isReversedExtensionOrder : ℤ

/-- `is_reversed_extension_order_min`. -/
def reversedMin : List ℤ → ℤ
  | [] => 0
  | n :: rest => rest.foldl (fun least n => if n < least then n else least) n

/-- `check_domain`, once all probes are finished: the size is stored in a `short`. -/
def checkDomain (p : Probes) : HelloInfo :=
  { serverHelloEncryptedSize := wrap16 (aggregatedSize (encryptedRange p.totals))
    useRandomEncryptedSize :=
      (encryptedRange p.totals).min ≠ (encryptedRange p.totals).max
    isReversedExtensionOrder := reversedMin (p.probes.map fun q => q.out.isReversed) }

/-- `get_domain_server_hello_encrypted_size`, with what `rand` returns. -/
def getDomainServerHelloEncryptedSize (info : HelloInfo) (rand : ℕ) : ℤ :=
  if info.useRandomEncryptedSize then
    max 1000 (info.serverHelloEncryptedSize + (((rand % 65 : ℕ) : ℤ) - 32))
  else info.serverHelloEncryptedSize

/-! ### Building it -/

/-- The `assert`s of the construction. -/
inductive HelloAssert
  | keyShare
  | supportedVersions
  | otherExtension
  | position
  | size

/-- What the construction takes from its surroundings: `RAND_bytes`, `generate_public_key` and
`sha256_hmac` under the key of the secret. -/
structure HelloSources where
  randBytes : ℕ → Bytes
  randBytes_length : ∀ n, (randBytes n).length = n
  publicKey : Bytes
  publicKey_length : publicKey.length = 32
  hmac : Bytes → Bytes
  hmac_length : ∀ bs, (hmac bs).length = 32

/-- `pos`, and what has been written in front of it. -/
structure HelloWriter where
  pos : ℤ
  bytes : Bytes

/-- `tls_server_extensions`, in its order. -/
def tlsServerExtensions (info : HelloInfo) : List ℤ :=
  if info.isReversedExtensionOrder ≠ 0 then [0x2b, 0x33] else [0x33, 0x2b]

/-- One turn of the loop over the extensions. -/
def putExtension (src : HelloSources) (responseSize : ℤ) (w : HelloWriter) (extension : ℤ) :
    Except HelloAssert HelloWriter :=
  if extension = 0x33 then
    if w.pos + 40 ≤ responseSize then
      .ok
        { pos := w.pos + 40
          bytes := w.bytes ++ [0x00, 0x33, 0x00, 0x24, 0x00, 0x1d, 0x00, 0x20] ++ src.publicKey }
    else .error .keyShare
  else if extension = 0x2b then
    if w.pos + 5 ≤ responseSize then
      .ok
        { pos := w.pos + 6
          bytes := w.bytes ++ [0x00, 0x2b, 0x00, 0x02, 0x03, 0x04] }
    else .error .supportedVersions
  else .error .otherExtension

/-- The ServerHello up to its extensions, with a random of zeros. -/
def helloFront (clientSessionId : SessionId) (cipherSuiteId : UInt8) : Bytes :=
  [0x16, 0x03, 0x03, 0x00, 0x7a, 0x02, 0x00, 0x00, 0x76, 0x03, 0x03] ++ List.replicate 32 0 ++
  [0x20] ++ clientSessionId.bytes ++ [0x13, cipherSuiteId, 0x00, 0x00, 0x2e]

/-- What stands in front of the encrypted bytes: the dummy ChangeCipherSpec, and the header of the
record with their number in two bytes. -/
def encryptedHeader (encryptedSize : ℤ) : Bytes :=
  [0x14, 0x03, 0x03, 0x00, 0x01, 0x01, 0x17, 0x03, 0x03] ++
  [UInt8.ofInt (encryptedSize.tdiv 256), UInt8.ofInt (encryptedSize.tmod 256)]

/-- The construction of the ServerHello: the two messages that are sent. -/
def buildServerHello (src : HelloSources) (info : HelloInfo) (clientRandom : Bytes)
    (clientSessionId : SessionId) (cipherSuiteId : UInt8) (rand : ℕ) :
    Except HelloAssert (Bytes × Bytes) :=
  let encryptedSize := getDomainServerHelloEncryptedSize info rand
  let responseSize := 127 + 6 + 5 + encryptedSize
  ((tlsServerExtensions info).foldlM (putExtension src responseSize)
    { pos := 81, bytes := helloFront clientSessionId cipherSuiteId }).bind fun w =>
  if w.pos ≠ 127 then .error .position else
  if w.pos + 9 + 2 + encryptedSize ≠ responseSize then .error .size else
  let response := w.bytes ++ encryptedHeader encryptedSize ++ src.randBytes encryptedSize.toNat
  let signed := response.take 11 ++ src.hmac (clientRandom ++ response) ++ response.drop 43
  .ok (signed.take 127, signed.drop 127)

/-! ### The totals -/

/-- The least and the greatest of some totals, and their sum. -/
structure RangeOf (totals : List ℤ) (r : EncryptedRange) : Prop where
  min_mem : r.min ∈ totals
  min_le : ∀ n ∈ totals, r.min ≤ n
  max_mem : r.max ∈ totals
  le_max : ∀ n ∈ totals, n ≤ r.max
  sum_eq : r.sum = totals.sum

/-- Some totals have one range only. -/
theorem RangeOf.unique {totals : List ℤ} {r r' : EncryptedRange} (h : RangeOf totals r)
    (h' : RangeOf totals r') : r = r' := by
  have hmin := le_antisymm (h.min_le _ h'.min_mem) (h'.min_le _ h.min_mem)
  have hmax := le_antisymm (h'.le_max _ h.max_mem) (h.le_max _ h'.max_mem)
  have hsum := h.sum_eq.trans h'.sum_eq.symm
  cases r
  cases r'
  dsimp only at hmin hmax hsum
  rw [hmin, hmax, hsum]

/-- One total more. -/
theorem RangeOf.turn {totals : List ℤ} {r : EncryptedRange} (h : RangeOf totals r) (n : ℤ) :
    RangeOf (totals ++ [n]) (rangeTurn r n) := by
  have hmin : (rangeTurn r n).min = min r.min n := by
    unfold rangeTurn
    dsimp only
    split_ifs <;> omega
  have hmax : (rangeTurn r n).max = max r.max n := by
    unfold rangeTurn
    dsimp only
    split_ifs <;> omega
  constructor
  · rw [hmin, List.mem_append, List.mem_singleton]
    rcases min_choice r.min n with heq | heq
    · exact Or.inl (heq.symm ▸ h.min_mem)
    · exact Or.inr heq
  · intro m hm
    rw [List.mem_append, List.mem_singleton] at hm
    rw [hmin]
    rcases hm with hm | rfl
    · exact (min_le_left _ _).trans (h.min_le m hm)
    · exact min_le_right _ _
  · rw [hmax, List.mem_append, List.mem_singleton]
    rcases max_choice r.max n with heq | heq
    · exact Or.inl (heq.symm ▸ h.max_mem)
    · exact Or.inr heq
  · intro m hm
    rw [List.mem_append, List.mem_singleton] at hm
    rw [hmax]
    rcases hm with hm | rfl
    · exact (h.le_max m hm).trans (le_max_left _ _)
    · exact le_max_right _ _
  · simp [rangeTurn, h.sum_eq]

/-- **What the loop over the totals comes to.** -/
theorem rangeOf_encryptedRange {totals : List ℤ} (hne : totals ≠ []) :
    RangeOf totals (encryptedRange totals) := by
  cases totals with
  | nil => exact absurd rfl hne
  | cons n rest =>
    have hfirst : RangeOf [n] { min := n, max := n, sum := n } := by
      constructor <;> simp
    exact found_foldl RangeOf.turn hfirst rest

/-- **A probe that is admitted has a size above zero.** -/
theorem AdmittedProbe.total_pos (p : AdmittedProbe) : 0 < p.total := by
  obtain ⟨⟨hlength, hall⟩, hcount⟩ := tlsCheckServerHello_ok p.admitted
  have hcells : 0 < MAX_ENCRYPTED_RECORDS := by decide
  refine List.sum_pos _ (fun n hn => ?_) ?_
  · rw [min_comm, ← List.take_take] at hn
    exact (hall n (List.mem_of_mem_take hn)).1
  · intro hnil
    have hzero := congrArg List.length hnil
    rw [List.length_take, hlength, List.length_nil] at hzero
    omega

/-! ### Sizes that fit -/

/-- **The totals of the probes agree, or are rounded, to a `short`.** -/
def SizesFit (totals : List ℤ) : Prop :=
  ∀ r, RangeOf totals r →
    if r.min = r.max then r.max ≤ 32767
    else if r.max - r.min ≤ 3 then r.max ≤ 32768
    else r.sum < 655350

theorem Probes.totals_length (p : Probes) : p.totals.length = TRIES := by
  unfold Probes.totals
  rw [List.length_map, p.length_eq]

theorem Probes.totals_pos (p : Probes) : ∀ n ∈ p.totals, 0 < n := by
  intro n hn
  obtain ⟨q, -, rfl⟩ := List.mem_map.mp hn
  exact q.total_pos

/-- What the probes of a domain come to. -/
theorem Probes.rangeOf (p : Probes) : RangeOf p.totals (encryptedRange p.totals) := by
  refine rangeOf_encryptedRange fun hnil => ?_
  have hlength := p.totals_length
  rw [hnil] at hlength
  exact absurd hlength (by decide)

/-- **The aggregated size is above zero**, and a `short` exactly if the totals come to one. -/
theorem aggregatedSize_iff (p : Probes) :
    0 < aggregatedSize (encryptedRange p.totals) ∧
      (aggregatedSize (encryptedRange p.totals) < 2 ^ 15 ↔ SizesFit p.totals) := by
  have hrange := p.rangeOf
  have hmin := p.totals_pos _ hrange.min_mem
  have hle := hrange.min_le _ hrange.max_mem
  have hsum : (TRIES : ℤ) ≤ (encryptedRange p.totals).sum := by
    have hcard := List.card_nsmul_le_sum p.totals 1 fun n hn => p.totals_pos n hn
    rw [p.totals_length] at hcard
    rw [hrange.sum_eq]
    simpa using hcard
  have hfits : SizesFit p.totals ↔
      if (encryptedRange p.totals).min = (encryptedRange p.totals).max then
        (encryptedRange p.totals).max ≤ 32767
      else if (encryptedRange p.totals).max - (encryptedRange p.totals).min ≤ 3 then
        (encryptedRange p.totals).max ≤ 32768
      else (encryptedRange p.totals).sum < 655350 := by
    constructor
    · intro h
      exact h _ hrange
    · intro h r hr
      rw [hr.unique hrange]
      exact h
  rw [hfits]
  unfold aggregatedSize TRIES at *
  push_cast at *
  constructor
  · split_ifs <;> omega
  · split_ifs <;> omega

/-- A size that is a `short` above zero stays one that two bytes can say, whatever the noise. -/
theorem encryptedSize_bounds {info : HelloInfo} (h0 : 0 < info.serverHelloEncryptedSize)
    (h : info.serverHelloEncryptedSize < 2 ^ 15) (rand : ℕ) :
    0 < getDomainServerHelloEncryptedSize info rand ∧
      getDomainServerHelloEncryptedSize info rand < 2 ^ 16 := by
  have hnoise : rand % 65 < 65 := Nat.mod_lt _ (by decide)
  unfold getDomainServerHelloEncryptedSize
  split_ifs <;> omega

/-! ### The construction -/

/-- **What the construction is to put out**: a first message of 127 bytes, and a second one whose
record has as many encrypted bytes as its two length bytes say. -/
structure HelloBuilt (src : HelloSources) (size : ℤ) (m : Bytes × Bytes) : Prop where
  first : m.1.length = 127
  second : m.2 = [0x14, 0x03, 0x03, 0x00, 0x01, 0x01, 0x17, 0x03, 0x03] ++
    beBytes 2 size.toNat ++ src.randBytes size.toNat
  length_bytes : beValue (beBytes 2 size.toNat) = size

theorem putExtension_keyShare (src : HelloSources) {responseSize pos : ℤ} (bytes : Bytes)
    (h : pos + 40 ≤ responseSize) :
    putExtension src responseSize { pos := pos, bytes := bytes } 0x33 = .ok
      { pos := pos + 40
        bytes := bytes ++ [0x00, 0x33, 0x00, 0x24, 0x00, 0x1d, 0x00, 0x20] ++ src.publicKey } := by
  unfold putExtension
  rw [if_pos rfl, if_pos h]

theorem putExtension_versions (src : HelloSources) {responseSize pos : ℤ} (bytes : Bytes)
    (h : pos + 5 ≤ responseSize) :
    putExtension src responseSize { pos := pos, bytes := bytes } 0x2b = .ok
      { pos := pos + 6
        bytes := bytes ++ [0x00, 0x2b, 0x00, 0x02, 0x03, 0x04] } := by
  unfold putExtension
  rw [if_neg (by decide), if_pos rfl, if_pos h]

/-- The two extensions take up 46 bytes, in either order. -/
theorem putExtensions_ok (src : HelloSources) (info : HelloInfo) {size : ℤ} (h : 0 < size)
    (front : Bytes) :
    ∃ exts, exts.length = 46 ∧
      (tlsServerExtensions info).foldlM (putExtension src (127 + 6 + 5 + size))
        { pos := 81, bytes := front } = .ok { pos := 127, bytes := front ++ exts } := by
  have hkey := src.publicKey_length
  unfold tlsServerExtensions
  by_cases hreversed : info.isReversedExtensionOrder ≠ 0
  · have hfirst : (81 : ℤ) + 5 ≤ 127 + 6 + 5 + size := by omega
    have hsecond : (81 : ℤ) + 6 + 40 ≤ 127 + 6 + 5 + size := by omega
    have hversions := putExtension_versions src front hfirst
    have hshare (bytes : Bytes) := putExtension_keyShare src bytes hsecond
    refine ⟨[0x00, 0x2b, 0x00, 0x02, 0x03, 0x04] ++
      ([0x00, 0x33, 0x00, 0x24, 0x00, 0x1d, 0x00, 0x20] ++ src.publicKey), by simp [hkey], ?_⟩
    rw [if_pos hreversed]
    simp only [List.foldlM_cons, List.foldlM_nil, bind, pure, Except.pure, hversions, ok_bind,
      hshare, List.append_assoc]
    rfl
  · have hfirst : (81 : ℤ) + 40 ≤ 127 + 6 + 5 + size := by omega
    have hsecond : (81 : ℤ) + 40 + 5 ≤ 127 + 6 + 5 + size := by omega
    have hshare := putExtension_keyShare src front hfirst
    have hversions (bytes : Bytes) := putExtension_versions src bytes hsecond
    refine ⟨[0x00, 0x33, 0x00, 0x24, 0x00, 0x1d, 0x00, 0x20] ++ (src.publicKey ++
      [0x00, 0x2b, 0x00, 0x02, 0x03, 0x04]), by simp [hkey], ?_⟩
    rw [if_neg hreversed]
    simp only [List.foldlM_cons, List.foldlM_nil, bind, pure, Except.pure, hshare, ok_bind,
      hversions, List.append_assoc]
    rfl

/-- A byte of a number that is not negative. -/
theorem ofInt_natCast (n : ℕ) : UInt8.ofInt (n : ℤ) = UInt8.ofNat n := by
  unfold UInt8.ofInt
  refine UInt8.toNat.inj ?_
  rw [UInt8.toNat_ofNat', UInt8.toNat_ofNat']
  omega

/-- The two length bytes spell the size. -/
theorem encryptedHeader_eq {size : ℤ} (h0 : 0 < size) :
    encryptedHeader size =
      [0x14, 0x03, 0x03, 0x00, 0x01, 0x01, 0x17, 0x03, 0x03] ++ beBytes 2 size.toNat := by
  obtain ⟨n, rfl⟩ := Int.eq_ofNat_of_zero_le h0.le
  have hhi : UInt8.ofInt ((n : ℤ).tdiv 256) = UInt8.ofNat (n / 256) := ofInt_natCast _
  have hlo : UInt8.ofInt ((n : ℤ).tmod 256) = UInt8.ofNat n := by
    have hmod : UInt8.ofInt ((n : ℤ).tmod 256) = UInt8.ofNat (n % 256) := ofInt_natCast _
    rw [hmod]
    refine UInt8.toNat.inj ?_
    rw [UInt8.toNat_ofNat', UInt8.toNat_ofNat', Nat.mod_mod]
  unfold encryptedHeader
  rw [hhi, hlo]
  rfl

/-- Where the random of the ServerHello is put in, the rest stays as it is. -/
theorem signed_split {body random : Bytes} (rest : Bytes) (hbody : body.length = 127)
    (hrandom : random.length = 32) :
    ((body ++ rest).take 11 ++ random ++ (body ++ rest).drop 43).take 127 =
        body.take 11 ++ random ++ body.drop 43 ∧
      ((body ++ rest).take 11 ++ random ++ (body ++ rest).drop 43).drop 127 = rest := by
  have hfirst : (body.take 11 ++ random ++ body.drop 43).length = 127 := by
    simp only [List.length_append, List.length_take, List.length_drop]
    omega
  have htake : (body ++ rest).take 11 = body.take 11 := List.take_append_of_le_length (by omega)
  have hdrop : (body ++ rest).drop 43 = body.drop 43 ++ rest :=
    List.drop_append_of_le_length (by omega)
  rw [htake, hdrop, ← List.append_assoc]
  exact ⟨List.take_left' hfirst, List.drop_left' hfirst⟩

theorem helloFront_length (clientSessionId : SessionId) (cipherSuiteId : UInt8) :
    (helloFront clientSessionId cipherSuiteId).length = 81 := by
  have hsession := clientSessionId.length_eq
  simp [helloFront, hsession]

/-- **The assertions of the construction hold** for a size above zero that two bytes can say. -/
theorem buildServerHello_ok (src : HelloSources) {info : HelloInfo} {rand : ℕ}
    (clientRandom : Bytes) (clientSessionId : SessionId) (cipherSuiteId : UInt8)
    (h0 : 0 < getDomainServerHelloEncryptedSize info rand)
    (h : getDomainServerHelloEncryptedSize info rand < 2 ^ 16) :
    ∃ m, buildServerHello src info clientRandom clientSessionId cipherSuiteId rand = .ok m ∧
      HelloBuilt src (getDomainServerHelloEncryptedSize info rand) m := by
  obtain ⟨exts, hexts, hput⟩ := putExtensions_ok src info h0
    (helloFront clientSessionId cipherSuiteId)
  have hbody : (helloFront clientSessionId cipherSuiteId ++ exts).length = 127 := by
    rw [List.length_append, helloFront_length, hexts]
  unfold buildServerHello
  generalize getDomainServerHelloEncryptedSize info rand = size at h0 h hput
  generalize helloFront clientSessionId cipherSuiteId ++ exts = body at hput hbody
  dsimp only
  rw [hput, ok_bind, if_neg (not_not.mpr rfl), if_neg (by dsimp only; omega)]
  dsimp only
  rw [List.append_assoc body]
  generalize hrest : encryptedHeader size ++ src.randBytes size.toNat = rest
  have hrandom := src.hmac_length (clientRandom ++ (body ++ rest))
  obtain ⟨hfirst, hsecond⟩ := signed_split rest hbody hrandom
  rw [hfirst, hsecond]
  refine ⟨_, rfl, ?_, ?_, ?_⟩
  · simp only [List.length_append, List.length_take, List.length_drop, hrandom]
    omega
  · rw [← hrest, encryptedHeader_eq h0]
  · rw [beValue_beBytes _ _ (by omega)]
    omega

/-! ### The sizes of a domain -/

/-- **The sizes of a domain agree**: what is stored is what was aggregated; what is sent is above
zero and fits two bytes; and the ServerHello is built, with the size in its length bytes. -/
structure HelloSized (p : Probes) : Prop where
  stored : (checkDomain p).serverHelloEncryptedSize = aggregatedSize (encryptedRange p.totals)
  size : ∀ rand, 0 < getDomainServerHelloEncryptedSize (checkDomain p) rand ∧
    getDomainServerHelloEncryptedSize (checkDomain p) rand < 2 ^ 16
  built : ∀ src clientRandom clientSessionId cipherSuiteId rand, ∃ m,
    buildServerHello src (checkDomain p) clientRandom clientSessionId cipherSuiteId rand = .ok m ∧
      HelloBuilt src (getDomainServerHelloEncryptedSize (checkDomain p) rand) m

/-- **The sizes of a domain agree exactly if the totals of its probes come to a `short`**: for every
answer of the server to each of the probes that is admitted. -/
theorem helloSized_iff (p : Probes) : HelloSized p ↔ SizesFit p.totals := by
  obtain ⟨h0, hiff⟩ := aggregatedSize_iff p
  rw [← hiff]
  constructor
  · intro h
    exact (wrap16_eq_iff.mp h.stored).2
  · intro h
    have hstored : (checkDomain p).serverHelloEncryptedSize =
        aggregatedSize (encryptedRange p.totals) := wrap16_eq_iff.mpr ⟨by omega, h⟩
    have hlow : 0 < (checkDomain p).serverHelloEncryptedSize := by omega
    have hhigh : (checkDomain p).serverHelloEncryptedSize < 2 ^ 15 := by omega
    have hsize := encryptedSize_bounds hlow hhigh
    exact ⟨hstored, hsize, fun src clientRandom clientSessionId cipherSuiteId rand =>
      buildServerHello_ok src clientRandom clientSessionId cipherSuiteId (hsize rand).1
        (hsize rand).2⟩

/-! ### A server with large records -/

section Sample

/-- An encrypted record of zeros. -/
def recordBytes (n : ℕ) : Bytes :=
  recordHead ++ [UInt8.ofNat (n / 256), UInt8.ofNat n] ++ List.replicate n 0

theorem recordBytes_length (n : ℕ) : (recordBytes n).length = n + 5 := by
  simp [recordBytes, recordHead]

/-- A turn over a record of so many bytes. -/
theorem recordStage_accepts {b : Buffer} {p t : Bytes} {n : ℕ}
    (hb : b.bytes = p ++ (recordBytes n ++ t)) (h0 : 0 < n) (hn : n < 2 ^ 16) {sizes : List ℤ}
    {count : ℕ} (hcount : count < MAX_ENCRYPTED_RECORDS) (hcells : count < sizes.length) :
    recordStage b { pos := p.length, sizes := sizes, count := count } = .ok (.again
      { pos := p.length + 5 + n, sizes := sizes.set count n, count := count + 1 }) := by
  have hlt := b.len_lt
  have hlen : b.len = p.length + (n + 5) + t.length := by
    unfold Buffer.len
    rw [hb, List.length_append, List.length_append, recordBytes_length]
    push_cast
    omega
  have hspan : b.span p.length 3 = recordHead := by
    unfold Buffer.span
    rw [hb, Int.toNat_natCast, List.drop_left]
    rfl
  have hlength : lengthAt b (p.length + 3) = n := by
    have hhi : b.byteAt (p.length + 3) = UInt8.ofNat (n / 256) :=
      Buffer.byteAt_append_right hb 3
    have hlo : b.byteAt (p.length + 3 + 1) = UInt8.ofNat n := by
      rw [add_assoc]
      exact Buffer.byteAt_append_right hb 4
    unfold lengthAt
    rw [hhi, hlo, UInt8.toNat_ofNat', UInt8.toNat_ofNat']
    omega
  rw [recordStage_inside (by dsimp only; omega) (by dsimp only; omega)]
  dsimp only
  rw [hspan, if_neg (not_not.mpr rfl), hlength, wrap32_of_fits (by omega) (by omega),
    if_neg (by omega), keepSize, if_pos hcount, writeCell, if_pos hcells, ok_bind]

/-- An answer with two records of the largest size. -/
def largeAnswerBytes : Bytes := sampleAnswer ++ (recordBytes 16640 ++ (recordBytes 16640 ++ []))

theorem largeAnswerBytes_length : largeAnswerBytes.length = 33423 := by
  simp [largeAnswerBytes, sampleAnswer_length, recordBytes_length]

theorem largeAnswerBytes_lt : largeAnswerBytes.length < 2 ^ 31 := by
  rw [largeAnswerBytes_length]
  decide

/-- An answer with two records of the largest size, in its buffer. -/
def largeAnswer : Buffer := ⟨largeAnswerBytes, largeAnswerBytes_lt⟩

/-- The sizes of its records. -/
def largeSizes : List ℤ := [16640, 16640, 0, 0, 0, 0, 0, 0]

theorem largeAnswer_first :
    recordStage largeAnswer { pos := 133, sizes := sampleSizes.cells, count := 0 } = .ok (.again
      { pos := 16778, sizes := sampleSizes.cells.set 0 16640, count := 1 }) := by
  have hcells : 0 < sampleSizes.cells.length := by decide
  have hstage := recordStage_accepts (b := largeAnswer) (p := sampleAnswer) (n := 16640)
    (t := recordBytes 16640 ++ []) rfl (by decide) (by decide) (by decide) hcells
  rw [sampleAnswer_length] at hstage
  exact hstage

theorem largeAnswer_second :
    recordStage largeAnswer
      { pos := 16778, sizes := sampleSizes.cells.set 0 16640, count := 1 } = .ok (.again
        { pos := 33423, sizes := largeSizes, count := 2 }) := by
  have hcells : 1 < (sampleSizes.cells.set 0 16640).length := by decide
  have hstage := recordStage_accepts (b := largeAnswer) (p := sampleAnswer ++ recordBytes 16640)
    (n := 16640) (t := []) (List.append_assoc _ _ _).symm (by decide) (by decide) (by decide) hcells
  rw [List.length_append, sampleAnswer_length, recordBytes_length] at hstage
  exact hstage

theorem largeAnswer_admitted :
    tlsCheckServerHello largeAnswer sampleSession (-1) sampleSizes.cells =
      .ok { isReversed := 0, sizes := largeSizes, count := 2 } := by
  have hlen : largeAnswer.len = 33423 := congrArg Nat.cast largeAnswerBytes_length
  have hlast : Turn.ofStage (recordStage largeAnswer
      { pos := 33423, sizes := largeSizes, count := 2 }) =
        .done (.ok { pos := 33423, sizes := largeSizes, count := 2 }) := by
    rw [recordStage_end (by decide) (by decide) (by dsimp only; omega)]
    rfl
  unfold tlsCheckServerHello
  rw [helloStart_sample (b := largeAnswer) rfl, ok_bind]
  dsimp only
  have hloop := recordStage_shrinks largeAnswer
  rw [loop_of_again hloop (Turn.ofStage_eq_again.mpr largeAnswer_first),
    loop_of_again hloop (Turn.ofStage_eq_again.mpr largeAnswer_second)]
  rw [loop_of_done hloop hlast, ok_bind]
  rfl

/-- A probe that gets this answer. -/
def largeProbe : AdmittedProbe where
  response := largeAnswer
  requestSessionId := sampleSession
  sizes := sampleSizes
  out := { isReversed := 0, sizes := largeSizes, count := 2 }
  admitted := largeAnswer_admitted

theorem largeProbes_length : (List.replicate TRIES largeProbe).length = TRIES := by simp

/-- Twenty such probes. -/
def largeProbes : Probes := ⟨List.replicate TRIES largeProbe, largeProbes_length⟩

/-- A server that sends two records of 16640 bytes gets a negative size in `domain_info`. -/
theorem helloSized_large : ¬ HelloSized largeProbes := by
  have htotals : largeProbes.totals = List.replicate TRIES 33280 := by
    unfold Probes.totals largeProbes
    rw [List.map_replicate]
    rfl
  intro h
  have hstored := h.stored
  unfold checkDomain at hstored
  rw [htotals] at hstored
  exact absurd hstored (by decide +kernel)

end Sample

end Server
end Teleproto3
