/-
# The parsers of TLS messages

`net-tls-parse.c`: what an upstream server answers a probe with (`tls_check_server_hello`), and the
name and the cipher suite in the ClientHello of a client (`tls_parse_sni`,
`tls_parse_client_hello_ciphers`).  Lengths of 16 bits come from the other side; each is checked
against the end of the buffer, as an `int` sum.

Every read and every write is a stage that fails outside of its buffer (`Lib.Access`).  A walk over
records or extensions leaves the buffer exactly if such a sum passes the largest `int`
(`tlsParsers_inBounds_iff`), which needs a buffer of nearly `2 ^ 31` bytes.
-/

import Teleproto3.Lib.Access
import Teleproto3.Lib.Word32

namespace Teleproto3
namespace Server

open Lib

/-! ### Lengths -/

/-- `tls_read_length`: the length that stands at a position, and the position behind it.  The two
bytes it reads once `*pos` is past them are those at the position and behind it. -/
def tlsReadLength {ε : Type*} (data : Buffer) (pos : ℤ) : Except (Exit ε) (ℤ × ℤ) :=
  (readByte data pos).bind fun hi =>
    (readByte data (wrap32 (pos + 1))).bind fun lo =>
      .ok (hi.toNat * 256 + lo.toNat, wrap32 (pos + 2))

/-- The length that stands at a position of a buffer. -/
def lengthAt (b : Buffer) (pos : ℤ) : ℤ :=
  (b.byteAt pos).toNat * 256 + (b.byteAt (pos + 1)).toNat

theorem lengthAt_nonneg (b : Buffer) (pos : ℤ) : 0 ≤ lengthAt b pos := by
  unfold lengthAt
  omega

theorem lengthAt_lt (b : Buffer) (pos : ℤ) : lengthAt b pos < 2 ^ 16 := by
  have hhi := (b.byteAt pos).toNat_lt
  have hlo := (b.byteAt (pos + 1)).toNat_lt
  unfold lengthAt
  omega

section Lengths

variable {ε : Type*} {b : Buffer} {pos : ℤ}

theorem tlsReadLength_inside (h0 : 0 ≤ pos) (h : pos + 2 ≤ b.len) :
    (tlsReadLength b pos : Except (Exit ε) (ℤ × ℤ)) = .ok (lengthAt b pos, pos + 2) := by
  have hlen := b.len_lt
  unfold tlsReadLength
  rw [readByte_inside h0 (by omega), wrap32_of_fits (by omega) (by omega),
    wrap32_of_fits (by omega) (by omega)]
  simp only [Except.bind]
  rw [readByte_inside (by omega) (by omega)]
  rfl

theorem tlsReadLength_outside (hint : pos < 2 ^ 31) (h : ¬ (0 ≤ pos ∧ pos + 2 ≤ b.len)) :
    (tlsReadLength b pos : Except (Exit ε) (ℤ × ℤ)) = .error .readOutside := by
  unfold tlsReadLength
  by_cases hfirst : 0 ≤ pos ∧ pos < b.len
  · have hlast : ¬ (0 ≤ wrap32 (pos + 1) ∧ wrap32 (pos + 1) < b.len) := by
      rcases wrap32_cases (x := pos + 1) (by omega) (by omega) with ⟨-, heq⟩ | ⟨-, heq⟩
      · omega
      · omega
    rw [readByte_inside hfirst.1 hfirst.2]
    simp only [Except.bind]
    rw [readByte_outside hlast]
  · rw [readByte_outside hfirst]
    rfl

/-- Where a length has been read. -/
theorem tlsReadLength_ok {r : ℤ × ℤ}
    (h : (tlsReadLength b pos : Except (Exit ε) (ℤ × ℤ)) = .ok r) :
    0 ≤ pos ∧ pos + 2 ≤ b.len ∧ r = (lengthAt b pos, pos + 2) := by
  have hlen := b.len_lt
  have hpos : 0 ≤ pos ∧ pos < b.len := by
    by_contra hnot
    unfold tlsReadLength at h
    rw [readByte_outside hnot] at h
    cases h
  by_cases hinside : 0 ≤ pos ∧ pos + 2 ≤ b.len
  · rw [tlsReadLength_inside hinside.1 hinside.2] at h
    exact ⟨hinside.1, hinside.2, (Except.ok.inj h).symm⟩
  · rw [tlsReadLength_outside (by omega) hinside] at h
    cases h

end Lengths

/-- `CHECK_LENGTH`. -/
def checkLength {ε : Type*} (b : Buffer) (pos length : ℤ) (e : ε) : Except (Exit ε) Unit :=
  if wrap32 (pos + length) > b.len then .error (.returned e) else .ok ()

/-- `EXPECT_STR`. -/
def expectStr {ε : Type*} (b : Buffer) (pos : ℤ) (str : Bytes) (e : ε) : Except (Exit ε) Unit :=
  (readSpan b pos str.length).bind fun bs =>
    if bs ≠ str then .error (.returned e) else .ok ()

/-! ### The answer of an upstream server -/

/-- Why an answer is not taken. -/
inductive HelloError
  | tooShort
  | nonTls
  | shortHello
  | nonTls2
  | nonTls3
  | retryRequest
  | emptySessionId
  | nonTls4
  | shortHello2
  | sessionId
  | cipher
  | extensionsLength
  | extension
  | extensionEnd
  | extensionLength
  | duplicateExtensions
  | extensionsList
  | changeCipherSpec
  | noRecords
deriving DecidableEq

/-- The text that is logged, behind `Failed to parse upstream TLS response: `. -/
def HelloError.text : HelloError → String
  | .tooShort => "Too short"
  | .nonTls => "Non-TLS response or TLS <= 1.1"
  | .shortHello => "Receive too short ServerHello"
  | .nonTls2 => "Non-TLS response 2"
  | .nonTls3 => "Non-TLS response 3"
  | .retryRequest => "TLS 1.3 servers returning HelloRetryRequest are not supprted"
  | .emptySessionId => "TLS <= 1.2: empty session_id"
  | .nonTls4 => "Non-TLS response 4"
  | .shortHello2 => "Receive too short server hello 2"
  | .sessionId => "TLS <= 1.2: expected mirrored session_id"
  | .cipher => "TLS <= 1.2: expected x25519 as a chosen cipher"
  | .extensionsLength => "Receive wrong extensions length"
  | .extension => "Receive unexpected extension"
  | .extensionEnd => "Receive wrong extension length"
  | .extensionLength => "Unexpected extension length"
  | .duplicateExtensions => "Receive duplicate extensions"
  | .extensionsList => "Receive wrong extensions list"
  | .changeCipherSpec => "Expected dummy ChangeCipherSpec"
  | .noRecords => "No encrypted application data records"

/-- The random of a HelloRetryRequest. -/
def helloRetryRandom : Bytes :=
  [0xcf, 0x21, 0xad, 0x74, 0xe5, 0x9a, 0x61, 0x11, 0xbe, 0x1d, 0x8c, 0x02, 0x1e, 0x65, 0xb8, 0x91,
    0xc2, 0xa2, 0x11, 0x16, 0x7a, 0xbb, 0x8c, 0x5e, 0x07, 0x9e, 0x09, 0xe2, 0xc8, 0xa8, 0x33, 0x9c]

/-- What a probe has sent as its session id. -/
structure SessionId where
  bytes : Bytes
  length_eq : bytes.length = 32

/-- `MAX_ENCRYPTED_RECORDS`. -/
def MAX_ENCRYPTED_RECORDS : ℕ := 8

/-- The ServerHello up to its extensions: `server_hello_length` and the position of the first
extension. -/
def helloHeader (response : Buffer) (requestSessionId : SessionId) :
    Except (Exit HelloError) (ℤ × ℤ) :=
  (checkLength response 0 3 .tooShort).bind fun _ =>
  (expectStr response 0 [0x16, 0x03, 0x03] .nonTls).bind fun _ =>
  (checkLength response 3 2 .tooShort).bind fun _ =>
  (tlsReadLength response 3).bind fun hello =>
  if hello.1 ≤ 39 then .error (.returned .shortHello) else
  (checkLength response hello.2 hello.1 .tooShort).bind fun _ =>
  (expectStr response 5 [0x02, 0x00] .nonTls2).bind fun _ =>
  (expectStr response 9 [0x03, 0x03] .nonTls3).bind fun _ =>
  (readSpan response 11 32).bind fun random =>
  if random = helloRetryRandom then .error (.returned .retryRequest) else
  (readByte response 43).bind fun sessionLength =>
  if sessionLength = 0 then .error (.returned .emptySessionId) else
  (expectStr response 43 [0x20] .nonTls4).bind fun _ =>
  if hello.1 ≤ 75 then .error (.returned .shortHello2) else
  (expectStr response 44 requestSessionId.bytes .sessionId).bind fun _ =>
  (expectStr response 76 [0x13, 0x01, 0x00] .cipher).bind fun _ =>
  (tlsReadLength response (hello.2 + 74)).bind fun extensions =>
  if extensions.1 + 76 ≠ hello.1 then .error (.returned .extensionsLength) else
  .ok (hello.1, extensions.2)

/-- What the loop over the extensions keeps. -/
structure ExtensionState where
  pos : ℤ
  isReversed : ℤ
  sum : ℤ

/-- How long an extension is to be. -/
def expectedLength (extensionId : ℤ) : ℤ := if extensionId = 0x33 then 36 else 2

/-- `is_reversed_extension_order`, which the first extension settles. -/
def orderSeen (pos extensionId isReversed : ℤ) : ℤ :=
  if pos = 83 then (if extensionId = 0x2b then 1 else 0) else isReversed

/-- One turn of `while (pos < 5 + server_hello_length - 4)`. -/
def extensionStage (response : Buffer) (helloLength : ℤ) (s : ExtensionState) :
    Except (Exit HelloError) (Turn ExtensionState ExtensionState) :=
  if s.pos ≥ 5 + helloLength - 4 then .ok (.done s) else
  (tlsReadLength response s.pos).bind fun id =>
  if id.1 ≠ 0x33 ∧ id.1 ≠ 0x2b then .error (.returned .extension) else
  (tlsReadLength response id.2).bind fun ext =>
  if wrap32 (ext.2 + ext.1) > 5 + helloLength then .error (.returned .extensionEnd) else
  if ext.1 ≠ expectedLength id.1 then .error (.returned .extensionLength) else
  .ok (.again
    { pos := wrap32 (ext.2 + ext.1)
      isReversed := orderSeen id.2 id.1 s.isReversed
      sum := s.sum + id.1 })

/-- What the loop over the encrypted records keeps: the position, `encrypted_record_sizes` and
`encrypted_record_count`. -/
structure RecordState where
  pos : ℤ
  sizes : List ℤ
  count : ℕ

/-- `encrypted_record_sizes[*encrypted_record_count] = rec_len`, as long as there is a cell. -/
def keepSize (sizes : List ℤ) (count : ℕ) (recLen : ℤ) : Except (Exit HelloError) (List ℤ) :=
  if count < MAX_ENCRYPTED_RECORDS then writeCell sizes count recLen else .ok sizes

/-- What an encrypted record begins with. -/
def recordHead : Bytes := [0x17, 0x03, 0x03]

/-- One turn of the loop over the encrypted records. -/
def recordStage (response : Buffer) (s : RecordState) :
    Except (Exit HelloError) (Turn RecordState RecordState) :=
  if wrap32 (s.pos + 5) > response.len then .ok (.done s) else
  (readSpan response s.pos 3).bind fun head =>
  if head ≠ recordHead then .ok (.done s) else
  (tlsReadLength response (wrap32 (s.pos + 3))).bind fun rec =>
  if rec.1 = 0 ∨ wrap32 (rec.2 + rec.1) > response.len then .ok (.done s) else
  (keepSize s.sizes s.count rec.1).bind fun sizes =>
  .ok (.again { pos := wrap32 (rec.2 + rec.1), sizes := sizes, count := s.count + 1 })

section Turns

variable {response : Buffer}

/-- What a turn over an extension that goes on has read. -/
theorem extensionStage_again {n : ℤ} {s s' : ExtensionState}
    (h : extensionStage response n s = .ok (.again s')) :
    0 ≤ s.pos ∧ s.pos + 4 ≤ response.len ∧
      lengthAt response (s.pos + 2) = expectedLength (lengthAt response s.pos) ∧
      wrap32 (s.pos + 4 + lengthAt response (s.pos + 2)) ≤ 5 + n ∧
      s' = { pos := wrap32 (s.pos + 4 + lengthAt response (s.pos + 2))
             isReversed := orderSeen (s.pos + 2) (lengthAt response s.pos) s.isReversed
             sum := s.sum + lengthAt response s.pos } := by
  unfold extensionStage at h
  split_ifs at h with hdone
  · cases h
  obtain ⟨id, hid, h⟩ := bind_ok_iff.mp h
  obtain ⟨h0, hlen, rfl⟩ := tlsReadLength_ok hid
  dsimp only at h
  split_ifs at h with hunknown
  obtain ⟨ext, hext, h⟩ := bind_ok_iff.mp h
  obtain ⟨-, hlen', rfl⟩ := tlsReadLength_ok hext
  dsimp only at h
  have hpos : s.pos + 2 + 2 = s.pos + 4 := by omega
  rw [hpos] at h hlen'
  split_ifs at h with hend hlength
  exact ⟨h0, hlen', not_not.mp hlength, not_lt.mp hend, (Turn.again.inj (Except.ok.inj h)).symm⟩

/-- The position behind a record or an extension, or what it has wrapped around to. -/
theorem wrap32_pos_length {b : Buffer} {p : ℤ} {k : ℤ} (hk : 0 ≤ k ∧ k ≤ 5) (h0 : 0 ≤ p)
    (h : p ≤ b.len) (q : ℤ) :
    p + k + lengthAt b q < 2 ^ 31 ∧ wrap32 (p + k + lengthAt b q) = p + k + lengthAt b q ∨
      2 ^ 31 ≤ p + k + lengthAt b q ∧
        wrap32 (p + k + lengthAt b q) = p + k + lengthAt b q - 2 ^ 32 := by
  have hlen := b.len_lt
  have hlow := lengthAt_nonneg b q
  have hhigh := lengthAt_lt b q
  exact wrap32_cases (by omega) (by omega)

/-- A walk goes on to a later position, or to a negative one. -/
theorem wrap32_pos_advances {b : Buffer} {p : ℤ} {k : ℤ} (hk : 0 < k ∧ k ≤ 5) (h0 : 0 ≤ p)
    (h : p ≤ b.len) (q : ℤ) :
    wrap32 (p + k + lengthAt b q) < 0 ∨ p < wrap32 (p + k + lengthAt b q) := by
  have hlen := b.len_lt
  have hlow := lengthAt_nonneg b q
  have hhigh := lengthAt_lt b q
  rcases wrap32_pos_length ⟨hk.1.le, hk.2⟩ h0 h q with ⟨-, heq⟩ | ⟨-, heq⟩
  · omega
  · omega

theorem extensionStage_shrinks (response : Buffer) (n : ℤ) :
    Shrinks (fun s => .ofStage (extensionStage response n s))
      fun s => walkMeasure response.len s.pos := by
  intro s s' hturn
  obtain ⟨h0, hlen, -, -, rfl⟩ := extensionStage_again (Turn.ofStage_eq_again.mp hturn)
  exact walkMeasure_lt h0 (by omega) (wrap32_pos_advances (by omega) h0 (by omega) _)

/-- A turn over a record whose header is in the buffer. -/
theorem recordStage_inside {s : RecordState} (h0 : 0 ≤ s.pos) (h : s.pos + 5 ≤ response.len) :
    recordStage response s =
      if response.span s.pos 3 ≠ recordHead then .ok (.done s) else
      if lengthAt response (s.pos + 3) = 0 ∨
          wrap32 (s.pos + 5 + lengthAt response (s.pos + 3)) > response.len then .ok (.done s) else
      (keepSize s.sizes s.count (lengthAt response (s.pos + 3))).bind fun sizes =>
      .ok (.again
        { pos := wrap32 (s.pos + 5 + lengthAt response (s.pos + 3))
          sizes := sizes
          count := s.count + 1 }) := by
  have hlen := response.len_lt
  have hpos : s.pos + 3 + 2 = s.pos + 5 := by omega
  unfold recordStage
  rw [wrap32_of_fits (x := s.pos + 5) (by omega) (by omega), if_neg (by omega),
    readSpan_inside h0 (by omega), wrap32_of_fits (x := s.pos + 3) (by omega) (by omega)]
  simp only [Except.bind]
  rw [tlsReadLength_inside (by omega) (by omega), hpos]

/-- What a turn over a record that goes on has read. -/
theorem recordStage_again {s s' : RecordState}
    (h : recordStage response s = .ok (.again s')) :
    0 ≤ s.pos ∧ s.pos + 5 ≤ response.len ∧ response.span s.pos 3 = recordHead ∧
      lengthAt response (s.pos + 3) ≠ 0 ∧
      wrap32 (s.pos + 5 + lengthAt response (s.pos + 3)) ≤ response.len ∧
      ∃ sizes, keepSize s.sizes s.count (lengthAt response (s.pos + 3)) = .ok sizes ∧
        s' = { pos := wrap32 (s.pos + 5 + lengthAt response (s.pos + 3))
               sizes := sizes
               count := s.count + 1 } := by
  have hlen := response.len_lt
  have hinside : 0 ≤ s.pos ∧ s.pos + 5 ≤ response.len := by
    unfold recordStage at h
    split_ifs at h with hdone
    · cases h
    obtain ⟨head, hhead, h⟩ := bind_ok_iff.mp h
    split_ifs at h with hne
    · cases h
    obtain ⟨r, hr, -⟩ := bind_ok_iff.mp h
    have hspan : 0 ≤ s.pos ∧ s.pos + 3 ≤ response.len := by
      by_contra hnot
      rw [readSpan_outside (by simpa using hnot)] at hhead
      cases hhead
    obtain ⟨-, hread, -⟩ := tlsReadLength_ok hr
    rw [wrap32_of_fits (by omega) (by omega)] at hread
    omega
  rw [recordStage_inside hinside.1 hinside.2] at h
  split_ifs at h with hhead hend
  · cases h
  · cases h
  obtain ⟨sizes, hsizes, h⟩ := bind_ok_iff.mp h
  obtain ⟨hne, hle⟩ := not_or.mp hend
  exact ⟨hinside.1, hinside.2, not_not.mp hhead, hne, not_lt.mp hle, sizes, hsizes,
    (Turn.again.inj (Except.ok.inj h)).symm⟩

theorem recordStage_shrinks (response : Buffer) :
    Shrinks (fun s => .ofStage (recordStage response s))
      fun s => walkMeasure response.len s.pos := by
  intro s s' hturn
  obtain ⟨h0, hlen, -, -, -, sizes, -, rfl⟩ :=
    recordStage_again (Turn.ofStage_eq_again.mp hturn)
  exact walkMeasure_lt h0 (by omega) (wrap32_pos_advances (by omega) h0 (by omega) _)

end Turns

/-- What an answer says: `is_reversed_extension_order`, `encrypted_record_sizes` and
`encrypted_record_count`. -/
structure HelloOut where
  isReversed : ℤ
  sizes : List ℤ
  count : ℕ

/-- The answer up to its first encrypted record. -/
def helloStart (response : Buffer) (requestSessionId : SessionId) (isReversed : ℤ) :
    Except (Exit HelloError) ExtensionState :=
  (helloHeader response requestSessionId).bind fun header =>
  (loop _ _ (extensionStage_shrinks response header.1)
    { pos := header.2, isReversed := isReversed, sum := 0 }).bind fun s =>
  if s.sum ≠ 0x33 + 0x2b then .error (.returned .duplicateExtensions) else
  if s.pos ≠ 5 + header.1 then .error (.returned .extensionsList) else
  (checkLength response s.pos 6 .tooShort).bind fun _ =>
  (expectStr response s.pos [0x14, 0x03, 0x03, 0x00, 0x01, 0x01] .changeCipherSpec).bind fun _ =>
  .ok { s with pos := wrap32 (s.pos + 6) }

/-- `tls_check_server_hello`; `isReversed` and `sizes` are what stands in the places it writes
to. -/
def tlsCheckServerHello (response : Buffer) (requestSessionId : SessionId) (isReversed : ℤ)
    (sizes : List ℤ) : Except (Exit HelloError) HelloOut :=
  (helloStart response requestSessionId isReversed).bind fun s =>
  (loop _ _ (recordStage_shrinks response)
    { pos := s.pos, sizes := sizes, count := 0 }).bind fun r =>
  if r.count = 0 then .error (.returned .noRecords) else
  .ok { isReversed := s.isReversed, sizes := r.sizes, count := r.count }

/-! ### The ClientHello -/

/-- The loop over the bytes of the name, from byte `i` on. -/
def nameBytes (clientHello : Buffer) (pos : ℤ) : ℕ → ℕ → Except (Exit ℤ) Unit
  | _, 0 => .ok ()
  | i, n + 1 =>
    (readByte clientHello (wrap32 (pos + i))).bind fun c =>
    if c = 0 then .error (.returned (-1)) else nameBytes clientHello pos (i + 1) n

/-- The extension with the name, once it is found: the length that is returned, and `out_domain`. -/
def sniFound (clientHello : Buffer) (outDomain : Bytes) (pos extensionLength : ℤ) :
    Except (Exit ℤ) (ℤ × Bytes) :=
  (checkLength clientHello pos 5 (-1)).bind fun _ =>
  (tlsReadLength clientHello pos).bind fun inner =>
  if inner.1 ≠ extensionLength - 2 then .error (.returned (-1)) else
  (readByte clientHello inner.2).bind fun nameType =>
  if nameType ≠ 0 then .error (.returned (-1)) else
  (tlsReadLength clientHello (wrap32 (inner.2 + 1))).bind fun domain =>
  if domain.1 ≠ extensionLength - 5 then .error (.returned (-1)) else
  (nameBytes clientHello domain.2 0 domain.1.toNat).bind fun _ =>
  if domain.1 ≥ outDomain.length ∨ domain.1 ≤ 0 then .error (.returned (-1)) else
  (readSpan clientHello domain.2 domain.1.toNat).bind fun name =>
  (writeCells outDomain (name ++ [0])).bind fun outDomain => .ok (domain.1, outDomain)

/-- One turn of the loop over the extensions. -/
def sniStage (clientHello : Buffer) (outDomain : Bytes) (pos : ℤ) :
    Except (Exit ℤ) (Turn ℤ (ℤ × Bytes)) :=
  (checkLength clientHello pos 4 (-1)).bind fun _ =>
  (tlsReadLength clientHello pos).bind fun id =>
  (tlsReadLength clientHello id.2).bind fun ext =>
  (checkLength clientHello ext.2 ext.1 (-1)).bind fun _ =>
  if id.1 = 0 then (sniFound clientHello outDomain ext.2 ext.1).bind fun r => .ok (.done r)
  else .ok (.again (wrap32 (ext.2 + ext.1)))

section Turns

variable {clientHello : Buffer} {outDomain : Bytes}

/-- A turn over an extension whose header is in the buffer. -/
theorem sniStage_inside {pos : ℤ} (h0 : 0 ≤ pos) (h : pos + 4 ≤ clientHello.len) :
    sniStage clientHello outDomain pos =
      if wrap32 (pos + 4 + lengthAt clientHello (pos + 2)) > clientHello.len then
        .error (.returned (-1)) else
      if lengthAt clientHello pos = 0 then
        (sniFound clientHello outDomain (pos + 4) (lengthAt clientHello (pos + 2))).bind
          fun r => .ok (.done r)
      else .ok (.again (wrap32 (pos + 4 + lengthAt clientHello (pos + 2)))) := by
  have hlen := clientHello.len_lt
  have hpos : pos + 2 + 2 = pos + 4 := by omega
  unfold sniStage checkLength
  rw [wrap32_of_fits (x := pos + 4) (by omega) (by omega), if_neg (by omega)]
  simp only [Except.bind]
  rw [tlsReadLength_inside h0 (by omega)]
  simp only
  rw [tlsReadLength_inside (by omega) (by omega), hpos]
  simp only
  split_ifs <;> rfl

/-- What a turn over an extension that goes on has read. -/
theorem sniStage_again {pos pos' : ℤ}
    (h : sniStage clientHello outDomain pos = .ok (.again pos')) :
    0 ≤ pos ∧ pos + 4 ≤ clientHello.len ∧ lengthAt clientHello pos ≠ 0 ∧
      pos' = wrap32 (pos + 4 + lengthAt clientHello (pos + 2)) ∧ pos' ≤ clientHello.len := by
  have hinside : 0 ≤ pos ∧ pos + 4 ≤ clientHello.len := by
    unfold sniStage at h
    obtain ⟨-, -, h⟩ := bind_ok_iff.mp h
    obtain ⟨id, hid, h⟩ := bind_ok_iff.mp h
    obtain ⟨h0, -, rfl⟩ := tlsReadLength_ok hid
    obtain ⟨ext, hext, -⟩ := bind_ok_iff.mp h
    obtain ⟨-, hlen, -⟩ := tlsReadLength_ok hext
    exact ⟨h0, by omega⟩
  rw [sniStage_inside hinside.1 hinside.2] at h
  split_ifs at h with hend hid
  · obtain ⟨r, -, h⟩ := bind_ok_iff.mp h
    cases h
  · obtain rfl := Turn.again.inj (Except.ok.inj h)
    exact ⟨hinside.1, hinside.2, hid, rfl, not_lt.mp hend⟩

theorem sniStage_shrinks (clientHello : Buffer) (outDomain : Bytes) :
    Shrinks (fun pos => .ofStage (sniStage clientHello outDomain pos))
      fun pos => walkMeasure clientHello.len pos := by
  intro pos pos' hturn
  obtain ⟨h0, hlen, -, rfl, -⟩ := sniStage_again (Turn.ofStage_eq_again.mp hturn)
  exact walkMeasure_lt h0 (by omega) (wrap32_pos_advances (by omega) h0 (by omega) _)

end Turns

/-- `tls_parse_sni`; `max_domain_len` is the length of `out_domain`. -/
def tlsParseSni (clientHello : Buffer) (outDomain : Bytes) : Except (Exit ℤ) (ℤ × Bytes) :=
  (checkLength clientHello 76 2 (-1)).bind fun _ =>
  (tlsReadLength clientHello 76).bind fun ciphers =>
  (checkLength clientHello ciphers.2 (ciphers.1 + 4) (-1)).bind fun _ =>
  loop _ _ (sniStage_shrinks clientHello outDomain) (wrap32 (ciphers.2 + (ciphers.1 + 4)))

/-- What the loop over the GREASE cipher suites keeps: the position and what is left of
`cipher_suites_length`. -/
structure GreaseState where
  pos : ℤ
  left : ℤ

/-- One turn of `while (cipher_suites_length >= 2 && ...)`. -/
def greaseStage (clientHello : Buffer) (s : GreaseState) :
    Except (Exit ℤ) (Turn GreaseState GreaseState) :=
  if s.left < 2 then .ok (.done s) else
  (readByte clientHello s.pos).bind fun c =>
  if c &&& 0x0F ≠ 0x0A then .ok (.done s) else
  (readByte clientHello (wrap32 (s.pos + 1))).bind fun d =>
  if d &&& 0x0F ≠ 0x0A then .ok (.done s) else
  .ok (.again { pos := wrap32 (s.pos + 2), left := s.left - 2 })

/-- What a turn over a GREASE suite that goes on has found. -/
theorem greaseStage_again {clientHello : Buffer} {s s' : GreaseState}
    (h : greaseStage clientHello s = .ok (.again s')) :
    2 ≤ s.left ∧ s' = { pos := wrap32 (s.pos + 2), left := s.left - 2 } := by
  unfold greaseStage at h
  split_ifs at h with hleft
  · cases h
  obtain ⟨c, -, h⟩ := bind_ok_iff.mp h
  split_ifs at h with hc
  · cases h
  obtain ⟨d, -, h⟩ := bind_ok_iff.mp h
  split_ifs at h with hd
  · cases h
  exact ⟨not_lt.mp hleft, (Turn.again.inj (Except.ok.inj h)).symm⟩

theorem greaseStage_shrinks (clientHello : Buffer) :
    Shrinks (fun s => .ofStage (greaseStage clientHello s)) fun s => s.left.toNat := by
  intro s s' hturn
  obtain ⟨hleft, rfl⟩ := greaseStage_again (Turn.ofStage_eq_again.mp hturn)
  dsimp only
  omega

/-- `tls_parse_client_hello_ciphers`, with `*cipher_suite_id`. -/
def tlsParseClientHelloCiphers (clientHello : Buffer) : Except (Exit ℤ) UInt8 :=
  (checkLength clientHello 76 2 (-1)).bind fun _ =>
  (tlsReadLength clientHello 76).bind fun ciphers =>
  (checkLength clientHello ciphers.2 ciphers.1 (-1)).bind fun _ =>
  (loop _ _ (greaseStage_shrinks clientHello) { pos := ciphers.2, left := ciphers.1 }).bind fun s =>
  if s.left ≤ 1 then .error (.returned (-1)) else
  (readByte clientHello s.pos).bind fun c =>
  if c ≠ 0x13 then .error (.returned (-1)) else
  (readByte clientHello (wrap32 (s.pos + 1))).bind fun d =>
  if d < 0x01 ∨ d > 0x03 then .error (.returned (-1)) else .ok d

/-! ### Reads inside the buffer -/

section Inside

variable {b : Buffer} {ε : Type*}

theorem inBounds_checkLength {pos length : ℤ} {e : ε} (h0 : 0 ≤ pos + length)
    (h1 : pos + length < 2 ^ 31) :
    InBounds (fun _ => pos + length ≤ b.len) (checkLength b pos length e) := by
  unfold checkLength
  rw [wrap32_of_fits (by omega) h1]
  exact .unless fun h => not_lt.mp h

theorem inBounds_readByte {i : ℤ} (h0 : 0 ≤ i) (h : i < b.len) :
    InBounds (fun c => c = b.byteAt i) (readByte b i : Except (Exit ε) UInt8) := by
  rw [readByte_inside h0 h]
  rfl

theorem inBounds_readSpan {i : ℤ} {n : ℕ} (h0 : 0 ≤ i) (h : i + n ≤ b.len) :
    InBounds (fun bs => bs = b.span i n) (readSpan b i n : Except (Exit ε) Bytes) := by
  rw [readSpan_inside h0 h]
  rfl

theorem inBounds_tlsReadLength {pos : ℤ} (h0 : 0 ≤ pos) (h : pos + 2 ≤ b.len) :
    InBounds (fun r => r = (lengthAt b pos, pos + 2))
      (tlsReadLength b pos : Except (Exit ε) (ℤ × ℤ)) := by
  rw [tlsReadLength_inside h0 h]
  rfl

theorem inBounds_expectStr {pos : ℤ} {str : Bytes} {e : ε} (h0 : 0 ≤ pos)
    (h : pos + str.length ≤ b.len) :
    InBounds (fun _ => b.span pos str.length = str) (expectStr b pos str e) := by
  refine .bind (inBounds_readSpan h0 h) fun bs hbs => .unless fun hne => ?_
  rw [← hbs]
  exact not_not.mp hne

end Inside

/-! ### The answer stays in its buffer up to the records -/

section Start

variable {response : Buffer}

/-- **The ServerHello up to its extensions is read inside the buffer**, and what is accepted ends
inside it. -/
theorem inBounds_helloHeader (response : Buffer) (requestSessionId : SessionId) :
    InBounds (fun r => r = (lengthAt response 3, 81) ∧ 5 + lengthAt response 3 ≤ response.len)
      (helloHeader response requestSessionId) := by
  have hsession := requestSessionId.length_eq
  unfold helloHeader
  refine .bind (inBounds_checkLength (by omega) (by omega)) fun _ h3 => ?_
  refine .bind (inBounds_expectStr (by omega) (by simpa using h3)) fun _ _ => ?_
  refine .bind (inBounds_checkLength (by omega) (by omega)) fun _ h5 => ?_
  refine .bind (inBounds_tlsReadLength (by omega) (by omega)) ?_
  rintro _ rfl
  have hhigh := lengthAt_lt response 3
  generalize lengthAt response 3 = n at hhigh ⊢
  dsimp only
  refine .unless fun h39 => ?_
  refine .bind (inBounds_checkLength (by omega) (by omega)) fun _ hn => ?_
  refine .bind (inBounds_expectStr (by omega) (by simp; omega)) fun _ _ => ?_
  refine .bind (inBounds_expectStr (by omega) (by simp; omega)) fun _ _ => ?_
  refine .bind (inBounds_readSpan (by omega) (by push_cast; omega)) fun _ _ => .unless fun _ => ?_
  refine .bind (inBounds_readByte (by omega) (by omega)) fun _ _ => .unless fun _ => ?_
  refine .bind (inBounds_expectStr (by omega) (by simp; omega)) fun _ _ => .unless fun h75 => ?_
  refine .bind (inBounds_expectStr (by omega) (by rw [hsession]; push_cast; omega)) fun _ _ => ?_
  refine .bind (inBounds_expectStr (by omega) (by simp; omega)) fun _ _ => ?_
  refine .bind (inBounds_tlsReadLength (by omega) (by omega)) ?_
  rintro _ rfl
  refine .unless fun _ => ?_
  have hpos : (3 : ℤ) + 2 + 74 + 2 = 81 := by omega
  exact ⟨by rw [hpos], by omega⟩

/-- The loop over the extensions keeps to the ServerHello. -/
theorem inBounds_extensions {n : ℤ} {s : ExtensionState} (hn : n < 2 ^ 16)
    (hlen : 5 + n ≤ response.len) (h0 : 0 ≤ s.pos) :
    InBounds (fun s => 0 ≤ s.pos) (loop _ _ (extensionStage_shrinks response n) s) := by
  refine ends_loop (extensionStage_shrinks response n) (I := fun s => 0 ≤ s.pos)
    (fun s hs => ?_) h0
  unfold extensionStage
  refine Ends.ite (fun _ => hs) fun hpos => ?_
  refine Ends.bind (inBounds_tlsReadLength hs (by omega)) ?_
  rintro _ rfl
  refine InBounds.unless fun _ => ?_
  dsimp only
  refine Ends.bind (inBounds_tlsReadLength (by omega) (by omega)) ?_
  rintro _ rfl
  have hlow := lengthAt_nonneg response (s.pos + 2)
  have hhigh := lengthAt_lt response (s.pos + 2)
  refine InBounds.unless fun _ => InBounds.unless fun _ => ?_
  simp only [inBounds_ok, Turn.meets_again]
  rw [wrap32_of_fits (by omega) (by omega)]
  omega

/-- **The answer up to its first encrypted record is read inside the buffer.** -/
theorem inBounds_helloStart (response : Buffer) (requestSessionId : SessionId) (isReversed : ℤ) :
    InBounds (fun s => s.pos = 11 + lengthAt response 3 ∧ s.pos ≤ response.len)
      (helloStart response requestSessionId isReversed) := by
  have hlt := response.len_lt
  have hlow := lengthAt_nonneg response 3
  have hhigh := lengthAt_lt response 3
  have h81 : (0 : ℤ) ≤ 81 := by decide
  unfold helloStart
  refine .bind (inBounds_helloHeader response requestSessionId) ?_
  rintro _ ⟨rfl, hlen⟩
  refine .bind (inBounds_extensions hhigh hlen h81) fun s _ => ?_
  refine .unless fun _ => .unless fun hpos => ?_
  have hpos : s.pos = 5 + lengthAt response 3 := not_not.mp hpos
  refine .bind (inBounds_checkLength (by omega) (by omega)) fun _ h6 => ?_
  refine .bind (inBounds_expectStr (by omega) (by simpa using h6)) fun _ _ => ?_
  simp only [inBounds_ok]
  rw [wrap32_of_fits (by omega) (by omega)]
  omega

end Start

/-! ### The records -/

section Records

variable {response : Buffer}

/-- **The sums of a turn over a record fit**: if the position behind the header is an `int`, so is
the one behind the record that the header begins; otherwise there are three bytes left, and they do
not begin a record. -/
def RecordFits (response : Buffer) (pos : ℤ) : Prop :=
  if pos + 5 < 2 ^ 31 then
    pos + 5 ≤ response.len → response.span pos 3 = recordHead →
      pos + 5 + lengthAt response (pos + 3) < 2 ^ 31
  else pos + 3 ≤ response.len ∧ response.span pos 3 ≠ recordHead

/-- The sizes that are kept: there are eight cells, and each size in them is one of a record. -/
def KeepsSizes (sizes : List ℤ) (count : ℕ) : Prop :=
  sizes.length = MAX_ENCRYPTED_RECORDS ∧ ∀ n ∈ sizes.take count, 0 < n ∧ n < 2 ^ 16

theorem KeepsSizes.keep {sizes : List ℤ} {count : ℕ} (h : KeepsSizes sizes count) {n : ℤ}
    (h0 : 0 < n) (hn : n < 2 ^ 16) :
    ∃ sizes', keepSize sizes count n = .ok sizes' ∧ KeepsSizes sizes' (count + 1) := by
  obtain ⟨hlen, hall⟩ := h
  unfold keepSize
  by_cases hcount : count < MAX_ENCRYPTED_RECORDS
  · have hcell : count < sizes.length := by omega
    refine ⟨sizes.set count n, ?_, ?_, fun m hm => ?_⟩
    · rw [if_pos hcount]
      exact if_pos hcell
    · rw [List.length_set, hlen]
    · rw [List.take_succ_eq_append_getElem (by simpa using hcell), List.take_set_of_le le_rfl] at hm
      simp only [List.getElem_set_self, List.mem_append, List.mem_singleton] at hm
      rcases hm with hm | rfl
      · exact hall m hm
      · exact ⟨h0, hn⟩
  · rw [if_neg hcount]
    have htake : sizes.take count = sizes := List.take_of_length_le (by omega)
    rw [htake] at hall
    exact ⟨sizes, rfl, hlen, fun m hm => hall m (List.mem_of_mem_take hm)⟩

/-- A turn that ends the loop keeps what there is. -/
theorem recordStage_done {s s' : RecordState} (h : recordStage response s = .ok (.done s')) :
    s' = s := by
  unfold recordStage at h
  split_ifs at h with hend
  · exact (Turn.done.inj (Except.ok.inj h)).symm
  obtain ⟨head, -, h⟩ := bind_ok_iff.mp h
  split_ifs at h with hhead
  · exact (Turn.done.inj (Except.ok.inj h)).symm
  obtain ⟨r, -, h⟩ := bind_ok_iff.mp h
  split_ifs at h with hstop
  · exact (Turn.done.inj (Except.ok.inj h)).symm
  obtain ⟨sizes, -, h⟩ := bind_ok_iff.mp h
  cases h

/-- **The sizes that are kept at the end**, wherever the loop has been. -/
theorem keepsSizes_records {s : RecordState} (h : KeepsSizes s.sizes s.count) :
    Ends (fun s => KeepsSizes s.sizes s.count) (fun _ => True)
      (loop _ _ (recordStage_shrinks response) s) := by
  refine ends_loop (recordStage_shrinks response) (I := fun s => KeepsSizes s.sizes s.count)
    (fun s hs => ?_) h
  cases hstage : recordStage response s with
  | error e => trivial
  | ok t =>
    cases t with
    | done s' =>
      rw [recordStage_done hstage]
      exact hs
    | again s' =>
      obtain ⟨-, -, -, hne, -, sizes, hkeep, rfl⟩ := recordStage_again hstage
      have hlow := lengthAt_nonneg response (s.pos + 3)
      obtain ⟨sizes', hkeep', hsizes'⟩ := hs.keep (n := lengthAt response (s.pos + 3)) (by omega)
        (lengthAt_lt response _)
      rw [hkeep] at hkeep'
      obtain rfl := Except.ok.inj hkeep'
      exact hsizes'

/-- A turn at the largest positions: the header does not end at an `int`. -/
theorem recordStage_past {s : RecordState} (h0 : 0 ≤ s.pos) (hlen : s.pos ≤ response.len)
    (h : 2 ^ 31 ≤ s.pos + 5) :
    recordStage response s =
      if s.pos + 3 ≤ response.len ∧ response.span s.pos 3 ≠ recordHead then .ok (.done s)
      else .error .readOutside := by
  have hlt := response.len_lt
  have hneg : wrap32 (s.pos + 5) < 0 := by
    rcases wrap32_cases (x := s.pos + 5) (by omega) (by omega) with ⟨hsmall, -⟩ | ⟨-, heq⟩
    · omega
    · omega
  have hlen0 := response.len_nonneg
  unfold recordStage
  rw [if_neg (by omega)]
  by_cases hspan : s.pos + 3 ≤ response.len
  · rw [readSpan_inside h0 (by simpa using hspan)]
    by_cases hhead : response.span s.pos 3 = recordHead
    · simp only [Except.bind, hhead]
      rw [wrap32_of_fits (x := s.pos + 3) (by omega) (by omega),
        tlsReadLength_outside (by omega) (by omega)]
      simp
    · simp [Except.bind, hhead, hspan]
  · rw [readSpan_outside (by simpa [h0] using hspan), if_neg (by simp [hspan])]
    rfl

/-- A turn at a negative position reads outside of the buffer. -/
theorem recordStage_negative {s : RecordState} (hneg : s.pos < -5) (hint : -2 ^ 31 ≤ s.pos) :
    recordStage response s = .error .readOutside := by
  have hlen0 := response.len_nonneg
  unfold recordStage
  rw [wrap32_of_fits (by omega) (by omega), if_neg (by omega), readSpan_outside (by omega)]
  rfl

/-- A turn where no header fits any more. -/
theorem recordStage_end {s : RecordState} (h0 : 0 ≤ s.pos) (h : s.pos + 5 < 2 ^ 31)
    (hend : response.len < s.pos + 5) : recordStage response s = .ok (.done s) := by
  unfold recordStage
  rw [wrap32_of_fits (by omega) h, if_pos hend]

/-- A turn that begins in the buffer, with the sizes it has kept. -/
def RecordInside (response : Buffer) (s : RecordState) : Prop :=
  (0 ≤ s.pos ∧ s.pos ≤ response.len) ∧ KeepsSizes s.sizes s.count

/-- A turn that begins at a position that has wrapped around. -/
def RecordOutside (s : RecordState) : Prop := -2 ^ 31 ≤ s.pos ∧ s.pos < -5

/-- **A turn over a record that goes on** is inside if its sums fit, and has wrapped around if they
do not. -/
theorem recordStage_next {s s' : RecordState} (h : RecordInside response s)
    (hstage : recordStage response s = .ok (.again s')) :
    RecordFits response s.pos ∧ RecordInside response s' ∨
      ¬ RecordFits response s.pos ∧ RecordOutside s' := by
  obtain ⟨⟨h0, hlen⟩, hsizes⟩ := h
  have hlt := response.len_lt
  obtain ⟨-, hinside, hhead, hne, hle, sizes, hkeep, rfl⟩ := recordStage_again hstage
  have hlow := lengthAt_nonneg response (s.pos + 3)
  have hhigh := lengthAt_lt response (s.pos + 3)
  obtain ⟨sizes', hkeep', hsizes'⟩ := hsizes.keep (n := lengthAt response (s.pos + 3))
    (by omega) hhigh
  rw [hkeep] at hkeep'
  obtain rfl := Except.ok.inj hkeep'
  unfold RecordFits
  rw [if_pos (by omega)]
  rcases wrap32_pos_length (b := response) (k := 5) (by omega) h0 hlen (s.pos + 3) with
    ⟨hfits, heq⟩ | ⟨hwraps, heq⟩
  · refine Or.inl ⟨fun _ _ => hfits, ⟨?_, hle⟩, hsizes'⟩
    simp only [heq]
    omega
  · refine Or.inr ⟨fun hfits => ?_, ?_⟩
    · have hfits := hfits hinside hhead
      omega
    · unfold RecordOutside
      simp only [heq]
      omega

/-- **A turn over a record that leaves the loop** does so at an `int` exactly if its sums fit, and
reads outside otherwise. -/
theorem recordStage_leaves {s : RecordState} {r : Except (Exit HelloError) RecordState}
    (h : RecordInside response s)
    (hstage : Turn.ofStage (recordStage response s) = .done r) :
    InBounds (fun s => KeepsSizes s.sizes s.count) r ↔ RecordFits response s.pos := by
  obtain ⟨⟨h0, hlen⟩, hsizes⟩ := h
  have hlt := response.len_lt
  unfold RecordFits
  by_cases hpast : 2 ^ 31 ≤ s.pos + 5
  · rw [recordStage_past h0 hlen hpast] at hstage
    rw [if_neg (by omega)]
    by_cases hspan : s.pos + 3 ≤ response.len ∧ response.span s.pos 3 ≠ recordHead
    · rw [if_pos hspan] at hstage
      rw [← Turn.done.inj hstage]
      exact iff_of_true hsizes hspan
    · rw [if_neg hspan] at hstage
      rw [← Turn.done.inj hstage]
      exact iff_of_false id hspan
  rw [if_pos (by omega)]
  by_cases hend : s.pos + 5 ≤ response.len
  · have hlow := lengthAt_nonneg response (s.pos + 3)
    have hhigh := lengthAt_lt response (s.pos + 3)
    rw [recordStage_inside h0 hend] at hstage
    by_cases hhead : response.span s.pos 3 = recordHead
    · rw [if_neg (not_not.mpr hhead)] at hstage
      split_ifs at hstage with hstop
      · rw [← Turn.done.inj hstage]
        refine iff_of_true hsizes fun _ _ => ?_
        rcases wrap32_pos_length (b := response) (k := 5) (by omega) h0 hlen (s.pos + 3) with
          ⟨hfits, -⟩ | ⟨-, heq⟩
        · exact hfits
        · omega
      · obtain ⟨sizes, hkeep, -⟩ := hsizes.keep (n := lengthAt response (s.pos + 3))
          (by omega) hhigh
        rw [hkeep] at hstage
        simp [Except.bind, Turn.ofStage] at hstage
    · rw [if_pos hhead] at hstage
      rw [← Turn.done.inj hstage]
      exact iff_of_true hsizes fun _ h => absurd h hhead
  · rw [recordStage_end h0 (by omega) (by omega)] at hstage
    rw [← Turn.done.inj hstage]
    exact iff_of_true hsizes fun h => absurd h hend

/-- **The places where the loop looks for a record**: the start, and the end of each record before
it. -/
inductive RecordAt (response : Buffer) (start : ℤ) : ℤ → Prop
  | first : RecordAt response start start
  | next {pos : ℤ} (h : RecordAt response start pos) (hpos : pos + 5 ≤ response.len)
      (hhead : response.span pos 3 = recordHead) (hne : lengthAt response (pos + 3) ≠ 0)
      (hend : pos + 5 + lengthAt response (pos + 3) ≤ response.len) :
      RecordAt response start (pos + 5 + lengthAt response (pos + 3))

/-- The loop takes a turn at each of these places, as long as the sums fit. -/
theorem RecordAt.turn {s : RecordState} (hs : RecordInside response s)
    (hturns : EachTurn (fun s => .ofStage (recordStage response s))
      (fun s => RecordFits response s.pos) s) {pos : ℤ} (h : RecordAt response s.pos pos) :
    ∃ s', s'.pos = pos ∧ RecordInside response s' ∧
      EachTurn (fun s => .ofStage (recordStage response s))
        (fun s => RecordFits response s.pos) s' := by
  have hlt := response.len_lt
  induction h with
  | first => exact ⟨s, rfl, hs, hturns⟩
  | @next pos _ hpos hhead hne hend ih =>
    obtain ⟨s', rfl, hs', hturns'⟩ := ih
    have hlow := lengthAt_nonneg response (s'.pos + 3)
    obtain ⟨sizes, hkeep, hsizes⟩ := hs'.2.keep (n := lengthAt response (s'.pos + 3)) (by omega)
      (lengthAt_lt response _)
    have h0 := hs'.1.1
    have hstage : recordStage response s' = .ok (.again
        { pos := s'.pos + 5 + lengthAt response (s'.pos + 3)
          sizes := sizes
          count := s'.count + 1 }) := by
      rw [recordStage_inside h0 hpos, if_neg (not_not.mpr hhead),
        wrap32_of_fits (by omega) (by omega), if_neg (by omega), hkeep]
      rfl
    refine ⟨_, rfl, ⟨⟨?_, hend⟩, hsizes⟩, hturns'.next (Turn.ofStage_eq_again.mpr hstage)⟩
    dsimp only
    omega

/-- **The loop over the records reads inside the buffer exactly if the sums fit wherever it looks
for a record.** -/
theorem inBounds_records_iff {s : RecordState} (h : RecordInside response s) :
    InBounds (fun s => KeepsSizes s.sizes s.count) (loop _ _ (recordStage_shrinks response) s) ↔
      ∀ pos, RecordAt response s.pos pos → RecordFits response pos := by
  have hturns : InBounds (fun s => KeepsSizes s.sizes s.count)
      (loop _ _ (recordStage_shrinks response) s) ↔
        EachTurn (fun s => .ofStage (recordStage response s))
          (fun s => RecordFits response s.pos) s := by
    refine loop_iff_of_lost (I := RecordInside response) (B := RecordOutside)
      (recordStage_shrinks response) (fun s s' hs hb => ?_) (fun s s' hs hb => ?_)
      (fun s r hs hb => recordStage_leaves hs hb) (fun s r hs hb => ?_) h
    · exact recordStage_next hs (Turn.ofStage_eq_again.mp hb)
    · rw [recordStage_negative hs.2 hs.1] at hb
      cases hb
    · rw [recordStage_negative hs.2 hs.1] at hb
      rw [← Turn.done.inj hb]
      exact id
  rw [hturns]
  constructor
  · intro heach pos hpos
    obtain ⟨s', rfl, -, hturn⟩ := hpos.turn h heach
    exact hturn.here
  · intro hfits
    refine eachTurn_of_inv (I := fun t => RecordInside response t ∧ RecordAt response s.pos t.pos)
      (recordStage_shrinks response) (fun t ht => hfits _ ht.2) (fun t t' ht hb => ?_)
      ⟨h, .first⟩
    have hstage := Turn.ofStage_eq_again.mp hb
    obtain ⟨h0, hpos, hhead, hne, -, sizes, -, rfl⟩ := recordStage_again hstage
    rcases recordStage_next ht.1 hstage with ⟨hfit, hinside⟩ | ⟨hnot, -⟩
    · have hlow := lengthAt_nonneg response (t.pos + 3)
      unfold RecordFits at hfit
      rw [if_pos (by have := response.len_lt; omega)] at hfit
      have hsum := hfit hpos hhead
      have heq := wrap32_of_fits (x := t.pos + 5 + lengthAt response (t.pos + 3)) (by omega) hsum
      have hend := hinside.1.2
      refine ⟨hinside, ?_⟩
      dsimp only at hend ⊢
      rw [heq] at hend ⊢
      exact .next ht.2 hpos hhead hne hend
    · exact absurd (hfits _ ht.2) hnot

end Records

/-! ### The name -/

section Sni

variable {clientHello : Buffer} {outDomain : Bytes}

/-- **The bytes of a name** are all in the buffer, or one of them is zero, or they go on behind the
end of the buffer. -/
theorem nameBytes_cases {pos : ℤ} (h0 : 0 ≤ pos) (n i : ℕ) (h : pos + i ≤ clientHello.len) :
    nameBytes clientHello pos i n = .ok () ∧ pos + i + n ≤ clientHello.len ∨
    nameBytes clientHello pos i n = .error (.returned (-1)) ∧
      (∃ j, pos + i ≤ j ∧ j < clientHello.len ∧ clientHello.byteAt j = 0) ∨
    nameBytes clientHello pos i n = .error .readOutside ∧ clientHello.len < pos + i + n ∧
      ∀ j, pos + i ≤ j → j < clientHello.len → clientHello.byteAt j ≠ 0 := by
  have hlt := clientHello.len_lt
  induction n generalizing i with
  | zero => exact Or.inl ⟨rfl, by simpa using h⟩
  | succ n ih =>
    unfold nameBytes
    rw [wrap32_of_fits (by omega) (by omega)]
    by_cases hlast : pos + i < clientHello.len
    · rw [readByte_inside (by omega) hlast]
      simp only [Except.bind]
      by_cases hzero : clientHello.byteAt (pos + i) = 0
      · rw [if_pos hzero]
        exact Or.inr (Or.inl ⟨rfl, pos + i, le_rfl, hlast, hzero⟩)
      rw [if_neg hzero]
      have hpos : pos + (i + 1 : ℕ) + n = pos + i + (n + 1 : ℕ) := by push_cast; omega
      rcases ih (i + 1) (by push_cast; omega) with ⟨hok, hle⟩ | ⟨hret, j, hj, hjlt, hjzero⟩ |
        ⟨hread, hlong, hall⟩
      · exact Or.inl ⟨hok, hpos ▸ hle⟩
      · exact Or.inr (Or.inl ⟨hret, j, by push_cast at hj; omega, hjlt, hjzero⟩)
      · refine Or.inr (Or.inr ⟨hread, hpos ▸ hlong, fun j hj hjlt => ?_⟩)
        by_cases heq : j = pos + i
        · rw [heq]
          exact hzero
        · exact hall j (by push_cast; omega) hjlt
    · rw [readByte_outside (by omega)]
      exact Or.inr (Or.inr ⟨rfl, by push_cast; omega, fun j hj hjlt => by omega⟩)

/-- **The extension with the name is read inside the buffer**: it ends in it, or it is refused
before its end is reached. -/
def NameFits (b : Buffer) (pos extensionLength : ℤ) : Prop :=
  if pos + 5 < 2 ^ 31 then
    pos + 5 ≤ b.len → lengthAt b pos = extensionLength - 2 → b.byteAt (pos + 2) = 0 →
      lengthAt b (pos + 3) = extensionLength - 5 →
      pos + extensionLength ≤ b.len ∨ ∃ j, pos + 5 ≤ j ∧ j < b.len ∧ b.byteAt j = 0
  else
    pos + 2 ≤ b.len ∧
      (lengthAt b pos = extensionLength - 2 → pos + 3 ≤ b.len ∧ b.byteAt (pos + 2) ≠ 0)

/-- The name of an extension whose fixed fields are in the buffer. -/
theorem sniFound_inside {pos : ℤ} (h0 : 0 ≤ pos) (h : pos + 5 ≤ clientHello.len)
    (extensionLength : ℤ) :
    sniFound clientHello outDomain pos extensionLength =
      if lengthAt clientHello pos ≠ extensionLength - 2 then .error (.returned (-1)) else
      if clientHello.byteAt (pos + 2) ≠ 0 then .error (.returned (-1)) else
      if lengthAt clientHello (pos + 3) ≠ extensionLength - 5 then .error (.returned (-1)) else
      (nameBytes clientHello (pos + 5) 0 (lengthAt clientHello (pos + 3)).toNat).bind fun _ =>
      if lengthAt clientHello (pos + 3) ≥ outDomain.length ∨
        lengthAt clientHello (pos + 3) ≤ 0 then .error (.returned (-1)) else
      (readSpan clientHello (pos + 5) (lengthAt clientHello (pos + 3)).toNat).bind fun name =>
      (writeCells outDomain (name ++ [0])).bind fun outDomain =>
      .ok (lengthAt clientHello (pos + 3), outDomain) := by
  have hlt := clientHello.len_lt
  have hpos : pos + 3 + 2 = pos + 5 := by omega
  have hpos' : pos + 2 + 1 = pos + 3 := by omega
  unfold sniFound checkLength
  rw [wrap32_of_fits (x := pos + 5) (by omega) (by omega), if_neg (by omega),
    tlsReadLength_inside h0 (by omega)]
  simp only [Except.bind]
  rw [readByte_inside (by omega) (by omega), hpos',
    wrap32_of_fits (x := pos + 3) (by omega) (by omega)]
  simp only
  rw [tlsReadLength_inside (by omega) (by omega), hpos]

/-- The name of an extension at the largest positions: its fixed fields do not end at an `int`. -/
theorem inBounds_sniFound_past {pos : ℤ} (h0 : 0 ≤ pos) (h : pos ≤ clientHello.len)
    (hpast : 2 ^ 31 ≤ pos + 5) (extensionLength : ℤ) :
    InBounds (fun _ => True) (sniFound clientHello outDomain pos extensionLength) ↔
      pos + 2 ≤ clientHello.len ∧ (lengthAt clientHello pos = extensionLength - 2 →
        pos + 3 ≤ clientHello.len ∧ clientHello.byteAt (pos + 2) ≠ 0) := by
  have hlt := clientHello.len_lt
  have hlen0 := clientHello.len_nonneg
  have hcheck : ¬ wrap32 (pos + 5) > clientHello.len := by
    rcases wrap32_cases (x := pos + 5) (by omega) (by omega) with ⟨hsmall, -⟩ | ⟨-, heq⟩
    · omega
    · omega
  unfold sniFound checkLength
  rw [if_neg hcheck]
  simp only [Except.bind]
  by_cases hinner : pos + 2 ≤ clientHello.len
  swap
  · rw [tlsReadLength_outside (by omega) (by omega)]
    exact iff_of_false id fun h => hinner h.1
  rw [tlsReadLength_inside h0 hinner, and_iff_right hinner]
  simp only
  rw [inBounds_unless_iff, not_not]
  refine forall_congr' fun _ => ?_
  by_cases htype : pos + 3 ≤ clientHello.len
  swap
  · rw [readByte_outside (by omega)]
    exact iff_of_false id fun h => htype h.1
  rw [readByte_inside (by omega) (by omega), and_iff_right htype]
  simp only
  rw [inBounds_unless_iff, not_not]
  rw [wrap32_of_fits (by omega) (by omega), tlsReadLength_outside (by omega) (by omega)]
  rfl

variable (outDomain) in
theorem inBounds_sniFound_iff {pos : ℤ} (h0 : 0 ≤ pos) (h : pos ≤ clientHello.len)
    (extensionLength : ℤ) :
    InBounds (fun _ => True) (sniFound clientHello outDomain pos extensionLength) ↔
      NameFits clientHello pos extensionLength := by
  have hlt := clientHello.len_lt
  have hlen0 := clientHello.len_nonneg
  unfold NameFits
  by_cases hpast : pos + 5 < 2 ^ 31
  · rw [if_pos hpast]
    by_cases hinside : pos + 5 ≤ clientHello.len
    · rw [sniFound_inside h0 hinside, forall_prop_of_true hinside, inBounds_unless_iff, not_not,
        inBounds_unless_iff, not_not, inBounds_unless_iff, not_not]
      refine forall_congr' fun _ => forall_congr' fun _ => forall_congr' fun hlength => ?_
      have hlow := lengthAt_nonneg clientHello (pos + 3)
      generalize lengthAt clientHello (pos + 3) = n at hlength hlow
      have hstart : 0 ≤ pos + 5 := by omega
      have hfirst : pos + 5 + (0 : ℕ) ≤ clientHello.len := by simpa using hinside
      rcases nameBytes_cases hstart n.toNat 0 hfirst with
        ⟨hname, hle⟩ | ⟨hname, hzero⟩ | ⟨hname, hlong, hall⟩
      · have hfits : pos + extensionLength ≤ clientHello.len := by
          push_cast at hle
          omega
        rw [hname]
        refine iff_of_true (.unless fun hmax => ?_) (Or.inl hfits)
        refine .bind (inBounds_readSpan (by omega) (by omega)) ?_
        rintro _ rfl
        have hspan := Buffer.span_length (b := clientHello) (i := pos + 5) (n := n.toNat)
          (by omega) (by omega)
        refine .bind (inBounds_writeCells ?_) fun _ _ => trivial
        rw [List.length_append, hspan, List.length_singleton]
        omega
      · rw [hname]
        exact iff_of_true trivial (Or.inr (by simpa using hzero))
      · rw [hname]
        refine iff_of_false id ?_
        rintro (hle | ⟨j, hj, hjlt, hjzero⟩)
        · push_cast at hlong
          omega
        · exact hall j (by simpa using hj) hjlt hjzero
    · unfold sniFound checkLength
      rw [wrap32_of_fits (by omega) hpast, if_pos (by omega)]
      exact iff_of_true trivial fun h => absurd h hinside
  · rw [if_neg hpast]
    exact inBounds_sniFound_past h0 h (by omega) extensionLength

/-- **The sums of a turn over an extension fit**: the position behind the header is an `int`; and if
the extension is not refused for its length, the one behind the extension is an `int`, or it is the
extension with the name and that is read inside the buffer. -/
def ExtensionFits (b : Buffer) (pos : ℤ) : Prop :=
  pos + 4 < 2 ^ 31 ∧ (pos + 4 ≤ b.len →
    pos + 4 + lengthAt b (pos + 2) ≤ b.len ∨ 2 ^ 31 ≤ pos + 4 + lengthAt b (pos + 2) →
    if lengthAt b pos = 0 then NameFits b (pos + 4) (lengthAt b (pos + 2))
    else pos + 4 + lengthAt b (pos + 2) < 2 ^ 31)

/-- A turn at the largest positions: the header does not end at an `int`. -/
theorem sniStage_past {pos : ℤ} (h0 : 0 ≤ pos) (h : pos ≤ clientHello.len)
    (hpast : 2 ^ 31 ≤ pos + 4) :
    sniStage clientHello outDomain pos = .error .readOutside := by
  have hlt := clientHello.len_lt
  have hlen0 := clientHello.len_nonneg
  have hcheck : ¬ wrap32 (pos + 4) > clientHello.len := by
    rcases wrap32_cases (x := pos + 4) (by omega) (by omega) with ⟨hsmall, -⟩ | ⟨-, heq⟩
    · omega
    · omega
  unfold sniStage checkLength
  rw [if_neg hcheck]
  simp only [Except.bind]
  by_cases hid : pos + 2 ≤ clientHello.len
  · rw [tlsReadLength_inside h0 hid]
    simp only
    rw [tlsReadLength_outside (by omega) (by omega)]
  · rw [tlsReadLength_outside (by omega) (by omega)]

/-- A turn at a negative position reads outside of the buffer. -/
theorem sniStage_negative {pos : ℤ} (hint : -2 ^ 31 ≤ pos) (hneg : pos < -5) :
    sniStage clientHello outDomain pos = .error .readOutside := by
  have hlen0 := clientHello.len_nonneg
  unfold sniStage checkLength
  rw [wrap32_of_fits (by omega) (by omega), if_neg (by omega)]
  simp only [Except.bind]
  rw [tlsReadLength_outside (by omega) (by omega)]

/-- **A turn over an extension that goes on** is inside if its sums fit, and has wrapped around if
they do not. -/
theorem sniStage_next {pos pos' : ℤ} (h0 : 0 ≤ pos)
    (hstage : sniStage clientHello outDomain pos = .ok (.again pos')) :
    ExtensionFits clientHello pos ∧ 0 ≤ pos' ∧ pos' ≤ clientHello.len ∨
      ¬ ExtensionFits clientHello pos ∧ -2 ^ 31 ≤ pos' ∧ pos' < -5 := by
  have hlt := clientHello.len_lt
  obtain ⟨-, hinside, hid, rfl, hle⟩ := sniStage_again hstage
  have hlow := lengthAt_nonneg clientHello (pos + 2)
  have hhigh := lengthAt_lt clientHello (pos + 2)
  unfold ExtensionFits
  rw [if_neg hid]
  rcases wrap32_pos_length (b := clientHello) (k := 4) (by omega) h0 (by omega) (pos + 2) with
    ⟨hfits, heq⟩ | ⟨hwraps, heq⟩
  · exact Or.inl ⟨⟨by omega, fun _ _ => hfits⟩, by omega, hle⟩
  · refine Or.inr ⟨fun hfits => ?_, by omega⟩
    have hfits := hfits.2 hinside (Or.inr hwraps)
    omega

/-- **A turn over an extension that leaves the loop** has read inside the buffer exactly if its sums
fit. -/
theorem sniStage_leaves {pos : ℤ} {r : Except (Exit ℤ) (ℤ × Bytes)} (h0 : 0 ≤ pos)
    (h : pos ≤ clientHello.len)
    (hstage : Turn.ofStage (sniStage clientHello outDomain pos) = .done r) :
    InBounds (fun _ => True) r ↔ ExtensionFits clientHello pos := by
  have hlt := clientHello.len_lt
  unfold ExtensionFits
  by_cases hpast : 2 ^ 31 ≤ pos + 4
  · rw [sniStage_past h0 h hpast] at hstage
    rw [← Turn.done.inj hstage]
    exact iff_of_false id fun h => by omega
  rw [and_iff_right (by omega)]
  by_cases hinside : pos + 4 ≤ clientHello.len
  swap
  · unfold sniStage checkLength at hstage
    rw [wrap32_of_fits (by omega) (by omega), if_pos (by omega)] at hstage
    rw [← Turn.done.inj hstage]
    exact iff_of_true trivial fun h => absurd h hinside
  have hlow := lengthAt_nonneg clientHello (pos + 2)
  have hwrap := wrap32_pos_length (b := clientHello) (k := 4) (by omega) h0 (by omega) (pos + 2)
  rw [forall_prop_of_true hinside]
  rw [sniStage_inside h0 hinside] at hstage
  by_cases hend : wrap32 (pos + 4 + lengthAt clientHello (pos + 2)) > clientHello.len
  · rw [if_pos hend] at hstage
    rw [← Turn.done.inj hstage]
    have hhigh := lengthAt_lt clientHello (pos + 2)
    exact iff_of_true trivial fun h => by omega
  rw [if_neg hend] at hstage
  by_cases hid : lengthAt clientHello pos = 0
  · rw [if_pos hid] at hstage
    rw [if_pos hid, forall_prop_of_true (by omega),
      ← inBounds_sniFound_iff outDomain (by omega) hinside]
    cases hfound : sniFound clientHello outDomain (pos + 4) (lengthAt clientHello (pos + 2)) with
    | error e =>
      rw [hfound] at hstage
      rw [← Turn.done.inj hstage]
    | ok a =>
      rw [hfound] at hstage
      rw [← Turn.done.inj hstage]
  · rw [if_neg hid] at hstage
    cases hstage

/-- **The places where the loop looks for an extension**: behind the cipher suites, and behind each
extension that is not the name. -/
inductive ExtensionAt (b : Buffer) (start : ℤ) : ℤ → Prop
  | first : ExtensionAt b start start
  | next {pos : ℤ} (h : ExtensionAt b start pos) (hpos : pos + 4 ≤ b.len)
      (hid : lengthAt b pos ≠ 0) (hend : pos + 4 + lengthAt b (pos + 2) ≤ b.len) :
      ExtensionAt b start (pos + 4 + lengthAt b (pos + 2))

/-- The loop takes a turn at each of these places, as long as the sums fit. -/
theorem ExtensionAt.turn {start : ℤ} (h0 : 0 ≤ start)
    (hturns : EachTurn (fun pos => .ofStage (sniStage clientHello outDomain pos))
      (ExtensionFits clientHello) start) {pos : ℤ} (h : ExtensionAt clientHello start pos) :
    0 ≤ pos ∧ EachTurn (fun pos => .ofStage (sniStage clientHello outDomain pos))
      (ExtensionFits clientHello) pos := by
  have hlt := clientHello.len_lt
  induction h with
  | first => exact ⟨h0, hturns⟩
  | @next pos _ hpos hid hend ih =>
    obtain ⟨h0', hturns'⟩ := ih
    have hlow := lengthAt_nonneg clientHello (pos + 2)
    have hstage : sniStage clientHello outDomain pos =
        .ok (.again (pos + 4 + lengthAt clientHello (pos + 2))) := by
      rw [sniStage_inside h0' hpos, wrap32_of_fits (by omega) (by omega), if_neg (by omega),
        if_neg hid]
    exact ⟨by omega, hturns'.next (Turn.ofStage_eq_again.mpr hstage)⟩

/-- **The loop over the extensions reads inside the buffer exactly if the sums fit wherever it looks
for an extension.** -/
theorem inBounds_sni_iff {start : ℤ} (h0 : 0 ≤ start) (h : start ≤ clientHello.len) :
    InBounds (fun _ => True) (loop _ _ (sniStage_shrinks clientHello outDomain) start) ↔
      ∀ pos, ExtensionAt clientHello start pos → ExtensionFits clientHello pos := by
  have hturns : InBounds (fun _ => True) (loop _ _ (sniStage_shrinks clientHello outDomain) start) ↔
      EachTurn (fun pos => .ofStage (sniStage clientHello outDomain pos))
        (ExtensionFits clientHello) start := by
    refine loop_iff_of_lost (I := fun pos => 0 ≤ pos ∧ pos ≤ clientHello.len)
      (B := fun pos => -2 ^ 31 ≤ pos ∧ pos < -5) (sniStage_shrinks clientHello outDomain)
      (fun s s' hs hb => ?_) (fun s s' hs hb => ?_) (fun s r hs hb => ?_) (fun s r hs hb => ?_)
      ⟨h0, h⟩
    · exact sniStage_next hs.1 (Turn.ofStage_eq_again.mp hb)
    · rw [sniStage_negative hs.1 hs.2] at hb
      cases hb
    · exact sniStage_leaves hs.1 hs.2 hb
    · rw [sniStage_negative hs.1 hs.2] at hb
      rw [← Turn.done.inj hb]
      exact id
  rw [hturns]
  constructor
  · intro heach pos hpos
    exact (hpos.turn h0 heach).2.here
  · intro hfits
    refine eachTurn_of_inv (I := fun pos => 0 ≤ pos ∧ ExtensionAt clientHello start pos)
      (sniStage_shrinks clientHello outDomain) (fun pos hpos => hfits _ hpos.2)
      (fun pos pos' hpos hb => ?_) ⟨h0, .first⟩
    have hstage := Turn.ofStage_eq_again.mp hb
    obtain ⟨-, hinside, hid, heq, hle⟩ := sniStage_again hstage
    rcases sniStage_next hpos.1 hstage with ⟨-, h0', -⟩ | ⟨hnot, -⟩
    · rcases wrap32_pos_length (b := clientHello) (k := 4) (by omega) hpos.1 (by omega) (pos + 2)
        with ⟨-, hsum⟩ | ⟨-, hsum⟩
      · rw [hsum] at heq
        rw [heq] at hle h0' ⊢
        exact ⟨h0', .next hpos.2 hinside hid hle⟩
      · have hhigh := lengthAt_lt clientHello (pos + 2)
        have hlt := clientHello.len_lt
        omega
    · exact absurd (hfits _ hpos.2) hnot

end Sni

/-! ### The parsers -/

section Parsers

/-- The places `tls_check_server_hello` writes the sizes of records to. -/
structure RecordSizes where
  cells : List ℤ
  length_eq : cells.length = MAX_ENCRYPTED_RECORDS

/-- **The records of an answer fit**: where the answer is accepted up to its first record, the sums
fit wherever the loop looks for a record. -/
def RecordsFit (response : Buffer) (requestSessionId : SessionId) (isReversed : ℤ) : Prop :=
  (∃ s, helloStart response requestSessionId isReversed = .ok s) →
    ∀ pos, RecordAt response (11 + lengthAt response 3) pos → RecordFits response pos

theorem inBounds_tlsCheckServerHello_iff (response : Buffer) (requestSessionId : SessionId)
    (isReversed : ℤ) (sizes : RecordSizes) :
    InBounds (fun _ => True)
        (tlsCheckServerHello response requestSessionId isReversed sizes.cells) ↔
      RecordsFit response requestSessionId isReversed := by
  have hstart := inBounds_helloStart response requestSessionId isReversed
  have hlow := lengthAt_nonneg response 3
  unfold tlsCheckServerHello RecordsFit
  cases hs : helloStart response requestSessionId isReversed with
  | error e =>
    rw [hs] at hstart
    refine iff_of_true hstart ?_
    rintro ⟨s, hok⟩
    cases hok
  | ok s =>
    obtain ⟨hpos, hlen⟩ := hstart.ok hs
    have hinside : RecordInside response { pos := s.pos, sizes := sizes.cells, count := 0 } :=
      ⟨⟨by dsimp only; omega, hlen⟩, sizes.length_eq, by simp⟩
    have hturns := inBounds_records_iff hinside
    rw [forall_prop_of_true ⟨s, rfl⟩, ← hpos, ← hturns]
    simp only [Except.bind]
    cases hr : loop _ _ (recordStage_shrinks response)
        { pos := s.pos, sizes := sizes.cells, count := 0 } with
    | error e => exact Iff.rfl
    | ok r =>
      have hkeeps := (keepsSizes_records hinside.2).ok hr
      exact iff_of_true (.unless fun _ => trivial) hkeeps

/-- **An answer that is taken** has a record, and the sizes that are kept are those of records. -/
theorem tlsCheckServerHello_ok {response : Buffer} {requestSessionId : SessionId} {isReversed : ℤ}
    {sizes : RecordSizes} {out : HelloOut}
    (h : tlsCheckServerHello response requestSessionId isReversed sizes.cells = .ok out) :
    KeepsSizes out.sizes out.count ∧ 0 < out.count := by
  unfold tlsCheckServerHello at h
  obtain ⟨s, -, h⟩ := bind_ok_iff.mp h
  obtain ⟨r, hr, h⟩ := bind_ok_iff.mp h
  split_ifs at h with hcount
  rw [← Except.ok.inj h]
  have hstart : KeepsSizes sizes.cells 0 := ⟨sizes.length_eq, by simp⟩
  have hkeeps := (keepsSizes_records (s := { pos := s.pos, sizes := sizes.cells, count := 0 })
    hstart).ok hr
  exact ⟨hkeeps, Nat.pos_of_ne_zero hcount⟩

/-- **The extensions of a ClientHello fit**: where the cipher suites end in the buffer, the sums fit
wherever the loop looks for an extension. -/
def ExtensionsFit (clientHello : Buffer) : Prop :=
  82 + lengthAt clientHello 76 ≤ clientHello.len →
    ∀ pos, ExtensionAt clientHello (82 + lengthAt clientHello 76) pos →
      ExtensionFits clientHello pos

theorem inBounds_tlsParseSni_iff (clientHello : Buffer) (outDomain : Bytes) :
    InBounds (fun _ => True) (tlsParseSni clientHello outDomain) ↔ ExtensionsFit clientHello := by
  have hlt := clientHello.len_lt
  have hpos : (76 : ℤ) + 2 = 78 := by decide
  have h78 : wrap32 78 = 78 := by decide
  unfold tlsParseSni ExtensionsFit checkLength
  rw [hpos, h78]
  by_cases hshort : 78 > clientHello.len
  · rw [if_pos hshort]
    have hlow := lengthAt_nonneg clientHello 76
    generalize lengthAt clientHello 76 = n at hlow
    exact iff_of_true trivial fun h => by omega
  rw [if_neg hshort, ok_bind, tlsReadLength_inside (by decide) (by omega), ok_bind]
  have hlow := lengthAt_nonneg clientHello 76
  have hhigh := lengthAt_lt clientHello 76
  generalize lengthAt clientHello 76 = n at hlow hhigh
  have hstart : 78 + (n + 4) = 82 + n := by omega
  rw [hpos, hstart, wrap32_of_fits (by omega) (by omega)]
  by_cases hciphers : 82 + n > clientHello.len
  · rw [if_pos hciphers]
    exact iff_of_true trivial fun h => absurd h (not_le.mpr hciphers)
  rw [if_neg hciphers, ok_bind, forall_prop_of_true (not_lt.mp hciphers)]
  exact inBounds_sni_iff (by omega) (not_lt.mp hciphers)

/-- The cipher suites are read inside the buffer. -/
theorem inBounds_grease {clientHello : Buffer} {s : GreaseState} (h0 : 0 ≤ s.pos)
    (h : s.pos + s.left ≤ clientHello.len) :
    InBounds (fun s => 0 ≤ s.pos ∧ s.pos + s.left ≤ clientHello.len)
      (loop _ _ (greaseStage_shrinks clientHello) s) := by
  have hlt := clientHello.len_lt
  refine ends_loop (greaseStage_shrinks clientHello)
    (I := fun s => 0 ≤ s.pos ∧ s.pos + s.left ≤ clientHello.len) (fun s hs => ?_) ⟨h0, h⟩
  unfold greaseStage
  obtain ⟨hpos, hend⟩ := hs
  refine Ends.ite (fun _ => ⟨hpos, hend⟩) fun hleft => ?_
  refine Ends.bind (inBounds_readByte hpos (by omega)) fun _ _ => ?_
  refine Ends.ite (fun _ => ⟨hpos, hend⟩) fun _ => ?_
  rw [wrap32_of_fits (by omega) (by omega), wrap32_of_fits (by omega) (by omega)]
  refine Ends.bind (inBounds_readByte (by omega) (by omega)) fun _ _ => ?_
  refine Ends.ite (fun _ => ⟨hpos, hend⟩) fun _ => ?_
  exact ⟨by dsimp only; omega, by dsimp only; omega⟩

theorem inBounds_tlsParseClientHelloCiphers (clientHello : Buffer) :
    InBounds (fun _ => True) (tlsParseClientHelloCiphers clientHello) := by
  have hlt := clientHello.len_lt
  have hlow := lengthAt_nonneg clientHello 76
  have hhigh := lengthAt_lt clientHello 76
  have h0 : (0 : ℤ) ≤ 78 := by decide
  unfold tlsParseClientHelloCiphers
  refine .bind (inBounds_checkLength (by omega) (by omega)) fun _ h78 => ?_
  refine .bind (inBounds_tlsReadLength (by omega) (by omega)) ?_
  rintro _ rfl
  have hpos : (76 : ℤ) + 2 = 78 := by decide
  rw [hpos]
  generalize lengthAt clientHello 76 = n at hlow hhigh
  refine .bind (inBounds_checkLength (by omega) (by omega)) fun _ hciphers => ?_
  refine .bind (inBounds_grease h0 hciphers) ?_
  rintro s ⟨h0, hend⟩
  refine .unless fun hleft => ?_
  refine .bind (inBounds_readByte h0 (by omega)) fun _ _ => .unless fun _ => ?_
  rw [wrap32_of_fits (by omega) (by omega)]
  exact .bind (inBounds_readByte (by omega) (by omega)) fun _ _ => .unless fun _ => trivial

/-- **The parsers keep to their buffers exactly if the sums of their walks fit**: for every buffer
whose length is an `int`, whatever it holds. -/
theorem tlsParsers_inBounds_iff (b : Buffer) (requestSessionId : SessionId) (isReversed : ℤ)
    (sizes : RecordSizes) (outDomain : Bytes) :
    (InBounds (fun _ => True) (tlsCheckServerHello b requestSessionId isReversed sizes.cells) ∧
      InBounds (fun _ => True) (tlsParseSni b outDomain) ∧
      InBounds (fun _ => True) (tlsParseClientHelloCiphers b)) ↔
        RecordsFit b requestSessionId isReversed ∧ ExtensionsFit b := by
  rw [inBounds_tlsCheckServerHello_iff, inBounds_tlsParseSni_iff,
    and_iff_left (inBounds_tlsParseClientHelloCiphers b)]

end Parsers

/-! ### An answer of nearly `2 ^ 31` bytes -/

section Sample

theorem sampleSession_length : (List.replicate 32 (0 : UInt8)).length = 32 := by decide

/-- A session id. -/
def sampleSession : SessionId := ⟨List.replicate 32 0, sampleSession_length⟩

/-- A ServerHello and the dummy ChangeCipherSpec. -/
def sampleAnswer : Bytes :=
  [0x16, 0x03, 0x03, 0x00, 0x7A, 0x02, 0x00, 0x00, 0x76, 0x03, 0x03] ++ List.replicate 32 0 ++
  [0x20] ++ List.replicate 32 0 ++ [0x13, 0x01, 0x00, 0x00, 0x2E] ++
  [0x00, 0x33, 0x00, 0x24] ++ List.replicate 36 0 ++ [0x00, 0x2B, 0x00, 0x02, 0x03, 0x04] ++
  [0x14, 0x03, 0x03, 0x00, 0x01, 0x01]

variable {b : Buffer} {t : Bytes} {ε : Type*}

theorem checkLength_inside {pos length : ℤ} {e : ε} (h0 : 0 ≤ pos + length)
    (h : pos + length ≤ b.len) : checkLength b pos length e = .ok () := by
  have hlt := b.len_lt
  unfold checkLength
  rw [wrap32_of_fits (by omega) (by omega), if_neg (not_lt.mpr h)]

theorem expectStr_inside {pos : ℤ} {str : Bytes} {e : ε} (h0 : 0 ≤ pos)
    (h : pos + str.length ≤ b.len) (hspan : b.span pos str.length = str) :
    expectStr b pos str e = .ok () := by
  unfold expectStr
  rw [readSpan_inside h0 h, ok_bind, hspan, if_neg (not_not.mpr rfl)]

theorem len_sample (hb : b.bytes = sampleAnswer ++ t) : b.len = 133 + t.length := by
  have hlength : sampleAnswer.length = 133 := by simp [sampleAnswer]
  unfold Buffer.len
  rw [hb, List.length_append, hlength]
  push_cast
  rfl

/-- A length in the sample. -/
theorem lengthAt_sample (hb : b.bytes = sampleAnswer ++ t) {pos n : ℤ} (h0 : 0 ≤ pos)
    (h : pos.toNat + 1 < sampleAnswer.length)
    (hn : (sampleAnswer.getD pos.toNat 0).toNat * 256 +
      (sampleAnswer.getD (pos + 1).toNat 0).toNat = n) : lengthAt b pos = n := by
  have hnext : (pos + 1).toNat = pos.toNat + 1 := by omega
  unfold lengthAt
  rw [Buffer.byteAt_append hb (by omega), Buffer.byteAt_append hb (by omega)]
  exact hn

theorem sampleAnswer_length : sampleAnswer.length = 133 := by simp [sampleAnswer]

theorem helloHeader_sample (hb : b.bytes = sampleAnswer ++ t) :
    helloHeader b sampleSession = .ok (122, 81) := by
  have hlen := len_sample hb
  have hspan : ∀ {i : ℤ} {n : ℕ} {bs : Bytes}, i.toNat + n ≤ 133 →
      (sampleAnswer.drop i.toNat).take n = bs → b.span i n = bs :=
    fun h hbs => (Buffer.span_append hb (sampleAnswer_length.symm ▸ h)).trans hbs
  have hlength : ∀ {pos n : ℤ}, 0 ≤ pos → pos.toNat + 1 < 133 →
      (sampleAnswer.getD pos.toNat 0).toNat * 256 +
        (sampleAnswer.getD (pos + 1).toNat 0).toNat = n → lengthAt b pos = n :=
    fun h0 h hn => lengthAt_sample hb h0 (sampleAnswer_length.symm ▸ h) hn
  have hrandom : b.span 11 32 ≠ helloRetryRandom := by
    rw [hspan (i := 11) (n := 32) (by decide) rfl]
    decide
  have hsession : b.byteAt 43 ≠ 0 := by
    rw [Buffer.byteAt_append hb (sampleAnswer_length.symm ▸ by decide)]
    decide
  unfold helloHeader
  rw [checkLength_inside (by decide) (by omega), ok_bind,
    expectStr_inside (by decide) (by simp; omega) (hspan (by decide) (by decide)), ok_bind,
    checkLength_inside (by decide) (by omega), ok_bind,
    tlsReadLength_inside (by decide) (by omega), ok_bind,
    hlength (n := 122) (by decide) (by decide) (by decide)]
  dsimp only
  rw [if_neg (by decide), checkLength_inside (by decide) (by omega), ok_bind,
    expectStr_inside (by decide) (by simp; omega) (hspan (by decide) (by decide)), ok_bind,
    expectStr_inside (by decide) (by simp; omega) (hspan (by decide) (by decide)), ok_bind,
    readSpan_inside (by decide) (by push_cast; omega), ok_bind, if_neg hrandom,
    readByte_inside (by decide) (by omega), ok_bind, if_neg hsession,
    expectStr_inside (by decide) (by simp; omega) (hspan (by decide) (by decide)), ok_bind,
    if_neg (by decide), expectStr_inside (by decide) (by simp [sampleSession]; omega)
      (hspan (by decide) (by decide)), ok_bind,
    expectStr_inside (by decide) (by simp; omega) (hspan (by decide) (by decide)), ok_bind,
    tlsReadLength_inside (by decide) (by omega), ok_bind,
    hlength (n := 46) (by decide) (by decide) (by decide)]
  rfl

/-- An extension that is accepted. -/
theorem extensionStage_accepts {n id length pos isReversed sum : ℤ} (h0 : 0 ≤ pos)
    (hnext : pos < 5 + n - 4) (hid : lengthAt b pos = id)
    (hlength : lengthAt b (pos + 2) = length) (hknown : id = 0x33 ∨ id = 0x2b)
    (hexpected : length = expectedLength id) (hend : pos + 4 + length ≤ 5 + n)
    (hlen : 5 + n ≤ b.len) :
    extensionStage b n { pos := pos, isReversed := isReversed, sum := sum } = .ok (.again
      { pos := pos + 4 + length
        isReversed := orderSeen (pos + 2) id isReversed
        sum := sum + id }) := by
  have hlt := b.len_lt
  have hlow := lengthAt_nonneg b (pos + 2)
  have hpos : pos + 2 + 2 = pos + 4 := by omega
  unfold extensionStage
  dsimp only
  rw [if_neg (by omega), tlsReadLength_inside h0 (by omega), ok_bind, hid, if_neg (by omega),
    tlsReadLength_inside (by omega) (by omega), ok_bind, hlength, hpos,
    wrap32_of_fits (by omega) (by omega), if_neg (not_lt.mpr hend),
    if_neg (not_not.mpr hexpected)]

/-- **The sample is accepted up to its first record**, whatever comes behind it. -/
theorem helloStart_sample (hb : b.bytes = sampleAnswer ++ t) (isReversed : ℤ) :
    helloStart b sampleSession isReversed = .ok { pos := 133, isReversed := 0, sum := 94 } := by
  have hlen := len_sample hb
  have hlength : ∀ {pos n : ℤ}, 0 ≤ pos → pos.toNat + 1 < 133 →
      (sampleAnswer.getD pos.toNat 0).toNat * 256 +
        (sampleAnswer.getD (pos + 1).toNat 0).toNat = n → lengthAt b pos = n :=
    fun h0 h hn => lengthAt_sample hb h0 (sampleAnswer_length.symm ▸ h) hn
  have hfirst : extensionStage b 122 { pos := 81, isReversed := isReversed, sum := 0 } =
      .ok (.again { pos := 121, isReversed := 0, sum := 51 }) :=
    extensionStage_accepts (by decide) (by decide) (hlength (by decide) (by decide) (by decide))
      (hlength (by decide) (by decide) (by decide)) (Or.inl rfl) rfl (by decide) (by omega)
  have hsecond : extensionStage b 122 { pos := 121, isReversed := 0, sum := 51 } =
      .ok (.again { pos := 127, isReversed := 0, sum := 94 }) :=
    extensionStage_accepts (by decide) (by decide) (hlength (by decide) (by decide) (by decide))
      (hlength (by decide) (by decide) (by decide)) (Or.inr rfl) rfl (by decide) (by omega)
  have hlast : Turn.ofStage (extensionStage b 122 { pos := 127, isReversed := 0, sum := 94 }) =
      .done (.ok { pos := 127, isReversed := 0, sum := 94 }) := by
    unfold extensionStage
    rw [if_pos (by decide)]
    rfl
  have hspan : b.span 127 6 = [0x14, 0x03, 0x03, 0x00, 0x01, 0x01] :=
    (Buffer.span_append hb (sampleAnswer_length.symm ▸ by decide)).trans (by decide)
  unfold helloStart
  rw [helloHeader_sample hb, ok_bind,
    loop_of_again _ (Turn.ofStage_eq_again.mpr hfirst),
    loop_of_again _ (Turn.ofStage_eq_again.mpr hsecond),
    loop_of_done _ hlast, ok_bind, if_neg (by decide), if_neg (by decide),
    checkLength_inside (by decide) (by dsimp only; omega), ok_bind,
    expectStr_inside (by decide) (by simp; omega) hspan, ok_bind]
  rfl

/-- The bytes of a record of 65535 bytes. -/
def longRecordByte (i : ℕ) : UInt8 :=
  if i = 0 then 0x17 else if i < 3 then 0x03 else if i < 5 then 0xFF else 0

/-- The beginning of a sequence of records of 65535 bytes. -/
def longRecords (n : ℕ) : Bytes := (List.range n).map fun i => longRecordByte (i % 65540)

theorem longAnswer_length : (sampleAnswer ++ longRecords (2 ^ 31 - 134)).length < 2 ^ 31 := by
  rw [List.length_append, sampleAnswer_length, longRecords, List.length_map, List.length_range]
  omega

/-- The sample with as many records behind it as there is room for. -/
def longAnswer : Buffer := ⟨sampleAnswer ++ longRecords (2 ^ 31 - 134), longAnswer_length⟩

theorem longAnswer_len : longAnswer.len = 2 ^ 31 - 1 := by
  have hlen := len_sample (b := longAnswer) rfl
  rw [longRecords, List.length_map, List.length_range] at hlen
  omega

theorem longAnswer_byteAt {k i : ℕ} (hk : k ≤ 32765) (hi : i < 5) :
    longAnswer.byteAt (133 + 65540 * k + i) = longRecordByte i := by
  have hindex : ((133 : ℤ) + 65540 * k + i).toNat = 133 + (65540 * k + i) := by omega
  unfold Buffer.byteAt longAnswer
  dsimp only
  rw [hindex, List.getD_append_right _ _ _ _ (by rw [sampleAnswer_length]; omega),
    sampleAnswer_length, Nat.add_sub_cancel_left, longRecords,
    List.getD_eq_getElem _ _ (by rw [List.length_map, List.length_range]; omega)]
  simp only [List.getElem_map, List.getElem_range]
  congr 1
  omega

theorem longAnswer_head {k : ℕ} (hk : k ≤ 32765) :
    longAnswer.span (133 + 65540 * k) 3 = recordHead := by
  have hlen := longAnswer_len
  rw [Buffer.span_eq_map (by omega) (by push_cast; omega)]
  have hbytes : (List.range 3).map (fun j => longAnswer.byteAt (133 + 65540 * k + (j : ℕ))) =
      (List.range 3).map longRecordByte := by
    refine List.map_congr_left fun j hj => longAnswer_byteAt hk ?_
    rw [List.mem_range] at hj
    omega
  exact hbytes

theorem longAnswer_lengthAt {k : ℕ} (hk : k ≤ 32765) :
    lengthAt longAnswer (133 + 65540 * k + 3) = 65535 := by
  have hhi := longAnswer_byteAt hk (i := 3) (by decide)
  have hlo := longAnswer_byteAt hk (i := 4) (by decide)
  have hpos : (133 : ℤ) + 65540 * k + (4 : ℕ) = 133 + 65540 * k + 3 + 1 := by push_cast; omega
  rw [hpos] at hlo
  unfold lengthAt
  rw [hlo]
  push_cast at hhi
  rw [hhi]
  decide

/-- A record begins every 65540 bytes. -/
theorem longAnswer_records {k : ℕ} (hk : k ≤ 32765) :
    RecordAt longAnswer 133 (133 + 65540 * k) := by
  have hlen := longAnswer_len
  induction k with
  | zero => exact .first
  | succ k ih =>
    have hlength := longAnswer_lengthAt (k := k) (by omega)
    have hnext := RecordAt.next (ih (by omega)) (by omega) (longAnswer_head (by omega))
      (by omega) (by omega)
    have hpos : (133 : ℤ) + 65540 * k + 5 + lengthAt longAnswer (133 + 65540 * k + 3) =
        133 + 65540 * (k + 1 : ℕ) := by push_cast; omega
    rw [hpos] at hnext
    exact hnext

theorem sampleSizes_length : (List.replicate 8 (0 : ℤ)).length = MAX_ENCRYPTED_RECORDS := by decide

/-- The sizes before an answer is read. -/
def sampleSizes : RecordSizes := ⟨List.replicate 8 0, sampleSizes_length⟩

/-- In an answer of `2 ^ 31 - 1` bytes the last record ends behind the largest `int`, and the next
one is looked for at a negative position. -/
theorem tlsCheckServerHello_long :
    ¬ InBounds (fun _ => True)
      (tlsCheckServerHello longAnswer sampleSession 0 sampleSizes.cells) := by
  have hstart := helloStart_sample (b := longAnswer) rfl 0
  have hlen := longAnswer_len
  have hlength : lengthAt longAnswer 3 = 122 :=
    lengthAt_sample (b := longAnswer) rfl (by decide) (by rw [sampleAnswer_length]; decide)
      (by decide)
  rw [inBounds_tlsCheckServerHello_iff]
  intro hfits
  have hlast := hfits ⟨_, hstart⟩ (133 + 65540 * (32765 : ℕ))
    (hlength ▸ longAnswer_records le_rfl)
  unfold RecordFits at hlast
  rw [if_pos (by decide)] at hlast
  have hsum := hlast (by omega) (longAnswer_head le_rfl)
  rw [longAnswer_lengthAt le_rfl] at hsum
  exact absurd hsum (by decide)

end Sample

end Server
end Teleproto3
