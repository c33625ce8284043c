/-
# HTTP chunked framing

The writer and the parser of HTTP chunks in `lib/src/t3_http_stream.c`.  The
parser works on whatever bytes have arrived: it finds the end of the size line,
reads the hexadecimal size in front of an optional extension, and hands out the
data once the whole chunk is there.

`HttpChunk` is a chunk as the framing rules of `spec/wire-format.md` §2.2 allow
one: a hexadecimal size of at most 65535, an extension of at most 255 bytes, the
data, and the two line ends; the terminal chunk is the one without data.  On such a chunk with anything behind it the parser hands out the data
(`t3HttpChunkParse_encode`); on a part of it, it hands out nothing
(`t3HttpChunkParse_incomplete`).
-/

import Mathlib.Data.Nat.Digits.Defs
import Teleproto3.Lib.Bytes
import Teleproto3.Wire.Result

namespace Teleproto3
namespace Wire

open Lib

/-! ### The writer -/

/-- The lower-case digit `t3__size_to_hex` writes for a remainder. -/
def hexChar (d : ℕ) : UInt8 :=
  if d < 10 then UInt8.ofNat (0x30 + d) else UInt8.ofNat (0x61 + d - 10)

/-- `t3__size_to_hex`: the remainders by 16, collected low digit first and reversed. -/
def t3SizeToHex (val : ℕ) : Bytes :=
  if val = 0 then [0x30] else ((Nat.digits 16 val).map hexChar).reverse

/-- `t3_http_chunk_write`, with the capacity of `out` and the bytes of `data`. -/
def t3HttpChunkWrite (outCap : ℕ) (data : Bytes) : Except T3Result Bytes :=
  if data.length = 0 then .error .invalidArg
  else
    let hex := t3SizeToHex data.length
    let required := hex.length + 2 + data.length + 2
    if outCap < required then .error .bufTooSmall
    else .ok (hex ++ crlf ++ data ++ crlf)

/-! ### The parser -/

/-- The value of a hexadecimal digit, of either case. -/
def hexDigit (c : UInt8) : Option ℕ :=
  if 0x30 ≤ c ∧ c ≤ 0x39 then some (c.toNat - 0x30)
  else if 0x61 ≤ c ∧ c ≤ 0x66 then some (c.toNat - 0x61 + 10)
  else if 0x41 ≤ c ∧ c ≤ 0x46 then some (c.toNat - 0x41 + 10)
  else none

/-- One turn of the loop of `t3__hex_to_size`, with its overflow check. -/
def hexToSizeStep (val : ℕ) (c : UInt8) : Option ℕ :=
  match hexDigit c with
  | none => none
  | some digit => if val > (SIZE_MAX - digit) / 16 then none else some (val * 16 + digit)

/-- `t3__hex_to_size`. -/
def t3HexToSize (hex : Bytes) : Option ℕ :=
  if hex.length = 0 then none else hex.foldlM hexToSizeStep 0

/-- What `t3_http_chunk_parse` reports of a chunk: its data and how many bytes it took. -/
structure ChunkView where
  data : Bytes
  consumed : ℕ
  deriving DecidableEq, Repr

/-- The part of `t3_http_chunk_parse` that reads the size line: the size, or nothing
for a line the parser calls malformed. -/
def t3HttpChunkLine (line : Bytes) : Option ℕ :=
  -- The hexadecimal part ends at the first `;`, or with the line.
  let hexLen := line.idxOf 0x3B
  if line.length = 0 then none
  else if hexLen < line.length ∧ line.length - hexLen - 1 > 255 then none
  else if hexLen = 0 then none
  else t3HexToSize (line.take hexLen)

/-- The part of `t3_http_chunk_parse` after the size has been read. -/
def t3HttpChunkBody (buf : Bytes) (lineLen chunkSize : ℕ) : Except T3Result ChunkView :=
  if chunkSize > 65535 then .error .malformed
  else if chunkSize = 0 then
    if buf.length < lineLen + 2 + 2 then .error .bufTooSmall
    else if (buf.drop (lineLen + 2)).take 2 ≠ crlf then .error .malformed
    else .ok ⟨[], lineLen + 2 + 2⟩
  else if chunkSize > SIZE_MAX - (lineLen + 2) - 2 then .error .malformed
  else if buf.length < lineLen + 2 + chunkSize + 2 then .error .bufTooSmall
  else if (buf.drop (lineLen + 2 + chunkSize)).take 2 ≠ crlf then .error .malformed
  else .ok ⟨(buf.drop (lineLen + 2)).take chunkSize, lineLen + 2 + chunkSize + 2⟩

/-- `t3_http_chunk_parse` on the bytes that have arrived. -/
def t3HttpChunkParse (buf : Bytes) : Except T3Result ChunkView :=
  if buf.length < 2 then .error .bufTooSmall
  else
    match findCrlf buf with
    | none => if buf.length > 16 + 2 + 255 then .error .malformed else .error .bufTooSmall
    | some lineLen =>
      match t3HttpChunkLine (buf.take lineLen) with
      | none => .error .malformed
      | some chunkSize => t3HttpChunkBody buf lineLen chunkSize

theorem t3HttpChunkBody_consumed {buf : Bytes} {lineLen chunkSize : ℕ} {v : ChunkView}
    (h : t3HttpChunkBody buf lineLen chunkSize = .ok v) :
    4 ≤ v.consumed ∧ v.consumed ≤ buf.length ∧ v.data.length ≤ v.consumed := by
  unfold t3HttpChunkBody at h
  split_ifs at h with h1 h2 h3 h4 h5 h6 h7
  · cases h
    simp only [List.length_nil]
    omega
  · cases h
    simp only [List.length_take, List.length_drop]
    omega

/-- **A chunk handed out has arrived.**  It takes at least four bytes, all of them in
the buffer. -/
theorem t3HttpChunkParse_consumed {buf : Bytes} {v : ChunkView}
    (h : t3HttpChunkParse buf = .ok v) :
    4 ≤ v.consumed ∧ v.consumed ≤ buf.length ∧ v.data.length ≤ v.consumed := by
  unfold t3HttpChunkParse at h
  by_cases h1 : buf.length < 2
  · rw [if_pos h1] at h
    exact nomatch h
  · rw [if_neg h1] at h
    cases hfind : findCrlf buf with
    | none =>
      simp only [hfind] at h
      split_ifs at h
    | some lineLen =>
      simp only [hfind] at h
      cases hline : t3HttpChunkLine (buf.take lineLen) with
      | none =>
        simp only [hline] at h
        exact nomatch h
      | some chunkSize =>
        simp only [hline] at h
        exact t3HttpChunkBody_consumed h

/-! ### Valid chunks -/

/-- The number a string of hexadecimal digits spells. -/
def hexValue (hex : Bytes) : Option ℕ :=
  hex.foldlM (fun val c => (hexDigit c).map (val * 16 + ·)) 0

/-- The digit written for a remainder is read as that remainder. -/
theorem hexDigit_hexChar {d : ℕ} (h : d < 16) : hexDigit (hexChar d) = some d := by
  have hall : ∀ d < 16, hexDigit (hexChar d) = some d := by decide
  exact hall d h

/-- Digits, the low one first, spell in reverse the number they are the digits of. -/
theorem hexValue_reverse_map {ds : List ℕ} (h : ∀ d ∈ ds, d < 16) :
    hexValue (ds.map hexChar).reverse = some (Nat.ofDigits 16 ds) := by
  induction ds with
  | nil => rfl
  | cons d ds ih =>
    have hrest : hexValue (ds.map hexChar).reverse = some (Nat.ofDigits 16 ds) :=
      ih fun e he => h e (List.mem_cons_of_mem _ he)
    rw [hexValue] at hrest ⊢
    rw [List.map_cons, List.reverse_cons, List.foldlM_append, hrest]
    simp only [Option.bind_eq_bind, Option.bind_some, List.foldlM_cons, List.foldlM_nil,
      hexDigit_hexChar (h d List.mem_cons_self), Option.map_some, Option.pure_def,
      Nat.ofDigits_cons]
    rw [Nat.mul_comm, Nat.add_comm]

/-- **The size written is the size read.** -/
theorem hexValue_t3SizeToHex (n : ℕ) : hexValue (t3SizeToHex n) = some n := by
  unfold t3SizeToHex
  split_ifs with h
  · rw [h]
    rfl
  · rw [hexValue_reverse_map fun d hd => Nat.digits_lt_base (by decide) hd, Nat.ofDigits_digits]

theorem t3SizeToHex_ne_nil (n : ℕ) : t3SizeToHex n ≠ [] := by
  unfold t3SizeToHex
  split_ifs with h
  · exact List.cons_ne_nil _ _
  · intro hnil
    rw [List.reverse_eq_nil_iff, List.map_eq_nil_iff] at hnil
    exact h (Nat.digits_eq_nil_iff_eq_zero.mp hnil)

/-- A chunk as `spec/wire-format.md` §2.2 allows it.  Without data it is the terminal
chunk. -/
structure HttpChunk where
  /-- the digits of the size, with any number of leading zeros -/
  hex : Bytes
  /-- the extension behind `;`, where there is one -/
  ext : Option Bytes
  data : Bytes
  hex_ne_nil : hex ≠ []
  size : hexValue hex = some data.length
  data_le : data.length ≤ 65535
  ext_le : ∀ e ∈ ext, e.length ≤ 255
  ext_line : ∀ e ∈ ext, findCrlf e = none

namespace HttpChunk

/-- Without an extension there is nothing to say of it. -/
theorem no_ext_le : ∀ e ∈ (none : Option Bytes), e.length ≤ 255 := nofun

theorem no_ext_line : ∀ e ∈ (none : Option Bytes), findCrlf e = none := nofun

/-- A size in its shortest form. -/
theorem digits_ne_nil (data : Bytes) : t3SizeToHex data.length ≠ [] := t3SizeToHex_ne_nil _

theorem digits_size (data : Bytes) : hexValue (t3SizeToHex data.length) = some data.length :=
  hexValue_t3SizeToHex _

/-- The extension with its `;`. -/
def extBytes (c : HttpChunk) : Bytes :=
  match c.ext with
  | none => []
  | some e => 0x3B :: e

/-- The size line, without its line end. -/
def line (c : HttpChunk) : Bytes := c.hex ++ c.extBytes

/-- The bytes of a chunk on the wire. -/
def encode (c : HttpChunk) : Bytes := c.line ++ crlf ++ (c.data ++ crlf)

end HttpChunk

/-! ### Reading a valid chunk -/

theorem hexDigit_lt {c : UInt8} {d : ℕ} (h : hexDigit c = some d) : d < 16 := by
  unfold hexDigit at h
  simp only [UInt8.le_iff_toNat_le] at h
  split_ifs at h with h1 h2 h3
  all_goals
    cases h
    simp at *
    omega

/-- The loop of `t3__hex_to_size` computes the number spelled, as long as that fits. -/
theorem foldlM_hexToSizeStep (hex : Bytes) (val n : ℕ)
    (h : hex.foldlM (fun val c => (hexDigit c).map (val * 16 + ·)) val = some n)
    (hn : n ≤ SIZE_MAX) :
    hex.foldlM hexToSizeStep val = some n ∧ val ≤ n := by
  induction hex generalizing val with
  | nil =>
    cases h
    exact ⟨rfl, Nat.le_refl _⟩
  | cons c hex ih =>
    simp only [List.foldlM_cons, Option.bind_eq_bind] at h ⊢
    cases hc : hexDigit c with
    | none =>
      rw [hc] at h
      exact nomatch h
    | some d =>
      rw [hc] at h
      obtain ⟨hfold, hle⟩ := ih (val * 16 + d) h
      have hstep : hexToSizeStep val c = some (val * 16 + d) := by
        simp only [hexToSizeStep, hc]
        rw [if_neg (by omega)]
      refine ⟨?_, by omega⟩
      rw [hstep]
      exact hfold

theorem t3HexToSize_of_hexValue {hex : Bytes} {n : ℕ} (hne : hex ≠ [])
    (h : hexValue hex = some n) (hn : n ≤ SIZE_MAX) : t3HexToSize hex = some n := by
  have hlen : hex.length ≠ 0 := fun h0 => hne (List.length_eq_zero_iff.mp h0)
  rw [t3HexToSize, if_neg hlen]
  exact (foldlM_hexToSizeStep hex 0 n h hn).1

/-- Every byte of a hexadecimal number is a hexadecimal digit. -/
theorem hexDigit_of_mem {hex : Bytes} {val n : ℕ}
    (h : hex.foldlM (fun val c => (hexDigit c).map (val * 16 + ·)) val = some n) :
    ∀ c ∈ hex, hexDigit c ≠ none := by
  induction hex generalizing val with
  | nil => exact fun c hc => absurd hc (by simp)
  | cons a hex ih =>
    simp only [List.foldlM_cons, Option.bind_eq_bind] at h
    cases ha : hexDigit a with
    | none =>
      rw [ha] at h
      exact nomatch h
    | some d =>
      rw [ha] at h
      intro c hc
      rcases List.mem_cons.mp hc with rfl | hc
      · rw [ha]
        exact nofun
      · exact ih h c hc

namespace HttpChunk

variable (c : HttpChunk)

theorem notMem_hex {b : UInt8} (hb : hexDigit b = none) : b ∉ c.hex :=
  fun h => hexDigit_of_mem c.size b h hb

theorem hex_length_pos : 0 < c.hex.length := List.length_pos_iff.mpr c.hex_ne_nil

theorem findCrlf_line : findCrlf c.line = none := by
  refine findCrlf_append_of_notMem _ _ (c.notMem_hex (by decide)) ?_
  unfold extBytes
  cases hext : c.ext with
  | none => rfl
  | some e =>
    exact findCrlf_append_of_notMem [0x3B] e (by decide) (c.ext_line e hext)

/-- The parser reads the size off the line. -/
theorem t3HttpChunkLine_line : t3HttpChunkLine c.line = some c.data.length := by
  have hpos := c.hex_length_pos
  have hlen : c.line.length = c.hex.length + c.extBytes.length := List.length_append
  have hnot : (0x3B : UInt8) ∉ c.hex := c.notMem_hex (by decide)
  have hidx : c.line.idxOf 0x3B = c.hex.length := by
    rw [line, List.idxOf_append_of_notMem hnot]
    unfold extBytes
    cases c.ext with
    | none => rfl
    | some e => simp
  have hext : c.extBytes.length ≤ 256 := by
    unfold extBytes
    cases hext : c.ext with
    | none => exact Nat.zero_le _
    | some e => exact Nat.succ_le_succ (c.ext_le e hext)
  have hsize : t3HexToSize c.hex = some c.data.length :=
    t3HexToSize_of_hexValue c.hex_ne_nil c.size
      (Nat.le_trans c.data_le (by simp only [SIZE_MAX]; omega))
  unfold t3HttpChunkLine
  simp only [hidx]
  rw [if_neg (by omega), if_neg (by omega), if_neg (by omega), line, List.take_left, hsize]

end HttpChunk

/-- **A valid chunk is handed out**, whatever has arrived behind it. -/
theorem t3HttpChunkParse_encode (c : HttpChunk) (rest : Bytes)
    (hlen : c.line.length ≤ 2 ^ 63) :
    t3HttpChunkParse (c.encode ++ rest) = .ok ⟨c.data, c.encode.length⟩ := by
  have hpos : 0 < c.line.length := by
    have := c.hex_length_pos
    rw [HttpChunk.line, List.length_append]
    omega
  have hbuf : c.encode ++ rest = c.line ++ crlf ++ (c.data ++ crlf ++ rest) := by
    simp only [HttpChunk.encode, List.append_assoc]
  have henc : c.encode.length = c.line.length + 2 + c.data.length + 2 := by
    simp only [HttpChunk.encode, List.length_append, crlf_length]
    omega
  have hfind := findCrlf_line c.line (c.data ++ crlf ++ rest) c.findCrlf_line
  have htake : (c.line ++ crlf ++ (c.data ++ crlf ++ rest)).take c.line.length = c.line := by
    rw [List.append_assoc, List.take_left]
  have hdata : (c.line ++ crlf ++ (c.data ++ crlf ++ rest)).drop (c.line.length + 2)
      = c.data ++ crlf ++ rest := List.drop_left' (by rw [List.length_append, crlf_length])
  have hend : (c.line ++ crlf ++ (c.data ++ crlf ++ rest)).drop
      (c.line.length + 2 + c.data.length) = crlf ++ rest := by
    rw [← List.drop_drop, hdata, List.append_assoc, List.drop_left]
  have hcrlf : (crlf ++ rest).take 2 = crlf := List.take_left' crlf_length
  have hbuflen : (c.line ++ crlf ++ (c.data ++ crlf ++ rest)).length
      = c.line.length + 2 + c.data.length + 2 + rest.length := by
    simp only [List.length_append, crlf_length]
    omega
  rw [hbuf, t3HttpChunkParse, if_neg (by omega), hfind]
  simp only [htake, c.t3HttpChunkLine_line]
  have hle := c.data_le
  rw [t3HttpChunkBody, if_neg (by omega)]
  by_cases h0 : c.data.length = 0
  · have hnil : c.data = [] := List.length_eq_zero_iff.mp h0
    rw [h0, Nat.add_zero] at hend
    rw [if_pos h0, if_neg (by omega), hend, if_neg (fun h => h hcrlf), hnil, henc, h0]
  · have hmax : ¬ c.data.length > SIZE_MAX - (c.line.length + 2) - 2 := by
      simp only [SIZE_MAX]
      omega
    rw [if_neg h0, if_neg hmax, if_neg (by omega), hend, if_neg (fun h => h hcrlf), hdata,
      List.append_assoc, List.take_left, henc]

/-- A part of a valid chunk: the end of the size line has not arrived, or the data and their line
end are not all there. -/
theorem t3HttpChunkParse_part (c : HttpChunk) (p : Bytes) (hp : p <+: c.encode)
    (hlt : p.length < c.encode.length) :
    (findCrlf p = none ∧ p.length ≤ c.line.length + 1) ∨
      (p.length < c.line.length + 2 + c.data.length + 2 ∧
        t3HttpChunkParse p = t3HttpChunkBody p c.line.length c.data.length) := by
  have henc : c.encode = (c.line ++ [13]) ++ (10 :: (c.data ++ crlf)) := by
    simp only [HttpChunk.encode, crlf, List.append_assoc, List.cons_append, List.nil_append]
  have hlen : c.encode.length = c.line.length + 2 + c.data.length + 2 := by
    simp only [HttpChunk.encode, List.length_append, crlf_length]
    omega
  rw [henc] at hp
  rcases prefix_append_cases hp with ⟨hline, hshort⟩ | ⟨q, rfl, hq⟩
  · rw [List.length_append, List.length_singleton] at hshort
    exact Or.inl ⟨findCrlf_of_prefix_line c.line p c.findCrlf_line hline, by omega⟩
  · rcases List.prefix_cons_iff.mp hq with rfl | ⟨t, rfl, ht⟩
    · rw [List.append_nil, List.length_append, List.length_singleton]
      exact Or.inl ⟨findCrlf_of_prefix_line c.line _ c.findCrlf_line (List.prefix_refl _),
        le_refl _⟩
    · have hbuf : c.line ++ [13] ++ 10 :: t = c.line ++ crlf ++ t := by
        simp only [crlf, List.append_assoc, List.cons_append, List.nil_append]
      have htake : (c.line ++ crlf ++ t).take c.line.length = c.line := by
        rw [List.append_assoc, List.take_left]
      refine Or.inr ⟨by omega, ?_⟩
      have h2 : ¬ (c.line ++ crlf ++ t).length < 2 := by
        simp only [List.length_append, crlf_length]
        omega
      rw [hbuf, t3HttpChunkParse, if_neg h2, findCrlf_line c.line t c.findCrlf_line]
      simp only [htake, c.t3HttpChunkLine_line]

/-- **A part of a valid chunk is not handed out.** -/
theorem t3HttpChunkParse_incomplete (c : HttpChunk) (p : Bytes) (hp : p <+: c.encode)
    (hlt : p.length < c.encode.length) (v : ChunkView) : t3HttpChunkParse p ≠ .ok v := by
  intro h
  have hcon := (t3HttpChunkParse_consumed h).2.1
  rcases t3HttpChunkParse_part c p hp hlt with ⟨hnone, -⟩ | ⟨hshort, heq⟩
  · rw [t3HttpChunkParse, hnone] at h
    simp only at h
    split_ifs at h
  · rw [heq] at h
    unfold t3HttpChunkBody at h
    split_ifs at h
    · omega

/-- **It is waited for** where its size line is not longer than the parser looks for one. -/
theorem t3HttpChunkParse_waits (c : HttpChunk) (p : Bytes) (hp : p <+: c.encode)
    (hlt : p.length < c.encode.length) (hline : c.line.length ≤ 272) :
    t3HttpChunkParse p = .error .bufTooSmall := by
  have hdata := c.data_le
  rcases t3HttpChunkParse_part c p hp hlt with ⟨hnone, hle⟩ | ⟨hshort, heq⟩
  · rw [t3HttpChunkParse, hnone]
    simp only
    split_ifs with h2 hlong
    · rfl
    · omega
    · rfl
  · have hmax : ¬ c.data.length > SIZE_MAX - (c.line.length + 2) - 2 := by
      simp only [SIZE_MAX]
      omega
    rw [heq, t3HttpChunkBody, if_neg (by omega)]
    by_cases h0 : c.data.length = 0
    · rw [if_pos h0, if_pos (by omega)]
    · rw [if_neg h0, if_neg hmax, if_pos (by omega)]

end Wire
end Teleproto3
