/-
# Chunks that arrive in parts

`t3_http_chunk_parse` is called on what has arrived of a stream.  Where it asks for more bytes,
the caller comes back with more.  For that to be sound its answers have to fit together: a chunk
it hands out must be waited for as long as it is not all there, and a malformed stream must stay
malformed.

A line end that has been seen settles everything.  Without one the parser goes by the number of
bytes, 273, which leaves room for 16 digits and an extension of 255 bytes.  But it reads any
number of leading zeros, so that there are lines it gives up although it reads them when they
arrive whole.  `chunkSplits_iff` says which.
-/

import Teleproto3.Lib.Incremental
import Teleproto3.Server.ChunkStream

namespace Teleproto3
namespace Server

open Lib Wire

/-! ### The parser, by what stands at the front -/

/-- The end of a size line has been seen. -/
theorem t3HttpChunkParse_line {buf : Bytes} {lineLen size : ℕ} (hfind : findCrlf buf = some lineLen)
    (h : SizeLine (buf.take lineLen) size) :
    t3HttpChunkParse buf = t3HttpChunkBody buf lineLen size := by
  rw [t3HttpChunkParse_eq, t3HttpChunkHeader_of_sizeLine hfind h]
  rfl

/-- The end of another line has been seen. -/
theorem t3HttpChunkParse_noLine {buf : Bytes} {lineLen : ℕ} (hfind : findCrlf buf = some lineLen)
    (h : ∀ size, ¬ SizeLine (buf.take lineLen) size) :
    t3HttpChunkParse buf = .error .malformed := by
  rw [t3HttpChunkParse_eq, t3HttpChunkHeader_of_not hfind h]

/-- No end of a line has been seen. -/
theorem t3HttpChunkParse_none {buf : Bytes} (hfind : findCrlf buf = none) :
    t3HttpChunkParse buf = .error (if 273 < buf.length then .malformed else .bufTooSmall) := by
  rw [t3HttpChunkParse, hfind]
  dsimp only
  split_ifs <;> first | rfl | omega

/-- What the parser makes of the data does not change with what is behind it. -/
theorem t3HttpChunkBody_append {buf : Bytes} {lineLen size : ℕ} (rest : Bytes)
    (h : t3HttpChunkBody buf lineLen size ≠ .error .bufTooSmall) :
    t3HttpChunkBody (buf ++ rest) lineLen size = t3HttpChunkBody buf lineLen size := by
  have hwindow (n : ℕ) (hn : n + 2 ≤ buf.length) :
      ((buf ++ rest).drop n).take 2 = (buf.drop n).take 2 := by
    rw [List.drop_append_of_le_length (by omega),
      List.take_append_of_le_length (by rw [List.length_drop]; omega)]
  unfold t3HttpChunkBody at h ⊢
  rw [List.length_append]
  by_cases hbig : size > 65535
  · rw [if_pos hbig, if_pos hbig]
  rw [if_neg hbig] at h
  rw [if_neg hbig, if_neg hbig]
  by_cases h0 : size = 0
  · rw [if_pos h0] at h
    rw [if_pos h0, if_pos h0]
    by_cases hshort : buf.length < lineLen + 2 + 2
    · exact absurd (if_pos hshort) h
    · rw [if_neg hshort, if_neg (by omega), hwindow _ (by omega)]
  · rw [if_neg h0] at h
    rw [if_neg h0, if_neg h0]
    by_cases hmax : size > SIZE_MAX - (lineLen + 2) - 2
    · rw [if_pos hmax, if_pos hmax]
    rw [if_neg hmax] at h
    rw [if_neg hmax, if_neg hmax]
    by_cases hshort : buf.length < lineLen + 2 + size + 2
    · exact absurd (if_pos hshort) h
    · rw [if_neg hshort, if_neg (by omega), hwindow _ (by omega),
        List.drop_append_of_le_length (by omega),
        List.take_append_of_le_length (by rw [List.length_drop]; omega)]

/-- A line end seen settles the parser's answer, but for its asking for more. -/
theorem t3HttpChunkParse_append {buf : Bytes} {lineLen : ℕ} (hfind : findCrlf buf = some lineLen)
    (rest : Bytes) (h : t3HttpChunkParse buf ≠ .error .bufTooSmall) :
    t3HttpChunkParse (buf ++ rest) = t3HttpChunkParse buf := by
  have hfind' := findCrlf_append hfind rest
  have htake : (buf ++ rest).take lineLen = buf.take lineLen :=
    List.take_append_of_le_length (by have := findCrlf_lt hfind; omega)
  by_cases hline : ∃ size, SizeLine (buf.take lineLen) size
  · obtain ⟨size, hline⟩ := hline
    rw [t3HttpChunkParse_line hfind hline] at h ⊢
    rw [t3HttpChunkParse_line hfind' (htake ▸ hline), t3HttpChunkBody_append rest h]
  · have hno : ∀ size, ¬ SizeLine (buf.take lineLen) size := fun size hs => hline ⟨size, hs⟩
    rw [t3HttpChunkParse_noLine hfind hno, t3HttpChunkParse_noLine hfind' (htake ▸ hno)]

/-! ### What is handed out is a chunk -/

/-- A size line with as much data makes a chunk. -/
theorem exists_httpChunk {line data : Bytes} (h : SizeLine line data.length)
    (hline : findCrlf line = none) : ∃ c : HttpChunk, c.line = line ∧ c.data = data := by
  obtain ⟨hex, ext, rfl, hne, hval, hsize, rfl | ⟨e, rfl, he⟩⟩ := h
  · exact ⟨⟨hex, none, data, hne, hval, hsize, by simp, by simp⟩, rfl, rfl⟩
  · have hnone : findCrlf e = none := by
      have hline' : findCrlf ((hex ++ [0x3B]) ++ e) = none := by
        rw [List.append_assoc]
        exact hline
      exact findCrlf_of_append hline'
    refine ⟨⟨hex, some e, data, hne, hval, hsize, ?_, ?_⟩, rfl, rfl⟩
    · rintro e' ⟨⟩
      exact he
    · rintro e' ⟨⟩
      exact hnone

/-- **The parser hands out the chunk at the front, and nothing else.** -/
theorem t3HttpChunkParse_ok_iff {buf : Bytes} {v : ChunkView} (hbuf : buf.length ≤ 2 ^ 63) :
    t3HttpChunkParse buf = .ok v ↔
      ∃ c : HttpChunk, c.encode <+: buf ∧ v = ⟨c.data, c.encode.length⟩ := by
  constructor
  · intro h
    cases hfind : findCrlf buf with
    | none =>
      rw [t3HttpChunkParse_none hfind] at h
      cases h
    | some lineLen =>
      obtain ⟨hnone, rest, hsplit⟩ := findCrlf_split hfind
      have hlen := findCrlf_lt hfind
      by_cases hline : ∃ size, SizeLine (buf.take lineLen) size
      · obtain ⟨size, hline⟩ := hline
        rw [t3HttpChunkParse_line hfind hline] at h
        have htake : (buf.take lineLen).length = lineLen := List.length_take_of_le (by omega)
        have hdrop : buf.drop (lineLen + 2) = rest := by
          conv_lhs => rw [hsplit]
          exact List.drop_left' (by rw [List.length_append, htake, crlf_length])
        have hrest : rest.length = buf.length - (lineLen + 2) := by
          rw [← hdrop, List.length_drop]
        -- The data is all there, and a line end stands behind it.
        have hbody : lineLen + 2 + size + 2 ≤ buf.length ∧ (rest.drop size).take 2 = crlf ∧
            v = ⟨rest.take size, lineLen + 2 + size + 2⟩ := by
          have hdrop' (n : ℕ) : rest.drop n = buf.drop (lineLen + 2 + n) := by
            rw [← hdrop, List.drop_drop]
          unfold t3HttpChunkBody at h
          split_ifs at h with h1 h2 h3 h4 h5 h6 h7
          · refine ⟨by omega, ?_, ?_⟩
            · rw [hdrop', h2]
              exact not_not.mp h4
            · rw [← Except.ok.inj h, h2]
              rfl
          · refine ⟨by omega, ?_, ?_⟩
            · rw [hdrop']
              exact not_not.mp h7
            · rw [← Except.ok.inj h, hdrop]
        obtain ⟨hall, hend, rfl⟩ := hbody
        have hdata : (rest.take size).length = size := List.length_take_of_le (by omega)
        obtain ⟨c, hcline, hcdata⟩ := exists_httpChunk (hdata.symm ▸ hline) hnone
        have hrest' : rest = rest.take size ++ (crlf ++ (rest.drop size).drop 2) := by
          rw [← hend, List.take_append_drop, List.take_append_drop]
        refine ⟨c, ⟨(rest.drop size).drop 2, ?_⟩, ?_⟩
        · rw [HttpChunk.encode, hcline, hcdata]
          conv_rhs => rw [hsplit, hrest']
          simp only [List.append_assoc]
        · rw [HttpChunk.encode, hcline, hcdata]
          simp only [List.length_append, crlf_length, htake, hdata, Nat.add_assoc]
      · rw [t3HttpChunkParse_noLine hfind fun size hs => hline ⟨size, hs⟩] at h
        cases h
  · rintro ⟨c, ⟨rest, rfl⟩, rfl⟩
    refine t3HttpChunkParse_encode c rest ?_
    simp only [HttpChunk.encode, List.length_append] at hbuf
    omega

/-! ### Lines that are given up -/

/-- A string without its last byte, where that is a `CR`. -/
def withoutCr (bs : Bytes) : Bytes := if bs.getLast? = some 13 then bs.dropLast else bs

theorem withoutCr_prefix_self (bs : Bytes) : withoutCr bs <+: bs := by
  unfold withoutCr
  split_ifs
  · exact List.dropLast_prefix bs
  · exact List.prefix_refl bs

theorem length_withoutCr (bs : Bytes) : bs.length ≤ (withoutCr bs).length + 1 := by
  unfold withoutCr
  split_ifs
  · rw [List.length_dropLast]
    omega
  · omega

/-- What is left of a size line of which at least one byte has arrived. -/
theorem SizeLine.of_prefix {line p : Bytes} {size : ℕ} (h : SizeLine line size) (hp : p <+: line)
    (hne : p ≠ []) : ∃ size', SizeLine p size' := by
  obtain ⟨hex, ext, rfl, hne0, hval, hsize, hext⟩ := h
  have hdigits (q : Bytes) (hq : q <+: hex) : ∃ n, hexValue q = some n ∧ n ≤ 65535 := by
    obtain ⟨more, rfl⟩ := hq
    rw [hexValue, List.foldlM_append] at hval
    obtain ⟨n, hn, hmore⟩ := Option.bind_eq_some_iff.mp hval
    exact ⟨n, hn, (le_of_foldlM_hex hmore).trans hsize⟩
  rcases prefix_append_cases hp with ⟨hhex, -⟩ | ⟨q, rfl, hq⟩
  · obtain ⟨n, hn, hle⟩ := hdigits p hhex
    exact ⟨n, p, [], (List.append_nil p).symm, hne, hn, hle, Or.inl rfl⟩
  · obtain ⟨n, hn, hle⟩ := hdigits hex (List.prefix_refl hex)
    refine ⟨n, hex, q, rfl, hne0, hn, hle, ?_⟩
    rcases hext with rfl | ⟨e, rfl, he⟩
    · exact Or.inl (List.prefix_nil.mp hq)
    · rcases List.prefix_cons_iff.mp hq with rfl | ⟨t, rfl, ht⟩
      · exact Or.inl rfl
      · exact Or.inr ⟨t, rfl, ht.length_le.trans he⟩

theorem findCrlf_withoutCr {bs : Bytes} (h : findCrlf bs = none) :
    findCrlf (withoutCr bs) = none := by
  rw [List.prefix_iff_eq_take.mp (withoutCr_prefix_self bs), findCrlf_take, h]
  rfl

/-- The line end that completes a string whose last byte may be the `CR` of it. -/
theorem exists_withoutCr (bs : Bytes) : ∃ rest, bs ++ rest = withoutCr bs ++ crlf := by
  unfold withoutCr
  split_ifs with hlast
  · refine ⟨[10], ?_⟩
    obtain ⟨init, rfl⟩ := List.getLast?_eq_some_iff.mp hlast
    simp [crlf]
  · exact ⟨crlf, rfl⟩

/-- A line that ends behind a string begins with the string, but for its last `CR`. -/
theorem withoutCr_prefix_line {bs rest : Bytes} {lineLen : ℕ} (hbs : findCrlf bs = none)
    (hfind : findCrlf (bs ++ rest) = some lineLen) :
    withoutCr bs <+: (bs ++ rest).take lineLen := by
  have hend : bs.length < lineLen + 2 := by
    have htake := findCrlf_take (bs ++ rest) bs.length
    rw [List.take_left, hbs, hfind, eq_comm, Option.filter_eq_none_iff] at htake
    have := htake lineLen rfl
    simpa using this
  have hlen := findCrlf_lt hfind
  have hpre : bs <+: bs ++ rest := List.prefix_append bs rest
  by_cases hlong : bs.length ≤ lineLen
  · refine (withoutCr_prefix_self bs).trans ?_
    exact List.prefix_of_prefix_length_le hpre (List.take_prefix _ _)
      (by rw [List.length_take_of_le (by omega)]; exact hlong)
  · -- The last byte of the string is the `CR` of the line end.
    obtain ⟨-, more, hsplit⟩ := findCrlf_split hfind
    have htake : ((bs ++ rest).take lineLen).length = lineLen := List.length_take_of_le (by omega)
    have hbs' : bs = (bs ++ rest).take lineLen ++ [13] := by
      refine (List.prefix_of_prefix_length_le hpre ?_ ?_).eq_of_length ?_
      · refine ⟨10 :: more, ?_⟩
        conv_rhs => rw [hsplit]
        simp [crlf]
      · simp only [List.length_append, htake, List.length_singleton]
        omega
      · simp only [List.length_append, htake, List.length_singleton]
        omega
    have hlast : bs.getLast? = some 13 := by
      rw [hbs']
      exact List.getLast?_concat
    have hdrop : bs.dropLast = (bs ++ rest).take lineLen := by
      conv_lhs => rw [hbs']
      exact List.dropLast_concat
    rw [withoutCr, if_pos hlast]
    exact ⟨[], by rw [List.append_nil, hdrop]⟩

/-! ### The answers fit together -/

/-- **The parser's answers on `b` and what it is a part of fit together.** -/
structure SplitsEvenly (b : Bytes) : Prop where
  waits : ∀ v, t3HttpChunkParse b = .ok v → ∀ p, p <+: b → p.length < v.consumed →
    t3HttpChunkParse p = .error .bufTooSmall
  settled : ∀ v, t3HttpChunkParse b = .ok v → ∀ rest, t3HttpChunkParse (b ++ rest) = .ok v
  refused : t3HttpChunkParse b = .error .malformed → ∀ rest,
    t3HttpChunkParse (b ++ rest) = .error .malformed

/-- **The condition.**  The chunk at the front, if there is one, has a size line of at most 272
bytes; and more than 273 bytes without a line end are, but for the `CR` of one, no size line. -/
structure EvenLines (b : Bytes) : Prop where
  short : ∀ c : HttpChunk, c.encode <+: b → c.line.length ≤ 272
  cut : findCrlf b = none → 273 < b.length → ∀ size, ¬ SizeLine (withoutCr b) size

/-- A chunk that is handed out is handed out whatever is behind it. -/
theorem t3HttpChunkParse_settled {b : Bytes} {v : ChunkView} (h : t3HttpChunkParse b = .ok v)
    (rest : Bytes) : t3HttpChunkParse (b ++ rest) = .ok v := by
  cases hfind : findCrlf b with
  | none =>
    rw [t3HttpChunkParse_none hfind] at h
    exact nomatch h
  | some lineLen => rw [t3HttpChunkParse_append hfind rest (by rw [h]; exact nofun), h]

/-- A long line is given up one byte before its end has arrived. -/
theorem t3HttpChunkParse_long (c : HttpChunk) (hlong : 272 < c.line.length) :
    t3HttpChunkParse (c.line ++ [13]) = .error .malformed := by
  have hnone := findCrlf_of_prefix_line c.line _ c.findCrlf_line (List.prefix_refl _)
  rw [t3HttpChunkParse_none hnone, if_pos (by simp; omega)]

theorem line_prefix_encode (c : HttpChunk) : c.line ++ [13] <+: c.encode :=
  ⟨10 :: (c.data ++ crlf), by simp [HttpChunk.encode, crlf]⟩

/-- A size line of which the end arrives is not malformed, if it is not too long for a buffer. -/
theorem t3HttpChunkParse_sizeLine {line : Bytes} {size : ℕ} (hlen : line.length ≤ 2 ^ 63)
    (hline : findCrlf line = none) (h : SizeLine line size) :
    t3HttpChunkParse (line ++ crlf) = .error .bufTooSmall := by
  have hfind := findCrlf_line line [] hline
  rw [List.append_nil] at hfind
  have hsize : size ≤ 65535 := (sizeLine_iff.mp h).2.2.2
  have htake : (line ++ crlf).take line.length = line := List.take_left
  rw [t3HttpChunkParse_line hfind (htake.symm ▸ h), t3HttpChunkBody, if_neg (by omega)]
  simp only [List.length_append, crlf_length]
  by_cases h0 : size = 0
  · rw [if_pos h0, if_pos (by omega)]
  · have hmax : ¬ size > SIZE_MAX - (line.length + 2) - 2 := by
      simp only [SIZE_MAX]
      omega
    rw [if_neg h0, if_neg hmax, if_pos (by omega)]

/-- **The answers fit together exactly under the condition.** -/
theorem splitsEvenly_iff {b : Bytes} (hb : b.length ≤ 2 ^ 63) :
    SplitsEvenly b ↔ EvenLines b := by
  constructor
  · intro h
    constructor
    · intro c hc
      by_contra hlong
      have hok := (t3HttpChunkParse_ok_iff hb).mpr ⟨c, hc, rfl⟩
      have hlt : (c.line ++ [13]).length < c.encode.length := by
        simp only [HttpChunk.encode, List.length_append, List.length_singleton, crlf_length]
        omega
      have hwaits := h.waits _ hok _ ((line_prefix_encode c).trans hc) hlt
      rw [t3HttpChunkParse_long c (by omega)] at hwaits
      cases hwaits
    · intro hnone hlong size hline
      obtain ⟨rest, hrest⟩ := exists_withoutCr b
      have hbad : t3HttpChunkParse b = .error .malformed := by
        rw [t3HttpChunkParse_none hnone, if_pos hlong]
      have hlen := (withoutCr_prefix_self b).length_le
      have hmore := h.refused hbad rest
      rw [hrest, t3HttpChunkParse_sizeLine (hlen.trans hb) (findCrlf_withoutCr hnone) hline]
        at hmore
      cases hmore
  · intro h
    constructor
    · intro v hv p hp hlt
      obtain ⟨c, hc, rfl⟩ := (t3HttpChunkParse_ok_iff hb).mp hv
      have hpc : p <+: c.encode := List.prefix_of_prefix_length_le hp hc hlt.le
      exact t3HttpChunkParse_waits c p hpc hlt (h.short c hc)
    · exact fun v hv rest => t3HttpChunkParse_settled hv rest
    · intro hbad rest
      cases hnone : findCrlf b with
      | some lineLen =>
        rw [t3HttpChunkParse_append hnone rest (by simp [hbad]), hbad]
      | none =>
        have hlong : 273 < b.length := by
          rw [t3HttpChunkParse_none hnone] at hbad
          by_contra hshort
          rw [if_neg hshort] at hbad
          cases hbad
        cases hfind : findCrlf (b ++ rest) with
        | none =>
          rw [t3HttpChunkParse_none hfind, if_pos]
          rw [List.length_append]
          omega
        | some lineLen =>
          refine t3HttpChunkParse_noLine hfind fun size hline => ?_
          have hne : withoutCr b ≠ [] := by
            have := length_withoutCr b
            intro hnil
            rw [hnil, List.length_nil] at this
            omega
          obtain ⟨size', hsize'⟩ := hline.of_prefix (withoutCr_prefix_line hnone hfind) hne
          exact h.cut hnone hlong size' hsize'

/-! ### A reader of the stream -/

/-- The parser, as one of a stream of payloads. -/
def chunkAtFront (buf : Bytes) : AtFront Bytes :=
  match t3HttpChunkParse buf with
  | .ok v => .item v.data v.consumed
  | .error .bufTooSmall => .more
  | .error _ => .bad

theorem chunkAtFront_item_iff {buf data : Bytes} {n : ℕ} :
    chunkAtFront buf = .item data n ↔ t3HttpChunkParse buf = .ok ⟨data, n⟩ := by
  unfold chunkAtFront
  constructor
  · intro h
    split at h
    · next v hv => cases h; exact hv
    · exact nomatch h
    · exact nomatch h
  · intro h
    rw [h]

theorem chunkAtFront_of_malformed {buf : Bytes} (h : t3HttpChunkParse buf = .error .malformed) :
    chunkAtFront buf = .bad := by
  rw [chunkAtFront, h]

theorem chunkAtFront_progresses : Progresses chunkAtFront := by
  intro buf data n h
  have hlen := t3HttpChunkParse_consumed (chunkAtFront_item_iff.mp h)
  exact ⟨Nat.lt_of_lt_of_le (by decide) hlen.1, hlen.2.1⟩

/-- A chunk that is handed out is all the parser looks at. -/
theorem t3HttpChunkParse_take {b : Bytes} {v : ChunkView} (h : t3HttpChunkParse b = .ok v) :
    t3HttpChunkParse (b.take v.consumed) = .ok v := by
  cases hfind : findCrlf b with
  | none =>
    rw [t3HttpChunkParse_none hfind] at h
    exact nomatch h
  | some lineLen =>
    by_cases hline : ∃ size, SizeLine (b.take lineLen) size
    · obtain ⟨size, hline⟩ := hline
      rw [t3HttpChunkParse_line hfind hline] at h
      have hcut : lineLen + 2 ≤ v.consumed ∧
          t3HttpChunkBody (b.take v.consumed) lineLen size = .ok v := by
        unfold t3HttpChunkBody at h ⊢
        split_ifs at h with h1 h2 h3 h4 h5 h6 h7
        · cases h
          refine ⟨by simp, ?_⟩
          rw [if_neg h1, if_pos h2, if_neg (by simp; omega), List.drop_take, List.take_take,
            if_neg (by simpa using h4)]
        · cases h
          refine ⟨by simp; omega, ?_⟩
          rw [if_neg h1, if_neg h2, if_neg h5, if_neg (by simp; omega), List.drop_take,
            List.take_take, if_neg (by simpa using h7), List.drop_take, List.take_take]
          simp only [Except.ok.injEq, ChunkView.mk.injEq, and_true]
          congr 1
          omega
      have hfind' : findCrlf (b.take v.consumed) = some lineLen := by
        rw [findCrlf_take, hfind]
        exact Option.filter_some_pos (by simpa using hcut.1)
      rw [t3HttpChunkParse_line hfind', hcut.2]
      rw [List.take_take, min_eq_left (by omega)]
      exact hline
    · rw [t3HttpChunkParse_noLine hfind fun size hs => hline ⟨size, hs⟩] at h
      exact nomatch h

theorem chunkAtFront_settled : Settled chunkAtFront := by
  intro buf data n h rest
  have hok := chunkAtFront_item_iff.mp h
  exact chunkAtFront_item_iff.mpr (t3HttpChunkParse_settled (t3HttpChunkParse_take hok) rest)

theorem chunkAtFront_nil : NoItem chunkAtFront [] := fun _ _ h => nomatch h

/-- A reader of the chunks in a stream that arrives in these parts. -/
def readChunks (parts : List Bytes) : StreamReader Bytes UInt8 :=
  feedAll chunkAtFront_progresses parts

/-- **However the stream is split, the same payloads are read.** -/
def ReadAlike (stream : Bytes) : Prop :=
  ∀ parts, parts.flatten = stream → (readChunks parts).items = (readChunks [stream]).items

/-- What has been read are the payloads of chunks at the front. -/
theorem exists_chunks_of_taken {bs t : Bytes} {as : List Bytes} (hbs : bs.length ≤ 2 ^ 63)
    (h : Taken chunkAtFront bs as t) : ∃ cs, bs = encodeAll cs ++ t := by
  induction h with
  | none bs => exact ⟨[], rfl⟩
  | @item bs t data n as hparse _ ih =>
    obtain ⟨c, ⟨rest, rfl⟩, hc⟩ := (t3HttpChunkParse_ok_iff hbs).mp
      (chunkAtFront_item_iff.mp hparse)
    obtain ⟨-, rfl⟩ := ChunkView.mk.inj hc
    rw [List.length_append] at hbs
    obtain ⟨cs, hcs⟩ := ih (by rw [List.drop_left]; omega)
    rw [List.drop_left] at hcs
    refine ⟨c :: cs, ?_⟩
    rw [hcs]
    simp only [encodeAll, List.flatMap_cons, List.append_assoc]

/-- Chunks at the front are read. -/
theorem taken_of_chunks (cs : List HttpChunk) {t : Bytes}
    (hlen : (encodeAll cs ++ t).length ≤ 2 ^ 63) :
    Taken chunkAtFront (encodeAll cs ++ t) (cs.map HttpChunk.data) t := by
  induction cs with
  | nil => exact .none t
  | cons c cs ih =>
    have hcons : encodeAll (c :: cs) ++ t = c.encode ++ (encodeAll cs ++ t) := by
      simp only [encodeAll, List.flatMap_cons, List.append_assoc]
    rw [hcons] at hlen ⊢
    have hok := (t3HttpChunkParse_ok_iff hlen).mpr ⟨c, List.prefix_append _ _, rfl⟩
    rw [List.length_append] at hlen
    refine .item (chunkAtFront_item_iff.mpr hok) ?_
    rw [List.drop_left]
    exact ih (by omega)

/-- **Exactly the streams without such a chunk at their front are read alike in all parts.** -/
theorem readAlike_iff {stream : Bytes} (hlen : stream.length ≤ 2 ^ 63) :
    ReadAlike stream ↔
      ∀ cs, encodeAll cs <+: stream → ∀ c ∈ cs, c.line.length ≤ 272 := by
  refine (feedAll_items_iff chunkAtFront_progresses chunkAtFront_settled chunkAtFront_nil
    stream).trans ?_
  constructor
  · rintro hnot cs ⟨t, rfl⟩ c hc
    by_contra hlong
    obtain ⟨pre, post, rfl⟩ := List.append_of_mem hc
    have hsplit : encodeAll (pre ++ c :: post) ++ t
        = encodeAll pre ++ (c.encode ++ (encodeAll post ++ t)) := by
      simp only [encodeAll, List.flatMap_append, List.flatMap_cons, List.append_assoc]
    rw [hsplit] at hnot hlen
    have hbad := chunkAtFront_of_malformed (t3HttpChunkParse_long c (by omega))
    have hp := (line_prefix_encode c).trans (List.prefix_append c.encode (encodeAll post ++ t))
    have hrest : (c.encode ++ (encodeAll post ++ t)).length ≤ 2 ^ 63 := by
      rw [List.length_append] at hlen
      omega
    have hok := (t3HttpChunkParse_ok_iff hrest).mpr ⟨c, List.prefix_append _ _, rfl⟩
    exact hnot _ _ (taken_of_chunks pre hlen) _ hp hbad _ _ (chunkAtFront_item_iff.mpr hok)
  · intro hshort as t htaken p hp hbad data n hitem
    obtain ⟨cs, rfl⟩ := exists_chunks_of_taken hlen htaken
    have hok := chunkAtFront_item_iff.mp hitem
    have ht : t.length ≤ 2 ^ 63 := by
      rw [List.length_append] at hlen
      omega
    obtain ⟨c, ⟨rest, rfl⟩, hc⟩ := (t3HttpChunkParse_ok_iff ht).mp hok
    have hline : c.line.length ≤ 272 := by
      refine hshort (cs ++ [c]) ⟨rest, ?_⟩ c (List.mem_append_right _ List.mem_cons_self)
      simp only [encodeAll, List.flatMap_append, List.flatMap_singleton, List.append_assoc]
    -- What is refused would be a part of this chunk, or would begin with it.
    rcases prefix_append_cases hp with ⟨hpart, hlt⟩ | ⟨q, rfl, -⟩
    · have hwaits := t3HttpChunkParse_waits c p hpart hlt hline
      rw [chunkAtFront, hwaits] at hbad
      cases hbad
    · have hwhole := t3HttpChunkParse_take hok
      rw [(ChunkView.mk.inj hc).2, List.take_left] at hwhole
      rw [chunkAtFront, t3HttpChunkParse_settled hwhole q] at hbad
      cases hbad

/-- **Splits make no difference exactly where no size line is longer than the parser waits
for**: neither to its answers on a string and what the string is a part of, nor to the payloads
that a stream yields. -/
theorem chunkSplits_iff {b : Bytes} (hb : b.length ≤ 2 ^ 63) :
    (SplitsEvenly b ↔ EvenLines b) ∧
      (ReadAlike b ↔ ∀ cs, encodeAll cs <+: b → ∀ c ∈ cs, c.line.length ≤ 272) :=
  ⟨splitsEvenly_iff hb, readAlike_iff hb⟩

/-- The terminal chunk is waited for, and read alike in all parts. -/
theorem chunkSplits_iff_terminal :
    SplitsEvenly [0x30, 13, 10, 13, 10] ∧ ReadAlike [0x30, 13, 10, 13, 10] := by
  have hlen : ([0x30, 13, 10, 13, 10] : Bytes).length ≤ 2 ^ 63 := by decide
  have hline (c : HttpChunk) : c.line.length ≤ c.encode.length := by
    simp only [HttpChunk.encode, List.length_append]
    omega
  have hall : ∀ cs, encodeAll cs <+: [0x30, 13, 10, 13, 10] → ∀ c ∈ cs, c.line.length ≤ 272 := by
    intro cs hcs c hc
    obtain ⟨pre, post, rfl⟩ := List.append_of_mem hc
    have hle := hcs.length_le
    simp only [encodeAll, List.flatMap_append, List.flatMap_cons, List.length_append,
      List.length_cons, List.length_nil] at hle
    have := hline c
    omega
  refine ⟨(chunkSplits_iff hlen).1.mpr ⟨fun c hc => ?_, fun _ h => ?_⟩,
    (chunkSplits_iff hlen).2.mpr hall⟩
  · have hle := hc.length_le
    simp only [List.length_cons, List.length_nil] at hle
    have := hline c
    omega
  · simp only [List.length_cons, List.length_nil] at h
    omega

/-- Any number of zeros spells zero. -/
theorem hexValue_zeros (n : ℕ) : hexValue (List.replicate n 0x30) = some 0 := by
  induction n with
  | zero => rfl
  | succ n ih => exact ih

/-- A terminal chunk whose size is spelled with that many zeros, and one more. -/
def zerosChunk (zeros : ℕ) : HttpChunk where
  hex := List.replicate (zeros + 1) 0x30
  ext := none
  data := []
  hex_ne_nil := List.cons_ne_nil _ _
  size := hexValue_zeros (zeros + 1)
  data_le := Nat.zero_le _
  ext_le := HttpChunk.no_ext_le
  ext_line := HttpChunk.no_ext_line

theorem zerosChunk_length (zeros : ℕ) :
    (zerosChunk zeros).line.length = zeros + 1 ∧ (zerosChunk zeros).encode.length = zeros + 5 := by
  simp [HttpChunk.encode, HttpChunk.line, HttpChunk.extBytes, zerosChunk]

/-- In one piece 274 zeros and two line ends are read; of the zeros alone the parser says that
they are malformed. -/
theorem chunkSplits_not_even :
    ¬ ∀ b : Bytes, b.length ≤ 2 ^ 63 → SplitsEvenly b ∧ ReadAlike b := by
  intro h
  obtain ⟨hline, hall⟩ := zerosChunk_length 273
  have hlen : (zerosChunk 273).encode.length ≤ 2 ^ 63 := by omega
  have heven := (splitsEvenly_iff hlen).mp (h _ hlen).1
  have hshort := heven.short (zerosChunk 273) (List.prefix_refl _)
  omega

end Server
end Teleproto3
