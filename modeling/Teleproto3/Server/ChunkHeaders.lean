/-
# Three readers of one size line

The size line of an HTTP chunk is read in three places: by `t3_http_chunk_parse` of the library,
by `http_stream_chunk_header_parse` on the server, and by the loop inside
`tcp_rpcs_compact_parse_execute` on what came with the request headers.  `spec/wire-format.md`
§2.2 lets a line carry an extension of up to 255 bytes, which receivers skip.

The digits are read alike (`chunkSizeOf_eq`).  But the server looks at 18 bytes in one place and at
16 in the other, so that longer lines are malformed for it, and its second reader takes a
line that starts with `;` for one of size zero.  `headerParsersAgree_iff` says for which
strings the three agree.
-/

import Teleproto3.Server.ChunkUnwrap

namespace Teleproto3
namespace Server

open Lib Wire

/-! ### The library's reader -/

/-- `t3_http_chunk_parse`, restricted to its size line. -/
def t3HttpChunkHeader (buf : Bytes) : ChunkHeader :=
  if buf.length < 2 then .more
  else
    match findCrlf buf with
    | none => if buf.length > 16 + 2 + 255 then .malformed else .more
    | some lineLen =>
      match t3HttpChunkLine (buf.take lineLen) with
      | none => .malformed
      | some chunkSize => if chunkSize > 65535 then .malformed else .size chunkSize (lineLen + 2)

/-- The library's reader of a line, with the end of its digits written out. -/
theorem t3HttpChunkLine_eq (line : Bytes) :
    t3HttpChunkLine line =
      if line.length = 0 then none
      else if line.idxOf 0x3B < line.length ∧ line.length - line.idxOf 0x3B - 1 > 255 then none
      else if line.idxOf 0x3B = 0 then none
      else t3HexToSize (line.take (line.idxOf 0x3B)) := rfl

/-- The parser is its reader of the size line, and what it does with the data. -/
theorem t3HttpChunkParse_eq (buf : Bytes) :
    t3HttpChunkParse buf =
      match t3HttpChunkHeader buf with
      | .more => .error .bufTooSmall
      | .malformed => .error .malformed
      | .size chunkSize consumed => t3HttpChunkBody buf (consumed - 2) chunkSize := by
  unfold t3HttpChunkParse t3HttpChunkHeader
  by_cases h2 : buf.length < 2
  · rw [if_pos h2, if_pos h2]
  rw [if_neg h2, if_neg h2]
  cases findCrlf buf with
  | none =>
    dsimp only
    split_ifs <;> rfl
  | some lineLen =>
    dsimp only
    cases t3HttpChunkLine (buf.take lineLen) with
    | none => rfl
    | some chunkSize =>
      dsimp only
      by_cases hbig : chunkSize > 65535
      · rw [if_pos hbig, t3HttpChunkBody, if_pos hbig]
      · rw [if_neg hbig]
        rfl

/-! ### The digits -/

/-- A turn of a digit loop that guards against sizes above `max`. -/
def guardedStep (max size : ℕ) (c : UInt8) : Option ℕ :=
  match hexDigit c with
  | none => none
  | some digit => if size > (max - digit) / 16 then none else some (size * 16 + digit)

/-- The number spelled only grows. -/
theorem le_of_foldlM_hex {hex : Bytes} {val n : ℕ}
    (h : hex.foldlM (fun val c => (hexDigit c).map (val * 16 + ·)) val = some n) : val ≤ n := by
  induction hex generalizing val with
  | nil =>
    cases h
    exact Nat.le_refl _
  | cons c hex ih =>
    simp only [List.foldlM_cons, Option.bind_eq_bind] at h
    cases hc : hexDigit c with
    | none =>
      rw [hc] at h
      exact nomatch h
    | some d =>
      rw [hc] at h
      have hle : val * 16 + d ≤ n := ih h
      omega

/-- A guarded loop finds the number spelled where it is at most `max`, and nothing else. -/
theorem foldlM_guardedStep {max : ℕ} (hmax : 15 ≤ max) (hex : Bytes) {val n : ℕ}
    (hval : val ≤ max) :
    hex.foldlM (guardedStep max) val = some n ↔
      hex.foldlM (fun val c => (hexDigit c).map (val * 16 + ·)) val = some n ∧ n ≤ max := by
  induction hex generalizing val with
  | nil =>
    simp only [List.foldlM_nil, Option.pure_def, Option.some.injEq]
    constructor
    · rintro rfl
      exact ⟨rfl, hval⟩
    · rintro ⟨rfl, -⟩
      rfl
  | cons c hex ih =>
    simp only [List.foldlM_cons, Option.bind_eq_bind]
    cases hc : hexDigit c with
    | none => simp only [guardedStep, hc, Option.map_none, Option.bind_none, reduceCtorEq, false_and]
    | some d =>
      have hd := hexDigit_lt hc
      simp only [guardedStep, hc, Option.map_some, Option.bind_some]
      by_cases hbig : val > (max - d) / 16
      · rw [if_pos hbig]
        constructor
        · intro h
          exact nomatch h
        · rintro ⟨hfold, hle⟩
          have := le_of_foldlM_hex hfold
          omega
      · rw [if_neg hbig]
        exact ih (by omega)

/-- The server's digit loop finds the number spelled where it is at most 65535. -/
theorem chunkSizeOf_eq {hex : Bytes} {n : ℕ} :
    chunkSizeOf hex = some n ↔ hexValue hex = some n ∧ n ≤ 65535 :=
  foldlM_guardedStep (by decide) hex (Nat.zero_le _)

/-- The library's digit loop, with the test of its result, finds the same. -/
theorem t3HexToSize_eq {hex : Bytes} (hne : hex ≠ []) {n : ℕ} :
    (t3HexToSize hex = some n ∧ n ≤ 65535) ↔ hexValue hex = some n ∧ n ≤ 65535 := by
  have hlen : hex.length ≠ 0 := fun h => hne (List.length_eq_zero_iff.mp h)
  have hloop : hex.foldlM hexToSizeStep 0 = some n ↔ hexValue hex = some n ∧ n ≤ SIZE_MAX :=
    foldlM_guardedStep (by decide) hex (Nat.zero_le _)
  rw [t3HexToSize, if_neg hlen, hloop]
  constructor
  · rintro ⟨⟨hval, -⟩, hle⟩
    exact ⟨hval, hle⟩
  · rintro ⟨hval, hle⟩
    refine ⟨⟨hval, ?_⟩, hle⟩
    simp only [SIZE_MAX]
    omega

/-! ### Size lines -/

/-- A size line as `spec/wire-format.md` §2.2 allows it: hexadecimal digits that spell at most
65535, and where there is a `;` an extension of at most 255 bytes behind it. -/
def SizeLine (line : Bytes) (size : ℕ) : Prop :=
  ∃ hex ext, line = hex ++ ext ∧ hex ≠ [] ∧ hexValue hex = some size ∧ size ≤ 65535 ∧
    (ext = [] ∨ ∃ e, ext = 0x3B :: e ∧ e.length ≤ 255)

/-- The readers' way to take a line apart: at its first `;`. -/
theorem sizeLine_iff {line : Bytes} {size : ℕ} :
    SizeLine line size ↔
      line.idxOf 0x3B ≠ 0 ∧ line.length ≤ line.idxOf 0x3B + 256 ∧
        hexValue (line.take (line.idxOf 0x3B)) = some size ∧ size ≤ 65535 := by
  constructor
  · rintro ⟨hex, ext, rfl, hne, hval, hsize, hext⟩
    have hnot : (0x3B : UInt8) ∉ hex := fun h => hexDigit_of_mem hval _ h (by decide)
    have hidx : (hex ++ ext).idxOf 0x3B = hex.length := by
      rw [List.idxOf_append_of_notMem hnot]
      rcases hext with rfl | ⟨e, rfl, -⟩
      · rfl
      · rw [List.idxOf_cons_self, Nat.add_zero]
    have hlen : ext.length ≤ 256 := by
      rcases hext with rfl | ⟨e, rfl, he⟩
      · exact Nat.zero_le _
      · exact Nat.succ_le_succ he
    refine ⟨?_, ?_, ?_, hsize⟩
    · rw [hidx]
      exact fun h => hne (List.length_eq_zero_iff.mp h)
    · rw [hidx, List.length_append]
      omega
    · rw [hidx, List.take_left]
      exact hval
  · rintro ⟨hidx, hlen, hval, hsize⟩
    refine ⟨line.take (line.idxOf 0x3B), line.drop (line.idxOf 0x3B),
      (List.take_append_drop _ _).symm, ?_, hval, hsize, ?_⟩
    · intro hnil
      have hle := List.idxOf_le_length (a := (0x3B : UInt8)) (l := line)
      have := congrArg List.length hnil
      rw [List.length_take_of_le hle] at this
      exact hidx this
    · by_cases hmem : (0x3B : UInt8) ∈ line
      · right
        have hlt := List.idxOf_lt_length_of_mem hmem
        refine ⟨line.drop (line.idxOf 0x3B + 1), ?_, ?_⟩
        · rw [List.drop_eq_getElem_cons hlt, List.getElem_idxOf]
        · rw [List.length_drop]
          omega
      · left
        rw [List.idxOf_of_notMem hmem, List.drop_length]

/-! ### What each reader makes of a size line -/

/-- What the server makes of a line it sees the end of. -/
def lineHeader (bareExtension : Bool) (line : Bytes) : ChunkHeader :=
  if line.length = 0 then .malformed
  else if line.idxOf 0x3B = 0 ∧ bareExtension = false then .malformed
  else
    match chunkSizeOf (line.take (line.idxOf 0x3B)) with
    | none => .malformed
    | some chunkSize => .size chunkSize (line.length + 2)

/-- A valid size line is read, with or without the allowance for a line that is only an
extension. -/
theorem lineHeader_of_sizeLine {line : Bytes} {size : ℕ} (bareExtension : Bool)
    (h : SizeLine line size) : lineHeader bareExtension line = .size size (line.length + 2) := by
  obtain ⟨hidx, -, hval, hsize⟩ := sizeLine_iff.mp h
  have hlen : line.length ≠ 0 := by
    have := List.idxOf_le_length (a := (0x3B : UInt8)) (l := line)
    omega
  rw [lineHeader, if_neg hlen, if_neg (fun h => hidx h.1), chunkSizeOf_eq.mpr ⟨hval, hsize⟩]

/-- A short line that is no size line is malformed. -/
theorem lineHeader_of_not {line : Bytes} (hlen : line.length ≤ 256)
    (h : ∀ size, ¬ SizeLine line size) : lineHeader false line = .malformed := by
  unfold lineHeader
  by_cases h0 : line.length = 0
  · rw [if_pos h0]
  rw [if_neg h0]
  by_cases hidx : line.idxOf 0x3B = 0
  · rw [if_pos ⟨hidx, rfl⟩]
  rw [if_neg (fun hc => hidx hc.1)]
  cases hsize : chunkSizeOf (line.take (line.idxOf 0x3B)) with
  | none => rfl
  | some size =>
    obtain ⟨hval, hle⟩ := chunkSizeOf_eq.mp hsize
    exact absurd (sizeLine_iff.mpr ⟨hidx, by omega, hval, hle⟩) (h size)

/-- With the end of the line inside the window, the server's readers see the line. -/
theorem chunkHeader_of_line {window lineLen : ℕ} {buf : Bytes} (bareExtension : Bool)
    (hfind : findCrlf buf = some lineLen) (hwindow : lineLen + 2 ≤ window) :
    chunkHeader window bareExtension buf = lineHeader bareExtension (buf.take lineLen) := by
  have hlen : (buf.take lineLen).length = lineLen :=
    List.length_take_of_le (by have := findCrlf_lt hfind; omega)
  have hidx : (buf.take lineLen).idxOf 0x3B ≤ lineLen := by
    have := List.idxOf_le_length (a := (0x3B : UInt8)) (l := buf.take lineLen)
    omega
  have hfilter : (some lineLen).filter (fun i => decide (i + 2 ≤ window)) = some lineLen :=
    Option.filter_some_pos (by simpa using hwindow)
  unfold chunkHeader lineHeader
  rw [findCrlf_take, hfind, hfilter, hlen, List.take_take]
  have hmin := min_eq_left hidx
  generalize min ((buf.take lineLen).idxOf 0x3B) lineLen = hexLen at hmin ⊢
  subst hmin
  rfl

/-- Without it, the line is too long for the window. -/
theorem chunkHeader_of_long {window lineLen : ℕ} {buf : Bytes} (bareExtension : Bool)
    (hfind : findCrlf buf = some lineLen) (hwindow : window < lineLen + 2) :
    chunkHeader window bareExtension buf = .malformed := by
  have hlt := findCrlf_lt hfind
  have hnone : findCrlf (buf.take window) = none := by
    rw [findCrlf_take, hfind]
    exact Option.filter_some_neg (by simpa using hwindow)
  rw [chunkHeader, hnone]
  exact if_pos (by omega)

theorem chunkHeader_of_none {window : ℕ} {buf : Bytes} (bareExtension : Bool)
    (hfind : findCrlf buf = none) :
    chunkHeader window bareExtension buf =
      if window ≤ buf.length then .malformed else .more := by
  rw [chunkHeader, findCrlf_take, hfind]
  rfl

/-- The library reads a valid size line. -/
theorem t3HttpChunkHeader_of_sizeLine {lineLen size : ℕ} {buf : Bytes}
    (hfind : findCrlf buf = some lineLen) (h : SizeLine (buf.take lineLen) size) :
    t3HttpChunkHeader buf = .size size (lineLen + 2) := by
  have hlt := findCrlf_lt hfind
  obtain ⟨hidx, hext, hval, hsize⟩ := sizeLine_iff.mp h
  set line := buf.take lineLen with hline
  have hle := List.idxOf_le_length (a := (0x3B : UInt8)) (l := line)
  have hne : line.take (line.idxOf 0x3B) ≠ [] := by
    intro hnil
    have := congrArg List.length hnil
    rw [List.length_take_of_le hle] at this
    exact hidx this
  have hread : t3HttpChunkLine line = some size := by
    rw [t3HttpChunkLine_eq, if_neg (by omega), if_neg (by omega), if_neg hidx]
    exact ((t3HexToSize_eq hne).mpr ⟨hval, hsize⟩).1
  rw [t3HttpChunkHeader, if_neg (by omega), hfind]
  dsimp only
  rw [← hline, hread]
  exact if_neg (by omega)

/-- A line that is no size line is malformed for the library. -/
theorem t3HttpChunkHeader_of_not {lineLen : ℕ} {buf : Bytes} (hfind : findCrlf buf = some lineLen)
    (h : ∀ size, ¬ SizeLine (buf.take lineLen) size) : t3HttpChunkHeader buf = .malformed := by
  have hlt := findCrlf_lt hfind
  rw [t3HttpChunkHeader, if_neg (by omega), hfind]
  dsimp only
  set line := buf.take lineLen with hline
  cases hread : t3HttpChunkLine line with
  | none => rfl
  | some size =>
    refine if_pos (Nat.lt_of_not_le fun hle => ?_)
    -- A line that is read with such a size is a size line.
    rw [t3HttpChunkLine_eq] at hread
    split_ifs at hread with h0 hext hidx
    have hidxle := List.idxOf_le_length (a := (0x3B : UInt8)) (l := line)
    have hne : line.take (line.idxOf 0x3B) ≠ [] := by
      intro hnil
      have := congrArg List.length hnil
      rw [List.length_take_of_le hidxle] at this
      exact hidx this
    obtain ⟨hval, -⟩ := (t3HexToSize_eq hne).mp ⟨hread, hle⟩
    exact h size (sizeLine_iff.mpr ⟨hidx, by omega, hval, hle⟩)

/-- A line starts with `;` when the string it is the start of does. -/
theorem idxOf_take_eq_zero_iff {buf : Bytes} {lineLen : ℕ} (h0 : 0 < lineLen)
    (hlt : lineLen < buf.length) :
    (buf.take lineLen).idxOf 0x3B = 0 ↔ buf.head? = some 0x3B := by
  cases buf with
  | nil => exact absurd hlt (Nat.not_lt_zero _)
  | cons b rest =>
    cases lineLen with
    | zero => exact absurd h0 (Nat.lt_irrefl 0)
    | succ n =>
      rw [List.take_succ_cons, List.idxOf_cons, List.head?_cons]
      by_cases hb : b = 0x3B
      · rw [hb]
        exact iff_of_true rfl rfl
      · have hbeq : (b == 0x3B) = false := beq_eq_false_iff_ne.mpr hb
        rw [hbeq]
        exact iff_of_false (Nat.succ_ne_zero _) fun h => hb (Option.some.inj h)

/-- An empty line starts with its `CR`. -/
theorem head?_of_findCrlf_zero {buf : Bytes} (h : findCrlf buf = some 0) : buf.head? = some 13 := by
  match buf with
  | [] => exact nomatch h
  | [_] => exact nomatch h
  | a :: b :: rest =>
    rw [findCrlf_cons] at h
    by_cases hab : a = 13 ∧ b = 10
    · rw [hab.1]
      rfl
    · rw [if_neg hab] at h
      obtain ⟨i, -, hi⟩ := Option.map_eq_some_iff.mp h
      omega

/-! ### Agreement -/

/-- **The three readers agree**: the same verdict, with the same size and the same number of
header bytes, and where the bytes start with a valid size line all of them read it. -/
structure HeaderParsersAgree (buf : Bytes) : Prop where
  server : httpStreamChunkHeaderParse buf = t3HttpChunkHeader buf
  transition : transitionChunkHeader buf = t3HttpChunkHeader buf
  accepted : ∀ lineLen size, findCrlf buf = some lineLen → SizeLine (buf.take lineLen) size →
    httpStreamChunkHeaderParse buf = .size size (lineLen + 2) ∧
      transitionChunkHeader buf = .size size (lineLen + 2) ∧
      t3HttpChunkHeader buf = .size size (lineLen + 2)

/-- **The condition.**  A line end within the first 16 bytes, on a line that does not start with
`;`; or a line end further back, of a line that is no valid size line; or no line end yet,
in fewer than 16 or more than 273 bytes. -/
def HeaderParsersMeet (buf : Bytes) : Prop :=
  match findCrlf buf with
  | none => buf.length < 16 ∨ 16 + 2 + 255 < buf.length
  | some lineLen =>
    (lineLen + 2 ≤ 16 ∧ buf.head? ≠ some 0x3B) ∨
      (16 < lineLen + 2 ∧ ∀ size, ¬ SizeLine (buf.take lineLen) size)

/-- Without a line end. -/
theorem headerParsersAgree_none_iff {buf : Bytes} (hfind : findCrlf buf = none) :
    HeaderParsersAgree buf ↔ buf.length < 16 ∨ 16 + 2 + 255 < buf.length := by
  have hlib : t3HttpChunkHeader buf =
      if buf.length > 16 + 2 + 255 then .malformed else .more := by
    rw [t3HttpChunkHeader, hfind]
    dsimp only
    split_ifs <;> first | rfl | omega
  have hserver : httpStreamChunkHeaderParse buf = if 18 ≤ buf.length then .malformed else .more :=
    chunkHeader_of_none false hfind
  have htransition : transitionChunkHeader buf = if 16 ≤ buf.length then .malformed else .more :=
    chunkHeader_of_none true hfind
  constructor
  · rintro ⟨-, h, -⟩
    rw [hlib, htransition] at h
    split_ifs at h <;> omega
  · intro h
    refine ⟨?_, ?_, fun _ _ hc => (by cases hfind.symm.trans hc)⟩
    · rw [hlib, hserver]
      split_ifs <;> first | rfl | omega
    · rw [hlib, htransition]
      split_ifs <;> first | rfl | omega

/-- A line ends in one place. -/
theorem lineLen_unique {buf : Bytes} {lineLen lineLen' : ℕ} (h : findCrlf buf = some lineLen)
    (h' : findCrlf buf = some lineLen') : lineLen' = lineLen :=
  Option.some.inj (h'.symm.trans h)

/-- With a valid size line. -/
theorem headerParsersAgree_sizeLine_iff {buf : Bytes} {lineLen size : ℕ}
    (hfind : findCrlf buf = some lineLen) (hsize : SizeLine (buf.take lineLen) size) :
    HeaderParsersAgree buf ↔ lineLen + 2 ≤ 16 := by
  have hlt := findCrlf_lt hfind
  have hlen : (buf.take lineLen).length = lineLen := List.length_take_of_le (by omega)
  have hlib := t3HttpChunkHeader_of_sizeLine hfind hsize
  have hread (window : ℕ) (bareExtension : Bool) (hw : lineLen + 2 ≤ window) :
      chunkHeader window bareExtension buf = .size size (lineLen + 2) := by
    rw [chunkHeader_of_line bareExtension hfind hw,
      lineHeader_of_sizeLine bareExtension hsize, hlen]
  constructor
  · rintro ⟨-, h, -⟩
    by_contra h16
    have hlong : transitionChunkHeader buf = .malformed :=
      chunkHeader_of_long true hfind (by omega)
    rw [hlib, hlong] at h
    cases h
  · intro h16
    have hserver : httpStreamChunkHeaderParse buf = .size size (lineLen + 2) :=
      hread 18 false (by omega)
    have htransition : transitionChunkHeader buf = .size size (lineLen + 2) :=
      hread 16 true h16
    refine ⟨hserver.trans hlib.symm, htransition.trans hlib.symm, ?_⟩
    intro lineLen' size' hfind' hsize'
    obtain rfl := lineLen_unique hfind hfind'
    obtain rfl : size' = size := by
      have h1 := (sizeLine_iff.mp hsize').2.2.1
      have h2 := (sizeLine_iff.mp hsize).2.2.1
      exact Option.some.inj (h1.symm.trans h2)
    exact ⟨hserver, htransition, hlib⟩

/-- A valid size line does not start with `;`. -/
theorem SizeLine.head_ne {buf : Bytes} {lineLen size : ℕ} (hfind : findCrlf buf = some lineLen)
    (hsize : SizeLine (buf.take lineLen) size) : buf.head? ≠ some 0x3B := by
  have hlt := findCrlf_lt hfind
  have hlen : (buf.take lineLen).length = lineLen := List.length_take_of_le (by omega)
  have hidx := (sizeLine_iff.mp hsize).1
  have hpos : 0 < lineLen := by
    have hle := List.idxOf_le_length (a := (0x3B : UInt8)) (l := buf.take lineLen)
    omega
  exact fun h => hidx ((idxOf_take_eq_zero_iff hpos (by omega)).mpr h)

/-- With a line that is no valid size line, on which the server and the library agree. -/
theorem headerParsersAgree_not_iff {buf : Bytes} {lineLen : ℕ} (hfind : findCrlf buf = some lineLen)
    (hnot : ∀ size, ¬ SizeLine (buf.take lineLen) size) :
    HeaderParsersAgree buf ↔ transitionChunkHeader buf = .malformed := by
  have hlib := t3HttpChunkHeader_of_not hfind hnot
  have hserver : httpStreamChunkHeaderParse buf = .malformed := by
    by_cases h18 : lineLen + 2 ≤ 18
    · have hlt := findCrlf_lt hfind
      have hlen : (buf.take lineLen).length = lineLen := List.length_take_of_le (by omega)
      exact (chunkHeader_of_line false hfind h18).trans (lineHeader_of_not (by omega) hnot)
    · exact chunkHeader_of_long false hfind (by omega)
  refine ⟨fun h => h.transition.trans hlib, fun htransition =>
    ⟨hserver.trans hlib.symm, htransition.trans hlib.symm, fun lineLen' size hfind' hsize => ?_⟩⟩
  obtain rfl := lineLen_unique hfind hfind'
  exact absurd hsize (hnot size)

/-- The third reader refuses such a line unless it starts with `;`. -/
theorem transitionChunkHeader_malformed_iff {buf : Bytes} {lineLen : ℕ}
    (hfind : findCrlf buf = some lineLen) (hnot : ∀ size, ¬ SizeLine (buf.take lineLen) size) :
    transitionChunkHeader buf = .malformed ↔ 16 < lineLen + 2 ∨ buf.head? ≠ some 0x3B := by
  have hlt := findCrlf_lt hfind
  have hlen : (buf.take lineLen).length = lineLen := List.length_take_of_le (by omega)
  by_cases h16 : lineLen + 2 ≤ 16
  swap
  · exact iff_of_true (chunkHeader_of_long true hfind (by omega)) (Or.inl (by omega))
  have htransition : transitionChunkHeader buf = lineHeader true (buf.take lineLen) :=
    chunkHeader_of_line true hfind h16
  rw [htransition, or_iff_right (by omega)]
  by_cases h0 : lineLen = 0
  · subst h0
    refine iff_of_true ?_ ?_
    · rw [lineHeader, if_pos hlen]
    · rw [head?_of_findCrlf_zero hfind]
      decide
  have hhead : (buf.take lineLen).idxOf 0x3B = 0 ↔ buf.head? = some 0x3B :=
    idxOf_take_eq_zero_iff (Nat.pos_of_ne_zero h0) (by omega)
  rw [← not_iff_not, not_not, ← hhead]
  by_cases hidx : (buf.take lineLen).idxOf 0x3B = 0
  · refine iff_of_true (fun h => ?_) hidx
    rw [lineHeader, if_neg (by omega), if_neg (fun h => by cases h.2), hidx] at h
    cases h
  · refine iff_of_false (not_not.mpr ?_) hidx
    have hshort : (buf.take lineLen).length ≤ 256 := by omega
    have hfalse := lineHeader_of_not hshort hnot
    rw [lineHeader, if_neg (by omega), if_neg (fun h => hidx h.1)] at hfalse ⊢
    exact hfalse

/-- **When the three readers agree.** -/
theorem headerParsersAgree_iff (buf : Bytes) : HeaderParsersAgree buf ↔ HeaderParsersMeet buf := by
  unfold HeaderParsersMeet
  cases hfind : findCrlf buf with
  | none => exact headerParsersAgree_none_iff hfind
  | some lineLen =>
    dsimp only
    by_cases hvalid : ∃ size, SizeLine (buf.take lineLen) size
    · obtain ⟨size, hsize⟩ := hvalid
      rw [headerParsersAgree_sizeLine_iff hfind hsize]
      constructor
      · exact fun h16 => Or.inl ⟨h16, hsize.head_ne hfind⟩
      · rintro (⟨h16, -⟩ | ⟨-, hnot⟩)
        · exact h16
        · exact absurd hsize (hnot size)
    · have hnot := not_exists.mp hvalid
      rw [headerParsersAgree_not_iff hfind hnot, transitionChunkHeader_malformed_iff hfind hnot]
      constructor
      · rintro (h16 | hhead)
        · exact Or.inr ⟨h16, hnot⟩
        · by_cases h16 : lineLen + 2 ≤ 16
          · exact Or.inl ⟨h16, hhead⟩
          · exact Or.inr ⟨not_le.mp h16, hnot⟩
      · rintro (⟨-, hhead⟩ | ⟨h16, -⟩)
        · exact Or.inr hhead
        · exact Or.inl h16

/-- An extension of 16 bytes: the library reads a size line that is malformed for the
server. -/
theorem headerParsers_not_agree : ¬ ∀ buf, HeaderParsersAgree buf := by
  intro h
  have hserver := (h ([0x35, 0x3B] ++ List.replicate 16 0x61 ++ [13, 10])).server
  revert hserver
  decide

end Server
end Teleproto3
