/-
# What a stream of chunks delivers, at every moment

The stream of an HTTP client behind the obfuscated2 header, read by read: whatever the pieces
are, decryption has put into `in` exactly the chunk data among the bytes that have arrived.

`FramedData` is a chunk with the framing in front of its data, as the receiver takes it: the line
end of the chunk before it, if there is one, and a size line that
`http_stream_chunk_header_parse` accepts.  `Upcoming` is what a receiver has in front of it, from
any place in the framing.  The framing in front of the data keeps account of it
(`Upcoming.advance`), so a turn of the loop that decrypts does, and so does a read.
-/

import Teleproto3.Lib.Runs
import Teleproto3.Server.ChunkStream
import Teleproto3.Server.DeliveryRuns

namespace Teleproto3
namespace Server

open Lib Wire

/-! ### The stream -/

/-- The data of a chunk, and the framing in front of it. -/
structure FramedData where
  framing : Bytes
  data : Bytes
  deriving DecidableEq, Repr

/-- The framing opens a chunk of this size for a receiver in this place. -/
def Opens : ChunkState → Bytes → ℕ → Prop
  | .needHeader, framing, size =>
    httpStreamChunkHeaderParse framing = .size size framing.length
  | .needCrlf, framing, size =>
    ∃ header, framing = crlf ++ header ∧
      httpStreamChunkHeaderParse header = .size size header.length
  | .inPayload, _, _ => False

/-- Chunks with data, one after the other. -/
def Framed : ChunkState → List FramedData → Prop
  | _, [] => True
  | state, part :: parts =>
    part.data ≠ [] ∧ Opens state part.framing part.data.length ∧ Framed .needCrlf parts

/-- The bytes of chunks. -/
def bytesOf : List FramedData → Bytes
  | [] => []
  | part :: parts => part.framing ++ (part.data ++ bytesOf parts)

/-- The chunk data among the first `n` bytes. -/
def dataAmong : List FramedData → ℕ → Bytes
  | [], _ => []
  | part :: parts, n =>
    part.data.take (n - part.framing.length) ++
      dataAmong parts (n - part.framing.length - part.data.length)

/-- Bytes at which a receiver in this place closes the connection: a malformed size line, a
terminal chunk, or something other than the line end of a chunk. -/
inductive Closes : ChunkState → Bytes → Prop
  | malformed {tail : Bytes} (h : httpStreamChunkHeaderParse tail = .malformed) :
      Closes .needHeader tail
  | terminal {tail : Bytes} {n : ℕ} (h : httpStreamChunkHeaderParse tail = .size 0 n) :
      Closes .needHeader tail
  | crlf {tail : Bytes} (h : Closes .needHeader tail) : Closes .needCrlf (Lib.crlf ++ tail)
  | noCrlf {tail : Bytes} (hlen : 2 ≤ tail.length) (h : tail.take 2 ≠ Lib.crlf) :
      Closes .needCrlf tail

/-- What a receiver has in front of it: the rest of the chunk it is in, and chunks. -/
structure Upcoming where
  lead : Bytes
  parts : List FramedData

namespace Upcoming

/-- The bytes. -/
def bytes (a : Upcoming) : Bytes := a.lead ++ bytesOf a.parts

/-- The chunk data among the first `n` of them. -/
def among (a : Upcoming) (n : ℕ) : Bytes := a.lead.take n ++ dataAmong a.parts (n - a.lead.length)

/-- The place in the framing behind all of it. -/
def endState (a : Upcoming) (state : ChunkState) : ChunkState :=
  if a.lead = [] ∧ a.parts = [] then state else .needCrlf

/-- It is what a receiver in this place has in front of it. -/
structure At (a : Upcoming) (state : ChunkState) (remaining : ℕ) : Prop where
  remaining : a.lead.length = remaining
  inPayload : state = .inPayload ↔ a.lead ≠ []
  framed : Framed (if a.lead = [] then state else .needCrlf) a.parts

/-- Data taken from the front is followed by the data among the rest. -/
theorem take_among {lead : Bytes} {k n : ℕ} (hk : k ≤ lead.length) (hn : k ≤ n)
    (parts : List FramedData) :
    lead.take k ++ among ⟨lead.drop k, parts⟩ (n - k) = among ⟨lead, parts⟩ n := by
  simp only [among, List.length_drop]
  rw [← List.append_assoc, show n - k - (lead.length - k) = n - lead.length by omega]
  congr 1
  conv_rhs => rw [← List.take_append_drop k lead, List.take_append, List.length_take_of_le hk,
    List.take_of_length_le (by rw [List.length_take]; omega)]

end Upcoming

/-! ### The framing in front of the data -/

@[simp] theorem dataAmong_zero (parts : List FramedData) : dataAmong parts 0 = [] := by
  induction parts with
  | nil => rfl
  | cons part parts ih => simp [dataAmong, ih]

/-- With nothing at hand there is no data at hand. -/
theorem Upcoming.among_zero (a : Upcoming) : a.among 0 = [] := by
  simp [Upcoming.among]

/-- Between two chunks the data is that of the chunks to come. -/
theorem Upcoming.among_nil (parts : List FramedData) (n : ℕ) :
    Upcoming.among ⟨[], parts⟩ n = dataAmong parts n := by
  simp [Upcoming.among]

/-- A size line that has been read lies within the window. -/
theorem httpStreamChunkHeaderParse_size {bs : Bytes} {size n : ℕ}
    (h : httpStreamChunkHeaderParse bs = .size size n) :
    ∃ lineLen, findCrlf bs = some lineLen ∧ n = lineLen + 2 ∧ n ≤ 18 ∧
      lineHeader false (bs.take lineLen) = .size size n := by
  cases hfind : findCrlf bs with
  | none =>
    rw [httpStreamChunkHeaderParse, chunkHeader_of_none false hfind] at h
    split_ifs at h
  | some lineLen =>
    by_cases hwindow : lineLen + 2 ≤ 18
    · have hline := chunkHeader_of_line false hfind hwindow
      rw [httpStreamChunkHeaderParse, hline] at h
      have hlen : (bs.take lineLen).length = lineLen :=
        List.length_take_of_le (by have := findCrlf_lt hfind; omega)
      have hn : n = lineLen + 2 := by
        unfold lineHeader at h
        split_ifs at h
        split at h
        · exact nomatch h
        · cases h
          rw [hlen]
      exact ⟨lineLen, rfl, hn, by omega, h⟩
    · rw [httpStreamChunkHeaderParse, chunkHeader_of_long false hfind (by omega)] at h
      exact nomatch h

/-- It is read in the same way with more bytes behind it. -/
theorem httpStreamChunkHeaderParse_append {bs : Bytes} {size n : ℕ}
    (h : httpStreamChunkHeaderParse bs = .size size n) (rest : Bytes) :
    httpStreamChunkHeaderParse (bs ++ rest) = .size size n := by
  obtain ⟨lineLen, hfind, hn, hwindow, hline⟩ := httpStreamChunkHeaderParse_size h
  have hle : lineLen ≤ bs.length := by
    have := findCrlf_lt hfind
    omega
  rw [httpStreamChunkHeaderParse,
    chunkHeader_of_line false (findCrlf_append hfind rest) (by omega),
    List.take_append_of_le_length hle]
  exact hline

/-- A part of a size line is waited for. -/
theorem httpStreamChunkHeaderParse_part {header p : Bytes} {size : ℕ}
    (h : httpStreamChunkHeaderParse header = .size size header.length) (hp : p <+: header)
    (hlt : p.length < header.length) : httpStreamChunkHeaderParse p = .more := by
  obtain ⟨lineLen, hfind, hn, hwindow, -⟩ := httpStreamChunkHeaderParse_size h
  have hnone : findCrlf p = none := by
    cases hpart : findCrlf p with
    | none => rfl
    | some i =>
      obtain ⟨rest, rfl⟩ := hp
      have hsame := (findCrlf_append hpart rest).symm.trans hfind
      have := findCrlf_lt hpart
      cases hsame
      omega
  rw [httpStreamChunkHeaderParse, chunkHeader_of_none false hnone, if_neg (by omega)]

/-- **Where the framing stands.**  `u` has taken its part of a stream of which `fut` has not
arrived; behind the chunks ahead of it stands `tail`, nothing or, where the stream is `closing`,
what closes the connection.  The chunk data among what is at hand and `m` bytes more is `D m`. -/
structure Stands (closing : Bool) (fut : Bytes) (D : ℕ → Bytes) (u : Unwrap) (a : Upcoming)
    (tail : Bytes) : Prop where
  place : a.At u.state u.remaining
  bytes : u.src ++ fut = a.bytes ++ tail
  among : ∀ m, a.among (u.src.length + m) = D m
  closes : closing = false ∧ tail = [] ∨ closing = true ∧ Closes (a.endState u.state) tail

/-- The payload taken out so far is of no account. -/
theorem Stands.same {closing : Bool} {tail fut : Bytes} {D : ℕ → Bytes} {u v : Unwrap}
    {a : Upcoming} (h : Stands closing fut D u a tail) (hsrc : v.src = u.src)
    (hremaining : v.remaining = u.remaining) (hstate : v.state = u.state) :
    Stands closing fut D v a tail := by
  refine ⟨?_, ?_, ?_, ?_⟩
  · rw [hremaining, hstate]
    exact h.place
  · rw [hsrc]
    exact h.bytes
  · rw [hsrc]
    exact h.among
  · rw [hstate]
    exact h.closes

/-- What the step in front of the data comes to: it has to wait, with no data at hand, data is
next, or the connection is to be closed. -/
inductive Advances (closing : Bool) (fut : Bytes) (D : ℕ → Bytes) :
    Except Unwrap.Exit Unwrap → Prop
  | waits (v : Unwrap) (a : Upcoming) (tail : Bytes) (h : Stands closing fut D v a tail)
      (hnone : D 0 = []) (hfut : closing = true → fut ≠ []) :
      Advances closing fut D (.error (v, none))
  | data (v : Unwrap) (a : Upcoming) (tail : Bytes) (h : Stands closing fut D v a tail)
      (hstate : v.state = .inPayload) : Advances closing fut D (.ok v)
  | closed (v : Unwrap) (err : ℤ) (hnone : D 0 = []) :
      Advances closing fut D (.error (v, some err))

/-- Bytes that close the connection, in part or as a whole. -/
theorem Unwrap.header_closes {tail fut : Bytes} {D : ℕ → Bytes} {u : Unwrap}
    (hstate : u.state = .needHeader) (hremaining : u.remaining = 0)
    (hbytes : u.src ++ fut = tail) (hD : ∀ m, D m = []) (hcloses : Closes .needHeader tail) :
    Advances true fut D (u.header httpStreamChunkHeaderParse) := by
  have hstands : Stands true fut D u ⟨[], []⟩ tail := by
    refine ⟨⟨hremaining.symm, ?_, trivial⟩, hbytes, fun m => ?_, Or.inr ⟨rfl, ?_⟩⟩
    · rw [hstate]
      exact iff_of_false ChunkState.noConfusion fun h => h rfl
    · rw [hD]
      simp [Upcoming.among, dataAmong]
    · rw [Upcoming.endState, if_pos ⟨rfl, rfl⟩, hstate]
      exact hcloses
  rw [Unwrap.header, if_pos hstate]
  cases hparse : httpStreamChunkHeaderParse u.src with
  | more =>
    refine .waits u _ _ hstands (hD 0) fun _ hfut => ?_
    rw [hfut, List.append_nil] at hbytes
    rw [hbytes] at hparse
    cases hcloses with
    | malformed h => cases hparse.symm.trans h
    | terminal h => cases hparse.symm.trans h
  | malformed => exact .closed _ _ (hD 0)
  | size size n =>
    have hall := httpStreamChunkHeaderParse_append hparse fut
    rw [hbytes] at hall
    dsimp only
    cases hcloses with
    | malformed h => cases hall.symm.trans h
    | terminal h =>
      have hzero := hall.symm.trans h
      cases hzero
      exact .closed _ _ (hD 0)

/-- The size line of the next chunk, in part or as a whole. -/
theorem Unwrap.header_opens {closing : Bool} {fut : Bytes} {D : ℕ → Bytes} {u : Unwrap}
    (part : FramedData) (parts : List FramedData) (tail : Bytes) (hstate : u.state = .needHeader)
    (hstands : Stands closing fut D u ⟨[], part :: parts⟩ tail) :
    Advances closing fut D (u.header httpStreamChunkHeaderParse) := by
  obtain ⟨hplace, hbytes, hamong, hcloses⟩ := hstands
  have hframed := hplace.framed
  rw [if_pos rfl, hstate] at hframed
  obtain ⟨hdata, hopens, hparts⟩ := hframed
  have hopens' : httpStreamChunkHeaderParse part.framing =
      .size part.data.length part.framing.length := hopens
  replace hbytes : u.src ++ fut = part.framing ++ (part.data ++ bytesOf parts ++ tail) := by
    rw [hbytes]
    simp [Upcoming.bytes, bytesOf]
  rw [Unwrap.header, if_pos hstate]
  by_cases hlt : u.src.length < part.framing.length
  · have hpart : u.src <+: part.framing :=
      List.prefix_of_prefix_length_le ⟨fut, hbytes⟩ (List.prefix_append _ _) (by omega)
    rw [httpStreamChunkHeaderParse_part hopens' hpart hlt]
    refine .waits u ⟨[], part :: parts⟩ tail ⟨hplace, ?_, hamong, hcloses⟩ ?_ fun _ hfut => ?_
    · rw [hbytes]
      simp [Upcoming.bytes, bytesOf]
    · have h0 := hamong 0
      simp only [Upcoming.among, List.take_nil, List.nil_append, List.length_nil, dataAmong] at h0
      rw [← h0, show u.src.length + 0 - 0 - part.framing.length = 0 by omega]
      simp
    · have := congrArg List.length hbytes
      rw [hfut] at this
      simp only [List.length_append, List.length_nil] at this
      omega
  · have hsrc : u.src = part.framing ++ u.src.drop part.framing.length := by
      have htake := congrArg (List.take part.framing.length) hbytes
      rw [List.take_append_of_le_length (by omega), List.take_left] at htake
      rw [← htake, List.length_take_of_le (by omega), List.take_append_drop]
    have hrest : u.src.drop part.framing.length ++ fut = part.data ++ bytesOf parts ++ tail := by
      have hdrop := congrArg (List.drop part.framing.length) hbytes
      rwa [List.drop_append_of_le_length (by omega), List.drop_left] at hdrop
    have hsize : httpStreamChunkHeaderParse u.src =
        .size part.data.length part.framing.length := by
      rw [hsrc]
      exact httpStreamChunkHeaderParse_append hopens' _
    have h0 : part.data.length ≠ 0 := fun h => hdata (List.length_eq_zero_iff.mp h)
    rw [hsize]
    dsimp only
    rw [if_neg h0]
    refine .data _ ⟨part.data, parts⟩ tail ⟨⟨rfl, ?_, ?_⟩, hrest, fun m => ?_, ?_⟩ rfl
    · exact iff_of_true rfl hdata
    · rw [if_neg hdata]
      exact hparts
    · rw [← hamong m]
      simp only [Upcoming.among, List.take_nil, List.nil_append, List.length_nil, dataAmong,
        List.length_drop]
      rw [show u.src.length - part.framing.length + m =
        u.src.length + m - 0 - part.framing.length by omega]
    · refine hcloses.imp_right fun h => ⟨h.1, ?_⟩
      have h := h.2
      rw [Upcoming.endState, if_neg fun h => List.cons_ne_nil _ _ h.2] at h
      rw [Upcoming.endState, if_neg fun h => hdata h.1]
      exact h

/-- The line end of a chunk, where the bytes begin with one. -/
theorem exists_crlf {src fut rest : Bytes} (h : src ++ fut = crlf ++ rest)
    (hlen : ¬ src.length < 2) : ∃ src', src = crlf ++ src' ∧ src' ++ fut = rest := by
  refine ⟨src.drop 2, ?_, ?_⟩
  · have htake := congrArg (List.take 2) h
    rw [List.take_append_of_le_length (by omega), List.take_left' crlf_length] at htake
    rw [← htake, List.take_append_drop]
  · have hdrop := congrArg (List.drop 2) h
    rwa [List.drop_append_of_le_length (by omega), List.drop_left' crlf_length] at hdrop

/-- Behind the last chunk the connection is to be closed. -/
theorem Stands.at_end {closing : Bool} {tail fut : Bytes} {D : ℕ → Bytes} {u : Unwrap}
    (h : Stands closing fut D u ⟨[], []⟩ tail) (hsrc : u.src ≠ []) :
    u.src ++ fut = tail ∧ (∀ m, D m = []) ∧ closing = true ∧ Closes u.state tail := by
  have hbytes := h.bytes
  simp only [Upcoming.bytes, bytesOf, List.append_nil, List.nil_append] at hbytes
  refine ⟨hbytes, fun m => ?_, ?_⟩
  · rw [← h.among m]
    simp [Upcoming.among, dataAmong]
  · rcases h.closes with ⟨-, hnil⟩ | ⟨hclosing, hcloses⟩
    · rw [hnil] at hbytes
      exact absurd (List.append_eq_nil_iff.mp hbytes).1 hsrc
    · rw [Upcoming.endState, if_pos ⟨rfl, rfl⟩] at hcloses
      exact ⟨hclosing, hcloses⟩

/-- The end of a chunk. -/
theorem Unwrap.trailer_advance {closing : Bool} {tail fut : Bytes} {D : ℕ → Bytes} {u : Unwrap}
    (hstate : u.state = .needCrlf) (hremaining : u.remaining = 0) (hsrc : u.src ≠ [])
    {parts : List FramedData} (h : Stands closing fut D u ⟨[], parts⟩ tail) :
    Advances closing fut D (u.advance httpStreamChunkHeaderParse) := by
  have hframed := h.place.framed
  rw [if_pos rfl, hstate] at hframed
  by_cases hshort : u.src.length < 2
  · have hwait : u.advance httpStreamChunkHeaderParse = .error (u, none) := by
      simp only [Unwrap.advance, if_pos hremaining, Unwrap.trailer, if_pos hstate, if_pos hshort,
        Except.bind]
    rw [hwait]
    cases parts with
    | nil =>
      obtain ⟨hbytes, hD, -, hcloses⟩ := h.at_end hsrc
      refine .waits _ _ _ h (hD 0) fun _ hfut => ?_
      have hlen := congrArg List.length hbytes
      rw [hfut, List.append_nil] at hlen
      rw [hstate] at hcloses
      cases hcloses with
      | crlf _ =>
        rw [List.length_append, crlf_length] at hlen
        omega
      | noCrlf htail _ => omega
    | cons part parts =>
      obtain ⟨hdata, ⟨header, hheader, -⟩, -⟩ := hframed
      have hlong : 2 ≤ part.framing.length := by
        rw [hheader, List.length_append, crlf_length]
        omega
      have hbytes := h.bytes
      simp only [Upcoming.bytes, bytesOf, List.nil_append] at hbytes
      refine .waits _ _ _ h ?_ fun _ hfut => ?_
      · rw [← h.among 0]
        simp only [Upcoming.among, List.take_nil, List.nil_append, List.length_nil, dataAmong]
        rw [show u.src.length + 0 - 0 - part.framing.length = 0 by omega]
        simp
      · have hlen := congrArg List.length hbytes
        simp only [hfut, List.length_append, List.length_nil] at hlen
        omega
  · cases parts with
    | nil =>
      obtain ⟨hbytes, hD, rfl, hcloses⟩ := h.at_end hsrc
      rw [hstate] at hcloses
      cases hcloses with
      | @crlf tail' hcloses' =>
        obtain ⟨src', hcrlf, hrest⟩ := exists_crlf hbytes hshort
        rw [Unwrap.advance_crlf hremaining hstate hcrlf]
        exact Unwrap.header_closes rfl hremaining hrest hD hcloses'
      | noCrlf htail hne =>
        have htake : u.src.take 2 ≠ crlf := by
          rw [← hbytes, List.take_append_of_le_length (by omega)] at hne
          exact hne
        have hfail : u.advance httpStreamChunkHeaderParse = .error (u, some (-1)) := by
          simp only [Unwrap.advance, if_pos hremaining, Unwrap.trailer, if_pos hstate,
            if_neg hshort, if_pos htake, Except.bind]
        rw [hfail]
        exact .closed _ _ (hD 0)
    | cons part parts =>
      obtain ⟨hdata, ⟨header, hheader, hopens⟩, hparts⟩ := hframed
      have hbytes := h.bytes
      simp only [Upcoming.bytes, bytesOf, List.nil_append, hheader, List.append_assoc] at hbytes
      obtain ⟨src', hcrlf, hrest⟩ := exists_crlf hbytes hshort
      have hlen : u.src.length = src'.length + 2 := by
        rw [hcrlf, List.length_append, crlf_length, Nat.add_comm]
      rw [Unwrap.advance_crlf hremaining hstate hcrlf]
      refine Unwrap.header_opens ⟨header, part.data⟩ parts tail rfl
        ⟨⟨hremaining.symm, ?_, ?_⟩, ?_, fun m => ?_, ?_⟩
      · exact iff_of_false ChunkState.noConfusion fun h => h rfl
      · rw [if_pos rfl]
        exact ⟨hdata, hopens, hparts⟩
      · simp only [Upcoming.bytes, bytesOf, List.nil_append, List.append_assoc]
        exact hrest
      · rw [← h.among m]
        simp only [Upcoming.among, List.take_nil, List.nil_append, List.length_nil, dataAmong,
          hheader, List.length_append, crlf_length, hlen]
        rw [show src'.length + 2 + m - 0 - (2 + header.length) =
          src'.length + m - 0 - header.length by omega]
      · refine h.closes.imp_right fun h => ⟨h.1, ?_⟩
        have hcloses := h.2
        rw [Upcoming.endState, if_neg fun h => List.cons_ne_nil _ _ h.2] at hcloses ⊢
        exact hcloses

/-- **The step in front of the data keeps account of what is ahead.** -/
theorem Stands.advance {closing : Bool} {tail fut : Bytes} {D : ℕ → Bytes} {u : Unwrap}
    {a : Upcoming} (h : Stands closing fut D u a tail) (hsrc : u.src ≠ []) :
    Advances closing fut D (u.advance httpStreamChunkHeaderParse) := by
  obtain ⟨lead, parts⟩ := a
  have hremaining : lead.length = u.remaining := h.place.remaining
  by_cases hlead : lead = []
  · subst hlead
    have h0 : u.remaining = 0 := hremaining.symm
    cases hstate : u.state with
    | inPayload => exact absurd rfl (h.place.inPayload.mp hstate)
    | needHeader =>
      rw [Unwrap.advance_header h0 hstate]
      cases parts with
      | nil =>
        obtain ⟨hbytes, hD, rfl, hcloses⟩ := h.at_end hsrc
        rw [hstate] at hcloses
        exact Unwrap.header_closes hstate h0 hbytes hD hcloses
      | cons part parts => exact Unwrap.header_opens part parts tail hstate h
    | needCrlf => exact Unwrap.trailer_advance hstate h0 hsrc h
  · have h0 : u.remaining ≠ 0 := by
      rw [← hremaining]
      exact fun h => hlead (List.length_eq_zero_iff.mp h)
    rw [Unwrap.advance, if_neg h0]
    exact .data _ _ _ h (h.place.inPayload.mpr hlead)

/-! ### Decryption -/

section Decrypt

variable {W : Type*}

/-- What the loop that decrypts looks at of the framing. -/
def Conn.chunks (c : Conn W) : Unwrap :=
  ⟨c.inU, [], 0, c.httpChunkRemaining, c.httpChunkHeaderState⟩

/-- The framing put back. -/
def Conn.putChunks (c : Conn W) (u : Unwrap) : Conn W :=
  { c with inU := u.src, httpChunkRemaining := u.remaining, httpChunkHeaderState := u.state }

/-- **How far decryption has come** since `c₀` with `T₀`: it has decrypted `done`, which together
with the data among what is still at hand and `m` bytes more is `D m`. -/
structure Delivering (c₀ : Conn W) (T₀ : AesCrypto) (closing : Bool) (fut : Bytes) (D : ℕ → Bytes)
    (done : Bytes) (c : Conn W) : Prop where
  place : ∃ a tail rest, (∀ m, done ++ rest m = D m) ∧ Stands closing fut rest c.chunks a tail
  inp : c.inp = c₀.inp ++ xorAt T₀.read.ks T₀.read.pos done
  crypto : c.crypto = some { T₀ with read := ⟨T₀.read.ks, T₀.read.pos + done.length⟩ }
  cError : c.cError = c₀.cError
  wsState : c.wsState ≠ .active
  transportMode : c.transportMode = .httpStream

/-- What a turn of the loop comes to: data is decrypted, or all data at hand has been decrypted and
the rest is waited for or closes the connection. -/
inductive DeliveryTurn (c₀ : Conn W) (T₀ : AesCrypto) (closing : Bool) (fut : Bytes)
    (D : ℕ → Bytes) (done : Bytes) : Turn (Conn W) (DecryptExit W) → Prop
  | data (c' : Conn W) (done' : Bytes) (h : Delivering c₀ T₀ closing fut D done' c') :
      DeliveryTurn c₀ T₀ closing fut D done (.again c')
  | waits (c' : Conn W) (h : Delivering c₀ T₀ closing fut D done c') (hall : done = D 0)
      (hfut : closing = true → fut ≠ []) :
      DeliveryTurn c₀ T₀ closing fut D done (.done (.ok (c', 0)))
  | closed (c' : Conn W) (hinp : c'.inp = c₀.inp ++ xorAt T₀.read.ks T₀.read.pos done)
      (hall : done = D 0) (herror : c'.cError = true) :
      DeliveryTurn c₀ T₀ closing fut D done (.done (.ok (c', 0)))

theorem Closes.ne_nil {state : ChunkState} {tail : Bytes} (h : Closes state tail) : tail ≠ [] := by
  rintro rfl
  cases h with
  | malformed h => exact nomatch h
  | terminal h => exact nomatch h
  | noCrlf hlen _ => exact absurd hlen (by decide)

/-- With nothing at hand there is no data at hand. -/
theorem Stands.of_nil {closing : Bool} {tail fut : Bytes} {D : ℕ → Bytes} {u : Unwrap}
    {a : Upcoming} (h : Stands closing fut D u a tail) (hsrc : u.src = []) :
    D 0 = [] ∧ (closing = true → fut ≠ []) := by
  constructor
  · rw [← h.among 0, hsrc]
    simp [Upcoming.among]
  · rintro hclosing rfl
    have hbytes := h.bytes
    rw [hsrc, List.append_nil] at hbytes
    have hnil := (List.append_eq_nil_iff.mp hbytes.symm).2
    rcases h.closes with ⟨hopen, -⟩ | ⟨-, hcloses⟩
    · rw [hopen] at hclosing
      exact nomatch hclosing
    · exact hcloses.ne_nil hnil

/-- The data at hand of the chunk a receiver is in is taken. -/
theorem Stands.take {closing : Bool} {tail fut : Bytes} {D : ℕ → Bytes} {u : Unwrap}
    {a : Upcoming} (h : Stands closing fut D u a tail) (hstate : u.state = .inPayload) {k : ℕ}
    (hk : k = min u.src.length u.remaining) :
    ∃ rest, (∀ m, u.src.take k ++ rest m = D m) ∧
      Stands closing fut rest
        { u with
          src := u.src.drop k
          remaining := u.remaining - k
          state := if u.remaining - k = 0 then .needCrlf else u.state }
        ⟨a.lead.drop k, a.parts⟩ tail := by
  obtain ⟨lead, parts⟩ := a
  have hlead : lead ≠ [] := h.place.inPayload.mp hstate
  have hremaining : lead.length = u.remaining := h.place.remaining
  have hsrc : k ≤ u.src.length := hk ▸ Nat.min_le_left _ _
  have hle : k ≤ lead.length := by
    rw [hremaining]
    exact hk ▸ Nat.min_le_right _ _
  have hbytes := h.bytes
  simp only [Upcoming.bytes, List.append_assoc] at hbytes
  have htake : u.src.take k = lead.take k := by
    have := congrArg (List.take k) hbytes
    rwa [List.take_append_of_le_length hsrc, List.take_append_of_le_length hle] at this
  have hdrop : u.src.drop k ++ fut = lead.drop k ++ (bytesOf parts ++ tail) := by
    have := congrArg (List.drop k) hbytes
    rwa [List.drop_append_of_le_length hsrc, List.drop_append_of_le_length hle] at this
  have hdone : u.remaining - k = 0 ↔ lead.drop k = [] := by
    rw [List.drop_eq_nil_iff, ← hremaining]
    omega
  have hframed := h.place.framed
  rw [if_neg hlead] at hframed
  refine ⟨fun m => Upcoming.among ⟨lead.drop k, parts⟩ (u.src.length - k + m), fun m => ?_,
    ⟨?_, ?_, ?_⟩, ?_, fun m => ?_, ?_⟩
  · rw [← h.among m, htake, ← Upcoming.take_among hle (n := u.src.length + m) (by omega),
      show u.src.length + m - k = u.src.length - k + m by omega]
  · rw [List.length_drop, hremaining]
  · dsimp only
    split_ifs with h0
    · exact iff_of_false not_false fun h => h (hdone.mp h0)
    · exact iff_of_true hstate fun h => h0 (hdone.mpr h)
  · dsimp only
    split_ifs <;> first | exact hframed | exact absurd (hdone.mpr ‹_›) ‹_›
  · rw [hdrop]
    simp [Upcoming.bytes]
  · dsimp only
    rw [List.length_drop]
  · refine h.closes.imp_right fun ⟨hclosing, hcloses⟩ => ⟨hclosing, ?_⟩
    rw [Upcoming.endState, if_neg fun h => hlead h.1] at hcloses
    unfold Upcoming.endState
    dsimp only
    split_ifs with hnil h0
    · exact hcloses
    · exact absurd (hdone.mpr hnil.1) h0
    · exact hcloses

/-- **A turn of the loop that decrypts.** -/
theorem Delivering.turn {c₀ c : Conn W} {T₀ : AesCrypto} {closing : Bool} {fut done : Bytes}
    {D : ℕ → Bytes} (h : Delivering c₀ T₀ closing fut D done c) :
    DeliveryTurn c₀ T₀ closing fut D done (decryptTurn c) := by
  obtain ⟨a, tail, rest, hD, hstands⟩ := h.place
  have hall (hnone : rest 0 = []) : done = D 0 := by
    rw [← hD 0, hnone, List.append_nil]
  by_cases hin : c.inU = []
  · have hturn : decryptTurn c = .done (.ok (c, 0)) := by
      simp only [decryptTurn, h.crypto, hin, List.length_nil, if_true]
    obtain ⟨hnone, hfut⟩ := hstands.of_nil hin
    rw [hturn]
    exact .waits c h (hall hnone) hfut
  · have hlen : c.inU.length ≠ 0 := fun h => hin (List.length_eq_zero_iff.mp h)
    have hturn : decryptTurn c =
        decryptChunkTurn c { T₀ with read := ⟨T₀.read.ks, T₀.read.pos + done.length⟩ } := by
      simp only [decryptTurn, h.crypto, if_neg hlen, if_neg h.wsState, if_pos h.transportMode]
    have hadvance := hstands.advance hin
    rw [hturn, decryptChunkTurn]
    dsimp only
    unfold Conn.chunks at hadvance
    generalize Unwrap.advance httpStreamChunkHeaderParse
      ⟨c.inU, [], 0, c.httpChunkRemaining, c.httpChunkHeaderState⟩ = x at hadvance ⊢
    cases hadvance with
    | waits v a' tail' hv hnone hfut =>
      exact .waits _ ⟨⟨a', tail', rest, hD, hv.same rfl rfl rfl⟩, h.inp, h.crypto, h.cError,
        h.wsState, h.transportMode⟩ (hall hnone) hfut
    | closed v err hnone => exact .closed _ h.inp (hall hnone) rfl
    | data v a' tail' hv hstate =>
      obtain ⟨rest', hrest', hnext⟩ := hv.take hstate rfl
      refine .data _ (done ++ v.src.take (min v.src.length v.remaining)) ⟨⟨_, _, rest', fun m => ?_,
        hnext.same rfl rfl rfl⟩, ?_, ?_, h.cError, h.wsState, h.transportMode⟩
      · rw [List.append_assoc, hrest' m, hD m]
      · simp only [decryptChunkPayload, decryptTo]
        rw [h.inp, xorAt_append, List.append_assoc]
      · simp only [decryptChunkPayload, decryptTo]
        rw [List.length_append, Nat.add_assoc]

/-- **A call of `crypto_decrypt_input`** decrypts the data among what is at hand, and no other byte;
where all of a closing stream is at hand it closes the connection. -/
theorem Delivering.decryptInput {c₀ c : Conn W} {T₀ : AesCrypto} {closing : Bool}
    {fut done : Bytes} {D : ℕ → Bytes} (h : Delivering c₀ T₀ closing fut D done c) :
    ∃ c', cpuTcpAesCryptoCtr128DecryptInput c = .ok (c', 0) ∧
      c'.inp = c₀.inp ++ xorAt T₀.read.ks T₀.read.pos (D 0) ∧
      (c'.cError = true ∨
        Delivering c₀ T₀ closing fut D (D 0) c' ∧ (closing = true → fut ≠ [])) := by
  refine loop_inv (I := fun d => ∃ done', Delivering c₀ T₀ closing fut D done' d)
    (Q := fun exit => ∃ c', exit = .ok (c', 0) ∧
      c'.inp = c₀.inp ++ xorAt T₀.read.ks T₀.read.pos (D 0) ∧
      (c'.cError = true ∨ Delivering c₀ T₀ closing fut D (D 0) c' ∧ (closing = true → fut ≠ [])))
    decryptTurn_shrinks ?_ ?_ ⟨done, h⟩
  · rintro d d' ⟨done', hd⟩ hturn
    have hresult := hd.turn
    rw [hturn] at hresult
    cases hresult with
    | data _ done'' hd' => exact ⟨done'', hd'⟩
  · rintro d exit ⟨done', hd⟩ hturn
    have hresult := hd.turn
    rw [hturn] at hresult
    cases hresult with
    | waits c' hd' hall hfut =>
      subst hall
      exact ⟨c', rfl, hd'.inp, Or.inr ⟨hd', hfut⟩⟩
    | closed c' hinp hall herror =>
      subst hall
      exact ⟨c', rfl, hinp, Or.inl herror⟩

end Decrypt

/-! ### Reads -/

section Reads

variable {W : Type*} {env : ExtServerEnv W}

/-- **A receiver of chunks**: an HTTP client whose obfuscated2 header has been accepted, with all it
holds decrypted that can be. -/
structure ReceivesChunks (c : Conn W) (T : AesCrypto) : Prop where
  past : PastHeader c
  crypto : c.crypto = some T
  live : c.cError = false
  wsState : c.wsState ≠ .active
  transportMode : c.transportMode = .httpStream
  settled : cpuTcpAesCryptoCtr128DecryptInput c = .ok (c, 0)

/-- **What is promised at a moment** of a stream that consists of these chunks and, behind them,
`tail`: what has been delivered is the chunk data among the bytes that have arrived, decrypted;
and where the last of a tail that closes the connection has arrived, it is closed, and
`parse_execute` is not called. -/
structure DeliveredExactly (T : AesCrypto) (a : Upcoming) (tail : Bytes) (x : Delivery W) :
    Prop where
  exact : x.received <+: a.bytes ++ tail →
    x.delivered = xorAt T.read.ks T.read.pos (a.among x.received.length)
  closed : tail ≠ [] → x.received = a.bytes ++ tail → x.conn.cError = true ∧ x.results = []

/-- A connection in the middle of a stream, of which `n` bytes have arrived. -/
structure InStream (T : AesCrypto) (a : Upcoming) (closing : Bool) (n : ℕ) (fut : Bytes)
    (c : Conn W) : Prop where
  past : PastHeader c
  crypto : c.crypto = some { T with read := ⟨T.read.ks, T.read.pos + (a.among n).length⟩ }
  wsState : c.wsState ≠ .active
  transportMode : c.transportMode = .httpStream
  place : ∃ a' tail' rest, (∀ m, a.among n ++ rest m = a.among (n + m)) ∧
    Stands closing fut rest c.chunks a' tail'

/-- The invariant of a run of reads, with what is still to arrive of the stream. -/
structure DeliveryOk (T : AesCrypto) (a : Upcoming) (closing : Bool) (x : Delivery W)
    (fut : Bytes) : Prop where
  delivered : x.delivered = xorAt T.read.ks T.read.pos (a.among x.received.length)
  going : x.conn.cError = false → InStream T a closing x.received.length fut x.conn
  closed : closing = true → fut = [] → x.conn.cError = true ∧ x.results = []

/-- **One read.** -/
theorem DeliveryOk.read {T : AesCrypto} {a : Upcoming} {closing : Bool} {x x' : Delivery W}
    {r : Read} {fut : Bytes} (h : DeliveryOk T a closing x (r.1.flatten ++ fut))
    (hlive : x.conn.cError = false) (hstep : deliveryStep env (.ok x) r = .ok x') :
    DeliveryOk T a closing x' fut := by
  obtain ⟨hpast, hcrypto, hws, hmode, a', tail', rest, hrest, hstands⟩ := h.going hlive
  have hsome : x.conn.crypto.isSome = true := by rw [hcrypto]; rfl
  have hfill : readerFill x.conn r.1 = x.conn.pend r.1.flatten := readerFill_crypto hsome r.1
  have hstart : Delivering (x.conn.pend r.1.flatten)
      { T with read := ⟨T.read.ks, T.read.pos + (a.among x.received.length).length⟩ } closing fut
      (fun m => rest (r.1.flatten.length + m)) [] (x.conn.pend r.1.flatten) := by
    refine ⟨⟨a', tail', _, fun _ => rfl, ⟨hstands.place, ?_, fun m => ?_, hstands.closes⟩⟩, ?_, ?_,
      rfl, hws, hmode⟩
    · show x.conn.inU ++ r.1.flatten ++ fut = _
      rw [List.append_assoc]
      exact hstands.bytes
    · show a'.among ((x.conn.inU ++ r.1.flatten).length + m) = _
      rw [List.length_append, Nat.add_assoc]
      exact hstands.among _
    · rw [xorAt_nil, List.append_nil]
    · exact hcrypto
  obtain ⟨d, hdec, hinp, hend⟩ := hstart.decryptInput
  have hdecode : readerDecode (clientMethods env) (readerFill x.conn r.1) = .ok d := by
    rw [hfill]
    unfold readerDecode
    rw [if_pos (show (x.conn.pend r.1.flatten).crypto.isSome = true from hsome),
      show (clientMethods env).cryptoDecryptInput (x.conn.pend r.1.flatten) = .ok (d, 0) from hdec]
    rfl
  have hnow : deliveredNow env x.conn r.1 = xorAt T.read.ks
      (T.read.pos + (a.among x.received.length).length) (rest (r.1.flatten.length + 0)) := by
    unfold deliveredNow
    rw [hdecode]
    show d.inp.drop x.conn.inp.length = _
    rw [hinp]
    exact List.drop_left
  have hall := hrest r.1.flatten.length
  have hdelivered : x.delivered ++ deliveredNow env x.conn r.1 = xorAt T.read.ks T.read.pos
      (a.among (x.received ++ r.1.flatten).length) := by
    rw [hnow, h.delivered, Nat.add_zero, ← xorAt_append, hall, List.length_append]
  rw [deliveryStep_of_live hlive] at hstep
  rcases hend with herror | ⟨hd, hfut⟩
  · rw [jobRun_of_failed hlive hdecode herror r.2] at hstep
    cases hstep
    exact ⟨hdelivered, fun h => (nomatch herror.symm.trans h), fun _ _ => ⟨herror, rfl⟩⟩
  · have hdlive : d.cError = false := hd.cError.trans hlive
    have hdpast : PastHeader d :=
      PastHeader.decrypted (c := x.conn.pend r.1.flatten)
        (hpast.imp (fun h => ⟨h.type, h.crypto, h.wsState, h.inPacketNum⟩) id)
        (cpuTcpAesCryptoCtr128DecryptInput_frame hdec)
    cases hrun : jobRun (clientMethods env) x.conn r.1 r.2 with
    | error f =>
      rw [hrun] at hstep
      exact nomatch hstep
    | ok result =>
      rw [hrun] at hstep
      cases hstep
      obtain ⟨hkeeps, hpast'⟩ := jobRun_keeps hlive hdecode hdlive (by rw [hd.crypto]; rfl) hdpast
        hrun
      refine ⟨hdelivered, fun _ => ⟨hpast', ?_, ?_, ?_, ?_⟩, fun hclosing hnil =>
        absurd hnil (hfut hclosing)⟩
      · show result.conn.crypto = _
        rw [hkeeps.crypto, hd.crypto]
        simp only [Nat.add_zero, List.length_append, ← hall, Nat.add_assoc]
      · show result.conn.wsState ≠ _
        rw [hkeeps.wsState]
        exact hd.wsState
      · exact hkeeps.transportMode.trans hd.transportMode
      · obtain ⟨a'', tail'', rest'', hrest'', hstands''⟩ := hd.place
        refine ⟨a'', tail'', rest'', fun m => ?_, hstands''.same hkeeps.inU
          hkeeps.httpChunkRemaining hkeeps.httpChunkHeaderState⟩
        show a.among (x.received ++ r.1.flatten).length ++ rest'' m = _
        have hsum := hrest'' m
        simp only [Nat.add_zero] at hsum
        rw [List.length_append, ← hall, List.append_assoc, hsum, hrest, Nat.add_assoc]

/-- What a receiver that waits holds of a stream. -/
theorem ReceivesChunks.ok {c : Conn W} {T : AesCrypto} (hc : ReceivesChunks c T) {a : Upcoming}
    {closing : Bool} {tail fut : Bytes} (ha : a.At c.httpChunkHeaderState c.httpChunkRemaining)
    (hcloses : closing = false ∧ tail = [] ∨
      closing = true ∧ Closes (a.endState c.httpChunkHeaderState) tail)
    (hstream : c.inU ++ fut = a.bytes ++ tail) :
    DeliveryOk T a closing ⟨c, c.inU, [], []⟩ fut := by
  have hstands : Stands closing fut (fun m => a.among (c.inU.length + m)) c.chunks a tail :=
    ⟨ha, hstream, fun _ => rfl, hcloses⟩
  have hstart : Delivering c T closing fut (fun m => a.among (c.inU.length + m)) [] c :=
    ⟨⟨a, tail, _, fun _ => rfl, hstands⟩, (List.append_nil _).symm, hc.crypto, rfl, hc.wsState,
      hc.transportMode⟩
  obtain ⟨c', hdec, hinp, hend⟩ := hstart.decryptInput
  obtain rfl : c' = c := (Prod.mk.inj (Except.ok.inj (hdec.symm.trans hc.settled))).1
  have hnone : a.among c'.inU.length = [] := by
    have hlen := congrArg List.length hinp
    rw [List.length_append, xorAt_length, Nat.add_zero] at hlen
    exact List.length_eq_zero_iff.mp (by omega)
  have hfut : closing = true → fut ≠ [] := by
    rcases hend with herror | ⟨-, hfut⟩
    · exact nomatch herror.symm.trans hc.live
    · exact hfut
  refine ⟨?_,
    fun _ => ⟨hc.past, ?_, hc.wsState, hc.transportMode, a, tail, _, fun m => ?_, hstands⟩,
    fun hclosing hnil => absurd hnil (hfut hclosing)⟩
  · show [] = xorAt _ _ (a.among c'.inU.length)
    rw [hnone]
    rfl
  · show c'.crypto =
      some { T with read := ⟨T.read.ks, T.read.pos + (a.among c'.inU.length).length⟩ }
    rw [hnone]
    exact hc.crypto
  · show a.among c'.inU.length ++ _ = _
    rw [hnone]
    rfl

/-- **Exactly the chunk data is delivered, at every moment**, from any place in the framing. -/
theorem chunkStream_delivered (env : ExtServerEnv W) (c : Conn W) (T : AesCrypto)
    (hc : ReceivesChunks c T) (a : Upcoming) (tail : Bytes)
    (ha : a.At c.httpChunkHeaderState c.httpChunkRemaining)
    (htail : tail = [] ∨ Closes (a.endState c.httpChunkHeaderState) tail) (reads : List Read) :
    Throughout (deliveryStep env) (fun s => ∀ x, s = .ok x → DeliveredExactly T a tail x)
      (.ok ⟨c, c.inU, [], []⟩) reads := by
  obtain ⟨closing, hclosing, hcloses⟩ : ∃ closing, (tail ≠ [] → closing = true) ∧
      (closing = false ∧ tail = [] ∨
        closing = true ∧ Closes (a.endState c.httpChunkHeaderState) tail) := by
    rcases htail with hnil | hcloses
    · exact ⟨false, fun h => absurd hnil h, Or.inl ⟨rfl, hnil⟩⟩
    · exact ⟨true, fun _ => rfl, Or.inr ⟨rfl, hcloses⟩⟩
  have hall : Throughout (deliveryStep env) (fun s => ∀ x, s = .ok x → ∀ fut,
      x.received ++ fut = a.bytes ++ tail → DeliveryOk T a closing x fut)
      (.ok ⟨c, c.inU, [], []⟩) reads := by
    refine throughout_of_step (fun s r hs x' hx' fut hstream => ?_) ?_
    · cases s with
      | error f => exact nomatch hx'
      | ok x =>
        by_cases hlive : x.conn.cError = false
        · have hreceived := deliveryStep_received hlive hx'
          rw [hreceived, List.append_assoc] at hstream
          exact (hs x rfl _ hstream).read hlive hx'
        · have hfailed : x.conn.cError = true := by simpa using hlive
          have hstay : deliveryStep env (.ok x) r = .ok { x with results := [] } := if_pos hfailed
          rw [hstay] at hx'
          cases hx'
          obtain ⟨hdelivered, hgoing, -⟩ := hs x rfl fut hstream
          exact ⟨hdelivered, hgoing, fun _ _ => ⟨hfailed, rfl⟩⟩
    · intro x hx fut hstream
      cases hx
      exact hc.ok ha hcloses hstream
  refine hall.imp fun s hs x hx =>
    ⟨fun ⟨fut, hfut⟩ => (hs x hx fut hfut).delivered, fun hne heq => ?_⟩
  exact (hs x hx [] (by rw [List.append_nil, heq])).closed (hclosing hne) rfl

/-- A chunk with two bytes arrives in three pieces, and something other than its line end. -/
theorem chunkStream_delivered_sample :
    Throughout (deliveryStep sampleServer)
      (fun s => ∀ x, s = .ok x →
        DeliveredExactly ⟨⟨fun _ => 0, 64⟩, ⟨fun _ => 0, 0⟩⟩
          ⟨[], [⟨[0x32, 13, 10], [7, 8]⟩]⟩ [0x21, 0x21] x)
      (.ok ⟨sampleReceiver, sampleReceiver.inU, [], []⟩)
      [([[0x32, 13]], 1), ([[10, 7]], 1), ([[8, 0x21], [0x21]], 1)] := by
  refine chunkStream_delivered sampleServer sampleReceiver _ ⟨?_, rfl, rfl, ?_, rfl, ?_⟩ _ _
    ⟨rfl, ?_, ?_⟩ (Or.inr ?_) _
  · exact Or.inl ⟨Or.inl rfl, rfl, by decide, Or.inl ⟨by decide, by decide⟩⟩
  · decide
  · exact loop_of_done _ rfl
  · decide
  · exact ⟨by decide, rfl, trivial⟩
  · exact .noCrlf (by decide) (by decide)

end Reads

end Server
end Teleproto3
