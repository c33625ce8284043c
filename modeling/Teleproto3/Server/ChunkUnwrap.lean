/-
# Removing HTTP chunk framing before there is a cipher

Until the obfuscated2 header has been accepted the server removes the chunk framing of
the first 68 payload bytes itself, in two places: `http_stream_unwrap_precrypto` of
`net-tcp-connections.c` on every read, and the loop of `tcp_rpcs_compact_parse_execute` that
runs once, on what came with the request headers.  The two loops are the same; the
readers of the size line in front of them differ in the window they look at and in
what they say of a line that starts with an extension.
-/

import Teleproto3.Lib.Loop
import Teleproto3.Server.Conn
import Teleproto3.Wire.HttpChunk

namespace Teleproto3
namespace Server

open Lib Wire

/-! ### The size line -/

/-- What a look at the raw bytes says about the chunk header at their front. -/
inductive ChunkHeader
  | more
  | malformed
  | size (chunkSize consumed : ℕ)
  deriving DecidableEq, Repr

/-- One turn of the digit loop, with its guard against sizes above 65535. -/
def chunkSizeStep (size : ℕ) (ch : UInt8) : Option ℕ :=
  match hexDigit ch with
  | none => none
  | some digit => if size > (65535 - digit) / 16 then none else some (size * 16 + digit)

/-- The size a string of hexadecimal digits spells. -/
def chunkSizeOf (hex : Bytes) : Option ℕ := hex.foldlM chunkSizeStep 0

/-- A reader of the size line that looks at the first `window` bytes.  `bareExtension` is
whether a line that starts with `;` counts as one of size zero. -/
def chunkHeader (window : ℕ) (bareExtension : Bool) (rmsg : Bytes) : ChunkHeader :=
  match findCrlf (rmsg.take window) with
  | none => if window ≤ rmsg.length then .malformed else .more
  | some lineLen =>
    let hexLen := (rmsg.take lineLen).idxOf 0x3B
    if lineLen = 0 then .malformed
    else if hexLen = 0 ∧ bareExtension = false then .malformed
    else
      match chunkSizeOf (rmsg.take hexLen) with
      | none => .malformed
      | some chunkSize => .size chunkSize (lineLen + 2)

/-- `http_stream_chunk_header_parse`. -/
def httpStreamChunkHeaderParse (rmsg : Bytes) : ChunkHeader := chunkHeader 18 false rmsg

/-- The reader of the size line inside `tcp_rpcs_compact_parse_execute`. -/
def transitionChunkHeader (rmsg : Bytes) : ChunkHeader := chunkHeader 16 true rmsg

/-- A size line that has been read lies inside what was looked at. -/
theorem chunkHeader_size {window : ℕ} {bareExtension : Bool} {rmsg : Bytes}
    {chunkSize consumed : ℕ}
    (h : chunkHeader window bareExtension rmsg = .size chunkSize consumed) :
    2 ≤ consumed ∧ consumed ≤ rmsg.length := by
  unfold chunkHeader at h
  cases hfind : findCrlf (rmsg.take window) with
  | none =>
    rw [hfind] at h
    dsimp only at h
    split_ifs at h
  | some lineLen =>
    rw [hfind] at h
    dsimp only at h
    have hlt := findCrlf_lt hfind
    rw [List.length_take] at hlt
    split_ifs at h
    cases hsize : chunkSizeOf (rmsg.take (List.idxOf 0x3B (rmsg.take lineLen))) with
    | none =>
      rw [hsize] at h
      exact nomatch h
    | some n =>
      rw [hsize] at h
      obtain ⟨-, rfl⟩ := ChunkHeader.size.inj h
      omega

/-! ### The loop -/

/-- The state of the loop: the raw bytes, the payload taken out of them, how many more
bytes of payload are wanted, and the place in the framing. -/
structure Unwrap where
  src : Bytes
  dst : Bytes
  needed : ℕ
  remaining : ℕ
  state : ChunkState
  deriving DecidableEq, Repr

/-- How a turn that does not go on leaves: with the error code of `fail_connection`,
or without one. -/
abbrev Unwrap.Exit := Unwrap × Option ℤ

/-- The `CR LF` behind a chunk's data. -/
def Unwrap.trailer (u : Unwrap) : Except Unwrap.Exit Unwrap :=
  if u.state = .needCrlf then
    if u.src.length < 2 then .error (u, none)
    else if u.src.take 2 ≠ crlf then .error (u, some (-1))
    else .ok { u with src := u.src.drop 2, state := .needHeader }
  else .ok u

/-- The chunk header. -/
def Unwrap.header (parse : Bytes → ChunkHeader) (u : Unwrap) : Except Unwrap.Exit Unwrap :=
  if u.state = .needHeader then
    match parse u.src with
    | .more => .error (u, none)
    | .malformed => .error (u, some (-1))
    | .size chunkSize consumed =>
      if chunkSize = 0 then .error ({ u with src := u.src.drop consumed }, some 0)
      else
        .ok { u with
          src := u.src.drop consumed
          remaining := chunkSize
          state := .inPayload }
  else .ok u

/-- `to_read`. -/
def Unwrap.toRead (u : Unwrap) : ℕ := min (min u.src.length u.remaining) u.needed

/-- `rwm_split_head` of the payload at hand, and the books. -/
def Unwrap.take (u : Unwrap) : Unwrap where
  src := u.src.drop u.toRead
  dst := u.dst ++ u.src.take u.toRead
  needed := u.needed - u.toRead
  remaining := u.remaining - u.toRead
  state := if u.remaining - u.toRead = 0 then .needCrlf else u.state

/-- The part of a turn before the payload: with no payload pending, the end of the last
chunk and the header of the next one. -/
def Unwrap.advance (parse : Bytes → ChunkHeader) (u : Unwrap) : Except Unwrap.Exit Unwrap :=
  if u.remaining = 0 then u.trailer.bind (Unwrap.header parse) else .ok u

/-- One turn of the loop. -/
def unwrapTurn (parse : Bytes → ChunkHeader) (u : Unwrap) : Turn Unwrap Unwrap.Exit :=
  if u.needed = 0 ∨ u.src.length = 0 then .done (u, none)
  else
    match u.advance parse with
    | .error exit => .done exit
    | .ok u => if u.toRead = 0 then .done (u, none) else .again u.take

/-- The steps before the payload leave what is wanted alone. -/
theorem Unwrap.advance_needed {parse : Bytes → ChunkHeader} {u u' : Unwrap}
    (h : u.advance parse = .ok u') : u'.needed = u.needed ∧ u'.dst = u.dst := by
  unfold Unwrap.advance at h
  split_ifs at h with hr
  · cases ht : u.trailer with
    | error e =>
      rw [ht] at h
      exact nomatch h
    | ok v =>
      rw [ht] at h
      have hv : v.needed = u.needed ∧ v.dst = u.dst := by
        unfold Unwrap.trailer at ht
        split_ifs at ht <;> (cases ht; exact ⟨rfl, rfl⟩)
      simp only [Except.bind, Unwrap.header] at h
      split at h
      · cases hp : parse v.src with
        | more =>
          rw [hp] at h
          exact nomatch h
        | malformed =>
          rw [hp] at h
          exact nomatch h
        | size chunkSize consumed =>
          rw [hp] at h
          simp only at h
          split_ifs at h
          cases h
          exact hv
      · cases h
        exact hv
  · cases h
    exact ⟨rfl, rfl⟩

/-- The header of the first chunk, or of a chunk whose predecessor has been closed. -/
theorem Unwrap.advance_header {parse : Bytes → ChunkHeader} {u : Unwrap} (hr : u.remaining = 0)
    (hs : u.state = .needHeader) : u.advance parse = u.header parse := by
  simp only [Unwrap.advance, if_pos hr, Unwrap.trailer, hs, reduceCtorEq, if_false, Except.bind]

/-- The end of a chunk, followed by the header of the next one. -/
theorem Unwrap.advance_crlf {parse : Bytes → ChunkHeader} {u : Unwrap} {src : Bytes}
    (hr : u.remaining = 0) (hs : u.state = .needCrlf) (hsrc : u.src = crlf ++ src) :
    u.advance parse = Unwrap.header parse { u with src := src, state := .needHeader } := by
  have hlen : ¬ u.src.length < 2 := by
    rw [hsrc, List.length_append]
    exact not_lt.mpr (Nat.le_add_right _ _)
  have htake : u.src.take 2 = crlf := by
    rw [hsrc]
    rfl
  have hdrop : u.src.drop 2 = src := by
    rw [hsrc]
    rfl
  simp only [Unwrap.advance, if_pos hr, Unwrap.trailer, if_pos hs, if_neg hlen, htake, ne_eq,
    not_true_eq_false, if_false, hdrop, Except.bind]

/-- A header that has been read opens a chunk. -/
theorem Unwrap.header_of_size {parse : Bytes → ChunkHeader} {u : Unwrap} {chunkSize consumed : ℕ}
    (hs : u.state = .needHeader) (hp : parse u.src = .size chunkSize consumed)
    (h0 : chunkSize ≠ 0) :
    u.header parse =
      .ok { u with src := u.src.drop consumed, remaining := chunkSize, state := .inPayload } := by
  simp only [Unwrap.header, if_pos hs, hp, if_neg h0]

/-- A chunk header passed on opens a chunk with data, and takes at least one byte. -/
theorem Unwrap.header_ok {window : ℕ} {bareExtension : Bool} {u v : Unwrap}
    (hs : u.state = .needHeader) (h : u.header (chunkHeader window bareExtension) = .ok v) :
    v.src.length < u.src.length ∧ v.remaining ≠ 0 := by
  rw [Unwrap.header, if_pos hs] at h
  cases hp : chunkHeader window bareExtension u.src with
  | more =>
    rw [hp] at h
    exact nomatch h
  | malformed =>
    rw [hp] at h
    exact nomatch h
  | size chunkSize consumed =>
    rw [hp] at h
    dsimp only at h
    split_ifs at h with h0
    have hsize := chunkHeader_size hp
    have hv := Except.ok.inj h
    rw [← hv]
    refine ⟨?_, h0⟩
    rw [List.length_drop]
    omega

/-- **The framing in front of a chunk's data** passes on what it was given, inside a chunk,
or something shorter, at the start of a chunk with data. -/
theorem Unwrap.advance_src {window : ℕ} {bareExtension : Bool} {u v : Unwrap}
    (h : u.advance (chunkHeader window bareExtension) = .ok v) :
    v = u ∧ (u.remaining ≠ 0 ∨ u.state = .inPayload) ∨
      v.src.length < u.src.length ∧ v.remaining ≠ 0 := by
  unfold Unwrap.advance at h
  by_cases hr : u.remaining = 0
  · rw [if_pos hr] at h
    cases hstate : u.state with
    | needHeader =>
      simp only [Unwrap.trailer, hstate, reduceCtorEq, if_false, Except.bind] at h
      exact Or.inr (Unwrap.header_ok hstate h)
    | inPayload =>
      simp only [Unwrap.trailer, hstate, reduceCtorEq, if_false, Except.bind, Unwrap.header] at h
      exact Or.inl ⟨(Except.ok.inj h).symm, Or.inr rfl⟩
    | needCrlf =>
      rw [Unwrap.trailer, if_pos hstate] at h
      by_cases hshort : u.src.length < 2
      · rw [if_pos hshort] at h
        exact nomatch h
      · rw [if_neg hshort] at h
        by_cases hcrlf : u.src.take 2 ≠ crlf
        · rw [if_pos hcrlf] at h
          exact nomatch h
        · rw [if_neg hcrlf] at h
          have hok := Unwrap.header_ok (u := { u with src := u.src.drop 2, state := .needHeader })
            rfl h
          dsimp only at hok
          rw [List.length_drop] at hok
          exact Or.inr ⟨by omega, hok.2⟩
  · rw [if_neg hr] at h
    exact Or.inl ⟨(Except.ok.inj h).symm, Or.inl hr⟩

/-- What is left of the raw bytes where the framing ends the loop; the payload is what it
was. -/
theorem Unwrap.header_exit {parse : Bytes → ChunkHeader} {u v : Unwrap} {failure : Option ℤ}
    (h : u.header parse = .error (v, failure)) :
    v.src.length ≤ u.src.length ∧ v.dst = u.dst := by
  unfold Unwrap.header at h
  by_cases hs : u.state = .needHeader
  · rw [if_pos hs] at h
    cases hp : parse u.src with
    | more =>
      rw [hp] at h
      rw [(Prod.mk.inj (Except.error.inj h)).1]
      exact ⟨le_refl _, rfl⟩
    | malformed =>
      rw [hp] at h
      rw [(Prod.mk.inj (Except.error.inj h)).1]
      exact ⟨le_refl _, rfl⟩
    | size chunkSize consumed =>
      rw [hp] at h
      dsimp only at h
      split_ifs at h
      rw [← (Prod.mk.inj (Except.error.inj h)).1]
      refine ⟨?_, rfl⟩
      rw [List.length_drop]
      exact Nat.sub_le _ _
  · rw [if_neg hs] at h
    exact nomatch h

theorem Unwrap.advance_exit {parse : Bytes → ChunkHeader} {u v : Unwrap} {failure : Option ℤ}
    (h : u.advance parse = .error (v, failure)) :
    v.src.length ≤ u.src.length ∧ v.dst = u.dst := by
  unfold Unwrap.advance at h
  by_cases hr : u.remaining = 0
  · rw [if_pos hr] at h
    unfold Unwrap.trailer at h
    by_cases hs : u.state = .needCrlf
    · rw [if_pos hs] at h
      by_cases hshort : u.src.length < 2
      · rw [if_pos hshort] at h
        rw [(Prod.mk.inj (Except.error.inj h)).1]
        exact ⟨le_refl _, rfl⟩
      · rw [if_neg hshort] at h
        by_cases hcrlf : u.src.take 2 ≠ crlf
        · rw [if_pos hcrlf] at h
          rw [(Prod.mk.inj (Except.error.inj h)).1]
          exact ⟨le_refl _, rfl⟩
        · rw [if_neg hcrlf] at h
          obtain ⟨hlen, hdst⟩ := Unwrap.header_exit h
          refine ⟨hlen.trans ?_, hdst⟩
          rw [List.length_drop]
          exact Nat.sub_le _ _
    · rw [if_neg hs] at h
      exact Unwrap.header_exit h
  · rw [if_neg hr] at h
    exact nomatch h

/-- A header that has not arrived ends the loop. -/
theorem Unwrap.header_of_more {parse : Bytes → ChunkHeader} {u : Unwrap}
    (hs : u.state = .needHeader) (hp : parse u.src = .more) : u.header parse = .error (u, none) := by
  simp only [Unwrap.header, if_pos hs, hp]

/-- A malformed header fails the connection. -/
theorem Unwrap.header_of_malformed {parse : Bytes → ChunkHeader} {u : Unwrap}
    (hs : u.state = .needHeader) (hp : parse u.src = .malformed) :
    u.header parse = .error (u, some (-1)) := by
  simp only [Unwrap.header, if_pos hs, hp]

theorem unwrapTurn_of_ok {parse : Bytes → ChunkHeader} {u v : Unwrap} (hn : u.needed ≠ 0)
    (hsrc : u.src ≠ []) (h : u.advance parse = .ok v) :
    unwrapTurn parse u = if v.toRead = 0 then .done (v, none) else .again v.take := by
  have hguard : ¬ (u.needed = 0 ∨ u.src.length = 0) := by
    rintro (h | h)
    · exact hn h
    · exact hsrc (List.length_eq_zero_iff.mp h)
  simp only [unwrapTurn, if_neg hguard, h]

theorem unwrapTurn_of_error {parse : Bytes → ChunkHeader} {u : Unwrap} {exit : Unwrap.Exit}
    (hn : u.needed ≠ 0) (hsrc : u.src ≠ []) (h : u.advance parse = .error exit) :
    unwrapTurn parse u = .done exit := by
  have hguard : ¬ (u.needed = 0 ∨ u.src.length = 0) := by
    rintro (h | h)
    · exact hn h
    · exact hsrc (List.length_eq_zero_iff.mp h)
  simp only [unwrapTurn, if_neg hguard, h]

theorem unwrapTurn_shrinks (parse : Bytes → ChunkHeader) :
    Shrinks (unwrapTurn parse) Unwrap.needed := by
  intro u u' h
  unfold unwrapTurn at h
  split_ifs at h with h0
  cases ha : u.advance parse with
  | error e =>
    rw [ha] at h
    exact nomatch h
  | ok v =>
    rw [ha] at h
    simp only at h
    split_ifs at h with hr
    cases h
    have hneeded := (Unwrap.advance_needed ha).1
    simp only [Unwrap.take]
    have hle : v.toRead ≤ v.needed := Nat.min_le_right _ _
    omega

/-- The loop. -/
def unwrapLoop (parse : Bytes → ChunkHeader) (u : Unwrap) : Unwrap.Exit :=
  loop (unwrapTurn parse) Unwrap.needed (unwrapTurn_shrinks parse) u

/-- The bytes of either kind. -/
def Unwrap.size (u : Unwrap) : ℕ := u.src.length + u.dst.length

theorem Unwrap.take_size (u : Unwrap) : u.take.size = u.size := by
  have hle : u.toRead ≤ u.src.length := (Nat.min_le_left _ _).trans (Nat.min_le_left _ _)
  simp only [Unwrap.size, Unwrap.take, List.length_drop, List.length_append, List.length_take]
  omega

/-- A turn adds no byte. -/
theorem unwrapTurn_size (window : ℕ) (bareExtension : Bool) (u : Unwrap) :
    (∀ v, unwrapTurn (chunkHeader window bareExtension) u = .again v → v.size ≤ u.size) ∧
      ∀ e, unwrapTurn (chunkHeader window bareExtension) u = .done e → e.1.size ≤ u.size := by
  unfold unwrapTurn
  by_cases hstop : u.needed = 0 ∨ u.src.length = 0
  · rw [if_pos hstop]
    exact ⟨fun v h => (nomatch h), fun e h => Turn.done.inj h ▸ le_refl _⟩
  · rw [if_neg hstop]
    cases hadv : u.advance (chunkHeader window bareExtension) with
    | error exit =>
      obtain ⟨w, failure⟩ := exit
      obtain ⟨hlen, hdst⟩ := Unwrap.advance_exit hadv
      refine ⟨fun v h => (nomatch h), fun e h => ?_⟩
      rw [← Turn.done.inj h, Unwrap.size, Unwrap.size, hdst]
      exact Nat.add_le_add_right hlen _
    | ok w =>
      have hle : w.size ≤ u.size := by
        rw [Unwrap.size, Unwrap.size, (Unwrap.advance_needed hadv).2]
        rcases Unwrap.advance_src hadv with ⟨rfl, -⟩ | ⟨hlt, -⟩
        · exact le_refl _
        · omega
      dsimp only
      by_cases h0 : w.toRead = 0
      · rw [if_pos h0]
        exact ⟨fun v h => (nomatch h), fun e h => Turn.done.inj h ▸ hle⟩
      · rw [if_neg h0]
        refine ⟨fun v h => ?_, fun e h => (nomatch h)⟩
        rw [← Turn.again.inj h, Unwrap.take_size]
        exact hle

/-- **The loop adds no byte.** -/
theorem unwrapLoop_size (window : ℕ) (bareExtension : Bool) (u : Unwrap) :
    (unwrapLoop (chunkHeader window bareExtension) u).1.size ≤ u.size :=
  loop_inv (I := fun v => v.size ≤ u.size) (Q := fun e => e.1.size ≤ u.size)
    (unwrapTurn_shrinks _) (fun v w hv h => ((unwrapTurn_size _ _ v).1 w h).trans hv)
    (fun v e hv h => ((unwrapTurn_size _ _ v).2 e h).trans hv) (le_refl _)

variable {W : Type*}

/-- `http_stream_unwrap_precrypto`, with what it returns. -/
def httpStreamUnwrapPrecrypto (c : Conn W) : Conn W × ℤ :=
  let needed := T3_PRECRYPTO_BYTES - c.inp.length
  let (u, failure) := unwrapLoop httpStreamChunkHeaderParse
    ⟨c.inU, c.inp, needed, c.httpChunkRemaining, c.httpChunkHeaderState⟩
  let c' := { c with
    inU := u.src
    inp := u.dst
    httpChunkRemaining := u.remaining
    httpChunkHeaderState := u.state }
  match failure with
  | none => (c', 0)
  | some err => (failConnection c' err, -1)

end Server
end Teleproto3
