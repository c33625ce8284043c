/-
# A stream of chunks, however it arrives

A sender writes one chunk after the other, and the receiver sees the stream in pieces of
any size.  `ChunkRest` says where in such a stream the receiver stands: what is left of the
stream in the place of the framing it has reached, and what payload that is.

The framing in front of a chunk's data keeps the place (`Unwrap.advance_chunkRest`), and so
does taking data (`ChunkRest.take`).  For the loop that decrypts it follows that the payload
is decrypted as it comes, whatever the pieces are: `decryptInput_chunks`.
-/

import Teleproto3.Server.ChunkHeaders
import Teleproto3.Server.Decrypt

namespace Teleproto3
namespace Server

open Lib Wire

/-! ### Chunks a receiver sees whole lines of -/

/-- A chunk with data whose size line fits into the window of a receiver. -/
def Readable (window : ℕ) (c : HttpChunk) : Prop := c.data ≠ [] ∧ c.line.length + 2 ≤ window

/-- Chunks one after the other. -/
def encodeAll (cs : List HttpChunk) : Bytes := cs.flatMap HttpChunk.encode

/-- The payload of chunks. -/
def dataAll (cs : List HttpChunk) : Bytes := cs.flatMap HttpChunk.data

@[simp] theorem encodeAll_nil : encodeAll [] = [] := rfl

@[simp] theorem dataAll_nil : dataAll [] = [] := rfl

theorem encodeAll_cons (c : HttpChunk) (cs : List HttpChunk) :
    encodeAll (c :: cs) = c.line ++ crlf ++ (c.data ++ (crlf ++ encodeAll cs)) := by
  simp only [encodeAll, List.flatMap_cons, HttpChunk.encode, List.append_assoc]

theorem dataAll_cons (c : HttpChunk) (cs : List HttpChunk) :
    dataAll (c :: cs) = c.data ++ dataAll cs := rfl

/-- The line of a valid chunk is a size line. -/
theorem sizeLine_line (c : HttpChunk) : SizeLine c.line c.data.length := by
  refine ⟨c.hex, c.extBytes, rfl, c.hex_ne_nil, c.size, c.data_le, ?_⟩
  unfold HttpChunk.extBytes
  cases hext : c.ext with
  | none => exact Or.inl rfl
  | some e => exact Or.inr ⟨e, rfl, c.ext_le e hext⟩

section Window

variable {window : ℕ} {bareExtension : Bool}

/-- The size line of a readable chunk is read, whatever has arrived behind it. -/
theorem chunkHeader_line {c : HttpChunk} (hc : Readable window c) (rest : Bytes) :
    chunkHeader window bareExtension (c.line ++ crlf ++ rest) =
      .size c.data.length (c.line.length + 2) := by
  have hfind := findCrlf_line c.line rest c.findCrlf_line
  have htake : (c.line ++ crlf ++ rest).take c.line.length = c.line := by
    rw [List.append_assoc, List.take_left]
  rw [chunkHeader_of_line bareExtension hfind hc.2, htake,
    lineHeader_of_sizeLine bareExtension (sizeLine_line c)]

/-- A part of it is waited for. -/
theorem chunkHeader_part {c : HttpChunk} (hc : Readable window c) {p : Bytes}
    (hp : p <+: c.line ++ crlf) (hlt : p.length < c.line.length + 2) :
    chunkHeader window bareExtension p = .more := by
  have hline : p <+: c.line ++ [13] := by
    have hwhole : c.line ++ crlf = (c.line ++ [13]) ++ [10] := by
      simp only [crlf, List.append_assoc, List.cons_append, List.nil_append]
    rw [hwhole] at hp
    refine List.prefix_of_prefix_length_le hp (List.prefix_append _ _) ?_
    rw [List.length_append]
    exact Nat.le_of_lt_succ hlt
  have hnone := findCrlf_of_prefix_line c.line p c.findCrlf_line hline
  have := hc.2
  rw [chunkHeader_of_none bareExtension hnone, if_neg (by omega)]

/-! ### The place in the stream -/

/-- **What is left of a stream of chunks**, in the place of the framing reached: the bytes,
and the payload in them.  Behind the chunks stands `tail`. -/
inductive ChunkRest (window : ℕ) (tail : Bytes) : ChunkState → ℕ → Bytes → Bytes → Prop
  | header (cs : List HttpChunk) (hcs : ∀ c ∈ cs, Readable window c) :
      ChunkRest window tail .needHeader 0 (encodeAll cs ++ tail) (dataAll cs)
  | data (d : Bytes) (hd : d ≠ []) (cs : List HttpChunk) (hcs : ∀ c ∈ cs, Readable window c) :
      ChunkRest window tail .inPayload d.length (d ++ (crlf ++ (encodeAll cs ++ tail)))
        (d ++ dataAll cs)
  | trailer (cs : List HttpChunk) (hcs : ∀ c ∈ cs, Readable window c) :
      ChunkRest window tail .needCrlf 0 (crlf ++ (encodeAll cs ++ tail)) (dataAll cs)

/-- Data that is there is taken. -/
theorem ChunkRest.take {tail src fut payload : Bytes} {remaining k : ℕ}
    (h : ChunkRest window tail .inPayload remaining (src ++ fut) payload)
    (hk : k ≤ min src.length remaining) :
    src.take k = payload.take k ∧
      ChunkRest window tail (if remaining - k = 0 then .needCrlf else .inPayload) (remaining - k)
        (src.drop k ++ fut) (payload.drop k) := by
  generalize hstream : src ++ fut = stream at h
  cases h with
  | data d hd cs hcs =>
    have hsrc : k ≤ src.length := hk.trans (Nat.min_le_left _ _)
    have hdlen : k ≤ d.length := hk.trans (Nat.min_le_right _ _)
    have htake : src.take k = d.take k := by
      have := congrArg (List.take k) hstream
      rwa [List.take_append_of_le_length hsrc, List.take_append_of_le_length hdlen] at this
    have hdrop : src.drop k ++ fut = d.drop k ++ (crlf ++ (encodeAll cs ++ tail)) := by
      have := congrArg (List.drop k) hstream
      rwa [List.drop_append_of_le_length hsrc, List.drop_append_of_le_length hdlen] at this
    refine ⟨?_, ?_⟩
    · rw [htake, List.take_append_of_le_length hdlen]
    · rw [hdrop, List.drop_append_of_le_length hdlen]
      by_cases h0 : d.length - k = 0
      · have hnil : d.drop k = [] := List.drop_eq_nil_of_le (by omega)
        rw [if_pos h0, h0, hnil]
        exact .trailer cs hcs
      · rw [if_neg h0, ← List.length_drop]
        refine .data (d.drop k) ?_ cs hcs
        intro hnil
        have := congrArg List.length hnil
        rw [List.length_drop] at this
        exact h0 this

/-- Nothing is left of a stream only behind its last chunk. -/
theorem ChunkRest.of_nil {tail payload : Bytes} {state : ChunkState} {remaining : ℕ}
    (h : ChunkRest window tail state remaining [] payload) : tail = [] ∧ payload = [] := by
  obtain ⟨stream, hstream⟩ : ∃ stream : Bytes, stream = [] := ⟨[], rfl⟩
  rw [← hstream] at h
  cases h with
  | header cs hcs =>
    obtain ⟨hcs', htail⟩ := List.append_eq_nil_iff.mp hstream
    cases cs with
    | nil => exact ⟨htail, rfl⟩
    | cons c cs =>
      have := congrArg List.length hcs'
      rw [encodeAll_cons, List.length_append, List.length_append, crlf_length, List.length_nil]
        at this
      omega
  | data d hd cs hcs => exact absurd (List.append_eq_nil_iff.mp hstream).1 hd
  | trailer cs hcs => exact absurd (List.append_eq_nil_iff.mp hstream).1 (by decide)

/-- The step in front of the data comes to one of these: it has to wait inside the
framing, or data is at hand, or the chunks are through and what follows is read. -/
inductive AdvanceRest (window : ℕ) (bareExtension : Bool) (tail fut payload dst : Bytes)
    (needed : ℕ) : Except Unwrap.Exit Unwrap → Prop
  | wait (v : Unwrap) (hdst : v.dst = dst) (hneeded : v.needed = needed) (hfut : fut ≠ [])
      (h : ChunkRest window tail v.state v.remaining (v.src ++ fut) payload) :
      AdvanceRest window bareExtension tail fut payload dst needed (.error (v, none))
  | data (v : Unwrap) (hdst : v.dst = dst) (hneeded : v.needed = needed)
      (hstate : v.state = .inPayload)
      (h : ChunkRest window tail .inPayload v.remaining (v.src ++ fut) payload) :
      AdvanceRest window bareExtension tail fut payload dst needed (.ok v)
  | through (v : Unwrap) (hdst : v.dst = dst) (hneeded : v.needed = needed)
      (hstate : v.state = .needHeader) (hremaining : v.remaining = 0) (hsrc : v.src ++ fut = tail)
      (hpayload : payload = []) :
      AdvanceRest window bareExtension tail fut payload dst needed
        (v.header (chunkHeader window bareExtension))

/-- A header at the front of a stream of chunks. -/
theorem Unwrap.header_chunkRest {tail fut : Bytes} {u : Unwrap} (hs : u.state = .needHeader)
    (hr : u.remaining = 0) {cs : List HttpChunk} (hcs : ∀ c ∈ cs, Readable window c)
    (hstream : u.src ++ fut = encodeAll cs ++ tail) :
    AdvanceRest window bareExtension tail fut (dataAll cs) u.dst u.needed
      (u.header (chunkHeader window bareExtension)) := by
  cases cs with
  | nil => exact .through u rfl rfl hs hr hstream rfl
  | cons c cs =>
    have hc : Readable window c := hcs c List.mem_cons_self
    have hall : encodeAll (c :: cs) ++ tail =
        c.line ++ crlf ++ (c.data ++ (crlf ++ (encodeAll cs ++ tail))) := by
      simp only [encodeAll_cons, List.append_assoc]
    rw [hall] at hstream
    have hlen : (c.line ++ crlf).length = c.line.length + 2 := by
      rw [List.length_append, crlf_length]
    by_cases hlt : u.src.length < c.line.length + 2
    · -- The size line has not arrived.
      have hpart : u.src <+: c.line ++ crlf := by
        refine List.prefix_of_prefix_length_le ⟨fut, hstream⟩ (List.prefix_append _ _) ?_
        omega
      rw [Unwrap.header_of_more hs (chunkHeader_part hc hpart hlt)]
      refine .wait u rfl rfl ?_ ?_
      · rintro rfl
        have := congrArg List.length hstream
        rw [List.append_nil, List.length_append, hlen] at this
        omega
      · rw [hs, hr, hstream, ← hall]
        exact .header (c :: cs) hcs
    · obtain ⟨src, hsrc, hrest⟩ : ∃ src, u.src = c.line ++ crlf ++ src ∧
          src ++ fut = c.data ++ (crlf ++ (encodeAll cs ++ tail)) := by
        refine ⟨u.src.drop (c.line ++ crlf).length, ?_, ?_⟩
        · have htake := congrArg (List.take (c.line ++ crlf).length) hstream
          rw [List.take_append_of_le_length (by omega), List.take_left] at htake
          rw [← htake, List.length_take_of_le (by omega), List.take_append_drop]
        · have hdrop := congrArg (List.drop (c.line ++ crlf).length) hstream
          rwa [List.drop_append_of_le_length (by omega), List.drop_left] at hdrop
      have h0 : c.data.length ≠ 0 := fun h => hc.1 (List.length_eq_zero_iff.mp h)
      have hread : chunkHeader window bareExtension u.src =
          .size c.data.length (c.line.length + 2) := by
        rw [hsrc]
        exact chunkHeader_line hc src
      have hdrop : u.src.drop (c.line.length + 2) = src := by
        rw [hsrc, ← hlen, List.drop_left]
      rw [Unwrap.header_of_size hs hread h0, hdrop]
      refine .data _ rfl rfl rfl ?_
      dsimp only
      rw [hrest]
      exact .data c.data hc.1 cs fun d hd => hcs d (List.mem_cons_of_mem _ hd)

/-- **The step in front of the data keeps the place in the stream.** -/
theorem Unwrap.advance_chunkRest {tail fut payload : Bytes} {u : Unwrap}
    (h : ChunkRest window tail u.state u.remaining (u.src ++ fut) payload) :
    AdvanceRest window bareExtension tail fut payload u.dst u.needed
      (u.advance (chunkHeader window bareExtension)) := by
  obtain ⟨src, dst, needed, remaining, state⟩ := u
  dsimp only at h
  generalize hstream : src ++ fut = stream at h
  cases h with
  | header cs hcs =>
    rw [Unwrap.advance_header rfl rfl]
    exact Unwrap.header_chunkRest rfl rfl hcs hstream
  | data d hd cs hcs =>
    have h0 : d.length ≠ 0 := fun h => hd (List.length_eq_zero_iff.mp h)
    rw [Unwrap.advance, if_neg h0]
    refine .data _ rfl rfl rfl ?_
    dsimp only
    rw [hstream]
    exact .data d hd cs hcs
  | trailer cs hcs =>
    by_cases hshort : src.length < 2
    · -- The line end has not arrived.
      have hwait : Unwrap.advance (chunkHeader window bareExtension) ⟨src, dst, needed, 0, .needCrlf⟩ =
          .error (⟨src, dst, needed, 0, .needCrlf⟩, none) := by
        simp only [Unwrap.advance, if_true, Unwrap.trailer, if_pos hshort, Except.bind]
      rw [hwait]
      refine .wait _ rfl rfl ?_ ?_
      · rintro rfl
        have := congrArg List.length hstream
        rw [List.append_nil, List.length_append, crlf_length] at this
        omega
      · dsimp only
        rw [hstream]
        exact .trailer cs hcs
    · obtain ⟨src', hsrc, hrest⟩ : ∃ src', src = crlf ++ src' ∧
          src' ++ fut = encodeAll cs ++ tail := by
        refine ⟨src.drop 2, ?_, ?_⟩
        · have htake := congrArg (List.take 2) hstream
          rw [List.take_append_of_le_length (by omega), List.take_left' crlf_length] at htake
          rw [← htake, List.take_append_drop]
        · have hdrop := congrArg (List.drop 2) hstream
          rwa [List.drop_append_of_le_length (by omega), List.drop_left' crlf_length] at hdrop
      rw [Unwrap.advance_crlf rfl rfl hsrc]
      exact Unwrap.header_chunkRest (u := ⟨src', dst, needed, 0, .needHeader⟩) rfl rfl hcs hrest

end Window

/-! ### Decryption -/

variable {W : Type*}

/-- **How far a stream has come.**  `c₀` is the connection at its start: what has been decrypted
since stands behind what `c₀` held, the cipher has moved on by it, and what is still to
come is `rest`, of which `fut` has not arrived. -/
structure Arrived (c₀ : Conn W) (T₀ : AesCrypto) (tail fut rest done : Bytes) (c : Conn W) : Prop where
  place : ChunkRest 18 tail c.httpChunkHeaderState c.httpChunkRemaining (c.inU ++ fut) rest
  inp : c.inp = c₀.inp ++ xorAt T₀.read.ks T₀.read.pos done
  crypto : c.crypto = some { T₀ with read := ⟨T₀.read.ks, T₀.read.pos + done.length⟩ }
  cError : c.cError = c₀.cError
  wsState : c.wsState ≠ .active
  transportMode : c.transportMode = .httpStream

/-- What a turn of the loop comes to on a stream of chunks: data is decrypted, or the turn has
to wait inside the framing, or the chunks are through and what follows is read. -/
inductive TurnRest (c₀ : Conn W) (T₀ : AesCrypto) (tail fut rest done : Bytes) :
    Turn (Conn W) (DecryptExit W) → Prop
  | data (c' : Conn W) (k : ℕ) (h : Arrived c₀ T₀ tail fut (rest.drop k) (done ++ rest.take k) c') :
      TurnRest c₀ T₀ tail fut rest done (.again c')
  | wait (c' : Conn W) (hfut : fut ≠ []) (h : Arrived c₀ T₀ tail fut rest done c') :
      TurnRest c₀ T₀ tail fut rest done (.done (.ok (c', 0)))
  | through (c' : Conn W) (turn : Turn (Conn W) (DecryptExit W)) (hrest : rest = [])
      (h : Arrived c₀ T₀ tail fut rest done c') (htail : c'.inU ++ fut = tail)
      (hmore : httpStreamChunkHeaderParse c'.inU = .more → turn = .done (.ok (c', 0)))
      (hmalformed : httpStreamChunkHeaderParse c'.inU = .malformed →
        turn = .done (.ok (failConnection c' (-1), 0))) :
      TurnRest c₀ T₀ tail fut rest done turn

/-- The payload of a chunk is decrypted. -/
theorem Arrived.payload {c₀ c : Conn W} {T₀ : AesCrypto} {tail fut rest done : Bytes}
    (h : Arrived c₀ T₀ tail fut rest done c) (hstate : c.httpChunkHeaderState = .inPayload) :
    Arrived c₀ T₀ tail fut (rest.drop (min c.inU.length c.httpChunkRemaining))
      (done ++ rest.take (min c.inU.length c.httpChunkRemaining))
      (decryptChunkPayload c { T₀ with read := ⟨T₀.read.ks, T₀.read.pos + done.length⟩ }) := by
  have hplace := h.place
  rw [hstate] at hplace
  obtain ⟨htake, hnext⟩ := hplace.take le_rfl
  refine ⟨?_, ?_, ?_, h.cError, h.wsState, h.transportMode⟩
  · simp only [decryptChunkPayload, decryptTo, hstate]
    exact hnext
  · simp only [decryptChunkPayload, decryptTo]
    rw [h.inp, htake, xorAt_append, List.append_assoc]
  · simp only [decryptChunkPayload, decryptTo]
    rw [htake, List.length_append, Nat.add_assoc]

/-- **A turn of the loop on a stream of chunks.** -/
theorem decryptTurn_arrived {c₀ c : Conn W} {T₀ : AesCrypto} {tail fut rest done : Bytes}
    (h : Arrived c₀ T₀ tail fut rest done c) :
    TurnRest c₀ T₀ tail fut rest done (decryptTurn c) := by
  have hplace := h.place
  by_cases hin : c.inU.length = 0
  · -- Nothing has arrived.
    have hturn : decryptTurn c = .done (.ok (c, 0)) := by
      simp only [decryptTurn, h.crypto, if_pos hin]
    rw [hturn]
    by_cases hfut : fut = []
    · have hnil : c.inU = [] := List.length_eq_zero_iff.mp hin
      rw [hnil, hfut, List.append_nil] at hplace
      obtain ⟨htail, hrest⟩ := hplace.of_nil
      refine .through c _ hrest h ?_ (fun _ => rfl) fun hmal => ?_
      · rw [hnil, hfut, htail, List.append_nil]
      · rw [hnil] at hmal
        exact nomatch hmal
    · exact .wait c hfut h
  · have hturn : decryptTurn c =
        decryptChunkTurn c { T₀ with read := ⟨T₀.read.ks, T₀.read.pos + done.length⟩ } := by
      simp only [decryptTurn, h.crypto, if_neg hin, if_neg h.wsState, if_pos h.transportMode]
    have hadvance : AdvanceRest 18 false tail fut rest [] 0 _ := Unwrap.advance_chunkRest
      (u := ⟨c.inU, [], 0, c.httpChunkRemaining, c.httpChunkHeaderState⟩) hplace
    have hparse : httpStreamChunkHeaderParse = chunkHeader 18 false := rfl
    rw [hturn, decryptChunkTurn, hparse]
    dsimp only
    generalize Unwrap.advance (chunkHeader 18 false)
      ⟨c.inU, [], 0, c.httpChunkRemaining, c.httpChunkHeaderState⟩ = x at hadvance ⊢
    have hput (v : Unwrap) (hv : ChunkRest 18 tail v.state v.remaining (v.src ++ fut) rest) :
        Arrived c₀ T₀ tail fut rest done { c with
          inU := v.src
          httpChunkRemaining := v.remaining
          httpChunkHeaderState := v.state } :=
      ⟨hv, h.inp, h.crypto, h.cError, h.wsState, h.transportMode⟩
    cases hadvance with
    | wait v _ _ hfut hv => exact .wait _ hfut (hput v hv)
    | data v _ _ hstate hv => exact .data _ _ ((hput v (hstate ▸ hv)).payload hstate)
    | through v _ _ hstate hremaining hsrc hnil =>
      refine .through _ _ hnil (hput v ?_) hsrc (fun hmore => ?_) fun hmal => ?_
      · rw [hstate, hremaining, hsrc, hnil]
        exact .header [] nofun
      · rw [hparse] at hmore
        rw [Unwrap.header_of_more hstate hmore]
      · rw [hparse] at hmal
        rw [Unwrap.header_of_malformed hstate hmal]

/-- A call of `crypto_decrypt_input` on a stream of chunks and nothing else decrypts what has
arrived; with nothing still to arrive it decrypts all of it. -/
theorem decryptInput_arrived {c₀ c : Conn W} {T₀ : AesCrypto} {fut rest done : Bytes}
    (h : Arrived c₀ T₀ [] fut rest done c) :
    ∃ c' r rest' done', cpuTcpAesCryptoCtr128DecryptInput c = .ok (c', r) ∧
      Arrived c₀ T₀ [] fut rest' done' c' ∧ done' ++ rest' = done ++ rest ∧
      (fut = [] → rest' = []) := by
  refine loop_inv
    (I := fun d => ∃ rest' done', Arrived c₀ T₀ [] fut rest' done' d ∧ done' ++ rest' = done ++ rest)
    (Q := fun exit => ∃ c' r rest' done', exit = .ok (c', r) ∧ Arrived c₀ T₀ [] fut rest' done' c' ∧
      done' ++ rest' = done ++ rest ∧ (fut = [] → rest' = []))
    decryptTurn_shrinks ?_ ?_ ⟨rest, done, h, rfl⟩
  · rintro d d' ⟨rest', done', hd, hall⟩ hturn
    have hrest := decryptTurn_arrived hd
    rw [hturn] at hrest
    cases hrest with
    | data _ k hd' =>
      refine ⟨_, _, hd', ?_⟩
      rw [List.append_assoc, List.take_append_drop, hall]
    | through c' _ _ _ htail hmore _ =>
      have hnil : c'.inU = [] := (List.append_eq_nil_iff.mp htail).1
      exact nomatch hmore (by rw [hnil]; rfl)
  · rintro d exit ⟨rest', done', hd, hall⟩ hturn
    have hrest := decryptTurn_arrived hd
    rw [hturn] at hrest
    cases hrest with
    | wait c' hfut hd' => exact ⟨c', 0, rest', done', rfl, hd', hall, fun h => absurd h hfut⟩
    | through c' _ hnil hd' htail hmore _ =>
      have hinU : c'.inU = [] := (List.append_eq_nil_iff.mp htail).1
      have hexit := Turn.done.inj (hmore (by rw [hinU]; rfl))
      exact ⟨c', 0, rest', done', hexit, hd', hall, fun _ => hnil⟩

/-- Behind the chunks stands what is no chunk header: the connection fails. -/
theorem decryptInput_malformed {c₀ c : Conn W} {T₀ : AesCrypto} {tail rest done : Bytes}
    (h : Arrived c₀ T₀ tail [] rest done c)
    (htail : httpStreamChunkHeaderParse tail = .malformed) :
    ∃ c' r, cpuTcpAesCryptoCtr128DecryptInput c = .ok (c', r) ∧ c'.cError = true := by
  refine loop_inv (I := fun d => ∃ rest' done', Arrived c₀ T₀ tail [] rest' done' d)
    (Q := fun exit => ∃ c' r, exit = .ok (c', r) ∧ c'.cError = true)
    decryptTurn_shrinks ?_ ?_ ⟨rest, done, h⟩
  · rintro d d' ⟨rest', done', hd⟩ hturn
    have hrest := decryptTurn_arrived hd
    rw [hturn] at hrest
    cases hrest with
    | data _ k hd' => exact ⟨_, _, hd'⟩
    | through c' _ _ _ hsrc _ hmal =>
      rw [List.append_nil] at hsrc
      exact nomatch hmal (by rw [hsrc]; exact htail)
  · rintro d exit ⟨rest', done', hd⟩ hturn
    have hrest := decryptTurn_arrived hd
    rw [hturn] at hrest
    cases hrest with
    | wait c' hfut hd' => exact absurd rfl hfut
    | through c' _ _ _ hsrc _ hmal =>
      rw [List.append_nil] at hsrc
      exact ⟨_, 0, Turn.done.inj (hmal (by rw [hsrc]; exact htail)), rfl⟩

/-- More of the stream has arrived. -/
theorem Arrived.read {c₀ c : Conn W} {T₀ : AesCrypto} {tail fut rest done : Bytes} (bytes : Bytes)
    (h : Arrived c₀ T₀ tail (bytes ++ fut) rest done c) :
    Arrived c₀ T₀ tail fut rest done { c with inU := c.inU ++ bytes } := by
  refine ⟨?_, h.inp, h.crypto, h.cError, h.wsState, h.transportMode⟩
  have hplace := h.place
  rw [← List.append_assoc] at hplace
  exact hplace

/-- The reads of a connection with a cipher, without the packets taken out in between: each
appends to `in_u` and decrypts. -/
def receiveAll (c : Conn W) : List Bytes → Except Abort (Conn W)
  | [] => .ok c
  | read :: reads =>
    match cpuTcpAesCryptoCtr128DecryptInput { c with inU := c.inU ++ read } with
    | .error a => .error a
    | .ok (c, _) => receiveAll c reads

/-- **The pieces do not matter**: a stream of chunks is decrypted whole. -/
theorem receiveAll_arrived {c₀ c : Conn W} {T₀ : AesCrypto} {rest done : Bytes} (reads : List Bytes)
    (h : Arrived c₀ T₀ [] reads.flatten rest done c) (hlast : reads = [] → rest = []) :
    ∃ c', receiveAll c reads = .ok c' ∧ Arrived c₀ T₀ [] [] [] (done ++ rest) c' := by
  induction reads generalizing c rest done with
  | nil =>
    obtain rfl := hlast rfl
    rw [List.append_nil]
    exact ⟨c, rfl, h⟩
  | cons read reads ih =>
    obtain ⟨c', r, rest', done', heq, hc', hall, hnil⟩ := decryptInput_arrived (h.read read)
    simp only [receiveAll, heq]
    rw [← hall]
    exact ih hc' fun h => hnil (by rw [h]; rfl)

end Server
end Teleproto3
