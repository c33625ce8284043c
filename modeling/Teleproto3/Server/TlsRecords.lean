/-
# Fake TLS: the records come off

Behind its ClientHello a client of fake TLS sends a dummy ChangeCipherSpec and application data
in records, the first of which begins with the obfuscated2 header.  The handshake leaves in
`left_tls_packet_length` what is left of the first record, and from there on
`cpu_tcp_aes_crypto_ctr128_decrypt_input` takes the records off, wherever a read ends.

`TlsPlace` is where it stands in a stream of records.  `fakeTls_delivered` is the promise for
every such stream and every way it is cut into reads: what is decrypted is the payload among what
has arrived, and a record of another type fails the connection.
-/

import Teleproto3.Server.ChunkDelivery

namespace Teleproto3
namespace Server

open Lib Wire

/-! ### Records -/

/-- A record of application data: its header, and its payload. -/
def IsTlsRecord (part : FramedData) : Prop :=
  part.framing = [0x17, 0x03, 0x03] ++ beBytes 2 part.data.length ∧ part.data.length < 65536

/-- A record of another type or version, from its header on. -/
def OtherRecord (tail : Bytes) : Prop := 5 ≤ tail.length ∧ tail.take 3 ≠ [0x17, 0x03, 0x03]

theorem IsTlsRecord.framing_length {part : FramedData} (h : IsTlsRecord part) :
    part.framing.length = 5 := by
  rw [h.1, List.length_append, beBytes_length]
  rfl

section Place

variable {W : Type*}

/-- **Where a receiver stands in a stream of records**, of which `fut` has not arrived: it has
`a` ahead of it and `tail` behind that, and the payload among what is at hand and `m` bytes more
makes what it has given up `D m`. -/
structure TlsPlace (tail fut : Bytes) (D : ℕ → Bytes) (a : Upcoming) (d : Conn W) : Prop where
  unciphered : Unciphered d
  live : d.cError = false
  cIsTls : d.cIsTls = true
  wsState : d.wsState ≠ .active
  transportMode : d.transportMode ≠ .httpStream
  left : d.leftTlsPacketLength = a.lead.length
  records : ∀ part ∈ a.parts, IsTlsRecord part
  bytes : d.inU ++ fut = a.bytes ++ tail
  among : ∀ m, d.inp ++ a.among (d.inU.length + m) = D m

variable {tail fut : Bytes} {D : ℕ → Bytes} {a : Upcoming} {d : Conn W}

/-- A turn of the loop that looks at records. -/
theorem TlsPlace.turn_eq (h : TlsPlace tail fut D a d) (hin : d.inU ≠ []) :
    ∃ pos write, decryptTurn d = decryptTlsTurn d ⟨⟨fun _ => 0, pos⟩, write⟩ := by
  obtain ⟨pos, write, hcrypto⟩ := h.unciphered
  refine ⟨pos, write, ?_⟩
  have hlen : d.inU.length ≠ 0 := fun h => hin (List.length_eq_zero_iff.mp h)
  simp only [decryptTurn, hcrypto, if_neg hlen, if_neg h.wsState, if_neg h.transportMode,
    if_pos h.cIsTls]

/-- The payload at hand of the record a receiver is in is given up. -/
theorem TlsPlace.take (h : TlsPlace tail fut D a d) (pos : ℕ) (write : CtrContext) :
    TlsPlace tail fut D ⟨a.lead.drop (min a.lead.length d.inU.length), a.parts⟩
      (decryptTlsPayload d ⟨⟨fun _ => 0, pos⟩, write⟩ a.lead.length) := by
  obtain ⟨lead, parts⟩ := a
  dsimp only
  generalize hk : min lead.length d.inU.length = k
  have hkin : k ≤ d.inU.length := hk ▸ Nat.min_le_right _ _
  have hklead : k ≤ lead.length := hk ▸ Nat.min_le_left _ _
  have hbytes := h.bytes
  simp only [Upcoming.bytes, List.append_assoc] at hbytes
  have htake : d.inU.take k = lead.take k := by
    have := congrArg (List.take k) hbytes
    rwa [List.take_append_of_le_length hkin, List.take_append_of_le_length hklead] at this
  have hdrop : d.inU.drop k ++ fut = lead.drop k ++ (bytesOf parts ++ tail) := by
    have := congrArg (List.drop k) hbytes
    rwa [List.drop_append_of_le_length hkin, List.drop_append_of_le_length hklead] at this
  refine ⟨⟨_, write, rfl⟩, h.live, h.cIsTls, h.wsState, h.transportMode, ?_, h.records, ?_,
    fun m => ?_⟩
  · show ((lead.length : ℕ) : ℤ) - (min lead.length d.inU.length : ℕ) = (lead.drop k).length
    rw [hk, List.length_drop]
    omega
  · show d.inU.drop (min lead.length d.inU.length) ++ fut = _
    rw [hk, hdrop, Upcoming.bytes, List.append_assoc]
  · show d.inp ++ xorAt (fun _ => 0) pos (d.inU.take (min lead.length d.inU.length)) ++
      Upcoming.among ⟨lead.drop k, parts⟩
        ((d.inU.drop (min lead.length d.inU.length)).length + m) = D m
    rw [hk, xorAt_zero, htake, List.length_drop, List.append_assoc, ← h.among m,
      ← Upcoming.take_among hklead (n := d.inU.length + m) (by omega),
      show d.inU.length + m - k = d.inU.length - k + m by omega]

/-- The header of a record that is at hand is read. -/
theorem TlsPlace.header {part : FramedData} {parts : List FramedData}
    (h : TlsPlace tail fut D ⟨[], part :: parts⟩ d) (hlen : 5 ≤ d.inU.length) :
    d.inU.take 3 = [0x17, 0x03, 0x03] ∧ beValue ((d.inU.drop 3).take 2) = part.data.length ∧
      TlsPlace tail fut D ⟨part.data, parts⟩
        { d with inU := d.inU.drop 5, leftTlsPacketLength := part.data.length } := by
  have hfive := (h.records part List.mem_cons_self).framing_length
  obtain ⟨hframing, hsize⟩ := h.records part List.mem_cons_self
  have hbytes := h.bytes
  simp only [Upcoming.bytes, bytesOf, List.nil_append, List.append_assoc] at hbytes
  have htake : d.inU.take 5 = part.framing := by
    have := congrArg (List.take 5) hbytes
    rwa [List.take_append_of_le_length hlen, List.take_left' hfive] at this
  have hdrop : d.inU.drop 5 ++ fut = part.data ++ (bytesOf parts ++ tail) := by
    have := congrArg (List.drop 5) hbytes
    rwa [List.drop_append_of_le_length hlen, List.drop_left' hfive] at this
  refine ⟨?_, ?_, ⟨h.unciphered, h.live, h.cIsTls, h.wsState, h.transportMode, rfl,
    fun q hq => h.records q (List.mem_cons_of_mem _ hq), ?_, fun m => ?_⟩⟩
  · have hthree : d.inU.take 3 = (d.inU.take 5).take 3 := by rw [List.take_take]; rfl
    rw [hthree, htake, hframing]
    rfl
  · have htwo : (d.inU.drop 3).take 2 = (d.inU.take 5).drop 3 := by rw [List.drop_take]
    rw [htwo, htake, hframing]
    exact beValue_beBytes 2 _ hsize
  · rw [hdrop, Upcoming.bytes, List.append_assoc]
  · rw [← h.among m]
    simp only [Upcoming.among, dataAmong, List.length_drop, List.take_nil, List.nil_append,
      List.length_nil, hfive]
    rw [show d.inU.length - 5 + m = d.inU.length + m - 0 - 5 by omega]

/-- What a turn of the loop comes to. -/
inductive TlsTurn (tail fut : Bytes) (D : ℕ → Bytes) (d : Conn W) :
    Turn (Conn W) (DecryptExit W) → Prop
  | goes (a : Upcoming) (d' : Conn W) (h : TlsPlace tail fut D a d') : TlsTurn tail fut D d (.again d')
  | waits (n : ℤ) (hall : d.inp = D 0) (hlen : d.inU.length < 5) :
      TlsTurn tail fut D d (.done (.ok (d, n)))
  | failed (hall : d.inp = D 0) (htail : tail ≠ []) (hlen : fut.length + 5 ≤ tail.length) :
      TlsTurn tail fut D d (.done (.ok (failConnection d (-1), 0)))

/-- With fewer than five bytes of the next record there is none of its payload. -/
theorem dataAmong_short {part : FramedData} {parts : List FramedData} {n : ℕ}
    (h : n ≤ part.framing.length) : dataAmong (part :: parts) n = [] := by
  have hzero : n - part.framing.length = 0 := by omega
  rw [dataAmong, hzero, Nat.zero_sub, dataAmong_zero]
  rfl

/-- **A turn of the loop.** -/
theorem TlsPlace.turn (h : TlsPlace tail fut D a d) (htail : tail = [] ∨ OtherRecord tail) :
    TlsTurn tail fut D d (decryptTurn d) := by
  by_cases hin : d.inU = []
  · obtain ⟨pos, write, hcrypto⟩ := h.unciphered
    have hturn : decryptTurn d = .done (.ok (d, 0)) := by
      simp only [decryptTurn, hcrypto, hin, List.length_nil, if_true]
    rw [hturn]
    refine .waits 0 ?_ (by rw [hin]; decide)
    rw [← h.among 0, hin]
    exact (List.append_nil _).symm.trans (congrArg _ a.among_zero.symm)
  · obtain ⟨pos, write, hturn⟩ := h.turn_eq hin
    obtain ⟨lead, parts⟩ := a
    rw [hturn, decryptTlsTurn, if_neg (by rw [h.left]; omega)]
    by_cases hlead : lead = []
    · subst hlead
      rw [if_pos (by rw [h.left]; rfl)]
      by_cases hlen : d.inU.length < 5
      · rw [if_pos hlen]
        refine .waits _ ?_ hlen
        have hnone : Upcoming.among ⟨[], parts⟩ (d.inU.length + 0) = [] := by
          rw [Upcoming.among_nil]
          cases parts with
          | nil => rfl
          | cons part parts =>
            have hfive := (h.records part List.mem_cons_self).framing_length
            exact dataAmong_short (by omega)
        rw [← h.among 0, hnone, List.append_nil]
      · rw [if_neg hlen]
        cases parts with
        | nil =>
          have hbytes : d.inU ++ fut = tail := h.bytes
          have hne : tail ≠ [] := by
            rintro rfl
            exact hin (List.append_eq_nil_iff.mp hbytes).1
          have htype : d.inU.take 3 ≠ [0x17, 0x03, 0x03] := by
            have := (htail.resolve_left hne).2
            rwa [← hbytes, List.take_append_of_le_length (by omega)] at this
          rw [if_pos htype]
          refine .failed ?_ hne ?_
          · rw [← h.among 0, Upcoming.among_nil]
            exact (List.append_nil _).symm
          · rw [← hbytes, List.length_append]
            omega
        | cons part parts =>
          obtain ⟨htype, hsize, hnext⟩ := h.header (by omega)
          rw [if_neg (not_not.mpr htype), hsize]
          exact .goes _ _ (hnext.take pos write)
    · have hpos : lead.length ≠ 0 := fun h0 => hlead (List.length_eq_zero_iff.mp h0)
      have hcast : d.leftTlsPacketLength.toNat = lead.length := by
        rw [h.left]
        rfl
      rw [if_neg (by rw [h.left]; exact_mod_cast hpos), hcast]
      exact .goes _ _ (h.take pos write)

/-- **A call of `crypto_decrypt_input`** gives up the payload among what is at hand, and no other
byte; it fails the connection exactly where the header of another record is at hand. -/
theorem TlsPlace.decryptInput (h : TlsPlace tail fut D a d) (htail : tail = [] ∨ OtherRecord tail) :
    ∃ d' n, cpuTcpAesCryptoCtr128DecryptInput d = .ok (d', n) ∧ d'.inp = D 0 ∧
      0 ≤ d'.leftTlsPacketLength ∧
      (d'.cError = true ∧ tail ≠ [] ∧ fut.length + 5 ≤ tail.length ∨
        (∃ a', TlsPlace tail fut D a' d') ∧ d'.inU.length < 5) := by
  refine loop_inv (I := fun e => ∃ a', TlsPlace tail fut D a' e)
    (Q := fun exit => ∃ d' n, exit = .ok (d', n) ∧ d'.inp = D 0 ∧ 0 ≤ d'.leftTlsPacketLength ∧
      (d'.cError = true ∧ tail ≠ [] ∧ fut.length + 5 ≤ tail.length ∨
        (∃ a', TlsPlace tail fut D a' d') ∧ d'.inU.length < 5))
    decryptTurn_shrinks ?_ ?_ ⟨a, h⟩
  · rintro e e' ⟨a', he⟩ hturn
    have hresult := he.turn htail
    rw [hturn] at hresult
    cases hresult with
    | goes a'' _ he' => exact ⟨a'', he'⟩
  · rintro e exit ⟨a', he⟩ hturn
    have hleft : 0 ≤ e.leftTlsPacketLength := by rw [he.left]; omega
    have hresult := he.turn htail
    rw [hturn] at hresult
    cases hresult with
    | waits n hall hlen => exact ⟨e, n, rfl, hall, hleft, Or.inr ⟨⟨a', he⟩, hlen⟩⟩
    | failed hall hne hlen => exact ⟨_, 0, rfl, hall, hleft, Or.inl ⟨rfl, hne, hlen⟩⟩

/-- A receiver that has done what it could waits for a record of another type, if any, that has
not arrived. -/
theorem TlsPlace.waits (h : TlsPlace tail fut D a d) (hlen : d.inU.length < 5) :
    tail.length < fut.length + 5 := by
  have hbytes := congrArg List.length h.bytes
  simp only [List.length_append] at hbytes
  omega

/-- More of the stream arrives. -/
theorem TlsPlace.reads {bs : Bytes} (h : TlsPlace tail (bs ++ fut) D a d) (c : Conn W) :
    TlsPlace tail fut (fun m => D (bs.length + m)) a (d.reads c bs) where
  unciphered := h.unciphered
  live := h.live
  cIsTls := h.cIsTls
  wsState := h.wsState
  transportMode := h.transportMode
  left := h.left
  records := h.records
  bytes := by
    show d.inU ++ bs ++ fut = _
    rw [List.append_assoc]
    exact h.bytes
  among m := by
    show d.inp ++ a.among ((d.inU ++ bs).length + m) = _
    rw [List.length_append, Nat.add_assoc]
    exact h.among _

end Place

/-! ### Streams that are anything -/

section Open

variable {W : Type*}

/-- A receiver of records, whatever the client sends. -/
structure TlsOpen (d : Conn W) : Prop where
  crypto : d.crypto.isSome = true
  cIsTls : d.cIsTls = true
  wsState : d.wsState ≠ .active
  transportMode : d.transportMode ≠ .httpStream
  left : 0 ≤ d.leftTlsPacketLength

variable {d : Conn W}

/-- What is left of a record is not negative where its payload has been taken. -/
theorem TlsOpen.payload (h : TlsOpen d) (T : AesCrypto) (left : ℕ) :
    TlsOpen (decryptTlsPayload d T left) := by
  refine ⟨rfl, h.cIsTls, h.wsState, h.transportMode, ?_⟩
  show (0 : ℤ) ≤ ((left : ℕ) : ℤ) - (min left d.inU.length : ℕ)
  omega

/-- A turn of the loop does not fail its assertion. -/
theorem TlsOpen.turn (h : TlsOpen d) :
    (∃ d', decryptTurn d = .again d' ∧ TlsOpen d') ∨
      ∃ d' n, decryptTurn d = .done (.ok (d', n)) ∧ TlsOpen d' := by
  obtain ⟨T, hT⟩ := Option.isSome_iff_exists.mp h.crypto
  by_cases hin : d.inU.length = 0
  · refine Or.inr ⟨d, 0, ?_, h⟩
    simp only [decryptTurn, hT, if_pos hin]
  · have hturn : decryptTurn d = decryptTlsTurn d T := by
      simp only [decryptTurn, hT, if_neg hin, if_neg h.wsState, if_neg h.transportMode,
        if_pos h.cIsTls]
    rw [hturn, decryptTlsTurn, if_neg (not_lt.mpr h.left)]
    split_ifs
    · exact Or.inr ⟨d, _, rfl, h⟩
    · exact Or.inr ⟨failConnection d (-1), 0, rfl, h.crypto, h.cIsTls, h.wsState, h.transportMode,
        h.left⟩
    · refine Or.inl ⟨_, rfl, TlsOpen.payload ?_ T _⟩
      exact ⟨h.crypto, h.cIsTls, h.wsState, h.transportMode, h.left⟩
    · exact Or.inl ⟨_, rfl, h.payload T _⟩

/-- **A call of `crypto_decrypt_input` fails no assertion**, whatever is at hand. -/
theorem TlsOpen.decryptInput (h : TlsOpen d) :
    ∃ d' n, cpuTcpAesCryptoCtr128DecryptInput d = .ok (d', n) ∧ TlsOpen d' := by
  refine loop_inv (I := TlsOpen) (Q := fun exit => ∃ d' n, exit = .ok (d', n) ∧ TlsOpen d')
    decryptTurn_shrinks ?_ ?_ h
  · intro e e' he hturn
    rcases he.turn with ⟨e'', hagain, he''⟩ | ⟨e'', n, hdone, -⟩
    · exact Turn.again.inj (hagain.symm.trans hturn) ▸ he''
    · exact nomatch hdone.symm.trans hturn
  · intro e exit he hturn
    rcases he.turn with ⟨e'', hagain, -⟩ | ⟨e'', n, hdone, he''⟩
    · exact nomatch hagain.symm.trans hturn
    · exact ⟨e'', n, (Turn.done.inj (hdone.symm.trans hturn)).symm, he''⟩

theorem TlsOpen.reads (h : TlsOpen d) (c : Conn W) (bytes : Bytes) : TlsOpen (d.reads c bytes) :=
  ⟨h.crypto, h.cIsTls, h.wsState, h.transportMode, h.left⟩

end Open

/-! ### Reads -/

section Reads

variable {W : Type*}

/-- **What is promised at a moment** of a stream that consists of these records and, behind them,
`tail`: what has been delivered is the payload among the bytes that have arrived, decrypted; what
is left of a record is not negative, and decryption fails no assertion on what may arrive next;
of bytes that belong to the stream it fails the connection on the header of another record only,
and once that is there `parse_execute` is not called. -/
structure TlsDelivered (T : AesCrypto) (a : Upcoming) (tail : Bytes) (x : Delivery W) : Prop where
  exact : x.received <+: a.bytes ++ tail →
    x.delivered = xorAt T.read.ks T.read.pos (a.among x.received.length)
  nonneg : 0 ≤ x.conn.leftTlsPacketLength
  next : x.conn.cError = false → ∀ bytes, ∃ c' n,
    cpuTcpAesCryptoCtr128DecryptInput (x.conn.pend bytes) = .ok (c', n) ∧
      0 ≤ c'.leftTlsPacketLength ∧
      (x.received ++ bytes <+: a.bytes ++ tail →
        (c'.cError = true ↔ tail ≠ [] ∧ a.bytes.length + 5 ≤ (x.received ++ bytes).length))
  failed : x.received <+: a.bytes ++ tail → tail ≠ [] →
    a.bytes.length + 5 ≤ x.received.length → x.conn.cError = true ∧ x.results = []

/-- The invariant of a run of reads. -/
structure TlsOk (T : AesCrypto) (a : Upcoming) (tail : Bytes) (x : Delivery W) : Prop where
  delivered : x.received <+: a.bytes ++ tail →
    x.delivered = xorAt T.read.ks T.read.pos (a.among x.received.length)
  nonneg : 0 ≤ x.conn.leftTlsPacketLength
  going : x.conn.cError = false → ∃ d, Mirrors T x d ∧ TlsOpen d ∧
    ∀ fut, x.received ++ fut = a.bytes ++ tail →
      (∃ a', TlsPlace tail fut (fun m => a.among (x.received.length + m)) a' d) ∧
        d.inU.length < 5
  failed : x.received <+: a.bytes ++ tail → tail ≠ [] →
    a.bytes.length + 5 ≤ x.received.length → x.conn.cError = true ∧ x.results = []

variable {env : ExtServerEnv W} {T : AesCrypto} {a : Upcoming} {tail : Bytes}

/-- The header of another record is at hand where no more than the rest of it is to come. -/
theorem tail_at_hand {received fut : Bytes} (h : received ++ fut = a.bytes ++ tail) :
    fut.length + 5 ≤ tail.length ↔ a.bytes.length + 5 ≤ received.length := by
  have hlen := congrArg List.length h
  simp only [List.length_append] at hlen
  omega

/-- **The next call**, seen from the connection without a cipher. -/
theorem TlsOk.call {x : Delivery W} {d : Conn W} (hopen : TlsOpen d)
    (hplace : ∀ fut, x.received ++ fut = a.bytes ++ tail →
      (∃ a', TlsPlace tail fut (fun m => a.among (x.received.length + m)) a' d) ∧
        d.inU.length < 5)
    (htail : tail = [] ∨ OtherRecord tail) (bytes : Bytes) :
    ∃ d' n, cpuTcpAesCryptoCtr128DecryptInput (d.reads x.conn bytes) = .ok (d', n) ∧ TlsOpen d' ∧
      ∀ fut, x.received ++ bytes ++ fut = a.bytes ++ tail →
        d'.inp = a.among (x.received ++ bytes).length ∧
        (d'.cError = true ∧ tail ≠ [] ∧ a.bytes.length + 5 ≤ (x.received ++ bytes).length ∨
          (∃ a', TlsPlace tail fut (fun m => a.among ((x.received ++ bytes).length + m)) a' d') ∧
            d'.inU.length < 5) := by
  obtain ⟨d', n, hcall, hopen'⟩ := (hopen.reads x.conn bytes).decryptInput
  refine ⟨d', n, hcall, hopen', fun fut hfut => ?_⟩
  obtain ⟨⟨a', ha'⟩, -⟩ := hplace (bytes ++ fut) (by rw [← hfut, List.append_assoc])
  have hstart := ha'.reads x.conn
  simp only [← Nat.add_assoc, ← List.length_append] at hstart
  obtain ⟨e, m, hcall', hinp, -, hend⟩ := hstart.decryptInput htail
  obtain ⟨rfl, -⟩ := Prod.mk.inj (Except.ok.inj (hcall'.symm.trans hcall))
  refine ⟨hinp, hend.imp_left fun ⟨herror, hne, hlen⟩ => ⟨herror, hne, ?_⟩⟩
  exact (tail_at_hand hfut).mp hlen

/-- **One read.** -/
theorem TlsOk.read {x x' : Delivery W} (h : TlsOk T a tail x)
    (htail : tail = [] ∨ OtherRecord tail) (hlive : x.conn.cError = false) {r : Read}
    (hstep : deliveryStep env (.ok x) r = .ok x') : TlsOk T a tail x' := by
  obtain ⟨d, hmirrors, hopen, hplace⟩ := h.going hlive
  obtain ⟨d', n, hcall, hopen', hend⟩ := TlsOk.call hopen hplace htail r.1.flatten
  rcases hmirrors.read env r with ⟨e, habort, -⟩ | ⟨e, m, hcall', hread⟩
  · exact nomatch habort.symm.trans hcall
  obtain ⟨rfl, -⟩ := Prod.mk.inj (Except.ok.inj (hcall'.symm.trans hcall))
  obtain ⟨hreceived, hdelivered, hleft, -, hresult⟩ := hread x' hstep
  rw [← hreceived] at hend
  have hwaits : e.cError = false → ∀ fut, x'.received ++ fut = a.bytes ++ tail →
      (∃ a', TlsPlace tail fut (fun m => a.among (x'.received.length + m)) a' e) ∧
        e.inU.length < 5 := by
    intro he fut hfut
    rcases (hend fut hfut).2 with ⟨herror, -⟩ | hplace'
    · exact nomatch herror.symm.trans he
    · exact hplace'
  constructor
  · rintro ⟨fut, hfut⟩
    rw [hdelivered, (hend fut hfut).1]
  · rw [hleft]
    exact hopen'.left
  · intro hlive'
    rcases hresult with ⟨-, hfailed, -⟩ | ⟨he, hgoing⟩
    · exact nomatch hfailed.symm.trans hlive'
    · exact ⟨e, hgoing hlive', hopen', hwaits he⟩
  · rintro ⟨fut, hfut⟩ hne hlen
    rcases hresult with ⟨-, hfailed, hnone⟩ | ⟨he, -⟩
    · exact ⟨hfailed, hnone⟩
    · obtain ⟨⟨a', ha'⟩, hshort⟩ := hwaits he fut hfut
      have := ha'.waits hshort
      have := (tail_at_hand hfut).mpr hlen
      omega

/-- What the invariant promises. -/
theorem TlsOk.delivers {x : Delivery W} (h : TlsOk T a tail x)
    (htail : tail = [] ∨ OtherRecord tail) : TlsDelivered T a tail x := by
  refine ⟨h.delivered, h.nonneg, fun hlive bytes => ?_, h.failed⟩
  obtain ⟨d, hmirrors, hopen, hplace⟩ := h.going hlive
  obtain ⟨d', n, hcall, hopen', hend⟩ := TlsOk.call hopen hplace htail bytes
  obtain ⟨c', hcall', herror, hleft, -⟩ := hmirrors.decrypts hcall
  refine ⟨c', n, hcall', by rw [hleft]; exact hopen'.left, ?_⟩
  rintro ⟨fut, hfut⟩
  rw [herror]
  rcases (hend fut hfut).2 with ⟨hfailed, hne, hlen⟩ | ⟨⟨a', ha'⟩, hshort⟩
  · exact iff_of_true hfailed ⟨hne, hlen⟩
  · refine iff_of_false (by rw [ha'.live]; exact Bool.false_ne_true) fun hlate => ?_
    have := ha'.waits hshort
    have := (tail_at_hand hfut).mpr hlate.2
    omega

/-- **A run of reads.** -/
theorem TlsOk.run {x : Delivery W} (h : TlsOk T a tail x)
    (htail : tail = [] ∨ OtherRecord tail) (reads : List Read) :
    Throughout (deliveryStep env) (fun s => ∀ x', s = .ok x' → TlsDelivered T a tail x')
      (.ok x) reads := by
  have hall : Throughout (deliveryStep env) (fun s => ∀ x', s = .ok x' → TlsOk T a tail x')
      (.ok x) reads := by
    refine throughout_of_step (fun s r hs x' hx' => ?_) ?_
    · cases s with
      | error f => exact nomatch hx'
      | ok y =>
        by_cases hlive : y.conn.cError = false
        · exact (hs y rfl).read htail hlive hx'
        · have hfailed : y.conn.cError = true := by simpa using hlive
          have hstay : deliveryStep env (.ok y) r = .ok { y with results := [] } := if_pos hfailed
          obtain rfl := Except.ok.inj (hstay.symm.trans hx')
          obtain ⟨hdelivered, hnonneg, -, hend⟩ := hs y rfl
          exact ⟨hdelivered, hnonneg, fun hne => (hlive hne).elim, fun _ _ _ => ⟨hfailed, rfl⟩⟩
    · rintro x' hx'
      exact Except.ok.inj hx' ▸ h
  exact hall.imp fun s hs x' hx' => (hs x' hx').delivers htail

end Reads

/-! ### The first record -/

section FirstRecord

variable {W : Type*}

/-- **Behind its ClientHello** a client of fake TLS has sent its dummy ChangeCipherSpec and a first
record, whose payload is the obfuscated2 header and `lead`, and all of that has arrived:
`behind` has, behind the header. -/
structure FirstRecord (c : Conn W) (block lead behind : Bytes) : Prop where
  live : c.cError = false
  cIsTls : c.cIsTls = true
  wsState : c.wsState ≠ .active
  transportMode : c.transportMode ≠ .httpStream
  inU : c.inU = []
  inp : c.inp = [0x14, 0x03, 0x03, 0x00, 0x01, 0x01] ++ ([0x17, 0x03, 0x03] ++
    (beBytes 2 (block.length + lead.length) ++ (block ++ behind)))
  blockLen : block.length = 64
  size : block.length + lead.length < 65536
  arrived : lead <+: behind

variable {c : Conn W} {block lead behind : Bytes}

/-- The handshake takes the header off and leaves the rest of the record to be taken. -/
theorem FirstRecord.passes (h : FirstRecord c block lead behind) :
    ∃ c₁, firstTlsPacket c = .ok c₁ ∧ c₁.inp = block ++ behind ∧ c₁.inU = [] ∧
      c₁.cError = false ∧ c₁.cIsTls = true ∧ c₁.wsState ≠ .active ∧
      c₁.transportMode ≠ .httpStream ∧ c₁.leftTlsPacketLength = lead.length := by
  have hbytes : (beBytes 2 (block.length + lead.length)).length = 2 := beBytes_length 2 _
  have hlead := h.arrived.length_le
  have hblock := h.blockLen
  have hlen : c.inp.length = 11 + (block.length + behind.length) := by
    rw [h.inp]
    simp only [List.length_append, hbytes, List.length_cons, List.length_nil]
    omega
  have htake : c.inp.take 9 = [0x14, 0x03, 0x03, 0x00, 0x01, 0x01, 0x17, 0x03, 0x03] := by
    rw [h.inp]
    rfl
  have hnine : c.inp.drop 9 = beBytes 2 (block.length + lead.length) ++ (block ++ behind) := by
    rw [h.inp]
    rfl
  have hsize : beValue ((c.inp.drop 9).take 2) = block.length + lead.length := by
    rw [hnine, List.take_left' hbytes]
    exact beValue_beBytes 2 _ h.size
  have hdrop : c.inp.drop 11 = block ++ behind := by
    have htwo : c.inp.drop 11 = (c.inp.drop 9).drop 2 := by rw [List.drop_drop]
    rw [htwo, hnine, List.drop_left' hbytes]
  unfold firstTlsPacket
  dsimp only
  rw [if_neg (by omega), if_neg (not_not.mpr htake), hsize, if_neg (by omega), if_neg (by omega)]
  refine ⟨_, rfl, hdrop, h.inU, h.live, h.cIsTls, h.wsState, h.transportMode, ?_⟩
  show ((block.length + lead.length : ℕ) : ℤ) - 64 = lead.length
  omega

/-- **Fake TLS is taken off, at every moment**: for every sequence of records behind the first
one, and whatever the reads.  The first call of `crypto_decrypt_input` is the one behind the
header, what follows it before the next read touches nothing it looks at
(`clientParseExecute_keeps`), and a record of another type fails the connection. -/
theorem fakeTls_delivered (env : ExtServerEnv W) (c : Conn W) (block lead behind : Bytes)
    (hc : FirstRecord c block lead behind) (parts : List FramedData)
    (hparts : ∀ part ∈ parts, IsTlsRecord part) (tail : Bytes)
    (htail : tail = [] ∨ OtherRecord tail) :
    ∃ c₁, firstTlsPacket c = .ok c₁ ∧ c₁.inp = block ++ behind ∧
      ∀ (pr : Obfs2ParseResult) (slot : ℕ),
        ∃ c₂ n, cpuTcpAesCryptoCtr128DecryptInput (startCrypto env c₁ pr) = .ok (c₂, n) ∧
          StageFrame GoesOn c₂ (acceptObfs2 env pr slot c₁) ∧
          ∀ y, GoesOn c₂ y → PastHeader y → ∀ reads,
            Throughout (deliveryStep env)
              (fun s => ∀ x, s = .ok x → TlsDelivered
                ⟨⟨env.prim.aes256Ctr pr.keys.readKey pr.keys.readIv, 64⟩,
                  ⟨env.prim.aes256Ctr pr.keys.writeKey pr.keys.writeIv, 0⟩⟩
                ⟨lead, parts⟩ tail x)
              (.ok ⟨y, behind, c₂.inp, []⟩) reads := by
  obtain ⟨c₁, hpass, hinp, hinU, hlive, htls, hws, hmode, hleft⟩ := hc.passes
  refine ⟨c₁, hpass, hinp, fun pr slot => ?_⟩
  have hraw : (startCrypto env c₁ pr).inU = behind := by
    rw [startCrypto_inU, hinU, hinp, List.drop_left' hc.blockLen]
    rfl
  have hopen : TlsOpen (deframing c₁ behind) := by
    refine ⟨rfl, htls, hws, hmode, ?_⟩
    show 0 ≤ c₁.leftTlsPacketLength
    rw [hleft]
    omega
  have hplace (fut : Bytes) (hfut : behind ++ fut = Upcoming.bytes ⟨lead, parts⟩ ++ tail) :
      TlsPlace tail fut (fun m => Upcoming.among ⟨lead, parts⟩ (behind.length + m)) ⟨lead, parts⟩
        (deframing c₁ behind) :=
    ⟨⟨0, noCipher, rfl⟩, hlive, htls, hws, hmode, hleft, hparts, hfut, fun _ => rfl⟩
  obtain ⟨d, n, hcall, hopen'⟩ := hopen.decryptInput
  obtain ⟨c₂, hcall₂, hinp₂, hleft₂, herror₂, hmirrors⟩ := startCrypto_mirrors pr hraw hcall
  have hend (fut : Bytes) (hfut : behind ++ fut = Upcoming.bytes ⟨lead, parts⟩ ++ tail) :
      d.inp = Upcoming.among ⟨lead, parts⟩ behind.length ∧
      (d.cError = true ∨
        (∃ a', TlsPlace tail fut (fun m => Upcoming.among ⟨lead, parts⟩ (behind.length + m)) a' d) ∧
          d.inU.length < 5) := by
    obtain ⟨e, m, hcall', hinp', -, hresult⟩ := (hplace fut hfut).decryptInput htail
    obtain ⟨rfl, -⟩ := Prod.mk.inj (Except.ok.inj (hcall'.symm.trans hcall))
    exact ⟨hinp', hresult.imp_left fun h => h.1⟩
  refine ⟨c₂, n, hcall₂, acceptObfs2_goesOn env hcall₂ (decryptInput_nonneg hcall₂) slot,
    fun y hy hpast reads => TlsOk.run ?_ htail reads⟩
  constructor
  · rintro ⟨fut, hfut⟩
    show c₂.inp = _
    rw [hinp₂, (hend fut hfut).1]
  · show 0 ≤ y.leftTlsPacketLength
    rw [hy.1.leftTlsPacketLength, hleft₂]
    exact hopen'.left
  · intro hylive
    have hdlive : d.cError = false := by
      cases hd : d.cError with
      | false => rfl
      | true => exact nomatch (hy.2 (herror₂.trans hd)).symm.trans hylive
    refine ⟨d, hmirrors y behind [] hy.1 hpast hylive hdlive, hopen', fun fut hfut => ?_⟩
    rcases (hend fut hfut).2 with herror | hwaits
    · exact nomatch herror.symm.trans hdlive
    · exact hwaits
  · rintro ⟨fut, hfut⟩ hne hlen
    rcases (hend fut hfut).2 with herror | ⟨⟨a', ha'⟩, hshort⟩
    · exact ⟨hy.2 (herror₂.trans herror), rfl⟩
    · have := ha'.waits hshort
      have hbehind : (Upcoming.bytes ⟨lead, parts⟩).length + 5 ≤ behind.length := hlen
      have := (tail_at_hand hfut).mpr hbehind
      omega

end FirstRecord

/-- A client whose first record holds the header and one byte, with one byte of the next. -/
def sampleTlsClient : Conn Unit :=
  { Conn.allocated ⟨0, [], 0, false⟩ 443 () with
    cIsTls := true
    inp := [0x14, 0x03, 0x03, 0x00, 0x01, 0x01] ++ ([0x17, 0x03, 0x03] ++
      (beBytes 2 65 ++ (List.replicate 64 7 ++ [9, 0x17]))) }

/-- It goes on with an empty record and one of two bytes, and an alert. -/
theorem fakeTls_delivered_sample :
    ∃ c₁, firstTlsPacket sampleTlsClient = .ok c₁ ∧ c₁.inp = List.replicate 64 7 ++ [9, 0x17] ∧
      ∀ (pr : Obfs2ParseResult) (slot : ℕ),
        ∃ c₂ n, cpuTcpAesCryptoCtr128DecryptInput (startCrypto sampleServer c₁ pr) = .ok (c₂, n) ∧
          StageFrame GoesOn c₂ (acceptObfs2 sampleServer pr slot c₁) ∧
          ∀ y, GoesOn c₂ y → PastHeader y → ∀ reads,
            Throughout (deliveryStep sampleServer)
              (fun s => ∀ x, s = .ok x → TlsDelivered
                ⟨⟨sampleServer.prim.aes256Ctr pr.keys.readKey pr.keys.readIv, 64⟩,
                  ⟨sampleServer.prim.aes256Ctr pr.keys.writeKey pr.keys.writeIv, 0⟩⟩
                ⟨[9], [⟨[0x17, 0x03, 0x03, 0, 0], []⟩, ⟨[0x17, 0x03, 0x03, 0, 2], [1, 2]⟩]⟩
                [0x15, 0x03, 0x03, 0, 2] x)
              (.ok ⟨y, [9, 0x17], c₂.inp, []⟩) reads := by
  refine fakeTls_delivered sampleServer sampleTlsClient (List.replicate 64 7) [9] [9, 0x17]
    ⟨rfl, rfl, ?_, ?_, rfl, rfl, ?_, ?_, ?_⟩ _ ?_ _ (Or.inr ⟨?_, ?_⟩)
  · exact WsState.noConfusion
  · exact TransportMode.noConfusion
  · exact List.length_replicate
  · rw [List.length_replicate]
    decide
  · exact ⟨[0x17], rfl⟩
  · refine List.forall_mem_cons.mpr ⟨⟨by decide, by decide⟩, List.forall_mem_cons.mpr
      ⟨⟨by decide, by decide⟩, ?_⟩⟩
    exact fun _ h => (nomatch h)
  · decide
  · decide

end Server
end Teleproto3
