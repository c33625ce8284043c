/-
# The randoms of the ClientHellos a server has seen

`client_randoms` of `server/src/net/net-tcp-rpc-ext-server.c`: a queue in the order of arrival
and a hash table of chains over the same entries.  A ClientHello whose random is in the table
is refused; any other one puts its random there, whatever comes of it, and entries older than
`MAX_CLIENT_RANDOM_CACHE_TIME` leave.

The chains are the queue's entries, the youngest first (`ClientRandoms.Sound`), so the assertion
of `delete_old_client_randoms` holds.  A random whose hello was accepted stays refused: either
its entry is still there, or it has left, and then every entry that is there is as young as the
hello, and `is_allowed_timestamp` finds its timestamp too old (`Spent`).
-/

import Teleproto3.Lib.AgedQueue
import Teleproto3.Lib.Runs
import Teleproto3.Server.Surroundings

namespace Teleproto3
namespace Server

open Lib

/-! ### The cache -/

/-- `struct client_random`. -/
structure ClientRandom where
  random : Bytes
  time : ℤ
  deriving DecidableEq, Repr

/-- `client_randoms`, with the entries from `first_client_random` to `last_client_random`. -/
structure ClientRandoms where
  byTime : List ClientRandom
  buckets : ℕ → List ClientRandom

/-- `MAX_CLIENT_RANDOM_CACHE_TIME`. -/
def MAX_CLIENT_RANDOM_CACHE_TIME : ℤ := 2 * 86400

/-- `MAX_ALLOWED_TIMESTAMP_ERROR`. -/
def MAX_ALLOWED_TIMESTAMP_ERROR : ℤ := 2 * 60

/-- `get_client_random_bucket`: eight bits of the first byte and six of the second. -/
def getClientRandomBucket (random : Bytes) : ℕ :=
  (random.getD 0 0).toNat * 2 ^ 6 + (random.getD 1 0).toNat % 2 ^ 6

namespace ClientRandoms

/-- The cache as the program starts. -/
def empty : ClientRandoms := ⟨[], fun _ => []⟩

/-- `have_client_random`. -/
def haveClientRandom (s : ClientRandoms) (random : Bytes) : Bool :=
  (s.buckets (getClientRandomBucket random)).any fun cur => random.take 16 = cur.random

/-- One chain is replaced. -/
def setBucket (buckets : ℕ → List ClientRandom) (i : ℕ) (chain : List ClientRandom) :
    ℕ → List ClientRandom :=
  fun j => if j = i then chain else buckets j

/-- `add_client_random`. -/
def addClientRandom (s : ClientRandoms) (now : ℤ) (random : Bytes) : ClientRandoms :=
  let entry : ClientRandom := ⟨random.take 16, now⟩
  let i := getClientRandomBucket random
  ⟨s.byTime ++ [entry], setBucket s.buckets i (entry :: s.buckets i)⟩

/-- The loop of `delete_old_client_randoms`.  There is no result where its assertion fails. -/
def deleteOldLoop (now : ℤ) :
    List ClientRandom → (ℕ → List ClientRandom) → Option ClientRandoms
  | entry :: next :: rest, buckets =>
    if entry.time > now - MAX_CLIENT_RANDOM_CACHE_TIME then some ⟨entry :: next :: rest, buckets⟩
    else
      let i := getClientRandomBucket entry.random
      -- `entry` ends its chain, and the chain then ends before it.
      if (buckets i).dropWhile (· ≠ entry) = [entry] then
        deleteOldLoop now (next :: rest) (setBucket buckets i ((buckets i).takeWhile (· ≠ entry)))
      else none
  | byTime, buckets => some ⟨byTime, buckets⟩

/-- `delete_old_client_randoms`. -/
def deleteOldClientRandoms (s : ClientRandoms) (now : ℤ) : Option ClientRandoms :=
  deleteOldLoop now s.byTime s.buckets

/-- `is_allowed_timestamp`. -/
def isAllowedTimestamp (s : ClientRandoms) (now timestamp : ℤ) : Bool :=
  if timestamp > now + 3 then false
  else if (s.byTime.head?.any fun first => timestamp > first.time + 3) then true
  else decide (timestamp > now - MAX_ALLOWED_TIMESTAMP_ERROR)

/-! ### The cache as one queue -/

/-- A bucket's entries, the youngest first. -/
def chain (byTime : List ClientRandom) (i : ℕ) : List ClientRandom :=
  (byTime.filter fun e => getClientRandomBucket e.random = i).reverse

/-- A cache whose chains are its queue, under a clock that has passed all of it. -/
structure Sound (now : ℤ) (s : ClientRandoms) : Prop where
  aged : Aged ClientRandom.time s.byTime
  past : ∀ e ∈ s.byTime, e.time ≤ now
  distinct : (s.byTime.map ClientRandom.random).Nodup
  chains : s.buckets = chain s.byTime

theorem empty_sound (now : ℤ) : Sound now empty where
  aged := List.Pairwise.nil
  past := by simp [empty]
  distinct := List.nodup_nil
  chains := rfl

theorem Sound.later {now now' : ℤ} {s : ClientRandoms} (h : s.Sound now) (hle : now ≤ now') :
    s.Sound now' :=
  { h with past := fun e he => (h.past e he).trans hle }

/-- The bucket is found in the first bytes. -/
theorem getClientRandomBucket_take (random : Bytes) :
    getClientRandomBucket (random.take 16) = getClientRandomBucket random := by
  unfold getClientRandomBucket
  simp [List.getD_eq_getElem?_getD]

/-- What is in the cache is in the queue. -/
theorem Sound.haveClientRandom_iff {now : ℤ} {s : ClientRandoms} (h : s.Sound now)
    (random : Bytes) :
    s.haveClientRandom random = true ↔ ∃ e ∈ s.byTime, e.random = random.take 16 := by
  unfold haveClientRandom
  rw [h.chains, List.any_eq_true]
  constructor
  · rintro ⟨e, he, heq⟩
    have hmem : e ∈ s.byTime := (List.mem_filter.mp (List.mem_reverse.mp he)).1
    exact ⟨e, hmem, (of_decide_eq_true heq).symm⟩
  · rintro ⟨e, he, heq⟩
    refine ⟨e, List.mem_reverse.mpr (List.mem_filter.mpr ⟨he, ?_⟩), decide_eq_true heq.symm⟩
    rw [heq, getClientRandomBucket_take]
    exact decide_eq_true rfl

/-- A new entry heads its chain. -/
theorem chain_concat (l : List ClientRandom) (entry : ClientRandom) :
    chain (l ++ [entry]) =
      setBucket (chain l) (getClientRandomBucket entry.random)
        (entry :: chain l (getClientRandomBucket entry.random)) := by
  funext i
  unfold chain setBucket
  rw [List.filter_append]
  by_cases hi : i = getClientRandomBucket entry.random
  · subst hi
    simp
  · simp [hi, Ne.symm hi]

/-- An entry at the front ends its chain. -/
theorem chain_cons (l : List ClientRandom) (entry : ClientRandom) :
    chain (entry :: l) =
      setBucket (chain l) (getClientRandomBucket entry.random)
        (chain l (getClientRandomBucket entry.random) ++ [entry]) := by
  funext i
  unfold chain setBucket
  by_cases hi : i = getClientRandomBucket entry.random
  · subst hi
    simp
  · simp [hi, Ne.symm hi]

theorem setBucket_self (buckets : ℕ → List ClientRandom) (i : ℕ) (l : List ClientRandom) :
    setBucket buckets i l i = l := if_pos rfl

/-- Replacing a chain by what was there before undoes a replacement. -/
theorem setBucket_undo (buckets : ℕ → List ClientRandom) (i : ℕ) (l : List ClientRandom) :
    setBucket (setBucket buckets i l) i (buckets i) = buckets := by
  funext j
  unfold setBucket
  split
  · next h => rw [h]
  · rfl

/-- What ends a list that does not hold it before is found there. -/
theorem splitAt_last {l : List ClientRandom} {entry : ClientRandom} (h : entry ∉ l) :
    (l ++ [entry]).takeWhile (· ≠ entry) = l ∧ (l ++ [entry]).dropWhile (· ≠ entry) = [entry] := by
  induction l with
  | nil => simp
  | cons e l ih =>
    have hne : e ≠ entry := fun heq => h (heq ▸ List.mem_cons_self)
    obtain ⟨htake, hdrop⟩ := ih fun hmem => h (List.mem_cons_of_mem e hmem)
    constructor
    · simp only [List.cons_append, List.takeWhile_cons, hne, decide_true, htake, ne_eq,
        not_false_eq_true, ite_true]
    · simp only [List.cons_append, List.dropWhile_cons, hne, decide_true, hdrop, ne_eq,
        not_false_eq_true, ite_true]

/-- **The loop forgets what is old**, and its assertion holds. -/
theorem deleteOldLoop_chain (now : ℤ) : ∀ l : List ClientRandom,
    (l.map ClientRandom.random).Nodup →
    deleteOldLoop now l (chain l) =
      some ⟨expire ClientRandom.time (now - MAX_CLIENT_RANDOM_CACHE_TIME) l,
        chain (expire ClientRandom.time (now - MAX_CLIENT_RANDOM_CACHE_TIME) l)⟩
  | [], _ => rfl
  | [_], _ => rfl
  | entry :: next :: rest, hnodup => by
    have hrest : ((next :: rest).map ClientRandom.random).Nodup := (List.nodup_cons.mp hnodup).2
    rw [deleteOldLoop]
    by_cases hyoung : entry.time > now - MAX_CLIENT_RANDOM_CACHE_TIME
    · rw [if_pos hyoung, expire_of_lt hyoung]
    · have hnot : entry ∉ chain (next :: rest) (getClientRandomBucket entry.random) := by
        intro hmem
        have hlist : entry ∈ next :: rest := (List.mem_filter.mp (List.mem_reverse.mp hmem)).1
        exact (List.nodup_cons.mp hnodup).1 (List.mem_map_of_mem hlist)
      obtain ⟨htake, hdrop⟩ := splitAt_last hnot
      rw [if_neg hyoung, expire_of_le (not_lt.mp hyoung)]
      simp only [chain_cons (next :: rest) entry, setBucket_self]
      rw [if_pos hdrop, htake, setBucket_undo]
      exact deleteOldLoop_chain now (next :: rest) hrest

/-- The queue after a random has come. -/
def taken (s : ClientRandoms) (now : ℤ) (random : Bytes) : List ClientRandom :=
  expire ClientRandom.time (now - MAX_CLIENT_RANDOM_CACHE_TIME)
    (s.byTime ++ [⟨random.take 16, now⟩])

/-- **Taking in a random.**  The queue gets an entry at its end and loses what is old. -/
theorem Sound.take {now : ℤ} {s : ClientRandoms} (h : s.Sound now) {random : Bytes}
    (hnew : s.haveClientRandom random = false) :
    (s.addClientRandom now random).deleteOldClientRandoms now =
        some ⟨s.taken now random, chain (s.taken now random)⟩ ∧
      Sound now ⟨s.taken now random, chain (s.taken now random)⟩ := by
  have hnodup : ((s.addClientRandom now random).byTime.map ClientRandom.random).Nodup := by
    rw [addClientRandom, List.map_append, List.nodup_append]
    refine ⟨h.distinct, by simp, fun r hr r' hr' heq => ?_⟩
    obtain ⟨e, he, rfl⟩ := List.mem_map.mp hr
    have hrandom : e.random = random.take 16 := heq.trans (List.mem_singleton.mp hr')
    rw [(h.haveClientRandom_iff random).mpr ⟨e, he, hrandom⟩] at hnew
    exact nomatch hnew
  have hchains : (s.addClientRandom now random).buckets =
      chain (s.addClientRandom now random).byTime := by
    rw [addClientRandom, chain_concat]
    simp only [h.chains, getClientRandomBucket_take]
  have hsub : s.taken now random <:+ (s.addClientRandom now random).byTime := expire_suffix _
  constructor
  · rw [deleteOldClientRandoms, hchains]
    exact deleteOldLoop_chain now _ hnodup
  · constructor
    · exact (h.aged.concat h.past).expire
    · intro e he
      rcases List.mem_append.mp (hsub.subset he) with hold | hnew
      · exact h.past e hold
      · rw [List.mem_singleton.mp hnew]
    · exact (hsub.sublist.map _).nodup hnodup
    · rfl

end ClientRandoms

/-! ### The hellos of one process -/

/-- What the connections of a process share: the cache, the clock, and whatever else there is.
`aborted` is set where the assertion of `delete_old_client_randoms` fails. -/
structure ReplayWorld (X : Type*) where
  randoms : ClientRandoms
  now : ℤ
  aborted : Bool
  rest : X

variable {X : Type*}

namespace ReplayWorld

theorem eq_with_rest (w : ReplayWorld X) : ∃ x, w = { w with rest := x } := ⟨w.rest, rfl⟩

/-- `add_client_random` and `delete_old_client_randoms`. -/
def addClientRandom (w : ReplayWorld X) (random : Bytes) : ReplayWorld X :=
  match (w.randoms.addClientRandom w.now random).deleteOldClientRandoms w.now with
  | some randoms => { w with randoms := randoms }
  | none => { w with aborted := true }

end ReplayWorld

/-- The surroundings of a connection whose ClientHellos are held against the cache; everything
else acts on the rest. -/
def replayServer (base : ExtServerEnv X) : ExtServerEnv (ReplayWorld X) :=
  { base.lift ReplayWorld.rest (fun w x => { w with rest := x }) with
    haveClientRandom := fun w random => w.randoms.haveClientRandom random
    addClientRandom := fun w random => w.addClientRandom random
    isAllowedTimestamp := fun w timestamp => w.randoms.isAllowedTimestamp w.now timestamp }

/-- What happens to the cache of a process: the clock moves, and so may all else; or a connection
has bytes that begin like a ClientHello. -/
inductive HelloEvent (X : Type*)
  | tick (now : ℤ) (rest : X)
  | hello (dflt : DomainInfo) (c : Conn (ReplayWorld X))

/-- The connection in the world as it is. -/
def Conn.meeting (c : Conn (ReplayWorld X)) (w : ReplayWorld X) : Conn (ReplayWorld X) :=
  { c with world := w }

/-- One event. -/
def helloStep (base : ExtServerEnv X) (w : ReplayWorld X) : HelloEvent X → ReplayWorld X
  | .tick now rest => { w with now := now, rest := rest }
  | .hello dflt c =>
    match clientHello (replayServer base) dflt (c.meeting w) with
    | .ret d _ => d.world
    | .abort _ => w

/-- The clock does not go back. -/
def Forward (w : ReplayWorld X) : HelloEvent X → Prop
  | .tick now _ => w.now ≤ now
  | .hello _ _ => True

instance (w : ReplayWorld X) : (e : HelloEvent X) → Decidable (Forward w e)
  | .tick now _ => inferInstanceAs (Decidable (w.now ≤ now))
  | .hello _ _ => inferInstanceAs (Decidable True)

/-- The bytes a ClientHello is read from. -/
def Conn.hello {W : Type*} (c : Conn W) : Bytes := c.inp.take 4096

/-- The random of a ClientHello. -/
def helloRandom (hello : Bytes) : Bytes := (hello.drop 11).take 32

/-- A ClientHello without its random. -/
def helloBlanked (hello : Bytes) : Bytes :=
  hello.take 11 ++ List.replicate 32 0 ++ hello.drop 43

/-- The timestamp in a ClientHello, as the first secret that has made it shows it. -/
def helloTimestamp {W : Type*} (env : ExtServerEnv W) (w : W) (hello : Bytes) : Option ℤ :=
  (helloSecret env (helloRandom hello) (helloBlanked hello) (env.secrets w) 0).map
    fun secret => wrap32 (readLe32 (secret.2.2.drop 28) ^^^ readLe32 ((helloRandom hello).drop 28))

/-- A ClientHello that is answered by a ServerHello. -/
def AcceptsHello {W : Type*} (env : ExtServerEnv W) (dflt : DomainInfo) (c : Conn W) : Prop :=
  c.cIsTls = false ∧ ∃ d res, clientHello env dflt c = .ret d res ∧ d.cIsTls = true

/-! ### What one hello does -/

variable (base : ExtServerEnv X)

@[simp] theorem replayServer_addClientRandom (w : ReplayWorld X) (random : Bytes) :
    (replayServer base).addClientRandom w random = w.addClientRandom random := rfl

@[simp] theorem replayServer_isAllowedTimestamp (w : ReplayWorld X) (timestamp : ℤ) :
    (replayServer base).isAllowedTimestamp w timestamp =
      w.randoms.isAllowedTimestamp w.now timestamp := rfl

theorem replayServer_admits (w : ReplayWorld X) (slot : ℕ) (remote : RemoteAddr) :
    ∃ x, ((replayServer base).admits w slot remote).2 = { w with rest := x } := ⟨_, rfl⟩

/-- A decoy's connection leaves the cache as it is. -/
theorem proxyConnection_rest (c : Conn (ReplayWorld X)) (info : DomainInfo) :
    (proxyConnection (replayServer base).toOutboundEnv c info).cIsTls = c.cIsTls ∧
      ∃ x, (proxyConnection (replayServer base).toOutboundEnv c info).world =
        { c.world with rest := x } := by
  unfold proxyConnection
  dsimp only
  split
  · exact ⟨rfl, _, rfl⟩
  · split
    · exact ⟨rfl, _, rfl⟩
    · split
      · exact ⟨rfl, _, rfl⟩
      · exact ⟨rfl, _, rfl⟩

/-- What `checkHello` does not look up in the cache, or finds there. -/
def RefusedEarly {W : Type*} (env : ExtServerEnv W) (c : Conn W) (hello : Bytes)
    (helloLen : ℕ) : Prop :=
  c.ourPort = 80 ∨ helloLen < c.inp.length ∨ c.inp.length ≠ hello.length ∨
    env.haveClientRandom c.world (helloRandom hello) = true

section Checks

variable {W : Type*} {env : ExtServerEnv W} {c : Conn W} {hello : Bytes} {helloLen : ℕ}

theorem checkHello_early (h : RefusedEarly env c hello helloLen) :
    checkHello env c hello helloLen = (none, c.world) := if_pos h

theorem checkHello_unmatched (h : ¬ RefusedEarly env c hello helloLen)
    (hsecret : helloSecret env (helloRandom hello) (helloBlanked hello)
      (env.secrets (env.addClientRandom c.world (helloRandom hello))) 0 = none) :
    checkHello env c hello helloLen =
      (none, env.addClientRandom c.world (helloRandom hello)) := by
  unfold helloRandom helloBlanked at hsecret
  refine (if_neg h).trans ?_
  dsimp only
  rw [hsecret]
  rfl

/-- With a secret found, the timestamp decides, and then the slot's own checks. -/
theorem checkHello_matched (h : ¬ RefusedEarly env c hello helloLen) {slot : ℕ}
    {key expected : Bytes}
    (hsecret : helloSecret env (helloRandom hello) (helloBlanked hello)
      (env.secrets (env.addClientRandom c.world (helloRandom hello))) 0 =
        some (slot, key, expected)) :
    checkHello env c hello helloLen =
      if env.isAllowedTimestamp (env.addClientRandom c.world (helloRandom hello))
          (wrap32 (readLe32 (expected.drop 28) ^^^ readLe32 ((helloRandom hello).drop 28))) = false
      then (none, env.addClientRandom c.world (helloRandom hello))
      else if (env.admits (env.addClientRandom c.world (helloRandom hello)) slot c.remote).1 = false
      then (none, (env.admits (env.addClientRandom c.world (helloRandom hello)) slot c.remote).2)
      else
        ((env.parseClientHelloCiphers (helloBlanked hello)).map fun cipherSuiteId =>
          (key, cipherSuiteId),
          (env.admits (env.addClientRandom c.world (helloRandom hello)) slot c.remote).2) := by
  unfold helloRandom helloBlanked at hsecret
  refine (if_neg h).trans ?_
  dsimp only
  rw [hsecret]
  rfl

theorem helloTimestamp_matched {w : W} {slot : ℕ} {key expected : Bytes}
    (hsecret : helloSecret env (helloRandom hello) (helloBlanked hello) (env.secrets w) 0 =
      some (slot, key, expected)) :
    helloTimestamp env w hello =
      some (wrap32 (readLe32 (expected.drop 28) ^^^ readLe32 ((helloRandom hello).drop 28))) := by
  unfold helloTimestamp
  rw [hsecret]
  rfl

end Checks

/-- A hello that passes the checks is new, and its timestamp is allowed with its random in the
cache.  One that does not pass them is in the cache, or is not looked up in it. -/
theorem checkHello_cases (c : Conn (ReplayWorld X)) (hello : Bytes) (helloLen : ℕ) :
    checkHello (replayServer base) c hello helloLen = (none, c.world) ∨
      (c.world.randoms.haveClientRandom (helloRandom hello) = false ∧
        (∃ x, (checkHello (replayServer base) c hello helloLen).2 =
          { c.world.addClientRandom (helloRandom hello) with rest := x }) ∧
        ((checkHello (replayServer base) c hello helloLen).1 = none ∨
          ∃ timestamp, helloTimestamp (replayServer base) c.world hello = some timestamp ∧
            (c.world.addClientRandom (helloRandom hello)).randoms.isAllowedTimestamp
              (c.world.addClientRandom (helloRandom hello)).now timestamp = true)) := by
  by_cases hearly : RefusedEarly (replayServer base) c hello helloLen
  · exact Or.inl (checkHello_early hearly)
  · have hnew : c.world.randoms.haveClientRandom (helloRandom hello) = false :=
      Bool.eq_false_iff.mpr fun h => hearly (Or.inr (Or.inr (Or.inr h)))
    have hrest : (c.world.addClientRandom (helloRandom hello)).rest = c.world.rest := by
      unfold ReplayWorld.addClientRandom
      split <;> rfl
    have hsecrets : (replayServer base).secrets ((replayServer base).addClientRandom c.world
        (helloRandom hello)) = (replayServer base).secrets c.world := congrArg base.secrets hrest
    refine Or.inr ⟨hnew, ?_⟩
    cases hsecret : helloSecret (replayServer base) (helloRandom hello) (helloBlanked hello)
        ((replayServer base).secrets ((replayServer base).addClientRandom c.world
          (helloRandom hello))) 0 with
    | none =>
      rw [checkHello_unmatched hearly hsecret]
      exact ⟨ReplayWorld.eq_with_rest _, Or.inl rfl⟩
    | some secret =>
      obtain ⟨slot, key, expected⟩ := secret
      rw [checkHello_matched hearly hsecret, replayServer_isAllowedTimestamp,
        replayServer_addClientRandom]
      rw [hsecrets] at hsecret
      split
      · exact ⟨ReplayWorld.eq_with_rest _, Or.inl rfl⟩
      · next hallowed =>
        have hadmits := replayServer_admits base (c.world.addClientRandom (helloRandom hello)) slot
          c.remote
        split
        · exact ⟨hadmits, Or.inl rfl⟩
        · exact ⟨hadmits, Or.inr ⟨_, helloTimestamp_matched hsecret,
            Bool.eq_true_of_not_eq_false hallowed⟩⟩

/-- What a hello does to the cache, and what its answer takes. -/
theorem clientHello_cases (dflt : DomainInfo) (c : Conn (ReplayWorld X)) :
    ∃ d res, clientHello (replayServer base) dflt c = .ret d res ∧
      ((d.cIsTls = c.cIsTls ∧ ∃ x, d.world = { c.world with rest := x }) ∨
        (c.world.randoms.haveClientRandom (helloRandom c.hello) = false ∧
          (∃ x, d.world = { c.world.addClientRandom (helloRandom c.hello) with rest := x }) ∧
          (d.cIsTls = c.cIsTls ∨
            ∃ timestamp, helloTimestamp (replayServer base) c.world c.hello = some timestamp ∧
              (c.world.addClientRandom (helloRandom c.hello)).randoms.isAllowedTimestamp
                (c.world.addClientRandom (helloRandom c.hello)).now timestamp = true))) := by
  unfold clientHello
  dsimp only
  split
  · exact ⟨c, _, rfl, Or.inl ⟨rfl, _, rfl⟩⟩
  · split
    · obtain ⟨htls, hworld⟩ := proxyConnection_rest base
        (c.record (.clientHello (c.inp.take 4096))) dflt
      exact ⟨_, _, rfl, Or.inl ⟨htls, hworld⟩⟩
    · next info _ =>
      have hcases := checkHello_cases base (c.record (.clientHello (c.inp.take 4096))) c.hello
        (5 + beValue ((c.inp.drop 3).take 2))
      unfold Conn.hello at hcases ⊢
      generalize checkHello (replayServer base) (c.record (.clientHello (c.inp.take 4096)))
        (c.inp.take 4096) (5 + beValue ((c.inp.drop 3).take 2)) = checked at hcases ⊢
      obtain ⟨_ | ⟨key, cipherSuiteId⟩, world⟩ := checked
      · obtain ⟨htls, x, hworld⟩ := proxyConnection_rest base
          { c.record (.clientHello (c.inp.take 4096)) with world := world } info
        refine ⟨_, _, rfl, ?_⟩
        rcases hcases with hsame | ⟨hnew, ⟨y, hadded⟩, -⟩
        · obtain rfl : world = c.world := congrArg Prod.snd hsame
          exact Or.inl ⟨htls, x, hworld⟩
        · obtain rfl := hadded
          exact Or.inr ⟨hnew, ⟨x, hworld⟩, Or.inl htls⟩
      · rcases hcases with hsame | ⟨hnew, ⟨y, hadded⟩, hnone | hallowed⟩
        · exact nomatch congrArg Prod.fst hsame
        · exact nomatch hnone
        · obtain rfl := hadded
          exact ⟨_, _, rfl, Or.inr ⟨hnew, ⟨_, rfl⟩, Or.inr hallowed⟩⟩

/-! ### What holds along a run -/

/-- A process whose cache is in order. -/
structure ReplayWorld.Healthy (w : ReplayWorld X) : Prop where
  sound : w.randoms.Sound w.now
  running : w.aborted = false

/-- A random that is no longer good for a hello with this timestamp: its entry came late enough
for the timestamp, or had come and was dropped, and nothing in the cache is older. -/
def Spent (random : Bytes) (timestamp : ℤ) (w : ReplayWorld X) : Prop :=
  ∃ t, timestamp ≤ t + 3 ∧
    ((∃ e ∈ w.randoms.byTime, e.random = random.take 16 ∧ e.time = t) ∨
      (t + MAX_CLIENT_RANDOM_CACHE_TIME ≤ w.now ∧ ∀ e ∈ w.randoms.byTime, t ≤ e.time))

theorem start_healthy (now : ℤ) (rest : X) :
    ReplayWorld.Healthy ⟨ClientRandoms.empty, now, false, rest⟩ :=
  ⟨ClientRandoms.empty_sound now, rfl⟩

namespace ReplayWorld.Healthy

variable {w : ReplayWorld X} {random random' : Bytes} {timestamp : ℤ}

/-- A new random is taken in. -/
theorem addClientRandom_eq (h : w.Healthy) (hnew : w.randoms.haveClientRandom random = false) :
    w.addClientRandom random =
      { w with
        randoms := ⟨w.randoms.taken w.now random,
          ClientRandoms.chain (w.randoms.taken w.now random)⟩ } := by
  unfold ReplayWorld.addClientRandom
  rw [(h.sound.take hnew).1]

theorem addClientRandom (h : w.Healthy) (hnew : w.randoms.haveClientRandom random = false) :
    (w.addClientRandom random).Healthy := by
  rw [h.addClientRandom_eq hnew]
  exact ⟨(h.sound.take hnew).2, h.running⟩

/-- What is spent stays so while others come. -/
theorem addClientRandom_spent (h : w.Healthy)
    (hnew : w.randoms.haveClientRandom random' = false) (hspent : Spent random timestamp w) :
    Spent random timestamp (w.addClientRandom random') := by
  rw [h.addClientRandom_eq hnew]
  obtain ⟨t, hlate, ⟨e, he, hrandom, rfl⟩ | ⟨hgone, hyoung⟩⟩ := hspent
  · have haged := h.sound.aged.concat (a := ⟨random'.take 16, w.now⟩) h.sound.past
    rcases mem_expire_or haged (List.mem_append_left _ he) with hstays | ⟨hold, hrest⟩
    · exact ⟨e.time, hlate, Or.inl ⟨e, hstays, hrandom, rfl⟩⟩
    · exact ⟨e.time, hlate, Or.inr ⟨le_sub_iff_add_le.mp hold, hrest⟩⟩
  · refine ⟨t, hlate, Or.inr ⟨hgone, fun e he => ?_⟩⟩
    rcases List.mem_append.mp ((expire_suffix _).subset he) with hold | hlast
    · exact hyoung e hold
    · rw [List.mem_singleton.mp hlast]
      unfold MAX_CLIENT_RANDOM_CACHE_TIME at hgone
      show t ≤ w.now
      omega

/-- A random that has just come with an allowed timestamp is spent. -/
theorem spent_of_allowed (h : w.Healthy) (hnew : w.randoms.haveClientRandom random = false)
    (hallowed : (w.addClientRandom random).randoms.isAllowedTimestamp
      (w.addClientRandom random).now timestamp = true) :
    Spent random timestamp (w.addClientRandom random) := by
  rw [h.addClientRandom_eq hnew] at hallowed ⊢
  refine ⟨w.now, ?_, Or.inl ⟨⟨random.take 16, w.now⟩, mem_expire_concat _ _, rfl, rfl⟩⟩
  by_contra hfuture
  unfold ClientRandoms.isAllowedTimestamp at hallowed
  rw [if_pos (not_le.mp hfuture)] at hallowed
  exact nomatch hallowed

/-- **A spent random is in the cache, or its timestamp is not allowed.** -/
theorem refused_of_spent (h : w.Healthy) (hnew : w.randoms.haveClientRandom random = false)
    (hspent : Spent random timestamp w) :
    (w.addClientRandom random).randoms.isAllowedTimestamp (w.addClientRandom random).now
      timestamp = false := by
  obtain ⟨t, hlate, ⟨e, he, hrandom, -⟩ | ⟨hgone, hyoung⟩⟩ := hspent
  · rw [(h.sound.haveClientRandom_iff random).mpr ⟨e, he, hrandom⟩] at hnew
    exact nomatch hnew
  · unfold MAX_CLIENT_RANDOM_CACHE_TIME at hgone
    have hfirst : ∀ e ∈ w.randoms.taken w.now random, t ≤ e.time := by
      intro e he
      rcases List.mem_append.mp ((expire_suffix _).subset he) with hold | hlast
      · exact hyoung e hold
      · rw [List.mem_singleton.mp hlast]
        show t ≤ w.now
        omega
    rw [h.addClientRandom_eq hnew]
    unfold ClientRandoms.isAllowedTimestamp
    have hhead : ((w.randoms.taken w.now random).head?.any
        fun first => timestamp > first.time + 3) = false := by
      cases hq : w.randoms.taken w.now random with
      | nil => rfl
      | cons first rest =>
        have ht : t ≤ first.time := hfirst first (hq ▸ List.mem_cons_self)
        simp only [List.head?_cons, Option.any_some, decide_eq_false_iff_not]
        omega
    have hpast : ¬ timestamp > w.now + 3 := by omega
    rw [if_neg hpast, hhead, if_neg Bool.false_ne_true]
    refine decide_eq_false ?_
    unfold MAX_ALLOWED_TIMESTAMP_ERROR
    show ¬ timestamp > w.now - 2 * 60
    omega

end ReplayWorld.Healthy

theorem helloStep_hello {w : ReplayWorld X} {dflt : DomainInfo} {c : Conn (ReplayWorld X)}
    {d : Conn (ReplayWorld X)} {res : ℤ}
    (h : clientHello (replayServer base) dflt (c.meeting w) = .ret d res) :
    helloStep base w (.hello dflt c) = d.world := by
  simp only [helloStep, h]

/-- What an accepted hello was. -/
theorem AcceptsHello.cases {dflt : DomainInfo} {c : Conn (ReplayWorld X)}
    (haccepts : AcceptsHello (replayServer base) dflt c) :
    ∃ d res, clientHello (replayServer base) dflt c = .ret d res ∧
      c.world.randoms.haveClientRandom (helloRandom c.hello) = false ∧
      (∃ x, d.world = { c.world.addClientRandom (helloRandom c.hello) with rest := x }) ∧
      ∃ timestamp, helloTimestamp (replayServer base) c.world c.hello = some timestamp ∧
        (c.world.addClientRandom (helloRandom c.hello)).randoms.isAllowedTimestamp
          (c.world.addClientRandom (helloRandom c.hello)).now timestamp = true := by
  obtain ⟨htls, d, res, hret, hcalled⟩ := haccepts
  obtain ⟨d', res', hret', hworld⟩ := clientHello_cases base dflt c
  have hsame : d' = d := by
    have heq := hret'.symm.trans hret
    injection heq
  have hmoved : ¬ d.cIsTls = c.cIsTls := by
    rw [hcalled, htls]
    exact Bool.noConfusion
  rw [hsame] at hworld
  rcases hworld with ⟨hkept, -⟩ | ⟨hnew, hadded, hkept | hallowed⟩
  · exact absurd hkept hmoved
  · exact absurd hkept hmoved
  · exact ⟨d, res, hret, hnew, hadded, hallowed⟩

/-- What an event does to a process in order, and to what is spent in it. -/
theorem helloStep_keeps {w : ReplayWorld X} {e : HelloEvent X} (h : w.Healthy)
    (hclock : Forward w e) :
    (helloStep base w e).Healthy ∧ ∀ random timestamp, Spent random timestamp w →
      Spent random timestamp (helloStep base w e) := by
  cases e with
  | tick now rest =>
    have hclock : w.now ≤ now := hclock
    refine ⟨⟨h.sound.later hclock, h.running⟩, ?_⟩
    rintro random timestamp ⟨t, hlate, hthere | ⟨hgone, hyoung⟩⟩
    · exact ⟨t, hlate, Or.inl hthere⟩
    · exact ⟨t, hlate, Or.inr ⟨hgone.trans hclock, hyoung⟩⟩
  | hello dflt c =>
    obtain ⟨d, res, hret, hworld⟩ := clientHello_cases base dflt (c.meeting w)
    rw [helloStep_hello base hret]
    rcases hworld with ⟨-, x, hx⟩ | ⟨hnew, ⟨x, hx⟩, -⟩
    · rw [hx]
      exact ⟨⟨h.sound, h.running⟩, fun _ _ hspent => hspent⟩
    · rw [hx]
      obtain ⟨hsound, hrunning⟩ := h.addClientRandom hnew
      exact ⟨⟨hsound, hrunning⟩, fun _ _ hspent => h.addClientRandom_spent hnew hspent⟩

/-- A hello that is accepted spends its random. -/
theorem helloStep_spends {w : ReplayWorld X} (h : w.Healthy) {dflt : DomainInfo}
    {c : Conn (ReplayWorld X)}
    (haccepts : AcceptsHello (replayServer base) dflt (c.meeting w)) :
    ∃ timestamp, helloTimestamp (replayServer base) w c.hello = some timestamp ∧
      Spent (helloRandom c.hello) timestamp (helloStep base w (.hello dflt c)) := by
  obtain ⟨d, res, hret, hnew, ⟨x, hx⟩, timestamp, hts, hallowed⟩ := haccepts.cases base
  rw [helloStep_hello base hret, hx]
  exact ⟨timestamp, hts, h.spent_of_allowed hnew hallowed⟩

/-- A hello with a spent random is not accepted. -/
theorem not_acceptsHello {w : ReplayWorld X} (h : w.Healthy) {dflt : DomainInfo}
    {c : Conn (ReplayWorld X)} {timestamp : ℤ}
    (htimestamp : ∀ t, helloTimestamp (replayServer base) w c.hello = some t → t = timestamp)
    (hspent : Spent (helloRandom c.hello) timestamp w) :
    ¬ AcceptsHello (replayServer base) dflt (c.meeting w) := by
  intro haccepts
  obtain ⟨d, res, -, hnew, -, timestamp', hts, hallowed⟩ := haccepts.cases base
  obtain rfl := htimestamp timestamp' hts
  exact Bool.false_ne_true ((h.refused_of_spent hnew hspent).symm.trans hallowed)

/-- A run keeps a process in order, and what is spent in it. -/
theorem helloRun_keeps {w : ReplayWorld X} (h : w.Healthy) {es : List (HelloEvent X)}
    (hclock : Along (helloStep base) Forward w es) :
    (finish (helloStep base) w es).Healthy ∧ ∀ random timestamp, Spent random timestamp w →
      Spent random timestamp (finish (helloStep base) w es) := by
  induction es generalizing w with
  | nil => exact ⟨h, fun _ _ hspent => hspent⟩
  | cons e es ih =>
    obtain ⟨hstep, hspends⟩ := helloStep_keeps base h hclock.1
    obtain ⟨hend, hrest⟩ := ih hstep hclock.2
    exact ⟨hend, fun random timestamp hspent => hrest random timestamp (hspends _ _ hspent)⟩

/-- **A ClientHello is accepted once.**  In every run of a process from an empty cache under a
clock that does not go back, no hello after an accepted one is accepted that carries the same
random and, under the secret that made it, no other timestamp; and the assertion of
`delete_old_client_randoms` holds throughout. -/
theorem replayedHello_refused (now : ℤ) (rest : X) (es es' : List (HelloEvent X))
    (dflt dflt' : DomainInfo) (c c' : Conn (ReplayWorld X)) (w w' : ReplayWorld X)
    (hw : finish (helloStep base) ⟨ClientRandoms.empty, now, false, rest⟩ es = w)
    (hw' : finish (helloStep base) w (.hello dflt c :: es') = w')
    (hclock : Along (helloStep base) Forward ⟨ClientRandoms.empty, now, false, rest⟩
      (es ++ .hello dflt c :: es'))
    (haccepts : AcceptsHello (replayServer base) dflt (c.meeting w))
    (hrandom : helloRandom c'.hello = helloRandom c.hello)
    (htimestamp : ∀ t, helloTimestamp (replayServer base) w' c'.hello = some t →
      helloTimestamp (replayServer base) w c.hello = some t) :
    ¬ AcceptsHello (replayServer base) dflt' (c'.meeting w') ∧ w'.aborted = false := by
  rw [along_append, hw] at hclock
  obtain ⟨hbefore, hclock⟩ := hclock
  have hhealthy : w.Healthy := hw ▸ (helloRun_keeps base (start_healthy now rest) hbefore).1
  obtain ⟨timestamp, hts, hspent⟩ := helloStep_spends base hhealthy haccepts
  have hstep := (helloStep_keeps base hhealthy hclock.1).1
  obtain ⟨hlater, hrest⟩ := helloRun_keeps base hstep hclock.2
  rw [← finish_cons, hw'] at hlater
  have hspent' : Spent (helloRandom c'.hello) timestamp w' := by
    rw [hrandom, ← hw']
    exact hrest _ _ hspent
  constructor
  · refine not_acceptsHello base hlater (fun t ht => ?_) hspent'
    exact Option.some.inj ((htimestamp t ht).symm.trans hts)
  · exact hlater.running

/-- A ClientHello for the domain `a.b`. -/
def sampleHelloFor (random : Bytes) : Bytes :=
  [0x16, 3, 1, 2, 0, 1, 0, 1, 0xfc, 3, 3] ++ random ++ [32] ++ List.replicate 32 7 ++
    [0, 2, 0x13, 1, 1, 0, 1, 177, 0, 0, 0, 8, 0, 6, 0, 0, 3, 0x61, 0x2e, 0x62, 0, 21, 1, 161] ++
      List.replicate 417 0

/-- The code of this ClientHello without its random, under a secret of zeros. -/
def sampleHmac : Bytes :=
  [148, 63, 169, 179, 183, 131, 181, 137, 12, 191, 184, 33, 129, 16, 211, 94,
    108, 143, 84, 2, 104, 4, 21, 50, 157, 162, 146, 231, 27, 20, 210, 159]

/-- The random of this ClientHello at 1000000. -/
def sampleRandom : Bytes := sampleHmac.take 28 ++ [91, 86, 221, 159]

/-- A server with this domain. -/
def helloServer : ExtServerEnv Unit :=
  { sampleServer with
    defaultDomainInfo := some ⟨443, 1, []⟩
    getSniDomainInfo := fun _ => some ⟨443, 1, []⟩
    sha256Hmac := fun _ _ => sampleHmac
    parseClientHelloCiphers := fun _ => some 1 }

/-- A client with this ClientHello. -/
def sampleHelloClient (random : Bytes) : Conn (ReplayWorld Unit) :=
  { Conn.allocated ⟨0x7f000001, [], 50000, false⟩ 443 ⟨ClientRandoms.empty, 0, false, ()⟩ with
    inp := sampleHelloFor random }

/-- The timestamp a hello shows is a matter of the secrets. -/
theorem helloTimestamp_congr {w w' : ReplayWorld X} (h : w'.rest = w.rest) (hello : Bytes) :
    helloTimestamp (replayServer base) w' hello = helloTimestamp (replayServer base) w hello := by
  have hsecrets : (replayServer base).secrets w' = (replayServer base).secrets w :=
    congrArg base.secrets h
  unfold helloTimestamp
  rw [hsecrets]

/-- The world at 1000000, before any hello. -/
def sampleMorning : ReplayWorld Unit := ⟨ClientRandoms.empty, 1000000, false, ()⟩

/-- Two days pass, and another hello comes. -/
def sampleTwoDays : List (HelloEvent Unit) :=
  [.tick 1172800 (), .hello ⟨443, 1, []⟩ (sampleHelloClient (List.replicate 32 9))]

set_option maxRecDepth 10000 in
theorem sampleHelloClient_accepted :
    AcceptsHello (replayServer helloServer) ⟨443, 1, []⟩
      ((sampleHelloClient sampleRandom).meeting sampleMorning) := ⟨rfl, _, _, rfl, rfl⟩

theorem sampleTwoDays_forward :
    Along (helloStep helloServer) Forward sampleMorning
      ([] ++ .hello ⟨443, 1, []⟩ (sampleHelloClient sampleRandom) :: sampleTwoDays) :=
  ⟨trivial, by decide +kernel, trivial, trivial⟩

/-- After these the entry of the first hello has gone, and the hello is not accepted. -/
theorem replayedHello_refused_sample :
    ¬ AcceptsHello (replayServer helloServer) ⟨443, 1, []⟩
        ((sampleHelloClient sampleRandom).meeting (finish (helloStep helloServer) sampleMorning
          (.hello ⟨443, 1, []⟩ (sampleHelloClient sampleRandom) :: sampleTwoDays))) ∧
      (finish (helloStep helloServer) sampleMorning
        (.hello ⟨443, 1, []⟩ (sampleHelloClient sampleRandom) :: sampleTwoDays)).aborted = false :=
  replayedHello_refused helloServer 1000000 () [] sampleTwoDays ⟨443, 1, []⟩ ⟨443, 1, []⟩
    (sampleHelloClient sampleRandom) (sampleHelloClient sampleRandom) sampleMorning _ rfl rfl
    sampleTwoDays_forward sampleHelloClient_accepted rfl fun _ h =>
      (helloTimestamp_congr helloServer (Subsingleton.elim _ _) _).symm.trans h

end Server
end Teleproto3
