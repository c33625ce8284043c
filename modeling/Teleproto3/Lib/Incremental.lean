/-
# Parsers of a stream that arrives in parts

A parser that looks at what has arrived: it finds an item at the front and says how many symbols
that takes, or asks for more, or refuses the stream.  A reader keeps what has not been taken, and
takes items off its front whenever a part arrives.

`feedAll_items_iff` says when the items are a function of the stream alone, for a parser that
finds an item by looking at nothing behind it: when it refuses no beginning of what it finds an
item in later.
-/

import Mathlib.Data.List.Induction
import Teleproto3.Lib.Loop

namespace Teleproto3
namespace Lib

/-- What a parser finds at the front. -/
inductive AtFront (α : Type*)
  | item (a : α) (n : ℕ)
  | more
  | bad
  deriving DecidableEq, Repr

/-- A reader: the items it has taken, what it has not taken, and whether it has refused that. -/
structure StreamReader (α β : Type*) where
  items : List α
  rest : List β
  refused : Bool
  deriving DecidableEq, Repr

variable {α β : Type*} {parse : List β → AtFront α}

/-- An item takes something, and nothing that is not there. -/
def Progresses (parse : List β → AtFront α) : Prop :=
  ∀ bs a n, parse bs = .item a n → 0 < n ∧ n ≤ bs.length

/-- An item is found whatever is behind it. -/
def Settled (parse : List β → AtFront α) : Prop :=
  ∀ bs a n, parse bs = .item a n → ∀ rest, parse (bs.take n ++ rest) = .item a n

/-- One turn of the loop that takes items off the front. -/
def drainTurn (parse : List β → AtFront α) (r : StreamReader α β) :
    Turn (StreamReader α β) (StreamReader α β) :=
  match parse r.rest with
  | .item a n => .again { r with items := r.items ++ [a], rest := r.rest.drop n }
  | .more => .done r
  | .bad => .done { r with refused := true }

theorem drainTurn_shrinks (h : Progresses parse) :
    Shrinks (drainTurn parse) fun r => r.rest.length := by
  intro r r' hr
  unfold drainTurn at hr
  cases hparse : parse r.rest with
  | more | bad =>
    rw [hparse] at hr
    exact nomatch hr
  | item a n =>
    obtain ⟨hpos, hle⟩ := h _ _ _ hparse
    rw [hparse] at hr
    rw [← Turn.again.inj hr]
    simp only [List.length_drop]
    omega

/-- The loop. -/
def drain (h : Progresses parse) (r : StreamReader α β) : StreamReader α β :=
  loop (drainTurn parse) (fun r => r.rest.length) (drainTurn_shrinks h) r

/-- A part arrives.  A reader that has refused the stream takes nothing any more. -/
def feed (h : Progresses parse) (r : StreamReader α β) (part : List β) : StreamReader α β :=
  if r.refused then { r with rest := r.rest ++ part }
  else drain h { r with rest := r.rest ++ part }

/-- The parts of a stream arrive one after another. -/
def feedAll (h : Progresses parse) (parts : List (List β)) : StreamReader α β :=
  parts.foldl (feed h) ⟨[], [], false⟩

/-! ### Items in front of the rest -/

/-- Items stand one behind the other at the front of a string, and `t` is what is behind them. -/
inductive Taken (parse : List β → AtFront α) : List β → List α → List β → Prop
  | none (bs : List β) : Taken parse bs [] bs
  | item {bs t : List β} {a : α} {n : ℕ} {as : List α} (hparse : parse bs = .item a n)
      (h : Taken parse (bs.drop n) as t) : Taken parse bs (a :: as) t

namespace Taken

variable {bs t : List β} {as : List α}

theorem trans {u : List β} {bs' : List α} (h : Taken parse bs as t) (ht : Taken parse t bs' u) :
    Taken parse bs (as ++ bs') u := by
  induction h with
  | none _ => exact ht
  | item hparse _ ih => exact .item hparse (ih ht)

/-- The items take a beginning of the string, and are found in front of anything else as well. -/
theorem splits (hprogress : Progresses parse) (hsettled : Settled parse)
    (h : Taken parse bs as t) :
    ∃ front, bs = front ++ t ∧ ∀ u, Taken parse (front ++ u) as u := by
  induction h with
  | none bs => exact ⟨[], rfl, fun u => .none u⟩
  | @item bs t a n as hparse _ ih =>
    obtain ⟨front, hfront, hother⟩ := ih
    have hlen : (bs.take n).length = n := List.length_take_of_le (hprogress _ _ _ hparse).2
    refine ⟨bs.take n ++ front, ?_, fun u => ?_⟩
    · rw [List.append_assoc, ← hfront, List.take_append_drop]
    · have hfound := hsettled _ _ _ hparse (front ++ u)
      rw [List.append_assoc]
      refine .item hfound ?_
      rw [List.drop_left' hlen]
      exact hother u

/-- More arrives behind the rest. -/
theorem append (hprogress : Progresses parse) (hsettled : Settled parse)
    (h : Taken parse bs as t) (part : List β) : Taken parse (bs ++ part) as (t ++ part) := by
  obtain ⟨front, rfl, hother⟩ := h.splits hprogress hsettled
  rw [List.append_assoc]
  exact hother (t ++ part)

/-- The loop takes these items off. -/
theorem drain_eq (hprogress : Progresses parse) (h : Taken parse bs as t) (items : List α) :
    drain hprogress ⟨items, bs, false⟩ = drain hprogress ⟨items ++ as, t, false⟩ := by
  induction h generalizing items with
  | none _ => rw [List.append_nil]
  | @item bs t a n as hparse _ ih =>
    have hturn : drainTurn parse ⟨items, bs, false⟩
        = .again ⟨items ++ [a], bs.drop n, false⟩ := by simp only [drainTurn, hparse]
    rw [drain, loop_of_again _ hturn]
    refine (ih (items ++ [a])).trans ?_
    rw [List.append_assoc, List.singleton_append]

end Taken

/-- The parser finds no item at the front. -/
def NoItem (parse : List β → AtFront α) (t : List β) : Prop := ∀ a n, parse t ≠ .item a n

/-- Where the loop ends. -/
theorem drain_of_noItem (hprogress : Progresses parse) {t : List β} (ht : NoItem parse t)
    (items : List α) :
    ∃ refused, drain hprogress ⟨items, t, false⟩ = ⟨items, t, refused⟩ ∧
      (refused = true → parse t = .bad) := by
  cases hparse : parse t with
  | item a n => exact absurd hparse (ht a n)
  | more => exact ⟨false, loop_of_done _ (by simp only [drainTurn, hparse]), nofun⟩
  | bad => exact ⟨true, loop_of_done _ (by simp only [drainTurn, hparse]), fun _ => rfl⟩

/-- All items at the front of a string. -/
theorem exists_taken (hprogress : Progresses parse) (bs : List β) :
    ∃ as t, Taken parse bs as t ∧ NoItem parse t := by
  induction hn : bs.length using Nat.strongRecOn generalizing bs with
  | ind n ih =>
    by_cases hitem : NoItem parse bs
    · exact ⟨[], bs, .none bs, hitem⟩
    · simp only [NoItem, not_forall, not_not] at hitem
      obtain ⟨a, k, hparse⟩ := hitem
      have hlt := hprogress _ _ _ hparse
      obtain ⟨as, t, htaken, ht⟩ := ih (bs.drop k).length (by simp; omega) (bs.drop k) rfl
      exact ⟨a :: as, t, .item hparse htaken, ht⟩

/-- The items there are, where nothing is an item behind them. -/
theorem Taken.drain_items (hprogress : Progresses parse) {bs t : List β} {as : List α}
    (h : Taken parse bs as t) (ht : NoItem parse t) :
    (drain hprogress ⟨[], bs, false⟩).items = as := by
  obtain ⟨refused, heq, -⟩ := drain_of_noItem hprogress ht ([] ++ as)
  rw [h.drain_eq hprogress, heq, List.nil_append]

/-! ### The reader -/

/-- **Where a reader stands**: the items it has taken are at the front of what has arrived, and
it has stopped there, for want of an item or because it has refused a beginning of the rest. -/
structure Stopped (parse : List β → AtFront α) (arrived : List β) (r : StreamReader α β) :
    Prop where
  taken : Taken parse arrived r.items r.rest
  waits : r.refused = false → NoItem parse r.rest
  refuses : r.refused = true → ∃ p, p <+: r.rest ∧ parse p = .bad

theorem stopped_drain (hprogress : Progresses parse) {arrived rest : List β} {items : List α}
    (h : Taken parse arrived items rest) :
    Stopped parse arrived (drain hprogress ⟨items, rest, false⟩) := by
  obtain ⟨as, t, htaken, ht⟩ := exists_taken hprogress rest
  obtain ⟨refused, heq, hbad⟩ := drain_of_noItem hprogress ht (items ++ as)
  rw [htaken.drain_eq hprogress, heq]
  exact ⟨h.trans htaken, fun _ => ht, fun hr => ⟨t, List.prefix_refl t, hbad hr⟩⟩

/-- A part arrives. -/
theorem Stopped.feed (hprogress : Progresses parse) (hsettled : Settled parse)
    {arrived : List β} {r : StreamReader α β} (h : Stopped parse arrived r) (part : List β) :
    Stopped parse (arrived ++ part) (feed hprogress r part) := by
  have htaken := h.taken.append hprogress hsettled part
  rcases r with ⟨items, rest, _ | _⟩
  · exact stopped_drain hprogress htaken
  · obtain ⟨p, hp, hbad⟩ := h.refuses rfl
    exact ⟨htaken, nofun, fun _ => ⟨p, hp.trans (List.prefix_append rest part), hbad⟩⟩

/-- **All parts arrive.** -/
theorem stopped_feedAll (hprogress : Progresses parse) (hsettled : Settled parse)
    (hempty : NoItem parse []) (parts : List (List β)) :
    Stopped parse parts.flatten (feedAll hprogress parts) := by
  induction parts using List.reverseRecOn with
  | nil => exact ⟨.none [], fun _ => hempty, nofun⟩
  | append_singleton parts part ih =>
    rw [feedAll, List.foldl_append, List.flatten_append, List.flatten_singleton]
    exact ih.feed hprogress hsettled part

/-- **How a stream is split makes no difference to the items** exactly where no beginning is
refused of what an item stands at the front of. -/
theorem feedAll_items_iff (hprogress : Progresses parse) (hsettled : Settled parse)
    (hempty : NoItem parse []) (bs : List β) :
    (∀ parts, parts.flatten = bs →
        (feedAll hprogress parts).items = (feedAll hprogress [bs]).items) ↔
      ∀ as t, Taken parse bs as t → ∀ p, p <+: t → parse p = .bad → NoItem parse t := by
  have hwhole : feedAll hprogress [bs] = drain hprogress ⟨[], bs, false⟩ := rfl
  constructor
  · intro hsame as t htaken p hp hbad a n hitem
    obtain ⟨front, rfl, hother⟩ := htaken.splits hprogress hsettled
    obtain ⟨rest, rfl⟩ := hp
    -- The part that ends where the parser refuses what it has, and all the rest.
    have hparts := hsame [front ++ p, rest] (by simp)
    have hfirst : feedAll hprogress [front ++ p, rest] = ⟨as, p ++ rest, true⟩ := by
      have hturn : drainTurn parse ⟨as, p, false⟩ = .done ⟨as, p, true⟩ := by
        simp only [drainTurn, hbad]
      have hdrain : drain hprogress ⟨[], front ++ p, false⟩ = ⟨as, p, true⟩ := by
        rw [(hother p).drain_eq hprogress, List.nil_append]
        exact loop_of_done _ hturn
      show feed hprogress (drain hprogress ⟨[], front ++ p, false⟩) rest = _
      rw [hdrain]
      rfl
    have hnext : Taken parse (front ++ (p ++ rest)) (as ++ [a]) ((p ++ rest).drop n) :=
      htaken.trans (.item hitem (.none _))
    obtain ⟨more, t, hmore, ht⟩ := exists_taken hprogress ((p ++ rest).drop n)
    rw [hfirst, hwhole, (hnext.trans hmore).drain_items hprogress ht] at hparts
    have hlen := congrArg List.length hparts
    simp only [List.length_append, List.length_singleton] at hlen
    omega
  · rintro hcond parts rfl
    have hstopped := stopped_feedAll hprogress hsettled hempty parts
    have hnoItem : NoItem parse (feedAll hprogress parts).rest := by
      cases hrefused : (feedAll hprogress parts).refused with
      | false => exact hstopped.waits hrefused
      | true =>
        obtain ⟨p, hp, hbad⟩ := hstopped.refuses hrefused
        exact hcond _ _ hstopped.taken p hp hbad
    rw [hwhole, hstopped.taken.drain_items hprogress hnoItem]

end Lib
end Teleproto3
