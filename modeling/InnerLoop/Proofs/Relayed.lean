import Mathlib.Data.List.Basic
import Mathlib.Data.Seq.Basic
import Mathlib.Tactic.IntervalCases
import InnerLoop.Api.Feed

/-!
# What is relayed of a feed

A relay has two stages. The first makes events of the items of a feed and drops what is no event.
The second hands events on and keeps in mind whether the last one was a trouble; if it was, the next
event ends it. So the first trouble still gets through, and nothing after it does.

A feed may go on for ever, and what is handed on is told by how many of its items have come.

- `untilTrouble`: the second stage; `relay_eq_untilTrouble`: the two stages are the relay.
- `untilTrouble_append`, `untilTrouble_trouble`: the second stage before and at a trouble.
- `relayed`: what is handed on of a feed.
- `relay_translates`: **what is handed on of any feed**.
-/

namespace InnerLoop

namespace WatchEvent

variable {κ : Type}

/-- Whether an event says that the watch is dead. -/
def isTrouble : WatchEvent κ → Bool
  | object .. => false
  | error _ => true

end WatchEvent

namespace Api

open Stream' (Seq)

variable {κ : Type}

/-! ## The two stages -/

/-- Hands events on, until one comes after a trouble; `errored` says whether the last one before was
a trouble. -/
def untilTrouble : (errored : Bool) → List (WatchEvent κ) → List (WatchEvent κ)
  | _, [] => []
  | true, _ :: _ => []
  | false, e :: r => e :: untilTrouble e.isTrouble r

/-- After a trouble nothing is handed on. -/
theorem untilTrouble_errored (events : List (WatchEvent κ)) : untilTrouble true events = [] := by
  cases events <;> rfl

/-- Before a trouble everything is handed on. -/
theorem untilTrouble_append {calm : List (WatchEvent κ)} (h : ∀ e ∈ calm, e.isTrouble = false)
    (rest : List (WatchEvent κ)) :
    untilTrouble false (calm ++ rest) = calm ++ untilTrouble false rest := by
  induction calm with
  | nil => rfl
  | cons e r ih =>
    obtain ⟨he, hr⟩ := List.forall_mem_cons.mp h
    rw [List.cons_append, untilTrouble, he, ih hr, List.cons_append]

/-- The first trouble is handed on as the last event. -/
theorem untilTrouble_trouble (reason : String) (rest : List (WatchEvent κ)) :
    untilTrouble false (.error reason :: rest) = [.error reason] :=
  congrArg (WatchEvent.error reason :: ·) (untilTrouble_errored rest)

namespace FeedItem

/-- The event of an item is a trouble just if the item is. -/
theorem isTrouble_of_event? {item : FeedItem κ} {e : WatchEvent κ} (h : item.event? = some e) :
    e.isTrouble = item.isError := by
  cases item <;> cases h <;> rfl

end FeedItem

/-- The two stages one after the other are the relay. -/
theorem relay_eq_untilTrouble (items : List (FeedItem κ)) :
    relay items = untilTrouble false (items.filterMap FeedItem.event?) := by
  induction items with
  | nil => rfl
  | cons item r ih =>
    unfold relay
    cases hevent : item.event? with
    | none => rw [List.filterMap_cons_none hevent, ih]
    | some e =>
      rw [List.filterMap_cons_some hevent, untilTrouble, FeedItem.isTrouble_of_event? hevent]
      cases item.isError with
      | false => exact congrArg (e :: ·) ih
      | true => exact congrArg (e :: ·) (untilTrouble_errored _).symm

/-! ## Some items of a feed -/

namespace FeedItem

/-- The change that an item tells of: an object that is listed was added, one that is applied was
modified, and one that is deleted was deleted. -/
def change? : FeedItem κ → Option (WatchEvent κ)
  | initApply o => some (.object .added o)
  | apply o => some (.object .modified o)
  | delete o => some (.object .deleted o)
  | init => none
  | initDone => none
  | error _ => none

/-- The event of an item that is no trouble is the change that it tells of. -/
theorem event?_of_calm {item : FeedItem κ} (h : ∀ fault, item ≠ .error fault) :
    item.event? = item.change? := by
  cases item <;> first | rfl | exact absurd rfl (h _)

theorem isTrouble_of_change? {item : FeedItem κ} {e : WatchEvent κ} (h : item.change? = some e) :
    e.isTrouble = false := by
  cases item <;> cases h <;> rfl

end FeedItem

/-- Of items without a trouble the changes are handed on, and then what follows. -/
theorem relay_append {calm : List (FeedItem κ)} (h : ∀ item ∈ calm, ∀ fault, item ≠ .error fault)
    (rest : List (FeedItem κ)) :
    relay (calm ++ rest) = calm.filterMap FeedItem.change? ++ relay rest := by
  have hevents : calm.filterMap FeedItem.event? = calm.filterMap FeedItem.change? :=
    List.filterMap_congr fun item hitem => FeedItem.event?_of_calm (h item hitem)
  have hcalm : ∀ e ∈ calm.filterMap FeedItem.change?, e.isTrouble = false := by
    intro e he
    obtain ⟨item, -, hchange⟩ := List.mem_filterMap.mp he
    exact FeedItem.isTrouble_of_change? hchange
  rw [relay_eq_untilTrouble, relay_eq_untilTrouble, List.filterMap_append, hevents,
    untilTrouble_append hcalm]

/-- Of a trouble and all that follows the trouble is handed on. -/
theorem relay_error (fault : FeedFault) (rest : List (FeedItem κ)) :
    relay (.error fault :: rest) = [.error fault.message] := by
  rw [relay_eq_untilTrouble, List.filterMap_cons_some (by rfl)]
  exact untilTrouble_trouble _ _

/-! ## Feeds that may go on for ever -/

/-- What is handed on of a feed, finite or infinite, once `n` of its items have come, or all of them
if there are not so many. -/
def relayed (feed : Seq (FeedItem κ)) (n : ℕ) : List (WatchEvent κ) := relay (feed.take n)

theorem getElem?_of_take {α : Type} {s : Seq α} {n k : ℕ} {a : α} (h : (s.take n)[k]? = some a) :
    k < n ∧ s.get? k = some a := by
  rw [Seq.getElem?_take] at h
  split at h
  next hk => exact ⟨hk, h⟩
  next => cases h

/-- The first items of a feed start with the first ones of fewer. -/
theorem take_take {α : Type} (s : Seq α) {k n : ℕ} (h : k ≤ n) :
    (s.take n).take k = s.take k := by
  refine List.ext_getElem? fun i => ?_
  rw [List.getElem?_take, Seq.getElem?_take, Seq.getElem?_take]
  by_cases hi : i < k
  · rw [if_pos hi, if_pos (hi.trans_le h), if_pos hi]
  · rw [if_neg hi, if_neg hi]

theorem not_error_of_mem_take {feed : Seq (FeedItem κ)} {n : ℕ}
    (h : ∀ m < n, ∀ fault, feed.get? m ≠ some (.error fault)) :
    ∀ item ∈ feed.take n, ∀ fault, item ≠ .error fault := by
  rintro item hitem fault rfl
  obtain ⟨m, hm⟩ := List.getElem?_of_mem hitem
  obtain ⟨hlt, hget⟩ := getElem?_of_take hm
  exact h m hlt fault hget

/-- The items that have come, cut at one of them. -/
theorem take_eq_append {α : Type} {s : Seq α} {k n : ℕ} {a : α} (h : s.get? k = some a)
    (hk : k < n) : ∃ rest, s.take n = s.take k ++ a :: rest := by
  have hitem : (s.take n)[k]? = some a := by rw [Seq.getElem?_take, if_pos hk, h]
  obtain ⟨hlen, hget⟩ := List.getElem?_eq_some_iff.mp hitem
  refine ⟨(s.take n).drop (k + 1), ?_⟩
  rw [← take_take s hk.le, ← hget, ← List.drop_eq_getElem_cons hlen, List.take_append_drop]

/-- **What is handed on of any feed.** As long as there was no trouble, the changes are handed on
that the items so far tell of, each once and in their order. If the first trouble comes after `k`
items, these changes are handed on and then the trouble, and nothing of all that comes later. -/
theorem relay_translates (feed : Seq (FeedItem κ)) :
    (∀ n, (∀ m < n, ∀ fault, feed.get? m ≠ some (.error fault)) →
      relayed feed n = (feed.take n).filterMap FeedItem.change?) ∧
    ∀ k fault, feed.get? k = some (.error fault) →
      (∀ m < k, ∀ earlier, feed.get? m ≠ some (.error earlier)) →
      ∀ n, k < n →
        relayed feed n = (feed.take k).filterMap FeedItem.change? ++ [.error fault.message] := by
  constructor
  · intro n hcalm
    have happend := relay_append (not_error_of_mem_take hcalm) []
    rwa [List.append_nil, relay, List.append_nil] at happend
  · intro k fault herror hcalm n hk
    obtain ⟨rest, htake⟩ := take_eq_append herror hk
    rw [relayed, htake, relay_append (not_error_of_mem_take hcalm), relay_error]

/-- A feed that lists an object, tells of its change and its deletion, has a trouble, and then goes
on for ever. -/
def brokenFeed : Seq (FeedItem String) := Seq.ofStream fun
  | 0 => .init
  | 1 => .initApply "web-1"
  | 2 => .initDone
  | 3 => .apply "web-1"
  | 4 => .delete "web-1"
  | 5 => .error .noVersion
  | _ => .apply "web-2"

theorem relay_translates_broken :
    brokenFeed.get? 5 = some (.error .noVersion) ∧
    (∀ m < 5, ∀ earlier, brokenFeed.get? m ≠ some (.error earlier)) ∧
    relayed brokenFeed 3 = [.object .added "web-1"] ∧
    relayed brokenFeed 9 = [.object .added "web-1", .object .modified "web-1",
      .object .deleted "web-1", .error FeedFault.noVersion.message] := by
  have herror : brokenFeed.get? 5 = some (.error .noVersion) := rfl
  have hcalm : ∀ m < 5, ∀ earlier, brokenFeed.get? m ≠ some (.error earlier) := by
    intro m hm earlier
    interval_cases m <;> exact nofun
  obtain ⟨hbefore, hafter⟩ := relay_translates brokenFeed
  exact ⟨herror, hcalm, hbefore 3 fun m hm => hcalm m (hm.trans (by decide)),
    hafter 5 .noVersion herror hcalm 9 (by decide)⟩

end Api

end InnerLoop
