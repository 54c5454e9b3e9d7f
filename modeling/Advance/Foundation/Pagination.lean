import Mathlib.Data.List.Basic

/-! # Pages behind a cursor

A list handed out in pages: each call gets the cursor of the call before it, and one that
returns no cursor is the last.
-/

namespace Advance.Foundation

theorem page_getLast? {α : Type} {items : List α} {position size : Nat} (sized : 0 < size)
    (fits : position + size ≤ items.length) :
    ((items.drop position).take size).getLast? = items[position + (size - 1)]? := by
  have length : ((items.drop position).take size).length = size := by
    rw [List.length_take, List.length_drop]
    omega
  rw [List.getLast?_eq_getElem?, length, List.getElem?_take_of_lt (by omega), List.getElem?_drop]

section

variable {α κ : Type} (call : Nat → Option κ → List α × Option κ)

/-- The pages of the calls from number `count` on. -/
inductive Pages : Nat → Option κ → List (List α) → Prop where
  | last {count : Nat} {cursor : Option κ} {page : List α} (answer : call count cursor = (page, none)) :
      Pages count cursor [page]
  | more {count : Nat} {cursor : Option κ} {page : List α} {next : κ} {pages : List (List α)}
      (answer : call count cursor = (page, some next)) (rest : Pages (count + 1) (some next) pages) :
      Pages count cursor (page :: pages)

inductive Called : Nat → Option κ → Prop where
  | first : Called 0 none
  | next {count : Nat} {cursor : Option κ} {page : List α} {next : κ} (made : Called count cursor)
      (answer : call count cursor = (page, some next)) : Called (count + 1) (some next)

variable {call}

/-- A call that ends the list, or whose cursor points behind its page, which is not empty. -/
structure Continues (items : List α) (position : Option κ → Nat) (cursor : Option κ)
    (answer : List α × Option κ) : Prop where
  ends : answer.2 = none → answer.1 = items.drop (position cursor)
  goesOn : ∀ next, answer.2 = some next → ∃ size, 0 < size ∧ position cursor + size ≤ items.length ∧
    answer.1 = (items.drop (position cursor)).take size ∧ position (some next) = position cursor + size

variable {position : Option κ → Nat}

theorem pages_exhaust_after {items : List α}
    (advances : ∀ count cursor, Called call count cursor → Continues items position cursor (call count cursor))
    {count : Nat} {cursor : Option κ} (made : Called call count cursor) :
    ∃ pages, Pages call count cursor pages ∧ pages.flatten = items.drop (position cursor) := by
  -- the induction is on how much of the list is still behind the cursor
  induction remaining : items.length - position cursor using Nat.strongRecOn generalizing count cursor with
  | ind remaining ih =>
    obtain ⟨ends, goesOn⟩ := advances count cursor made
    cases answer : call count cursor with
    | mk page continuation =>
      rw [answer] at ends goesOn
      cases continuation with
      | none => exact ⟨[page], .last answer, by simpa using ends rfl⟩
      | some next =>
        obtain ⟨size, sized, fits, taken, moved⟩ := goesOn next rfl
        obtain ⟨pages, rest, restFlat⟩ := ih (items.length - position (some next)) (by omega) (.next made answer) rfl
        refine ⟨page :: pages, .more answer rest, ?_⟩
        simp only at taken
        rw [List.flatten_cons, restFlat, taken, moved, ← List.drop_drop, List.take_append_drop]

theorem pages_exhaust {items : List α} (start : position none = 0)
    (advances : ∀ count cursor, Called call count cursor → Continues items position cursor (call count cursor)) :
    ∃ pages, Pages call 0 none pages ∧ pages.flatten = items := by
  obtain ⟨pages, reached, flat⟩ := pages_exhaust_after advances .first
  exact ⟨pages, reached, by rw [flat, start, List.drop_zero]⟩

theorem no_pages {kind : Option κ → Prop}
    (comesBack : ∀ count cursor, kind cursor → ∃ page next, call count cursor = (page, some next) ∧ kind (some next))
    {count : Nat} {cursor : Option κ} (held : kind cursor) (pages : List (List α)) :
    ¬ Pages call count cursor pages := by
  intro reached
  induction reached with
  | last answer =>
    obtain ⟨page, next, again, _⟩ := comesBack _ _ held
    rw [answer] at again
    cases again
  | more answer rest ih =>
    obtain ⟨page, next, again, heldNext⟩ := comesBack _ _ held
    rw [answer] at again
    simp only [Prod.mk.injEq, Option.some.injEq] at again
    rw [← again.2] at heldNext
    exact ih heldNext

end

end Advance.Foundation
