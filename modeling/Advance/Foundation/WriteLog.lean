import Mathlib.Data.List.Induction
import Mathlib.Data.List.Nodup
import Mathlib.Order.Basic

/-! # Logs of versioned writes

Writers read a store and later write to it.  A log lists who wrote, in the order of
the writes, with the version the writer had read; `replay` applies the writes in that
order and refuses one that is not made on the version it was read at.
-/

namespace Advance.Foundation

structure LoggedWrite (Writer Version : Type*) where
  writer : Writer
  base : Version

section

variable {Writer Store Version : Type*}

variable {log : List (LoggedWrite Writer Version)}

theorem base_unique [Preorder Version] (ascending : log.Pairwise fun earlier later => earlier.base < later.base)
    {left right : LoggedWrite Writer Version} (first : left ∈ log) (second : right ∈ log)
    (same : left.base = right.base) : left = right := by
  have distinct : (log.map LoggedWrite.base).Nodup :=
    List.pairwise_map.mpr (ascending.imp fun below => below.ne)
  exact List.inj_on_of_nodup_map distinct first second same

variable [DecidableEq Version]
variable (apply : Writer → Store → Option Store) (version : Store → Version)

def replayWrite (store : Store) (write : LoggedWrite Writer Version) : Option Store :=
  if version store = write.base then apply write.writer store else none

def replay (log : List (LoggedWrite Writer Version)) (store : Store) : Option Store :=
  log.foldlM (replayWrite apply version) store

/-- Whatever the write makes of a store at its version is at a later one. -/
def Advances [LT Version] (write : LoggedWrite Writer Version) : Prop :=
  ∀ store next, version store = write.base → apply write.writer store = some next → write.base < version next

variable {apply version}

@[simp] theorem replay_nil (store : Store) : replay apply version [] store = some store := rfl

variable {write : LoggedWrite Writer Version}

theorem replay_concat {start store next : Store} (replayed : replay apply version log start = some store)
    (current : version store = write.base) (applied : apply write.writer store = some next) :
    replay apply version (log ++ [write]) start = some next := by
  rw [replay] at replayed ⊢
  rw [List.foldlM_append, replayed]
  simp [replayWrite, current, applied]

theorem replay_concat_some {start next : Store}
    (replayed : replay apply version (log ++ [write]) start = some next) :
    ∃ store, replay apply version log start = some store ∧ version store = write.base ∧
      apply write.writer store = some next := by
  rw [replay, List.foldlM_append] at replayed
  obtain ⟨store, before, last⟩ := Option.bind_eq_some_iff.mp replayed
  refine ⟨store, before, ?_⟩
  simpa [replayWrite] using last

/-- The versions written on ascend, and stay below the version of the store. -/
theorem replay_ascending [Preorder Version]
    {start store : Store} (replayed : replay apply version log start = some store)
    (moving : ∀ write ∈ log, Advances apply version write) :
    log.Pairwise (fun earlier later => earlier.base < later.base) ∧ ∀ write ∈ log, write.base < version store := by
  induction log using List.reverseRecOn generalizing store with
  | nil => exact ⟨.nil, fun _ member => nomatch member⟩
  | append_singleton log last ih =>
    obtain ⟨found, before, current, applied⟩ := replay_concat_some replayed
    obtain ⟨ascending, below⟩ := ih before fun write member =>
      moving write (List.mem_append_left _ member)
    have moved := moving last (by simp) found store current applied
    refine ⟨?_, ?_⟩
    · refine List.pairwise_append.mpr ⟨ascending, List.pairwise_singleton _ _, ?_⟩
      intro write member later isLast
      rw [List.mem_singleton.mp isLast, ← current]
      exact below write member
    · intro write member
      rcases List.mem_append.mp member with earlier | isLast
      · exact (below write earlier).trans (current ▸ moved)
      · rw [List.mem_singleton.mp isLast]
        exact moved

end

end Advance.Foundation
