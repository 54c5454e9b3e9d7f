import Mathlib.Data.List.DropRight

/-! # Logs that keep their newest entries

Appending to a log of capacity `n` keeps the last `n` entries.
-/

namespace Advance.Foundation.BoundedLog

variable {Entry View : Type*}

/-- Append an entry and keep the last `n`. -/
def push (n : Nat) (log : List Entry) (entry : Entry) : List Entry := (log ++ [entry]).rtake n

theorem rtake_suffix (n : Nat) (log : List Entry) : log.rtake n <:+ log :=
  List.drop_suffix _ log

variable {n : Nat}

theorem suffix_rtake {recent log : List Entry} (suffix : recent <:+ log)
    (fits : recent.length ≤ n) : recent <:+ log.rtake n := by
  obtain ⟨older, rfl⟩ := suffix
  have kept : (older ++ recent).length - n ≤ older.length := by
    rw [List.length_append]
    omega
  refine ⟨older.drop ((older ++ recent).length - n), ?_⟩
  rw [List.rtake, List.drop_append_of_le_length kept]

theorem suffix_push {recent log : List Entry} (entry : Entry) (suffix : recent <:+ log)
    (room : recent.length < n) : recent ++ [entry] <:+ push n log entry := by
  apply suffix_rtake
  · obtain ⟨older, rfl⟩ := suffix
    exact ⟨older, by simp⟩
  · rw [List.length_append, List.length_singleton]
    omega

theorem mem_push {log : List Entry} {entry kept : Entry}
    (member : kept ∈ push n log entry) : kept ∈ log ∨ kept = entry := by
  have inAll := (rtake_suffix n (log ++ [entry])).subset member
  simpa using inAll

theorem getLast?_push (log : List Entry) (entry : Entry) :
    (push (n + 1) log entry).getLast? = some entry := by
  rw [push, List.rtake_concat_succ, List.getLast?_append, List.getLast?_singleton]
  rfl

theorem map_push (view : Entry → View) (n : Nat) (log : List Entry) (entry : Entry) :
    (push n log entry).map view = push n (log.map view) (view entry) := by
  simp [push, List.rtake, List.map_drop]

end Advance.Foundation.BoundedLog
