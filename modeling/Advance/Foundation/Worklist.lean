import Mathlib.Data.List.Nodup
import Mathlib.Data.List.Perm.Subperm
import Mathlib.Logic.Relation

/-! # Worklists

Visiting everything that can be reached: what is seen for the first time waits until it is visited,
and every visit may see more.  Elements wait in the order of a stack or of a queue.
-/

namespace Advance.Foundation

section

variable {α σ : Type*} [DecidableEq α]

/-- What has been seen, and what of it is still to be visited. -/
structure Frontier (α : Type*) where
  seen : List α
  pending : List α

namespace Frontier

/-- The start from distinct seeds: a stack visits the last one first. -/
def start (stack : Bool) (seeds : List α) : Frontier α :=
  ⟨seeds, if stack then seeds.reverse else seeds⟩

/-- An element that is new is seen and waits. -/
def discover (stack : Bool) (frontier : Frontier α) (x : α) : Frontier α :=
  if x ∈ frontier.seen then frontier
  else ⟨frontier.seen ++ [x], if stack then x :: frontier.pending else frontier.pending ++ [x]⟩

def discoverAll (stack : Bool) (frontier : Frontier α) (list : List α) : Frontier α :=
  list.foldl (discover stack) frontier

end Frontier

/-- The loop over what is pending, for a number of visits. -/
def explore (stack : Bool) (next : α → List α) (visit : σ → α → σ) : Nat → Frontier α → σ → List α × σ
  | 0, frontier, left => (frontier.seen, left)
  | fuel + 1, frontier, left =>
    match frontier.pending with
    | [] => (frontier.seen, left)
    | x :: pending =>
      explore stack next visit fuel (Frontier.discoverAll stack ⟨frontier.seen, pending⟩ (next x)) (visit left x)

/-! ## Discovering -/

namespace Frontier

variable {stack : Bool} {frontier : Frontier α} {list : List α} {x y : α}

theorem discover_cases (stack : Bool) (frontier : Frontier α) (x : α) :
    (x ∈ frontier.seen ∧ frontier.discover stack x = frontier) ∨
      (x ∉ frontier.seen ∧ (frontier.discover stack x).seen = frontier.seen ++ [x] ∧
        ((frontier.discover stack x).pending).Perm (x :: frontier.pending)) := by
  unfold discover
  split
  next old => exact .inl ⟨old, rfl⟩
  next new =>
    refine .inr ⟨new, rfl, ?_⟩
    cases stack with
    | true => exact List.Perm.refl _
    | false => exact List.perm_append_singleton x frontier.pending

theorem mem_discoverAll_seen : y ∈ (frontier.discoverAll stack list).seen ↔ y ∈ frontier.seen ∨ y ∈ list := by
  induction list generalizing frontier with
  | nil => simp [discoverAll]
  | cons x rest ih =>
    have step := @ih (frontier.discover stack x)
    rw [discoverAll, List.foldl_cons, ← discoverAll, step, List.mem_cons]
    rcases discover_cases stack frontier x with ⟨old, same⟩ | ⟨_, seen, _⟩
    · rw [same]
      constructor
      · rintro (held | later)
        · exact .inl held
        · exact .inr (.inr later)
      · rintro (held | rfl | later)
        · exact .inl held
        · exact .inl old
        · exact .inr later
    · rw [seen, List.mem_append, List.mem_singleton, or_assoc]

theorem mem_discoverAll_pending (waits : y ∈ (frontier.discoverAll stack list).pending) :
    y ∈ frontier.pending ∨ y ∈ list := by
  induction list generalizing frontier with
  | nil => exact .inl waits
  | cons x rest ih =>
    rw [discoverAll, List.foldl_cons, ← discoverAll] at waits
    rcases ih waits with before | later
    · rcases discover_cases stack frontier x with ⟨_, same⟩ | ⟨_, _, pending⟩
      · exact .inl (same ▸ before)
      · rcases List.mem_cons.mp (pending.mem_iff.mp before) with rfl | before
        · exact .inr List.mem_cons_self
        · exact .inl before
    · exact .inr (List.mem_cons_of_mem _ later)

theorem discoverAll_waits (waits : y ∈ frontier.pending ∨ (y ∈ list ∧ y ∉ frontier.seen)) :
    y ∈ (frontier.discoverAll stack list).pending := by
  induction list generalizing frontier with
  | nil => exact waits.elim id fun new => absurd new.1 List.not_mem_nil
  | cons x rest ih =>
    rw [discoverAll, List.foldl_cons, ← discoverAll]
    apply ih
    rcases discover_cases stack frontier x with ⟨old, same⟩ | ⟨_, seen, pending⟩
    · rw [same]
      rcases waits with before | ⟨member, new⟩
      · exact .inl before
      · rcases List.mem_cons.mp member with rfl | later
        · exact absurd old new
        · exact .inr ⟨later, new⟩
    · rcases waits with before | ⟨member, new⟩
      · exact .inl (pending.mem_iff.mpr (List.mem_cons_of_mem _ before))
      · by_cases same : y = x
        · exact .inl (pending.mem_iff.mpr (same ▸ List.mem_cons_self))
        · refine .inr ⟨(List.mem_cons.mp member).resolve_left same, ?_⟩
          simp [seen, new, same]

theorem discoverAll_nodup (distinct : frontier.seen.Nodup) : (frontier.discoverAll stack list).seen.Nodup := by
  induction list generalizing frontier with
  | nil => exact distinct
  | cons x rest ih =>
    rw [discoverAll, List.foldl_cons, ← discoverAll]
    apply ih
    rcases discover_cases stack frontier x with ⟨_, same⟩ | ⟨new, seen, _⟩
    · rwa [same]
    · rw [seen]
      exact List.nodup_append.mpr ⟨distinct, List.nodup_singleton x, by
        rintro y member z last rfl
        exact new (List.mem_singleton.mp last ▸ member)⟩

theorem discoverAll_length : (frontier.discoverAll stack list).seen.length + frontier.pending.length =
    frontier.seen.length + (frontier.discoverAll stack list).pending.length := by
  induction list generalizing frontier with
  | nil => rfl
  | cons x rest ih =>
    have step := @ih (frontier.discover stack x)
    rw [discoverAll, List.foldl_cons, ← discoverAll]
    rcases discover_cases stack frontier x with ⟨_, same⟩ | ⟨_, seen, pending⟩
    · rw [same] at step ⊢
      exact step
    · rw [seen, pending.length_eq, List.length_append, List.length_cons, List.length_singleton] at step
      omega

end Frontier

/-! ## The loop -/

/-- One element leads to another. -/
def Leads (next : α → List α) (x y : α) : Prop := y ∈ next x

/-- What holds of a frontier after the elements of `done` have been visited. -/
structure Explored (next : α → List α) (frontier : Frontier α) (done : List α) : Prop where
  distinct : frontier.seen.Nodup
  waiting : ∀ x ∈ frontier.pending, x ∈ frontier.seen
  visited : ∀ x ∈ frontier.seen, x ∈ frontier.pending ∨ x ∈ done
  closed : ∀ x ∈ done, x ∈ frontier.seen ∧ ∀ y ∈ next x, y ∈ frontier.seen

section

variable {next : α → List α} {done pending : List α}

theorem Explored.step (stack : Bool) {seen : List α} {x : α} (explored : Explored next ⟨seen, x :: pending⟩ done) :
    Explored next (Frontier.discoverAll stack ⟨seen, pending⟩ (next x)) (x :: done) where
  distinct := Frontier.discoverAll_nodup explored.distinct
  waiting y waits := by
    rw [Frontier.mem_discoverAll_seen]
    rcases Frontier.mem_discoverAll_pending waits with before | new
    · exact .inl (explored.waiting y (List.mem_cons_of_mem _ before))
    · exact .inr new
  visited y found := by
    by_cases old : y ∈ seen
    · rcases explored.visited y old with waits | earlier
      · rcases List.mem_cons.mp waits with rfl | waits
        · exact .inr List.mem_cons_self
        · exact .inl (Frontier.discoverAll_waits (.inl waits))
      · exact .inr (List.mem_cons_of_mem _ earlier)
    · have new : y ∈ next x := (Frontier.mem_discoverAll_seen.mp found).resolve_left old
      exact .inl (Frontier.discoverAll_waits (.inr ⟨new, old⟩))
  closed y visited := by
    simp only [Frontier.mem_discoverAll_seen]
    rcases List.mem_cons.mp visited with rfl | earlier
    · exact ⟨.inl (explored.waiting y List.mem_cons_self), fun z led => .inr led⟩
    · obtain ⟨found, leads⟩ := explored.closed y earlier
      exact ⟨.inl found, fun z led => .inl (leads z led)⟩

omit [DecidableEq α] in
theorem Explored.congr {frontier : Frontier α} {other : List α} (explored : Explored next frontier done)
    (same : ∀ x, x ∈ done ↔ x ∈ other) : Explored next frontier other where
  distinct := explored.distinct
  waiting := explored.waiting
  visited x found := (explored.visited x found).imp_right (same x).mp
  closed x visited := explored.closed x ((same x).mpr visited)

theorem explore_spec (stack : Bool) (visit : σ → α → σ) (left : σ) {bound : List α}
    (bounded : ∀ x ∈ bound, ∀ y ∈ next x, y ∈ bound) {fuel : Nat} {frontier : Frontier α}
    (explored : Explored next frontier done) (within : ∀ x ∈ frontier.seen, x ∈ bound)
    (enough : bound.length + frontier.pending.length ≤ fuel + frontier.seen.length) :
    ∃ visited : List α, (explore stack next visit fuel frontier left).2 = visited.foldl visit left ∧
      Explored next ⟨(explore stack next visit fuel frontier left).1, []⟩ (visited ++ done) ∧
      (∀ x ∈ frontier.seen, x ∈ (explore stack next visit fuel frontier left).1) ∧
      ∀ y ∈ (explore stack next visit fuel frontier left).1,
        ∃ x ∈ frontier.seen, Relation.ReflTransGen (Leads next) x y := by
  induction fuel generalizing frontier left done with
  | zero =>
    -- everything bounded has been seen, so nothing can be pending
    have seen_le : frontier.seen.length ≤ bound.length :=
      (List.subperm_of_subset explored.distinct within).length_le
    have none_pending : frontier.pending = [] := List.length_eq_zero_iff.mp (by omega)
    refine ⟨[], rfl, ?_, fun x found => found, fun y found => ⟨y, found, .refl⟩⟩
    have whole : frontier = ⟨frontier.seen, []⟩ := by
      cases frontier
      simp_all
    exact whole ▸ explored
  | succ fuel ih =>
    obtain ⟨seen, pending⟩ := frontier
    cases pending with
    | nil => exact ⟨[], rfl, explored, fun x found => found, fun y found => ⟨y, found, .refl⟩⟩
    | cons x pending =>
      have found : x ∈ seen := explored.waiting x List.mem_cons_self
      have lengths := @Frontier.discoverAll_length _ _ stack ⟨seen, pending⟩ (next x)
      simp only [List.length_cons] at enough lengths
      obtain ⟨visited, result, ended, kept, sound⟩ := ih (visit left x) (explored.step stack) (by
          intro y new
          rcases Frontier.mem_discoverAll_seen.mp new with old | led
          · exact within y old
          · exact bounded x (within x found) y led) (by omega)
      refine ⟨x :: visited, result, ended.congr fun y => ?_, fun y old => ?_, fun y reached => ?_⟩
      · simp only [List.mem_append, List.cons_append, List.mem_cons]
        tauto
      · exact kept y (Frontier.mem_discoverAll_seen.mpr (.inl old))
      · obtain ⟨z, new, path⟩ := sound y reached
        rcases Frontier.mem_discoverAll_seen.mp new with old | led
        · exact ⟨z, old, path⟩
        · exact ⟨x, found, .head led path⟩

omit [DecidableEq α] in
theorem explored_start (stack : Bool) {seeds : List α} (distinct : seeds.Nodup) :
    Explored next (Frontier.start stack seeds) [] := by
  have pending : ∀ x, x ∈ (Frontier.start stack seeds).pending ↔ x ∈ seeds := by
    intro x
    cases stack <;> simp [Frontier.start]
  exact
    { distinct := distinct
      waiting := fun x waits => (pending x).mp waits
      visited := fun x found => .inl ((pending x).mpr found)
      closed := fun x visited => absurd visited List.not_mem_nil }

/-- What the loop sees from its seeds, and what it visits. -/
theorem explore_start (stack : Bool) (visit : σ → α → σ) (left : σ) {bound seeds : List α}
    (bounded : ∀ x ∈ bound, ∀ y ∈ next x, y ∈ bound) {fuel : Nat} (distinct : seeds.Nodup) (within : ∀ x ∈ seeds, x ∈ bound) (enough : bound.length ≤ fuel) :
    (∀ y, y ∈ (explore stack next visit fuel (.start stack seeds) left).1 ↔
      ∃ x ∈ seeds, Relation.ReflTransGen (Leads next) x y) ∧
      ∃ visited : List α, (explore stack next visit fuel (.start stack seeds) left).2 = visited.foldl visit left ∧
        ∀ y, y ∈ visited ↔ y ∈ (explore stack next visit fuel (.start stack seeds) left).1 := by
  have steps : bound.length + (Frontier.start stack seeds).pending.length ≤
      fuel + (Frontier.start stack seeds).seen.length := by
    cases stack <;> simpa [Frontier.start] using enough
  obtain ⟨visited, result, ended, kept, sound⟩ := explore_spec stack visit left bounded
    (explored_start stack distinct) within steps
  rw [List.append_nil] at ended
  refine ⟨fun y => ⟨sound y, ?_⟩, visited, result, fun y => ?_⟩
  · -- what has been seen is visited, so the seen elements are closed under leading
    rintro ⟨x, seed, path⟩
    induction path with
    | refl => exact kept x seed
    | tail _ led ih =>
      have reached := (ended.visited _ ih).resolve_left List.not_mem_nil
      exact (ended.closed _ reached).2 _ led
  · exact ⟨fun reached => (ended.closed y reached).1,
      fun found => (ended.visited y found).resolve_left List.not_mem_nil⟩

end

end

end Advance.Foundation
