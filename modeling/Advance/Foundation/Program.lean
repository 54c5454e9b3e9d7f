import Mathlib.Logic.Function.Basic

/-! # Programs of atomic store actions

A program acts on a store one atomic action after another; the next action may
depend on the store an action found.
-/

namespace Advance.Foundation

inductive Program (Store Result : Type) where
  | finish (result : Result)
  | act (update : Store → Store) (next : Store → Program Store Result)

/-- A part of a store that can be read and replaced on its own. -/
structure Component (Whole Part : Type) where
  get : Whole → Part
  put : Part → Whole → Whole
  get_put : ∀ part whole, get (put part whole) = part
  put_get : ∀ whole, put (get whole) whole = whole
  put_put : ∀ part other whole, put part (put other whole) = put part whole

namespace Program

variable {Store Part Middle Result : Type}

def run : Program Store Result → Store → Result × Store
  | finish result, store => (result, store)
  | act update next, store => (next store).run (update store)

def look (next : Store → Program Store Result) : Program Store Result := act id next

/-- One program, then another that knows its result. -/
def andThen : Program Store Middle → (Middle → Program Store Result) → Program Store Result
  | finish result, next => next result
  | act update rest, next => act update fun store => (rest store).andThen next

/-- The same actions on a part of the store. -/
def within (component : Component Store Part) : Program Part Result → Program Store Result
  | finish result => finish result
  | act update next =>
    act (fun store => component.put (update (component.get store)) store)
      fun store => within component (next (component.get store))

def visited : Program Store Result → Store → List Store
  | finish _, _ => []
  | act update next, store => update store :: (next store).visited (update store)

/-- The store after the first actions, or after all where there are fewer. -/
def interrupted : Program Store Result → Nat → Store → Store
  | finish _, _, store => store
  | act _ _, 0, store => store
  | act update next, actions + 1, store => (next store).interrupted actions (update store)

@[simp] theorem run_finish (result : Result) (store : Store) : (finish result).run store = (result, store) := rfl

@[simp] theorem run_act (update : Store → Store) (next : Store → Program Store Result)
    (store : Store) : (act update next).run store = (next store).run (update store) := rfl

@[simp] theorem run_look (next : Store → Program Store Result) (store : Store) :
    (look next).run store = (next store).run store := rfl

@[simp] theorem visited_finish (result : Result) (store : Store) : (finish result).visited store = [] := rfl

@[simp] theorem visited_look (next : Store → Program Store Result) (store : Store) :
    (look next).visited store = store :: (next store).visited store := rfl

@[simp] theorem run_andThen (program : Program Store Middle) (next : Middle → Program Store Result) (store : Store) :
    (program.andThen next).run store = (next (program.run store).1).run (program.run store).2 := by
  induction program generalizing store with
  | finish result => rfl
  | act update rest ih => exact ih store (update store)

@[simp] theorem run_within (component : Component Store Part) (program : Program Part Result) (store : Store) :
    (program.within component).run store =
      ((program.run (component.get store)).1, component.put (program.run (component.get store)).2 store) := by
  induction program generalizing store with
  | finish result => simp [within, component.put_get]
  | act update next ih =>
    simp only [within, run_act, ih, component.get_put, component.put_put]

theorem visited_andThen (program : Program Store Middle) (next : Middle → Program Store Result) (store : Store) :
    (program.andThen next).visited store =
      program.visited store ++ (next (program.run store).1).visited (program.run store).2 := by
  induction program generalizing store with
  | finish result => rfl
  | act update rest ih =>
    simp only [andThen, visited, run_act, List.cons_append]
    rw [ih]

theorem visited_within (component : Component Store Part) (program : Program Part Result) (store : Store) :
    (program.within component).visited store =
      (program.visited (component.get store)).map fun part => component.put part store := by
  induction program generalizing store with
  | finish result => rfl
  | act update next ih =>
    simp only [within, visited, ih, component.get_put, component.put_put, List.map_cons]

theorem interrupted_mem (program : Program Store Result) (actions : Nat) (store : Store) :
    program.interrupted actions store ∈ store :: program.visited store := by
  induction program generalizing actions store with
  | finish result => exact List.mem_cons_self
  | act update next ih =>
    cases actions with
    | zero => exact List.mem_cons_self
    | succ actions =>
      have later := ih store actions (update store)
      exact List.mem_cons_of_mem _ later

theorem visited_interrupted {program : Program Store Result} {store passed : Store}
    (member : passed ∈ program.visited store) : ∃ actions, program.interrupted actions store = passed := by
  induction program generalizing store with
  | finish result => cases member
  | act update next ih =>
    rcases List.mem_cons.mp member with same | later
    · refine ⟨1, ?_⟩
      show (next store).interrupted 0 (update store) = passed
      rw [same]
      cases next store <;> rfl
    · obtain ⟨actions, here⟩ := ih store later
      exact ⟨actions + 1, here⟩

theorem run_mem (program : Program Store Result) (store : Store) :
    (program.run store).2 ∈ store :: program.visited store := by
  induction program generalizing store with
  | finish result => exact List.mem_cons_self
  | act update next ih =>
    have later := ih store (update store)
    exact List.mem_cons_of_mem _ later

theorem interrupted_within (component : Component Store Part) (program : Program Part Result)
    (actions : Nat) (store : Store) : (program.within component).interrupted actions store =
      component.put (program.interrupted actions (component.get store)) store := by
  induction program generalizing actions store with
  | finish result => simp [within, interrupted, component.put_get]
  | act update next ih =>
    cases actions with
    | zero => simp [within, interrupted, component.put_get]
    | succ actions => simp only [within, interrupted, ih, component.get_put, component.put_put]

theorem interrupted_finishing {next : Middle → Program Store Result}
    (finishes : ∀ middle, ∃ result, next middle = finish result) (program : Program Store Middle)
    (actions : Nat) (store : Store) :
    (program.andThen next).interrupted actions store = program.interrupted actions store := by
  induction program generalizing actions store with
  | finish middle =>
    obtain ⟨result, atOnce⟩ := finishes middle
    simp only [andThen, atOnce, interrupted]
  | act update rest ih =>
    cases actions with
    | zero => rfl
    | succ actions => exact ih store actions (update store)

end Program

end Advance.Foundation
