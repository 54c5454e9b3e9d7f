import Mathlib.Order.WellFounded
import Mathlib.Logic.Relation
import Mathlib.Data.Set.Finite.Basic
import Mathlib.Data.Fintype.Card

/-! # Cycles of a relation

A relation is read as edges from a node to what it depends on.
-/

namespace Advance.Foundation

open Relation

variable {α : Type*} {r : α → α → Prop}

/-- No node depends on itself, however indirectly. -/
def Acyclic (r : α → α → Prop) : Prop := ∀ node, ¬ TransGen r node node

def ReachesCycle (r : α → α → Prop) (node : α) : Prop :=
  ∃ other, ReflTransGen r node other ∧ TransGen r other other

theorem ReachesCycle.before {node other : α} (edge : r node other) (reaches : ReachesCycle r other) :
    ReachesCycle r node := by
  obtain ⟨last, path, cycle⟩ := reaches
  exact ⟨last, .head edge path, cycle⟩

theorem acyclic_iff_not_reachesCycle : Acyclic r ↔ ∀ node, ¬ ReachesCycle r node := by
  constructor
  · rintro acyclic node ⟨other, _, cycle⟩
    exact acyclic other cycle
  · intro free node cycle
    exact free node ⟨node, .refl, cycle⟩

theorem acyclic_of_rank (rank : α → ℕ) (lower : ∀ a b, r a b → rank b < rank a) : Acyclic r := by
  have descends : ∀ a b, TransGen r a b → rank b < rank a := by
    intro a b path
    induction path with
    | single edge => exact lower _ _ edge
    | tail _ edge ih => exact (lower _ _ edge).trans ih
  exact fun node cycle => lt_irrefl _ (descends node node cycle)

theorem acyclic_mono {s : α → α → Prop} (acyclic : Acyclic s) (fewer : ∀ a b, r a b → s a b) : Acyclic r :=
  fun node cycle => acyclic node (TransGen.mono fewer _ _ cycle)

theorem acyclic_keyed_iff {β : Type*} {key : α → β} {keyed : β → β → Prop}
    (named : ∀ x y, keyed x y ↔ ∃ a b, key a = x ∧ key b = y ∧ r a b)
    (apart : ∀ a b c d, r a b → r c d → key b = key c → b = c) : Acyclic r ↔ Acyclic keyed := by
  constructor
  · intro acyclic x cycle
    have read : ∀ {y}, TransGen keyed x y → ∃ a b, key a = x ∧ key b = y ∧ TransGen r a b := by
      intro y path
      induction path with
      | single edge =>
        obtain ⟨a, b, first, last, edge⟩ := (named _ _).mp edge
        exact ⟨a, b, first, last, .single edge⟩
      | tail _ edge ih =>
        obtain ⟨a, b, first, middle, path⟩ := ih
        obtain ⟨c, d, again, last, edge⟩ := (named _ _).mp edge
        obtain ⟨_, _, before⟩ := TransGen.tail'_iff.mp path
        obtain rfl := apart _ b c d before edge (middle.trans again.symm)
        exact ⟨a, d, first, last, path.tail edge⟩
    obtain ⟨a, b, first, last, path⟩ := read cycle
    obtain ⟨_, edge, _⟩ := TransGen.head'_iff.mp path
    obtain ⟨_, _, before⟩ := TransGen.tail'_iff.mp path
    obtain rfl := apart _ b a _ before edge (last.trans first.symm)
    exact acyclic b path
  · intro acyclic node cycle
    refine acyclic (key node) (TransGen.lift key (fun a b edge => ?_) _ _ cycle)
    exact (named _ _).mpr ⟨a, b, rfl, rfl, edge⟩

theorem not_transGen_of_acc {node : α} (bottoms : Acc (flip r) node) : ¬ TransGen r node node := by
  have lower : Acc (flip (TransGen r)) node := by
    have swapped : Acc (TransGen (flip r)) node := bottoms.transGen
    have same : flip (TransGen r) = TransGen (flip r) := by
      funext a b
      exact propext transGen_swap.symm
    rwa [same]
  clear bottoms
  induction lower with
  | intro node _ ih => exact fun cycle => ih node cycle cycle

theorem not_reachesCycle_of_acc {node : α} (bottoms : Acc (flip r) node) : ¬ ReachesCycle r node := by
  rintro ⟨other, path, cycle⟩
  induction path with
  | refl => exact not_transGen_of_acc bottoms cycle
  | @tail middle other path edge ih =>
    -- The accessibility of the start passes along the path.
    have along : Acc (flip r) middle := by
      clear ih cycle edge
      induction path with
      | refl => exact bottoms
      | tail _ edge ih => exact ih.inv edge
    exact not_transGen_of_acc (along.inv edge) cycle

section

variable {nodes : Set α} (finite : nodes.Finite) (closed : ∀ a ∈ nodes, ∀ b, r a b → b ∈ nodes) {node : α}
  (inside : node ∈ nodes)
include nodes finite closed node inside

theorem acc_of_not_reachesCycle (free : ¬ ReachesCycle r node) : Acc (flip r) node := by
  let Reached := { other // ReflTransGen r node other }
  have held : ∀ other, ReflTransGen r node other → other ∈ nodes := by
    intro other path
    induction path with
    | refl => exact inside
    | tail _ edge ih => exact closed _ ih _ edge
  have few : Finite Reached := (finite.subset fun other path => held other path).to_subtype
  have transitive : IsTrans Reached fun a b => TransGen r b.1 a.1 := ⟨fun _ _ _ first second => second.trans first⟩
  have irreflexive : Std.Irrefl fun a b : Reached => TransGen r b.1 a.1 :=
    ⟨fun a cycle => free ⟨a.1, a.2, cycle⟩⟩
  have wellFounded : WellFounded fun a b : Reached => TransGen r b.1 a.1 :=
    Finite.wellFounded_of_trans_of_irrefl _
  have each : ∀ a : Reached, Acc (flip r) a.1 := by
    intro a
    induction a using wellFounded.induction with
    | _ a ih =>
      refine ⟨_, fun other edge => ?_⟩
      exact ih ⟨other, a.2.tail edge⟩ (.single edge)
  exact each ⟨node, .refl⟩

theorem acc_iff_not_reachesCycle : Acc (flip r) node ↔ ¬ ReachesCycle r node :=
  ⟨not_reachesCycle_of_acc, acc_of_not_reachesCycle finite closed inside⟩

end

end Advance.Foundation
