import Mathlib.Logic.Relation

/-! # Commit graphs

Commits with parents and trees, and a test for ancestors that tells the truth about them.
-/

namespace Advance.Foundation

structure CommitGraph (Sha Tree : Type*) where
  parents : Sha → List Sha
  tree : Sha → Tree
  isAncestor : Sha → Sha → Bool
  truthful : ∀ early late, isAncestor early late = true ↔
    Relation.ReflTransGen (fun child parent => parent ∈ parents child) late early

namespace CommitGraph

variable {Sha Tree : Type*} (graph : CommitGraph Sha Tree)

@[simp] theorem isAncestor_self (commit : Sha) : graph.isAncestor commit commit = true :=
  (graph.truthful commit commit).mpr .refl

end CommitGraph

end Advance.Foundation
