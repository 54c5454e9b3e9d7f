import Advance.Archive.ManifestAgreement
import Advance.JavaScript.CanonicalForm

/-! # Canonical digests

Specs, requirements, delta sets, manifests and reconcile plans are compared by
their canonical texts and by the digests of these.
-/

namespace Advance.Archive

open JavaScript
open Types

section

variable (platform : Platform)

/-- The digest of a reconcile plan without its own hash. -/
def hashPlan (value : JsVal) : SHA256Digest := platform.sha256 (planBytes platform.localeCompare value)

/-- The texts and digests of two values are the same exactly when the values are. -/
structure Identified (value other : JsVal) : Prop where
  bytes : canonicalBytes platform.localeCompare value = canonicalBytes platform.localeCompare other ↔
    SameJson value other
  planBytes : planBytes platform.localeCompare value = planBytes platform.localeCompare other ↔ SameJson value other
  digest : DigestsTellApart platform {value, other} →
    (canonicalSha256 platform value = canonicalSha256 platform other ↔ SameJson value other)
  planHash : DigestsTellApart platform {value, other} →
    (hashPlan platform value = hashPlan platform other ↔ SameJson value other)

variable {platform}

theorem digest_eq_iff {value other : JsVal} (apart : DigestsTellApart platform {value, other}) :
    canonicalSha256 platform value = canonicalSha256 platform other ↔
      canonicalBytes platform.localeCompare value = canonicalBytes platform.localeCompare other := by
  constructor
  · intro same
    exact apart (Set.mem_image_of_mem _ (by simp)) (Set.mem_image_of_mem _ (by simp)) same
  · intro same
    exact congrArg platform.sha256 same

theorem hashPlan_eq [Std.TransCmp platform.localeCompare] (value : JsVal) :
    hashPlan platform value = canonicalSha256 platform value :=
  congrArg platform.sha256 (planBytes_eq value)

theorem identified_of_bytes [Std.TransCmp platform.localeCompare] {value other : JsVal}
    (bytes : canonicalBytes platform.localeCompare value = canonicalBytes platform.localeCompare other ↔
      SameJson value other) : Identified platform value other where
  bytes := bytes
  planBytes := by rw [planBytes_eq, planBytes_eq, bytes]
  digest := fun apart => (digest_eq_iff apart).trans bytes
  planHash := fun apart => by rw [hashPlan_eq, hashPlan_eq, digest_eq_iff apart, bytes]

/-- A value is identified among all JSON values just if no object of it, at any depth, has two different
    keys besides array indices that the key comparison ties. -/
theorem canonical_iff [Std.TransCmp platform.localeCompare] {value : JsVal} (json : JsonValue value) :
    (∀ other, JsonValue other → Identified platform value other) ↔ Untied platform.localeCompare value.toJson := by
  rw [← canonicalBytes_exact_iff json]
  constructor
  · intro identified other jsonOther
    exact (identified other jsonOther).bytes
  · intro bytes other jsonOther
    exact identified_of_bytes (bytes other jsonOther)

end

/-! ## Fixed runs -/

def plainMembers : JsVal := .obj [("title", .str "Search"), ("id", .str "rq-search01")]

theorem plainMembers_json : JsonValue plainMembers := by
  refine ⟨by decide, ?_, ⟨.inr trivial, ⟨.inr trivial, trivial⟩⟩⟩
  decide

theorem plainMembers_untied : Untied localePlatform.localeCompare plainMembers.toJson := by
  refine ⟨?_, trivial, trivial, trivial⟩
  unfold TieFree
  decide

theorem plain_members_identified : JsonValue plainMembers ∧
    ∀ other, JsonValue other → Identified localePlatform plainMembers other :=
  have _trans := localePlatform_trans
  ⟨plainMembers_json, (canonical_iff plainMembers_json).mpr plainMembers_untied⟩

def accentedMembers : JsVal := .obj [("\u00e9", .num 1), ("e\u0301", .num 2)]

def accentedSwapped : JsVal := .obj [("e\u0301", .num 2), ("\u00e9", .num 1)]

/-- Keys that tie stand in the text in the order they were added. -/
theorem accented_members_differ : Std.TransCmp localePlatform.localeCompare ∧
    ¬ ∀ value other, JsonValue value → JsonValue other → Identified localePlatform value other := by
  refine ⟨localePlatform_trans, fun identified => ?_⟩
  have json : JsonValue accentedMembers ∧ JsonValue accentedSwapped := by
    refine ⟨⟨by decide, ?_, ⟨.inr trivial, ⟨.inr trivial, trivial⟩⟩⟩,
      ⟨by decide, ?_, ⟨.inr trivial, ⟨.inr trivial, trivial⟩⟩⟩⟩
    · decide
    · decide
  have same : SameJson accentedMembers accentedSwapped := .obj (List.Perm.swap _ _ _) (SameMembers.refl _)
  have texts := (identified _ _ json.1 json.2).bytes.mpr same
  have differ : canonicalBytes localePlatform.localeCompare accentedMembers ≠
      canonicalBytes localePlatform.localeCompare accentedSwapped := by decide
  exact differ texts

end Advance.Archive
