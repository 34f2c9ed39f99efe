import AgentStack.Core.Catalog
import AgentStack.RefGraph.Lineage

/-! Single-inheritance profiles: the chain of a profile, and what it adds up to. -/
namespace AgentStack.Core

open JsonText JsonValue KeyedList RefGraph

def profileFields : List String :=
  ["schema_id", "schema_version", "id", "extends", "route_admission", "bindings", "skills",
    "artifact_policy", "default_platforms", "required_capabilities", "approval_policy",
    "provider_security_policy"]

def profileFailure (message : String) (details : List (String × String)) : Failure :=
  ⟨.core, "AWP_PROFILE_INVALID", message, details⟩

section Dictionaries

variable {α : Type}

end Dictionaries

/-! ### Sources -/

def validateSource (source : Members) : Except Failure String := do
  let unknown := unknownFields source profileFields
  check (unknown = []) (profileFailure "unknown profile fields" [("fields", joinTexts unknown)])
  check (isString (getField source "schema_id") "agent-workflow.profile")
    (profileFailure "profile schema_id is invalid" [])
  check (isOne (getField source "schema_version"))
    (profileFailure "profile schema_version is unsupported" [])
  let profileId ← require ((stringValue? (getField source "id")).filter (· ≠ ""))
    (profileFailure "profile id is invalid" [])
  match getField source "extends" with
  | .null => return profileId
  | extended =>
    let _ ← require ((stringValue? extended).filter (· ≠ ""))
      (profileFailure "profile extends must be a profile id" [])
    return profileId

/-- A source under its id; `seen` are the ids of the sources before. -/
def identifySource (seen : List String) (source : Members) :
    Except Failure (String × Members) := do
  let profileId ← validateSource source
  check (profileId ∉ seen)
    (profileFailure "duplicate profile id" [("profile_id", profileId)])
  return (profileId, source)

variable {nfc : String → String} {source : Members} {sources : List (String × Members)}
  {profileSources : List Members}

/-- The sources under their ids. -/
structure Identified (profileSources : List Members) (sources : List (String × Members)) :
    Prop where
  ids : (sources.map Prod.fst).Nodup
  valid : List.Forall₂ (fun source entry => identifySource [] source = .ok entry) profileSources
    sources

theorem Identified.length (h : Identified profileSources sources) :
    sources.length = profileSources.length := h.valid.length_eq.symm

end AgentStack.Core
