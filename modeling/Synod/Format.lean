import Synod.Json.Form
import Synod.Record
import Synod.Retry

/-!
# Stored and transmitted forms

The JSON forms of proposals, messages, records and retry policies. A slot is its bare number and
a payload is a list of bytes. What may be absent in a value may be missing in its text.
-/
namespace Synod
open Json JsonForm

instance : JsonForm Slot where
  toJson s := toJson s.sequence
  ofJson? j := (ofJson? j).map Slot.mk

namespace ProposalId

def fieldNames : List String := ["round", "tiebreaker"]

instance : JsonForm ProposalId where
  toJson i := ofFields [("round", toJson i.round), ("tiebreaker", toJson i.tiebreaker)]
  ofJson? j := do
    match ← fields? fieldNames false j with
    | [round, tiebreaker] => return ⟨← required? round, ← required? tiebreaker⟩
    | _ => none

end ProposalId

namespace ProposalValue

def fieldNames : List String := ["proposal_id", "sequence", "payload"]

instance : JsonForm ProposalValue where
  toJson v := ofFields
    [("proposal_id", toJson v.id), ("sequence", toJson v.slot), ("payload", toJson v.payload)]
  ofJson? j := do
    match ← fields? fieldNames false j with
    | [id, slot, payload] => return ⟨← required? id, ← required? slot, ← required? payload⟩
    | _ => none

end ProposalValue

namespace Promise

def fieldNames : List String :=
  ["accepted", "proposal_id", "prior_accepted_id", "prior_accepted_value"]

instance : JsonForm Promise where
  toJson p := ofFields
    [("accepted", toJson p.accepted), ("proposal_id", toJson p.id),
      ("prior_accepted_id", toJson p.priorId), ("prior_accepted_value", toJson p.priorValue)]
  ofJson? j := do
    match ← fields? fieldNames false j with
    | [accepted, id, priorId, priorValue] =>
      return ⟨← required? accepted, ← required? id, ← orElse? none priorId,
        ← orElse? none priorValue⟩
    | _ => none

end Promise

namespace Acceptance

def fieldNames : List String := ["accepted", "promised_id"]

instance : JsonForm Acceptance where
  toJson a := ofFields [("accepted", toJson a.accepted), ("promised_id", toJson a.promised)]
  ofJson? j := do
    match ← fields? fieldNames false j with
    | [accepted, promised] => return ⟨← required? accepted, ← required? promised⟩
    | _ => none

end Acceptance

namespace AcceptorRecord

def fieldNames : List String := ["promised_id", "accepted"]

instance : JsonForm AcceptorRecord where
  toJson r := ofFields [("promised_id", toJson r.promised), ("accepted", toJson r.accepted)]
  ofJson? j := do
    match ← fields? fieldNames false j with
    | [promised, accepted] => return ⟨← required? promised, ← orElse? none accepted⟩
    | _ => none

end AcceptorRecord

namespace RetryPolicy

def fieldNames : List String := ["max_attempts", "initial_backoff_ms", "max_backoff_ms"]

/-- Whatever is missing is as in the default policy. -/
instance : JsonForm RetryPolicy where
  toJson p := ofFields
    [("max_attempts", toJson p.maxAttempts), ("initial_backoff_ms", toJson p.initialBackoff),
      ("max_backoff_ms", toJson p.maxBackoff)]
  ofJson? j := do
    match ← fields? fieldNames true j with
    | [maxAttempts, initialBackoff, maxBackoff] =>
      return ⟨← orElse? default.maxAttempts maxAttempts,
        ← orElse? default.initialBackoff initialBackoff, ← orElse? default.maxBackoff maxBackoff⟩
    | _ => none

end RetryPolicy
end Synod
