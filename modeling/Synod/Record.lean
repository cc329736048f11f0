import Synod.Message

/-!
# Acceptor records

What an acceptor must not forget about a slot: the highest id it has promised and the last
value it has accepted. A `Reply` is what a request does to one such record, worked out before
anything is written: the answer, and the record that has to be durable before it is given.
-/
namespace Synod

structure AcceptorRecord where
  promised : ProposalId
  accepted : Option ProposalValue
  deriving DecidableEq, Repr

def AcceptorRecord.acceptedId (r : AcceptorRecord) : Option ProposalId :=
  r.accepted.map (·.id)

/-- An answer, and the record to write before giving it. -/
structure Reply (α : Type) where
  answer : α
  write : Option AcceptorRecord
  deriving DecidableEq, Repr

namespace Reply

/-- An id is promised unless one at least as high has been promised before. A new promise keeps
the accepted value and reports it. -/
def toPrepare (current : Option AcceptorRecord) (id : ProposalId) : Reply Promise :=
  let prior := current.bind (·.accepted)
  let promise : Reply Promise := ⟨Promise.give id prior, some ⟨id, prior⟩⟩
  match current with
  | none => promise
  | some r => if id ≤ r.promised then ⟨Promise.refuse r.promised, none⟩ else promise

/-- A value is accepted unless a higher id has been promised. The value already held is
acknowledged again without a write. -/
def toAccept (current : Option AcceptorRecord) (value : ProposalValue) : Reply Acceptance :=
  let acceptance : Reply Acceptance := ⟨⟨true, value.id⟩, some ⟨value.id, some value⟩⟩
  match current with
  | none => acceptance
  | some r =>
    if value.id < r.promised then ⟨⟨false, r.promised⟩, none⟩
    else if r.accepted = some value then ⟨⟨true, r.promised⟩, none⟩
    else acceptance

end Reply
end Synod
