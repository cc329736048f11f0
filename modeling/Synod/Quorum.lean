import Synod.Failure

/-!
# Quorums

How many acceptors each phase of a round needs. Two prepare quorums always share an acceptor,
and so does every accept quorum with every prepare quorum: this is `Quorum.Safe`, a part of the
type. `Quorum.fault?` checks thresholds with word arithmetic and names the first thing wrong.
-/
namespace Synod

namespace Quorum

/-- Thresholds that can be met, and whose quorums meet each other where they have to. -/
structure Safe (acceptors prepare accept : UInt64) : Prop where
  prepare_le : prepare ≤ acceptors
  accept_le : accept ≤ acceptors
  prepares_meet : acceptors.toNat < 2 * prepare.toNat
  phases_meet : acceptors.toNat < prepare.toNat + accept.toNat

end Quorum

/-- Safe phase thresholds for a fixed number of acceptors. -/
structure Quorum where
  acceptors : UInt64
  prepare : UInt64
  accept : UInt64
  safe : Quorum.Safe acceptors prepare accept
  deriving DecidableEq

namespace Quorum

/-- What is wrong with some thresholds. The numbers that the last two checks compare may leave
the words, which is a fault of its own. -/
def fault? (acceptors prepare accept : UInt64) : Option Fault :=
  if acceptors = 0 then some (.failure (.invalidConfig .noAcceptors))
  else if prepare = 0 ∨ accept = 0 ∨ acceptors < prepare ∨ acceptors < accept then
    some (.failure (.invalidConfig (.outOfRange prepare accept acceptors)))
  else
    match Word.mul 2 prepare with
    | .error o => some (.overflow o)
    | .ok twice =>
      if twice ≤ acceptors then
        some (.failure (.invalidConfig (.preparesDisjoint prepare acceptors)))
      else
        match Word.add prepare accept with
        | .error o => some (.overflow o)
        | .ok both =>
          if both ≤ acceptors then
            some (.failure (.invalidConfig (.phasesDisjoint prepare accept acceptors)))
          else none

theorem safe_of_fault?_eq_none {acceptors prepare accept : UInt64}
    (h : fault? acceptors prepare accept = none) : Safe acceptors prepare accept := by
  unfold fault? at h
  split at h
  · cases h
  split at h
  · cases h
  rename_i hrange
  simp only [not_or, UInt64.not_lt] at hrange
  split at h
  · cases h
  rename_i twice htwice
  split at h
  · cases h
  rename_i hprepare
  split at h
  · cases h
  rename_i both hboth
  split at h
  · cases h
  rename_i haccept
  have htwice : twice.toNat = 2 * prepare.toNat := Word.toNat_of_mul_eq_ok htwice
  have hboth : both.toNat = prepare.toNat + accept.toNat := Word.toNat_of_add_eq_ok hboth
  rw [UInt64.not_le, UInt64.lt_iff_toNat_lt] at hprepare haccept
  exact ⟨hrange.2.2.1, hrange.2.2.2, by omega, by omega⟩

/-- The thresholds, if nothing is wrong with them. -/
def ofThresholds (acceptors prepare accept : UInt64) : Except Fault Quorum :=
  match h : fault? acceptors prepare accept with
  | some e => .error e
  | none => .ok ⟨acceptors, prepare, accept, safe_of_fault?_eq_none h⟩

/-- The least threshold that is more than half, for both phases. -/
def majority (acceptors : UInt64) : Except Fault Quorum :=
  ofThresholds acceptors (acceptors / 2 + 1) (acceptors / 2 + 1)

/-- All of a single acceptor. -/
def single : Quorum := ⟨1, 1, 1, ⟨by decide, by decide, by decide, by decide⟩⟩

end Quorum
end Synod
