import Mathlib.Tactic.Lemma
import Synod.Config
import Synod.Proofs.Thresholds

/-!
# What comes of loading a configuration

A file of whatever bytes is loaded, or refused because it cannot be read, because its text is of no
configuration or because of its thresholds. Only thresholds too large to be checked in words break
the loading off, and that takes `2 ^ 63` nodes.
-/
namespace Synod.Config
open JsonForm

/-- The configuration that a file has the text of, whatever its thresholds are. -/
def written? (file : Option (List UInt8)) : Option Config :=
  file.bind fun bytes => (Text.ofBytes? bytes).bind fun _ => read? bytes

theorem load_of_written {file : Option (List UInt8)} {c : Config} (h : written? file = some c) :
    load file = c.quorum.map fun _ => c := by
  obtain ⟨bytes, rfl, htext⟩ := Option.bind_eq_some_iff.mp h
  obtain ⟨_, hof, hread⟩ := Option.bind_eq_some_iff.mp htext
  simp only [load, hof, hread]

lemma written?_toBytes {text : String} {c : Config} (h : read? (Text.toBytes text) = some c) :
    written? (some (Text.toBytes text)) = some c := by
  simp [written?, h]

theorem load_of_not_written {file : Option (List UInt8)} (h : written? file = none) :
    load file = .error (.failure .unreadableFile) ∨
      load file = .error (.failure .malformedText) := by
  cases file with
  | none => exact .inl rfl
  | some bytes =>
    cases hof : Text.ofBytes? bytes with
    | none => exact .inl (by simp only [load, hof])
    | some _ =>
      have hread : (read? bytes : Option Config) = none := by simpa [written?, hof] using h
      exact .inr (by simp only [load, hof, hread])

/-- Thresholds for both phases that can be met and whose quorums meet; a majority is safe unless
there is nobody to ask. -/
def Safe (c : Config) : Prop :=
  match c.thresholds with
  | some t => Quorum.Safe c.nodes t.prepare t.accept
  | none => c.nodes ≠ 0

/-- Thresholds for which the checks leave the words. -/
def Oversized (c : Config) : Prop :=
  match c.thresholds with
  | some t => Quorum.Oversized c.nodes t.prepare t.accept
  | none => 2 ^ 64 ≤ c.nodes.toNat + 2

/-- The thresholds to check, as they are given or those of the majority. -/
lemma exists_thresholds (c : Config) : ∃ prepare accept,
    c.quorum = Quorum.ofThresholds c.nodes prepare accept ∧
      (c.Safe ↔ Quorum.Safe c.nodes prepare accept) ∧
      (c.Oversized ↔ Quorum.Oversized c.nodes prepare accept) := by
  unfold quorum Safe Oversized
  cases c.thresholds with
  | some t => exact ⟨t.prepare, t.accept, rfl, .rfl, .rfl⟩
  | none =>
    have hhalf := Quorum.toNat_half c.nodes
    have hn := c.nodes.toNat_lt
    refine ⟨c.nodes / 2 + 1, c.nodes / 2 + 1, rfl, ?_, ?_⟩
    · rw [Quorum.safe_iff_toNat, hhalf, ne_eq, ← UInt64.toNat_inj, UInt64.toNat_zero]
      omega
    · unfold Quorum.Oversized
      rw [hhalf]
      omega

lemma nodes_of_oversized {c : Config} (h : c.Oversized) : 2 ^ 63 ≤ c.nodes.toNat := by
  obtain ⟨prepare, accept, -, -, hoversized⟩ := c.exists_thresholds
  by_contra hlt
  exact Quorum.not_oversized_of_lt (Nat.lt_of_not_le hlt) (hoversized.mp h)

lemma exists_quorum_iff {c : Config} : (∃ q, c.quorum = .ok q) ↔ c.Safe ∧ ¬c.Oversized := by
  obtain ⟨prepare, accept, hquorum, hsafe, hoversized⟩ := c.exists_thresholds
  rw [hquorum, Quorum.exists_ok_iff, hsafe, hoversized]

lemma exists_overflow_iff {c : Config} :
    (∃ o, c.quorum = .error (.overflow o)) ↔ c.Oversized := by
  obtain ⟨prepare, accept, hquorum, -, hoversized⟩ := c.exists_thresholds
  rw [hquorum, Quorum.exists_overflow_iff, hoversized]

/-- What is loaded has thresholds that were accepted. -/
lemma load_eq_ok_iff {file : Option (List UInt8)} {c : Config} :
    load file = .ok c ↔ written? file = some c ∧ ∃ q, c.quorum = .ok q := by
  cases hwritten : written? file with
  | none => rcases load_of_not_written hwritten with h | h <;> simp [h]
  | some d =>
    rw [load_of_written hwritten, Option.some_inj]
    constructor
    · intro h
      cases hquorum : d.quorum with
      | error f =>
        rw [hquorum] at h
        cases h
      | ok q =>
        rw [hquorum] at h
        cases h
        exact ⟨rfl, q, hquorum⟩
    · rintro ⟨rfl, q, hquorum⟩
      rw [hquorum]
      rfl

lemma load_overflow_iff {file : Option (List UInt8)} :
    (∃ o, load file = .error (.overflow o)) ↔ ∃ c, written? file = some c ∧ c.Oversized := by
  cases hwritten : written? file with
  | none => rcases load_of_not_written hwritten with h | h <;> simp [h]
  | some c =>
    simp only [load_of_written hwritten, Option.some_inj, exists_eq_left', ← exists_overflow_iff]
    cases c.quorum <;> simp [Except.map]

/-- A file is loaded, or refused for one of three reasons, or its thresholds are too large. -/
lemma load_cases (file : Option (List UInt8)) :
    (∃ c q, load file = .ok c ∧ c.quorum = .ok q) ∨
      load file = .error (.failure .unreadableFile) ∨
      load file = .error (.failure .malformedText) ∨
      (∃ cause, load file = .error (.failure (.invalidConfig cause))) ∨
      ∃ o, load file = .error (.overflow o) := by
  cases hwritten : written? file with
  | none => exact .inr ((load_of_not_written hwritten).imp_right .inl)
  | some c =>
    obtain ⟨prepare, accept, hquorum, -⟩ := c.exists_thresholds
    rw [load_of_written hwritten]
    rcases Quorum.ofThresholds_cases c.nodes prepare accept with ⟨q, h⟩ | ⟨cause, h⟩ | ⟨o, h⟩
    · rw [hquorum, h]
      exact .inl ⟨c, q, rfl, hquorum.trans h⟩
    · rw [hquorum, h]
      exact .inr (.inr (.inr (.inl ⟨cause, rfl⟩)))
    · rw [hquorum, h]
      exact .inr (.inr (.inr (.inr ⟨o, rfl⟩)))

/-- Loading succeeds with a configuration whose thresholds are accepted, or fails for one of three
reasons, unless thresholds are too large to be checked; that takes at least `2 ^ 63` nodes. What is
written in a file is loaded just when its thresholds are safe and not too large. -/
theorem load_outcome (file : Option (List UInt8)) :
    ((∃ c q, load file = .ok c ∧ c.quorum = .ok q) ∨
      load file = .error (.failure .unreadableFile) ∨
      load file = .error (.failure .malformedText) ∨
      (∃ cause, load file = .error (.failure (.invalidConfig cause))) ∨
      ∃ o, load file = .error (.overflow o)) ∧
    (∀ c, load file = .ok c ↔ written? file = some c ∧ c.Safe ∧ ¬c.Oversized) ∧
    ((∃ o, load file = .error (.overflow o)) ↔ ∃ c, written? file = some c ∧ c.Oversized) ∧
    ∀ c, written? file = some c → c.Oversized → 2 ^ 63 ≤ c.nodes.toNat := by
  refine ⟨load_cases file, fun c => ?_, load_overflow_iff, fun c _ h => nodes_of_oversized h⟩
  rw [load_eq_ok_iff, exists_quorum_iff]

/-- A file that leaves everything as it is by default, and one that asks for the most nodes. -/
theorem load_outcome_at_extremes :
    load (some (Text.toBytes "\x7b\x7d")) = .ok default ∧
      ∃ c, written? (some (Text.toBytes "[18446744073709551615]")) = some c ∧
        2 ^ 63 ≤ c.nodes.toNat ∧
        ∃ o, load (some (Text.toBytes "[18446744073709551615]")) = .error (.overflow o) := by
  have hempty : written? (some (Text.toBytes "\x7b\x7d")) = some default :=
    written?_toBytes (by decide +kernel)
  have hmost : written? (some (Text.toBytes "[18446744073709551615]")) =
      some { default with nodes := 18446744073709551615 } := written?_toBytes (by decide +kernel)
  have hoversized : Oversized { default with nodes := 18446744073709551615 } := by
    simp [Oversized, default]
  refine ⟨((load_outcome _).2.1 _).mpr ⟨hempty, ?_, ?_⟩, _, hmost,
    (load_outcome _).2.2.2 _ hmost hoversized, (load_outcome _).2.2.1.mpr ⟨_, hmost, hoversized⟩⟩
  · simp [Safe, default]
  · simp [Oversized, default]

/-- A majority of the greatest number of nodes is safe, but twice that majority is no word. -/
theorem load_greatest_nodes :
    written? (some (Text.toBytes "\x7b\"nodes\":18446744073709551615\x7d")) =
        some { default with nodes := 18446744073709551615 } ∧
      Safe { default with nodes := 18446744073709551615 } ∧
      load (some (Text.toBytes "\x7b\"nodes\":18446744073709551615\x7d")) =
        .error (.overflow .multiply) := by
  have hwritten : written? (some (Text.toBytes "\x7b\"nodes\":18446744073709551615\x7d")) =
      some { default with nodes := 18446744073709551615 } := written?_toBytes (by decide +kernel)
  exact ⟨hwritten, by simp [Safe, default], load_of_written hwritten⟩

end Synod.Config
