import Synod.Proofs.Forms
import Synod.Proofs.Loading
import Synod.Proofs.Plaintext

/-!
# Configurations with fields left out

A configuration file need not have all fields, and neither need the retry policy in it. `abridged` is
what is written of a configuration without the members of some names. However its text is laid out, it
is read as the configuration with its own values where they were kept and the default ones where they
were left out. Whether that is accepted depends on the thresholds and the number of nodes that come
together in this way.
-/
namespace Synod
open JsonForm

namespace Json

/-- An object without the members of some names. -/
def without (gone : List String) : Json → Json
  | .object members => .object (members.filter fun m => (text? m.1).all (· ∉ gone))
  | j => j

/-- An object with another value for the members of a name. -/
def adjust (name : String) (f : Json → Json) : Json → Json
  | .object members =>
    .object (members.map fun m => if text? m.1 = some name then (m.1, f m.2) else m)
  | j => j

lemma without_ofFields (gone : List String) (fields : List (String × Json)) :
    (ofFields fields).without gone = ofFields (fields.filter (·.1 ∉ gone)) := by
  simp only [ofFields, without, List.filter_map, Function.comp_def, text?_ofText, Option.all_some]

lemma adjust_ofFields (name : String) (f : Json → Json) (fields : List (String × Json)) :
    (ofFields fields).adjust name f =
      ofFields (fields.map fun p => if p.1 = name then (p.1, f p.2) else p) := by
  simp only [ofFields, adjust, List.map_map, Function.comp_def, text?_ofText, Option.some.injEq]
  congr 3
  funext p
  split <;> rfl

/-- Each field is found if it was kept. -/
theorem fields?_of_kept (fields : List (String × Json)) (names : List String) (hnodup : names.Nodup)
    (short : Bool) (hfields : fields.map (·.1) = names) (gone : List String) :
    fields? names short (ofFields (fields.filter (·.1 ∉ gone))) =
      some (fields.map fun f => if f.1 ∈ gone then none else some f.2) := by
  subst hfields
  let kept := fields.filter (·.1 ∉ gone)
  have hkept : (kept.map (·.1)).Nodup := hnodup.sublist (List.filter_sublist.map _)
  have hnamed : namedMembers? (kept.map fun f => (ofText f.1, f.2)) = some kept := by
    rw [namedMembers?_eq fun m hm => ?_]
    · simp [Function.comp_def, named_ofText]
    · obtain ⟨f, -, rfl⟩ := List.mem_map.mp hm
      exact ⟨f.1, text?_ofText f.1⟩
  have honly : ∀ f ∈ fields, only? kept f.1 = some (if f.1 ∈ gone then none else some f.2) := by
    intro f hf
    split
    · rename_i hgone
      have hnone : kept.filter (·.1 = f.1) = [] := by
        refine List.filter_eq_nil_iff.mpr fun p hp heq => ?_
        have hp' := (List.mem_filter.mp hp).2
        simp only [decide_eq_true_eq] at hp' heq
        exact hp' (heq ▸ hgone)
      simp [only?, hnone]
    · rename_i hgone
      have hmem : f ∈ kept := List.mem_filter.mpr ⟨hf, by simpa using hgone⟩
      exact only?_of_perm (.of_eq (List.append_nil kept).symm) hkept hmem (by simp)
  have hall : (fields.map (·.1)).mapM (only? kept) =
      some (fields.map fun f => if f.1 ∈ gone then none else some f.2) := by
    refine mapM_of_forall₂ ?_
    rw [List.forall₂_map_left_iff, List.forall₂_map_right_iff, List.forall₂_same]
    exact honly
  simp only [fields?, ofFields]
  rw [hnamed]
  exact hall

/-- What is read of a field: its value if it was kept, the missing one otherwise. -/
lemma orElse?_of_kept {α : Type} [JsonForm α] {missing a : α} {j : Json} (h : ofJson? j = some a)
    {left : Prop} [Decidable left] :
    orElse? missing (if left then none else some j) = some (if left then missing else a) := by
  split
  · rfl
  · exact h

lemma textual_ofFields {fields : List (String × Json)} (h : ∀ f ∈ fields, f.2.Textual) :
    (ofFields fields).Textual := by
  refine textual_object fun m hm => ?_
  obtain ⟨f, hf, rfl⟩ := List.mem_map.mp hm
  exact ⟨isText_ofText f.1, h f hf⟩

lemma textual_word (n : UInt64) : (toJson n).Textual := textual_ofNat n.toNat

end Json

open Json

lemma LawfulForm.ofJson?_toJson {α : Type} [JsonForm α] [LawfulForm α] (a : α) :
    ofJson? (toJson a) = some a :=
  ofJson?_of_variant (.refl _)

namespace RetryPolicy

/-- A policy with the default values for some of its fields. -/
def defaulting (gone : List String) (p : RetryPolicy) : RetryPolicy where
  maxAttempts := if "max_attempts" ∈ gone then default.maxAttempts else p.maxAttempts
  initialBackoff := if "initial_backoff_ms" ∈ gone then default.initialBackoff else p.initialBackoff
  maxBackoff := if "max_backoff_ms" ∈ gone then default.maxBackoff else p.maxBackoff

/-- The members of the object that a policy is written as. -/
def members (p : RetryPolicy) : List (String × Json) :=
  [("max_attempts", toJson p.maxAttempts), ("initial_backoff_ms", toJson p.initialBackoff),
    ("max_backoff_ms", toJson p.maxBackoff)]

lemma without_eq (gone : List String) (p : RetryPolicy) :
    (toJson p).without gone = ofFields (p.members.filter (·.1 ∉ gone)) :=
  without_ofFields gone p.members

lemma wellFormed_without (gone : List String) (p : RetryPolicy) :
    ((toJson p).without gone).WellFormed := by
  rw [without_eq]
  refine LawfulForm.wellFormed_ofFields fun f hf => ?_
  have hf := List.mem_of_mem_filter hf
  revert f
  simp [members, LawfulForm.wellFormed]

lemma textual_without (gone : List String) (p : RetryPolicy) :
    ((toJson p).without gone).Textual := by
  rw [without_eq]
  refine textual_ofFields fun f hf => ?_
  have hf := List.mem_of_mem_filter hf
  revert f
  simp [members, toJson, textual_ofNat]

lemma ofJson?_without (gone : List String) (p : RetryPolicy) :
    ofJson? ((toJson p).without gone) = some (p.defaulting gone) := by
  have hfields := fields?_of_kept p.members fieldNames (by decide) true rfl gone
  rw [without_eq]
  simp only [JsonForm.ofJson?]
  rw [hfields]
  simp only [members, List.map_cons, List.map_nil, Option.bind_eq_bind, Option.bind_some,
    orElse?_of_kept (LawfulForm.ofJson?_toJson _)]
  rfl

end RetryPolicy

namespace Config

/-- A configuration with the default values for some of its fields, and for some of those of its retry
policy. -/
def defaulting (gone goneRetry : List String) (c : Config) : Config where
  nodes := if "nodes" ∈ gone then default.nodes else c.nodes
  thresholds := if "quorum" ∈ gone then default.thresholds else c.thresholds
  rpcTimeout := if "rpc_timeout_ms" ∈ gone then default.rpcTimeout else c.rpcTimeout
  pingTimeout := if "ping_timeout_ms" ∈ gone then default.pingTimeout else c.pingTimeout
  roundFloor := if "round_floor" ∈ gone then default.roundFloor else c.roundFloor
  retry := if "retry" ∈ gone then default.retry else c.retry.defaulting goneRetry
  dataDir := if "data_dir" ∈ gone then default.dataDir else c.dataDir

/-- What is written of a configuration without some of its fields, and some of those of its retry
policy. -/
def abridged (gone goneRetry : List String) (c : Config) : Json :=
  ((toJson c).adjust "retry" (·.without goneRetry)).without gone

/-- The members of the object that a configuration is written as, those of the retry policy being
left out in part. -/
def members (goneRetry : List String) (c : Config) : List (String × Json) :=
  [("nodes", toJson c.nodes), ("quorum", toJson c.thresholds),
    ("rpc_timeout_ms", toJson c.rpcTimeout), ("ping_timeout_ms", toJson c.pingTimeout),
    ("round_floor", toJson c.roundFloor), ("retry", (toJson c.retry).without goneRetry),
    ("data_dir", toJson c.dataDir)]

variable {c : Config} {gone goneRetry : List String} {text : List UInt8}

lemma abridged_eq : c.abridged gone goneRetry =
    ofFields ((c.members goneRetry).filter (·.1 ∉ gone)) := by
  have hadjusted :
      (toJson c).adjust "retry" (·.without goneRetry) = ofFields (c.members goneRetry) := by
    refine (adjust_ofFields ..).trans ?_
    simp [members]
  rw [abridged, hadjusted, without_ofFields]

lemma wellFormed_abridged : (c.abridged gone goneRetry).WellFormed := by
  rw [abridged_eq]
  refine LawfulForm.wellFormed_ofFields fun f hf => ?_
  have hf := List.mem_of_mem_filter hf
  revert f
  simp [members, LawfulForm.wellFormed, RetryPolicy.wellFormed_without]

lemma textual_thresholds (thresholds : Option QuorumSettings) : (toJson thresholds).Textual := by
  cases thresholds with
  | none => exact textual_null
  | some t => exact textual_ofFields (by simp [toJson, textual_ofNat])

lemma textual_dataDir (dataDir : Option String) : (toJson dataDir).Textual := by
  cases dataDir with
  | none => exact textual_null
  | some path => exact textual_string path

lemma textual_abridged : (c.abridged gone goneRetry).Textual := by
  rw [abridged_eq]
  refine textual_ofFields fun f hf => ?_
  have hf := List.mem_of_mem_filter hf
  revert f
  simp [members, textual_word, textual_thresholds, textual_dataDir, RetryPolicy.textual_without]

lemma ofJson?_abridged :
    ofJson? (c.abridged gone goneRetry) = some (c.defaulting gone goneRetry) := by
  have hfields := fields?_of_kept (c.members goneRetry) fieldNames (by decide) true rfl gone
  rw [abridged_eq]
  simp only [JsonForm.ofJson?]
  rw [hfields]
  simp only [members, List.map_cons, List.map_nil, Option.bind_eq_bind, Option.bind_some,
    orElse?_of_kept (LawfulForm.ofJson?_toJson _), orElse?_of_kept (RetryPolicy.ofJson?_without _ _)]
  rfl

/-- However it is laid out, what is left of the text of a configuration is read as the configuration
with default values for what was left out. -/
theorem written?_abridged (h : LaysOut (c.abridged gone goneRetry).tokens text) :
    written? (some text) = some (c.defaulting gone goneRetry) := by
  obtain ⟨s, hs⟩ := (isText_of_laysOut h textual_abridged).ofBytes?
  have hread : (JsonForm.read? text : Option Config) = some (c.defaulting gone goneRetry) := by
    rw [JsonForm.read?, read?_of_laysOut wellFormed_abridged h, Option.bind_some, ofJson?_abridged]
  simp [written?, hs, hread]

/-- With fewer than `2 ^ 63` nodes no thresholds are too large to be checked. -/
lemma load_of_written_of_lt {file : Option (List UInt8)} (h : written? file = some c)
    (hnodes : c.nodes.toNat < 2 ^ 63) :
    (c.Safe → load file = .ok c) ∧
    (¬c.Safe → ∃ cause, load file = .error (.failure (.invalidConfig cause))) := by
  have hfits : ¬c.Oversized := fun hover => Nat.not_le_of_lt hnodes (nodes_of_oversized hover)
  refine ⟨fun hsafe => ?_, fun hunsafe => ?_⟩
  · exact load_eq_ok_iff.mpr ⟨h, exists_quorum_iff.mpr ⟨hsafe, hfits⟩⟩
  · obtain ⟨prepare, accept, hquorum, -⟩ := c.exists_thresholds
    rw [load_of_written h]
    rcases Quorum.ofThresholds_cases c.nodes prepare accept with ⟨q, hq⟩ | ⟨cause, hq⟩ | ⟨o, hq⟩
    · exact absurd (exists_quorum_iff.mp ⟨q, hquorum.trans hq⟩).1 hunsafe
    · exact ⟨cause, by rw [hquorum, hq]; rfl⟩
    · exact absurd (exists_overflow_iff.mp ⟨o, hquorum.trans hq⟩) hfits

lemma defaulting_nil (c : Config) : c.defaulting [] [] = c := rfl

lemma abridged_nil (c : Config) : c.abridged [] [] = toJson c := by
  have hall : ∀ fields : List (String × Json), fields.filter (·.1 ∉ ([] : List String)) = fields :=
    fun fields => List.filter_eq_self.mpr (by simp)
  rw [abridged_eq, hall, members, RetryPolicy.without_eq, hall]
  rfl

/-- What was saved of a configuration of fewer than `2 ^ 63` nodes may lose any fields, at the top and
in the retry policy. What is left of the text is loaded with the default values for these fields and
the configuration's own for all others, or is refused if these thresholds are not safe for that many
nodes. With nothing taken out the configuration is loaded as it was just if its thresholds are
accepted. -/
theorem load_abridged (c : Config) (hnodes : c.nodes.toNat < 2 ^ 63) (gone goneRetry : List String) :
    let left := c.defaulting gone goneRetry
    (∀ text, LaysOut (c.abridged gone goneRetry).tokens text →
      (left.Safe → load (some text) = .ok left) ∧
      (¬left.Safe → ∃ cause, load (some text) = .error (.failure (.invalidConfig cause)))) ∧
    c.abridged [] [] = toJson c ∧ LaysOut (toJson c).tokens c.save ∧ c.defaulting [] [] = c ∧
    (load (some c.save) = .ok c ↔ ∃ q, c.quorum = .ok q) := by
  intro left
  have hfew : left.nodes.toNat < 2 ^ 63 := by
    have hleft : left.nodes = if "nodes" ∈ gone then default.nodes else c.nodes := rfl
    rw [hleft]
    split
    · decide
    · exact hnodes
  have hsaved : LaysOut (toJson c).tokens c.save := laysOut_pretty _
  refine ⟨fun text htext => load_of_written_of_lt (written?_abridged htext) hfew, abridged_nil c,
    hsaved, defaulting_nil c, ?_⟩
  have hwhole : LaysOut (c.abridged [] []).tokens c.save := (abridged_nil c).symm ▸ hsaved
  have hwritten : written? (some c.save) = some c := written?_abridged hwhole
  rw [load_eq_ok_iff]
  exact ⟨fun h => h.2, fun h => ⟨hwritten, h⟩⟩

/-- Without its thresholds, a configuration of five nodes has those of a majority. Without the number
of nodes, its thresholds are too large for the default number, three. -/
theorem load_abridged_both_ways :
    let c : Config := { default with nodes := 5, thresholds := some ⟨4, 2⟩, retry := ⟨7, 20, 900⟩ }
    c.nodes.toNat < 2 ^ 63 ∧
      load (some (c.abridged ["quorum"] ["max_attempts"]).pretty) =
        .ok { c with thresholds := none, retry := ⟨5, 20, 900⟩ } ∧
      ∃ cause, load (some (c.abridged ["nodes"] []).pretty) =
        .error (.failure (.invalidConfig cause)) := by
  intro c
  have hnodes : c.nodes.toNat < 2 ^ 63 := by decide
  have hmajority := (load_abridged c hnodes ["quorum"] ["max_attempts"]).1 _ (laysOut_pretty _)
  have hthree := (load_abridged c hnodes ["nodes"] []).1 _ (laysOut_pretty _)
  refine ⟨hnodes, hmajority.1 ?_, hthree.2 ?_⟩
  · exact show (5 : UInt64) ≠ 0 by decide
  · exact fun hsafe : Quorum.Safe 3 4 2 => absurd hsafe.prepare_le (by decide)

end Config
end Synod
