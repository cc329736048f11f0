import Synod.Json.Parser
import Synod.Json.Printer
import Synod.Proofs.Lexemes

/-!
# Texts of a JSON value

A text lays out some tokens if it spells them in order, with any blanks between them. Every text that
lays out the tokens of a well-formed value is read as this value; the compact and the indented text
are two of them. Inductions on a value go along its tokens: one case for each kind of value, and two
for the items or members that may follow.
-/
namespace Synod.Json

/-- Numbers and strings are as the grammar has them, at any depth. -/
inductive WellFormed : Json → Prop
  | null : WellFormed .null
  | bool (b : Bool) : WellFormed (.bool b)
  | number {lexeme} (grammar : IsNumber lexeme) : WellFormed (.number lexeme)
  | string {raw} (grammar : IsInside raw) : WellFormed (.string raw)
  | array {items} (inner : ∀ j ∈ items, WellFormed j) : WellFormed (.array items)
  | object {members} (keys : ∀ m ∈ members, IsInside m.1)
      (values : ∀ m ∈ members, WellFormed m.2) : WellFormed (.object members)

/-- A text that spells some tokens, one after the other, with nothing but blanks between them, before
the first and after the last. -/
inductive LaysOut : List Token → List UInt8 → Prop
  | nil {blanks} (blank : ∀ b ∈ blanks, isBlank b) : LaysOut [] blanks
  | cons {blanks t ts text} (blank : ∀ b ∈ blanks, isBlank b) (rest : LaysOut ts text) :
      LaysOut (t :: ts) (blanks ++ t.spell ++ text)

namespace LaysOut
variable {ts ts' : List Token} {text text' : List UInt8}

lemma blanks_append {blanks : List UInt8} (hb : ∀ b ∈ blanks, isBlank b) (h : LaysOut ts text) :
    LaysOut ts (blanks ++ text) := by
  have hboth : ∀ {more : List UInt8}, (∀ b ∈ more, isBlank b) → ∀ b ∈ blanks ++ more, isBlank b :=
    fun hmore b hmem => (List.mem_append.mp hmem).elim (hb b) (hmore b)
  cases h with
  | nil hblank => exact .nil (hboth hblank)
  | cons hblank hrest =>
    rw [← List.append_assoc, ← List.append_assoc]
    exact .cons (hboth hblank) hrest

lemma append (h : LaysOut ts text) (h' : LaysOut ts' text') : LaysOut (ts ++ ts') (text ++ text') := by
  induction h with
  | nil hblank => exact h'.blanks_append hblank
  | cons hblank _ ih =>
    rw [List.append_assoc, List.cons_append]
    exact .cons hblank ih

lemma token (t : Token) : LaysOut [t] t.spell := by
  have h : LaysOut [t] ([] ++ t.spell ++ []) := .cons (by simp) (.nil (by simp))
  simpa using h

lemma token_append (t : Token) (h : LaysOut ts text) : LaysOut (t :: ts) (t.spell ++ text) :=
  (token t).append h

/-- Tokens one after the other, with no blanks at all. -/
lemma flatMap_spell (ts : List Token) : LaysOut ts (ts.flatMap Token.spell) := by
  induction ts with
  | nil => exact .nil (by simp)
  | cons t ts ih => exact token_append t ih

end LaysOut

/-! ### Lexing a layout -/

/-- No number directly follows these tokens' last one, if that is a number: they begin otherwise. -/
def Unnumbered (ts : List Token) : Prop := ∀ t, ts.head? = some t → ¬t.IsNumeric

lemma unnumbered_cons {t : Token} (ht : ¬t.IsNumeric) (ts : List Token) : Unnumbered (t :: ts) := by
  intro t' h
  cases h
  exact ht

/-- Well-formed tokens among which no number directly follows a number. -/
inductive Lexable : List Token → Prop
  | nil : Lexable []
  | number {lexeme ts} (grammar : IsNumber lexeme) (apart : Unnumbered ts) (rest : Lexable ts) :
      Lexable (.number lexeme :: ts)
  | other {t ts} (grammar : t.WellFormed) (other : ¬t.IsNumeric) (rest : Lexable ts) :
      Lexable (t :: ts)

lemma not_continues_of_isBlank {b : UInt8} (h : isBlank b) : ¬continues b := by
  simp only [isBlank, Bool.or_eq_true, beq_iff_eq] at h
  rcases h with ((rfl | rfl) | rfl) | rfl <;> decide

/-- No token but a number begins with a byte that continues numbers. -/
lemma marksOff_spell {t : Token} (ht : ¬t.IsNumeric) (rest : List UInt8) :
    MarksOff (t.spell ++ rest) := by
  intro b hb
  cases t with
  | number lexeme => exact absurd trivial ht
  | bool v => cases v <;> (cases hb; decide)
  | _ =>
    cases hb
    decide

lemma LaysOut.marksOff {ts : List Token} {text : List UInt8} (h : LaysOut ts text)
    (hts : Unnumbered ts) : MarksOff text := by
  cases h with
  | nil hblank =>
    intro b hb
    exact not_continues_of_isBlank (hblank b (List.mem_of_mem_head? hb))
  | @cons blanks t ts text hblank _ =>
    cases blanks with
    | nil => exact marksOff_spell (hts t rfl) text
    | cons b blanks =>
      intro b' hb'
      cases hb'
      exact not_continues_of_isBlank (hblank b List.mem_cons_self)

/-- Tokens are taken back from any layout of them. -/
theorem lex_of_laysOut {ts : List Token} {text : List UInt8} (h : LaysOut ts text)
    (hts : Lexable ts) : lex text = some ts := by
  have hfrom : ∀ read, lexFrom read .between text = some (read.reverse ++ ts) := by
    induction h with
    | nil hblank =>
      intro read
      have hend := lexFrom_blanks read hblank []
      rw [List.append_nil] at hend
      rw [hend]
      rfl
    | @cons blanks t ts text hblank hrest ih =>
      intro read
      have hnext : ∀ hlexable : Lexable ts, lexFrom (t :: read) .between text =
          some (read.reverse ++ t :: ts) := fun hlexable => by simpa using ih hlexable (t :: read)
      rw [List.append_assoc, lexFrom_blanks read hblank]
      cases hts with
      | number hgrammar hapart hlexable =>
        rw [lexFrom_spell (t := .number _) read hgrammar fun _ => hrest.marksOff hapart,
          hnext hlexable]
      | other hgrammar hother hlexable =>
        rw [lexFrom_spell read hgrammar fun hnumeric => absurd hnumeric hother, hnext hlexable]
  exact hfrom []

/-- What follows a value inside brackets is a comma or a closing bracket. -/
lemma unnumbered_moreItems (items : List Json) (ts : List Token) :
    Unnumbered (moreItems items ++ ts) := by
  cases items with
  | nil => exact unnumbered_cons (t := .rightBracket) id _
  | cons j rest => exact unnumbered_cons (t := .comma) id _

lemma unnumbered_moreMembers (members : List (List UInt8 × Json)) (ts : List Token) :
    Unnumbered (moreMembers members ++ ts) := by
  cases members with
  | nil => exact unnumbered_cons (t := .rightBrace) id _
  | cons m rest => exact unnumbered_cons (t := .comma) id _

/-- Tokens of a member, before those that follow. -/
lemma Lexable.member {key : List UInt8} {ts : List Token} (hkey : IsInside key) (h : Lexable ts) :
    Lexable (.string key :: .colon :: ts) :=
  .other hkey id (.other trivial id h)

mutual

theorem lexable_tokens : ∀ {j : Json} {ts : List Token}, WellFormed j → Unnumbered ts →
    Lexable ts → Lexable (tokens j ++ ts)
  | .null, _, _, _, hts | .bool _, _, _, _, hts => .other trivial id hts
  | .number _, _, .number h, happart, hts => .number h happart hts
  | .string _, _, .string h, _, hts => .other h id hts
  | .array [], _, _, _, hts | .object [], _, _, _, hts =>
    .other trivial id (.other trivial id hts)
  | .array (j :: rest), ts, .array h, _, hts => by
    have hrest := lexable_moreItems (fun i hi => h i (List.mem_cons_of_mem _ hi)) hts
    have hj := lexable_tokens (h j List.mem_cons_self) (unnumbered_moreItems rest ts) hrest
    rw [tokens, List.append_assoc]
    exact .other trivial id hj
  | .object ((key, j) :: rest), ts, .object hkeys hvalues, _, hts => by
    have hrest := lexable_moreMembers (fun m hm => hkeys m (List.mem_cons_of_mem _ hm))
      (fun m hm => hvalues m (List.mem_cons_of_mem _ hm)) hts
    have hj := lexable_tokens (hvalues (key, j) List.mem_cons_self)
      (unnumbered_moreMembers rest ts) hrest
    rw [tokens, List.append_assoc]
    exact .other trivial id (hj.member (hkeys (key, j) List.mem_cons_self))

theorem lexable_moreItems : ∀ {items : List Json} {ts : List Token},
    (∀ j ∈ items, WellFormed j) → Lexable ts → Lexable (moreItems items ++ ts)
  | [], _, _, hts => .other trivial id hts
  | j :: rest, ts, h, hts => by
    have hrest := lexable_moreItems (fun i hi => h i (List.mem_cons_of_mem _ hi)) hts
    have hj := lexable_tokens (h j List.mem_cons_self) (unnumbered_moreItems rest ts) hrest
    rw [moreItems, List.append_assoc]
    exact .other trivial id hj

theorem lexable_moreMembers : ∀ {members : List (List UInt8 × Json)} {ts : List Token},
    (∀ m ∈ members, IsInside m.1) → (∀ m ∈ members, WellFormed m.2) → Lexable ts →
    Lexable (moreMembers members ++ ts)
  | [], _, _, _, hts => .other trivial id hts
  | (key, j) :: rest, ts, hkeys, hvalues, hts => by
    have hrest := lexable_moreMembers (fun m hm => hkeys m (List.mem_cons_of_mem _ hm))
      (fun m hm => hvalues m (List.mem_cons_of_mem _ hm)) hts
    have hj := lexable_tokens (hvalues (key, j) List.mem_cons_self)
      (unnumbered_moreMembers rest ts) hrest
    rw [moreMembers, List.append_assoc]
    exact .other trivial id (hj.member (hkeys (key, j) List.mem_cons_self))

end

/-! ### Parsing tokens -/

namespace Reading

lemma run_cons_of {r r' : Reading} {t : Token} {ts : List Token} (h : r.next? t = some r') :
    r.run (t :: ts) = r'.run ts := by
  rw [run, h]

/-- A first item is begun like any other, because no value begins with a closing bracket. -/
lemma run_firstItem (outer : List Frame) (j : Json) (ts : List Token) :
    (firstItem outer).run (tokens j ++ ts) = (value (.array [] :: outer)).run (tokens j ++ ts) := by
  cases j with
  | array items => cases items <;> rfl
  | object members => cases members <;> rfl
  | _ => rfl

mutual

/-- Where a value may stand, its tokens complete it, whatever comes before or after. -/
theorem run_tokens : ∀ (j : Json) (outer : List Frame) (ts : List Token),
    (value outer).run (tokens j ++ ts) = (complete j outer).run ts
  | .null, _, _ | .bool _, _, _ | .number _, _, _ | .string _, _, _ => rfl
  | .array [], _, _ | .object [], _, _ => rfl
  | .array (j :: rest), outer, ts => by
    rw [tokens, List.append_assoc, List.cons_append, run_cons_of rfl, run_firstItem,
      run_tokens j, run_moreItems rest]
    rfl
  | .object ((k, j) :: rest), outer, ts => by
    rw [tokens, List.append_assoc, List.cons_append, run_cons_of rfl, List.cons_append,
      run_cons_of rfl, List.cons_append, run_cons_of rfl, run_tokens j, run_moreMembers rest]
    rfl

theorem run_moreItems : ∀ (rest : List Json) (j : Json) (before : List Json) (outer : List Frame)
    (ts : List Token), (complete j (.array before :: outer)).run (moreItems rest ++ ts) =
      (complete (.array (before.reverse ++ j :: rest)) outer).run ts
  | [], j, before, outer, ts => by
    rw [moreItems, List.cons_append, run_cons_of rfl, List.reverse_cons, List.nil_append]
  | j' :: rest, j, before, outer, ts => by
    rw [moreItems, List.append_assoc, List.cons_append, run_cons_of rfl, run_tokens j',
      run_moreItems rest, List.reverse_cons, List.append_assoc, List.singleton_append]

theorem run_moreMembers : ∀ (rest : List (List UInt8 × Json)) (k : List UInt8) (j : Json)
    (before : List (List UInt8 × Json)) (outer : List Frame) (ts : List Token),
    (complete j (.object before k :: outer)).run (moreMembers rest ++ ts) =
      (complete (.object (before.reverse ++ (k, j) :: rest)) outer).run ts
  | [], k, j, before, outer, ts => by
    rw [moreMembers, List.cons_append, run_cons_of rfl, List.reverse_cons, List.nil_append]
  | (k', j') :: rest, k, j, before, outer, ts => by
    rw [moreMembers, List.append_assoc, List.cons_append, run_cons_of rfl, List.cons_append,
      run_cons_of rfl, List.cons_append, run_cons_of rfl, run_tokens j', run_moreMembers rest,
      List.reverse_cons, List.append_assoc, List.singleton_append]

end

end Reading

theorem parse_tokens (j : Json) : parse (tokens j) = some j := by
  have h := Reading.run_tokens j [] []
  rw [List.append_nil] at h
  exact h

/-- A well-formed value is read from every text that lays it out. -/
theorem read?_of_laysOut {j : Json} {text : List UInt8} (hj : j.WellFormed)
    (h : LaysOut (tokens j) text) : read? text = some j := by
  have hapart : Unnumbered [] := by simp [Unnumbered]
  have hlexable := lexable_tokens hj hapart .nil
  rw [List.append_nil] at hlexable
  rw [read?, lex_of_laysOut h hlexable, Option.bind_some, parse_tokens]

/-! ### The texts that are written -/

theorem laysOut_compact (j : Json) : LaysOut (tokens j) j.compact := .flatMap_spell (tokens j)

lemma isBlank_newline (depth : Nat) : ∀ b ∈ newline depth, isBlank b := by
  intro b hb
  rcases List.mem_cons.mp hb with rfl | hb
  · rfl
  · rw [List.eq_of_mem_replicate hb]
    rfl

/-- Tokens after a line break. -/
lemma LaysOut.line {ts : List Token} {text : List UInt8} (depth : Nat) (h : LaysOut ts text) :
    LaysOut ts (newline depth ++ text) :=
  h.blanks_append (isBlank_newline depth)

lemma LaysOut.key {ts : List Token} {text : List UInt8} (raw : List UInt8) (h : LaysOut ts text) :
    LaysOut (.string raw :: .colon :: ts) (key raw ++ text) := by
  have hblank : LaysOut ts ([32] ++ text) := h.blanks_append (List.forall_mem_singleton.mpr rfl)
  have hcolon := LaysOut.token_append .colon hblank
  have hall := LaysOut.token_append (.string raw) hcolon
  rw [Json.key, List.append_assoc]
  exact hall

mutual

theorem laysOut_prettyAt : ∀ (depth : Nat) (j : Json), LaysOut (tokens j) (prettyAt depth j)
  | _, .null => .token .null
  | _, .bool b => .token (.bool b)
  | _, .number lexeme => .token (.number lexeme)
  | _, .string raw => .token (.string raw)
  | _, .array [] => .token_append .leftBracket (.token .rightBracket)
  | _, .object [] => .token_append .leftBrace (.token .rightBrace)
  | depth, .array (j :: rest) => by
    have hj := (laysOut_prettyAt (depth + 1) j).append (laysOut_prettyItems depth rest)
    have hall := LaysOut.token_append .leftBracket (hj.line (depth + 1))
    simpa [tokens, prettyAt, Token.spell] using hall
  | depth, .object ((k, j) :: rest) => by
    have hj := (laysOut_prettyAt (depth + 1) j).append (laysOut_prettyMembers depth rest)
    have hall := LaysOut.token_append .leftBrace ((hj.key k).line (depth + 1))
    simpa [tokens, prettyAt, Token.spell] using hall

theorem laysOut_prettyItems : ∀ (depth : Nat) (items : List Json),
    LaysOut (moreItems items) (prettyItems depth items)
  | depth, [] => (LaysOut.token .rightBracket).line depth
  | depth, j :: rest => by
    have hj := (laysOut_prettyAt (depth + 1) j).append (laysOut_prettyItems depth rest)
    have hall := LaysOut.token_append .comma (hj.line (depth + 1))
    simpa [moreItems, prettyItems, Token.spell] using hall

theorem laysOut_prettyMembers : ∀ (depth : Nat) (members : List (List UInt8 × Json)),
    LaysOut (moreMembers members) (prettyMembers depth members)
  | depth, [] => (LaysOut.token .rightBrace).line depth
  | depth, (k, j) :: rest => by
    have hj := (laysOut_prettyAt (depth + 1) j).append (laysOut_prettyMembers depth rest)
    have hall := LaysOut.token_append .comma ((hj.key k).line (depth + 1))
    simpa [moreMembers, prettyMembers, Token.spell] using hall

end

theorem laysOut_pretty (j : Json) : LaysOut (tokens j) j.pretty := laysOut_prettyAt 0 j

end Synod.Json
