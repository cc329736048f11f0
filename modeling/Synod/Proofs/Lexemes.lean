import Mathlib.Tactic.Lemma
import Mathlib.Tactic.SplitIfs
import Synod.Json.Lexer

/-!
# The grammar of JSON tokens

What a number and the inside of a string look like, said without the lexer, and that the lexer takes
every token so written as one. Only a number has to be marked off by what follows it. Induction
along a number or a string follows the parts that the lexer tells apart.
-/
namespace Synod.Json
open Numeral

/-- One digit or more. -/
structure IsDigits (bs : List UInt8) : Prop where
  ne_nil : bs ≠ []
  all : ∀ b ∈ bs, isDigit b

/-- The digits before the point have no leading zero. -/
structure IsWhole (bs : List UInt8) : Prop extends IsDigits bs where
  canonical : bs.head? = some 48 → bs = [48]

/-- A point with digits behind it, or nothing. -/
def IsFraction (bs : List UInt8) : Prop := bs = [] ∨ ∃ ds, bs = 46 :: ds ∧ IsDigits ds

/-- The letter for an exponent with digits behind it and perhaps a sign in between, or nothing. -/
def IsExponent (bs : List UInt8) : Prop :=
  bs = [] ∨ ∃ e sign ds, bs = e :: sign ++ ds ∧ (e = 101 ∨ e = 69) ∧
    (sign = [] ∨ sign = [43] ∨ sign = [45]) ∧ IsDigits ds

def IsNumber (bs : List UInt8) : Prop :=
  ∃ sign whole fraction exponent, bs = sign ++ whole ++ fraction ++ exponent ∧
    (sign = [] ∨ sign = [45]) ∧ IsWhole whole ∧ IsFraction fraction ∧ IsExponent exponent

/-- What may stand between the quotes of a string. -/
inductive IsInside : List UInt8 → Prop
  | nil : IsInside []
  | plain {b rest} (printable : 32 ≤ b) (ne_quote : b ≠ 34) (ne_backslash : b ≠ 92)
      (inside : IsInside rest) : IsInside (b :: rest)
  | escaped {b rest} (known : b ∈ escapes) (inside : IsInside rest) : IsInside (92 :: b :: rest)
  | unicode {a b c d rest} (ha : isHex a) (hb : isHex b) (hc : isHex c) (hd : isHex d)
      (inside : IsInside rest) : IsInside (92 :: 117 :: a :: b :: c :: d :: rest)

theorem IsInside.append {bs bs' : List UInt8} (h : IsInside bs) (h' : IsInside bs') :
    IsInside (bs ++ bs') := by
  induction h with
  | nil => exact h'
  | plain hp hq hb _ ih => exact .plain hp hq hb ih
  | escaped hk _ ih => exact .escaped hk ih
  | unicode ha hb hc hd _ ih => exact .unicode ha hb hc hd ih

namespace Token

/-- Numbers and strings have a grammar of their own. -/
def WellFormed : Token → Prop
  | number lexeme => IsNumber lexeme
  | string raw => IsInside raw
  | _ => True

def IsNumeric : Token → Prop
  | number _ => True
  | _ => False

end Token

/-! ### Numbers -/

/-- The bytes that a number may go on with where it may also end. -/
def continues (b : UInt8) : Bool := isDigit b || b == 46 || b == 101 || b == 69

lemma isDigit_cases {b : UInt8} (h : isDigit b) :
    b = 48 ∨ b = 49 ∨ b = 50 ∨ b = 51 ∨ b = 52 ∨ b = 53 ∨ b = 54 ∨ b = 55 ∨ b = 56 ∨ b = 57 := by
  simp only [isDigit, decide_eq_true_eq, UInt8.le_iff_toNat_le, ← UInt8.toNat_inj] at h ⊢
  simp only [UInt8.reduceToNat] at h ⊢
  omega

namespace NumberPart

/-- The part of a number that some bytes lead to. -/
def run (part : NumberPart) (bs : List UInt8) : Option NumberPart := bs.foldlM next? part

lemma run_append (part : NumberPart) (bs bs' : List UInt8) :
    part.run (bs ++ bs') = (part.run bs).bind fun p => p.run bs' :=
  List.foldlM_append ..

/-- A part in which a digit may follow any number of digits. -/
structure TakesDigits (part : NumberPart) : Prop where
  stays : ∀ b, isDigit b → part.next? b = some part

lemma TakesDigits.run {part : NumberPart} (h : part.TakesDigits) {bs : List UInt8}
    (hbs : ∀ b ∈ bs, isDigit b) : part.run bs = some part := by
  induction bs with
  | nil => rfl
  | cons b rest ih =>
    have hb := h.stays b (hbs b List.mem_cons_self)
    have hrest := ih fun b' hb' => hbs b' (List.mem_cons_of_mem _ hb')
    simpa [NumberPart.run, hb] using hrest

lemma takesDigits_whole : TakesDigits whole := ⟨fun b hb => by simp [next?, hb]⟩

lemma takesDigits_fraction : TakesDigits fraction := ⟨fun b hb => by simp [next?, hb]⟩

lemma takesDigits_exponentDigits : TakesDigits exponentDigits := ⟨fun b hb => by simp [next?, hb]⟩

/-- Digits lead from a part that waits for one to the part that has had one. -/
lemma run_digits {part after : NumberPart} (hfirst : ∀ b, isDigit b → part.next? b = some after)
    (hafter : after.TakesDigits) {bs : List UInt8} (h : IsDigits bs) : part.run bs = some after := by
  obtain ⟨b, rest, rfl⟩ := List.exists_cons_of_ne_nil h.ne_nil
  have hb := hfirst b (h.all b List.mem_cons_self)
  have hrest := hafter.run fun b' hb' => h.all b' (List.mem_cons_of_mem _ hb')
  simpa [run, hb] using hrest

/-- The parts before a point. -/
def IsWhole (part : NumberPart) : Prop := part = zero ∨ part = whole

lemma run_fraction {part : NumberPart} (hpart : part.IsWhole) {bs : List UInt8}
    (h : IsFraction bs) : ∃ part', part.run bs = some part' ∧ (part'.IsWhole ∨ part' = fraction) := by
  rcases h with rfl | ⟨ds, rfl, hds⟩
  · exact ⟨part, rfl, .inl hpart⟩
  · have hpoint : part.next? 46 = some point := by rcases hpart with rfl | rfl <;> rfl
    have hdigits : point.run ds = some fraction :=
      run_digits (fun b hb => by simp [next?, hb]) takesDigits_fraction hds
    exact ⟨fraction, by simpa [run, hpoint] using hdigits, .inr rfl⟩

lemma run_exponent {part : NumberPart} (hpart : part.IsWhole ∨ part = fraction)
    {bs : List UInt8} (h : IsExponent bs) : ∃ part', part.run bs = some part' ∧ part'.isEnd := by
  have hend : part.isEnd := by rcases hpart with (rfl | rfl) | rfl <;> rfl
  rcases h with rfl | ⟨e, sign, ds, rfl, he, hsign, hds⟩
  · exact ⟨part, rfl, hend⟩
  · have hletter : part.next? e = some exponent := by
      rcases hpart with (rfl | rfl) | rfl <;> rcases he with rfl | rfl <;> rfl
    have hdigits : exponent.run (sign ++ ds) = some exponentDigits := by
      rcases hsign with rfl | rfl | rfl
      · refine run_digits (fun b hb => ?_) takesDigits_exponentDigits hds
        rcases isDigit_cases hb with rfl | rfl | rfl | rfl | rfl | rfl | rfl | rfl | rfl | rfl <;> rfl
      all_goals
        have hsigned : exponentSign.run ds = some exponentDigits :=
          run_digits (fun b hb => by simp [next?, hb]) takesDigits_exponentDigits hds
        exact hsigned
    exact ⟨exponentDigits, by simpa [run, hletter] using hdigits, rfl⟩

/-- A number that may end does so before any byte that does not continue numbers. -/
lemma next?_eq_none {part : NumberPart} (hend : part.isEnd) {b : UInt8} (hb : ¬continues b) :
    part.next? b = none := by
  simp only [continues, Bool.or_eq_true, beq_iff_eq, not_or] at hb
  obtain ⟨⟨⟨hdigit, hpoint⟩, hlower⟩, hupper⟩ := hb
  cases part <;> simp_all [next?, next?.afterWhole, isEnd]

end NumberPart

/-- How the lexer begins with a number and where the number leads it. -/
lemma IsNumber.taken {lexeme : List UInt8} (h : IsNumber lexeme) :
    ∃ b rest first part, lexeme = b :: rest ∧
      Mode.begin? b = some (none, .number [b] first) ∧ first.run rest = some part ∧ part.isEnd := by
  obtain ⟨sign, whole, fraction, exponent, rfl, hsign, hwhole, hfraction, hexponent⟩ := h
  obtain ⟨b, ds, rfl⟩ := List.exists_cons_of_ne_nil hwhole.ne_nil
  have hb := hwhole.all b List.mem_cons_self
  have hds : ∀ d ∈ ds, isDigit d := fun d hd => hwhole.all d (List.mem_cons_of_mem _ hd)
  -- the part that the first digit leads to, with or without a sign before it
  obtain ⟨part, hminus, hbegin, hrun, hpart⟩ : ∃ part, NumberPart.minus.next? b = some part ∧
      Mode.begin? b = some (none, .number [b] part) ∧ part.run ds = some part ∧ part.IsWhole := by
    by_cases hzero : b = 48
    · subst hzero
      cases List.cons.inj (hwhole.canonical rfl) |>.2
      exact ⟨.zero, rfl, rfl, rfl, .inl rfl⟩
    · refine ⟨.whole, ?_, ?_, NumberPart.takesDigits_whole.run hds, .inr rfl⟩
      · simp [NumberPart.next?, hzero, hb]
      · rcases isDigit_cases hb with rfl | rfl | rfl | rfl | rfl | rfl | rfl | rfl | rfl | rfl <;>
          first | rfl | exact absurd rfl hzero
  obtain ⟨part', hrun', hpart'⟩ := NumberPart.run_fraction hpart hfraction
  obtain ⟨part'', hrun'', hend⟩ := NumberPart.run_exponent hpart' hexponent
  have hall : part.run (ds ++ fraction ++ exponent) = some part'' := by
    simp only [NumberPart.run_append, hrun, hrun', hrun'', Option.bind_some]
  rcases hsign with rfl | rfl
  · exact ⟨b, ds ++ fraction ++ exponent, part, part'', by simp, hbegin, hall, hend⟩
  · refine ⟨45, b :: ds ++ fraction ++ exponent, .minus, part'', by simp, rfl, ?_, hend⟩
    simpa [NumberPart.run, hminus] using hall

/-! ### Taking tokens -/

lemma lexFrom_cons_of {read tokens : List Token} {m m' : Mode} {b : UInt8} {rest : List UInt8}
    (h : m.advance? b = some (tokens, m')) :
    lexFrom read m (b :: rest) = lexFrom (tokens.reverse ++ read) m' rest := by
  rw [lexFrom, h]

lemma lexFrom_blanks (read : List Token) {blanks : List UInt8} (h : ∀ b ∈ blanks, isBlank b)
    (rest : List UInt8) : lexFrom read .between (blanks ++ rest) = lexFrom read .between rest := by
  induction blanks with
  | nil => rfl
  | cons b blanks ih =>
    have hb : Mode.between.advance? b = some ([], .between) := by
      simp [Mode.advance?, Mode.begin?, h b List.mem_cons_self]
    rw [List.cons_append, lexFrom_cons_of hb]
    exact ih fun b' hb' => h b' (List.mem_cons_of_mem _ hb')

lemma lexFrom_inside (read : List Token) {raw : List UInt8} (h : IsInside raw)
    (before rest : List UInt8) :
    lexFrom read (.string before .plain) (raw ++ 34 :: rest) =
      lexFrom (.string (before.reverse ++ raw) :: read) .between rest := by
  induction h generalizing before with
  | nil => rw [List.nil_append, lexFrom_cons_of rfl, List.append_nil]; rfl
  | @plain b raw hprintable hquote hbackslash _ ih =>
    have hb : (Mode.string before .plain).advance? b = some ([], .string (b :: before) .plain) := by
      simp [Mode.advance?, StringPart.next?, hquote, hbackslash, UInt8.not_lt.mpr hprintable]
    rw [List.cons_append, lexFrom_cons_of hb]
    simpa using ih (b :: before)
  | @escaped b raw hknown _ ih =>
    have hb : (Mode.string (92 :: before) .escape).advance? b =
        some ([], .string (b :: 92 :: before) .plain) := by
      have hletter : b ≠ 117 := by
        rintro rfl
        exact absurd hknown (by decide)
      simp [Mode.advance?, StringPart.next?, hletter, hknown]
    rw [List.cons_append, List.cons_append, lexFrom_cons_of rfl, lexFrom_cons_of hb]
    simpa using ih (b :: 92 :: before)
  | @unicode a b c d raw ha hb hc hd _ ih =>
    have hnext : ∀ (before : List UInt8) (due : Nat) (x : UInt8), isHex x →
        (Mode.string before (.hex (due + 2))).advance? x =
          some ([], .string (x :: before) (.hex (due + 1))) := by
      intro before due x hx
      simp [Mode.advance?, StringPart.next?, hx]
    have hlast : ∀ before : List UInt8, (Mode.string before (.hex 1)).advance? d =
        some ([], .string (d :: before) .plain) := by
      intro before
      simp [Mode.advance?, StringPart.next?, hd]
    simp only [List.cons_append]
    rw [lexFrom_cons_of rfl, lexFrom_cons_of rfl, lexFrom_cons_of (hnext _ 2 a ha),
      lexFrom_cons_of (hnext _ 1 b hb), lexFrom_cons_of (hnext _ 0 c hc),
      lexFrom_cons_of (hlast _)]
    simpa using ih (d :: c :: b :: a :: 117 :: 92 :: before)

/-- Something follows that does not continue a number. -/
def MarksOff (rest : List UInt8) : Prop := ∀ b, rest.head? = some b → ¬continues b

lemma lexFrom_number (read : List Token) {part part' : NumberPart} {bs : List UInt8}
    (hrun : part.run bs = some part') (hend : part'.isEnd) (before : List UInt8)
    {rest : List UInt8} (hrest : MarksOff rest) :
    lexFrom read (.number before part) (bs ++ rest) =
      lexFrom (.number (before.reverse ++ bs) :: read) .between rest := by
  induction bs generalizing before part with
  | nil =>
    cases hrun
    cases rest with
    | nil => simp [lexFrom, Mode.finish?, hend]
    | cons b rest =>
      have hnone := NumberPart.next?_eq_none hend (hrest b rfl)
      simp only [List.nil_append, List.append_nil, lexFrom, Mode.advance?, hnone, hend, if_true]
      cases Mode.begin? b with
      | none => rfl
      | some begun =>
        obtain ⟨t, m⟩ := begun
        simp
  | cons b bs ih =>
    simp only [NumberPart.run, List.foldlM_cons] at hrun
    obtain ⟨next, hnext, hrun⟩ := Option.bind_eq_some_iff.mp hrun
    have hb : (Mode.number before part).advance? b = some ([], .number (b :: before) next) := by
      simp [Mode.advance?, hnext]
    rw [List.cons_append, lexFrom_cons_of hb]
    simpa using ih hrun (b :: before)

/-- A token is taken as it is written, wherever it stands. -/
theorem lexFrom_spell (read : List Token) {t : Token} (ht : t.WellFormed) {rest : List UInt8}
    (hrest : t.IsNumeric → MarksOff rest) :
    lexFrom read .between (t.spell ++ rest) = lexFrom (t :: read) .between rest := by
  cases t with
  | number lexeme =>
    obtain ⟨b, bs, first, part, rfl, hbegin, hrun, hend⟩ := IsNumber.taken ht
    have hb : Mode.between.advance? b = some ([], .number [b] first) := by
      simp [Mode.advance?, hbegin]
    rw [Token.spell, List.cons_append, lexFrom_cons_of hb]
    exact lexFrom_number read hrun hend [b] (hrest trivial)
  | string raw =>
    rw [Token.spell, List.cons_append, List.cons_append, lexFrom_cons_of rfl, List.append_assoc]
    exact lexFrom_inside read ht [] rest
  | bool b => cases b <;> rfl
  | _ => rfl

end Synod.Json
