import Synod.LogFilter.Directive

/-!
# Log filters

A filter is a list of directives, separated by commas. What is logged outside of all spans is
let through by the directive that fits it most exactly: of those whose target it begins with and
whose fields it has, the one with the longest target, and then the one with the most fields. A
filter that cannot be read counts as none.
-/
namespace Synod

inductive Severity
  | error
  | warn
  | info
  | debug
  | trace
  deriving DecidableEq, Repr

namespace Severity

def name : Severity → String
  | error => "ERROR"
  | warn => "WARN"
  | info => "INFO"
  | debug => "DEBUG"
  | trace => "TRACE"

/-- How much has to be let through before this is. -/
def rank : Severity → Nat
  | error => 1
  | warn => 2
  | info => 3
  | debug => 4
  | trace => 5

end Severity

structure LogFilter where
  directives : List LogFilter.Directive
  deriving DecidableEq, Repr

namespace LogFilter

/-- Information from everywhere and, from the program's own target, also what helps to find
faults. -/
def standard (own : String) : LogFilter :=
  ⟨[⟨none, none, [], Severity.info.rank⟩, ⟨some own, none, [], Severity.debug.rank⟩]⟩

/-- The filter that a text writes; the standard one if there is no text or it cannot be read. The
first directive that cannot be read decides, and there is no filter at all if it is torn. -/
def read? (own : String) (text : Option String) : Option LogFilter :=
  match text with
  | none => some (standard own)
  | some text =>
    match ((text.splitOn ",").filter (· ≠ "")).mapM Directive.read with
    | .ok directives => some ⟨directives⟩
    | .error .unreadable => some (standard own)
    | .error .torn => none

namespace Directive

/-- Whether a directive is about something that is logged with these fields from this target,
outside of all spans. -/
def Fits (d : Directive) (target : String) (fields : List String) : Prop :=
  d.span = none ∧ d.target.all (fun t => target.startsWith t) = true ∧
    ∀ test ∈ d.fields, test.hasValue = false ∧ test.name ∈ fields

instance (d : Directive) (target : String) (fields : List String) : Decidable (d.Fits target fields) :=
  inferInstanceAs (Decidable (d.span = none ∧ d.target.all (fun t => target.startsWith t) = true ∧
    ∀ test ∈ d.fields, test.hasValue = false ∧ test.name ∈ fields))

/-- How exactly a directive says what it is about: the length of its target, none being the
least, and its fields. -/
def targetWeight (d : Directive) : Nat := d.target.elim 0 (·.utf8ByteSize + 1)

def fieldNames (d : Directive) : List String := d.fields.map (·.name)

/-- Whether a directive is less exact than another one. -/
def LessExact (d e : Directive) : Prop :=
  d.targetWeight < e.targetWeight ∨ d.targetWeight = e.targetWeight ∧
    (d.fields.length < e.fields.length ∨
      d.fields.length = e.fields.length ∧ d.fieldNames < e.fieldNames)

instance (d e : Directive) : Decidable (d.LessExact e) :=
  inferInstanceAs (Decidable (d.targetWeight < e.targetWeight ∨ d.targetWeight = e.targetWeight ∧
    (d.fields.length < e.fields.length ∨
      d.fields.length = e.fields.length ∧ d.fieldNames < e.fieldNames)))

end Directive

/-- The most exact directive of some; of several the last one. -/
def mostExact? : List Directive → Option Directive
  | [] => none
  | d :: rest =>
    match mostExact? rest with
    | none => some d
    | some e => if e.LessExact d then some d else some e

/-- Whether something logged is let through. -/
def lets (f : LogFilter) (target : String) (severity : Severity) (fields : List String) : Bool :=
  match mostExact? (f.directives.filter fun d => d.Fits target fields) with
  | none => false
  | some d => severity.rank ≤ d.rank

end LogFilter
end Synod
