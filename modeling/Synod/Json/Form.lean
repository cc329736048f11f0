import Synod.Json.Escape
import Synod.Json.Parser
import Synod.Json.Printer

/-!
# Typed forms of JSON values

A type with a `JsonForm` has one way to be written and a rule for what is read as it. Structures
are written as objects with their fields in order. They are read from objects whose members
stand in any order, unknown ones being passed over, or from arrays of the fields in order.
-/
namespace Synod

class JsonForm (α : Type) where
  toJson : α → Json
  ofJson? : Json → Option α

namespace JsonForm
variable {α : Type} [JsonForm α]

def compact (a : α) : List UInt8 := (toJson a).compact

def pretty (a : α) : List UInt8 := (toJson a).pretty

/-- The value that a text writes in the form of `α`. -/
def read? (text : List UInt8) : Option α := (Json.read? text).bind ofJson?

end JsonForm

namespace Json
open JsonForm

/-- A number written with digits alone. -/
def natural? : Json → Option Nat
  | .number lexeme => if lexeme.all Numeral.isDigit then some (Numeral.ofDigits lexeme) else none
  | _ => none

def ofNat (n : Nat) : Json := .number (Numeral.decimal n)

/-- A natural number below a bound. -/
def below? (bound : Nat) (j : Json) : Option Nat :=
  j.natural?.bind fun n => if n < bound then some n else none

instance : JsonForm UInt64 where
  toJson n := ofNat n.toNat
  ofJson? j := (j.below? UInt64.size).map UInt64.ofNat

instance : JsonForm UInt32 where
  toJson n := ofNat n.toNat
  ofJson? j := (j.below? UInt32.size).map UInt32.ofNat

instance : JsonForm UInt8 where
  toJson n := ofNat n.toNat
  ofJson? j := (j.below? UInt8.size).map UInt8.ofNat

instance : JsonForm Bool where
  toJson b := .bool b
  ofJson?
    | .bool b => some b
    | _ => none

instance : JsonForm String where
  toJson s := .string (ofText s)
  ofJson?
    | .string raw => text? raw
    | _ => none

instance {α : Type} [JsonForm α] : JsonForm (Option α) where
  toJson
    | none => .null
    | some a => toJson a
  ofJson?
    | .null => some none
    | j => (ofJson? j).map some

instance {α : Type} [JsonForm α] : JsonForm (List α) where
  toJson as := .array (as.map toJson)
  ofJson?
    | .array items => items.mapM ofJson?
    | _ => none

/-- An object with the given fields, in order. -/
def ofFields (fields : List (String × Json)) : Json :=
  .object (fields.map fun (name, j) => (ofText name, j))

/-- The members of an object, their keys being text. -/
def namedMembers? (members : List (List UInt8 × Json)) : Option (List (String × Json)) :=
  members.mapM fun (raw, j) => (text? raw).map (·, j)

/-- The only member of a name; absent if there is none, refused if there are several. -/
def only? (members : List (String × Json)) (name : String) : Option (Option Json) :=
  match members.filter (·.1 = name) with
  | [] => some none
  | [member] => some (some member.2)
  | _ => none

/-- The fields of a structure by the given names. An array has to be as long as the list of
names; with `short`, some of the last fields may be missing. -/
def fields? (names : List String) (short : Bool) : Json → Option (List (Option Json))
  | .object members => do
    let members ← namedMembers? members
    names.mapM (only? members)
  | .array items =>
    if items.length = names.length ∨ (short ∧ items.length ≤ names.length) then
      some (items.map some ++ List.replicate (names.length - items.length) none)
    else none
  | _ => none

/-- A field that has to be there. -/
def required? {α : Type} [JsonForm α] (field : Option Json) : Option α := field.bind ofJson?

/-- A field that may be missing, and then has a value of its own. -/
def orElse? {α : Type} [JsonForm α] (missing : α) : Option Json → Option α
  | none => some missing
  | some j => ofJson? j

end Json
end Synod
