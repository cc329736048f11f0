import Synod.LogFilter.Number
import Synod.LogFilter.Pattern
import Synod.Text.Blank
import Synod.Text.Numeral
import Synod.Text.Utf8

/-!
# Directives of a log filter

A directive is a level, or names what the level is for: a target, a span in brackets with fields
in braces, or both. It is read without the blanks around it, and places in it are counted from
its first character; but what stands between two places is taken from the text with its blanks.
So blanks in front shift every name, and a shifted place may lie inside a character: then the
directive is torn.
-/
namespace Synod.LogFilter

/-- Why a directive cannot be read. -/
inductive DirectiveFault
  | unreadable
  /-- A place lies inside a character. -/
  | torn
  deriving DecidableEq, Repr

/-- A field that something logged has to have, and whether it has to have a certain value. -/
structure FieldTest where
  name : String
  hasValue : Bool
  deriving DecidableEq, Repr

/-- Whatever has at most this rank passes, if it fits the rest. -/
structure Directive where
  target : Option String
  span : Option String
  fields : List FieldTest
  rank : Nat
  deriving DecidableEq, Repr

/-- The rank that lets everything pass. -/
def everything : Nat := 5

/-- The rank that a level's name or number stands for; `off` lets nothing pass. -/
def rank? (level : String) : Option Nat :=
  match Numeral.word? level.toList with
  | some n => if n.toNat ≤ everything then some n.toNat else none
  | none =>
    match level.toLower with
    | "off" => some 0
    | "error" => some 1
    | "warn" => some 2
    | "info" => some 3
    | "debug" => some 4
    | "trace" => some 5
    | _ => none

/-- Whether a text says which values are meant: one number, or those that fit a pattern. -/
def isValue (text : String) : Bool := isNumber text.toList || isPattern text.toList

def FieldTest.read (text : String) : Except DirectiveFault FieldTest :=
  match text.splitOn "=" with
  | name :: value :: _ => if isValue value then .ok ⟨name, true⟩ else .error .unreadable
  | _ => if text = "" then .error .unreadable else .ok ⟨text, false⟩

/-- What part of a directive is under way, and the place where it began. -/
inductive DirectivePart
  | start
  | word (begun : Nat)
  | span (begun : Nat)
  | field (begun : Nat)
  | afterFields
  | afterSpan
  | level (begun : Nat)
  deriving DecidableEq, Repr

namespace Directive

/-- Whether a place in a text is not inside a character. -/
def isPlace (text : List UInt8) (place : Nat) : Bool :=
  match text[place]? with
  | some b => b < 0x80 || 0xC0 ≤ b
  | none => place = text.length

/-- What stands between two places. -/
def cut (text : List UInt8) (first last : Nat) : Except DirectiveFault String :=
  if isPlace text first ∧ isPlace text last then
    match Text.ofBytes? ((text.take last).drop first) with
    | some s => .ok s
    | none => .error .torn
  else .error .torn

/-- Whether a character may begin the name of a target. -/
def isTargetStart (c : Char) : Bool :=
  c = '-' || c = ':' || c = '_' || Text.isAlphanumeric c

/-- One character more, and what has been read by then. -/
def advance (text : List UInt8) (d : Directive) (part : DirectivePart) (place : Nat) (c : Char) :
    Except DirectiveFault (Directive × DirectivePart) :=
  match part with
  | .start =>
    if c = '[' then .ok (d, .span (place + 1))
    else if isTargetStart c then .ok (d, .word place)
    else .error .unreadable
  | .word begun =>
    if c = '=' then do
      return ({ d with target := ← cut text begun place }, .level (place + 1))
    else if c = '[' then do
      return ({ d with target := ← cut text begun place }, .span (place + 1))
    else .ok (d, .word begun)
  | .span begun =>
    if c = ']' then do
      return ({ d with span := ← cut text begun place }, .afterSpan)
    else if c = '\x7b' then do
      let name ← cut text begun place
      return ({ d with span := if name = "" then none else some name }, .field (place + 1))
    else .ok (d, .span begun)
  | .field begun =>
    if c = '\x7d' then do
      let test ← FieldTest.read (← cut text begun place)
      return ({ d with fields := d.fields ++ [test] }, .afterFields)
    else .ok (d, .field begun)
  | .afterFields => if c = ']' then .ok (d, .afterSpan) else .error .unreadable
  | .afterSpan => if c = '=' then .ok (d, .level (place + 1)) else .error .unreadable
  | .level begun => .ok (d, .level begun)

/-- The end of a directive. A lone word is a level if it can be; what has no level has them all. -/
def finish (text : List UInt8) (d : Directive) : DirectivePart → Except DirectiveFault Directive
  | .word begun => do
    let word ← cut text begun text.length
    return match rank? word with
      | some rank => { d with rank }
      | none => { d with target := some word }
  | .level begun => do
    let level ← cut text begun text.length
    if level = "" then return d
    match rank? level with
    | some rank => return { d with rank }
    | none => .error .unreadable
  | .afterSpan => .ok d
  | _ => .error .unreadable

def readFrom (text : List UInt8) (d : Directive) (part : DirectivePart) (place : Nat) :
    List Char → Except DirectiveFault Directive
  | [] => d.finish text part
  | c :: rest =>
    match d.advance text part place c with
    | .error e => .error e
    | .ok (d, part) => readFrom text d part (place + c.utf8Size) rest

def read (text : String) : Except DirectiveFault Directive :=
  readFrom (Text.toBytes text) ⟨none, none, [], everything⟩ .start 0 (Text.trim text.toList)

end Directive
end Synod.LogFilter
