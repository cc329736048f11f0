/-!
# Numbers in directives

A number has digits with at most one point among them, and perhaps a sign in front and an
exponent behind; or it is a word for what is infinite or no number at all.
-/
namespace Synod.LogFilter

/-- Whether digits, with a point somewhere and an exponent at the end, write a number. -/
def isDecimal (text : List Char) : Bool :=
  let isExponentMark (c : Char) : Bool := c = 'e' || c = 'E'
  let digits := (text.takeWhile fun c => !isExponentMark c).filter (· ≠ '.')
  let points := (text.takeWhile fun c => !isExponentMark c).countP (· = '.')
  let exponent := match text.dropWhile fun c => !isExponentMark c with
    | [] => ['0']
    | _ :: '+' :: rest | _ :: '-' :: rest | _ :: rest => rest
  let isNumeral (cs : List Char) : Bool := !cs.isEmpty && cs.all Char.isDigit
  isNumeral digits && points ≤ 1 && isNumeral exponent

/-- Whether a text writes a number, with or without a sign. -/
def isNumber (text : List Char) : Bool :=
  let magnitude := match text with
    | '+' :: rest | '-' :: rest => rest
    | _ => text
  isDecimal magnitude || (String.ofList magnitude).toLower ∈ ["inf", "infinity", "nan"]

end Synod.LogFilter
