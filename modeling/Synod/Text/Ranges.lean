/-!
# Classes of characters

A class of characters is a list of ascending bounds: at the first one the class begins, at the
second one it ends, at the third one it begins again, and so on.
-/
namespace Synod.Text

/-- Whether a number lies in a class, `inside` being the answer for all that is below the bounds. -/
def within (n : Nat) : (inside : Bool) → (bounds : List Nat) → Bool
  | inside, [] => inside
  | inside, bound :: rest => if n < bound then inside else within n (!inside) rest

end Synod.Text
