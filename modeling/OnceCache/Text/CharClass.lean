import OnceCache.Text.CharClass.Combining
import OnceCache.Text.CharClass.Unprintable

namespace OnceCache.CharClass

-- Whether a code point lies in one of the ranges, which are in ascending order.
def within (ranges : List (Nat × Nat)) (codePoint : Nat) : Bool :=
  match ranges with
  | [] => false
  | (first, last) :: rest =>
    if codePoint < first then false
    else if codePoint ≤ last then true
    else within rest codePoint

def isPrintable (c : Char) : Bool := !within unprintableRanges c.toNat

def isCombining (c : Char) : Bool := within combiningRanges c.toNat

end OnceCache.CharClass
