import Mathlib.Data.List.Basic
import Mathlib.Data.List.Infix

/-!
# Replacing in a text

Python's `str.replace` with a text that is not empty: the occurrences are taken
from the left and do not overlap.
-/

namespace Alignak

def replaceAfter (old new : List Char) : Nat → List Char → List Char
  | _, [] => []
  | covered + 1, _ :: text => replaceAfter old new covered text
  | 0, c :: text =>
    if old.isPrefixOf (c :: text) then new ++ replaceAfter old new (old.length - 1) text
    else c :: replaceAfter old new 0 text

def replace (old new text : List Char) : List Char := replaceAfter old new 0 text

end Alignak
