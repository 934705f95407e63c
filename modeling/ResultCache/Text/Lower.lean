/-!
# Lower case

Texts are folded to lower case as far as the result is an ASCII letter: the ASCII capitals, and the
Kelvin sign, whose lower case is a plain k. Names that are compared after folding hold ASCII alone,
so other characters need no folding.
-/

namespace ResultCache.Text

/-- The lower case of a character, where that is an ASCII letter. -/
def lowerChar (c : Char) : Char := if c.toNat = 0x212a then 'k' else c.toLower

def lower (s : String) : String := String.ofList (s.toList.map lowerChar)

end ResultCache.Text
