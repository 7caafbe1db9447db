/-!
# Lower case

The lower case of a character as far as it can be an ASCII letter. Outside ASCII
only the Kelvin sign has such a lower case, so a text whose lower case is an ASCII
word is recognised exactly.
-/

namespace Noise.Text

/-- The lower case of a character, if that is an ASCII letter; any other
character stays. -/
def lower (char : Char) : Char := if char = '\u212a' then 'k' else char.toLower

end Noise.Text
