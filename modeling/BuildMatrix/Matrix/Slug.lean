/-!
# Slugs

A slug is a name that is safe as one component of a path on every file system: lowercase ASCII
letters and digits in groups joined by single dashes. Any text has a slug; a text without letters
and digits has the slug `default`.
-/

namespace BuildMatrix.Slug

/-- The ASCII letters and digits, the only characters that a slug takes from a text. -/
def isKept (c : Char) : Bool := c.isAlphanum

/--
The text with each kept character in lowercase and one dash for each maximal run of the other
characters. The flag tells whether the output so far ends in a dash.
-/
def dashed : (afterDash : Bool) → List Char → List Char
  | _, [] => []
  | afterDash, c :: s =>
    if isKept c then c.toLower :: dashed false s
    else if afterDash then dashed true s
    else '-' :: dashed true s

/-- Removes the dashes at both ends. -/
def trimDashes (s : List Char) : List Char :=
  ((s.dropWhile (· == '-')).reverse.dropWhile (· == '-')).reverse

def ofChars (s : List Char) : List Char :=
  match trimDashes (dashed false s) with
  | [] => "default".toList
  | slug => slug

end BuildMatrix.Slug
