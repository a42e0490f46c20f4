/-!
# Styled text

A console may show colors and may show pictographs. Where it does not, texts are plain and icons
are single characters.
-/

namespace BuildMatrix.Console

/-- How a text is set off from the text around it. -/
inductive Tone where
  | bold
  | dim
  | red
  | green
  | yellow
  | cyan
deriving DecidableEq, Repr

/-- The parameter of the control sequence that selects a tone. -/
def Tone.parameter : Tone → String
  | bold => "1"
  | dim => "2"
  | red => "31"
  | green => "32"
  | yellow => "33"
  | cyan => "36"

/-- What a line is about. -/
inductive Icon where
  | check
  | cross
  | waiting
  | info
  | warning
  | launch
  | skip
  | package
deriving DecidableEq, Repr

def Icon.pictograph : Icon → String
  | check => "✅ "
  | cross => "❌ "
  | waiting => "⏳ "
  | info => "ℹ️  "
  | warning => "⚠️  "
  | launch => "🚀 "
  | skip => "⏭️  "
  | package => "📦 "

def Icon.mark : Icon → String
  | check => "✓ "
  | cross => "✗ "
  | waiting => "~ "
  | info => "i "
  | warning => "! "
  | launch => "> "
  | skip => "- "
  | package => "# "

structure Display where
  colors : Bool
  pictographs : Bool
deriving DecidableEq, Repr

namespace Display

def control (parameter : String) : String := "\x1b[" ++ parameter ++ "m"

/-- A text in some tones, selected one after the other. -/
def paint (display : Display) (tones : List Tone) (text : String) : String :=
  if display.colors && !tones.isEmpty then
    String.join (tones.map fun tone => control tone.parameter) ++ text ++ control "0"
  else text

/-- An icon, with the blank that follows it. -/
def icon (display : Display) (icon : Icon) : String :=
  if display.pictographs then icon.pictograph else icon.mark

end Display

end BuildMatrix.Console
