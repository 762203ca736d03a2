/-
  STYLES — how pieces of a line look in a terminal.

  1. **Colours and styles** — a style is a foreground colour, or none, and whether the text is
     bold.  It is switched on by an escape sequence; what is bold says so first.

  2. **Lines of spans** — a line is made of spans, each a text with its style.  Written with
     colour, a span of a style of its own is opened by its sequence and closed by a reset;
     written without, a line is its texts.
-/

namespace CommandLauncher

/-! ## Colours and styles -/

/-- The eight basic colours. -/
inductive Hue where
  | black
  | red
  | green
  | yellow
  | blue
  | magenta
  | cyan
  | white
deriving DecidableEq, Repr

/-- The number of a basic colour. -/
def Hue.number : Hue → Nat
  | black => 0
  | red => 1
  | green => 2
  | yellow => 3
  | blue => 4
  | magenta => 5
  | cyan => 6
  | white => 7

/-- A foreground colour: a basic one, a bright one, or a mixture. -/
inductive Color where
  | basic (h : Hue)
  | bright (h : Hue)
  | mixed (red green blue : Nat)
deriving DecidableEq, Repr

/-- How a text looks. -/
structure Style where
  color : Option Color := none
  bold : Bool := false
deriving DecidableEq, Repr

/-- An escape sequence. -/
def escapeSequence (code : String) : String := "\x1b[" ++ code ++ "m"

/-- What switches a colour on. -/
def Color.sequence : Color → String
  | basic h => escapeSequence (toString (30 + h.number))
  | bright h => escapeSequence (toString (90 + h.number))
  | mixed r g b =>
    escapeSequence ("38;2;" ++ toString r ++ ";" ++ toString g ++ ";" ++ toString b)

namespace Style

/-- The style of ordinary text. -/
def ordinary : Style := {}

/-- The style of text that stands back. -/
def dim : Style := { color := some (.bright .black) }

/-- The style of text that stands out. -/
def strong : Style := { bold := true }

/-- What switches a style on. -/
def sequence (s : Style) : String :=
  (if s.bold then escapeSequence "1" else "") ++
    (match s.color with
     | some c => c.sequence
     | none => "")

/-- What switches every style off. -/
def reset : String := escapeSequence "0"

/-- A text in a style. -/
def paint (s : Style) (text : String) : String := s.sequence ++ text ++ reset

end Style

/-! ## Lines of spans -/

/-- A piece of a line. -/
structure Span where
  text : String
  style : Style := .ordinary
deriving DecidableEq, Repr

/-- A span as it is written. -/
def Span.write (color : Bool) (s : Span) : String :=
  if color && s.style ≠ .ordinary then s.style.paint s.text else s.text

/-- A line of spans as it is written. -/
def writeLine (color : Bool) (spans : List Span) : String :=
  String.join (spans.map (Span.write color))

@[simp]
theorem Span.write_ordinary (color : Bool) (text : String) :
    Span.write color ⟨text, .ordinary⟩ = text := by
  simp [Span.write]

@[simp]
theorem writeLine_nil (color : Bool) : writeLine color [] = "" := rfl

/-- A line is written span after span. -/
theorem writeLine_cons (color : Bool) (s : Span) (rest : List Span) :
    writeLine color (s :: rest) = s.write color ++ writeLine color rest := by
  rw [writeLine, List.map_cons, String.join_cons]
  rfl

/-! ## Running it -/

example : writeLine true [⟨"a", .strong⟩, ⟨" b", .ordinary⟩] = "\x1b[1ma\x1b[0m b" := by
  decide +kernel
example : writeLine false [⟨"a", .strong⟩, ⟨" b", .ordinary⟩] = "a b" := by decide +kernel

end CommandLauncher
