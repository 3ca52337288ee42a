import CellCanvas.Color.Shown
import CellCanvas.Style.Attributes

/-!
# Graphic rendition

A terminal style has colours that the terminal can show and attributes that it supports. It is
selected by a list of parameters, either after a reset or as a change from the style before. A
change can only add attributes, so taking one away needs the reset.
-/

namespace CellCanvas

/-- A style as the terminal shows it. -/
structure SgrStyle where
  foreground : ShownColor
  background : ShownColor
  attributes : Attributes
  /-- Underline colour; zero stands for the terminal's own choice. -/
  underline : Color
deriving DecidableEq, Repr

/-- One parameter of a graphic rendition sequence. -/
inductive SgrParameter where
  | turnOn (x : Attribute)
  | foreground (c : ShownColor)
  | background (c : ShownColor)
  | underline (c : Color)
  | defaultUnderline
deriving DecidableEq, Repr

namespace SgrParameter

/-- The pieces of a colour parameter whose plain codes start at `base`. The first eight palette
entries have codes of their own, the next eight the bright codes, the rest the extended form. -/
def colorPieces (base : Nat) : ShownColor → List String
  | .indexed i =>
    if i.toNat < 8 then [toString (base + i.toNat)]
    else if i.toNat < 16 then [toString (base + 52 + i.toNat)]
    else [toString (base + 8), ";5;", toString i.toNat]
  | .direct r g b =>
    [toString (base + 8), ";2;", toString r.toNat, ";", toString g.toNat, ";", toString b.toNat]

/-- The written pieces of a parameter. -/
def pieces : SgrParameter → List String
  | turnOn x => [toString x.sgrCode]
  | foreground c => colorPieces 30 c
  | background c => colorPieces 40 c
  | underline c => ["58:2::", toString c.red, ":", toString c.green, ":", toString c.blue]
  | defaultUnderline => ["59"]

end SgrParameter

namespace SgrStyle

/-- The parameters that establish a style after a reset. -/
def parameters (s : SgrStyle) : List SgrParameter :=
  (Attribute.byCode.filter s.attributes.has).map .turnOn
    ++ [.foreground s.foreground, .background s.background]
    ++ (if s.underline.word = 0 then [] else [.underline s.underline])

/-- Whether a change from `a` to `b` only adds attributes. -/
def onlyAdds (a b : SgrStyle) : Bool := (a.attributes.without b.attributes).isEmpty

/-- The parameters that change style `a` into `b` when no attribute is taken away. -/
def changes (a b : SgrStyle) : List SgrParameter :=
  (Attribute.byCode.filter (b.attributes.without a.attributes).has).map .turnOn
    ++ (if a.foreground = b.foreground then [] else [.foreground b.foreground])
    ++ (if a.background = b.background then [] else [.background b.background])
    ++ (if a.underline = b.underline then []
        else if b.underline.word = 0 then [.defaultUnderline]
        else [.underline b.underline])

end SgrStyle

end CellCanvas
