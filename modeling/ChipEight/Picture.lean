import ChipEight.Screen

/-! The screen as lines of text in a box, one character a pixel. -/
namespace ChipEight

structure Palette where
  lit : Char
  dark : Char

def pictureTitle : String := "CHIP-8"

namespace Screen

def rowText (p : Palette) (s : Screen) (y : Nat) : String :=
  String.ofList ((List.range 64).map fun x => if s.pixel x y then p.lit else p.dark)

def rule (n : Nat) : String := String.ofList (List.replicate n '─')

/-- The title stands in the upper edge, right after the corner. -/
def picture (p : Palette) (s : Screen) : List String :=
  ["┌" ++ pictureTitle ++ rule (64 - pictureTitle.length) ++ "┐"] ++
    (List.range 32).map (fun y => "│" ++ s.rowText p y ++ "│") ++
    ["└" ++ rule 64 ++ "┘"]

theorem length_picture (p : Palette) (s : Screen) : (s.picture p).length = 34 := by
  simp [picture]

end Screen

end ChipEight
