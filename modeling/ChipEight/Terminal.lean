import ChipEight.Keyboard

/-! A terminal as a host: its keyboard, the screen it shows and a bell. -/
namespace ChipEight

structure Terminal where
  keyboard : Keyboard := {}
  shown : Option Screen := none
  ringing : Bool := false
  deriving DecidableEq

namespace Terminal

def withKeyboard (t : Terminal) (a : Answer Keyboard α) : Answer Terminal α :=
  { result := a.result, state := { t with keyboard := a.state }, log := a.log }

def host : Host Terminal where
  peek t := t.withKeyboard t.keyboard.peek
  flush t := t.withKeyboard t.keyboard.flush
  quitRequested t := t.keyboard.quit
  beep t := { result := .ok (), state := { t with ringing := true } }
  stop t := { result := .ok (), state := { t with ringing := false } }
  isBeeping t := t.ringing
  draw screen t := { result := .ok (), state := { t with shown := some screen } }

end Terminal

end ChipEight
