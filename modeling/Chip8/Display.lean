import Chip8.Screen.Basic

/-!
Where frames go. The machine shows the whole screen after every instruction that clears it or
draws on it; what the display makes of a frame is its own affair.
-/

namespace Chip8

class Display (σ : Type) where
  /-- The display after it was shown a frame. -/
  refresh : σ → Screen → σ

/-- A display that draws nothing and remembers what it was shown last and how often. -/
structure Recorder where
  shown : Option Screen
  refreshes : Nat
deriving DecidableEq

def Recorder.empty : Recorder :=
  ⟨none, 0⟩

instance : Display Recorder where
  refresh r frame := ⟨some frame, r.refreshes + 1⟩

/-- A frame left for a renderer to pick up, with a mark that it is new. All who know the
mailbox see the same frame and the same mark. -/
structure Mailbox where
  frame : Screen
  fresh : Bool
deriving DecidableEq

def Mailbox.empty : Mailbox :=
  ⟨.blank, false⟩

/-- Whether a frame came in since the last call; the mark is taken off. -/
def Mailbox.takeFresh (m : Mailbox) : Bool × Mailbox :=
  (m.fresh, {m with fresh := false})

instance : Display Mailbox where
  refresh _ frame := ⟨frame, true⟩

/-- The list of all frames shown, the latest first. -/
instance : Display (List Screen) where
  refresh frames frame := frame :: frames

/-- Two displays that see the same frames. -/
instance {σ τ : Type} [Display σ] [Display τ] : Display (σ × τ) where
  refresh d frame := (Display.refresh d.1 frame, Display.refresh d.2 frame)

end Chip8
