/-!
# Replay windows

The highest sequence number that was accepted, and which of those right below it were. What is
below the window is taken to have been accepted.
-/

namespace SecureCoap

namespace Oscore

/-- A window over the sequence numbers of received messages. -/
structure ReplayWindow where
  size : Nat
  highest : Option Nat
  /-- Bit `i` tells whether `highest - i` was accepted. -/
  seen : Nat
deriving DecidableEq, Repr

namespace ReplayWindow

def maxSize : Nat := 64

/-- An empty window over `size` sequence numbers, but at least one and at most 64. -/
def new (size : Nat) : ReplayWindow := ⟨min (max size 1) maxSize, none, 0⟩

def isEmpty (w : ReplayWindow) : Bool := w.highest.isNone

def isValid (w : ReplayWindow) (n : Nat) : Bool :=
  match w.highest with
  | none => true
  | some highest =>
    highest < n || (highest - n < w.size && !w.seen.testBit (highest - n))

/-- The bits of the window among those of a word of 64 bits. -/
def mask (w : ReplayWindow) : Nat :=
  if maxSize ≤ w.size then (1 <<< maxSize) - 1 else (1 <<< w.size) - 1

/-- The bits after the highest number went up, with one for the new highest number. -/
def moved (w : ReplayWindow) (distance : Nat) : Nat :=
  (if maxSize ≤ distance then 0 else (w.seen <<< distance) % (1 <<< maxSize)) ||| 1

/-- A window with this number marked, and perhaps with bits outside of the window. -/
def marked (w : ReplayWindow) (n : Nat) : ReplayWindow :=
  match w.highest with
  | none => { w with highest := some n, seen := w.moved maxSize }
  | some highest =>
    if n ≤ highest then
      if highest - n < maxSize then { w with seen := w.seen ||| 1 <<< (highest - n) } else w
    else { w with highest := some n, seen := w.moved (n - highest) }

/-- Marks a sequence number as accepted. A new highest number moves the window. -/
def strikeOut (w : ReplayWindow) (n : Nat) : ReplayWindow :=
  { w.marked n with seen := (w.marked n).seen &&& (w.marked n).mask }

end ReplayWindow

end Oscore

end SecureCoap
