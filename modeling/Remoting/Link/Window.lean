/-!
# Remoting.Link.Window

How many bytes a reader takes from a stream at a time. The bytes that it holds stand in a window of
memory, behind those that it has used up; it takes as many bytes as fit in behind them. When there
is no room for what it needs, it moves what it holds to the front of the window, if the bytes fit
in then and no more have to be moved than were used up; otherwise the window grows, at least to
twice its size.
-/

namespace Remoting

/-- A window of memory. -/
structure Window where
  size : Nat := 8192
  /-- How many bytes at the front are used up. -/
  used : Nat := 0
  deriving DecidableEq, Repr, Inhabited

namespace Window

/-- How many bytes fit in behind those that are held. -/
def room (w : Window) (held : Nat) : Nat := w.size - w.used - held

/-- Make room for so many bytes more. -/
def reserve (w : Window) (held extra : Nat) : Window :=
  if extra ≤ w.room held then w
  else if held + extra ≤ w.size ∧ held ≤ w.used then { w with used := 0 }
  else { w with size := max (2 * w.size) (w.used + held + extra) }

/-- Use up so many bytes. -/
def use (w : Window) (n : Nat) : Window := { w with used := w.used + n }

end Window

end Remoting
