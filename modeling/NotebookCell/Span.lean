/-!
# Byte ranges

A `Span` is the half-open range `[start, stop)` of byte positions of a text. Positions count the
bytes of the UTF-8 form, so `byteLength` is the measure that every span refers to.
-/

namespace NotebookCell

structure Span where
  start : Nat
  stop : Nat
  deriving DecidableEq, Repr, Inhabited

/-- The smallest span from the start of `a` to the end of `b`. -/
def Span.to (a b : Span) : Span := ⟨a.start, b.stop⟩

/-- The span moved `n` bytes to the right. -/
def Span.shift (n : Nat) (s : Span) : Span := ⟨s.start + n, s.stop + n⟩

def byteLength : List Char → Nat
  | [] => 0
  | c :: cs => c.utf8Size + byteLength cs

@[simp] theorem byteLength_nil : byteLength [] = 0 := rfl

@[simp] theorem byteLength_cons (c : Char) (cs : List Char) :
    byteLength (c :: cs) = c.utf8Size + byteLength cs := rfl

@[simp] theorem byteLength_append (cs ds : List Char) :
    byteLength (cs ++ ds) = byteLength cs + byteLength ds := by
  induction cs with
  | nil => simp
  | cons c cs ih => simp [ih, Nat.add_assoc]

end NotebookCell
