/-!
# Four values side by side

Block functions arrange their state in rows of four words and treat a row as one value.
A row is a `Quad`; arithmetic on rows is arithmetic on each place.
-/

namespace Noise

/-- Four values side by side. -/
structure Quad (α : Type) where
  x0 : α
  x1 : α
  x2 : α
  x3 : α
deriving DecidableEq, Repr

namespace Quad

variable {α β γ : Type}

/-- The function at each place. -/
@[inline] def map (f : α → β) (quad : Quad α) : Quad β :=
  ⟨f quad.x0, f quad.x1, f quad.x2, f quad.x3⟩

/-- The function at each pair of places. -/
@[inline] def zipWith (f : α → β → γ) (left : Quad α) (right : Quad β) : Quad γ :=
  ⟨f left.x0 right.x0, f left.x1 right.x1, f left.x2 right.x2, f left.x3 right.x3⟩

/-- The places moved to the left by one; the first becomes the last. -/
def rotate (quad : Quad α) : Quad α := ⟨quad.x1, quad.x2, quad.x3, quad.x0⟩

def toList (quad : Quad α) : List α := [quad.x0, quad.x1, quad.x2, quad.x3]

/-- The first four values of a list, with `fallback` in the places that the
list does not reach. -/
def ofList (fallback : α) (values : List α) : Quad α :=
  ⟨values.getD 0 fallback, values.getD 1 fallback, values.getD 2 fallback,
    values.getD 3 fallback⟩

@[simp] theorem length_toList (quad : Quad α) : quad.toList.length = 4 := rfl

@[simp] theorem ofList_toList (fallback : α) (quad : Quad α) :
    ofList fallback quad.toList = quad := rfl

end Quad

end Noise
