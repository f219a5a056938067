/-
  GridQuery.Bindings — names bound to numbers, a stack.

  The newest binding comes first, and a name means its newest binding: an older one of the same
  name is hidden until the newer is gone. `cutTo n` takes the newest bindings off until at
  most `n` are left; the oldest are never touched (`oldestFirst_cutTo`).
-/

namespace GridQuery

abbrev Bindings := List (String × Int32)

namespace Bindings

def push (b : Bindings) (name : String) (value : Int32) : Bindings := (name, value) :: b

/-- The newest binding, and what is left without it. -/
def pop (b : Bindings) : Option (String × Int32) × Bindings := (b.head?, b.tail)

def lookup (b : Bindings) (name : String) : Option Int32 := List.lookup name b

def isBound (b : Bindings) (name : String) : Bool := (b.lookup name).isSome

def cutTo (depth : Nat) (b : Bindings) : Bindings := b.drop (b.length - depth)

def oldestFirst (b : Bindings) : List (String × Int32) := b.reverse

def ofOldestFirst (bs : List (String × Int32)) : Bindings := bs.reverse

theorem lookup_push (b : Bindings) (name x : String) (value : Int32) :
    (b.push name value).lookup x = if x = name then some value else b.lookup x := by
  simp only [push, lookup, List.lookup_cons]
  split <;> simp_all

@[simp] theorem length_cutTo (depth : Nat) (b : Bindings) : (cutTo depth b).length = min depth b.length := by
  simp only [cutTo, List.length_drop]
  omega

/-- Cutting back to a depth undoes everything that was put on top of it. -/
@[simp] theorem cutTo_append (above b : Bindings) : cutTo b.length (above ++ b) = b := by
  simp [cutTo]

/-- What lies above a depth does not matter for a cut to it. -/
theorem cutTo_of_suffix {depth : Nat} {b b' : Bindings} (h : b' <:+ b) (hdepth : depth ≤ b'.length) :
    cutTo depth b = cutTo depth b' := by
  obtain ⟨above, rfl⟩ := h
  have hdrop : (above ++ b').length - depth = above.length + (b'.length - depth) := by
    rw [List.length_append]
    omega
  rw [cutTo, hdrop, List.drop_length_add_append, cutTo]

theorem cutTo_cutTo {m n : Nat} (h : m ≤ n) (b : Bindings) : cutTo m (cutTo n b) = cutTo m b := by
  simp only [cutTo, List.drop_drop, List.length_drop]
  congr 1
  omega

theorem oldestFirst_cutTo (depth : Nat) (b : Bindings) : (cutTo depth b).oldestFirst = b.oldestFirst.take depth :=
  List.take_reverse.symm

end Bindings

end GridQuery
