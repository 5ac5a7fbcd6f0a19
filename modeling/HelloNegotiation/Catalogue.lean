import HelloNegotiation.ExtensionType
import Std.Data.TreeMap

/-!
# The catalogue of extension types

It begins with the named types and gains an unnamed one whenever an unheard-of number is looked
up; it never loses one.
-/
namespace HelloNegotiation

structure Catalogue where
  types : Std.TreeMap UInt16 ExtensionType

namespace Catalogue

def initial : Catalogue := ⟨ExtensionType.named.foldl (fun m t => m.insert t.id t) ∅⟩

/-- The type with this number, which the catalogue holds afterwards. -/
def resolve (c : Catalogue) (id : UInt16) : ExtensionType × Catalogue :=
  match c.types[id]? with
  | some t => (t, c)
  | none => (.unnamed id, ⟨c.types.insert id (.unnamed id)⟩)

def contains (c : Catalogue) (id : UInt16) : Bool := c.types.contains id

def size (c : Catalogue) : Nat := c.types.size

theorem size_initial : initial.size = 16 := by decide +kernel

theorem resolve_of_some {c : Catalogue} {id : UInt16} {t : ExtensionType}
    (h : c.types[id]? = some t) : c.resolve id = (t, c) := by
  rw [resolve, h]

theorem resolve_of_none {c : Catalogue} {id : UInt16} (h : c.types[id]? = none) :
    c.resolve id = (.unnamed id, ⟨c.types.insert id (.unnamed id)⟩) := by
  rw [resolve, h]

theorem contains_eq (c : Catalogue) (id : UInt16) : c.contains id = (c.types[id]?).isSome :=
  Std.TreeMap.contains_eq_isSome_getElem?

theorem contains_resolve (c : Catalogue) (id other : UInt16) :
    (c.resolve id).2.contains other = (id == other || c.contains other) := by
  cases h : c.types[id]? with
  | some t =>
    rw [resolve_of_some h]
    by_cases e : id = other
    · subst e
      simp [contains_eq, h]
    · simp [e]
  | none =>
    rw [resolve_of_none h]
    by_cases e : id = other
    · subst e
      simp [contains]
    · have : compare id other ≠ .eq := fun he => e (Std.LawfulEqCmp.eq_of_compare he)
      rw [contains, Std.TreeMap.contains_insert, beq_false_of_ne this, beq_false_of_ne e]
      rfl

theorem size_resolve (c : Catalogue) (id : UInt16) :
    (c.resolve id).2.size = if c.contains id then c.size else c.size + 1 := by
  cases h : c.types[id]? with
  | some t => simp [resolve_of_some h, contains_eq, h]
  | none =>
    rw [resolve_of_none h]
    exact Std.TreeMap.size_insert

end Catalogue

end HelloNegotiation
