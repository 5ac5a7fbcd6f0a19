import HelloNegotiation.Negotiation.Directory
import Mathlib.Data.Finset.Card

/-!
# What the operations on a directory do to its bindings

Each operation is given by the one binding that it changes, if any; the others stay as they are. A
negotiator that is gone is still bound, but is not found any more.
-/
namespace HelloNegotiation

theorem Connection.number_inj {c c' : Connection} : c.number = c'.number ↔ c = c' := by
  cases c
  cases c'
  simp

namespace Directory

/-- The negotiator bound to a connection in a role, be it alive or gone. -/
def bound (d : Directory) (role : Role) (c : Connection) : Option NegotiatorId :=
  (d.table role)[c.number]?

variable (d : Directory) (role role' : Role) (c c' : Connection) (n : NegotiatorId)

theorem lookup_eq_some_iff : d.lookup role c = some n ↔ d.bound role c = some n ∧ d.isLive n :=
  Option.filter_eq_some_iff

theorem lookup_eq_none_iff :
    d.lookup role c = none ↔ ∀ n, d.bound role c = some n → ¬ d.isLive n :=
  Option.filter_eq_none_iff

@[simp] theorem bound_empty : empty.bound role c = none := by
  cases role <;> exact Std.TreeMap.getElem?_emptyc

theorem bound_setTable (t : Bindings) : (d.setTable t role).bound role' c =
    if role = role' then t[c.number]? else d.bound role' c := by
  by_cases h : role = role'
  · subst h
    rw [bound, table_setTable_self, if_pos rfl]
  · rw [bound, table_setTable_of_ne d t h, if_neg h]
    rfl

theorem bind_of_none (h : d.lookup role c = none) :
    d.bind role c n = (true, d.setTable ((d.table role).insert c.number n) role) := by
  rw [bind, h]

theorem bind_of_ne_none (h : d.lookup role c ≠ none) : d.bind role c n = (false, d) := by
  obtain ⟨m, hm⟩ := Option.ne_none_iff_exists'.mp h
  rw [bind, hm]

theorem bound_bind (h : d.lookup role c = none) : (d.bind role c n).2.bound role' c' =
    if role = role' ∧ c = c' then some n else d.bound role' c' := by
  rw [bind_of_none d role c n h, bound_setTable, Std.TreeMap.getElem?_insert]
  simp only [Std.LawfulEqCmp.compare_eq_iff_eq, Connection.number_inj]
  by_cases hrole : role = role'
  · subst hrole
    simp [bound]
  · simp [hrole]

theorem bound_unbind : (d.unbind role c).2.bound role' c' =
    if role = role' ∧ c = c' then none else d.bound role' c' := by
  rw [unbind, bound_setTable, Std.TreeMap.getElem?_erase]
  simp only [Std.LawfulEqCmp.compare_eq_iff_eq, Connection.number_inj]
  by_cases hrole : role = role'
  · subst hrole
    simp [bound]
  · simp [hrole]

theorem bound_unbindAll : (d.unbindAll c).bound role c' =
    if c = c' then none else d.bound role c' := by
  simp only [unbindAll, List.foldl_cons, List.foldl_nil, bound_unbind]
  by_cases h : c = c'
  · cases role <;> simp [h]
  · simp [h]

@[simp] theorem isLive_bind (m : NegotiatorId) :
    (d.bind role c n).2.isLive m = d.isLive m := by
  by_cases h : d.lookup role c = none
  · rw [bind_of_none d role c n h, isLive_setTable]
  · rw [bind_of_ne_none d role c n h]

@[simp] theorem isLive_unbind : (d.unbind role c).2.isLive n = d.isLive n :=
  isLive_setTable d _ role n

@[simp] theorem isLive_unbindAll : (d.unbindAll c).isLive n = d.isLive n := by
  simp [unbindAll]

theorem isLive_drop (m : NegotiatorId) : (d.drop m).isLive n ↔ d.isLive n ∧ n ≠ m := by
  simp [drop, isLive, and_comm]

/-- The bindings of a role are as many as the connections that are bound in it. -/
theorem exists_card_eq_size : ∃ cs : Finset Connection, cs.card = d.size role ∧
    ∀ c, c ∈ cs ↔ ∃ n, d.bound role c = some n := by
  have hinjective : Function.Injective Connection.mk := fun _ _ h => Connection.mk.inj h
  have hnodup : ((d.table role).keys.map Connection.mk).Nodup :=
    Std.TreeMap.nodup_keys.map hinjective
  refine ⟨((d.table role).keys.map Connection.mk).toFinset, ?_, ?_⟩
  · rw [List.toFinset_card_of_nodup hnodup, List.length_map, Std.TreeMap.length_keys, size]
  · intro c
    rw [List.mem_toFinset, ← Option.isSome_iff_exists, bound, ← Std.TreeMap.mem_iff_isSome_getElem?,
      ← Std.TreeMap.mem_keys]
    exact List.mem_map_of_injective hinjective (a := c.number)

end Directory

end HelloNegotiation
