import HelloNegotiation.Catalogue
import Mathlib.Data.Finset.Card

/-!
# What a catalogue holds after any number of look-ups

Whatever was looked up before, a number resolves to the type that has it, with its name if it is
one of the named types. Each look-up adds a type if its number is new, so the catalogue holds the
named types and the types looked up, and nothing else (`size_resolveAll_initial`).
-/
namespace HelloNegotiation.Catalogue

/-- The catalogues that looking numbers up can lead to. -/
inductive Reachable : Catalogue → Prop
  | initial : Reachable initial
  | resolve {c : Catalogue} (h : Reachable c) (id : UInt16) : Reachable (c.resolve id).2

private theorem getElem?_foldl_insert (ts : List ExtensionType)
    (m : Std.TreeMap UInt16 ExtensionType) (id : UInt16) (h : (ts.map (·.id)).Nodup) :
    (ts.foldl (fun m t => m.insert t.id t) m)[id]? = (ts.find? (·.id == id)).or m[id]? := by
  induction ts generalizing m with
  | nil => rfl
  | cons t ts ih =>
    obtain ⟨ht, hts⟩ := List.nodup_cons.mp h
    rw [List.foldl_cons, ih _ hts, Std.TreeMap.getElem?_insert, List.find?_cons]
    by_cases hid : t.id = id
    · subst hid
      have hnone : ts.find? (·.id == t.id) = none := by
        apply List.find?_eq_none.mpr
        intro u hu hut
        exact ht (List.mem_map.mpr ⟨u, hu, beq_iff_eq.mp hut⟩)
      simp [hnone]
    · have hne : (t.id == id) = false := beq_false_of_ne hid
      simp [hid, hne]

theorem getElem?_initial (id : UInt16) :
    initial.types[id]? = ExtensionType.named.find? (·.id == id) := by
  have hdistinct : (ExtensionType.named.map (·.id)).Nodup := by decide
  simpa [initial] using getElem?_foldl_insert ExtensionType.named ∅ id hdistinct

theorem fst_resolve (c : Catalogue) (id : UInt16) :
    (c.resolve id).1 = c.types[id]?.getD (.unnamed id) := by
  cases h : c.types[id]? with
  | none => rw [resolve_of_none h]; rfl
  | some t => rw [resolve_of_some h]; rfl

/-- A look-up changes what no look-up answers. -/
theorem fst_resolve_resolve (c : Catalogue) (id other : UInt16) :
    ((c.resolve other).2.resolve id).1 = (c.resolve id).1 := by
  cases h : c.types[other]? with
  | some t => rw [resolve_of_some h]
  | none =>
    rw [resolve_of_none h, fst_resolve, fst_resolve, Std.TreeMap.getElem?_insert]
    by_cases hid : other = id
    · subst hid
      simp [h]
    · simp [hid]

theorem Reachable.fst_resolve {c : Catalogue} (h : c.Reachable) (id : UInt16) :
    (c.resolve id).1 = .ofId id := by
  induction h with
  | initial => rw [Catalogue.fst_resolve, getElem?_initial]; rfl
  | resolve h other ih => rw [fst_resolve_resolve, ih]

/-- A type that is held is the one that its number has in any catalogue. -/
theorem Reachable.eq_ofId {c : Catalogue} (h : c.Reachable) {id : UInt16} {t : ExtensionType}
    (ht : c.types[id]? = some t) : t = .ofId id := by
  rw [← h.fst_resolve, resolve_of_some ht]

/-- The catalogue after looking up several numbers. -/
def resolveAll (c : Catalogue) (ids : List UInt16) : Catalogue :=
  ids.foldl (fun c id => (c.resolve id).2) c

theorem Reachable.resolveAll {c : Catalogue} (h : c.Reachable) (ids : List UInt16) :
    (c.resolveAll ids).Reachable := by
  induction ids generalizing c with
  | nil => exact h
  | cons id ids ih => exact ih (h.resolve id)

theorem resolveAll_append (c : Catalogue) (ids ids' : List UInt16) :
    c.resolveAll (ids ++ ids') = (c.resolveAll ids).resolveAll ids' := List.foldl_append

theorem getElem?_resolve (c : Catalogue) (id other : UInt16) :
    (c.resolve id).2.types[other]? =
      if id = other then some (c.resolve id).1 else c.types[other]? := by
  cases h : c.types[id]? with
  | some t =>
    rw [resolve_of_some h]
    split
    · next hid => rw [← hid, h]
    · rfl
  | none =>
    rw [resolve_of_none h, Std.TreeMap.getElem?_insert]
    simp only [Std.LawfulEqCmp.compare_eq_iff_eq]

theorem Reachable.getElem?_resolveAll {c : Catalogue} (h : c.Reachable) (ids : List UInt16)
    (id : UInt16) : (c.resolveAll ids).types[id]? =
      if id ∈ ids then some (.ofId id) else c.types[id]? := by
  induction ids generalizing c with
  | nil => rfl
  | cons other ids ih =>
    show ((c.resolve other).2.resolveAll ids).types[id]? = _
    rw [ih (h.resolve other), getElem?_resolve, h.fst_resolve]
    by_cases hid : other = id
    · subst hid
      simp
    · simp [hid, Ne.symm hid]

/-- The numbers of the types that have a name. -/
def namedIds : Finset UInt16 := (ExtensionType.named.map (·.id)).toFinset

theorem mem_namedIds {id : UInt16} : id ∈ namedIds ↔ (initial.types[id]?).isSome := by
  rw [getElem?_initial, List.find?_isSome, namedIds, List.mem_toFinset, List.mem_map]
  simp only [beq_iff_eq]

/-- What is new after a look-up is what was new before it, but for the number looked up. -/
theorem filter_not_contains_resolve (c : Catalogue) (id : UInt16) (s : Finset UInt16) :
    (s.filter fun other => ¬ (c.resolve id).2.contains other) =
      (s.filter fun other => ¬ c.contains other).erase id := by
  ext other
  rw [Finset.mem_erase, Finset.mem_filter, Finset.mem_filter, contains_resolve, Bool.or_eq_true,
    beq_iff_eq, not_or, and_left_comm, ne_comm]

/-- Each number looked up is counted once, unless it was there. -/
theorem size_resolveAll (c : Catalogue) (ids : List UInt16) :
    (c.resolveAll ids).size = c.size + (ids.toFinset.filter fun id => ¬ c.contains id).card := by
  induction ids generalizing c with
  | nil => rfl
  | cons id ids ih =>
    show ((c.resolve id).2.resolveAll ids).size = _
    rw [ih, size_resolve, filter_not_contains_resolve, List.toFinset_cons, Finset.filter_insert]
    by_cases hid : c.contains id
    · have hnot : id ∉ ids.toFinset.filter fun other => ¬ c.contains other :=
        fun hmem => (Finset.mem_filter.mp hmem).2 hid
      rw [if_pos hid, if_neg (not_not.mpr hid), Finset.erase_eq_of_notMem hnot]
    · -- `id` is new, and counts once though it may be among `ids` again
      have hcard := Finset.card_erase_add_one
        (Finset.mem_insert_self id (ids.toFinset.filter fun other => ¬ c.contains other))
      rw [Finset.erase_insert_eq_erase] at hcard
      rw [if_neg hid, if_pos hid, ← hcard, Nat.add_assoc, Nat.add_comm 1]

/-- The size counts the named types and the other numbers looked up, each of them once. -/
theorem size_resolveAll_initial (ids : List UInt16) :
    (initial.resolveAll ids).size = 16 + (ids.toFinset \ namedIds).card := by
  have hnew : (ids.toFinset.filter fun id => ¬ initial.contains id) = ids.toFinset \ namedIds := by
    ext id
    rw [Finset.mem_filter, Finset.mem_sdiff, mem_namedIds, contains_eq]
  rw [size_resolveAll, size_initial, hnew]

end HelloNegotiation.Catalogue
