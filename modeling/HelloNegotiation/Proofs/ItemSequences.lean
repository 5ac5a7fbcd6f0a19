import HelloNegotiation.Reader

/-! # Reading to the end: which items were read, and where the first bad one stands -/
namespace HelloNegotiation.Item

variable {σ ε α : Type} [Input σ] (item : Item σ ε α)

/-- Items read one after another, from one state to another. -/
inductive Reads : σ → List α → σ → Prop
  | nil (s : σ) : Reads s [] s
  | cons {s t u : σ} {a : α} {as : List α} (h : item.read.run s = .ok a t) (tail : Reads t as u) :
      Reads s (a :: as) u

variable {item}

/-- A reader that uses up bytes has bytes to read. -/
theorem rest_ne_nil {s t : σ} {a : α} (h : item.read.run s = .ok a t) : Input.rest s ≠ [] := by
  intro hs
  have hlt := item.shrinks h
  rw [hs] at hlt
  exact Nat.not_lt_zero _ hlt

theorem Reads.run_all {s t : σ} {as : List α} (h : item.Reads s as t) :
    item.all.run s = match item.all.run t with
      | .ok bs u => .ok (as ++ bs) u
      | .error e u => .error e u := by
  induction h with
  | nil t => cases item.all.run t <;> rfl
  | @cons s t u a as hr tail ih =>
    rw [run_all_of_ok item (rest_ne_nil hr) hr, ih]
    cases item.all.run u <;> rfl

/-- Every run is a sequence of good items up to the end of the bytes or up to a bad item. -/
theorem exists_reads (item : Item σ ε α) (s : σ) : ∃ as t, item.Reads s as t ∧
    (Input.rest t = [] ∨ Input.rest t ≠ [] ∧ ∃ e u, item.read.run t = .error e u) := by
  induction hn : (Input.rest s).length using Nat.strongRecOn generalizing s with
  | ind n ih =>
    by_cases hs : Input.rest s = []
    · exact ⟨[], s, .nil s, .inl hs⟩
    · cases hr : item.read.run s with
      | error e u => exact ⟨[], s, .nil s, .inr ⟨hs, e, u, hr⟩⟩
      | ok a u =>
        obtain ⟨as, t, htail, hend⟩ := ih _ (hn ▸ item.shrinks hr) u rfl
        exact ⟨a :: as, t, .cons hr htail, hend⟩

/-- Reading to the end succeeds when good items use up all bytes. -/
theorem run_all_eq_ok_iff {s t : σ} {as : List α} :
    item.all.run s = .ok as t ↔ item.Reads s as t ∧ Input.rest t = [] := by
  constructor
  · intro h
    obtain ⟨bs, u, hreads, hend⟩ := exists_reads item s
    rw [hreads.run_all] at h
    rcases hend with hu | ⟨hu, e, v, hr⟩
    · rw [run_all_of_rest_nil item hu] at h
      cases h
      exact ⟨(List.append_nil bs).symm ▸ hreads, hu⟩
    · rw [run_all_of_error item hu hr] at h
      cases h
  · intro h
    obtain ⟨hreads, ht⟩ := h
    rw [hreads.run_all, run_all_of_rest_nil item ht]
    simp

/-- Reading to the end fails as the first bad item does. -/
theorem run_all_eq_error_iff {s t : σ} {e : ε} :
    item.all.run s = .error e t ↔
      ∃ as u, item.Reads s as u ∧ Input.rest u ≠ [] ∧ item.read.run u = .error e t := by
  constructor
  · intro h
    obtain ⟨as, u, hreads, hend⟩ := exists_reads item s
    rw [hreads.run_all] at h
    rcases hend with hu | ⟨hu, f, v, hr⟩
    · rw [run_all_of_rest_nil item hu] at h
      cases h
    · rw [run_all_of_error item hu hr] at h
      cases h
      exact ⟨as, u, hreads, hu, hr⟩
  · intro h
    obtain ⟨as, u, hreads, hu, hr⟩ := h
    rw [hreads.run_all, run_all_of_error item hu hr]

end HelloNegotiation.Item
