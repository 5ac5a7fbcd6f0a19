import HelloNegotiation.Cursor
import HelloNegotiation.Proofs.Framing
import HelloNegotiation.Proofs.ItemSequences

/-!
# What is read at a cursor

A cursor that counts in machine words reads what is read from the bytes still to come, and is then
in front of those that are left (`take_eq_lift`, `byte_eq_lift`, `word_eq_lift`, `list_eq_lift`).
Of a list, the items are those that come of applying the reader again and again to a cursor over
the window alone (`run_list_of_le`, `Exhausts.iff_answer`).
-/
namespace HelloNegotiation

/-- What comes of applying a reader again and again until no byte is left: all that it read, or the
first fault. Nothing does if it never gets there. -/
inductive Exhausts {σ ε α : Type} [Input σ] (f : EStateM ε σ α) : σ → Except ε (List α) → Prop
  | ended {s : σ} (h : Input.rest s = []) : Exhausts f s (.ok [])
  | failed {s t : σ} {e : ε} (h : Input.rest s ≠ []) (fault : f.run s = .error e t) :
      Exhausts f s (.error e)
  | more {s t : σ} {a : α} {r : Except ε (List α)} (h : Input.rest s ≠ [])
      (first : f.run s = .ok a t) (others : Exhausts f t r) : Exhausts f s (r.map (a :: ·))

/-- What a result says, without the state that is left. -/
def answer {σ ε α : Type} : EStateM.Result ε σ α → Except ε α
  | .ok a _ => .ok a
  | .error e _ => .error e

section
variable {σ ε α : Type} [Input σ] (item : Item σ ε α)

/-- A reader that uses up bytes gets to their end. -/
theorem exhausts_item (s : σ) : Exhausts item.read s (answer (item.all.run s)) := by
  induction hn : (Input.rest s).length using Nat.strongRecOn generalizing s with
  | ind n ih =>
    by_cases hs : Input.rest s = []
    · rw [item.run_all_of_rest_nil hs]
      exact .ended hs
    · cases hr : item.read.run s with
      | error e t =>
        rw [item.run_all_of_error hs hr]
        exact .failed hs hr
      | ok a t =>
        have htail := Exhausts.more hs hr (ih _ (hn ▸ item.shrinks hr) t rfl)
        rw [item.run_all_of_ok hs hr]
        cases hall : item.all.run t <;> rw [hall] at htail <;> exact htail

theorem Exhausts.iff_answer {s : σ} {r : Except ε (List α)} :
    Exhausts item.read s r ↔ r = answer (item.all.run s) := by
  constructor
  · intro h
    induction h with
    | ended hs => rw [item.run_all_of_rest_nil hs]; rfl
    | failed hs hr => rw [item.run_all_of_error hs hr]; rfl
    | @more s t a r hs hr _ ih =>
      rw [item.run_all_of_ok hs hr, ih]
      cases item.all.run t <;> rfl
  · intro h
    exact h ▸ exhausts_item item s

end

namespace Cursor

theorem ext_pos {c d : Cursor} (hdata : c.data = d.data) (hpos : c.pos.toNat = d.pos.toNat) :
    c = d := by
  obtain ⟨data, pos, fits, hle⟩ := c
  obtain ⟨data', pos', fits', hle'⟩ := d
  obtain rfl : data = data' := hdata
  obtain rfl : pos = pos' := UInt64.toNat_inj.mp hpos
  rfl

/-- A cursor is in front of what is still to come. -/
theorem inFrontOf_rest {c d : Cursor} (h : d.data = c.data) : c.inFrontOf d.rest = d := by
  refine ext_pos h.symm ?_
  have hpos := d.pos_le
  rw [toNat_pos_inFrontOf, length_rest, ← h]
  omega

/-- In front of what ends the data, that is what is still to come. -/
theorem rest_inFrontOf {c : Cursor} {bs : Bytes} (h : bs <:+ c.rest) :
    (c.inFrontOf bs).rest = bs := by
  obtain ⟨front, hfront⟩ := h
  have hdata : c.data = (c.passed ++ front) ++ bs := by
    rw [List.append_assoc, hfront, passed_append_rest]
  have hlen : c.data.length - bs.length = (c.passed ++ front).length := by
    rw [hdata, List.length_append, Nat.add_sub_cancel]
  show c.data.drop (c.inFrontOf bs).pos.toNat = bs
  rw [toNat_pos_inFrontOf, hlen, hdata, List.drop_left]

theorem inFrontOf_skip {c : Cursor} {n : UInt64} (h : n ≤ c.remaining) :
    c.inFrontOf (c.skip n h).rest = c.skip n h := inFrontOf_rest rfl

section
variable {α β : Type}

/-- What is made of the value read makes no difference to the cursor. -/
theorem lift_bind_pure (r : Reader α) (g : α → β) :
    (lift r >>= fun a => pure (g a)) = lift (r >>= fun a => pure (g a)) := by
  funext c
  show EStateM.run _ c = (lift _).run c
  rw [EStateM.run_bind, run_lift, run_lift, EStateM.run_bind]
  cases r.run c.rest <;> rfl

/-- Taking bytes at a cursor is taking them from those still to come. -/
theorem take_eq_lift (n : UInt64) : take n = lift (Reader.take n.toNat) := by
  funext c
  show (take n).run c = (lift _).run c
  rw [run_lift]
  rcases UInt64.lt_or_le c.remaining n with hlt | hle
  · rw [run_take_of_lt hlt, Reader.run_take_of_lt (remaining_lt_iff.mp hlt)]
    dsimp only
    rw [inFrontOf_rest rfl]
  · rw [run_take_of_le hle, Reader.run_take_of_le (le_remaining_iff.mp hle), ← rest_skip hle,
      ← window_eq_take hle]
    dsimp only
    rw [inFrontOf_skip]

theorem byte_eq_lift : byte = lift Reader.byte := by
  have hbyte : Reader.byte = Reader.take 1 >>= fun bs => pure (bs.getD 0 0) := by
    funext bs
    match bs with
    | [] | _ :: _ => rfl
  rw [hbyte, ← lift_bind_pure, byte, take_eq_lift]
  rfl

theorem word_eq_lift : word = lift Reader.word := by
  have hword : Reader.word =
      Reader.take 2 >>= fun bs => pure (Word.ofBytes (bs.getD 0 0) (bs.getD 1 0)) := by
    funext bs
    match bs with
    | [] | [_] | _ :: _ :: _ => rfl
  rw [hword, ← lift_bind_pure, word, take_eq_lift]
  rfl

end

section
variable {α : Type} {c : Cursor} {n : UInt64}

theorem run_list_of_lt (item : Item Cursor ReadFault α) (h : c.remaining < n) :
    (list n item).run c = .error .insufficientBytes c := by
  show list n item c = _
  rw [list, run_slice_of_lt h]

theorem run_list_of_le (item : Item Cursor ReadFault α) (h : n ≤ c.remaining) :
    (list n item).run c = resultAt (c.skip n h) (answer (item.all.run (c.inner n))) := by
  show list n item c = _
  rw [list, run_slice_of_le h]
  dsimp only
  cases item.all.run (c.inner n) <;> rfl

/-- A list is refused as a whole just when its window is too long. -/
theorem run_list_eq_error_iff (item : Item Cursor ReadFault α) :
    (list n item).run c = .error .insufficientBytes c ↔ c.remaining < n := by
  constructor
  · intro h
    rcases UInt64.lt_or_le c.remaining n with hlt | hle
    · exact hlt
    rw [run_list_of_le item hle] at h
    cases hanswer : answer (item.all.run (c.inner n)) with
    | ok as =>
      rw [hanswer] at h
      cases h
    | error e =>
      -- the cursor has not moved, so the window is empty, and no item was read in it
      rw [hanswer] at h
      have hskip : c.skip n hle = c := (EStateM.Result.error.inj h).2
      have hpos : (c.pos + n).toNat = c.pos.toNat := congrArg (UInt64.toNat ∘ pos) hskip
      have hzero : n.toNat = 0 := by
        rw [toNat_pos_add hle] at hpos
        omega
      have hend : Input.rest (c.inner n) = [] := by
        rw [input_rest, rest_inner, window_eq_take hle, hzero, List.take_zero]
      rw [item.run_all_of_rest_nil hend] at hanswer
      cases hanswer
  · exact run_list_of_lt item

/-- Items of bytes that leave an end of them come to the same at a cursor. -/
theorem exhausts_lift {item : Item Bytes ReadFault α}
    (tail : ∀ {s t : Bytes} {a : α}, item.read.run s = .ok a t → t <:+ s)
    {r : Except ReadFault (List α)} (h : Exhausts item.read c.rest r) :
    Exhausts (lift item.read) c r := by
  generalize hs : c.rest = s at h
  induction h generalizing c with
  | ended hend => exact .ended (hs.trans hend)
  | failed hs' hr =>
    subst hs
    exact .failed hs' (by rw [run_lift, hr])
  | @more s t a r hs' hr _ ih =>
    subst hs
    exact .more hs' (by rw [run_lift, hr]) (ih (rest_inFrontOf (tail hr)))

/-- Lists of such items are read at a cursor as they are from the bytes still to come. -/
theorem list_eq_lift {item : Item Bytes ReadFault α}
    (tail : ∀ {s t : Bytes} {a : α}, item.read.run s = .ok a t → t <:+ s) (n : UInt64) :
    list n (liftItem item) = lift (Reader.list n.toNat item) := by
  funext c
  show (list n _).run c = (lift _).run c
  rw [run_lift]
  rcases UInt64.lt_or_le c.remaining n with hlt | hle
  · rw [run_list_of_lt _ hlt, Reader.list, Reader.run_window_of_lt (remaining_lt_iff.mp hlt)]
    dsimp only
    rw [inFrontOf_rest rfl]
  · have hitems : Exhausts (liftItem item).read (c.inner n) (answer (item.all.run (c.window n))) :=
      exhausts_lift tail (exhausts_item item (c.window n))
    rw [run_list_of_le _ hle, ← (Exhausts.iff_answer _).mp hitems, Reader.list,
      rest_eq_window_append hle, ← length_window hle, Reader.run_window_append]
    cases item.all.run (c.window n) <;> dsimp only <;> rw [inFrontOf_skip] <;> rfl

end

end Cursor

end HelloNegotiation
