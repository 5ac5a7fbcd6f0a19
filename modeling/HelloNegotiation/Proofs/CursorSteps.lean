import HelloNegotiation.Proofs.CursorReading
import HelloNegotiation.Proofs.OfferedNames

/-!
# What is read at a cursor, step by step

Whatever is asked of a cursor, one thing after another, it stays within its data and the words that
count places do not wrap around. The bytes that the steps cover, in order, and then those still to
come are all bytes from where the cursor was, so none is lost and none is read twice; a list covers
its window even where an item in it fails (`accounts_for_data`).
-/
namespace HelloNegotiation.Cursor

/-- What can be asked of a cursor. The items of a list are read with any `f`. -/
inductive Op : Type 1
  | byte
  | word
  | take (n : UInt64)
  | slice (n : UInt64)
  | list {α : Type} (n : UInt64) (f : EStateM ReadFault Cursor α)

namespace Op

/-- What is given on success. -/
def Value : Op → Type
  | byte => UInt8
  | word => UInt16
  | take _ => Bytes
  | slice _ => Cursor
  | @list α _ _ => List α

/-- How many bytes are asked for. -/
def length : Op → UInt64
  | byte => 1
  | word => 2
  | take n | slice n | list n _ => n

def isList : Op → Bool
  | list _ _ => true
  | _ => false

/-- Whether this comes of it. Nothing comes of a list whose items never get to the end of its
window. -/
def Gives : (op : Op) → Cursor → EStateM.Result ReadFault Cursor op.Value → Prop
  | byte, c, r => Cursor.byte.run c = r
  | word, c, r => Cursor.word.run c = r
  | take n, c, r => (Cursor.take n).run c = r
  | slice n, c, r => (Cursor.slice n).run c = r
  | list n f, c, r => match (Cursor.slice n).run c with
    | .error e d => r = .error e d
    | .ok inner d => ∃ items, Exhausts f inner items ∧ r = resultAt d items

end Op

/-- The cursor that a result leaves, on success or not. -/
def left {α : Type} : EStateM.Result ReadFault Cursor α → Cursor
  | .ok _ c => c
  | .error _ c => c

/-- One thing asked, where the cursor was then, and what came of it. -/
structure Step where
  start : Cursor
  op : Op
  result : EStateM.Result ReadFault Cursor op.Value

namespace Step

def stop (s : Step) : Cursor := left s.result

/-- The bytes of a step: those its value is made of, and for a list its window, also where an item
in the window fails. -/
def covered : Step → Bytes
  | ⟨_, .byte, .ok b _⟩ => [b]
  | ⟨_, .word, .ok w _⟩ => Word.bytes w
  | ⟨_, .take _, .ok bs _⟩ => bs
  | ⟨_, .slice _, .ok inner _⟩ => inner.data
  | ⟨c, .list n _, .ok _ _⟩ => c.window n
  | ⟨c, .list n _, .error _ _⟩ => if n ≤ c.remaining then c.window n else []
  | _ => []

/-- A step on `data` that goes right. The difference is the one in `remaining` and the sum the one in
`skip`, which is made only where there are bytes enough. -/
structure Sound (data : Bytes) (s : Step) : Prop where
  data_start : s.start.data = data
  data_stop : s.stop.data = data
  stop_le : s.stop.pos.toNat ≤ data.length
  stop_eq : s.stop.pos.toNat = s.start.pos.toNat + s.covered.length
  difference : s.start.size.toBitVec.usubOverflow s.start.pos.toBitVec = false
  sum : s.op.length ≤ s.start.remaining →
    s.start.pos.toBitVec.uaddOverflow s.op.length.toBitVec = false
  stays : s.op.isList = false → ∀ e d, s.result = .error e d → d = s.start

end Step

/-- Steps one after another, each from where the last has left the cursor, whether that was a
success or not. -/
inductive Runs : Cursor → List Step → Cursor → Prop
  | nil (c : Cursor) : Runs c [] c
  | cons {c d : Cursor} {op : Op} {r : EStateM.Result ReadFault Cursor op.Value}
      {steps : List Step} (first : op.Gives c r) (others : Runs (left r) steps d) :
      Runs c (⟨c, op, r⟩ :: steps) d

theorem singleton_of_length_one {bs : Bytes} (h : bs.length = 1) : [bs.getD 0 0] = bs := by
  obtain ⟨b, rfl⟩ := List.length_eq_one_iff.mp h
  rfl

theorem bytes_of_length_two {bs : Bytes} (h : bs.length = 2) :
    Word.bytes (Word.ofBytes (bs.getD 0 0) (bs.getD 1 0)) = bs := by
  obtain ⟨high, rest, rfl⟩ := List.exists_cons_of_length_eq_add_one h
  obtain ⟨low, rfl⟩ := List.length_eq_one_iff.mp (Nat.succ.inj h)
  exact Word.bytes_ofBytes high low

namespace Op
variable {α : Type} {c : Cursor} {n : UInt64} {f : EStateM ReadFault Cursor α}

theorem gives_list_of_lt {r : EStateM.Result ReadFault Cursor (List α)} (h : c.remaining < n) :
    (list n f).Gives c r ↔ r = .error .insufficientBytes c := by
  simp only [Gives, run_slice_of_lt h]
  exact Iff.rfl

theorem gives_list_of_le {r : EStateM.Result ReadFault Cursor (List α)} (h : n ≤ c.remaining) :
    (list n f).Gives c r ↔
      ∃ items, Exhausts f (c.inner n) items ∧ r = resultAt (c.skip n h) items := by
  simp only [Gives, run_slice_of_le h]
  exact Iff.rfl

/-- Of a list with items that use up bytes comes what it is read as, and nothing else. -/
theorem gives_list_iff {item : Item Cursor ReadFault α}
    {r : EStateM.Result ReadFault Cursor (List α)} :
    (list n item.read).Gives c r ↔ (Cursor.list n item).run c = r := by
  rcases UInt64.lt_or_le c.remaining n with hlt | hle
  · rw [gives_list_of_lt hlt, run_list_of_lt item hlt, eq_comm]
  · rw [gives_list_of_le hle, run_list_of_le item hle]
    constructor
    · intro h
      obtain ⟨items, hitems, rfl⟩ := h
      rw [(Exhausts.iff_answer item).mp hitems]
    · intro h
      exact ⟨_, exhausts_item item _, h.symm⟩

/-- What a step comes to: too few bytes are left, and it fails where it stands; or it goes past just
those asked for, which it covers, and only a list can fail. -/
inductive Outcome (c : Cursor) (op : Op) : EStateM.Result ReadFault Cursor op.Value → Prop
  | short (h : c.remaining < op.length) : Outcome c op (.error .insufficientBytes c)
  | passed {r} (h : op.length ≤ c.remaining) (stops : left r = c.skip op.length h)
      (covers : Step.covered ⟨c, op, r⟩ = c.window op.length)
      (succeeds : op.isList = false → ∃ v d, r = .ok v d) : Outcome c op r

variable {op : Op} {r : EStateM.Result ReadFault Cursor op.Value}

theorem eq_error_of_lt (h : c.remaining < op.length) (hr : op.Gives c r) :
    r = .error .insufficientBytes c := by
  cases op with
  | byte => exact hr.symm.trans (run_take_pure_of_lt _ h)
  | word => exact hr.symm.trans (run_take_pure_of_lt _ h)
  | take n => exact hr.symm.trans (run_take_of_lt h)
  | slice n => exact hr.symm.trans (run_slice_of_lt h)
  | list n f => exact (gives_list_of_lt h).mp hr

theorem outcome_of_le (h : op.length ≤ c.remaining) (hr : op.Gives c r) : op.Outcome c r := by
  cases op with
  | byte =>
    obtain rfl := (run_take_pure_of_le _ h).symm.trans hr
    exact .passed h rfl (singleton_of_length_one (length_window h)) fun _ => ⟨_, _, rfl⟩
  | word =>
    obtain rfl := (run_take_pure_of_le _ h).symm.trans hr
    exact .passed h rfl (bytes_of_length_two (length_window h)) fun _ => ⟨_, _, rfl⟩
  | take n =>
    obtain rfl := (run_take_of_le h).symm.trans hr
    exact .passed h rfl rfl fun _ => ⟨_, _, rfl⟩
  | slice n =>
    obtain rfl := (run_slice_of_le h).symm.trans hr
    exact .passed h rfl rfl fun _ => ⟨_, _, rfl⟩
  | list n f =>
    obtain ⟨items, -, rfl⟩ := (gives_list_of_le h).mp hr
    cases items with
    | ok as => exact .passed h rfl rfl nofun
    | error e => exact .passed h rfl (if_pos h) nofun

theorem Gives.outcome (hr : op.Gives c r) : op.Outcome c r := by
  rcases UInt64.lt_or_le c.remaining op.length with hlt | hle
  · exact eq_error_of_lt hlt hr ▸ .short hlt
  · exact outcome_of_le hle hr

/-- Something comes of whatever is asked, unless it is a list. -/
theorem isList_of_not_gives (h : ∀ r, ¬ op.Gives c r) : op.isList := by
  cases op with
  | list n f => rfl
  | _ => exact absurd rfl (h _)

end Op

namespace Step
variable {c : Cursor} {op : Op} {r : EStateM.Result ReadFault Cursor op.Value}

theorem covered_of_lt (h : c.remaining < op.length) :
    covered ⟨c, op, .error .insufficientBytes c⟩ = [] := by
  cases op with
  | list n f => exact if_neg (UInt64.not_le.mpr h)
  | _ => rfl

/-- The bytes still to come are those of the step, and then those to come behind it. -/
theorem rest_start (h : op.Outcome c r) : c.rest = covered ⟨c, op, r⟩ ++ (left r).rest := by
  cases h with
  | short hlt => rw [covered_of_lt hlt]; rfl
  | passed hle stops covers _ => rw [covers, stops, ← rest_eq_window_append hle]

theorem data_left (h : op.Outcome c r) : (left r).data = c.data := by
  cases h with
  | short => rfl
  | passed hle stops => rw [stops]; rfl

theorem sound (h : op.Outcome c r) : Sound c.data ⟨c, op, r⟩ where
  data_start := rfl
  data_stop := data_left h
  stop_le := by
    have hle := (left r).pos_le
    rw [data_left h] at hle
    exact hle
  stop_eq := by
    have hrest := congrArg List.length (rest_start h)
    have hstart := c.pos_le
    have hstop := (left r).pos_le
    rw [List.length_append, length_rest, length_rest, data_left h] at hrest
    rw [data_left h] at hstop
    show (left r).pos.toNat = c.pos.toNat + _
    omega
  difference := c.usubOverflow_remaining
  sum := uaddOverflow_skip
  stays hlist e d hr := by
    cases h with
    | short =>
      cases hr
      rfl
    | passed hle stops covers succeeds =>
      obtain ⟨v, d', hok⟩ := succeeds hlist
      cases hok.symm.trans hr

end Step

namespace Runs
variable {c d : Cursor} {steps : List Step}

theorem data_eq (h : Runs c steps d) : d.data = c.data := by
  induction h with
  | nil c => rfl
  | cons first others ih => exact ih.trans (Step.data_left first.outcome)

theorem sound (h : Runs c steps d) : ∀ s ∈ steps, s.Sound c.data := by
  induction h with
  | nil c => exact nofun
  | cons first others ih =>
    intro s hs
    rcases List.mem_cons.mp hs with rfl | hs
    · exact Step.sound first.outcome
    · exact Step.data_left first.outcome ▸ ih s hs

/-- The bytes that the steps cover, one after another, are those that came next. -/
theorem covered_append_rest (h : Runs c steps d) :
    steps.flatMap Step.covered ++ d.rest = c.rest := by
  induction h with
  | nil c => rfl
  | cons first others ih =>
    rw [List.flatMap_cons, List.append_assoc, ih, ← Step.rest_start first.outcome]

end Runs

/-- Whatever is asked can be done, up to a list whose items never get to an end. -/
theorem exists_runs (ops : List Op) (c : Cursor) : ∃ steps d, Runs c steps d ∧
    (steps.map Step.op = ops ∨ ∃ op more, ops = steps.map Step.op ++ op :: more ∧ op.isList ∧
      ∀ r, ¬ op.Gives d r) := by
  induction ops generalizing c with
  | nil => exact ⟨[], c, .nil c, .inl rfl⟩
  | cons op ops ih =>
    by_cases hop : ∃ r, op.Gives c r
    · obtain ⟨r, hr⟩ := hop
      obtain ⟨steps, d, hruns, hdone⟩ := ih (left r)
      refine ⟨⟨c, op, r⟩ :: steps, d, .cons hr hruns, ?_⟩
      rcases hdone with hall | ⟨op', more, hops, hlist, hnone⟩
      · exact .inl (congrArg (op :: ·) hall)
      · exact .inr ⟨op', more, congrArg (op :: ·) hops, hlist, hnone⟩
    · have hnone := not_exists.mp hop
      exact ⟨[], c, .nil c, .inr ⟨op, ops, rfl, Op.isList_of_not_gives hnone, hnone⟩⟩

/-- Whatever is asked of a cursor, one thing after another, each step goes right, and the bytes
behind the cursor (none of a new one), those the steps cover and those then still to come are the
data; all is done that is asked, but for a list without an end. If each item takes up a byte, a list
has an end: it is refused just when its window goes past the data, and otherwise it is what the
items give in the window on its own, and the cursor is behind the window. All this is also what
readers of bytes do with the bytes still to come. -/
theorem accounts_for_data :
    (∀ {c d : Cursor} {steps : List Step}, Runs c steps d →
      (∀ s ∈ steps, s.Sound c.data) ∧ d.data = c.data ∧
      c.passed ++ steps.flatMap Step.covered ++ d.rest = c.data) ∧
    (∀ (ops : List Op) (c : Cursor), ∃ steps d, Runs c steps d ∧
      (steps.map Step.op = ops ∨ ∃ op more, ops = steps.map Step.op ++ op :: more ∧ op.isList ∧
        ∀ r, ¬ op.Gives d r)) ∧
    (∀ {α : Type} (item : Item Cursor ReadFault α) (n : UInt64) (c : Cursor),
      (∀ r, (Op.list n item.read).Gives c r ↔ (list n item).run c = r) ∧
      ((list n item).run c = .error .insufficientBytes c ↔ c.remaining < n) ∧
      ∀ h : n ≤ c.remaining, ∃ items, (list n item).run c = resultAt (c.skip n h) items ∧
        ∀ r, Exhausts item.read (c.inner n) r ↔ r = items) ∧
    (∀ c : Cursor, (c.atEnd ↔ c.rest = []) ∧ c.remaining.toNat = c.rest.length) ∧
    byte = lift Reader.byte ∧ word = lift Reader.word ∧
    (∀ n, take n = lift (Reader.take n.toNat)) ∧
    ∀ {α : Type} (item : Item Bytes ReadFault α),
      (∀ {s t : Bytes} {a : α}, item.read.run s = .ok a t → t <:+ s) →
      ∀ n, list n (liftItem item) = lift (Reader.list n.toNat item) := by
  refine ⟨fun h => ⟨h.sound, h.data_eq, ?_⟩, exists_runs,
    fun item n c => ⟨fun r => Op.gives_list_iff, run_list_eq_error_iff item, fun h => ?_⟩,
    fun c => ⟨c.atEnd_iff, c.toNat_remaining⟩, byte_eq_lift, word_eq_lift, take_eq_lift,
    fun item tail => list_eq_lift tail⟩
  · rw [List.append_assoc, h.covered_append_rest, passed_append_rest]
  · exact ⟨_, run_list_of_le item h, fun r => Exhausts.iff_answer item⟩

/-- At a place in two names, the second one empty, with more bytes behind them. -/
def inNames (pos : UInt64) (h : pos.toNat ≤ 6) : Cursor :=
  ⟨[2, 0x68, 0x32, 0, 9, 7], pos, by decide, h⟩

/-- The empty name fails the list, which yet covers its window; a slice so long that its end would
come around to the front fails where it stands; then the last byte is read. -/
theorem accounts_for_data_names :
    (∀ {s t : Bytes} {p : ProtocolName}, ProtocolName.item.read.run s = .ok p t → t <:+ s) ∧
    Runs (inNames 0 (by decide))
      [⟨inNames 0 (by decide), .list 5 (liftItem ProtocolName.item).read,
          .error .invalidData (inNames 5 (by decide))⟩,
        ⟨inNames 5 (by decide), .slice 0xffffffffffffffff,
          .error .insufficientBytes (inNames 5 (by decide))⟩,
        ⟨inNames 5 (by decide), .byte, .ok (7 : UInt8) (inNames 6 (by decide))⟩]
      (inNames 6 (by decide)) ∧
    [2, 0x68, 0x32, 0, 9] ++ [] ++ [7] = (inNames 0 (by decide)).data ∧
    Exhausts (liftItem ProtocolName.item).read ((inNames 0 (by decide)).inner 5)
      (.error .invalidData) := by
  have tail : ∀ {s t : Bytes} {p : ProtocolName},
      ProtocolName.item.read.run s = .ok p t → t <:+ s := fun h =>
    ⟨_, (ProtocolName.of_run_read h).symm⟩
  have hread : (Reader.list (UInt64.toNat 5) ProtocolName.item).run [2, 0x68, 0x32, 0, 9, 7] =
      .error .invalidData [7] :=
    ProtocolName.run_list_eq_error_iff.mpr
      (.inr ⟨[ProtocolName.h2], [0, 9], rfl, rfl, .empty [9]⟩)
  have hrest : (inNames 0 (by decide)).rest = [2, 0x68, 0x32, 0, 9, 7] := rfl
  obtain ⟨hruns, -, hlists, -, -, -, -, hlift⟩ := accounts_for_data
  have hlist : (list 5 (liftItem ProtocolName.item)).run (inNames 0 (by decide)) =
      .error .invalidData (inNames 5 (by decide)) := by
    rw [hlift ProtocolName.item tail 5, run_lift, hrest, hread]
    rfl
  have hslice : (Op.slice 0xffffffffffffffff).Gives (inNames 5 (by decide))
      (.error .insufficientBytes (inNames 5 (by decide))) := rfl
  have hbyte : Op.byte.Gives (inNames 5 (by decide))
      (.ok (7 : UInt8) (inNames 6 (by decide))) := rfl
  have hrun := Runs.cons (((hlists (liftItem ProtocolName.item) 5 _).1 _).mpr hlist)
    (.cons hslice (.cons hbyte (.nil _)))
  refine ⟨tail, hrun, (hruns hrun).2.2, ?_⟩
  obtain ⟨items, hitems, hwindow⟩ :=
    (hlists (liftItem ProtocolName.item) 5 (inNames 0 (by decide))).2.2 (by decide)
  rw [hlist] at hitems
  cases items with
  | ok names => cases hitems
  | error e =>
    cases hitems
    exact (hwindow _).mpr rfl

end HelloNegotiation.Cursor
