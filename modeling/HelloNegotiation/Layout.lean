import HelloNegotiation.Sink

/-!
# What is to be written, and writing it

A layout says what is written in which order, with the length of a block standing before it.
`write` puts a layout into a sink: a block's length field is left blank until its body is there.
`denote` says what the same layout writes where room is no matter, and where there is room the two
agree (`run_write_of_room`).
-/
namespace HelloNegotiation

inductive Layout
  | empty
  | bytes (bs : Bytes)
  | refuse (why : Fault)
  | append (first second : Layout)
  | block (width : Width) (body : Layout)
  deriving Repr

abbrev Writer (α : Type) := EStateM Fault Sink α

namespace Writer

/-- All of `bs`, or nothing when there is no room for it. -/
def bytes (bs : Bytes) : Writer Unit := fun s =>
  if h : s.Fits bs then .ok () (s.append bs h) else .error .insufficientSpace s

/-- How many bytes have been written. -/
def size : Writer Nat := fun s => .ok s.written.size s

def overwrite (start : Nat) (bs : Bytes) : Writer Unit := fun s => .ok () (s.overwrite start bs)

theorem run_bytes_of_room {s : Sink} {bs : Bytes} (h : s.bytes.length + bs.length ≤ s.capacity) :
    (bytes bs).run s = .ok () (s.append bs (Sink.fits_iff.2 h)) :=
  dif_pos (Sink.fits_iff.2 h)

@[simp] theorem run_size (s : Sink) : size.run s = .ok s.bytes.length s := by
  rw [Sink.length_bytes]
  rfl

@[simp] theorem run_overwrite (start : Nat) (bs : Bytes) (s : Sink) :
    (overwrite start bs).run s = .ok () (s.overwrite start bs) := rfl

end Writer

namespace Layout

instance : Append Layout := ⟨append⟩

def byte (b : UInt8) : Layout := bytes [b]

def word (w : UInt16) : Layout := bytes (Word.bytes w)

/-- One layout after the other. -/
def concat (ls : List Layout) : Layout := ls.foldr append empty

/-- Puts the layout into a sink up to its first fault. -/
def write : Layout → Writer Unit
  | empty => pure ()
  | bytes bs => Writer.bytes bs
  | refuse why => throw why
  | append first second => do
    first.write
    second.write
  | block width body => do
    let field ← Writer.size
    Writer.bytes width.blank
    let start ← Writer.size
    body.write
    let stop ← Writer.size
    match width.field (stop - start) with
    | some length => Writer.overwrite field length
    | none => throw .encode

/-- The bytes a layout stands for, and the fault that ends them early. -/
def denote : Layout → Bytes × Option Fault
  | empty => ([], none)
  | bytes bs => (bs, none)
  | refuse why => ([], some why)
  | append first second => match first.denote with
    | (xs, none) => (xs ++ second.denote.1, second.denote.2)
    | (xs, some why) => (xs, some why)
  | block width body => match body.denote with
    | (xs, some why) => (width.blank ++ xs, some why)
    | (xs, none) => match width.field xs.length with
      | some length => (length ++ xs, none)
      | none => (width.blank ++ xs, some .encode)

/-- A block takes the room of its field and its body, also when its field cannot be filled in. -/
theorem length_denote_block (width : Width) (body : Layout) :
    (block width body).denote.1.length = width.size + body.denote.1.length := by
  obtain ⟨⟨xs, e⟩, hd⟩ : ∃ d, body.denote = d := ⟨_, rfl⟩
  cases e with
  | some why => simp [denote, hd]
  | none =>
    simp only [denote, hd]
    cases hf : width.field xs.length with
    | none => simp
    | some field => simp [Width.length_field hf]

/-- Where there is room for what a layout stands for, that is what is written. -/
theorem run_write_of_room (l : Layout) (s : Sink)
    (h : s.bytes.length + l.denote.1.length ≤ s.capacity) :
    ∃ t : Sink, t.capacity = s.capacity ∧ t.bytes = s.bytes ++ l.denote.1 ∧
      l.write.run s = match l.denote.2 with
        | none => .ok () t
        | some why => .error why t := by
  induction l generalizing s with
  | empty => exact ⟨s, rfl, by simp [denote], rfl⟩
  | bytes bs =>
    exact ⟨s.append bs (Sink.fits_iff.2 h), rfl, Sink.bytes_append _, Writer.run_bytes_of_room h⟩
  | refuse why => exact ⟨s, rfl, by simp [denote], rfl⟩
  | append first second ih₁ ih₂ =>
    obtain ⟨⟨xs, e⟩, hd⟩ : ∃ d, first.denote = d := ⟨_, rfl⟩
    rw [hd] at ih₁
    cases e with
    | some why =>
      simp only [denote, hd] at h ⊢
      obtain ⟨t, hc, hb, hr⟩ := ih₁ s h
      refine ⟨t, hc, hb, ?_⟩
      rw [write, EStateM.run_bind, hr]
    | none =>
      simp only [denote, hd, List.length_append] at h ⊢
      obtain ⟨t, hc, hb, hr⟩ := ih₁ s (by dsimp only; omega)
      obtain ⟨u, hc', hb', hr'⟩ := ih₂ t (by rw [hc, hb, List.length_append]; dsimp only; omega)
      refine ⟨u, hc'.trans hc, by rw [hb', hb, List.append_assoc], ?_⟩
      rw [write, EStateM.run_bind, hr]
      exact hr'
  | block width body ih =>
    obtain ⟨⟨xs, e⟩, hd⟩ : ∃ d, body.denote = d := ⟨_, rfl⟩
    rw [hd] at ih
    have hlen : s.bytes.length + (width.blank.length + xs.length) ≤ s.capacity := by
      rwa [length_denote_block, hd, ← width.length_blank] at h
    have room : s.bytes.length + width.blank.length ≤ s.capacity := by omega
    obtain ⟨t, hc, hb, hr⟩ := ih (s.append width.blank (Sink.fits_iff.2 room)) (by
      simp only [Sink.bytes_append, List.length_append, Sink.capacity_append]
      omega)
    simp only [Sink.bytes_append, Sink.capacity_append] at hc hb
    simp only [write, EStateM.run_bind, Writer.run_size, Writer.run_bytes_of_room room, hr]
    cases e with
    | some why =>
      simp only [denote, hd]
      exact ⟨t, hc, by rw [hb, List.append_assoc], rfl⟩
    | none =>
      simp only [denote, hd]
      have hstop : t.bytes.length - (s.append width.blank (Sink.fits_iff.2 room)).bytes.length
          = xs.length := by
        rw [hb, Sink.bytes_append, List.length_append]
        omega
      rw [hstop]
      cases hf : width.field xs.length with
      | none => exact ⟨t, hc, by rw [hb, List.append_assoc], rfl⟩
      | some field =>
        have same : width.blank.length = field.length := by simp [Width.length_field hf]
        refine ⟨t.overwrite s.bytes.length field, hc, ?_, rfl⟩
        rw [Sink.bytes_overwrite hb same, List.append_assoc]

end Layout

end HelloNegotiation
