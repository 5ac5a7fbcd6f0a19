import HelloNegotiation.Layout

/-!
# Writing where room may lack

What a layout stands for is written when there is room for all of it. Where there is not, writing
ends for want of space, whatever else would have ended it later (`fault_write`), and leaves what was
written before the first write that found no room (`write_agrees_with_denote`). Either way what was
there before stays (`bytes_prefix_write`).
-/
namespace HelloNegotiation

theorem Sink.length_bytes_le (s : Sink) : s.bytes.length ≤ s.capacity := by
  rw [length_bytes]
  exact s.size_le

namespace Writer

/-- The fault that ended the writing, if one did. -/
def fault {α : Type} : EStateM.Result Fault Sink α → Option Fault
  | .ok _ _ => none
  | .error f _ => some f

/-- The sink that is left, also when writing failed. -/
def left {α : Type} : EStateM.Result Fault Sink α → Sink
  | .ok _ s => s
  | .error _ s => s

theorem run_bytes_of_lack {s : Sink} {bs : Bytes} (h : s.capacity < s.bytes.length + bs.length) :
    (bytes bs).run s = .error .insufficientSpace s := by
  have hnot : ¬ s.Fits bs := fun hfits => Nat.not_le_of_lt h (Sink.fits_iff.mp hfits)
  exact dif_neg hnot

end Writer

namespace Layout

/-- A point in the writing of a layout: its end, a fault, or just before the bytes `next`. -/
inductive Point
  | finished
  | refused (why : Fault)
  | before (next : Bytes)

/-- The point at which writing ends where room is no matter. -/
def Point.last : Option Fault → Point
  | none => finished
  | some why => refused why

/-- Writing a layout where room is no matter comes to a point after the writes `made`, one after
another, and by then `bs` stands there. The length field of a block is written blank. It is filled
in when the block is closed, and a block that is still open at the point has it blank. -/
inductive ComesTo : Layout → List Bytes → Point → Bytes → Prop
  | empty : ComesTo empty [] .finished []
  | bytes (bs : Bytes) : ComesTo (bytes bs) [bs] .finished bs
  | beforeBytes (bs : Bytes) : ComesTo (bytes bs) [] (.before bs) []
  | refuse (why : Fault) : ComesTo (refuse why) [] (.refused why) []
  | first {first second : Layout} {made : List Bytes} {p : Point} {xs : Bytes}
      (h : ComesTo first made p xs) (short : p ≠ .finished) :
      ComesTo (append first second) made p xs
  | second {first second : Layout} {made made' : List Bytes} {p : Point} {xs ys : Bytes}
      (h : ComesTo first made .finished xs) (h' : ComesTo second made' p ys) :
      ComesTo (append first second) (made ++ made') p (xs ++ ys)
  | beforeBlock (width : Width) (body : Layout) :
      ComesTo (block width body) [] (.before width.blank) []
  | opened {width : Width} {body : Layout} {made : List Bytes} {p : Point} {xs : Bytes}
      (h : ComesTo body made p xs) (short : p ≠ .finished) :
      ComesTo (block width body) (width.blank :: made) p (width.blank ++ xs)
  | overlong {width : Width} {body : Layout} {made : List Bytes} {xs : Bytes}
      (h : ComesTo body made .finished xs) (exceeds : width.limit < xs.length) :
      ComesTo (block width body) (width.blank :: made) (.refused .encode) (width.blank ++ xs)
  | closed {width : Width} {body : Layout} {made : List Bytes} {xs field : Bytes}
      (h : ComesTo body made .finished xs) (fits : width.field xs.length = some field) :
      ComesTo (block width body) (width.blank :: made) .finished (field ++ xs)

theorem Point.refused_ne_finished (why : Fault) : refused why ≠ finished := by
  intro h
  cases h

theorem Point.before_ne_finished (next : Bytes) : before next ≠ finished := by
  intro h
  cases h

/-- At each point there stand as many bytes as have been written: filling in a length field writes
none. -/
theorem ComesTo.length_eq {l : Layout} {made : List Bytes} {p : Point} {bs : Bytes}
    (h : l.ComesTo made p bs) : bs.length = total List.length made := by
  induction h with
  | empty | beforeBytes | refuse | beforeBlock => rfl
  | bytes bs => simp
  | first h short ih => exact ih
  | second h h' ih ih' => rw [List.length_append, ih, ih', total_append]
  | opened h short ih | overlong h exceeds ih => rw [List.length_append, ih, total_cons]
  | closed h fits ih =>
    rw [List.length_append, ih, total_cons, Width.length_field fits, Width.length_blank]

/-- Writing comes to its end, with what the layout stands for. -/
theorem comesTo_last (l : Layout) : ∃ made, l.ComesTo made (.last l.denote.2) l.denote.1 := by
  induction l with
  | empty => exact ⟨[], .empty⟩
  | bytes bs => exact ⟨[bs], .bytes bs⟩
  | refuse why => exact ⟨[], .refuse why⟩
  | append first second ih₁ ih₂ =>
    obtain ⟨⟨xs, e⟩, hd⟩ : ∃ d, first.denote = d := ⟨_, rfl⟩
    rw [hd] at ih₁
    obtain ⟨made, h₁⟩ := ih₁
    obtain ⟨made', h₂⟩ := ih₂
    cases e with
    | some why =>
      simp only [denote, hd]
      exact ⟨made, .first h₁ (Point.refused_ne_finished why)⟩
    | none =>
      simp only [denote, hd]
      exact ⟨made ++ made', .second h₁ h₂⟩
  | block width body ih =>
    obtain ⟨⟨xs, e⟩, hd⟩ : ∃ d, body.denote = d := ⟨_, rfl⟩
    rw [hd] at ih
    obtain ⟨made, h⟩ := ih
    refine ⟨width.blank :: made, ?_⟩
    cases e with
    | some why =>
      simp only [denote, hd]
      exact .opened h (Point.refused_ne_finished why)
    | none =>
      simp only [denote, hd]
      cases hf : width.field xs.length with
      | some field => exact .closed h hf
      | none =>
        have hlimit : ¬ xs.length ≤ width.limit := by
          rw [← Width.field_isSome_iff, hf]
          exact Bool.false_ne_true
        exact .overlong h (Nat.lt_of_not_le hlimit)

/-- Where there is no room for what a layout stands for, that is what ends the writing, just before
bytes for which there is no room any more. -/
theorem run_write_of_lack (l : Layout) (s : Sink)
    (h : s.capacity < s.bytes.length + l.denote.1.length) :
    ∃ t made next bs, l.ComesTo made (.before next) bs ∧ t.capacity = s.capacity ∧
      t.bytes = s.bytes ++ bs ∧ t.capacity < t.bytes.length + next.length ∧
      l.write.run s = .error .insufficientSpace t := by
  induction l generalizing s with
  | empty | refuse =>
    have hle := s.length_bytes_le
    simp only [denote, List.length_nil] at h
    omega
  | bytes bs =>
    exact ⟨s, [], bs, [], .beforeBytes bs, rfl, (List.append_nil _).symm, h,
      Writer.run_bytes_of_lack h⟩
  | append first second ih₁ ih₂ =>
    by_cases hfirst : s.capacity < s.bytes.length + first.denote.1.length
    · obtain ⟨t, made, next, bs, hcomes, hcap, hbytes, hlack, hrun⟩ := ih₁ s hfirst
      have hshort := Point.before_ne_finished next
      refine ⟨t, made, next, bs, .first hcomes hshort, hcap, hbytes, hlack, ?_⟩
      rw [write, EStateM.run_bind, hrun]
    · obtain ⟨t, hcap, hbytes, hrun⟩ := first.run_write_of_room s (Nat.le_of_not_lt hfirst)
      obtain ⟨made, hcomes⟩ := first.comesTo_last
      obtain ⟨⟨xs, e⟩, hd⟩ : ∃ d, first.denote = d := ⟨_, rfl⟩
      rw [hd] at hfirst hbytes hrun hcomes
      cases e with
      | some why =>
        simp only [denote, hd] at h
        exact absurd h hfirst
      | none =>
        simp only [denote, hd, List.length_append] at h
        dsimp only at hbytes hrun
        obtain ⟨u, made', next, bs, hcomes', hcap', hbytes', hlack, hrun'⟩ :=
          ih₂ t (by rw [hcap, hbytes, List.length_append]; omega)
        refine ⟨u, made ++ made', next, xs ++ bs, .second hcomes hcomes', hcap'.trans hcap, ?_,
          hlack, ?_⟩
        · rw [hbytes', hbytes, List.append_assoc]
        · rw [write, EStateM.run_bind, hrun]
          exact hrun'
  | block width body ih =>
    rw [length_denote_block] at h
    by_cases hblank : s.capacity < s.bytes.length + width.blank.length
    · refine ⟨s, [], width.blank, [], .beforeBlock width body, rfl, (List.append_nil _).symm,
        hblank, ?_⟩
      simp only [write, EStateM.run_bind, Writer.run_size, Writer.run_bytes_of_lack hblank]
    · have room := Nat.le_of_not_lt hblank
      obtain ⟨t, made, next, bs, hcomes, hcap, hbytes, hlack, hrun⟩ :=
        ih (s.append width.blank (Sink.fits_iff.2 room)) (by
          simp only [Sink.bytes_append, List.length_append, Sink.capacity_append,
            Width.length_blank]
          omega)
      have hshort := Point.before_ne_finished next
      refine ⟨t, width.blank :: made, next, width.blank ++ bs, .opened hcomes hshort, hcap, ?_,
        hlack, ?_⟩
      · rw [hbytes, Sink.bytes_append, List.append_assoc]
      · simp only [write, EStateM.run_bind, Writer.run_size, Writer.run_bytes_of_room room, hrun]

/-- Want of space comes before any other fault. -/
theorem fault_write (l : Layout) (s : Sink) : Writer.fault (l.write.run s) =
    if s.capacity - s.bytes.length < l.denote.1.length then some .insufficientSpace
    else l.denote.2 := by
  have hle := s.length_bytes_le
  split
  · next h =>
    obtain ⟨t, _, _, _, -, -, -, -, hrun⟩ := l.run_write_of_lack s (by omega)
    rw [hrun]
    rfl
  · next h =>
    obtain ⟨t, -, -, hrun⟩ := l.run_write_of_room s (by omega)
    rw [hrun]
    cases l.denote.2 <;> rfl

/-- What is written without a fault is what the layout stands for. -/
theorem bytes_write {l : Layout} {s : Sink} (h : Writer.fault (l.write.run s) = none) :
    (Writer.left (l.write.run s)).bytes = s.bytes ++ l.denote.1 := by
  rw [fault_write] at h
  split at h
  · cases h
  · next hroom =>
    have hle := s.length_bytes_le
    obtain ⟨t, -, hbytes, hrun⟩ := l.run_write_of_room s (by omega)
    rw [hrun, h]
    exact hbytes

/-- What was there stays there. -/
theorem bytes_prefix_write (l : Layout) (s : Sink) :
    s.bytes <+: (Writer.left (l.write.run s)).bytes := by
  by_cases hlack : s.capacity < s.bytes.length + l.denote.1.length
  · obtain ⟨t, _, _, bs, -, -, hbytes, -, hrun⟩ := l.run_write_of_lack s hlack
    rw [hrun]
    exact ⟨bs, hbytes.symm⟩
  · obtain ⟨t, -, hbytes, hrun⟩ := l.run_write_of_room s (Nat.le_of_not_lt hlack)
    rw [hrun]
    cases l.denote.2 <;> exact ⟨l.denote.1, hbytes.symm⟩

/-- Without room for a word that stands first, nothing is written. -/
theorem write_word_of_lack {w : UInt16} {l : Layout} {s : Sink}
    (h : s.capacity - s.bytes.length < 2) :
    (word w ++ l).write.run s = .error .insufficientSpace s := by
  have hle := s.length_bytes_le
  have hlack : s.capacity < s.bytes.length + (Word.bytes w).length := by
    show s.capacity < s.bytes.length + 2
    omega
  show (append (bytes (Word.bytes w)) l).write.run s = _
  rw [write, EStateM.run_bind, write, Writer.run_bytes_of_lack hlack]

/-- With room for it, a word that stands first is written before all else. -/
theorem write_word_of_room {w : UInt16} {l : Layout} {s : Sink}
    (h : 2 ≤ s.capacity - s.bytes.length) :
    s.bytes ++ Word.bytes w <+: (Writer.left ((word w ++ l).write.run s)).bytes := by
  have hroom : s.bytes.length + (Word.bytes w).length ≤ s.capacity := by
    show s.bytes.length + 2 ≤ s.capacity
    omega
  have hbytes := l.bytes_prefix_write (s.append (Word.bytes w) (Sink.fits_iff.2 hroom))
  rw [Sink.bytes_append] at hbytes
  show _ <+: (Writer.left ((append (bytes (Word.bytes w)) l).write.run s)).bytes
  rw [write, EStateM.run_bind, write, Writer.run_bytes_of_room hroom]
  exact hbytes

end Layout

end HelloNegotiation
