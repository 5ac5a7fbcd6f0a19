import HelloNegotiation.Proofs.BlockEncoding

/-!
# The length that a block keeps cannot be noticed

Blocks are made, read, copied, added to and asked in any order. The same can be done with plain
lists of extensions, measured anew whenever their length is needed. As long as what is kept is the
length of the members, a step of the one is a step of the other, so all answers are the same
(`run_remeasuring`), and no block is ever written behind a length that is not its own.
-/
namespace HelloNegotiation

/-- What can be asked of extensions that are kept together. -/
inductive Query
  | encodedLength
  | write (s : Sink)
  | toBytes
  | find (type : ExtensionType)
  | alpn
  | npn

/-- What can be done with the containers made so far, each known by its place. -/
inductive Operation
  | new
  | read (message : HelloMessage) (s : Source)
  | append (i : Nat) (x : Extension)
  | clone (i : Nat)
  | ask (i : Nat) (q : Query)

inductive Reply
  | done
  /-- There is no container at the place. -/
  | missing
  | read (fault : Option Fault) (left : Source)
  | length (n : Nat)
  | wrote (fault : Option Fault) (left : Sink)
  | bytes (result : Except Fault Bytes)
  | found (x : Option Extension)
  | alpn (a : Option Alpn)
  | npn (n : Option Npn)

/-- A way of keeping extensions together; being asked may change what is kept. -/
structure Container (β : Type) where
  empty : β
  read : HelloMessage → EStateM Fault Source β
  append : β → Extension → β
  answer : β → Query → Reply × β

namespace Container
variable {β γ : Type}

/-- Does `f` with the container at place `i`, if there is one. -/
def withAt (bs : List β) (i : Nat) (f : β → Reply × List β) : Reply × List β :=
  match bs[i]? with
  | some b => f b
  | none => (.missing, bs)

/-- One operation on the containers made so far. -/
def perform (C : Container β) (bs : List β) : Operation → Reply × List β
  | .new => (.done, bs ++ [C.empty])
  | .read message s => match (C.read message).run s with
    | .ok b t => (.read none t, bs ++ [b])
    | .error f t => (.read (some f) t, bs)
  | .append i x => withAt bs i fun b => (.done, bs.set i (C.append b x))
  | .clone i => withAt bs i fun b => (.done, bs ++ [b])
  | .ask i q => withAt bs i fun b => ((C.answer b q).1, bs.set i (C.answer b q).2)

/-- The replies to all these operations, and the containers there are then. -/
def run (C : Container β) (bs : List β) : List Operation → List Reply × List β
  | [] => ([], bs)
  | op :: ops =>
    let (r, bs) := C.perform bs op
    let (rs, bs) := C.run bs ops
    (r :: rs, bs)

/-- What `C` keeps, as long as `Inv` holds of it, stands for what `D` keeps, and is answered for in
the same way. -/
structure Refines (C : Container β) (D : Container γ) (abs : β → γ) (Inv : β → Prop) : Prop where
  empty : Inv C.empty ∧ D.empty = abs C.empty
  read_ok : ∀ {message s b t}, (C.read message).run s = .ok b t →
    Inv b ∧ (D.read message).run s = .ok (abs b) t
  read_error : ∀ {message s f t}, (C.read message).run s = .error f t →
    (D.read message).run s = .error f t
  append : ∀ {b}, Inv b → ∀ x, Inv (C.append b x) ∧ D.append (abs b) x = abs (C.append b x)
  answer : ∀ {b}, Inv b → ∀ q, Inv (C.answer b q).2 ∧
    D.answer (abs b) q = ((C.answer b q).1, abs (C.answer b q).2)

variable {C : Container β} {D : Container γ} {abs : β → γ} {Inv : β → Prop} {bs : List β}

theorem forall_mem_set {b : β} (hbs : ∀ b ∈ bs, Inv b) (hb : Inv b) (i : Nat) :
    ∀ b' ∈ bs.set i b, Inv b' := by
  intro b' hmem
  rcases List.mem_or_eq_of_mem_set hmem with hold | rfl
  · exact hbs b' hold
  · exact hb

theorem withAt_map {f : β → Reply × List β} {g : γ → Reply × List γ} (hbs : ∀ b ∈ bs, Inv b)
    (hfg : ∀ b ∈ bs, (∀ b' ∈ (f b).2, Inv b') ∧ g (abs b) = ((f b).1, (f b).2.map abs))
    (i : Nat) : (∀ b ∈ (withAt bs i f).2, Inv b) ∧
      withAt (bs.map abs) i g = ((withAt bs i f).1, (withAt bs i f).2.map abs) := by
  simp only [withAt, List.getElem?_map]
  cases hi : bs[i]? with
  | none => exact ⟨hbs, rfl⟩
  | some b => exact hfg b (List.mem_of_getElem? hi)

theorem Refines.perform (h : C.Refines D abs Inv) (hbs : ∀ b ∈ bs, Inv b) (op : Operation) :
    (∀ b ∈ (C.perform bs op).2, Inv b) ∧
      D.perform (bs.map abs) op = ((C.perform bs op).1, (C.perform bs op).2.map abs) := by
  -- a container behind the others is as good as they are
  have hsnoc : ∀ {b}, Inv b → ∀ b' ∈ bs ++ [b], Inv b' := fun hb =>
    List.forall_mem_append.mpr ⟨hbs, List.forall_mem_singleton.mpr hb⟩
  cases op with
  | new =>
    obtain ⟨hempty, habs⟩ := h.empty
    refine ⟨hsnoc hempty, ?_⟩
    simp only [Container.perform, habs, List.map_append, List.map_cons, List.map_nil]
  | read message s =>
    cases hread : (C.read message).run s with
    | ok b t =>
      obtain ⟨hb, hread'⟩ := h.read_ok hread
      simp only [Container.perform, hread, hread', List.map_append, List.map_cons, List.map_nil]
      exact ⟨hsnoc hb, trivial⟩
    | error f t =>
      simp only [Container.perform, hread, h.read_error hread]
      exact ⟨hbs, trivial⟩
  | append i x =>
    refine withAt_map hbs (fun b hmem => ?_) i
    obtain ⟨hb, habs⟩ := h.append (hbs b hmem) x
    exact ⟨forall_mem_set hbs hb i, by rw [habs, List.map_set]⟩
  | clone i =>
    refine withAt_map hbs (fun b hmem => ?_) i
    exact ⟨hsnoc (hbs b hmem), by rw [List.map_append, List.map_singleton]⟩
  | ask i q =>
    refine withAt_map hbs (fun b hmem => ?_) i
    obtain ⟨hb, habs⟩ := h.answer (hbs b hmem) q
    exact ⟨forall_mem_set hbs hb i, by rw [habs, List.map_set]⟩

theorem Refines.run (h : C.Refines D abs Inv) (hbs : ∀ b ∈ bs, Inv b) (ops : List Operation) :
    (∀ b ∈ (C.run bs ops).2, Inv b) ∧
      D.run (bs.map abs) ops = ((C.run bs ops).1, (C.run bs ops).2.map abs) := by
  induction ops generalizing bs with
  | nil => exact ⟨hbs, rfl⟩
  | cons op ops ih =>
    obtain ⟨hstep, hperform⟩ := h.perform hbs op
    obtain ⟨hinv, hrun⟩ := ih hstep
    simp only [Container.run, hperform, hrun]
    exact ⟨hinv, trivial⟩

end Container

namespace Block

/-- The answer of a block, and the block with its length kept if it was needed. -/
def answer (b : Block) : Query → Reply × Block
  | .encodedLength => (.length b.encodedLength.1, b.encodedLength.2)
  | .write s =>
    (.wrote (Writer.fault (b.layout.1.write.run s)) (Writer.left (b.layout.1.write.run s)),
      b.layout.2)
  | .toBytes => (.bytes b.toBytes.1, b.toBytes.2)
  | .find type => (.found (b.find type), b)
  | .alpn => (.alpn b.alpn, b)
  | .npn => (.npn b.npn, b)

/-- The answer of extensions that are measured whenever their length is needed. -/
def remeasured (members : List Extension) : Query → Reply
  | .encodedLength => .length (wireLength members)
  | .write s =>
    let written := (layoutOfLength members (wireLength members)).write.run s
    .wrote (Writer.fault written) (Writer.left written)
  | .toBytes => .bytes <|
    match (layoutOfLength members (wireLength members)).write.run
      (Sink.empty (wireLength members)) with
    | .ok _ s => .ok s.padded
    | .error f _ => .error f
  | .find type => .found (find ⟨members, none⟩ type)
  | .alpn => .alpn (alpn ⟨members, none⟩)
  | .npn => .npn (npn ⟨members, none⟩)

end Block

namespace Container

/-- Blocks, which keep their length once it has been measured. -/
def keeping : Container Block where
  empty := .empty
  read := Block.read
  append := Block.append
  answer := Block.answer

/-- The same without a length kept. -/
def remeasuring : Container (List Extension) where
  empty := []
  read message := do
    let b ← Block.read message
    return b.members
  append members x := members ++ [x]
  answer members q := (Block.remeasured members q, members)

end Container

namespace Block

theorem answer_of_measured {b : Block} (h : b.Measured) (q : Query) :
    (b.answer q).2.Measured ∧ (b.answer q).2.members = b.members ∧
      (b.answer q).1 = remeasured b.members q := by
  obtain ⟨hlen, hmembers, hmeasured⟩ := encodedLength_eq h
  cases q with
  | encodedLength => exact ⟨hmeasured, hmembers, congrArg Reply.length hlen⟩
  | write s =>
    refine ⟨hmeasured, hmembers, ?_⟩
    simp only [answer, remeasured, layout_of_measured h]
  | toBytes =>
    obtain ⟨-, hmembers', hmeasured'⟩ := encodedLength_eq hmeasured
    have hsnd : (b.answer .toBytes).2 = b.encodedLength.2.encodedLength.2 := snd_toBytes b
    rw [hsnd]
    exact ⟨hmeasured', hmembers'.trans hmembers, congrArg Reply.bytes (fst_toBytes_eq_write h)⟩
  | find | alpn | npn => exact ⟨h, rfl, rfl⟩

theorem keeping_refines : Container.keeping.Refines .remeasuring members Measured where
  empty := ⟨Built.empty.measured, rfl⟩
  read_ok {message s b t} hread := by
    have hread : (read message).run s = .ok b t := hread
    refine ⟨(Built.read hread).measured, ?_⟩
    rw [Container.remeasuring, EStateM.run_bind, hread]
    rfl
  read_error {message s f t} hread := by
    have hread : (read message).run s = .error f t := hread
    rw [Container.remeasuring, EStateM.run_bind, hread]
  append {b} h x := ⟨measured_append b x, rfl⟩
  answer {b} h q := by
    obtain ⟨hmeasured, hmembers, hreply⟩ := answer_of_measured h q
    refine ⟨hmeasured, ?_⟩
    show (remeasured b.members q, b.members) = ((b.answer q).1, (b.answer q).2.members)
    rw [hreply, hmembers]

/-- Either no length is kept, or that of the members. -/
def KeepsLength (b : Block) : Prop :=
  b.measured = none ∨ b.members = [] ∧ b.measured = some 0 ∨
    b.members ≠ [] ∧ b.measured = some (2 + total Extension.wireLength b.members)

theorem Measured.keepsLength {b : Block} (h : b.Measured) : b.KeepsLength := by
  cases hm : b.measured with
  | none => exact .inl hm
  | some n =>
    have hn := h n hm
    by_cases hnil : b.members = []
    · refine .inr (.inl ⟨hnil, ?_⟩)
      rw [hm, hn, hnil]
      rfl
    · refine .inr (.inr ⟨hnil, ?_⟩)
      rw [hm, hn, wireLength_of_ne_nil hnil]

/-- The length field can be taken off a length that is not zero. -/
theorem two_le_encodedLength {b : Block} (h : b.Measured) (hpos : b.encodedLength.1 ≠ 0) :
    2 ≤ b.encodedLength.1 := by
  rw [(encodedLength_eq h).1] at hpos ⊢
  by_cases hnil : b.members = []
  · rw [hnil] at hpos
    exact absurd rfl hpos
  · rw [wireLength_of_ne_nil hnil]
    exact Nat.le_add_right 2 _

/-- What can come of writing these members into `s`: nothing, if there are none; all of them behind
their length; or a fault. Members that are too long are refused before anything is written. Where
room is wanting, either there was none for the length, or the length that stands there is theirs. -/
inductive Announced (members : List Extension) (s : Sink) : EStateM.Result Fault Sink Unit → Prop
  | nothing (nil : members = []) : Announced members s (.ok () s)
  | whole {t : Sink} {L : UInt16} (nonempty : members ≠ [])
      (bytes : t.bytes = s.bytes ++ (Word.bytes L ++ members.flatMap (·.entry.wire)))
      (length : (members.flatMap (·.entry.wire)).length = L.toNat) : Announced members s (.ok () t)
  | refused (long : 65535 < total Extension.wireLength members) :
      Announced members s (.error .encode s)
  | untouched (nonempty : members ≠ []) (fits : total Extension.wireLength members ≤ 65535)
      (lack : s.capacity - s.bytes.length < 2) : Announced members s (.error .insufficientSpace s)
  | broken {t : Sink} {L : UInt16} {body : Bytes} (nonempty : members ≠ [])
      (bytes : t.bytes = s.bytes ++ (Word.bytes L ++ body))
      (length : total Extension.wireLength members = L.toNat)
      (lack : s.capacity - s.bytes.length < 2 + L.toNat) :
      Announced members s (.error .insufficientSpace t)

theorem Measured.announced {b : Block} (h : b.Measured) (s : Sink) :
    Announced b.members s (b.layout.1.write.run s) := by
  by_cases hnil : b.members = []
  · rw [write_layout_of_nil h hnil]
    exact .nothing hnil
  by_cases hlong : 65535 < total Extension.wireLength b.members
  · rw [write_layout_of_exceeds h hlong]
    exact .refused hlong
  have hle := Nat.le_of_not_lt hlong
  have hlength : (UInt16.ofNat (total Extension.wireLength b.members)).toNat =
      total Extension.wireLength b.members := Word.toNat_ofNat hle
  have hfault := fault_write_layout h hnil s
  rw [if_neg hlong] at hfault
  cases hrun : b.layout.1.write.run s with
  | ok u t =>
    have hbytes := bytes_write_layout h hnil (s := s) (by rw [hrun]; rfl)
    rw [hrun] at hbytes
    refine .whole hnil hbytes ?_
    rw [hlength, ← Extension.length_wires_entry, Entry.wires, List.flatMap_map]
  | error f t =>
    -- members that fit fail for want of room only, before their length is written or behind it
    rw [hrun] at hfault
    split at hfault
    · next hlack =>
      obtain rfl : f = .insufficientSpace := Option.some.inj hfault
      rw [layout_of_measured h, layoutOfLength_of_fits hnil hle] at hrun
      by_cases hnone : s.capacity - s.bytes.length < 2
      · cases hrun.symm.trans (Layout.write_word_of_lack hnone)
        exact .untouched hnil hle hnone
      · obtain ⟨body, hbody⟩ := Layout.write_word_of_room (Nat.le_of_not_lt hnone)
        rw [hrun, List.append_assoc] at hbody
        refine .broken hnil hbody.symm hlength.symm ?_
        rw [hlength]
        exact hlack
    · cases hfault

/-- Whatever is done with blocks, no reply tells that they keep their length: that of a list of
extensions measured anew each time is the same. A length that is kept is right, two bytes can be
taken off it unless it is zero, no block is written behind another length, and writing one fails
only if its members are too long or room is wanting. -/
theorem run_remeasuring (ops : List Operation) :
    Container.remeasuring.run [] ops =
        ((Container.keeping.run [] ops).1, (Container.keeping.run [] ops).2.map members) ∧
      ∀ b ∈ (Container.keeping.run [] ops).2,
        b.KeepsLength ∧ (b.encodedLength.1 ≠ 0 → 2 ≤ b.encodedLength.1) ∧
          ∀ s, Announced b.members s (b.layout.1.write.run s) := by
  obtain ⟨hmeasured, hrun⟩ := keeping_refines.run (List.forall_mem_nil _) ops
  refine ⟨hrun, ?_⟩
  intro b hb
  have h := hmeasured b hb
  exact ⟨h.keepsLength, two_le_encodedLength h, h.announced⟩

/-- A length asked for before a member is added is not the answer afterwards, nor that of a copy
made in between. -/
example : (Container.keeping.run [] [.new, .ask 0 .encodedLength, .clone 0,
    .append 0 (.alpn (.selected .h2)), .ask 0 .encodedLength, .ask 1 .encodedLength]).1 =
      [.done, .length 0, .done, .done, .length 9, .length 0] := rfl

end Block

end HelloNegotiation
