import HelloNegotiation.Proofs.BlockWriting

/-!
# The names of an advertisement

An advertisement comes from names: read from bytes, made from texts or put in one by one. It keeps
each of them where it came first (`Npn.Gathers.names_eq`). Names one after another can be read, and
nothing else; what an advertisement writes is one such byte string and reads back as the same
advertisement (`Npn.read_gathers`).
-/
namespace HelloNegotiation.Npn
open ProtocolName (wires Faulty)

/-- Reads names to the end and puts each into the advertisement as soon as it has been read. -/
def takeIn (n : Npn) (bs : Bytes) : EStateM.Result ReadFault Bytes Npn :=
  if bs.isEmpty then .ok n bs
  else match h : ProtocolName.read.run bs with
    | .ok p rest =>
      have : rest.length < bs.length := ProtocolName.item.shrinks h
      takeIn (n.insert p).2 rest
    | .error e rest => .error e rest
termination_by bs.length

section
variable {n : Npn} {bs rest : Bytes} {ps : List ProtocolName} {e : ReadFault}

theorem takeIn_nil (n : Npn) : takeIn n [] = .ok n [] := by
  rw [takeIn]
  rfl

theorem takeIn_of_ok {p : ProtocolName} (h : ProtocolName.read.run bs = .ok p rest) :
    takeIn n bs = takeIn (n.insert p).2 rest := by
  have hread : ProtocolName.item.read.run bs = .ok p rest := h
  have hbs : bs ≠ [] := Item.rest_ne_nil hread
  rw [takeIn, if_neg (by simpa using hbs)]
  split <;> simp_all

theorem takeIn_of_error (hbs : bs ≠ []) (h : ProtocolName.read.run bs = .error e rest) :
    takeIn n bs = .error e rest := by
  rw [takeIn, if_neg (by simpa using hbs)]
  split <;> simp_all

/-- The names read so far are in the advertisement when the reading goes on. -/
theorem takeIn_of_reads (h : ProtocolName.item.Reads bs ps rest) :
    takeIn n bs = takeIn (ps.foldl (fun n p => (n.insert p).2) n) rest := by
  induction h generalizing n with
  | nil => rfl
  | cons hr tail ih => rw [takeIn_of_ok hr, ih, List.foldl_cons]

/-- Putting names in while reading comes to the same as reading them all and putting them in. -/
theorem takeIn_empty (bs : Bytes) : takeIn empty bs = read.run bs := by
  obtain ⟨ps, rest, hreads, hend⟩ := Item.exists_reads ProtocolName.item bs
  rw [takeIn_of_reads hreads, read, EStateM.run_bind, hreads.run_all]
  rcases hend with hnil | ⟨hne, e, u, hr⟩
  · have hrest : rest = [] := hnil
    rw [Item.run_all_of_rest_nil _ hnil, hrest, takeIn_nil]
    simp [ofNames]
  · rw [Item.run_all_of_error _ hne hr]
    exact takeIn_of_error hne hr

theorem run_read_eq_ok_iff :
    read.run bs = .ok n rest ↔ rest = [] ∧ ∃ ps, bs = wires ps ∧ n = ofNames ps := by
  constructor
  · intro h
    obtain ⟨ps, left, hall, h⟩ := Reader.run_bind_eq_ok_iff.mp h
    obtain ⟨rfl, rfl⟩ := ProtocolName.run_all_eq_ok_iff.mp hall
    cases h
    exact ⟨rfl, ps, rfl, rfl⟩
  · intro h
    obtain ⟨rfl, ps, rfl, rfl⟩ := h
    refine Reader.run_bind_eq_ok_iff.mpr ⟨ps, [], ?_, rfl⟩
    exact ProtocolName.run_all_eq_ok_iff.mpr ⟨rfl, rfl⟩

/-- Reading fails for the first name that cannot be read. -/
theorem run_read_eq_error_iff :
    (∃ rest, read.run bs = .error e rest) ↔ ∃ ps tail, bs = wires ps ++ tail ∧ Faulty tail e := by
  rw [← ProtocolName.run_all_eq_error_iff]
  constructor
  · intro h
    obtain ⟨rest, h⟩ := h
    obtain hall | ⟨ps, left, -, h⟩ := Reader.run_bind_eq_error_iff.mp h
    · exact ⟨rest, hall⟩
    · cases h
  · intro h
    obtain ⟨rest, hall⟩ := h
    exact ⟨rest, Reader.run_bind_eq_error_iff.mpr (.inl hall)⟩

end

/-- How an advertisement comes to be, with the names put into it on the way, repeats included. -/
inductive Gathers : List ProtocolName → Npn → Prop
  | empty : Gathers [] empty
  | ofTexts {texts : List String} {ps : List ProtocolName} {n : Npn}
      (hps : texts.mapM ProtocolName.ofLatin1 = .ok ps) (h : ofTexts texts = .ok n) : Gathers ps n
  | ofNames (ps : List ProtocolName) : Gathers ps (ofNames ps)
  | read {bs rest : Bytes} {ps : List ProtocolName} {n : Npn} (hbs : bs = wires ps)
      (h : read.run bs = .ok n rest) : Gathers ps n
  | insert {ps : List ProtocolName} {n : Npn} (h : Gathers ps n) (p : ProtocolName) :
      Gathers (ps ++ [p]) (n.insert p).2

/-- However an advertisement came to be, it keeps each name where it was put in first. -/
theorem Gathers.names_eq {ps : List ProtocolName} {n : Npn} (h : Gathers ps n) :
    n.names = ps.eraseDups := by
  induction h with
  | empty => rfl
  | ofTexts hps h =>
    rw [Npn.ofTexts, hps] at h
    cases h
    exact names_ofNames _
  | ofNames ps => exact names_ofNames ps
  | read hbs h =>
    obtain ⟨-, ps', hbs', rfl⟩ := run_read_eq_ok_iff.mp h
    cases ProtocolName.wires_injective (hbs.symm.trans hbs')
    exact names_ofNames _
  | insert h p ih => exact names_insert ih p

theorem fst_insert_iff (n : Npn) (p : ProtocolName) : (n.insert p).1 = true ↔ p ∉ n.names := by
  constructor
  · intro h hp
    rw [insert_of_mem hp] at h
    cases h
  · intro hp
    exact (names_insert_of_not_mem hp).1

theorem wireLength_insert_of_not_mem {n : Npn} {p : ProtocolName} (h : p ∉ n.names) :
    (n.insert p).2.wireLength = n.wireLength + p.wireLength := by
  simp [wireLength, (names_insert_of_not_mem h).2]

theorem ofNames_names (n : Npn) : ofNames n.names = n := by rw [ofNames_eq_firsts, firsts_names]

theorem writes (n : Npn) : n.layout.Writes (wires n.names) :=
  Layout.writes_of_denote (ProtocolName.denote_layouts n.names)

theorem run_read_wires (n : Npn) : read.run (wires n.names) = .ok n [] :=
  run_read_eq_ok_iff.mpr ⟨rfl, n.names, rfl, (ofNames_names n).symm⟩

/-- Names one after another are read as the advertisement of these names, each where it stands
first, whether they are put into it at the end or while reading. Anything else is refused for the
first name that cannot be read. However an advertisement came to be, its names are those put into
it, each where it came first, and so distinct; a further name goes to the end unless it is there
already. An advertisement is written in as many bytes as it says, which read back as the same. -/
theorem read_gathers :
    (∀ ps, read.run (wires ps) = .ok (ofNames ps) [] ∧ (ofNames ps).names = ps.eraseDups) ∧
    (∀ bs n rest, read.run bs = .ok n rest ↔ rest = [] ∧ ∃ ps, bs = wires ps ∧ n = ofNames ps) ∧
    (∀ bs e, (∃ rest, read.run bs = .error e rest) ↔
      ∃ ps tail, bs = wires ps ++ tail ∧ Faulty tail e) ∧
    (∀ bs, takeIn empty bs = read.run bs) ∧
    (∀ ps n, Gathers ps n → n.names = ps.eraseDups ∧ n.names.Nodup) ∧
    (∀ (n : Npn) (p : ProtocolName), ((n.insert p).1 = true ↔ p ∉ n.names) ∧
      (p ∉ n.names → (n.insert p).2.names = n.names ++ [p] ∧
        (n.insert p).2.wireLength = n.wireLength + (1 + p.bytes.length)) ∧
      (p ∈ n.names → (n.insert p).2 = n)) ∧
    (∀ p : ProtocolName, p.layout.Writes p.wire) ∧
    ∀ n : Npn, ∃ bs, n.layout.Writes bs ∧ bs.length = n.wireLength ∧ read.run bs = .ok n [] := by
  refine ⟨?_, fun _ _ _ => run_read_eq_ok_iff, fun _ _ => run_read_eq_error_iff, takeIn_empty, ?_,
    ?_, fun p => Layout.writes_of_denote p.denote_layout, ?_⟩
  · intro ps
    exact ⟨run_read_eq_ok_iff.mpr ⟨rfl, ps, rfl, rfl⟩, names_ofNames ps⟩
  · intro ps n h
    exact ⟨h.names_eq, n.nodup⟩
  · intro n p
    refine ⟨fst_insert_iff n p, ?_, ?_⟩
    · intro hp
      exact ⟨(names_insert_of_not_mem hp).2, wireLength_insert_of_not_mem hp⟩
    · intro hp
      rw [insert_of_mem hp]
  · intro n
    exact ⟨wires n.names, n.writes, ProtocolName.length_wires n.names, n.run_read_wires⟩

end HelloNegotiation.Npn
