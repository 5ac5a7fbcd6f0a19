import HelloNegotiation.Proofs.BlockReading
import HelloNegotiation.Proofs.BlockWriting

/-!
# A catalogue grows by what was read, and what is read does not depend on it

Whether reading succeeds or not, the catalogue gains the type numbers that were come to: of a block
those of its entries up to and including the first faulty one. Since a number is then found with
the same type as in any other catalogue, nothing that is read tells what was read before
(`after_holds`).
-/
namespace HelloNegotiation

/-- The number that stands first, if there are bytes enough for one. -/
def Word.first? : Bytes → Option UInt16
  | high :: low :: _ => some (ofBytes high low)
  | _ => none

namespace Source

/-- The source that a reader leaves, also when it fails. -/
def left {ε α : Type} : EStateM.Result ε Source α → Source
  | .ok _ s => s
  | .error _ s => s

/-- What a reader gives, and the bytes it leaves. -/
def outcome {ε α : Type} : EStateM.Result ε Source α → Except ε α × Bytes
  | .ok a s => (.ok a, s.rest)
  | .error e s => (.error e, s.rest)

theorem catalogue_left_extensionType (bs : Bytes) (c : Catalogue) :
    (left (extensionType.run ⟨bs, c⟩)).catalogue = c.resolveAll (Word.first? bs).toList := by
  match bs with
  | [] | [_] | _ :: _ :: _ => rfl

theorem outcome_extensionType {c d : Catalogue} (hc : c.Reachable) (hd : d.Reachable)
    (bs : Bytes) : outcome (extensionType.run ⟨bs, c⟩) = outcome (extensionType.run ⟨bs, d⟩) := by
  match bs with
  | [] | [_] => rfl
  | high :: low :: rest =>
    show (Except.ok (c.resolve _).1, rest) = (Except.ok (d.resolve _).1, rest)
    rw [hc.fst_resolve, hd.fst_resolve]

end Source

namespace Extension
variable {message : HelloMessage} {c d : Catalogue}

/-- An extension that is read, or not read, leaves its type number in the catalogue if that much of
it is there. -/
theorem catalogue_left_read (message : HelloMessage) (bs : Bytes) (c : Catalogue) :
    (Source.left ((read message).run ⟨bs, c⟩)).catalogue =
      c.resolveAll (Word.first? bs).toList := by
  match bs with
  | [] | [_] | [_, _] | [_, _, _] => rfl
  | i :: j :: k :: l :: rest =>
    rw [run_read_header]
    cases (Reader.take (Word.ofBytes k l).toNat).run rest with
    | error e left => rfl
    | ok data left =>
      dsimp only
      cases ofData message (c.resolve (Word.ofBytes i j)).1 data <;> rfl

theorem outcome_read (message : HelloMessage) (hc : c.Reachable) (hd : d.Reachable) (bs : Bytes) :
    Source.outcome ((read message).run ⟨bs, c⟩) =
      Source.outcome ((read message).run ⟨bs, d⟩) := by
  match bs with
  | [] | [_] | [_, _] | [_, _, _] => rfl
  | i :: j :: k :: l :: rest =>
    rw [run_read_header, run_read_header, hc.fst_resolve, hd.fst_resolve]
    cases (Reader.take (Word.ofBytes k l).toNat).run rest with
    | error e left => rfl
    | ok data left =>
      dsimp only
      cases ofData message (.ofId (Word.ofBytes i j)) data <;> rfl

/-- Entries up to the end or up to a faulty one leave their type numbers in the catalogue. -/
theorem catalogue_left_all (hc : c.Reachable) {es : List Entry} {tail : Bytes}
    (hes : ∀ e ∈ es, e.Allowed message) (htail : tail = [] ∨ ∃ f, Entry.Faulty message tail f) :
    (Source.left ((item message).all.run ⟨Entry.wires es ++ tail, c⟩)).catalogue =
      c.resolveAll (es.map Entry.id ++ (Word.first? tail).toList) := by
  have hreads : (item message).Reads ⟨Entry.wires es ++ tail, c⟩ (es.map Entry.decoded)
      ⟨tail, c.resolveAll (es.map Entry.id)⟩ :=
    (reads_iff hc).mpr ⟨es, rfl, hes, rfl, rfl⟩
  rw [hreads.run_all, Catalogue.resolveAll_append]
  rcases htail with rfl | ⟨f, hfaulty⟩
  · rw [Item.run_all_of_rest_nil (item message) rfl]
    rfl
  · have hd := hc.resolveAll (es.map Entry.id)
    obtain ⟨t, hread⟩ := (run_read_eq_error_iff hd hfaulty.ne_nil).mpr hfaulty
    have hleft := catalogue_left_read message tail (c.resolveAll (es.map Entry.id))
    rw [hread] at hleft
    rw [Item.run_all_of_error (item message) hfaulty.ne_nil hread]
    exact hleft

end Extension

namespace Block
variable {message : HelloMessage} {c d : Catalogue} {bs : Bytes} {ids : List UInt16}

/-- The type numbers that reading a block comes to: none if its length is bad, else those of the
entries up to and including the first faulty one, as far as the number of that one is there. -/
inductive Meets (message : HelloMessage) : Bytes → List UInt16 → Prop
  | short {bs : Bytes} (short : bs.length < 2) : Meets message bs []
  | cut {L : UInt16} {rest : Bytes} (cut : rest.length < L.toNat) :
      Meets message (Word.bytes L ++ rest) []
  | entries {L : UInt16} {es : List Entry} {tail : Bytes} (rest : Bytes)
      (whole : (Entry.wires es ++ tail).length = L.toNat) (allowed : ∀ e ∈ es, e.Allowed message)
      (ends : tail = [] ∨ ∃ f, Entry.Faulty message tail f) :
      Meets message (Word.bytes L ++ (Entry.wires es ++ tail) ++ rest)
        (es.map Entry.id ++ (Word.first? tail).toList)

theorem exists_meets (message : HelloMessage) (bs : Bytes) : ∃ ids, Meets message bs ids := by
  rcases length_cases bs with hshort | ⟨L, rest, rfl, hcut⟩ | ⟨L, body, rest, rfl, hlen⟩
  · exact ⟨[], .short hshort⟩
  · exact ⟨[], .cut hcut⟩
  · have hc := Catalogue.Reachable.initial
    obtain ⟨xs, ⟨tail, d⟩, hreads, hend⟩ :=
      Item.exists_reads (Extension.item message) ⟨body, .initial⟩
    obtain ⟨es, rfl, hes, -, rfl⟩ := (Extension.reads_iff hc).mp hreads
    refine ⟨_, .entries rest hlen hes ?_⟩
    rcases hend with htail | ⟨htail, f, t, hread⟩
    · exact .inl htail
    · have hd := hc.resolveAll (es.map Entry.id)
      exact .inr ⟨f, (Extension.run_read_eq_error_iff hd htail).mp ⟨t, hread⟩⟩

theorem Meets.catalogue_left (h : Meets message bs ids) (hc : c.Reachable) :
    (Source.left ((read message).run ⟨bs, c⟩)).catalogue = c.resolveAll ids := by
  cases h with
  | short hshort =>
    rw [run_read_of_short hshort]
    rfl
  | cut hcut =>
    rw [run_read_of_cut hcut]
    rfl
  | @entries L es tail rest hlen hes htail =>
    have hleft := Extension.catalogue_left_all hc hes htail
    rw [run_read_of_body rest hlen, ← hleft]
    cases (Extension.item message).all.run ⟨Entry.wires es ++ tail, c⟩ <;> rfl

/-- The grammar settles what is read, and it knows nothing of catalogues. -/
theorem outcome_read (message : HelloMessage) (hc : c.Reachable) (hd : d.Reachable) (bs : Bytes) :
    outcome ((read message).run ⟨bs, c⟩) = outcome ((read message).run ⟨bs, d⟩) := by
  obtain ⟨⟨r, rest⟩, hr⟩ : ∃ o, outcome ((read message).run ⟨bs, d⟩) = o := ⟨_, rfl⟩
  rw [hr]
  cases r with
  | ok members => exact (outcome_eq_ok_iff hc).mpr ((outcome_eq_ok_iff hd).mp hr)
  | error f => exact (outcome_eq_error_iff hc).mpr ((outcome_eq_error_iff hd).mp hr)

/-- A block just read is its members, and its length has not been measured yet. -/
theorem source_outcome_read (message : HelloMessage) (s : Source) :
    Source.outcome ((read message).run s) =
      ((outcome ((read message).run s)).1.map fun members => ⟨members, none⟩,
        (outcome ((read message).run s)).2) := by
  cases h : (read message).run s with
  | error f t => rfl
  | ok b t =>
    obtain ⟨members, measured⟩ := b
    cases measured_of_read h
    rfl

end Block

namespace Catalogue

/-- What a catalogue is used for. -/
inductive Use
  | resolve (id : UInt16)
  | readType (bs : Bytes)
  | readExtension (message : HelloMessage) (bs : Bytes)
  | readBlock (message : HelloMessage) (bs : Bytes)

namespace Use

/-- The catalogue after it was used, also when reading failed. -/
def perform (c : Catalogue) : Use → Catalogue
  | resolve id => (c.resolve id).2
  | readType bs => (Source.left (Source.extensionType.run ⟨bs, c⟩)).catalogue
  | readExtension message bs => (Source.left ((Extension.read message).run ⟨bs, c⟩)).catalogue
  | readBlock message bs => (Source.left ((Block.read message).run ⟨bs, c⟩)).catalogue

/-- The type numbers that are come to. -/
def Meets : Use → List UInt16 → Prop
  | resolve id, ids => ids = [id]
  | readType bs, ids | readExtension _ bs, ids => ids = (Word.first? bs).toList
  | readBlock message bs, ids => Block.Meets message bs ids

theorem exists_meets (u : Use) : ∃ ids, u.Meets ids := by
  cases u with
  | resolve | readType | readExtension => exact ⟨_, rfl⟩
  | readBlock message bs => exact Block.exists_meets message bs

theorem perform_eq {c : Catalogue} (hc : c.Reachable) {u : Use} {ids : List UInt16}
    (h : u.Meets ids) : u.perform c = c.resolveAll ids := by
  cases u with
  | resolve id =>
    cases h
    rfl
  | readType bs =>
    cases h
    exact Source.catalogue_left_extensionType bs c
  | readExtension message bs =>
    cases h
    exact Extension.catalogue_left_read message bs c
  | readBlock message bs => exact Block.Meets.catalogue_left h hc

end Use

/-- The catalogue after it was used for all these, beginning with the named types. -/
def after (uses : List Use) : Catalogue := uses.foldl Use.perform initial

theorem exists_forall₂_meets (uses : List Use) : ∃ idss, List.Forall₂ Use.Meets uses idss := by
  induction uses with
  | nil => exact ⟨[], .nil⟩
  | cons u uses ih =>
    obtain ⟨ids, hids⟩ := u.exists_meets
    obtain ⟨idss, hidss⟩ := ih
    exact ⟨ids :: idss, .cons hids hidss⟩

theorem foldl_perform {c : Catalogue} (hc : c.Reachable) {uses : List Use}
    {idss : List (List UInt16)} (h : List.Forall₂ Use.Meets uses idss) :
    uses.foldl Use.perform c = c.resolveAll idss.flatten := by
  induction h generalizing c with
  | nil => rfl
  | @cons u ids uses idss hids _ ih =>
    rw [List.foldl_cons, List.flatten_cons, resolveAll_append, Use.perform_eq hc hids,
      ih (hc.resolveAll ids)]

theorem reachable_after (uses : List Use) : (after uses).Reachable := by
  obtain ⟨idss, h⟩ := exists_forall₂_meets uses
  rw [after, foldl_perform .initial h]
  exact Reachable.initial.resolveAll _

/-- The catalogue holds the named types and the numbers in `met`, and nothing else. -/
structure Holds (c : Catalogue) (met : List UInt16) : Prop where
  id_eq : ∀ (id : UInt16) (t : ExtensionType), c.types[id]? = some t → t.id = id
  /-- The named types stay as they are. -/
  named : ∀ t ∈ ExtensionType.named, c.types[t.id]? = some t
  unnamed : ∀ (id : UInt16) (t : ExtensionType), c.types[id]? = some t → id ∉ namedIds →
    t.isKnown = false ∧ t.name = "type_" ++ Nat.repr id.toNat
  size_eq : c.size = 16 + (met.toFinset \ namedIds).card

/-- Two catalogues that no look-up and no reading tells apart: there are the same types, with their
names, the same faults, and the same bytes left. -/
structure Alike (c d : Catalogue) : Prop where
  resolve : ∀ id, (c.resolve id).1 = (d.resolve id).1
  readType : ∀ bs, Source.outcome (Source.extensionType.run ⟨bs, c⟩) =
    Source.outcome (Source.extensionType.run ⟨bs, d⟩)
  readExtension : ∀ message bs, Source.outcome ((Extension.read message).run ⟨bs, c⟩) =
    Source.outcome ((Extension.read message).run ⟨bs, d⟩)
  readBlock : ∀ message bs, Source.outcome ((Block.read message).run ⟨bs, c⟩) =
    Source.outcome ((Block.read message).run ⟨bs, d⟩)

theorem Reachable.alike {c d : Catalogue} (hc : c.Reachable) (hd : d.Reachable) : c.Alike d where
  resolve id := by rw [hc.fst_resolve, hd.fst_resolve]
  readType := Source.outcome_extensionType hc hd
  readExtension message := Extension.outcome_read message hc hd
  readBlock message bs := by
    rw [Block.source_outcome_read, Block.source_outcome_read, Block.outcome_read message hc hd]

theorem isSome_getElem?_resolveAll (ids : List UInt16) {id : UInt16} (h : id ∈ namedIds) :
    ((initial.resolveAll ids).types[id]?).isSome := by
  rw [Reachable.initial.getElem?_resolveAll]
  split
  · rfl
  · exact mem_namedIds.mp h

theorem holds_resolveAll (ids : List UInt16) : (initial.resolveAll ids).Holds ids := by
  have hreachable := Reachable.initial.resolveAll ids
  constructor
  · intro id t ht
    rw [hreachable.eq_ofId ht, ExtensionType.id_ofId]
  · intro t ht
    have hmem : t.id ∈ namedIds := List.mem_toFinset.mpr (List.mem_map_of_mem ht)
    obtain ⟨u, hu⟩ := Option.isSome_iff_exists.mp (isSome_getElem?_resolveAll ids hmem)
    rw [hu, hreachable.eq_ofId hu, ExtensionType.ofId_of_mem ht]
  · intro id t ht hid
    have hnone : ExtensionType.named.find? (·.id == id) = none := by
      rw [mem_namedIds, getElem?_initial, Bool.not_eq_true, Option.isSome_eq_false_iff,
        Option.isNone_iff_eq_none] at hid
      exact hid
    rw [hreachable.eq_ofId ht, ExtensionType.ofId, hnone]
    exact ⟨rfl, rfl⟩
  · exact size_resolveAll_initial ids

/-- Whatever a catalogue was used for, it holds the named types and the numbers come to, and it
cannot be told from any other one. -/
theorem after_holds (uses : List Use) :
    (∃ idss, List.Forall₂ Use.Meets uses idss) ∧
    (∀ idss, List.Forall₂ Use.Meets uses idss → (after uses).Holds idss.flatten) ∧
    ∀ uses', (after uses).Alike (after uses') := by
  refine ⟨exists_forall₂_meets uses, ?_, ?_⟩
  · intro idss h
    rw [after, foldl_perform .initial h]
    exact holds_resolveAll idss.flatten
  · exact fun uses' => (reachable_after uses).alike (reachable_after uses')

end Catalogue

end HelloNegotiation
