import HelloNegotiation.Proofs.ServerResponses
import HelloNegotiation.Proofs.UnaskedAnswers
import Mathlib.Logic.Relation

/-!
# The negotiations found in a block

A block can hold an extension of the type of a negotiation whose data was kept as it is, and such a
member would hide the negotiations behind it. None is ever read, and the steps of a handshake add
none (`Block.Grows.exists_added`). So, as long as none is appended, what a block that came from
bytes says of a negotiation is the first of its members that is one
(`Block.finds_negotiations`).
-/
namespace HelloNegotiation

namespace Extension

/-- The data of a negotiation has been decoded. -/
def Undisguised : Extension → Prop
  | alpn _ | npn _ => True
  | other type _ => type.id ≠ ExtensionType.alpn.id ∧ type.id ≠ ExtensionType.npn.id

/-- The names of a negotiation. -/
def names : Extension → List ProtocolName
  | alpn a => a.names
  | npn n => n.names
  | other _ _ => []

variable {x : Extension}

theorem Undisguised.type_beq_alpn_iff (h : x.Undisguised) :
    (x.type == .alpn) = true ↔ ∃ a, x = .alpn a := by
  rw [ExtensionType.beq_iff]
  cases x with
  | alpn a => exact iff_of_true rfl ⟨a, rfl⟩
  | npn n => exact iff_of_false Entry.npn_ne_alpn nofun
  | other type data => exact iff_of_false h.1 nofun

theorem Undisguised.type_beq_npn_iff (h : x.Undisguised) :
    (x.type == .npn) = true ↔ ∃ n, x = .npn n := by
  rw [ExtensionType.beq_iff]
  cases x with
  | alpn a => exact iff_of_false Entry.npn_ne_alpn.symm nofun
  | npn n => exact iff_of_true rfl ⟨n, rfl⟩
  | other type data => exact iff_of_false h.2 nofun

end Extension

namespace Entry
variable {message : HelloMessage} {e : Entry}

/-- What is read in a message is not disguised: an entry of any other type has another number. -/
theorem Suits.undisguised (h : e.Suits message) : e.decoded.Undisguised := by
  cases e with
  | emptyOffer | offer | selection | advertisement => trivial
  | other id data =>
    rw [decoded, Extension.Undisguised, ExtensionType.id_ofId]
    exact h

/-- There are offers in the client hello, and selections in the answers to it. -/
theorem Suits.form {a : Alpn} (h : e.Suits message) (ha : e.decoded = .alpn a) :
    (message = .clientHello → ∃ ps, a = .offered ps) ∧
      (message ≠ .clientHello → ∃ p, a = .selected p) := by
  cases e with
  | emptyOffer =>
    cases ha
    exact ⟨fun _ => ⟨[], rfl⟩, fun hne => absurd h hne⟩
  | offer ps =>
    cases ha
    exact ⟨fun _ => ⟨ps, rfl⟩, fun hne => absurd h hne⟩
  | selection p =>
    cases ha
    exact ⟨fun heq => absurd heq h, fun _ => ⟨p, rfl⟩⟩
  | advertisement | other => cases ha

end Entry

namespace Block
variable {α : Type} {message : HelloMessage} {s t : Source} {b b' : Block}

theorem npn_eq_some_iff {n : Npn} : b.npn = some n ↔ b.find .npn = some (.npn n) := by
  unfold npn
  constructor
  · intro h
    split at h
    · next hfind => rw [hfind, Option.some.inj h]
    · cases h
  · intro h
    rw [h]

theorem find_append_of_some {type : ExtensionType} {x : Extension} (h : b.find type = some x)
    (e : Extension) : (b.append e).find type = some x := by
  rw [find_append, h]
  rfl

/-- What a block says of a negotiation leaves out nothing: it says something whenever a member has
the type, and then it is the first member of that form. -/
structure Finds (b : Block) (type : ExtensionType) (form : α → Extension) (found : Option α) :
    Prop where
  isSome_iff : (b.find type).isSome ↔ found.isSome
  eq_some_iff : ∀ a, found = some a ↔
    ∃ before after, b.members = before ++ form a :: after ∧ ∀ a', form a' ∉ before

/-- Nothing is left out where the members of the type are those of the form. -/
theorem finds_of_type_beq_iff {type : ExtensionType} {form : α → Extension} {found : Option α}
    (htype : ∀ x ∈ b.members, (x.type == type) = true ↔ ∃ a, x = form a)
    (hfound : ∀ a, found = some a ↔ b.find type = some (form a)) : b.Finds type form found := by
  constructor
  · constructor
    · intro h
      obtain ⟨x, hx⟩ := Option.isSome_iff_exists.mp h
      have hmem := List.mem_of_find?_eq_some hx
      obtain ⟨a, rfl⟩ := (htype x hmem).mp (List.find?_some hx :)
      exact Option.isSome_iff_exists.mpr ⟨a, (hfound a).mpr hx⟩
    · intro h
      obtain ⟨a, ha⟩ := Option.isSome_iff_exists.mp h
      exact Option.isSome_iff_exists.mpr ⟨form a, (hfound a).mp ha⟩
  · intro a
    rw [hfound, find, List.find?_eq_some_iff_append]
    constructor
    · rintro ⟨-, before, after, hmembers, hbefore⟩
      refine ⟨before, after, hmembers, ?_⟩
      intro a' ha'
      have hmem : form a' ∈ b.members := hmembers ▸ List.mem_append_left _ ha'
      have hbeq := (htype _ hmem).mpr ⟨a', rfl⟩
      simpa [hbeq] using hbefore _ ha'
    · rintro ⟨before, after, hmembers, hbefore⟩
      have hmem : form a ∈ b.members := hmembers ▸ List.mem_append_right _ List.mem_cons_self
      refine ⟨(htype _ hmem).mpr ⟨a, rfl⟩, before, after, hmembers, ?_⟩
      intro x hx
      have hother : ¬ (x.type == type) = true := by
        rw [htype x (hmembers ▸ List.mem_append_left _ hx)]
        rintro ⟨a', rfl⟩
        exact hbefore a' hx
      rwa [Bool.not_eq_true', ← Bool.not_eq_true]

/-- What can be done to a block in a handshake: the client's offers or the server's response are
added, or an extension is appended that is not disguised. -/
inductive Grows : Block → Block → Prop
  | offer (roster : Roster) (c : Connection) (x : Exchange) :
      Grows x.hello (Exchange.left ((Exchange.offer roster c).run x)).hello
  | respond (roster : Roster) (c : Connection) (client : Block) (x : Exchange) :
      Grows x.hello (Exchange.left ((Exchange.respond roster c client).run x)).hello
  | append (b : Block) {e : Extension} (he : e.Undisguised) : Grows b (b.append e)

end Block

namespace Exchange

/-- The client adds at most an offer and then at most an announcement. -/
theorem exists_added_offer (roster : Roster) (c : Connection) (x : Exchange) :
    ∃ added : List Extension, (left ((offer roster c).run x)).hello =
      added.foldl Block.append x.hello ∧ ∀ e ∈ added, e.Undisguised := by
  have hannounce : ∀ y, ∃ added : List Extension, (left ((offerNpn roster c).run y)).hello =
      added.foldl Block.append y.hello ∧ ∀ e ∈ added, e.Undisguised := by
    intro y
    rw [run_offerNpn]
    cases y.directory.lookup .npnClient c with
    | none => exact ⟨[], rfl, by simp⟩
    | some n =>
      dsimp only [left]
      split
      · exact ⟨[.npn .empty], rfl, by simp [Extension.Undisguised]⟩
      · exact ⟨[], rfl, by simp⟩
  simp only [offer, EStateM.run_bind, run_offerAlpn]
  cases x.directory.lookup .alpnClient c with
  | none => exact hannounce x
  | some n =>
    obtain ⟨added, hadded, hall⟩ := hannounce _
    refine ⟨_ :: added, hadded, ?_⟩
    rw [List.forall_mem_cons]
    exact ⟨trivial, hall⟩

theorem exists_added_respond (roster : Roster) (c : Connection) (client : Block) (x : Exchange) :
    ∃ added : List Extension, (left ((respond roster c client).run x)).hello =
      added.foldl Block.append x.hello ∧ ∀ e ∈ added, e.Undisguised := by
  obtain ⟨e, added, made, hresponse, -, hhello, -⟩ := exists_response roster c client x
  refine ⟨added, hhello, ?_⟩
  rcases hresponse.added_cases with ⟨rfl, -⟩ | ⟨p, rfl⟩ | ⟨npn, rfl, -⟩
  · simp
  · simp [Extension.Undisguised]
  · simp [Extension.Undisguised]

end Exchange

namespace Block
variable {message : HelloMessage} {s t : Source} {b b' : Block}

/-- Members are only added, and none of them is disguised. -/
theorem Grows.exists_added (h : Grows b b') :
    ∃ added, b'.members = b.members ++ added ∧ ∀ e ∈ added, e.Undisguised := by
  cases h with
  | offer roster c x =>
    obtain ⟨added, hhello, hadded⟩ := Exchange.exists_added_offer roster c x
    exact ⟨added, by rw [hhello, members_foldl_append], hadded⟩
  | respond roster c client x =>
    obtain ⟨added, hhello, hadded⟩ := Exchange.exists_added_respond roster c client x
    exact ⟨added, by rw [hhello, members_foldl_append], hadded⟩
  | @append _ e he => exact ⟨[e], rfl, by simpa using he⟩

theorem exists_added_of_grows (h : Relation.ReflTransGen Grows b b') :
    ∃ added, b'.members = b.members ++ added ∧ ∀ e ∈ added, e.Undisguised := by
  induction h with
  | refl => exact ⟨[], (List.append_nil _).symm, by simp⟩
  | tail _ hstep ih =>
    obtain ⟨added, hmembers, hadded⟩ := ih
    obtain ⟨more, hmore, hall⟩ := hstep.exists_added
    refine ⟨added ++ more, by rw [hmore, hmembers, List.append_assoc], ?_⟩
    exact List.forall_mem_append.mpr ⟨hadded, hall⟩

/-- In a block that was read and to which members were added since, no member is disguised, names
are of 1 to 255 bytes and advertisements do not repeat them. What it says of either negotiation is
the first of its members that is one, and it says so whenever a member has the type. Whatever is
appended, what was found before is found again. The members read are still there in front, and ALPN
among them is an offer in the client hello and a selection elsewhere. -/
theorem finds_negotiations (hc : s.catalogue.Reachable) (hread : (read message).run s = .ok b t)
    (h : Relation.ReflTransGen Grows b b') :
    (∀ x ∈ b'.members, x.Undisguised ∧
      ∀ p ∈ x.names, 1 ≤ p.bytes.length ∧ p.bytes.length ≤ 255) ∧
    (∀ n, .npn n ∈ b'.members → n.names.Nodup) ∧
    b'.Finds .alpn .alpn b'.alpn ∧ b'.Finds .npn .npn b'.npn ∧
    (∀ e, (∀ type x, b'.find type = some x → (b'.append e).find type = some x) ∧
      (∀ a, b'.alpn = some a → (b'.append e).alpn = some a) ∧
      ∀ n, b'.npn = some n → (b'.append e).npn = some n) ∧
    ∃ added, b'.members = b.members ++ added ∧
      ∀ a, .alpn a ∈ b.members → (message = .clientHello → ∃ ps, a = .offered ps) ∧
        (message ≠ .clientHello → ∃ p, a = .selected p) := by
  obtain ⟨es, hes, hparsed⟩ := exists_entries_of_read hc hread
  obtain ⟨added, hmembers, hadded⟩ := exists_added_of_grows h
  have hundisguised : ∀ x ∈ b'.members, x.Undisguised := by
    rw [hmembers, hparsed]
    refine List.forall_mem_append.mpr ⟨?_, hadded⟩
    intro x hx
    obtain ⟨e, he, rfl⟩ := List.mem_map.mp hx
    exact (hes e he).suits.undisguised
  refine ⟨?_, fun n _ => n.nodup, ?_, ?_, ?_, added, hmembers, ?_⟩
  · intro x hx
    exact ⟨hundisguised x hx, fun p _ => ⟨p.length_pos, p.length_le⟩⟩
  · exact finds_of_type_beq_iff (fun x hx => (hundisguised x hx).type_beq_alpn_iff)
      fun _ => alpn_eq_some_iff
  · exact finds_of_type_beq_iff (fun x hx => (hundisguised x hx).type_beq_npn_iff)
      fun _ => npn_eq_some_iff
  · intro e
    refine ⟨fun type x hx => find_append_of_some hx e, ?_, ?_⟩
    · intro a ha
      exact alpn_eq_some_iff.mpr (find_append_of_some (alpn_eq_some_iff.mp ha) e)
    · intro n hn
      exact npn_eq_some_iff.mpr (find_append_of_some (npn_eq_some_iff.mp hn) e)
  · intro a ha
    rw [hparsed] at ha
    obtain ⟨e, he, hdecoded⟩ := List.mem_map.mp ha
    exact (hes e he).suits.form hdecoded

/-- A block that selects HTTP/2, to which a client adds an announcement in NPN and somebody an
extension of no known type. -/
theorem finds_negotiations_behind_selection :
    Catalogue.initial.Reachable ∧
    (∃ t, (read .serverHello).run
      ⟨[0x00, 0x07, 0x00, 0x10, 0x00, 0x03, 0x02, 0x68, 0x32], .initial⟩ =
        .ok ⟨[.alpn (.selected .h2)], none⟩ t) ∧
    Relation.ReflTransGen Grows ⟨[.alpn (.selected .h2)], none⟩
      ⟨[.alpn (.selected .h2), .npn .empty, .other (.unnamed 0xEEEE) [0x01]], none⟩ ∧
    Finds ⟨[.alpn (.selected .h2), .npn .empty, .other (.unnamed 0xEEEE) [0x01]], none⟩
      .npn .npn (some .empty) := by
  have hes : ∀ e ∈ [Entry.selection .h2], e.Allowed .serverHello := by decide
  have hread := run_read_framed .initial (by decide) hes []
  have hoffer := Grows.offer (fun _ => Script.negotiator { protocols := [.h2] }) ⟨1⟩
    ⟨(Directory.empty.bind .npnClient ⟨1⟩ ⟨0⟩).2, ⟨[.alpn (.selected .h2)], none⟩, []⟩
  have happend := Grows.append ⟨[.alpn (.selected .h2), .npn .empty], none⟩
    (e := .other (.unnamed 0xEEEE) [0x01]) (by unfold Extension.Undisguised; decide)
  have hgrows := (Relation.ReflTransGen.single hoffer).tail happend
  refine ⟨.initial, ⟨_, hread⟩, hgrows, ?_⟩
  exact (finds_negotiations .initial hread hgrows).2.2.2.1

end Block

end HelloNegotiation
