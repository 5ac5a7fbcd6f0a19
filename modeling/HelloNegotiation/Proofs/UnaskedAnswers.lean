import HelloNegotiation.Proofs.AlpnForms
import HelloNegotiation.Proofs.QuietNegotiators

/-!
# Answers that the client did not ask for

A client that has a negotiator for ALPN takes any name that the server selects, so it keeps to the
names it offered just when the server does (`Exchange.conclude_keeps_to_offer_iff`). What it refuses
for not having asked is an answer without a negotiator to take it: in ALPN that is every answer to
a hello without an offer, but in NPN there may be a negotiator that declined to negotiate
(`Exchange.conclude_refuses_unasked_iff`).
-/
namespace HelloNegotiation

namespace Block

theorem find_append (b : Block) (e : Extension) (type : ExtensionType) :
    (b.append e).find type = (b.find type).or (if e.type == type then some e else none) := by
  rw [find, append, List.find?_append, List.find?_singleton]
  rfl

theorem alpn_eq_some_iff {b : Block} {a : Alpn} :
    b.alpn = some a ↔ b.find .alpn = some (.alpn a) := by
  unfold alpn
  constructor
  · intro h
    split at h
    · next hfind => rw [hfind, Option.some.inj h]
    · cases h
  · intro h
    rw [h]

/-- The members that are read stand for entries that the message allows. -/
theorem exists_entries_of_read {message : HelloMessage} {s t : Source} {b : Block}
    (hc : s.catalogue.Reachable) (h : (read message).run s = .ok b t) :
    ∃ es : List Entry, (∀ e ∈ es, e.Allowed message) ∧ b.members = es.map Entry.decoded := by
  have houtcome : outcome ((read message).run ⟨s.rest, s.catalogue⟩) = (.ok b.members, t.rest) := by
    rw [h]
    rfl
  obtain ⟨L, es, -, -, hes, hmembers⟩ := (outcome_eq_ok_iff hc).mp houtcome
  exact ⟨es, hes, hmembers⟩

/-- In an answer to the client hello, ALPN is a selection. -/
theorem selected_of_read {message : HelloMessage} {s t : Source} {b : Block} {a : Alpn}
    (hc : s.catalogue.Reachable) (hmessage : message ≠ .clientHello)
    (hread : (read message).run s = .ok b t) (h : b.alpn = some a) : ∃ p, a = .selected p := by
  obtain ⟨es, hes, hmembers⟩ := exists_entries_of_read hc hread
  have hmem : Extension.alpn a ∈ es.map Entry.decoded :=
    hmembers ▸ List.mem_of_find?_eq_some (alpn_eq_some_iff.mp h)
  obtain ⟨e, he, hdecoded⟩ := List.mem_map.mp hmem
  have hid := Entry.id_of_decoded_alpn hdecoded
  obtain ⟨p, rfl⟩ := (hes e he).suits.eq_selection hmessage hid
  exact ⟨p, (Extension.alpn.inj hdecoded).symm⟩

end Block

namespace Exchange

/-- How a client concludes that keeps to the names it offered: on one of them, or with a fault and
without telling anybody that a name was selected. -/
inductive KeepsTo (offered : List ProtocolName) (x : Exchange) :
    EStateM.Result Fault Exchange (Option ProtocolName) → Prop
  | agreed {p : ProtocolName} (y : Exchange) (hp : p ∈ offered) : KeepsTo offered x (.ok (some p) y)
  | refused {y : Exchange} (f : Fault) (h : Call.selections y.calls = Call.selections x.calls) :
      KeepsTo offered x (.error f y)

/-- The client refuses what it did not ask for, and calls nobody. -/
def Refused (x : Exchange) (r : EStateM.Result Fault Exchange (Option ProtocolName)) : Prop :=
  r = .error (.abort .fatal .unsupportedExtension) x

variable (roster : Roster) (c : Connection)

/-- An announcement in NPN leaves alone what is offered in ALPN. -/
theorem run_offerNpn_find_alpn (x : Exchange) :
    ∃ y, (offerNpn roster c).run x = .ok () y ∧ y.hello.find .alpn = x.hello.find .alpn := by
  rw [run_offerNpn]
  cases x.directory.lookup .npnClient c with
  | none => exact ⟨x, rfl, rfl⟩
  | some n =>
    refine ⟨_, rfl, ?_⟩
    split
    · exact (Block.find_append _ _ _).trans (Option.or_none ..)
    · rfl

/-- A client hello offers in ALPN what the negotiator bound there says. -/
theorem run_offer_find_alpn (d : Directory) (calls : List Call) :
    ∃ y, (offer roster c).run ⟨d, .empty, calls⟩ = .ok () y ∧
      y.hello.find .alpn = (d.lookup .alpnClient c).map fun n =>
        .alpn (.offered (((roster n).alpnClient.offers c).run d).1) := by
  simp only [offer, EStateM.run_bind, run_offerAlpn]
  cases d.lookup .alpnClient c with
  | none => exact run_offerNpn_find_alpn roster c _
  | some n => exact run_offerNpn_find_alpn roster c _

/-- A client that has a negotiator only for NPN, and one that declines, offers nothing. -/
theorem run_offer_of_declining {d : Directory} {n : NegotiatorId}
    (halpn : d.lookup .alpnClient c = none) (hnpn : d.lookup .npnClient c = some n)
    (hwants : (((roster n).npnClient.wants c).run d).1 = false) (calls : List Call) :
    ∃ y, (offer roster c).run ⟨d, .empty, calls⟩ = .ok () y ∧ y.hello = .empty := by
  simp only [offer, EStateM.run_bind, run_offerAlpn, run_offerNpn, halpn, hnpn, hwants]
  exact ⟨_, rfl, rfl⟩

theorem run_conclude_of_selected {server : Block} {p : ProtocolName}
    (h : server.alpn = some (.selected p)) (x : Exchange) : (conclude roster c server).run x =
      match x.directory.lookup .alpnClient c with
      | none => .error (.abort .fatal .unsupportedExtension) x
      | some n => .ok (some p)
          (x.after ⟨n, c, .alpnClientSelected p⟩ ((roster n).alpnClient.selected c p)) := by
  rw [conclude, h]
  exact run_takeSelection roster c x p

/-- Without a negotiator for NPN, and only then, the client refuses the names advertised. -/
theorem refused_advertisement_iff {server : Block} (halpn : server.alpn = none)
    (hnpn : server.npn.isSome) (x : Exchange) :
    Refused x ((conclude roster c server).run x) ↔ x.directory.lookup .npnClient c = none := by
  obtain ⟨npn, hnpn⟩ := Option.isSome_iff_exists.mp hnpn
  rw [conclude, halpn, hnpn]
  show Refused x ((chooseAdvertised roster c npn).run x) ↔ _
  rw [run_chooseAdvertised]
  cases x.directory.lookup .npnClient c with
  | none => exact iff_of_true rfl rfl
  | some n =>
    refine iff_of_false ?_ (Option.some_ne_none n)
    intro h
    dsimp only at h
    split at h
    · cases h
    · cases h

/-- A client with a negotiator for ALPN offers the names that this negotiator says, and later takes
whatever name is selected in the answer. So it keeps to the names it offered just when the answer
does. -/
theorem conclude_keeps_to_offer_iff {d : Directory} {n : NegotiatorId}
    (hn : d.lookup .alpnClient c = some n) (calls : List Call) :
    ∃ ps y, (offer roster c).run ⟨d, .empty, calls⟩ = .ok () y ∧
      ps = (((roster n).alpnClient.offers c).run d).1 ∧
      y.hello.find .alpn = some (.alpn (.offered ps)) ∧
      ∀ (x : Exchange) (m : NegotiatorId) (message : HelloMessage) (s t : Source) (answer : Block)
        (a : Alpn), x.directory.lookup .alpnClient c = some m → message ≠ .clientHello →
        s.catalogue.Reachable → (Block.read message).run s = .ok answer t →
        answer.alpn = some a →
        ∃ p, a = .selected p ∧
          (conclude roster c answer).run x = .ok (some p)
            (x.after ⟨m, c, .alpnClientSelected p⟩ ((roster m).alpnClient.selected c p)) ∧
          (KeepsTo ps x ((conclude roster c answer).run x) ↔ p ∈ ps) := by
  obtain ⟨y, hoffer, hfind⟩ := run_offer_find_alpn roster c d calls
  rw [hn] at hfind
  refine ⟨_, y, hoffer, rfl, hfind, ?_⟩
  intro x m message s t answer a hm hmessage hcatalogue hread halpn
  obtain ⟨p, rfl⟩ := Block.selected_of_read hcatalogue hmessage hread halpn
  have hrun := run_conclude_of_selected roster c halpn x
  rw [hm] at hrun
  refine ⟨p, rfl, hrun, ?_⟩
  rw [hrun]
  constructor
  · intro h
    cases h with
    | agreed _ hp => exact hp
  · intro hp
    exact .agreed _ hp

private def hq : ProtocolName := ⟨[0x68, 0x71], by decide, by decide⟩

/-- Negotiators that take HTTP/2, and announce NPN or decline to. -/
private def taking (wants : Bool) : Roster := fun _ =>
  Script.negotiator { protocols := [.h2], wants }

/-- A directory with a negotiator for one connection in the given role. -/
private def binding (role : Role) : Directory := (Directory.empty.bind role ⟨1⟩ ⟨0⟩).2

private theorem run_read_selection (p : ProtocolName)
    (h : (Entry.wires [.selection p]).length ≤ 65535) :
    ∃ t, (Block.read .serverHello).run ⟨Word.framed (Entry.wires [.selection p]), .initial⟩ =
      .ok ⟨[.alpn (.selected p)], none⟩ t := by
  have hlen : (Entry.selection p).data.length ≤ 65535 := by
    simp only [Entry.wires_cons, List.length_append, Entry.length_wire] at h
    omega
  have hes : ∀ e ∈ [Entry.selection p], e.Allowed .serverHello := by
    intro e he
    rw [List.mem_singleton.mp he]
    exact ⟨nofun, hlen⟩
  have hread := Block.run_read_framed .initial h hes []
  rw [List.append_nil] at hread
  exact ⟨_, hread⟩

/-- The server selects the name that the client offers. -/
theorem conclude_keeps_to_offer_h2 :
    (binding .alpnClient).lookup .alpnClient ⟨1⟩ = some ⟨0⟩ ∧
    HelloMessage.serverHello ≠ .clientHello ∧ Catalogue.initial.Reachable ∧
    (∃ t, (Block.read .serverHello).run
      ⟨[0x00, 0x07, 0x00, 0x10, 0x00, 0x03, 0x02, 0x68, 0x32], .initial⟩ =
        .ok ⟨[.alpn (.selected .h2)], none⟩ t) ∧
    KeepsTo [.h2] ⟨binding .alpnClient, .empty, []⟩
      ((conclude (taking true) ⟨1⟩ ⟨[.alpn (.selected .h2)], none⟩).run
        ⟨binding .alpnClient, .empty, []⟩) := by
  have hbound : (binding .alpnClient).lookup .alpnClient ⟨1⟩ = some ⟨0⟩ := rfl
  have hanswer : HelloMessage.serverHello ≠ .clientHello := nofun
  have hcatalogue := Catalogue.Reachable.initial
  obtain ⟨t, hread⟩ := run_read_selection .h2 (by decide)
  obtain ⟨ps, y, -, rfl, -, hall⟩ := conclude_keeps_to_offer_iff (taking true) ⟨1⟩ hbound []
  obtain ⟨p, hp, -, hkeeps⟩ := hall ⟨binding .alpnClient, .empty, []⟩ ⟨0⟩ .serverHello _ t _
    (.selected .h2) hbound hanswer hcatalogue hread rfl
  cases hp
  exact ⟨hbound, hanswer, hcatalogue, ⟨t, hread⟩, hkeeps.mpr (List.mem_singleton.mpr rfl)⟩

/-- The server selects a name that the client does not offer. -/
theorem conclude_takes_unoffered_selection :
    (binding .alpnClient).lookup .alpnClient ⟨1⟩ = some ⟨0⟩ ∧
    (∃ y, (offer (taking true) ⟨1⟩).run ⟨binding .alpnClient, .empty, []⟩ = .ok () y ∧
      y.hello.find .alpn = some (.alpn (.offered [.h2]))) ∧
    (∃ t, (Block.read .serverHello).run
      ⟨[0x00, 0x07, 0x00, 0x10, 0x00, 0x03, 0x02, 0x68, 0x71], .initial⟩ =
        .ok ⟨[.alpn (.selected hq)], none⟩ t) ∧
    ¬ KeepsTo [.h2] ⟨binding .alpnClient, .empty, []⟩
      ((conclude (taking true) ⟨1⟩ ⟨[.alpn (.selected hq)], none⟩).run
        ⟨binding .alpnClient, .empty, []⟩) := by
  have hforeign : hq ∉ [ProtocolName.h2] := by decide
  have hrun : (conclude (taking true) ⟨1⟩ ⟨[.alpn (.selected hq)], none⟩).run
      ⟨binding .alpnClient, .empty, []⟩ = .ok (some hq)
        ⟨binding .alpnClient, .empty, [⟨⟨0⟩, ⟨1⟩, .alpnClientSelected hq⟩]⟩ := rfl
  refine ⟨rfl, ⟨_, rfl, rfl⟩, run_read_selection hq (by decide), ?_⟩
  rw [hrun]
  intro h
  cases h with
  | agreed _ hp => exact hforeign hp

/-- A client refuses every selection in ALPN that it did not ask for, as long as the binding there
stays what it was. It refuses names advertised in NPN just when no negotiator is bound there; one
that is bound may have declined to ask. -/
theorem conclude_refuses_unasked_iff (d : Directory) (calls : List Call) :
    ∃ y, (offer roster c).run ⟨d, .empty, calls⟩ = .ok () y ∧
      ∀ (answer : Block) (x : Exchange),
        (∀ p, y.hello.find .alpn = none → answer.alpn = some (.selected p) →
          x.directory.lookup .alpnClient c = d.lookup .alpnClient c →
          Refused x ((conclude roster c answer).run x)) ∧
        (y.hello.find .npn = none → answer.alpn = none → answer.npn.isSome →
          (Refused x ((conclude roster c answer).run x) ↔
            x.directory.lookup .npnClient c = none)) ∧
        (∀ n, d.lookup .alpnClient c = none → d.lookup .npnClient c = some n →
          (((roster n).npnClient.wants c).run d).1 = false → y.hello.find .npn = none) := by
  obtain ⟨y, hoffer, hfind⟩ := run_offer_find_alpn roster c d calls
  refine ⟨y, hoffer, ?_⟩
  intro answer x
  refine ⟨?_, ?_, ?_⟩
  · intro p hnone halpn hsame
    have hunbound : x.directory.lookup .alpnClient c = none := by
      rw [hsame]
      rw [hfind] at hnone
      exact Option.map_eq_none_iff.mp hnone
    rw [Refused, run_conclude_of_selected roster c halpn, hunbound]
  · intro _ halpn hnpn
    exact refused_advertisement_iff roster c halpn hnpn x
  · intro n halpn hnpn hwants
    obtain ⟨z, hz, hempty⟩ := run_offer_of_declining roster c halpn hnpn hwants calls
    cases hoffer.symm.trans hz
    rw [hempty]
    rfl

/-- The server advertises to a client whose negotiator declined to ask. -/
theorem conclude_takes_unasked_advertisement :
    (∃ y, (offer (taking false) ⟨1⟩).run ⟨binding .npnClient, .empty, []⟩ = .ok () y ∧
      y.hello.find .npn = none ∧ y.directory.lookup .npnClient ⟨1⟩ = some ⟨0⟩) ∧
    (Block.empty.append (.npn (.firsts [.h2]))).alpn = none ∧
    (Block.empty.append (.npn (.firsts [.h2]))).npn.isSome ∧
    (conclude (taking false) ⟨1⟩ (Block.empty.append (.npn (.firsts [.h2])))).run
        ⟨binding .npnClient, .empty, []⟩ =
      .ok (some .h2) ⟨binding .npnClient, .empty,
        [⟨⟨0⟩, ⟨1⟩, .npnChoose [.h2]⟩, ⟨⟨0⟩, ⟨1⟩, .npnClientSelected .h2⟩]⟩ ∧
    ¬ Refused ⟨binding .npnClient, .empty, []⟩
      ((conclude (taking false) ⟨1⟩ (Block.empty.append (.npn (.firsts [.h2])))).run
        ⟨binding .npnClient, .empty, []⟩) := by
  have hrun : (conclude (taking false) ⟨1⟩ (Block.empty.append (.npn (.firsts [.h2])))).run
      ⟨binding .npnClient, .empty, []⟩ = .ok (some .h2) ⟨binding .npnClient, .empty,
        [⟨⟨0⟩, ⟨1⟩, .npnChoose [.h2]⟩, ⟨⟨0⟩, ⟨1⟩, .npnClientSelected .h2⟩]⟩ := rfl
  refine ⟨⟨_, rfl, rfl, rfl⟩, rfl, rfl, hrun, ?_⟩
  rw [hrun]
  exact nofun

end Exchange

end HelloNegotiation
