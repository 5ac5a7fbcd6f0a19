import HelloNegotiation.Proofs.BlockNormalization
import HelloNegotiation.Proofs.CallsOfSteps
import HelloNegotiation.Proofs.UnaskedAnswers

/-!
# What a client makes of an answer

An answer that is no block of the grammar ends with the alert `decode_error`. In any other, the
first entry of ALPN decides, or without one the first entry of NPN, and the rest does not matter
(`Exchange.receive_classifies`). Whatever the answer, a negotiator is told of a selection just when
the client concludes on that name.
-/
namespace HelloNegotiation

namespace Entry

variable {message : HelloMessage} {e : Entry}

theorem id_type_decoded (e : Entry) : e.decoded.type.id = e.id := by
  cases e with
  | emptyOffer | offer | selection | advertisement => rfl
  | other id data => exact ExtensionType.id_ofId id

theorem Suits.eq_advertisement (h : e.Suits message) (hid : e.id = ExtensionType.npn.id) :
    ∃ ps, e = .advertisement ps := by
  cases e with
  | emptyOffer | offer | selection => exact absurd hid.symm npn_ne_alpn
  | advertisement ps => exact ⟨ps, rfl⟩
  | other => exact absurd hid h.2

theorem Faulty.alert {bs : Bytes} {f : Fault} (h : Faulty message bs f) :
    f.alert = .decodeError := by
  cases h <;> rfl

/-- The first of some entries with the given type number. -/
def first (id : UInt16) (es : List Entry) : Option Entry := es.find? (·.id == id)

/-- In an answer to the client hello, the first entry of ALPN is a selection. -/
theorem first_alpn (hmessage : message ≠ .clientHello) {es : List Entry}
    (hes : ∀ e ∈ es, e.Suits message) :
    ∃ selected : Option ProtocolName,
      first ExtensionType.alpn.id es = selected.map selection := by
  cases h : first ExtensionType.alpn.id es with
  | none => exact ⟨none, rfl⟩
  | some e =>
    have hsuits := hes e (List.mem_of_find?_eq_some h)
    obtain ⟨p, rfl⟩ := hsuits.eq_selection hmessage (beq_iff_eq.mp (List.find?_some h :))
    exact ⟨some p, rfl⟩

/-- The first entry of NPN is an advertisement. -/
theorem first_npn {es : List Entry} (hes : ∀ e ∈ es, e.Suits message) :
    ∃ advertised : Option (List ProtocolName),
      first ExtensionType.npn.id es = advertised.map advertisement := by
  cases h : first ExtensionType.npn.id es with
  | none => exact ⟨none, rfl⟩
  | some e =>
    have hsuits := hes e (List.mem_of_find?_eq_some h)
    obtain ⟨ps, rfl⟩ := hsuits.eq_advertisement (beq_iff_eq.mp (List.find?_some h :))
    exact ⟨some ps, rfl⟩

end Entry

namespace Block

/-- The bytes start with a block of the given entries, which the message may hold. -/
def StartsWith (message : HelloMessage) (bs : Bytes) (es : List Entry) : Prop :=
  ∃ L tail, bs = Word.bytes L ++ tail ∧ Holds message L tail es

variable {message : HelloMessage} {c : Catalogue} {bs : Bytes} {es : List Entry}

/-- The extensions that entries stand for, as a block that has just been read. -/
def ofEntries (es : List Entry) : Block := ⟨es.map Entry.decoded, none⟩

theorem find_ofEntries (es : List Entry) (type : ExtensionType) :
    (ofEntries es).find type = (Entry.first type.id es).map Entry.decoded := by
  rw [find, ofEntries, List.find?_map, Entry.first]
  refine congrArg (fun p => (es.find? p).map Entry.decoded) (funext fun e => ?_)
  show (e.decoded.type.id == type.id) = (e.id == type.id)
  rw [e.id_type_decoded]

theorem alpn_ofEntries {selected : Option ProtocolName}
    (h : Entry.first ExtensionType.alpn.id es = selected.map .selection) :
    (ofEntries es).alpn = selected.map .selected := by
  rw [alpn, find_ofEntries, h]
  cases selected <;> rfl

theorem npn_ofEntries {advertised : Option (List ProtocolName)}
    (h : Entry.first ExtensionType.npn.id es = advertised.map .advertisement) :
    (ofEntries es).npn = advertised.map .firsts := by
  rw [npn, find_ofEntries, h]
  cases advertised <;> rfl

theorem StartsWith.suits (h : StartsWith message bs es) : ∀ e ∈ es, e.Suits message := by
  obtain ⟨L, tail, -, hholds⟩ := h
  exact hholds.suits

theorem StartsWith.run_read (h : StartsWith message bs es) (hc : c.Reachable) :
    ∃ s, (read message).run ⟨bs, c⟩ = .ok (ofEntries es) s := by
  obtain ⟨L, tail, rfl, ⟨rest, rfl⟩, hlen, hall⟩ := h
  have hread := run_read_framed hc (hlen ▸ Word.toNat_le L) hall rest
  rw [Word.framed_eq hlen, List.append_assoc] at hread
  exact ⟨_, hread⟩

/-- Bytes that do not start with a block are refused with the alert for what cannot be decoded. -/
theorem run_read_of_malformed (h : ¬ ∃ es, StartsWith message bs es) (hc : c.Reachable) :
    ∃ f s, (read message).run ⟨bs, c⟩ = .error f s ∧ f.alert = .decodeError := by
  cases hread : (read message).run ⟨bs, c⟩ with
  | ok b s =>
    have houtcome : outcome ((read message).run ⟨bs, c⟩) = (.ok b.members, s.rest) := by
      rw [hread]
      rfl
    obtain ⟨L, es, hbs, hlen, hes, -⟩ := (outcome_eq_ok_iff hc).mp houtcome
    rw [List.append_assoc] at hbs
    exact absurd ⟨es, L, _, hbs, ⟨s.rest, rfl⟩, hlen, hes⟩ h
  | error f s =>
    refine ⟨f, s, rfl, ?_⟩
    have houtcome : outcome ((read message).run ⟨bs, c⟩) = (.error f, s.rest) := by
      rw [hread]
      rfl
    rcases (outcome_eq_error_iff hc).mp houtcome with ⟨rfl, -⟩ | ⟨_, _, _, _, _, _, hfaulty⟩
    · rfl
    · exact hfaulty.alert

end Block

namespace Exchange

section
variable (roster : Roster) (c : Connection)

/-- The client reads an answer from its bytes and concludes. -/
def receive (message : HelloMessage) (bs : Bytes) (catalogue : Catalogue) :
    Step (Option ProtocolName) :=
  match (Block.read message).run ⟨bs, catalogue⟩ with
  | .ok server _ => conclude roster c server
  | .error f _ => throw f

/-- What an answer comes to and whom the client calls, by the name in its first entry of ALPN and
the names in its first entry of NPN, if it has such entries. -/
def verdict (d : Directory) :
    Option ProtocolName → Option (List ProtocolName) →
      Except Fault (Option ProtocolName) × List Call
  | some p, _ =>
    match d.lookup .alpnClient c with
    | none => (.error (.abort .fatal .unsupportedExtension), [])
    | some n => (.ok (some p), [⟨n, c, .alpnClientSelected p⟩])
  | none, some names =>
    match d.lookup .npnClient c with
    | none => (.error (.abort .fatal .unsupportedExtension), [])
    | some n =>
      match (((roster n).npnClient.choose c names.eraseDups).run d).1 with
      | none => (.error (.negotiation .npn), [⟨n, c, .npnChoose names.eraseDups⟩])
      | some p => (.ok (some p),
          [⟨n, c, .npnChoose names.eraseDups⟩, ⟨n, c, .npnClientSelected p⟩])
  | none, none => (.ok none, [])

/-- Of a name that the client concludes on, the negotiator found in ALPN or the one found in NPN is
told, once. Otherwise nobody is told of a selection. -/
def Notified (d : Directory) (made : List Call) : Except Fault (Option ProtocolName) → Prop
  | .ok (some p) => ∃ n,
      d.lookup .alpnClient c = some n ∧ Call.selections made = [⟨n, c, .alpnClientSelected p⟩] ∨
      d.lookup .npnClient c = some n ∧ Call.selections made = [⟨n, c, .npnClientSelected p⟩]
  | _ => Call.selections made = []

end

variable {roster : Roster} {c : Connection} {message : HelloMessage} {bs : Bytes}
  {catalogue : Catalogue} {es : List Entry} {selected : Option ProtocolName}
  {advertised : Option (List ProtocolName)}

theorem notified_verdict (d : Directory) (selected : Option ProtocolName)
    (advertised : Option (List ProtocolName)) :
    Notified c d (verdict roster c d selected advertised).2
      (verdict roster c d selected advertised).1 := by
  cases selected with
  | some p =>
    simp only [verdict]
    cases hn : d.lookup .alpnClient c with
    | none => rfl
    | some n => exact ⟨n, .inl ⟨hn, rfl⟩⟩
  | none =>
    cases advertised with
    | none => rfl
    | some names =>
      simp only [verdict]
      cases hn : d.lookup .npnClient c with
      | none => rfl
      | some n =>
        dsimp only
        cases (((roster n).npnClient.choose c names.eraseDups).run d).1 with
        | none => rfl
        | some p => exact ⟨n, .inr ⟨hn, rfl⟩⟩

/-- A client that has read an answer ends with one of two alerts, if with any. -/
theorem alert_verdict {d : Directory} {f : Fault}
    (h : (verdict roster c d selected advertised).1 = .error f) :
    f.alert = .unsupportedExtension ∨ f = .negotiation .npn ∧ f.alert = .handshakeFailure := by
  cases selected with
  | some p =>
    simp only [verdict] at h
    split at h
    · cases h
      exact .inl rfl
    · cases h
  | none =>
    cases advertised with
    | none => cases h
    | some names =>
      simp only [verdict] at h
      split at h
      · cases h
        exact .inl rfl
      · split at h
        · cases h
          exact .inr ⟨rfl, rfl⟩
        · cases h

/-- The client goes by the first entries alone, and ALPN goes before NPN. -/
theorem leaves_conclude (halpn : Entry.first ExtensionType.alpn.id es = selected.map .selection)
    (hnpn : Entry.first ExtensionType.npn.id es = advertised.map .advertisement) (x : Exchange) :
    Leaves x ((conclude roster c (.ofEntries es)).run x)
      (verdict roster c x.directory selected advertised).1 []
      (verdict roster c x.directory selected advertised).2 := by
  have hselected := Block.alpn_ofEntries halpn
  have hadvertised := Block.npn_ofEntries hnpn
  cases selected with
  | some p =>
    rw [run_conclude_of_selected roster c hselected]
    simp only [verdict]
    cases x.directory.lookup .alpnClient c with
    | none => exact ⟨rfl, rfl, (List.append_nil _).symm⟩
    | some n => exact ⟨rfl, rfl, rfl⟩
  | none =>
    rw [conclude, hselected, hadvertised]
    cases advertised with
    | none => exact ⟨rfl, rfl, (List.append_nil _).symm⟩
    | some names =>
      show Leaves x ((chooseAdvertised roster c (.firsts names)).run x) _ _ _
      rw [run_chooseAdvertised]
      simp only [verdict]
      cases x.directory.lookup .npnClient c with
      | none => exact ⟨rfl, rfl, (List.append_nil _).symm⟩
      | some n =>
        dsimp only [Npn.firsts]
        cases (((roster n).npnClient.choose c names.eraseDups).run x.directory).1 with
        | none => exact ⟨rfl, rfl, rfl⟩
        | some p => exact ⟨rfl, rfl, List.append_assoc ..⟩

/-- A fault with an alert other than these two is not that of a negotiator which chose no name. -/
theorem refused_of_alert {f : Fault} {description : Alert.Description}
    (h : f.alert = description) (hillegal : description ≠ .illegalParameter)
    (hfailure : description ≠ .handshakeFailure) :
    f.alert ≠ .illegalParameter ∧ (f.alert = .handshakeFailure ↔ f = .negotiation .npn) := by
  subst h
  refine ⟨hillegal, iff_of_false hfailure ?_⟩
  rintro rfl
  exact hfailure rfl

/-- An answer that can be read comes to the verdict on its first entries. -/
theorem leaves_receive (hmessage : message ≠ .clientHello) (hcatalogue : catalogue.Reachable)
    (hes : Block.StartsWith message bs es) (roster : Roster) (c : Connection) (x : Exchange) :
    ∃ selected advertised, Entry.first ExtensionType.alpn.id es = selected.map .selection ∧
      Entry.first ExtensionType.npn.id es = advertised.map .advertisement ∧
      Leaves x ((receive roster c message bs catalogue).run x)
        (verdict roster c x.directory selected advertised).1 []
        (verdict roster c x.directory selected advertised).2 := by
  obtain ⟨s, hread⟩ := hes.run_read hcatalogue
  obtain ⟨selected, halpn⟩ := Entry.first_alpn hmessage hes.suits
  obtain ⟨advertised, hnpn⟩ := Entry.first_npn hes.suits
  refine ⟨selected, advertised, halpn, hnpn, ?_⟩
  rw [receive, hread]
  exact leaves_conclude halpn hnpn x

/-- Whatever bytes a client receives for an answer: it ends with the alert `decode_error` just when
they do not start with a block of the grammar, and otherwise goes by the first entry of ALPN, or
without one by the first entry of NPN. It never finds an offer where a selection should be. A
negotiator is told of a selection, once, when the client concludes on a name, and only then. -/
theorem receive_classifies (hmessage : message ≠ .clientHello) (hcatalogue : catalogue.Reachable)
    (roster : Roster) (c : Connection) (bs : Bytes) (x : Exchange) :
    ∃ e made, Leaves x ((receive roster c message bs catalogue).run x) e [] made ∧
      ((∃ f, e = .error f ∧ f.alert = .decodeError) ↔ ¬ ∃ es, Block.StartsWith message bs es) ∧
      (∀ es, Block.StartsWith message bs es → ∃ selected advertised,
        Entry.first ExtensionType.alpn.id es = selected.map .selection ∧
        Entry.first ExtensionType.npn.id es = advertised.map .advertisement ∧
        (e, made) = verdict roster c x.directory selected advertised) ∧
      (∀ f, e = .error f → f.alert ≠ .illegalParameter ∧
        (f.alert = .handshakeFailure ↔ f = .negotiation .npn)) ∧
      Notified c x.directory made e := by
  by_cases hwhole : ∃ es, Block.StartsWith message bs es
  · obtain ⟨es, hes⟩ := hwhole
    obtain ⟨selected, advertised, -, -, hleaves⟩ :=
      leaves_receive hmessage hcatalogue hes roster c x
    refine ⟨_, _, hleaves, ?_, ?_, ?_, notified_verdict _ _ _⟩
    · refine iff_of_false ?_ (not_not_intro ⟨es, hes⟩)
      rintro ⟨f, hf, halert⟩
      rcases alert_verdict hf with h | ⟨-, h⟩
      · exact absurd (halert.symm.trans h) nofun
      · exact absurd (halert.symm.trans h) nofun
    · intro es' hes'
      obtain ⟨selected', advertised', halpn, hnpn, hleaves'⟩ :=
        leaves_receive hmessage hcatalogue hes' roster c x
      obtain ⟨he, hmade⟩ := hleaves'.unique hleaves
      exact ⟨selected', advertised', halpn, hnpn, Prod.ext he hmade⟩
    · intro f hf
      rcases alert_verdict hf with h | ⟨rfl, -⟩
      · exact refused_of_alert h nofun nofun
      · exact ⟨nofun, iff_of_true rfl rfl⟩
  · obtain ⟨f, s, hread, halert⟩ := Block.run_read_of_malformed hwhole hcatalogue
    refine ⟨.error f, [], ?_, iff_of_true ⟨f, rfl, halert⟩ hwhole, ?_, ?_, rfl⟩
    · rw [receive, hread]
      exact ⟨rfl, rfl, (List.append_nil _).symm⟩
    · exact fun es hes => absurd ⟨es, hes⟩ hwhole
    · intro g hg
      cases hg
      exact refused_of_alert halert nofun nofun

private def namesThenSelection : List Entry := [.advertisement [.h2, .h2], .selection .h2]

/-- A directory in which one negotiator is bound for the client, in ALPN and in NPN. -/
private def bindingBoth : Directory :=
  ((Directory.empty.bind .alpnClient ⟨1⟩ ⟨0⟩).2.bind .npnClient ⟨1⟩ ⟨0⟩).2

/-- Names are advertised before a name is selected, and a byte follows the block. -/
theorem receive_classifies_selection_behind_names :
    HelloMessage.serverHello ≠ .clientHello ∧ Catalogue.initial.Reachable ∧
    Leaves ⟨bindingBoth, .empty, []⟩
      ((receive (fun _ => Script.negotiator { protocols := [.h2] }) ⟨1⟩ .serverHello
        [0x00, 0x11, 0x33, 0x74, 0x00, 0x06, 0x02, 0x68, 0x32, 0x02, 0x68, 0x32,
          0x00, 0x10, 0x00, 0x03, 0x02, 0x68, 0x32, 0xFF] .initial).run ⟨bindingBoth, .empty, []⟩)
      (.ok (some .h2)) [] [⟨⟨0⟩, ⟨1⟩, .alpnClientSelected .h2⟩] := by
  have hanswer : HelloMessage.serverHello ≠ .clientHello := nofun
  have hcatalogue := Catalogue.Reachable.initial
  have hall : ∀ e ∈ namesThenSelection, e.Allowed .serverHello := by decide
  refine ⟨hanswer, hcatalogue, ?_⟩
  obtain ⟨e, made, hleaves, -, hclass, -, -⟩ := receive_classifies hanswer hcatalogue
    (fun _ => Script.negotiator { protocols := [.h2] }) ⟨1⟩
    [0x00, 0x11, 0x33, 0x74, 0x00, 0x06, 0x02, 0x68, 0x32, 0x02, 0x68, 0x32,
      0x00, 0x10, 0x00, 0x03, 0x02, 0x68, 0x32, 0xFF] ⟨bindingBoth, .empty, []⟩
  obtain ⟨selected, advertised, halpn, -, hverdict⟩ :=
    hclass namesThenSelection ⟨17, _, rfl, ⟨[0xFF], rfl⟩, by decide, hall⟩
  have hfirst : some (Entry.selection .h2) = selected.map .selection := halpn
  cases selected with
  | none => cases hfirst
  | some p =>
    cases hfirst
    cases hverdict
    exact hleaves

end Exchange

end HelloNegotiation
