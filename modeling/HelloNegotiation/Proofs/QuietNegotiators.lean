import HelloNegotiation.Negotiation.Script
import HelloNegotiation.Proofs.HandshakeRuns

/-!
# Negotiators that leave the directory alone

Where the negotiators of an end leave its directory as it is, each step at that end is decided by
what they answer. The calls that tell a negotiator which name was selected are told apart from
those that ask it something.
-/
namespace HelloNegotiation

/-- Whether the call tells a negotiator which name was selected. -/
def Callback.isSelected : Callback → Bool
  | alpnClientSelected _ | alpnServerSelected _ | npnClientSelected _ | npnServerSelected _ => true
  | _ => false

/-- The calls that tell a negotiator which name was selected. -/
def Call.selections (calls : List Call) : List Call := calls.filter (·.callback.isSelected)

@[simp] theorem Call.selections_append (calls calls' : List Call) :
    selections (calls ++ calls') = selections calls ++ selections calls' :=
  List.filter_append calls calls'

/-- A negotiator that leaves the directory as it is whenever it is called for a connection. -/
structure Negotiator.Quiet (n : Negotiator) (d : Directory) (c : Connection) : Prop where
  offers : ((n.alpnClient.offers c).run d).2 = d
  alpnClientSelected : ∀ p, ((n.alpnClient.selected c p).run d).2 = d
  alpnChoose : ∀ ps, ((n.alpnServer.choose c ps).run d).2 = d
  alpnServerSelected : ∀ p, ((n.alpnServer.selected c p).run d).2 = d
  wants : ((n.npnClient.wants c).run d).2 = d
  npnChoose : ∀ ps, ((n.npnClient.choose c ps).run d).2 = d
  npnClientSelected : ∀ p, ((n.npnClient.selected c p).run d).2 = d
  advertises : ((n.npnServer.advertises c).run d).2 = d
  npnServerSelected : ∀ p, ((n.npnServer.selected c p).run d).2 = d

/-- A script that unbinds nothing leaves the directory as it is. -/
theorem Script.quiet_negotiator {script : Script} (h : script.unbinds = false) (d : Directory)
    (c : Connection) : script.negotiator.Quiet d c := by
  have hanswer : ∀ {α : Type} (a : α), ((script.answer c a).run d).2 = d := by
    intro α a
    simp [answer, StateT.run, h]
  unfold negotiator
  cases script.minimal with
  | true => constructor <;> intros <;> first | exact hanswer _ | rfl
  | false => constructor <;> intros <;> exact hanswer _

namespace Endpoint

/-- The live negotiator bound in a role. -/
def find (e : Endpoint) (role : Role) : Option NegotiatorId := e.directory.lookup role e.connection

/-- An end whose negotiators leave its directory as it is. -/
def Quiet (roster : Roster) (e : Endpoint) : Prop :=
  ∀ role n, e.find role = some n → (roster n).Quiet e.directory e.connection

/-- The names that a negotiator offers in ALPN. -/
def offers (roster : Roster) (e : Endpoint) (n : NegotiatorId) : List ProtocolName :=
  (((roster n).alpnClient.offers e.connection).run e.directory).1

/-- What a negotiator chooses among the names offered. -/
def chooses (roster : Roster) (e : Endpoint) (n : NegotiatorId) (offered : List ProtocolName) :
    Option ProtocolName :=
  (((roster n).alpnServer.choose e.connection offered).run e.directory).1

end Endpoint

theorem Exchange.after_of_quiet {α : Type} {d : Directory} {answer : StateM Directory α}
    (h : (answer.run d).2 = d) (b : Block) (calls : List Call) (k : Call) :
    (⟨d, b, calls⟩ : Exchange).after k answer = ⟨d, b, calls ++ [k]⟩ := by
  rw [after, h]

namespace Exchange
variable {roster : Roster} {e : Endpoint}

theorem run_offerNpn_of_quiet (he : e.Quiet roster) (hello : Block) (calls : List Call) :
    ∃ hello' asked, (offerNpn roster e.connection).run ⟨e.directory, hello, calls⟩ =
        .ok () ⟨e.directory, hello', calls ++ asked⟩ ∧
      (hello' = hello ∨ (e.find .npnClient).isSome ∧ hello' = hello.append (.npn .empty)) ∧
      Call.selections asked = [] := by
  rw [run_offerNpn]
  cases h : e.directory.lookup .npnClient e.connection with
  | none => exact ⟨hello, [], by simp, .inl rfl, rfl⟩
  | some n =>
    have hfind : e.find .npnClient = some n := h
    dsimp only
    rw [after_of_quiet (he .npnClient n h).wants]
    split
    · exact ⟨_, [⟨n, e.connection, .wants⟩], rfl, .inr ⟨by simp [hfind], rfl⟩, rfl⟩
    · exact ⟨_, [⟨n, e.connection, .wants⟩], rfl, .inl rfl, rfl⟩

/-- What a client offers: in ALPN what its negotiator there says, and in NPN nothing without a
negotiator. -/
theorem run_offer_of_quiet (he : e.Quiet roster) (calls : List Call) :
    ∃ hello asked, (offer roster e.connection).run ⟨e.directory, .empty, calls⟩ =
        .ok () ⟨e.directory, hello, calls ++ asked⟩ ∧
      hello.alpn = (e.find .alpnClient).map (fun n => .offered (e.offers roster n)) ∧
      (hello.npn.isSome → (e.find .npnClient).isSome) ∧ Call.selections asked = [] := by
  simp only [offer, EStateM.run_bind, run_offerAlpn]
  cases h : e.directory.lookup .alpnClient e.connection with
  | none =>
    have hfind : e.find .alpnClient = none := h
    obtain ⟨hello, asked, hrun, hhello, hasked⟩ := run_offerNpn_of_quiet he .empty calls
    refine ⟨hello, asked, hrun, ?_, ?_, hasked⟩
    · rcases hhello with rfl | ⟨-, rfl⟩
      · rw [hfind]
        rfl
      · rw [hfind]
        rfl
    · rcases hhello with rfl | ⟨hnpn, -⟩
      · exact fun hnone => absurd hnone (by decide)
      · exact fun _ => hnpn
  | some n =>
    have hfind : e.find .alpnClient = some n := h
    dsimp only
    rw [after_of_quiet (he .alpnClient n h).offers]
    obtain ⟨hello, asked, hrun, hhello, hasked⟩ := run_offerNpn_of_quiet he
      (Block.empty.append (.alpn (.offered (e.offers roster n))))
      (calls ++ [⟨n, e.connection, .offers⟩])
    refine ⟨hello, ⟨n, e.connection, .offers⟩ :: asked, ?_, ?_, ?_, hasked⟩
    · rw [List.append_assoc] at hrun
      exact hrun
    · rcases hhello with rfl | ⟨-, rfl⟩
      · rw [hfind]
        rfl
      · rw [hfind]
        rfl
    · rcases hhello with rfl | ⟨hnpn, -⟩
      · exact fun hnone => absurd hnone (by simp [Block.append, Block.empty, Block.npn, Block.find])
      · exact fun _ => hnpn

/-- What a server with a negotiator for ALPN answers to an offer. -/
theorem run_respond_of_alpn (he : e.Quiet roster) {n : NegotiatorId}
    (hfind : e.find .alpnServer = some n) {client : Block} {offered : List ProtocolName}
    (halpn : client.alpn = some (.offered offered)) (calls : List Call) :
    (respond roster e.connection client).run ⟨e.directory, .empty, calls⟩ =
      let chose : Call := ⟨n, e.connection, .alpnChoose offered⟩
      match e.chooses roster n offered with
      | none => .error (.negotiation .alpn) ⟨e.directory, .empty, calls ++ [chose]⟩
      | some p =>
        if p ∈ offered then
          .ok () ⟨e.directory, Block.empty.append (.alpn (.selected p)),
            calls ++ [chose] ++ [⟨n, e.connection, .alpnServerSelected p⟩]⟩
        else .error (.abort .fatal .internalError) ⟨e.directory, .empty, calls ++ [chose]⟩ := by
  have hlookup : e.directory.lookup .alpnServer e.connection = some n := hfind
  have hquiet := he .alpnServer n hfind
  simp only [run_respond, halpn, hlookup]
  show (select roster e.connection n offered).run _ = _
  simp only [run_select, after_of_quiet (hquiet.alpnChoose offered), add, Endpoint.chooses]
  cases (((roster n).alpnServer.choose e.connection offered).run e.directory).1 with
  | none => rfl
  | some p =>
    dsimp only
    rw [after_of_quiet (hquiet.alpnServerSelected p)]

/-- What a server answers that does not take part in ALPN, or is not offered it. -/
theorem run_respond_without_alpn (he : e.Quiet roster) {client : Block}
    (h : client.alpn = none ∨ e.find .alpnServer = none) (calls : List Call) :
    ∃ hello calls', (respond roster e.connection client).run ⟨e.directory, .empty, calls⟩ =
        .ok () ⟨e.directory, hello, calls'⟩ ∧
      hello.alpn = none ∧ (hello.npn.isSome → client.npn.isSome) := by
  have hadvertise : (respond roster e.connection client).run ⟨e.directory, .empty, calls⟩ =
      (advertise roster e.connection client).run ⟨e.directory, .empty, calls⟩ := by
    rw [run_respond]
    rcases h with h | h
    · rw [h]
    · have hlookup : e.directory.lookup .alpnServer e.connection = none := h
      rw [hlookup]
      cases client.alpn <;> rfl
  rw [hadvertise, run_advertise]
  split
  · next npn n hnpn hfind =>
    dsimp only
    rw [after_of_quiet (he .npnServer n hfind).advertises]
    exact ⟨_, _, rfl, rfl, fun _ => by simp [hnpn]⟩
  · exact ⟨.empty, calls, rfl, rfl, nofun⟩

/-- A client with a negotiator for ALPN takes the server's selection. -/
theorem run_conclude_of_selection (he : e.Quiet roster) {n : NegotiatorId}
    (hfind : e.find .alpnClient = some n) {server : Block} {p : ProtocolName}
    (halpn : server.alpn = some (.selected p)) (calls : List Call) :
    (conclude roster e.connection server).run ⟨e.directory, .empty, calls⟩ =
      .ok (some p) ⟨e.directory, .empty, calls ++ [⟨n, e.connection, .alpnClientSelected p⟩]⟩ := by
  have hlookup : e.directory.lookup .alpnClient e.connection = some n := hfind
  have hquiet := (he .alpnClient n hfind).alpnClientSelected p
  simp only [conclude, halpn, run_takeSelection, hlookup, after_of_quiet hquiet]

/-- Without a selection in ALPN, a client that is advertised names only if it has a negotiator for
them concludes, or finds nothing to select among them. -/
theorem run_conclude_without_alpn {server : Block} (halpn : server.alpn = none)
    (hnpn : server.npn.isSome → (e.find .npnClient).isSome) (calls : List Call) :
    (∃ p x, (conclude roster e.connection server).run ⟨e.directory, .empty, calls⟩ = .ok p x) ∨
    ∃ x, (conclude roster e.connection server).run ⟨e.directory, .empty, calls⟩ =
      .error (.negotiation .npn) x := by
  unfold conclude
  rw [halpn]
  cases hserver : server.npn with
  | none => exact .inl ⟨none, _, rfl⟩
  | some npn =>
    rw [hserver] at hnpn
    obtain ⟨n, hfind⟩ := Option.isSome_iff_exists.mp (hnpn rfl)
    have hlookup : e.directory.lookup .npnClient e.connection = some n := hfind
    simp only [run_chooseAdvertised, hlookup]
    split
    · exact .inr ⟨_, rfl⟩
    · exact .inl ⟨_, _, rfl⟩

end Exchange

end HelloNegotiation
