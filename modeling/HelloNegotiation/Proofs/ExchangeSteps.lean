import HelloNegotiation.Negotiation.Exchange
import HelloNegotiation.Proofs.BlockRoundTrip

/-!
# What the steps of a handshake do

Each step is given by what it adds to the message, whom it calls and how it ends. From this it
follows which messages can come out of a step at all.
-/
namespace HelloNegotiation.Exchange

/-- The exchange after a call: the call is on record and the directory is as the answer left it. -/
def after {α : Type} (x : Exchange) (k : Call) (answer : StateM Directory α) : Exchange :=
  ⟨(answer.run x.directory).2, x.hello, x.calls ++ [k]⟩

/-- The exchange with one more extension in the message. -/
def add (x : Exchange) (e : Extension) : Exchange := ⟨x.directory, x.hello.append e, x.calls⟩

@[simp] theorem run_lookup (role : Role) (c : Connection) (x : Exchange) :
    (lookup role c).run x = .ok (x.directory.lookup role c) x := rfl

@[simp] theorem run_call {α : Type} (n : NegotiatorId) (c : Connection) (callback : Callback)
    (answer : StateM Directory α) (x : Exchange) :
    (call n c callback answer).run x =
      .ok (answer.run x.directory).1 (x.after ⟨n, c, callback⟩ answer) := rfl

variable (roster : Roster) (c : Connection) (x : Exchange)

theorem run_offerAlpn : (offerAlpn roster c).run x =
    match x.directory.lookup .alpnClient c with
    | none => .ok () x
    | some n =>
      let answer := (roster n).alpnClient.offers c
      .ok () ((x.after ⟨n, c, .offers⟩ answer).add
        (.alpn (.offered (answer.run x.directory).1))) := by
  simp only [offerAlpn, EStateM.run_bind, run_lookup]
  cases x.directory.lookup .alpnClient c <;> rfl

theorem run_offerNpn : (offerNpn roster c).run x =
    match x.directory.lookup .npnClient c with
    | none => .ok () x
    | some n =>
      let answer := (roster n).npnClient.wants c
      let y := x.after ⟨n, c, .wants⟩ answer
      .ok () (if (answer.run x.directory).1 then y.add (.npn .empty) else y) := by
  simp only [offerNpn, EStateM.run_bind, run_lookup]
  cases x.directory.lookup .npnClient c with
  | none => rfl
  | some n =>
    simp only [EStateM.run_bind, run_call]
    split <;> rfl

theorem run_select (n : NegotiatorId) (offered : List ProtocolName) :
    (select roster c n offered).run x =
      let answer := (roster n).alpnServer.choose c offered
      let y := x.after ⟨n, c, .alpnChoose offered⟩ answer
      match (answer.run x.directory).1 with
      | none => .error (.negotiation .alpn) y
      | some p =>
        if p ∈ offered then
          .ok () ((y.add (.alpn (.selected p))).after ⟨n, c, .alpnServerSelected p⟩
            ((roster n).alpnServer.selected c p))
        else .error (.abort .fatal .internalError) y := by
  simp only [select, EStateM.run_bind, run_call]
  cases (((roster n).alpnServer.choose c offered).run x.directory).1 with
  | none => rfl
  | some p =>
    dsimp only
    split <;> rfl

theorem run_advertise (client : Block) : (advertise roster c client).run x =
    match client.npn, x.directory.lookup .npnServer c with
    | some _, some n =>
      let answer := (roster n).npnServer.advertises c
      .ok () ((x.after ⟨n, c, .advertises⟩ answer).add
        (.npn (.ofNames (answer.run x.directory).1)))
    | _, _ => .ok () x := by
  simp only [advertise, EStateM.run_bind, run_lookup]
  cases client.npn with
  | none => rfl
  | some npn => cases x.directory.lookup .npnServer c <;> rfl

theorem run_respond (client : Block) : (respond roster c client).run x =
    match client.alpn, x.directory.lookup .alpnServer c with
    | some alpn, some n => (select roster c n alpn.names).run x
    | _, _ => (advertise roster c client).run x := by
  simp only [respond, EStateM.run_bind, run_lookup]
  cases client.alpn with
  | none => rfl
  | some alpn => cases x.directory.lookup .alpnServer c <;> rfl

theorem run_takeSelection (p : ProtocolName) : (takeSelection roster c (.selected p)).run x =
    match x.directory.lookup .alpnClient c with
    | none => .error (.abort .fatal .unsupportedExtension) x
    | some n => .ok (some p)
        (x.after ⟨n, c, .alpnClientSelected p⟩ ((roster n).alpnClient.selected c p)) := by
  simp only [takeSelection, EStateM.run_bind, run_lookup]
  cases x.directory.lookup .alpnClient c <;> rfl

theorem run_chooseAdvertised (npn : Npn) : (chooseAdvertised roster c npn).run x =
    match x.directory.lookup .npnClient c with
    | none => .error (.abort .fatal .unsupportedExtension) x
    | some n =>
      let answer := (roster n).npnClient.choose c npn.names
      let y := x.after ⟨n, c, .npnChoose npn.names⟩ answer
      match (answer.run x.directory).1 with
      | none => .error (.negotiation .npn) y
      | some p => .ok (some p)
          (y.after ⟨n, c, .npnClientSelected p⟩ ((roster n).npnClient.selected c p)) := by
  simp only [chooseAdvertised, EStateM.run_bind, run_lookup]
  cases x.directory.lookup .npnClient c with
  | none => rfl
  | some n =>
    simp only [EStateM.run_bind, run_call]
    cases (((roster n).npnClient.choose c npn.names).run x.directory).1 <;> rfl

/-- The client's offers suit its hello and say all that they say on the wire. -/
theorem faithful_offer (hx : x.hello.Faithful .clientHello) :
    ∃ y, (offer roster c).run x = .ok () y ∧ y.hello.Faithful .clientHello := by
  have halpn : ∃ y, (offerAlpn roster c).run x = .ok () y ∧ y.hello.Faithful .clientHello := by
    rw [run_offerAlpn]
    cases x.directory.lookup .alpnClient c with
    | none => exact ⟨x, rfl, hx⟩
    | some n => exact ⟨_, rfl, hx.append rfl rfl⟩
  obtain ⟨y, hy, hfaithful⟩ := halpn
  simp only [offer, EStateM.run_bind, hy, run_offerNpn]
  cases y.directory.lookup .npnClient c with
  | none => exact ⟨y, rfl, hfaithful⟩
  | some n =>
    refine ⟨_, rfl, ?_⟩
    split
    · exact hfaithful.append trivial rfl
    · exact hfaithful

/-- What the server answers suits any message but the client hello and says all that it says on the
wire. -/
theorem faithful_respond {message : HelloMessage} (hmessage : message ≠ .clientHello)
    {client : Block} {y : Exchange} (hx : x.hello.Faithful message)
    (h : (respond roster c client).run x = .ok () y) : y.hello.Faithful message := by
  have hadvertise : ∀ z, (advertise roster c client).run x = .ok () z →
      z.hello.Faithful message := by
    intro z hz
    rw [run_advertise] at hz
    split at hz
    · cases hz
      exact hx.append trivial (congrArg Extension.npn (Npn.firsts_names _))
    · cases hz
      exact hx
  rw [run_respond] at h
  split at h
  · rw [run_select] at h
    dsimp only at h
    split at h
    · cases h
    · split at h
      · cases h
        exact hx.append hmessage rfl
      · cases h
  · exact hadvertise y h

end HelloNegotiation.Exchange
