import HelloNegotiation.Proofs.ExchangeSteps

/-!
# Handshakes between a client and a server

A handshake is the client's offer, the server's response and the client's conclusion, where each
message is carried to the other end. It makes no difference whether a message is carried as it is
or as bytes, unless it cannot be written at all (`sameIfSent_handshake`).
-/
namespace HelloNegotiation

/-- One end of a handshake. -/
structure Endpoint where
  connection : Connection
  directory : Directory

inductive Side
  | client | server

/-- Both ends of a handshake and the calls made at either of them, the first one first. -/
structure Session where
  client : Endpoint
  server : Endpoint
  calls : List Call

/-- Why a handshake stopped. -/
inductive Stop
  /-- A message could not be written. -/
  | unsent (f : Fault)
  /-- The bytes of a message could not be read. -/
  | unread (f : Fault)
  /-- A step of the handshake failed. -/
  | failed (f : Fault)

/-- How a message gets to the other end. -/
abbrev Carrier := HelloMessage → Block → Except Stop Block

namespace Carrier

/-- The message is handed over as it is. -/
def direct : Carrier := fun _ b => .ok b

/-- The message is sent as bytes and read with the catalogue that the other end has then. -/
def wire (catalogue : HelloMessage → Catalogue) : Carrier := fun message b =>
  match b.toBytes.1 with
  | .error f => .error (.unsent f)
  | .ok bs => match (Block.arrive message bs (catalogue message)).1 with
    | .error f => .error (.unread f)
    | .ok b => .ok b

theorem wire_of_faithful {catalogue : HelloMessage → Catalogue} {message : HelloMessage} {b : Block}
    (hcatalogue : (catalogue message).Reachable) (hb : b.Faithful message) :
    wire catalogue message b = .ok b ∨ ∃ f, wire catalogue message b = .error (.unsent f) := by
  unfold wire
  cases hbytes : b.toBytes.1 with
  | error f => exact .inr ⟨f, rfl⟩
  | ok bs =>
    left
    dsimp only
    rw [hb.arrive hcatalogue hbytes]

/-- A message that fits behind its length can be sent. -/
theorem wire_of_fits {catalogue : HelloMessage → Catalogue} {message : HelloMessage} {b : Block}
    (hcatalogue : (catalogue message).Reachable) (hb : b.Faithful message)
    (hle : total Extension.wireLength b.members ≤ 65535) :
    wire catalogue message b = .ok b := by
  have hmeasured : b.Measured := by simp [Block.Measured, hb.unmeasured]
  have hbytes : ∃ bs, b.toBytes.1 = .ok bs := by
    rw [Block.fst_toBytes hmeasured, if_pos hle]
    split
    · exact ⟨_, rfl⟩
    · exact ⟨_, rfl⟩
  obtain ⟨bs, hbytes⟩ := hbytes
  simp only [wire, hbytes, hb.arrive hcatalogue hbytes]

end Carrier

namespace Session

def endpoint (s : Session) : Side → Endpoint
  | .client => s.client
  | .server => s.server

/-- What a step at one end works on: a message that is empty as yet. -/
def exchange (s : Session) (side : Side) : Exchange :=
  ⟨(s.endpoint side).directory, .empty, s.calls⟩

/-- The session after a step at one end that left `x`. -/
def after (s : Session) (side : Side) (x : Exchange) : Session :=
  match side with
  | .client => ⟨⟨s.client.connection, x.directory⟩, s.server, x.calls⟩
  | .server => ⟨s.client, ⟨s.server.connection, x.directory⟩, x.calls⟩

/-- A step at one end, with the message that it makes. -/
def perform {α : Type} (side : Side) (step : Connection → Step α) :
    EStateM Stop Session (α × Block) := fun s =>
  match (step (s.endpoint side).connection).run (s.exchange side) with
  | .ok a x => .ok (a, x.hello) (s.after side x)
  | .error f x => .error (.failed f) (s.after side x)

def carry (carrier : Carrier) (message : HelloMessage) (b : Block) : EStateM Stop Session Block :=
  fun s => match carrier message b with
    | .ok b => .ok b s
    | .error stop => .error stop s

/-- A whole handshake in which the server answers in the given message: what arrived at the client
as the answer, and the protocol that it concludes on. -/
def handshake (roster : Roster) (answer : HelloMessage) (carrier : Carrier) :
    EStateM Stop Session (Block × Option ProtocolName) := do
  let offered ← perform .client (Exchange.offer roster)
  let heard ← carry carrier .clientHello offered.2
  let answered ← perform .server fun c => Exchange.respond roster c heard
  let received ← carry carrier answer answered.2
  let concluded ← perform .client fun c => Exchange.conclude roster c received
  return (received, concluded.1)

section
variable {α : Type} {side : Side} {step : Connection → Step α} {s : Session} {x : Exchange}

theorem run_perform_of_ok {a : α}
    (h : (step (s.endpoint side).connection).run (s.exchange side) = .ok a x) :
    (perform side step).run s = .ok (a, x.hello) (s.after side x) := by
  simp only [EStateM.run] at h
  simp only [perform, EStateM.run, h]

theorem run_perform_of_error {f : Fault}
    (h : (step (s.endpoint side).connection).run (s.exchange side) = .error f x) :
    (perform side step).run s = .error (.failed f) (s.after side x) := by
  simp only [EStateM.run] at h
  simp only [perform, EStateM.run, h]

theorem of_run_perform {a : α} {b : Block} {t : Session}
    (h : (perform side step).run s = .ok (a, b) t) :
    ∃ x, (step (s.endpoint side).connection).run (s.exchange side) = .ok a x ∧ b = x.hello := by
  cases hstep : (step (s.endpoint side).connection).run (s.exchange side) with
  | ok a' x =>
    rw [run_perform_of_ok hstep] at h
    cases h
    exact ⟨x, rfl, rfl⟩
  | error f x =>
    rw [run_perform_of_error hstep] at h
    cases h

end

@[simp] theorem run_carry_direct (message : HelloMessage) (b : Block) (s : Session) :
    (carry .direct message b).run s = .ok b s := rfl

/-- Two outcomes are the same, or the first one is that a message could not be written. -/
def SameIfSent {α : Type} (r r' : EStateM.Result Stop Session α) : Prop :=
  r = r' ∨ ∃ f t, r = .error (.unsent f) t

theorem SameIfSent.refl {α : Type} (r : EStateM.Result Stop Session α) : SameIfSent r r := .inl rfl

/-- Sequences end the same when they begin and go on the same. -/
theorem SameIfSent.bind {α β : Type} {x y : EStateM Stop Session α}
    {f g : α → EStateM Stop Session β} {s : Session} (h : SameIfSent (x.run s) (y.run s))
    (hnext : ∀ a t, y.run s = .ok a t → SameIfSent ((f a).run t) ((g a).run t)) :
    SameIfSent ((x >>= f).run s) ((y >>= g).run s) := by
  rw [EStateM.run_bind, EStateM.run_bind]
  rcases h with h | ⟨e, t, h⟩
  · rw [h]
    cases hy : y.run s with
    | ok a t => exact hnext a t hy
    | error e t => exact .refl _
  · rw [h]
    exact .inr ⟨e, t, rfl⟩

theorem run_carry_wire {catalogue : HelloMessage → Catalogue} {message : HelloMessage} {b : Block}
    (hcatalogue : (catalogue message).Reachable) (hb : b.Faithful message)
    (hle : total Extension.wireLength b.members ≤ 65535) (s : Session) :
    (carry (.wire catalogue) message b).run s = .ok b s := by
  simp only [carry, EStateM.run, Carrier.wire_of_fits hcatalogue hb hle]

theorem sameIfSent_carry {catalogue : HelloMessage → Catalogue} {message : HelloMessage} {b : Block}
    (hcatalogue : (catalogue message).Reachable) (hb : b.Faithful message) (s : Session) :
    SameIfSent ((carry (.wire catalogue) message b).run s) ((carry .direct message b).run s) := by
  rcases Carrier.wire_of_faithful hcatalogue hb with h | ⟨f, h⟩
  · left
    simp only [carry, EStateM.run, h]
    rfl
  · right
    exact ⟨f, s, by simp only [carry, EStateM.run, h]⟩

variable {roster : Roster} {answer : HelloMessage} {catalogue : HelloMessage → Catalogue}

/-- Whatever the negotiators do, it makes no difference to a handshake that its messages are sent
as bytes, unless one of them cannot be written. -/
theorem sameIfSent_handshake (hcatalogue : ∀ message, (catalogue message).Reachable)
    (hanswer : answer ≠ .clientHello) (s : Session) :
    SameIfSent ((handshake roster answer (.wire catalogue)).run s)
      ((handshake roster answer .direct).run s) := by
  -- Each message that is carried was made from an empty one by a step, so it arrives as it is.
  refine SameIfSent.bind (.refl _) ?_
  intro ⟨_, hello⟩ t hoffer
  have hclient : hello.Faithful .clientHello := by
    obtain ⟨x, hx, rfl⟩ := of_run_perform hoffer
    obtain ⟨y, hy, hfaithful⟩ := Exchange.faithful_offer roster s.client.connection
      (s.exchange .client) Block.faithful_empty
    cases hx.symm.trans hy
    exact hfaithful
  refine SameIfSent.bind (sameIfSent_carry (hcatalogue _) hclient t) ?_
  intro heard u _
  refine SameIfSent.bind (.refl _) ?_
  intro ⟨_, hello⟩ v hrespond
  have hserver : hello.Faithful answer := by
    obtain ⟨x, hx, rfl⟩ := of_run_perform hrespond
    exact Exchange.faithful_respond roster _ _ hanswer Block.faithful_empty hx
  refine SameIfSent.bind (sameIfSent_carry (hcatalogue _) hserver v) ?_
  intro received w _
  exact .refl _

end Session

end HelloNegotiation
