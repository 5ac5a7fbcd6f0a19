import HelloNegotiation.Proofs.CallsOfSteps

/-!
# Steps that know their own connection only

Where the negotiators answer from what they are asked and nothing else, a step of a handshake knows
the directory only by the negotiators that it finds for its connection. In another directory where
the same ones are found, it ends the same and makes the same calls.
-/
namespace HelloNegotiation

/-- A negotiator that answers from what it is asked alone, and leaves the directory as it is. -/
structure Negotiator.Steady (n : Negotiator) : Prop where
  offers : ∀ c, ∃ names, n.alpnClient.offers c = pure names
  alpnClientSelected : ∀ c p, n.alpnClient.selected c p = pure ()
  alpnChoose : ∀ c names, ∃ choice, n.alpnServer.choose c names = pure choice
  alpnServerSelected : ∀ c p, n.alpnServer.selected c p = pure ()
  wants : ∀ c, ∃ yes, n.npnClient.wants c = pure yes
  npnChoose : ∀ c names, ∃ choice, n.npnClient.choose c names = pure choice
  npnClientSelected : ∀ c p, n.npnClient.selected c p = pure ()
  advertises : ∀ c, ∃ names, n.npnServer.advertises c = pure names
  npnServerSelected : ∀ c p, n.npnServer.selected c p = pure ()

def Roster.Steady (roster : Roster) : Prop := ∀ n, (roster n).Steady

/-- A script that unbinds nothing answers from what it is asked alone. -/
theorem Script.steady_negotiator {script : Script} (h : script.unbinds = false) :
    script.negotiator.Steady := by
  have hanswer : ∀ {α : Type} (c : Connection) (a : α), script.answer c a = pure a := by
    intro α c a
    funext d
    simp only [answer, h]
    rfl
  have hasked : ∀ {α : Type} (c : Connection) (a : α), ∃ b, script.answer c a = pure b :=
    fun c a => ⟨a, hanswer c a⟩
  unfold negotiator
  cases script.minimal with
  | false =>
    exact ⟨fun c => hasked c _, fun c _ => hanswer c (), fun c _ => hasked c _,
      fun c _ => hanswer c (), fun c => hasked c _, fun c _ => hasked c _,
      fun c _ => hanswer c (), fun c => hasked c _, fun c _ => hanswer c ()⟩
  | true =>
    exact ⟨fun c => hasked c _, fun c _ => hanswer c (), fun c _ => hasked c _,
      fun _ _ => rfl, fun _ => ⟨true, rfl⟩, fun c _ => hasked c _,
      fun c _ => hanswer c (), fun c => hasked c _, fun _ _ => rfl⟩

theorem Roster.Steady.quiet {roster : Roster} (h : roster.Steady) (d : Directory) :
    roster.Quiet d := by
  have hleaves : ∀ {α : Type} {answer : StateM Directory α}, (∃ a, answer = pure a) →
      (answer.run d).2 = d := by
    rintro α answer ⟨a, rfl⟩
    rfl
  intro n c
  exact {
    offers := hleaves ((h n).offers c)
    alpnClientSelected := fun p => hleaves ⟨_, (h n).alpnClientSelected c p⟩
    alpnChoose := fun names => hleaves ((h n).alpnChoose c names)
    alpnServerSelected := fun p => hleaves ⟨_, (h n).alpnServerSelected c p⟩
    wants := hleaves ((h n).wants c)
    npnChoose := fun names => hleaves ((h n).npnChoose c names)
    npnClientSelected := fun p => hleaves ⟨_, (h n).npnClientSelected c p⟩
    advertises := hleaves ((h n).advertises c)
    npnServerSelected := fun p => hleaves ⟨_, (h n).npnServerSelected c p⟩ }

namespace Exchange

/-- The exchange with another directory. -/
def withDirectory (x : Exchange) (d : Directory) : Exchange := { x with directory := d }

/-- The same end of a step, with another directory. -/
def endWith {α : Type} (d : Directory) :
    EStateM.Result Fault Exchange α → EStateM.Result Fault Exchange α
  | .ok a x => .ok a (x.withDirectory d)
  | .error f x => .error f (x.withDirectory d)

/-- A step that knows the directory only by what it finds for the connection, and leaves it as it
is. -/
def Local {α : Type} (c : Connection) (s : Step α) : Prop :=
  ∀ x d, (∀ role, d.lookup role c = x.directory.lookup role c) →
    (left (s.run x)).directory = x.directory ∧ s.run (x.withDirectory d) = endWith d (s.run x)

section
variable {α β : Type} (c : Connection)

theorem local_pure (a : α) : Local c (pure a) := fun _ _ _ => ⟨rfl, rfl⟩

theorem local_throw (f : Fault) : Local (α := α) c (throw f) := fun _ _ _ => ⟨rfl, rfl⟩

theorem local_append (e : Extension) : Local c (append e) := fun _ _ _ => ⟨rfl, rfl⟩

theorem local_lookup (role : Role) : Local c (lookup role c) := by
  intro x d h
  refine ⟨rfl, ?_⟩
  rw [run_lookup, run_lookup, endWith]
  exact congrArg (EStateM.Result.ok · (x.withDirectory d)) (h role)

theorem local_call (n : NegotiatorId) (callback : Callback) {answer : StateM Directory α}
    (h : ∃ a, answer = pure a) : Local c (call n c callback answer) := by
  obtain ⟨a, rfl⟩ := h
  exact fun _ _ _ => ⟨rfl, rfl⟩

variable {c}

/-- A step goes on in the directory that the step before it left as it was. -/
theorem Local.bind {s : Step α} {f : α → Step β} (hs : Local c s) (hf : ∀ a, Local c (f a)) :
    Local c (s >>= f) := by
  intro x d h
  obtain ⟨hleft, hsame⟩ := hs x d h
  rw [EStateM.run_bind, EStateM.run_bind, hsame]
  cases hrun : s.run x with
  | error e y =>
    rw [hrun] at hleft
    exact ⟨hleft, rfl⟩
  | ok a y =>
    rw [hrun] at hleft
    have hfound : ∀ role, d.lookup role c = y.directory.lookup role c := by
      intro role
      rw [show y.directory = x.directory from hleft]
      exact h role
    obtain ⟨hleft', hsame'⟩ := hf a y d hfound
    exact ⟨hleft'.trans hleft, hsame'⟩

end

variable {roster : Roster} (h : roster.Steady) (c : Connection)
include h

theorem local_offerAlpn : Local c (offerAlpn roster c) := by
  refine (local_lookup c .alpnClient).bind fun found => ?_
  cases found with
  | none => exact local_pure c ()
  | some n => exact (local_call c n _ ((h n).offers c)).bind fun _ => local_append c _

theorem local_offerNpn : Local c (offerNpn roster c) := by
  refine (local_lookup c .npnClient).bind fun found => ?_
  cases found with
  | none => exact local_pure c ()
  | some n =>
    refine (local_call c n _ ((h n).wants c)).bind fun wants => ?_
    cases wants with
    | false => exact local_pure c ()
    | true => exact local_append c _

theorem local_offer : Local c (offer roster c) :=
  (local_offerAlpn h c).bind fun _ => local_offerNpn h c

theorem local_select (n : NegotiatorId) (offered : List ProtocolName) :
    Local c (select roster c n offered) := by
  refine (local_call c n _ ((h n).alpnChoose c offered)).bind fun choice => ?_
  cases choice with
  | none => exact local_throw c _
  | some p =>
    dsimp only
    split
    · exact (local_append c _).bind fun _ =>
        local_call c n _ ⟨_, (h n).alpnServerSelected c p⟩
    · exact local_throw c _

theorem local_advertise (client : Block) : Local c (advertise roster c client) := by
  refine (local_lookup c .npnServer).bind fun found => ?_
  cases client.npn with
  | none => exact local_pure c ()
  | some npn =>
    cases found with
    | none => exact local_pure c ()
    | some n => exact (local_call c n _ ((h n).advertises c)).bind fun _ => local_append c _

theorem local_respond (client : Block) : Local c (respond roster c client) := by
  refine (local_lookup c .alpnServer).bind fun found => ?_
  cases client.alpn with
  | none => exact local_advertise h c client
  | some alpn =>
    cases found with
    | none => exact local_advertise h c client
    | some n => exact local_select h c n alpn.names

theorem local_takeSelection (alpn : Alpn) : Local c (takeSelection roster c alpn) := by
  cases alpn with
  | offered names => exact local_throw c _
  | selected p =>
    refine (local_lookup c .alpnClient).bind fun found => ?_
    cases found with
    | none => exact local_throw c _
    | some n =>
      exact (local_call c n _ ⟨_, (h n).alpnClientSelected c p⟩).bind fun _ => local_pure c _

theorem local_chooseAdvertised (npn : Npn) : Local c (chooseAdvertised roster c npn) := by
  refine (local_lookup c .npnClient).bind fun found => ?_
  cases found with
  | none => exact local_throw c _
  | some n =>
    refine (local_call c n _ ((h n).npnChoose c npn.names)).bind fun choice => ?_
    cases choice with
    | none => exact local_throw c _
    | some p =>
      exact (local_call c n _ ⟨_, (h n).npnClientSelected c p⟩).bind fun _ => local_pure c _

theorem local_conclude (server : Block) : Local c (conclude roster c server) := by
  unfold conclude
  split
  · exact local_takeSelection h c _
  · split
    · exact local_chooseAdvertised h c _
    · exact local_pure c none

theorem local_notify (p : ProtocolName) : Local c (notify roster c p) := by
  refine (local_lookup c .npnServer).bind fun found => ?_
  cases found with
  | none => exact local_pure c false
  | some n =>
    exact (local_call c n _ ⟨_, (h n).npnServerSelected c p⟩).bind fun _ => local_pure c true

end Exchange

/-- A step on its own gives the same answer wherever the same negotiators are found for its
connection. -/
theorem Action.answer_step_of_local {α : Type} {c : Connection} {s : Step α}
    (hs : Exchange.Local c s) (hello : Block) {d d' : Directory}
    (h : ∀ role, d.lookup role c = d'.lookup role c)
    (outcome : Except Fault α → Block → Outcome) :
    (step s hello d outcome).1 = (step s hello d' outcome).1 := by
  have hsame := (hs ⟨d', hello, []⟩ d h).2
  simp only [Exchange.withDirectory] at hsame
  rw [step, step, hsame]
  cases s.run ⟨d', hello, []⟩ <;> rfl

end HelloNegotiation
