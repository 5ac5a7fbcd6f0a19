import HelloNegotiation.Proofs.QuietNegotiators

/-!
# Honest ends agree

Where the negotiators leave the directories alone, a handshake with a live ALPN negotiator at each
end is decided by the server's choice among the names offered (`handshake_of_alpn`), and any other
handshake neither concludes on a name selected in ALPN nor aborts (`handshake_without_alpn`).
-/
namespace HelloNegotiation.Session
variable {roster : Roster} {answer : HelloMessage} {client server : Endpoint}

section
variable {α : Type} {side : Side} {step : Connection → Step α} {s : Session} {b : Block}
  {calls : List Call}

theorem after_exchange : s.after side ⟨(s.endpoint side).directory, b, calls⟩ =
    ⟨s.client, s.server, calls⟩ := by
  cases side <;> rfl

/-- A step that leaves the directory alone adds to the calls only. -/
theorem run_perform_of_quiet {a : α}
    (h : (step (s.endpoint side).connection).run (s.exchange side) =
      .ok a ⟨(s.endpoint side).directory, b, calls⟩) :
    (perform side step).run s = .ok (a, b) ⟨s.client, s.server, calls⟩ := by
  rw [run_perform_of_ok h, after_exchange]

theorem run_perform_of_quiet_error {f : Fault}
    (h : (step (s.endpoint side).connection).run (s.exchange side) =
      .error f ⟨(s.endpoint side).directory, b, calls⟩) :
    (perform side step).run s = .error (.failed f) ⟨s.client, s.server, calls⟩ := by
  rw [run_perform_of_error h, after_exchange]

end

/-- With a live ALPN negotiator at each end, the server's choice among the names offered decides. -/
theorem handshake_of_alpn (hclient : client.Quiet roster) (hserver : server.Quiet roster)
    {nc ns : NegotiatorId} (hnc : client.find .alpnClient = some nc)
    (hns : server.find .alpnServer = some ns) :
    ∃ asked, Call.selections asked = [] ∧
      (handshake roster answer .direct).run ⟨client, server, []⟩ =
        match server.chooses roster ns (client.offers roster nc) with
        | none => .error (.failed (.negotiation .alpn)) ⟨client, server, asked⟩
        | some p =>
          if p ∈ client.offers roster nc then
            .ok (Block.empty.append (.alpn (.selected p)), some p) ⟨client, server, asked ++
              [⟨ns, server.connection, .alpnServerSelected p⟩,
                ⟨nc, client.connection, .alpnClientSelected p⟩]⟩
          else .error (.failed (.abort .fatal .internalError)) ⟨client, server, asked⟩ := by
  obtain ⟨hello, asked, hoffer, halpn, -, hasked⟩ := Exchange.run_offer_of_quiet hclient []
  rw [hnc] at halpn
  have hrespond := Exchange.run_respond_of_alpn hserver hns halpn asked
  have hfirst : (perform .client (Exchange.offer roster)).run ⟨client, server, []⟩ =
      .ok ((), hello) ⟨client, server, asked⟩ := run_perform_of_quiet hoffer
  refine ⟨asked ++ [⟨ns, server.connection, .alpnChoose (client.offers roster nc)⟩], ?_, ?_⟩
  · rw [Call.selections_append, hasked]
    rfl
  simp only [handshake, EStateM.run_bind, hfirst, run_carry_direct]
  cases hchoice : server.chooses roster ns (client.offers roster nc) with
  | none =>
    rw [hchoice] at hrespond
    have hsecond : (perform .server fun c => Exchange.respond roster c hello).run
        ⟨client, server, asked⟩ = .error (.failed (.negotiation .alpn)) ⟨client, server, _⟩ :=
      run_perform_of_quiet_error hrespond
    rw [hsecond]
  | some p =>
    rw [hchoice] at hrespond
    dsimp only at hrespond ⊢
    by_cases hp : p ∈ client.offers roster nc
    · rw [if_pos hp] at hrespond ⊢
      have hsecond : (perform .server fun c => Exchange.respond roster c hello).run
          ⟨client, server, asked⟩ = .ok ((), _) ⟨client, server, _⟩ := run_perform_of_quiet hrespond
      have hselected : (Block.empty.append (.alpn (.selected p))).alpn = some (.selected p) := rfl
      have hconclude := Exchange.run_conclude_of_selection hclient hnc hselected
      have hthird : ∀ calls, (perform .client fun c => Exchange.conclude roster c
          (Block.empty.append (.alpn (.selected p)))).run ⟨client, server, calls⟩ =
            .ok (some p, .empty) ⟨client, server, _⟩ := fun calls =>
        run_perform_of_quiet (hconclude calls)
      rw [hsecond]
      dsimp only
      rw [hthird]
      simp only [List.append_assoc]
      rfl
    · rw [if_neg hp] at hrespond ⊢
      have hsecond : (perform .server fun c => Exchange.respond roster c hello).run
          ⟨client, server, asked⟩ = .error _ ⟨client, server, _⟩ :=
        run_perform_of_quiet_error hrespond
      rw [hsecond]

/-- Without a live ALPN negotiator at each end, no name is selected in ALPN and nothing aborts. -/
theorem handshake_without_alpn (hclient : client.Quiet roster) (hserver : server.Quiet roster)
    (h : client.find .alpnClient = none ∨ server.find .alpnServer = none) :
    (∃ hello p t, (handshake roster answer .direct).run ⟨client, server, []⟩ = .ok (hello, p) t ∧
      hello.alpn = none) ∨
    ∃ t, (handshake roster answer .direct).run ⟨client, server, []⟩ =
      .error (.failed (.negotiation .npn)) t := by
  obtain ⟨offered, asked, hoffer, halpn, hnpn, -⟩ := Exchange.run_offer_of_quiet hclient []
  have hnone : offered.alpn = none ∨ server.find .alpnServer = none := by
    rcases h with h | h
    · left
      rw [halpn, h]
      rfl
    · exact .inr h
  obtain ⟨hello, calls, hrespond, hselected, hadvertised⟩ :=
    Exchange.run_respond_without_alpn hserver hnone asked
  have hfirst : (perform .client (Exchange.offer roster)).run ⟨client, server, []⟩ =
      .ok ((), offered) ⟨client, server, asked⟩ := run_perform_of_quiet hoffer
  have hsecond : (perform .server fun c => Exchange.respond roster c offered).run
      ⟨client, server, asked⟩ = .ok ((), hello) ⟨client, server, calls⟩ :=
    run_perform_of_quiet hrespond
  simp only [handshake, EStateM.run_bind, hfirst, hsecond, run_carry_direct]
  have hasked := fun hsome => hnpn (hadvertised hsome)
  rcases Exchange.run_conclude_without_alpn hselected hasked calls with ⟨p, x, hrun⟩ | ⟨x, hrun⟩
  · left
    have hthird : (perform .client fun c => Exchange.conclude roster c hello).run
        ⟨client, server, calls⟩ = .ok (p, x.hello) _ := run_perform_of_ok hrun
    rw [hthird]
    exact ⟨hello, p, _, rfl, hselected⟩
  · right
    have hthird : (perform .client fun c => Exchange.conclude roster c hello).run
        ⟨client, server, calls⟩ = .error (.failed (.negotiation .npn)) _ :=
      run_perform_of_error hrun
    rw [hthird]
    exact ⟨_, rfl⟩

/-- How a handshake between ends that leave their directories alone can end. -/
inductive Ending (roster : Roster) (client server : Endpoint) :
    EStateM.Result Stop Session (Block × Option ProtocolName) → Prop
  /-- The server chooses one of the names offered, and both ends are told. -/
  | selected {nc ns : NegotiatorId} {p : ProtocolName} {hello : Block} {t : Session}
      (hnc : client.find .alpnClient = some nc) (hns : server.find .alpnServer = some ns)
      (hchoice : server.chooses roster ns (client.offers roster nc) = some p)
      (hp : p ∈ client.offers roster nc) (halpn : hello.alpn = some (.selected p))
      (htold : Call.selections t.calls = [⟨ns, server.connection, .alpnServerSelected p⟩,
        ⟨nc, client.connection, .alpnClientSelected p⟩]) :
      Ending roster client server (.ok (hello, some p) t)
  /-- The server chooses nothing. -/
  | refused {nc ns : NegotiatorId} (t : Session)
      (hnc : client.find .alpnClient = some nc) (hns : server.find .alpnServer = some ns)
      (hchoice : server.chooses roster ns (client.offers roster nc) = none) :
      Ending roster client server (.error (.failed (.negotiation .alpn)) t)
  /-- The server chooses a name that was not offered. -/
  | aborted {nc ns : NegotiatorId} {p : ProtocolName} (t : Session)
      (hnc : client.find .alpnClient = some nc) (hns : server.find .alpnServer = some ns)
      (hchoice : server.chooses roster ns (client.offers roster nc) = some p)
      (hp : p ∉ client.offers roster nc) :
      Ending roster client server (.error (.failed (.abort .fatal .internalError)) t)
  /-- Nothing is selected in ALPN. -/
  | concluded {hello : Block} (p : Option ProtocolName) (t : Session)
      (hlive : client.find .alpnClient = none ∨ server.find .alpnServer = none)
      (halpn : hello.alpn = none) : Ending roster client server (.ok (hello, p) t)
  /-- The client chooses nothing in NPN. -/
  | declined (t : Session)
      (hlive : client.find .alpnClient = none ∨ server.find .alpnServer = none) :
      Ending roster client server (.error (.failed (.negotiation .npn)) t)

theorem handshake_ends (hclient : client.Quiet roster) (hserver : server.Quiet roster) :
    Ending roster client server ((handshake roster answer .direct).run ⟨client, server, []⟩) := by
  have hwithout : client.find .alpnClient = none ∨ server.find .alpnServer = none →
      Ending roster client server
        ((handshake roster answer .direct).run ⟨client, server, []⟩) := by
    intro hlive
    rcases handshake_without_alpn hclient hserver hlive with
      ⟨hello, p, t, hrun, halpn⟩ | ⟨t, hrun⟩
    · exact hrun ▸ .concluded p t hlive halpn
    · exact hrun ▸ .declined t hlive
  cases hnc : client.find .alpnClient with
  | none => exact hwithout (.inl hnc)
  | some nc =>
    cases hns : server.find .alpnServer with
    | none => exact hwithout (.inr hns)
    | some ns =>
      obtain ⟨asked, hasked, hrun⟩ := handshake_of_alpn hclient hserver hnc hns
      rw [hrun]
      split
      · next hchoice => exact .refused _ hnc hns hchoice
      · next p hchoice =>
        split
        · next hp =>
          refine .selected hnc hns hchoice hp rfl ?_
          rw [Call.selections_append, hasked]
          rfl
        · next hp => exact .aborted _ hnc hns hchoice hp

section
variable {r : EStateM.Result Stop Session (Block × Option ProtocolName)}

/-- With a live ALPN negotiator at each end, only the endings that the server's choice decides are
left. -/
theorem Ending.of_live (h : Ending roster client server r) {nc ns : NegotiatorId}
    (hnc : client.find .alpnClient = some nc) (hns : server.find .alpnServer = some ns)
    {p : ProtocolName} (hchoice : server.chooses roster ns (client.offers roster nc) = some p) :
    (p ∈ client.offers roster nc ∧
      ∃ hello t, r = .ok (hello, some p) t ∧ hello.alpn = some (.selected p)) ∨
    (p ∉ client.offers roster nc ∧
      ∃ t, r = .error (.failed (.abort .fatal .internalError)) t) := by
  cases h with
  | selected hnc' hns' hchoice' hp halpn =>
    cases hnc.symm.trans hnc'
    cases hns.symm.trans hns'
    cases hchoice.symm.trans hchoice'
    exact .inl ⟨hp, _, _, rfl, halpn⟩
  | refused t hnc' hns' hchoice' =>
    cases hnc.symm.trans hnc'
    cases hns.symm.trans hns'
    cases hchoice.symm.trans hchoice'
  | aborted t hnc' hns' hchoice' hp =>
    cases hnc.symm.trans hnc'
    cases hns.symm.trans hns'
    cases hchoice.symm.trans hchoice'
    exact .inr ⟨hp, t, rfl⟩
  | concluded q t hnone => simp [hnc, hns] at hnone
  | declined t hnone => simp [hnc, hns] at hnone

theorem Ending.selected_iff (h : Ending roster client server r) (p : ProtocolName) :
    (∃ hello t, r = .ok (hello, some p) t ∧ hello.alpn.isSome) ↔
      ∃ nc ns, client.find .alpnClient = some nc ∧ server.find .alpnServer = some ns ∧
        server.chooses roster ns (client.offers roster nc) = some p ∧
        p ∈ client.offers roster nc := by
  constructor
  · intro hr
    obtain ⟨hello, t, rfl, hsome⟩ := hr
    cases h with
    | selected hnc hns hchoice hp => exact ⟨_, _, hnc, hns, hchoice, hp⟩
    | concluded _ _ _ halpn =>
      rw [halpn] at hsome
      cases hsome
  · intro hlive
    obtain ⟨nc, ns, hnc, hns, hchoice, hp⟩ := hlive
    rcases h.of_live hnc hns hchoice with ⟨-, hello, t, hr, halpn⟩ | ⟨hforeign, -⟩
    · refine ⟨hello, t, hr, ?_⟩
      rw [halpn]
      rfl
    · exact absurd hp hforeign

theorem Ending.abort_iff (h : Ending roster client server r) (level : Alert.Level)
    (description : Alert.Description) :
    (∃ t, r = .error (.failed (.abort level description)) t) ↔
      level = .fatal ∧ description = .internalError ∧
      ∃ nc ns p, client.find .alpnClient = some nc ∧ server.find .alpnServer = some ns ∧
        server.chooses roster ns (client.offers roster nc) = some p ∧
        p ∉ client.offers roster nc := by
  constructor
  · intro hr
    obtain ⟨t, rfl⟩ := hr
    cases h with
    | aborted _ hnc hns hchoice hp => exact ⟨rfl, rfl, _, _, _, hnc, hns, hchoice, hp⟩
  · intro hlive
    obtain ⟨rfl, rfl, nc, ns, p, hnc, hns, hchoice, hforeign⟩ := hlive
    rcases h.of_live hnc hns hchoice with ⟨hp, -⟩ | ⟨-, haborted⟩
    · exact absurd hp hforeign
    · exact haborted

end

/-- A handshake whose messages can all be sent as bytes goes as if they were handed over as they
are. It concludes on a name in ALPN just when the server chooses it among the names offered, and
then each end is told that name, once; it aborts just when the server chooses another name. -/
theorem handshake_over_wire {catalogue : HelloMessage → Catalogue}
    (hcatalogue : ∀ message, (catalogue message).Reachable) (hanswer : answer ≠ .clientHello)
    (hclient : client.Quiet roster) (hserver : server.Quiet roster)
    {r : EStateM.Result Stop Session (Block × Option ProtocolName)}
    (hr : (handshake roster answer (.wire catalogue)).run ⟨client, server, []⟩ = r)
    (hsent : ∀ f t, r ≠ .error (.unsent f) t) :
    r = (handshake roster answer .direct).run ⟨client, server, []⟩ ∧
    (∀ f t, r ≠ .error (.unread f) t) ∧
    (∀ p, (∃ hello t, r = .ok (hello, some p) t ∧ hello.alpn.isSome) ↔
      ∃ nc ns, client.find .alpnClient = some nc ∧ server.find .alpnServer = some ns ∧
        server.chooses roster ns (client.offers roster nc) = some p ∧
        p ∈ client.offers roster nc) ∧
    (∀ p hello t, r = .ok (hello, some p) t → hello.alpn.isSome →
      ∃ nc ns, client.find .alpnClient = some nc ∧ server.find .alpnServer = some ns ∧
        Call.selections t.calls = [⟨ns, server.connection, .alpnServerSelected p⟩,
          ⟨nc, client.connection, .alpnClientSelected p⟩]) ∧
    (∀ level description, (∃ t, r = .error (.failed (.abort level description)) t) ↔
      level = .fatal ∧ description = .internalError ∧
      ∃ nc ns p, client.find .alpnClient = some nc ∧ server.find .alpnServer = some ns ∧
        server.chooses roster ns (client.offers roster nc) = some p ∧
        p ∉ client.offers roster nc) := by
  have hsame : r = (handshake roster answer .direct).run ⟨client, server, []⟩ := by
    rcases sameIfSent_handshake hcatalogue hanswer ⟨client, server, []⟩ with h | ⟨f, t, h⟩
    · rw [← hr, h]
    · exact absurd (hr.symm.trans h) (hsent f t)
  have hends : Ending roster client server r := hsame ▸ handshake_ends hclient hserver
  refine ⟨hsame, ?_, hends.selected_iff, ?_, hends.abort_iff⟩
  · intro f t hunread
    rw [hunread] at hends
    cases hends
  · intro p hello t hok hsome
    rw [hok] at hends
    cases hends with
    | selected hnc hns _ _ _ htold => exact ⟨_, _, hnc, hns, htold⟩
    | concluded _ _ _ halpn =>
      rw [halpn] at hsome
      cases hsome

private def h3 : ProtocolName := ⟨[0x68, 0x33], by decide, by decide⟩

/-- A client with a negotiator for ALPN. -/
private def asking : Endpoint := ⟨⟨1⟩, (Directory.empty.bind .alpnClient ⟨1⟩ ⟨0⟩).2⟩

/-- A server with a negotiator for ALPN. -/
private def answering : Endpoint := ⟨⟨2⟩, (Directory.empty.bind .alpnServer ⟨2⟩ ⟨0⟩).2⟩

/-- Negotiators that take one protocol, and choose in the given way. -/
private def taking (choice : Choice) : Roster := fun _ =>
  Script.negotiator { protocols := [.h2], choice }

private theorem quiet_taking (choice : Choice) (e : Endpoint) : e.Quiet (taking choice) :=
  fun _ _ _ => Script.quiet_negotiator rfl _ _

/-- However the server chooses then, the client's hello arrives as it is. -/
private theorem run_handshake_taking (choice : Choice) :
    (handshake (taking choice) .serverHello (.wire fun _ => .initial)).run ⟨asking, answering, []⟩ =
      (do
        let answered ← perform .server fun c => Exchange.respond (taking choice) c
          (Block.empty.append (.alpn (.offered [.h2])))
        let received ← carry (.wire fun _ => .initial) .serverHello answered.2
        let concluded ← perform .client fun c => Exchange.conclude (taking choice) c received
        return (received, concluded.1)).run
          ⟨asking, answering, [⟨⟨0⟩, ⟨1⟩, .offers⟩]⟩ := by
  have hoffer : (perform .client (Exchange.offer (taking choice))).run ⟨asking, answering, []⟩ =
      .ok ((), Block.empty.append (.alpn (.offered [.h2])))
        ⟨asking, answering, [⟨⟨0⟩, ⟨1⟩, .offers⟩]⟩ := rfl
  have hfaithful : (Block.empty.append (.alpn (.offered [.h2]))).Faithful .clientHello :=
    Block.faithful_empty.append rfl rfl
  rw [handshake, EStateM.run_bind, hoffer]
  dsimp only
  rw [EStateM.run_bind, run_carry_wire .initial hfaithful (by decide)]

/-- The server chooses the name that the client offers. -/
theorem handshake_over_wire_h2 :
    (∀ _ : HelloMessage, Catalogue.initial.Reachable) ∧
    HelloMessage.serverHello ≠ .clientHello ∧
    asking.Quiet (taking .ours) ∧ answering.Quiet (taking .ours) ∧
    ∃ hello t, (handshake (taking .ours) .serverHello (.wire fun _ => .initial)).run
        ⟨asking, answering, []⟩ = .ok (hello, some .h2) t ∧
      Call.selections t.calls = [⟨⟨0⟩, ⟨2⟩, .alpnServerSelected .h2⟩,
        ⟨⟨0⟩, ⟨1⟩, .alpnClientSelected .h2⟩] := by
  have hcatalogue : ∀ _ : HelloMessage, Catalogue.initial.Reachable := fun _ => .initial
  have hclient := quiet_taking .ours asking
  have hserver := quiet_taking .ours answering
  have hfaithful : (Block.empty.append (.alpn (.selected .h2))).Faithful .serverHello :=
    Block.faithful_empty.append nofun rfl
  have hrun : ∃ t, (handshake (taking .ours) .serverHello (.wire fun _ => .initial)).run
      ⟨asking, answering, []⟩ = .ok (Block.empty.append (.alpn (.selected .h2)), some .h2) t := by
    rw [run_handshake_taking, EStateM.run_bind]
    have hrespond : (perform .server fun c => Exchange.respond (taking .ours) c
        (Block.empty.append (.alpn (.offered [.h2])))).run
          ⟨asking, answering, [⟨⟨0⟩, ⟨1⟩, .offers⟩]⟩ =
        .ok ((), Block.empty.append (.alpn (.selected .h2))) _ := rfl
    rw [hrespond]
    dsimp only
    rw [EStateM.run_bind, run_carry_wire .initial hfaithful (by decide)]
    exact ⟨_, rfl⟩
  obtain ⟨t, hrun⟩ := hrun
  have hanswer : HelloMessage.serverHello ≠ .clientHello := nofun
  have hagrees := handshake_over_wire hcatalogue hanswer hclient hserver hrun
  obtain ⟨-, -, -, htold, -⟩ := hagrees (by intro f t h; cases h)
  obtain ⟨nc, ns, hnc, hns, hselections⟩ := htold .h2 (Block.empty.append _) t rfl rfl
  cases hnc
  cases hns
  exact ⟨hcatalogue, hanswer, hclient, hserver, _, t, hrun, hselections⟩

/-- The server chooses a name that the client does not offer. -/
theorem handshake_aborts_on_foreign_choice :
    asking.Quiet (taking (.always h3)) ∧ answering.Quiet (taking (.always h3)) ∧
    ∃ t, (handshake (taking (.always h3)) .serverHello (.wire fun _ => .initial)).run
      ⟨asking, answering, []⟩ = .error (.failed (.abort .fatal .internalError)) t := by
  refine ⟨quiet_taking _ _, quiet_taking _ _, ?_⟩
  rw [run_handshake_taking, EStateM.run_bind]
  have hrespond : (perform .server fun c => Exchange.respond (taking (.always h3)) c
      (Block.empty.append (.alpn (.offered [.h2])))).run
        ⟨asking, answering, [⟨⟨0⟩, ⟨1⟩, .offers⟩]⟩ =
      .error (.failed (.abort .fatal .internalError)) _ := rfl
  rw [hrespond]
  exact ⟨_, rfl⟩

end HelloNegotiation.Session
