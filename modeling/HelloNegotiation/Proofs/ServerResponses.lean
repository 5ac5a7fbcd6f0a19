import HelloNegotiation.Proofs.CallsOfSteps
import HelloNegotiation.Proofs.DirectoryOperations

/-!
# How a server responds

A server that fails has added nothing to its hello and told nobody that a name was selected. One
that does not fail adds a selection, and tells its negotiator, or an advertisement, or nothing at
all (`Exchange.respond_all_or_nothing`). Which of these it is depends on the extensions in the
client hello, on the live negotiators bound to the connection and on what they answer.
-/
namespace HelloNegotiation

theorem Block.members_foldl_append (b : Block) (xs : List Extension) :
    (xs.foldl append b).members = b.members ++ xs := by
  induction xs generalizing b with
  | nil => exact (List.append_nil _).symm
  | cons x xs ih => rw [List.foldl_cons, ih, append, List.append_assoc, List.singleton_append]

namespace Exchange

section
variable (roster : Roster) (c : Connection) (client : Block) (d : Directory)

/-- The live negotiator bound for the server in ALPN is offered names, and chooses one or none. -/
structure Chooses (n : NegotiatorId) (offered : List ProtocolName) (choice : Option ProtocolName) :
    Prop where
  offers : ∃ alpn, client.alpn = some alpn ∧ alpn.names = offered
  bound : d.bound .alpnServer c = some n
  live : d.isLive n
  answers : (((roster n).alpnServer.choose c offered).run d).1 = choice

/-- Nobody is asked to choose in ALPN, and the live negotiator bound for the server in NPN has names
for a client that would like to negotiate. -/
structure Advertises (n : NegotiatorId) (names : List ProtocolName) : Prop where
  unasked : client.alpn = none ∨ ∀ n, d.bound .alpnServer c = some n → ¬ d.isLive n
  wanted : client.npn.isSome
  bound : d.bound .npnServer c = some n
  live : d.isLive n
  answers : (((roster n).npnServer.advertises c).run d).1 = names

end

section
variable {roster : Roster} {c : Connection} {client : Block} {d : Directory} {n n' : NegotiatorId}
  {offered offered' names names' : List ProtocolName} {choice choice' : Option ProtocolName}

theorem Chooses.unique (h : Chooses roster c client d n offered choice)
    (h' : Chooses roster c client d n' offered' choice') :
    n' = n ∧ offered' = offered ∧ choice' = choice := by
  obtain ⟨⟨alpn, halpn, rfl⟩, hbound, -, rfl⟩ := h
  obtain ⟨⟨alpn', halpn', rfl⟩, hbound', -, rfl⟩ := h'
  cases halpn.symm.trans halpn'
  cases hbound.symm.trans hbound'
  exact ⟨rfl, rfl, rfl⟩

theorem Chooses.asked (h : Chooses roster c client d n offered choice) :
    ¬ (client.alpn = none ∨ ∀ n, d.bound .alpnServer c = some n → ¬ d.isLive n) := by
  rintro (hnone | hdead)
  · obtain ⟨alpn, halpn, -⟩ := h.offers
    rw [halpn] at hnone
    cases hnone
  · exact hdead n h.bound h.live

theorem Chooses.not_advertises (h : Chooses roster c client d n offered choice) :
    ¬ Advertises roster c client d n' names := fun h' => h.asked h'.unasked

theorem Advertises.unique (h : Advertises roster c client d n names)
    (h' : Advertises roster c client d n' names') : n' = n ∧ names' = names := by
  obtain ⟨-, -, hbound, -, rfl⟩ := h
  obtain ⟨-, -, hbound', -, rfl⟩ := h'
  cases hbound.symm.trans hbound'
  exact ⟨rfl, rfl⟩

end

/-- The ways for a server to respond: its negotiator for ALPN chooses no name, or one that was not
offered, or one that was; or its negotiator for NPN advertises names; or there is nobody to ask.
Each has its fault, the extensions it adds and the calls it makes. -/
inductive Response (roster : Roster) (c : Connection) (client : Block) (d : Directory) :
    Except Fault Unit → List Extension → List Call → Prop
  | declined {n : NegotiatorId} {offered : List ProtocolName}
      (h : Chooses roster c client d n offered none) :
      Response roster c client d (.error (.negotiation .alpn)) [] [⟨n, c, .alpnChoose offered⟩]
  | foreign {n : NegotiatorId} {offered : List ProtocolName} {p : ProtocolName}
      (h : Chooses roster c client d n offered (some p)) (hp : p ∉ offered) :
      Response roster c client d (.error (.abort .fatal .internalError)) []
        [⟨n, c, .alpnChoose offered⟩]
  | selected {n : NegotiatorId} {offered : List ProtocolName} {p : ProtocolName}
      (h : Chooses roster c client d n offered (some p)) (hp : p ∈ offered) :
      Response roster c client d (.ok ()) [.alpn (.selected p)]
        [⟨n, c, .alpnChoose offered⟩, ⟨n, c, .alpnServerSelected p⟩]
  | advertised {n : NegotiatorId} {names : List ProtocolName}
      (h : Advertises roster c client d n names) :
      Response roster c client d (.ok ()) [.npn (.firsts names)] [⟨n, c, .advertises⟩]
  | silent (h : ∀ n offered choice, ¬ Chooses roster c client d n offered choice)
      (h' : ∀ n names, ¬ Advertises roster c client d n names) :
      Response roster c client d (.ok ()) [] []

section
variable {roster : Roster} {c : Connection} {client : Block} {d : Directory} {n : NegotiatorId}
  {offered names : List ProtocolName} {choice : Option ProtocolName} {e : Except Fault Unit}
  {added : List Extension} {made : List Call}

/-- Where there is a choice in ALPN, it decides. -/
theorem Response.of_chooses (h : Response roster c client d e added made)
    (hchoice : Chooses roster c client d n offered choice) :
    (e, added, made) = match choice with
      | none => (.error (.negotiation .alpn), [], [⟨n, c, .alpnChoose offered⟩])
      | some p =>
        if p ∈ offered then (.ok (), [.alpn (.selected p)],
          [⟨n, c, .alpnChoose offered⟩, ⟨n, c, .alpnServerSelected p⟩])
        else (.error (.abort .fatal .internalError), [], [⟨n, c, .alpnChoose offered⟩]) := by
  cases h with
  | declined h =>
    obtain ⟨rfl, rfl, rfl⟩ := h.unique hchoice
    rfl
  | foreign h hp =>
    obtain ⟨rfl, rfl, rfl⟩ := h.unique hchoice
    exact (if_neg hp).symm
  | selected h hp =>
    obtain ⟨rfl, rfl, rfl⟩ := h.unique hchoice
    exact (if_pos hp).symm
  | advertised h => exact absurd h hchoice.not_advertises
  | silent h h' => exact absurd hchoice (h n offered choice)

theorem Response.of_advertises (h : Response roster c client d e added made)
    (hnames : Advertises roster c client d n names) :
    e = .ok () ∧ added = [.npn (.firsts names)] ∧ made = [⟨n, c, .advertises⟩] := by
  cases h with
  | declined h | foreign h hp | selected h hp => exact absurd hnames h.not_advertises
  | advertised h =>
    obtain ⟨rfl, rfl⟩ := h.unique hnames
    exact ⟨rfl, rfl, rfl⟩
  | silent h h' => exact absurd hnames (h' n names)

theorem Response.of_error {why : Fault} (h : Response roster c client d (.error why) added made) :
    added = [] ∧ Call.selections made = [] ∧
      (why = .negotiation .alpn ∧ why.alert = .noApplicationProtocol ∨
        why = .abort .fatal .internalError) := by
  cases h with
  | declined h => exact ⟨rfl, rfl, .inl ⟨rfl, rfl⟩⟩
  | foreign h hp => exact ⟨rfl, rfl, .inr rfl⟩

theorem Response.declined_iff (h : Response roster c client d e added made) :
    e = .error (.negotiation .alpn) ↔ ∃ n offered, Chooses roster c client d n offered none := by
  constructor
  · rintro rfl
    cases h with
    | declined h => exact ⟨_, _, h⟩
  · rintro ⟨n, offered, hchoice⟩
    exact congrArg Prod.fst (h.of_chooses hchoice)

theorem Response.foreign_iff (h : Response roster c client d e added made) :
    e = .error (.abort .fatal .internalError) ↔
      ∃ n offered p, Chooses roster c client d n offered (some p) ∧ p ∉ offered := by
  constructor
  · rintro rfl
    cases h with
    | foreign h hp => exact ⟨_, _, _, h, hp⟩
  · rintro ⟨n, offered, p, hchoice, hp⟩
    have hall := h.of_chooses hchoice
    dsimp only at hall
    rw [if_neg hp] at hall
    exact congrArg Prod.fst hall

theorem Response.of_chosen {p : ProtocolName} (h : Response roster c client d e added made)
    (hchoice : Chooses roster c client d n offered (some p)) (hp : p ∈ offered) :
    added = [.alpn (.selected p)] ∧
      made = [⟨n, c, .alpnChoose offered⟩, ⟨n, c, .alpnServerSelected p⟩] := by
  have hall := h.of_chooses hchoice
  dsimp only at hall
  rw [if_pos hp] at hall
  cases hall
  exact ⟨rfl, rfl⟩

theorem Response.selected_iff (h : Response roster c client d e added made) (p : ProtocolName) :
    added = [.alpn (.selected p)] ↔
      ∃ n offered, Chooses roster c client d n offered (some p) ∧ p ∈ offered := by
  constructor
  · rintro rfl
    cases h with
    | selected h hp => exact ⟨_, _, h, hp⟩
  · rintro ⟨n, offered, hchoice, hp⟩
    exact (h.of_chosen hchoice hp).1

theorem Response.advertised_iff (h : Response roster c client d e added made) (npn : Npn) :
    added = [.npn npn] ↔
      ∃ n names, Advertises roster c client d n names ∧ npn.names = names.eraseDups := by
  constructor
  · rintro rfl
    cases h with
    | advertised h => exact ⟨_, _, h, rfl⟩
  · rintro ⟨n, names, hnames, hnpn⟩
    have hsame : npn = .firsts names := by
      cases npn
      cases hnpn
      rfl
    rw [hsame]
    exact (h.of_advertises hnames).2.1

/-- At most one extension is added, and without a selection among what is added nobody is told of
one. -/
theorem Response.added_cases (h : Response roster c client d e added made) :
    (added = [] ∧ Call.selections made = []) ∨ (∃ p, added = [.alpn (.selected p)]) ∨
      ∃ npn, added = [.npn npn] ∧ Call.selections made = [] := by
  cases h with
  | declined h | foreign h hp | silent h h' => exact .inl ⟨rfl, rfl⟩
  | @selected n offered p h hp => exact .inr (.inl ⟨p, rfl⟩)
  | advertised h => exact .inr (.inr ⟨_, rfl, rfl⟩)

end

variable (roster : Roster) (c : Connection) (client : Block) (x : Exchange)

theorem exists_response_advertise
    (h : client.alpn = none ∨ x.directory.lookup .alpnServer c = none) :
    ∃ e added made, Response roster c client x.directory e added made ∧
      Leaves x ((advertise roster c client).run x) e added made := by
  rw [Directory.lookup_eq_none_iff] at h
  rw [run_advertise]
  split
  · next n hnpn hfound =>
    obtain ⟨hbound, hlive⟩ := (Directory.lookup_eq_some_iff ..).mp hfound
    refine ⟨_, _, _, .advertised ⟨h, by rw [hnpn]; rfl, hbound, hlive, rfl⟩, rfl, ?_, rfl⟩
    rw [← Npn.ofNames_eq_firsts]
    rfl
  · next hnone =>
    refine ⟨_, _, _, .silent ?_ ?_, rfl, rfl, (List.append_nil _).symm⟩
    · exact fun n offered choice hchoice => hchoice.asked h
    · intro n names hnames
      obtain ⟨npn, hnpn⟩ := Option.isSome_iff_exists.mp hnames.wanted
      exact hnone npn n hnpn ((Directory.lookup_eq_some_iff ..).mpr ⟨hnames.bound, hnames.live⟩)

theorem exists_response :
    ∃ e added made, Response roster c client x.directory e added made ∧
      Leaves x ((respond roster c client).run x) e added made := by
  rw [run_respond]
  split
  · next alpn n halpn hfound =>
    have hoffers : ∃ alpn', client.alpn = some alpn' ∧ alpn'.names = alpn.names :=
      ⟨alpn, halpn, rfl⟩
    obtain ⟨hbound, hlive⟩ := (Directory.lookup_eq_some_iff ..).mp hfound
    rw [run_select]
    dsimp only
    split
    · next hchoice => exact ⟨_, _, _, .declined ⟨hoffers, hbound, hlive, hchoice⟩, rfl, rfl, rfl⟩
    · next p hchoice =>
      split
      · next hp =>
        refine ⟨_, _, _, .selected ⟨hoffers, hbound, hlive, hchoice⟩ hp, rfl, rfl, ?_⟩
        exact List.append_assoc ..
      · next hp => exact ⟨_, _, _, .foreign ⟨hoffers, hbound, hlive, hchoice⟩ hp, rfl, rfl, rfl⟩
  · next hnone =>
    refine exists_response_advertise roster c client x ?_
    cases halpn : client.alpn with
    | none => exact .inl rfl
    | some alpn =>
      right
      cases hfound : x.directory.lookup .alpnServer c with
      | none => rfl
      | some n => exact absurd hfound (hnone alpn n halpn)

/-- A server that fails leaves its hello as it was and tells nobody of a selection. It fails just
when its negotiator for ALPN chooses no name or one that was not offered. Otherwise it adds at most
one extension: the selection of the name chosen, and then tells that negotiator once and asks nobody
about NPN; or, where nobody is asked to choose, the names advertised in NPN, each where it stands
first. -/
theorem respond_all_or_nothing :
    ∃ r added made, (respond roster c client).run x = r ∧
      (left r).hello.members = x.hello.members ++ added ∧ (left r).calls = x.calls ++ made ∧
      (∀ why, ending r = .error why → (left r).hello = x.hello ∧ Call.selections made = [] ∧
        (why = .negotiation .alpn ∧ why.alert = .noApplicationProtocol ∨
          why = .abort .fatal .internalError)) ∧
      (ending r = .error (.negotiation .alpn) ↔
        ∃ n offered, Chooses roster c client x.directory n offered none) ∧
      (ending r = .error (.abort .fatal .internalError) ↔
        ∃ n offered p, Chooses roster c client x.directory n offered (some p) ∧ p ∉ offered) ∧
      (∀ p, added = [.alpn (.selected p)] ↔
        ∃ n offered, Chooses roster c client x.directory n offered (some p) ∧ p ∈ offered) ∧
      (∀ n offered p, Chooses roster c client x.directory n offered (some p) → p ∈ offered →
        Call.selections made = [⟨n, c, .alpnServerSelected p⟩] ∧
        ∀ k ∈ made, k.callback.role.mechanism = .alpn) ∧
      (∀ npn, added = [.npn npn] ↔
        ∃ n names, Advertises roster c client x.directory n names ∧
          npn.names = names.eraseDups) ∧
      ((added = [] ∧ Call.selections made = []) ∨ (∃ p, added = [.alpn (.selected p)]) ∨
        ∃ npn, added = [.npn npn] ∧ Call.selections made = []) := by
  obtain ⟨e, added, made, hresponse, hending, hhello, hcalls⟩ :=
    exists_response roster c client x
  refine ⟨_, added, made, rfl, ?_, hcalls, ?_, ?_, ?_, hresponse.selected_iff, ?_,
    hresponse.advertised_iff, hresponse.added_cases⟩
  · rw [hhello, Block.members_foldl_append]
  · intro why hwhy
    obtain ⟨rfl, hmade, hcauses⟩ := Response.of_error (hending.symm.trans hwhy ▸ hresponse)
    exact ⟨hhello, hmade, hcauses⟩
  · rw [hending]
    exact hresponse.declined_iff
  · rw [hending]
    exact hresponse.foreign_iff
  · intro n offered p hchoice hp
    obtain ⟨-, rfl⟩ := hresponse.of_chosen hchoice hp
    refine ⟨rfl, ?_⟩
    intro k hk
    simp only [List.mem_cons, List.not_mem_nil, or_false] at hk
    rcases hk with rfl | rfl
    · rfl
    · rfl

end Exchange

end HelloNegotiation
