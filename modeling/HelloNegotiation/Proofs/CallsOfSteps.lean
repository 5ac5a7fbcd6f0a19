import HelloNegotiation.Negotiation.History
import HelloNegotiation.Proofs.QuietNegotiators

/-!
# Whom the steps of a handshake call

As long as the negotiators leave the directory alone, a step calls none but those found there, each
in the role that it has for the connection of the step. A step that fails half way is no different.
-/
namespace HelloNegotiation

/-- Negotiators that leave the directory as it is, whatever they are asked. -/
def Roster.Quiet (roster : Roster) (d : Directory) : Prop := ∀ n c, (roster n).Quiet d c

/-- The negotiator called is the one found for the connection in its role. -/
def Directory.Finds (d : Directory) (k : Call) : Prop :=
  d.lookup k.callback.role k.connection = some k.negotiator

namespace Exchange

/-- The second exchange goes on from the first for a connection: the directory is the same, and the
calls in between are for this connection, to negotiators found there. -/
structure Continues (c : Connection) (x y : Exchange) : Prop where
  directory : y.directory = x.directory
  calls : ∀ k ∈ y.calls, k ∈ x.calls ∨ k.connection = c ∧ x.directory.Finds k

/-- The exchange that a step leaves, also when it fails. -/
def left {α : Type} : EStateM.Result Fault Exchange α → Exchange
  | .ok _ x => x
  | .error _ x => x

/-- What a step gives, or the fault that it ends with. -/
def ending {α : Type} : EStateM.Result Fault Exchange α → Except Fault α
  | .ok a _ => .ok a
  | .error f _ => .error f

/-- What a step ends with, and what it leaves after it has added to the message and made calls. -/
structure Leaves {α : Type} (x : Exchange) (r : EStateM.Result Fault Exchange α)
    (e : Except Fault α) (added : List Extension) (made : List Call) : Prop where
  ending : ending r = e
  hello : (left r).hello = added.foldl Block.append x.hello
  calls : (left r).calls = x.calls ++ made

section
variable {α β : Type} {c : Connection} {x y z : Exchange}

theorem Leaves.unique {r : EStateM.Result Fault Exchange α} {e e' : Except Fault α}
    {added added' : List Extension} {made made' : List Call} (h : Leaves x r e added made)
    (h' : Leaves x r e' added' made') : e' = e ∧ made' = made := by
  refine ⟨h'.ending.symm.trans h.ending, ?_⟩
  exact List.append_cancel_left (h'.calls.symm.trans h.calls)

theorem Continues.refl (c : Connection) (x : Exchange) : Continues c x x :=
  ⟨rfl, fun _ hk => .inl hk⟩

theorem Continues.trans (hxy : Continues c x y) (hyz : Continues c y z) : Continues c x z := by
  refine ⟨hyz.directory.trans hxy.directory, fun k hk => ?_⟩
  rcases hyz.calls k hk with hy | ⟨hc, hfinds⟩
  · exact hxy.calls k hy
  · exact .inr ⟨hc, hxy.directory ▸ hfinds⟩

theorem Continues.add (h : Continues c x y) (e : Extension) : Continues c x (y.add e) :=
  ⟨h.directory, h.calls⟩

theorem Continues.after (h : Continues c x y) {n : NegotiatorId} {callback : Callback}
    {answer : StateM Directory α} (hfinds : x.directory.Finds ⟨n, c, callback⟩)
    (hquiet : (answer.run x.directory).2 = x.directory) :
    Continues c x (y.after ⟨n, c, callback⟩ answer) := by
  constructor
  · rw [Exchange.after, h.directory]
    exact hquiet
  · intro k hk
    rcases List.mem_append.mp hk with hy | hk
    · exact h.calls k hy
    · obtain rfl := List.mem_singleton.mp hk
      exact .inr ⟨rfl, hfinds⟩

/-- A step goes on from where the step before it ended. -/
theorem continues_bind {s : Step α} {f : α → Step β} (hs : Continues c x (left (s.run x)))
    (hf : ∀ a y, Continues c x y → Continues c y (left ((f a).run y))) :
    Continues c x (left ((s >>= f).run x)) := by
  rw [EStateM.run_bind]
  cases h : s.run x with
  | error f y =>
    rw [h] at hs
    exact hs
  | ok a y =>
    rw [h] at hs
    exact hs.trans (hf a y hs)

end

variable {roster : Roster} (c : Connection) {x : Exchange}

theorem continues_offerAlpn (hquiet : roster.Quiet x.directory) :
    Continues c x (left ((offerAlpn roster c).run x)) := by
  rw [run_offerAlpn]
  cases hn : x.directory.lookup .alpnClient c with
  | none => exact .refl c x
  | some n =>
    have hasked : Continues c x (x.after ⟨n, c, .offers⟩ ((roster n).alpnClient.offers c)) :=
      (Continues.refl c x).after hn (hquiet n c).offers
    exact hasked.add _

theorem continues_offerNpn (hquiet : roster.Quiet x.directory) :
    Continues c x (left ((offerNpn roster c).run x)) := by
  rw [run_offerNpn]
  cases hn : x.directory.lookup .npnClient c with
  | none => exact .refl c x
  | some n =>
    have hasked : Continues c x (x.after ⟨n, c, .wants⟩ ((roster n).npnClient.wants c)) :=
      (Continues.refl c x).after hn (hquiet n c).wants
    dsimp only [left]
    split
    · exact hasked.add _
    · exact hasked

theorem continues_offer (hquiet : roster.Quiet x.directory) :
    Continues c x (left ((offer roster c).run x)) :=
  continues_bind (continues_offerAlpn c hquiet) fun _ _ hy =>
    continues_offerNpn c (hy.directory ▸ hquiet)

theorem continues_select (hquiet : roster.Quiet x.directory) {n : NegotiatorId}
    (hn : x.directory.lookup .alpnServer c = some n) (offered : List ProtocolName) :
    Continues c x (left ((select roster c n offered).run x)) := by
  have hasked : Continues c x
      (x.after ⟨n, c, .alpnChoose offered⟩ ((roster n).alpnServer.choose c offered)) :=
    (Continues.refl c x).after hn ((hquiet n c).alpnChoose offered)
  rw [run_select]
  dsimp only
  split
  · exact hasked
  · next p _ =>
    split
    · exact (hasked.add _).after hn ((hquiet n c).alpnServerSelected p)
    · exact hasked

theorem continues_advertise (hquiet : roster.Quiet x.directory) (client : Block) :
    Continues c x (left ((advertise roster c client).run x)) := by
  rw [run_advertise]
  split
  · next n _ hn =>
    have hasked : Continues c x (x.after ⟨n, c, .advertises⟩ ((roster n).npnServer.advertises c)) :=
      (Continues.refl c x).after hn (hquiet n c).advertises
    exact hasked.add _
  · exact .refl c x

theorem continues_respond (hquiet : roster.Quiet x.directory) (client : Block) :
    Continues c x (left ((respond roster c client).run x)) := by
  rw [run_respond]
  split
  · next hn => exact continues_select c hquiet hn _
  · exact continues_advertise c hquiet client

theorem continues_takeSelection (hquiet : roster.Quiet x.directory) (alpn : Alpn) :
    Continues c x (left ((takeSelection roster c alpn).run x)) := by
  cases alpn with
  | offered => exact .refl c x
  | selected p =>
    rw [run_takeSelection]
    cases hn : x.directory.lookup .alpnClient c with
    | none => exact .refl c x
    | some n => exact (Continues.refl c x).after hn ((hquiet n c).alpnClientSelected p)

theorem continues_chooseAdvertised (hquiet : roster.Quiet x.directory) (npn : Npn) :
    Continues c x (left ((chooseAdvertised roster c npn).run x)) := by
  rw [run_chooseAdvertised]
  cases hn : x.directory.lookup .npnClient c with
  | none => exact .refl c x
  | some n =>
    have hasked : Continues c x
        (x.after ⟨n, c, .npnChoose npn.names⟩ ((roster n).npnClient.choose c npn.names)) :=
      (Continues.refl c x).after hn ((hquiet n c).npnChoose npn.names)
    dsimp only
    split
    · exact hasked
    · next p _ => exact hasked.after hn ((hquiet n c).npnClientSelected p)

theorem continues_conclude (hquiet : roster.Quiet x.directory) (server : Block) :
    Continues c x (left ((conclude roster c server).run x)) := by
  unfold conclude
  split
  · exact continues_takeSelection c hquiet _
  · split
    · exact continues_chooseAdvertised c hquiet _
    · exact .refl c x

theorem run_notify (roster : Roster) (x : Exchange) (p : ProtocolName) :
    (notify roster c p).run x =
      match x.directory.lookup .npnServer c with
      | none => .ok false x
      | some n => .ok true
          (x.after ⟨n, c, .npnServerSelected p⟩ ((roster n).npnServer.selected c p)) := by
  simp only [notify, EStateM.run_bind, run_lookup]
  cases x.directory.lookup .npnServer c <;> rfl

theorem continues_notify (hquiet : roster.Quiet x.directory) (p : ProtocolName) :
    Continues c x (left ((notify roster c p).run x)) := by
  rw [run_notify]
  cases hn : x.directory.lookup .npnServer c with
  | none => exact .refl c x
  | some n => exact (Continues.refl c x).after hn ((hquiet n c).npnServerSelected p)

end Exchange

namespace Action

/-- A step of a handshake, on its own, leaves the directory as it is and calls none but those found
there for its connection. -/
theorem step_of_continues {α : Type} {s : Step α} {c : Connection} {hello : Block} {d : Directory}
    (h : Exchange.Continues c ⟨d, hello, []⟩ (Exchange.left (s.run ⟨d, hello, []⟩)))
    (outcome : Except Fault α → Block → Outcome) :
    (step s hello d outcome).2 = d ∧
      ∀ k ∈ (step s hello d outcome).1.calls, k.connection = c ∧ d.Finds k := by
  have hfinds : ∀ y, Exchange.Continues c ⟨d, hello, []⟩ y →
      ∀ k ∈ y.calls, k.connection = c ∧ d.Finds k := by
    intro y hy k hk
    exact (hy.calls k hk).resolve_left List.not_mem_nil
  unfold step
  cases hrun : s.run ⟨d, hello, []⟩ with
  | ok a y =>
    rw [hrun] at h
    exact ⟨h.directory, hfinds y h⟩
  | error f y =>
    rw [hrun] at h
    exact ⟨h.directory, hfinds y h⟩

end Action

end HelloNegotiation
