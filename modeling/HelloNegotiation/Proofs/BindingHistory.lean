import HelloNegotiation.Proofs.CallsOfSteps
import HelloNegotiation.Proofs.DirectoryOperations

/-!
# A directory behaves as its history says

A history lists what was done to a directory that started empty, with the answers. What is found
there now is settled by the last event that binds a connection in a role or removes its binding,
and by the negotiators that have gone since. In a history the negotiators leave the directory alone
while they answer, and one that is gone is not bound any more.
-/
namespace HelloNegotiation

/-- At some event of the past `P` held, and at all the later ones `Q` did. -/
def Since {α : Type} (P Q : α → Prop) (past : List α) : Prop :=
  ∃ before e after, past = before ++ e :: after ∧ P e ∧ ∀ e' ∈ after, Q e'

theorem not_since_nil {α : Type} (P Q : α → Prop) : ¬ Since P Q [] := by
  rintro ⟨before, e, after, h, -⟩
  exact absurd h (by simp)

/-- One event later, either it is the one, or it was before and this one is no exception. -/
theorem since_append_singleton {α : Type} {P Q : α → Prop} {past : List α} {e : α} :
    Since P Q (past ++ [e]) ↔ P e ∨ Since P Q past ∧ Q e := by
  constructor
  · rintro ⟨before, e', after, h, hP, hQ⟩
    rcases List.eq_nil_or_concat after with rfl | ⟨after, last, rfl⟩
    · obtain ⟨-, hlast⟩ := List.append_inj' h rfl
      exact .inl (List.singleton_inj.mp hlast ▸ hP)
    · rw [List.concat_eq_append, ← List.cons_append, ← List.append_assoc] at h
      rw [List.concat_eq_append] at hQ
      obtain ⟨rfl, hlast⟩ := List.append_inj' h rfl
      obtain rfl := List.singleton_inj.mp hlast
      exact .inr ⟨⟨before, e', after, rfl, hP, fun a ha => hQ a (List.mem_append_left _ ha)⟩,
        hQ e (by simp)⟩
  · rintro (hP | ⟨⟨before, e', after, rfl, hP, hQ⟩, hlast⟩)
    · exact ⟨past, e, [], rfl, hP, nofun⟩
    · refine ⟨before, e', after ++ [e], by simp, hP, fun a ha => ?_⟩
      rcases List.mem_append.mp ha with ha | ha
      · exact hQ a ha
      · exact List.mem_singleton.mp ha ▸ hlast

/-- Something done to a directory, with the answer. -/
structure Event where
  action : Action
  answer : Answer

namespace Event

/-- A bind that succeeded. -/
def Binds (role : Role) (c : Connection) (n : NegotiatorId) (e : Event) : Prop :=
  e.action = .bind role c n ∧ e.answer.outcome = .said true

def Unbinds (role : Role) (c : Connection) (e : Event) : Prop :=
  e.action = .unbind role c ∨ e.action = .unbindAll c

/-- The event decides what is bound to the connection in the role from here on. -/
def Settles (role : Role) (c : Connection) (e : Event) : Prop :=
  (∃ n, e.Binds role c n) ∨ e.Unbinds role c

/-- The negotiator is gone from here on. -/
def Drops (n : NegotiatorId) (e : Event) : Prop := e.action = .drop n

end Event

/-- Whether the action is a step of a handshake. -/
def Action.IsStep : Action → Prop
  | offer .. | respond .. | conclude .. | notify .. => True
  | _ => False

/-- The connection that the action names. -/
def Action.connection? : Action → Option Connection
  | bind _ c _ | lookup _ c | unbind _ c | unbindAll c => some c
  | offer c _ | respond c _ _ | conclude c _ | notify c _ => some c
  | size _ | drop _ => none

/-- A negotiator that is gone cannot be bound; nothing else is ruled out. -/
def Action.Possible (d : Directory) : Action → Prop
  | bind _ _ n => d.isLive n
  | _ => True

/-- Each of the actions is possible when its turn comes. -/
def Action.AllPossible (roster : Roster) : Directory → List Action → Prop
  | _, [] => True
  | d, a :: actions => a.Possible d ∧ AllPossible roster (a.perform roster d).2 actions

/-- The histories of a directory that starts empty. From one action to the next the negotiators may
come to behave differently. -/
inductive Reached : List Event → Directory → Prop
  | start : Reached [] .empty
  | step {past : List Event} {d : Directory} {roster : Roster} {a : Action} (h : Reached past d)
      (hquiet : roster.Quiet d) (ha : a.Possible d) :
      Reached (past ++ [⟨a, (a.perform roster d).1⟩]) (a.perform roster d).2

section
variable {roster : Roster} {d : Directory}

namespace Action

/-- A step of a handshake leaves the directory as it is, and calls none but those found there for
the connection that it names. -/
theorem perform_step (hquiet : roster.Quiet d) (a : Action) (ha : a.IsStep) :
    ∃ c, a.connection? = some c ∧ (a.perform roster d).2 = d ∧
      ∀ k ∈ (a.perform roster d).1.calls, k.connection = c ∧ d.Finds k := by
  cases a with
  | offer c hello =>
    exact ⟨c, rfl, step_of_continues (Exchange.continues_offer c hquiet) _⟩
  | respond c client server =>
    exact ⟨c, rfl, step_of_continues (Exchange.continues_respond c hquiet client) _⟩
  | conclude c server =>
    exact ⟨c, rfl, step_of_continues (Exchange.continues_conclude c hquiet server) _⟩
  | notify c name =>
    exact ⟨c, rfl, step_of_continues (Exchange.continues_notify c hquiet name) _⟩
  | bind | lookup | unbind | unbindAll | size | drop => exact absurd ha id

theorem directory_perform (hquiet : roster.Quiet d) (a : Action) (ha : a.IsStep) :
    (a.perform roster d).2 = d := by
  obtain ⟨-, -, hdirectory, -⟩ := perform_step hquiet a ha
  exact hdirectory

/-- Nothing but a step of a handshake calls anybody. -/
theorem calls_perform_eq_nil {a : Action} (ha : ¬ a.IsStep) :
    (a.perform roster d).1.calls = [] := by
  cases a with
  | offer | respond | conclude | notify => exact absurd trivial ha
  | bind | lookup | unbind | unbindAll | size | drop => rfl

theorem finds_of_mem_calls (hquiet : roster.Quiet d) (a : Action) {k : Call}
    (hk : k ∈ (a.perform roster d).1.calls) :
    a.connection? = some k.connection ∧ d.Finds k := by
  by_cases ha : a.IsStep
  · obtain ⟨c, hnames, -, hcalls⟩ := perform_step hquiet a ha
    obtain ⟨rfl, hfinds⟩ := hcalls k hk
    exact ⟨hnames, hfinds⟩
  · rw [calls_perform_eq_nil ha] at hk
    exact absurd hk List.not_mem_nil

theorem outcome_perform_bind (role : Role) (c : Connection) (n : NegotiatorId) :
    ((bind role c n).perform roster d).1.outcome = .said true ↔ d.lookup role c = none := by
  by_cases h : d.lookup role c = none
  · simp [perform, Directory.bind_of_none d role c n h, h]
  · simp [perform, Directory.bind_of_ne_none d role c n h, h]

end Action
open Event

variable (hquiet : roster.Quiet d) (a : Action) (role : Role) (c : Connection) (n : NegotiatorId)
include hquiet

/-- What is bound after an action: what the action binds, or what was bound if it does not settle
that. -/
theorem Action.bound_perform : (a.perform roster d).2.bound role c = some n ↔
    Binds role c n ⟨a, (a.perform roster d).1⟩ ∨
      d.bound role c = some n ∧ ¬ Settles role c ⟨a, (a.perform roster d).1⟩ := by
  have hstep := directory_perform hquiet a
  cases a with
  | bind role' c' m =>
    simp only [Settles, Binds, Unbinds, outcome_perform_bind]
    show (d.bind role' c' m).2.bound role c = some n ↔ _
    by_cases h : d.lookup role' c' = none
    · rw [d.bound_bind role' role c' c m h]
      by_cases hsame : role' = role ∧ c' = c
      · obtain ⟨rfl, rfl⟩ := hsame
        simp [h]
      · have hother : ∀ m', Action.bind role' c' m ≠ .bind role c m' := by
          rintro m' ⟨⟩
          exact hsame ⟨rfl, rfl⟩
        simp [hsame, hother]
    · rw [d.bind_of_ne_none role' c' m h]
      simp [h]
  | unbind role' c' =>
    show (d.unbind role' c').2.bound role c = some n ↔ _
    rw [d.bound_unbind role' role c' c]
    by_cases hsame : role' = role ∧ c' = c
    · simp [Settles, Binds, Unbinds, hsame]
    · simp [Settles, Binds, Unbinds, hsame]
  | unbindAll c' =>
    show (d.unbindAll c').bound role c = some n ↔ _
    rw [d.bound_unbindAll role c' c]
    by_cases hsame : c' = c
    · simp [Settles, Binds, Unbinds, hsame]
    · simp [Settles, Binds, Unbinds, hsame]
  | drop m =>
    have hbound : (d.drop m).bound role c = d.bound role c := by cases role <;> rfl
    simp [perform, Settles, Binds, Unbinds, hbound]
  | lookup | size => simp [perform, Settles, Binds, Unbinds]
  | offer | respond | conclude | notify =>
    rw [hstep trivial]
    simp [Settles, Binds, Unbinds]

/-- Only a drop ends a negotiator. -/
theorem Action.isLive_perform : (a.perform roster d).2.isLive n ↔
    d.isLive n ∧ ¬ Drops n ⟨a, (a.perform roster d).1⟩ := by
  have hstep := directory_perform hquiet a
  cases a with
  | bind | unbind | unbindAll | lookup | size => simp [perform, Drops]
  | drop m =>
    show (d.drop m).isLive n ↔ _
    rw [d.isLive_drop n m]
    simp [Drops, eq_comm (a := n)]
  | offer | respond | conclude | notify =>
    rw [hstep trivial]
    simp [Drops]

/-- What is found after an action: what the action binds, or what was found if it neither settles
that nor drops the negotiator. -/
theorem Action.lookup_perform (ha : a.Possible d) :
    (a.perform roster d).2.lookup role c = some n ↔
      Binds role c n ⟨a, (a.perform roster d).1⟩ ∨
        d.lookup role c = some n ∧ ¬ Settles role c ⟨a, (a.perform roster d).1⟩ ∧
          ¬ Drops n ⟨a, (a.perform roster d).1⟩ := by
  rw [Directory.lookup_eq_some_iff, bound_perform hquiet, isLive_perform hquiet,
    Directory.lookup_eq_some_iff]
  constructor
  · rintro ⟨hbinds | ⟨hbound, hsettles⟩, hlive, hdrops⟩
    · exact .inl hbinds
    · exact .inr ⟨⟨hbound, hlive⟩, hsettles, hdrops⟩
  · rintro (hbinds | ⟨⟨hbound, hlive⟩, hsettles, hdrops⟩)
    · have hbind : a = .bind role c n := hbinds.1
      subst hbind
      exact ⟨.inl hbinds, ha, nofun⟩
    · exact ⟨.inr ⟨hbound, hsettles⟩, hlive, hdrops⟩

end

/-- A directory that behaves as its history says. -/
structure Directory.Behaves (d : Directory) (past : List Event) : Prop where
  /-- What is found is what was bound by the last event that settles this, unless it is gone. -/
  lookup : ∀ role c n, d.lookup role c = some n ↔
    Since (Event.Binds role c n) (fun e => ¬ e.Settles role c ∧ ¬ e.Drops n) past
  /-- A bind succeeds just when nothing is found; one that fails changes nothing. -/
  bind : ∀ role c n, ((d.bind role c n).1 = true ↔ d.lookup role c = none) ∧
    ((d.bind role c n).1 = false → (d.bind role c n).2 = d)
  /-- An unbind gives what is found, and leaves nothing for the next one. -/
  unbind : ∀ role c, (d.unbind role c).1 = d.lookup role c ∧
    (d.unbind role c).2.bound role c = none ∧ ((d.unbind role c).2.unbind role c).1 = none
  /-- The size of a role counts the connections for which the last event that settles them was a
  bind, whether or not the negotiator is gone. -/
  size : ∀ role, ∃ cs : Finset Connection, cs.card = d.size role ∧
    ∀ c, c ∈ cs ↔ ∃ n, Since (Event.Binds role c n) (fun e => ¬ e.Settles role c) past
  /-- Whatever is done next, none are called but the negotiators found, each in the role it has for
  the connection that the action names. -/
  calls : ∀ roster : Roster, roster.Quiet d → ∀ a : Action, ∀ k ∈ (a.perform roster d).1.calls,
    a.connection? = some k.connection ∧
      d.lookup k.callback.role k.connection = some k.negotiator

namespace Reached
variable {past : List Event} {d : Directory} (h : Reached past d)
include h

theorem bound_iff (role : Role) (c : Connection) (n : NegotiatorId) : d.bound role c = some n ↔
    Since (Event.Binds role c n) (fun e => ¬ e.Settles role c) past := by
  induction h with
  | start => simp [not_since_nil]
  | step _ hquiet _ ih =>
    rw [since_append_singleton, Action.bound_perform hquiet, ih]

theorem lookup_iff (role : Role) (c : Connection) (n : NegotiatorId) :
    d.lookup role c = some n ↔
      Since (Event.Binds role c n) (fun e => ¬ e.Settles role c ∧ ¬ e.Drops n) past := by
  induction h with
  | start => simp [not_since_nil, Directory.lookup_eq_some_iff]
  | step _ hquiet ha ih =>
    rw [since_append_singleton, Action.lookup_perform hquiet _ _ _ _ ha, ih]

/-- After every history the directory behaves as this history says. -/
theorem behaves : d.Behaves past where
  lookup := h.lookup_iff
  bind role c n := by
    by_cases hnone : d.lookup role c = none
    · simp [d.bind_of_none role c n hnone, hnone]
    · simp [d.bind_of_ne_none role c n hnone, hnone]
  unbind role c := by
    have hunbound : (d.unbind role c).2.bound role c = none := by simp [d.bound_unbind]
    refine ⟨rfl, hunbound, ?_⟩
    show (d.unbind role c).2.lookup role c = none
    rw [Option.eq_none_iff_forall_ne_some]
    intro n hn
    rw [Directory.lookup_eq_some_iff, hunbound] at hn
    cases hn.1
  size role := by
    obtain ⟨cs, hcard, hmem⟩ := d.exists_card_eq_size role
    exact ⟨cs, hcard, fun c => (hmem c).trans (exists_congr (h.bound_iff role c))⟩
  calls roster hquiet a k hk := Action.finds_of_mem_calls hquiet a hk

/-- A run of actions goes on from a history, as long as each of them is possible when it comes. -/
theorem run {roster : Roster} (hquiet : ∀ d, roster.Quiet d) {actions : List Action}
    (hall : Action.AllPossible roster d actions) :
    Reached (past ++ List.zipWith Event.mk actions (Action.run roster d actions).1)
      (Action.run roster d actions).2 := by
  induction actions generalizing past d with
  | nil =>
    rw [List.zipWith_nil_left, List.append_nil]
    exact h
  | cons a actions ih =>
    have hrest := ih (h.step (hquiet d) hall.1) hall.2
    rw [List.append_assoc] at hrest
    exact hrest

end Reached

/-- A connection whose negotiator goes gets another one, which is then found and called. -/
private def rebinding : List Action :=
  [.bind .alpnClient ⟨1⟩ ⟨0⟩, .bind .alpnClient ⟨1⟩ ⟨1⟩, .drop ⟨0⟩, .lookup .alpnClient ⟨1⟩,
    .size .alpnClient, .bind .alpnClient ⟨1⟩ ⟨1⟩, .offer ⟨1⟩ .empty]

private def offering : Roster := fun _ => Script.negotiator { protocols := [.h2] }

theorem behaves_after_rebinding :
    let answers := (Action.run offering .empty rebinding).1
    let d := (Action.run offering .empty rebinding).2
    Reached (List.zipWith Event.mk rebinding answers) d ∧
      d.Behaves (List.zipWith Event.mk rebinding answers) ∧
      (answers.take 6).map Answer.outcome =
        [.said true, .said false, .done, .found none, .counted 1, .said true] ∧
      answers.flatMap Answer.calls = [⟨⟨1⟩, ⟨1⟩, .offers⟩] := by
  have hquiet : ∀ d, offering.Quiet d := fun d n c => Script.quiet_negotiator rfl d c
  have hall : Action.AllPossible offering .empty rebinding :=
    ⟨rfl, rfl, trivial, trivial, trivial, rfl, trivial, trivial⟩
  have hreached := Reached.start.run hquiet hall
  exact ⟨hreached, Reached.behaves hreached, rfl, rfl⟩

end HelloNegotiation
