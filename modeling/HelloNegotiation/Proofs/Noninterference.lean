import HelloNegotiation.Proofs.BindingHistory
import HelloNegotiation.Proofs.LocalSteps

/-!
# Connections do not interfere, and neither do roles

A place is a role of a connection. Directories agree on some places when the same is bound there and
the same negotiators are gone. An action that touches none of these places keeps the agreement, and
so does any action done to both directories; an action that consults these places alone has the same
answer in both. So whatever touches none of the places that are watched can be left out of a run
(`events_filter`).
-/
namespace HelloNegotiation

namespace Directory

/-- The same is bound at the places in `P`, and the same negotiators are gone. -/
structure Agree (P : Role → Connection → Prop) (d d' : Directory) : Prop where
  bound : ∀ role c, P role c → d.bound role c = d'.bound role c
  isLive : ∀ n, d.isLive n = d'.isLive n

variable {P : Role → Connection → Prop} {d d' : Directory} {role : Role} {c : Connection}

theorem Agree.refl (P : Role → Connection → Prop) (d : Directory) : Agree P d d :=
  ⟨fun _ _ _ => rfl, fun _ => rfl⟩

theorem Agree.lookup (h : Agree P d d') (hp : P role c) : d.lookup role c = d'.lookup role c := by
  have hbound : (d.table role)[c.number]? = (d'.table role)[c.number]? := h.bound role c hp
  have hlive : d.isLive = d'.isLive := funext h.isLive
  rw [Directory.lookup, Directory.lookup, hbound, hlive]

theorem Agree.size (h : Agree P d d') (hp : ∀ c, P role c) : d.size role = d'.size role := by
  obtain ⟨cs, hcard, hmem⟩ := d.exists_card_eq_size role
  obtain ⟨cs', hcard', hmem'⟩ := d'.exists_card_eq_size role
  have hsame : cs = cs' := by
    ext c
    rw [hmem, hmem', h.bound role c (hp c)]
  rw [← hcard, ← hcard', hsame]

end Directory
open Directory (Agree)

namespace Action

/-- The action may change what is bound at the place. -/
def Touches (role : Role) (c : Connection) : Action → Prop
  | bind role' c' _ | unbind role' c' => role' = role ∧ c' = c
  | unbindAll c' => c' = c
  | _ => False

/-- The answer to the action depends on what is found at the place. -/
def Consults (role : Role) (c : Connection) : Action → Prop
  | bind role' c' _ | lookup role' c' | unbind role' c' => role' = role ∧ c' = c
  | size role' => role' = role
  | offer c' _ | respond c' _ _ | conclude c' _ | notify c' _ => c' = c
  | unbindAll _ | drop _ => False

/-- The one role that the action asks about. -/
def role? : Action → Option Role
  | bind role _ _ | lookup role _ | unbind role _ | size role => some role
  | _ => none

/-- The action binds or unbinds in the role. -/
def Rebinds (role : Role) : Action → Prop
  | bind role' _ _ | unbind role' _ => role' = role
  | _ => False

instance (role : Role) : DecidablePred (Rebinds role) := fun a => by
  cases a <;> unfold Rebinds <;> infer_instance

variable {P : Role → Connection → Prop} {roster : Roster} {d d' : Directory} {role : Role}
  {c : Connection} {n : NegotiatorId} {a : Action}

theorem touches_of_binds {answer : Answer} (h : Event.Binds role c n ⟨a, answer⟩) :
    a.Touches role c := by
  obtain ⟨rfl, -⟩ := h
  exact ⟨rfl, rfl⟩

theorem touches_of_settles {answer : Answer} (h : Event.Settles role c ⟨a, answer⟩) :
    a.Touches role c := by
  rcases h with ⟨n, hbinds⟩ | rfl | rfl
  · exact touches_of_binds hbinds
  · exact ⟨rfl, rfl⟩
  · exact rfl

theorem connection?_of_touches (h : a.Touches role c) : a.connection? = some c := by
  cases a with
  | bind | unbind => exact congrArg some h.2
  | unbindAll => exact congrArg some h
  | lookup | size | drop | offer | respond | conclude | notify => exact absurd h id

theorem connection_of_consults {c' : Connection} (ha : a.connection? = some c')
    (h : a.Consults role c) : c = c' := by
  cases a with
  | bind | lookup | unbind => exact h.2.symm.trans (Option.some.inj ha)
  | offer | respond | conclude | notify => exact h.symm.trans (Option.some.inj ha)
  | size => cases ha
  | unbindAll | drop => exact absurd h id

theorem role_of_consults {role' : Role} (ha : a.role? = some role') (h : a.Consults role c) :
    role = role' := by
  cases a with
  | bind | lookup | unbind => exact h.1.symm.trans (Option.some.inj ha)
  | size => exact h.symm.trans (Option.some.inj ha)
  | unbindAll | drop | offer | respond | conclude | notify => cases ha

theorem role?_of_rebinds (h : a.Rebinds role) : a.role? = some role := by
  cases a with
  | bind | unbind => exact congrArg some h
  | lookup | unbindAll | size | drop | offer | respond | conclude | notify => exact absurd h id

theorem role_of_rebinds {role' : Role} (ha : a.Rebinds role') (h : a.Touches role c) :
    role = role' := by
  cases a with
  | bind | unbind => exact h.1.symm.trans ha
  | lookup | unbindAll | size | drop | offer | respond | conclude | notify => exact absurd ha id

/-- What an action does at a place where two directories agree is the same in both. -/
theorem binds_perform_iff (h : Agree P d d') (hp : P role c) :
    Event.Binds role c n ⟨a, (a.perform roster d).1⟩ ↔
      Event.Binds role c n ⟨a, (a.perform roster d').1⟩ := by
  simp only [Event.Binds]
  refine and_congr_right ?_
  rintro rfl
  rw [outcome_perform_bind, outcome_perform_bind, h.lookup hp]

theorem settles_perform_iff (h : Agree P d d') (hp : P role c) :
    Event.Settles role c ⟨a, (a.perform roster d).1⟩ ↔
      Event.Settles role c ⟨a, (a.perform roster d').1⟩ :=
  or_congr (exists_congr fun _ => binds_perform_iff h hp) Iff.rfl

/-- Directories agree on the same places after the same action. -/
theorem agree_perform (hsteady : roster.Steady) (h : Agree P d d') (a : Action) :
    Agree P (a.perform roster d).2 (a.perform roster d').2 := by
  constructor
  · intro role c hp
    ext n
    rw [bound_perform (hsteady.quiet d), bound_perform (hsteady.quiet d'), binds_perform_iff h hp,
      settles_perform_iff h hp, h.bound role c hp]
  · intro n
    rw [Bool.eq_iff_iff, isLive_perform (hsteady.quiet d), isLive_perform (hsteady.quiet d'),
      h.isLive]
    exact Iff.rfl

/-- Directories agree on the same places after an action that touches none of them in one. -/
theorem agree_perform_left (hsteady : roster.Steady) (h : Agree P d d')
    (hdrop : ∀ n, a ≠ .drop n) (htouches : ∀ role c, a.Touches role c → ¬ P role c) :
    Agree P (a.perform roster d).2 d' := by
  constructor
  · intro role c hp
    have hnot : ¬ a.Touches role c := fun ha => htouches role c ha hp
    rw [← h.bound role c hp]
    ext n
    rw [bound_perform (hsteady.quiet d)]
    constructor
    · rintro (hbinds | ⟨hbound, -⟩)
      · exact absurd (touches_of_binds hbinds) hnot
      · exact hbound
    · exact fun hbound => .inr ⟨hbound, fun hsettles => hnot (touches_of_settles hsettles)⟩
  · intro n
    rw [← h.isLive, Bool.eq_iff_iff, isLive_perform (hsteady.quiet d)]
    exact and_iff_left (hdrop n)

/-- An action has the same answer where directories agree on all that it consults. -/
theorem answer_perform (hsteady : roster.Steady) (h : Agree P d d')
    (hconsults : ∀ role c, a.Consults role c → P role c) :
    (a.perform roster d).1 = (a.perform roster d').1 := by
  cases a with
  | bind role c n =>
    have hlookup := h.lookup (hconsults role c ⟨rfl, rfl⟩)
    simp only [perform, Directory.bind, hlookup]
    cases d'.lookup role c <;> rfl
  | lookup role c => simp only [perform, h.lookup (hconsults role c ⟨rfl, rfl⟩)]
  | unbind role c => simp only [perform, Directory.unbind, h.lookup (hconsults role c ⟨rfl, rfl⟩)]
  | size role => simp only [perform, h.size fun c => hconsults role c rfl]
  | unbindAll | drop => rfl
  | offer c hello =>
    have hfound := fun role => h.lookup (hconsults role c rfl)
    exact answer_step_of_local (Exchange.local_offer hsteady c) hello hfound _
  | respond c client server =>
    have hfound := fun role => h.lookup (hconsults role c rfl)
    exact answer_step_of_local (Exchange.local_respond hsteady c client) server hfound _
  | conclude c server =>
    have hfound := fun role => h.lookup (hconsults role c rfl)
    exact answer_step_of_local (Exchange.local_conclude hsteady c server) .empty hfound _
  | notify c name =>
    have hfound := fun role => h.lookup (hconsults role c rfl)
    exact answer_step_of_local (Exchange.local_notify hsteady c name) .empty hfound _

/-- The events of a run. -/
def events (roster : Roster) (d : Directory) (actions : List Action) : List Event :=
  List.zipWith Event.mk actions (run roster d actions).1

theorem events_cons (roster : Roster) (d : Directory) (a : Action) (actions : List Action) :
    events roster d (a :: actions) =
      ⟨a, (a.perform roster d).1⟩ :: events roster (a.perform roster d).2 actions := rfl

/-- Actions that touch none of the places in `P` can be left out of a run without a change to the
events that are watched, if these consult no other places. -/
theorem events_filter (hsteady : roster.Steady) (kept watched : Action → Prop)
    [DecidablePred kept] [DecidablePred watched] (h : Agree P d d')
    (hkept : ∀ a, ¬ kept a → ¬ watched a ∧ (∀ n, a ≠ .drop n) ∧
      ∀ role c, a.Touches role c → ¬ P role c)
    (hwatched : ∀ a, watched a → ∀ role c, a.Consults role c → P role c) (actions : List Action) :
    (events roster d actions).filter (fun e => watched e.action) =
      (events roster d' (actions.filter fun a => kept a)).filter (fun e => watched e.action) := by
  induction actions generalizing d d' with
  | nil => rfl
  | cons a actions ih =>
    rw [events_cons, List.filter_cons]
    by_cases ha : kept a
    · have hkeep : (a :: actions).filter (fun a => kept a) =
          a :: actions.filter (fun a => kept a) := List.filter_cons_of_pos (by simpa using ha)
      rw [hkeep, events_cons, List.filter_cons, ih (agree_perform hsteady h a)]
      by_cases hw : watched a
      · rw [answer_perform hsteady h (hwatched a hw)]
      · simp only [hw, decide_false, Bool.false_eq_true, if_false]
    · obtain ⟨hw, hdrop, htouches⟩ := hkept a ha
      have hskip : (a :: actions).filter (fun a => kept a) = actions.filter (fun a => kept a) :=
        List.filter_cons_of_neg (by simpa using ha)
      rw [hskip, if_neg (by simpa using hw)]
      exact ih (agree_perform_left hsteady h hdrop htouches)

/-- In a run over one directory, leaving out what names another connection changes nothing about a
connection: what its actions are answered, the messages they leave and the calls they make. And
leaving out what is bound and unbound in one role changes no answer that is about another role. -/
theorem events_without_interference (hsteady : roster.Steady) (d : Directory)
    (actions : List Action) :
    (∀ c, (events roster d actions).filter (fun e => e.action.connection? = some c) =
      (events roster d (actions.filter fun a => ∀ c' ∈ a.connection?, c' = c)).filter
        (fun e => e.action.connection? = some c)) ∧
    (∀ role role', role' ≠ role →
      (events roster d actions).filter (fun e => e.action.role? = some role') =
        (events roster d (actions.filter fun a => ¬ a.Rebinds role)).filter
          (fun e => e.action.role? = some role')) := by
  constructor
  · intro c
    refine events_filter hsteady (fun a => ∀ c' ∈ a.connection?, c' = c)
      (fun a => a.connection? = some c) (Agree.refl (fun _ c' => c' = c) d) ?_ ?_ actions
    · intro a ha
      obtain ⟨c', hc', hne⟩ : ∃ c', a.connection? = some c' ∧ c' ≠ c := by simpa using ha
      refine ⟨by simpa [hc'] using hne, ?_, ?_⟩
      · rintro n rfl
        cases hc'
      · intro role c'' ha
        rw [connection?_of_touches ha] at hc'
        exact Option.some.inj hc' ▸ hne
    · intro a ha role c' hc'
      exact connection_of_consults ha hc'
  · intro role role' hne
    refine events_filter hsteady (fun a => ¬ a.Rebinds role) (fun a => a.role? = some role')
      (Agree.refl (fun r _ => r ≠ role) d) ?_ ?_ actions
    · intro a ha
      have hrebinds : a.Rebinds role := Decidable.not_not.mp ha
      have hrole := role?_of_rebinds hrebinds
      refine ⟨?_, ?_, ?_⟩
      · rw [hrole]
        exact fun hsame => hne (Option.some.inj hsame).symm
      · rintro n rfl
        cases hrole
      · intro role'' c ha
        exact fun hother => hother (role_of_rebinds hrebinds ha)
    · intro a ha role'' c hc
      exact role_of_consults ha hc ▸ hne

/-- Two connections share a negotiator, which goes in the end; one of them is unbound meanwhile and
takes another one later. -/
private def sharing : List Action :=
  [.bind .alpnClient ⟨1⟩ ⟨0⟩, .bind .alpnClient ⟨2⟩ ⟨0⟩, .bind .npnClient ⟨1⟩ ⟨1⟩, .unbindAll ⟨2⟩,
    .offer ⟨1⟩ .empty, .bind .npnClient ⟨2⟩ ⟨1⟩, .drop ⟨0⟩, .offer ⟨2⟩ .empty, .offer ⟨1⟩ .empty]

theorem events_without_interference_shared :
    let roster : Roster := fun _ => Script.negotiator { protocols := [.h2] }
    let mine := (events roster .empty sharing).filter fun e => e.action.connection? = some ⟨1⟩
    let ofClients := (events roster .empty sharing).filter
      fun e => e.action.role? = some .npnClient
    roster.Steady ∧
      mine = (events roster .empty (sharing.filter fun a => ∀ c ∈ a.connection?, c = ⟨1⟩)).filter
        (fun e => e.action.connection? = some ⟨1⟩) ∧
      ofClients = (events roster .empty (sharing.filter fun a => ¬ a.Rebinds .alpnClient)).filter
        (fun e => e.action.role? = some .npnClient) ∧
      mine.flatMap (·.answer.calls) =
        [⟨⟨0⟩, ⟨1⟩, .offers⟩, ⟨⟨1⟩, ⟨1⟩, .wants⟩, ⟨⟨1⟩, ⟨1⟩, .wants⟩] ∧
      ofClients.length = 2 := by
  intro roster mine ofClients
  have hsteady : roster.Steady := fun _ => Script.steady_negotiator rfl
  obtain ⟨hconnection, hrole⟩ := events_without_interference hsteady .empty sharing
  exact ⟨hsteady, hconnection ⟨1⟩, hrole .alpnClient .npnClient (by decide), rfl, rfl⟩

end Action

end HelloNegotiation
