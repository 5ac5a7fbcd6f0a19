import HelloNegotiation.Catalogue
import HelloNegotiation.Reader

/-! # Bytes to read together with the catalogue that grows by what is read -/
namespace HelloNegotiation

structure Source where
  rest : Bytes
  catalogue : Catalogue

namespace Source

instance : Input Source := ⟨rest⟩

/-- A reader of bytes leaves the catalogue as it is. -/
def lift {α : Type} (r : Reader α) : EStateM ReadFault Source α := fun s =>
  match r.run s.rest with
  | .ok a rest => .ok a { s with rest }
  | .error e rest => .error e { s with rest }

def resolve {ε : Type} (id : UInt16) : EStateM ε Source ExtensionType := fun s =>
  .ok (s.catalogue.resolve id).1 { s with catalogue := (s.catalogue.resolve id).2 }

/-- The type whose number comes next; it is in the catalogue from then on. -/
def extensionType : EStateM ReadFault Source ExtensionType := do
  let id ← lift Reader.word
  resolve id

/-- Reads bytes that stand on their own with the catalogue at hand. -/
def within {ε α : Type} (inner : Bytes) (r : EStateM ε Source α) : EStateM ε Source α := fun s =>
  match r.run ⟨inner, s.catalogue⟩ with
  | .ok a t => .ok a { s with catalogue := t.catalogue }
  | .error e t => .error e { s with catalogue := t.catalogue }

theorem run_lift {α : Type} (r : Reader α) (s : Source) : (lift r).run s =
    match r.run s.rest with
    | .ok a rest => .ok a { s with rest }
    | .error e rest => .error e { s with rest } := rfl

theorem run_resolve {ε : Type} (id : UInt16) (s : Source) : (resolve (ε := ε) id).run s =
    .ok (s.catalogue.resolve id).1 { s with catalogue := (s.catalogue.resolve id).2 } := rfl

theorem run_within {ε α : Type} (inner : Bytes) (r : EStateM ε Source α) (s : Source) :
    (within inner r).run s = match r.run ⟨inner, s.catalogue⟩ with
      | .ok a t => .ok a { s with catalogue := t.catalogue }
      | .error e t => .error e { s with catalogue := t.catalogue } := rfl

end Source

end HelloNegotiation
