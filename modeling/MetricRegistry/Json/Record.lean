import MetricRegistry.Json.Parser

/-!
# Reading records

A record is an object whose members are known by name, or an array that gives them in their order.
`record` reads both forms.  In an object an unknown member is passed over and a known one may not
come twice; in an array nothing may follow the last member.  Members that are missing are for the
record to judge: it collects what it read in a draft and finishes that.
-/

namespace MetricRegistry.Json

open Ascii

/-- A member of a record: whether a draft has it already, and how to read it into a draft. -/
structure Slot (σ : Type) where
  name : String
  filled : σ → Bool
  fill : σ → Reader σ

/-- The member that a draft keeps where `get` finds it and `set` puts it. -/
def Slot.of {σ β : Type} (name : String) (get : σ → Option β) (set : σ → β → σ)
    (read : Reader β) : Slot σ where
  name := name
  filled draft := (get draft).isSome
  fill draft s := do
    let (x, s) ← read s
    return (set draft x, s)

/-- How to read on after the name of a member. -/
def slotNamed {σ : Type} (slots : List (Slot σ)) (draft : σ) (name : String) :
    Except Fault (Reader σ) :=
  match slots.find? (·.name == name) with
  | none => .ok fun s => do return (draft, (← skipValue s).2)
  | some slot => if slot.filled draft then .error .mismatched else .ok (slot.fill draft)

/-- Reads members in their order, as many as the array has. -/
def slotsInOrder {σ : Type} : List (Slot σ) → Bool → σ → Reader σ
  | [], _, draft, s => .ok (draft, s)
  | slot :: slots, first, draft, s => do
    match ← nextElement first s with
    | none => return (draft, s)
    | some s =>
      let (draft, s) ← slot.fill draft s
      slotsInOrder slots false draft s

/-- Reads a record from a draft without members. -/
def record {σ α : Type} (slots : List (Slot σ)) (blank : σ) (finish : σ → Option α) : Reader α :=
  fun s =>
    let finished (draft : σ) : Except Fault α :=
      match finish draft with
      | some x => .ok x
      | none => .error .mismatched
    match skipSpace s with
    | [] => .error .truncated
    | b :: rest =>
      if b == openBrace then do
        let (draft, s) ← members string (slotNamed slots) (rest.length + 1) true blank rest
        return (← finished draft, s)
      else if b == openBracket then do
        let (draft, s) ← slotsInOrder slots true blank rest
        let x ← finished draft
        return (x, ← closeArray s)
      else .error (otherKind (b :: rest))

end MetricRegistry.Json
