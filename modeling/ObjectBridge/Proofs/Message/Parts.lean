import ObjectBridge.Message.Basic

/-!
# The parts of a message

A message can hold messages: the members of an array, the arguments of a call, the value for a property.
`Message.parts` lists a message with all that it holds, at every depth, and `Message.handles` the objects
that are named anywhere in it.
-/

namespace ObjectBridge.Message

mutual

/-- A message and all messages in it. -/
def parts (m : Message) : List Message :=
  m ::
  match m with
  | objectArray items => partsOfAll items
  | create _ args | callStaticMethod _ _ args | callMethod _ _ args => partsOfAll args
  | setProperty _ _ value | setStaticProperty _ _ value => parts value
  | _ => []

def partsOfAll : List Message → List Message
  | [] => []
  | m :: ms => parts m ++ partsOfAll ms

end

theorem mem_partsOfAll {part : Message} {ms : List Message} :
    part ∈ partsOfAll ms ↔ ∃ m ∈ ms, part ∈ m.parts := by
  induction ms with
  | nil => simp [partsOfAll]
  | cons m ms ih => simp [partsOfAll, ih]

/-- The objects that a message names itself: the target of a request, or the object of a reference. -/
def named (m : Message) : List Int32 :=
  m.objectId?.toList ++
  match m with
  | object ref => [ref.id]
  | _ => []

/-- The objects that are named in a message, at any depth. -/
def handles (m : Message) : List Int32 := m.parts.flatMap named

def handlesOfAll (ms : List Message) : List Int32 := ms.flatMap handles

theorem flatMap_partsOfAll (ms : List Message) : (partsOfAll ms).flatMap named = handlesOfAll ms := by
  induction ms with
  | nil => rfl
  | cons m ms ih => rw [partsOfAll, List.flatMap_append, ih]; rfl

end ObjectBridge.Message
