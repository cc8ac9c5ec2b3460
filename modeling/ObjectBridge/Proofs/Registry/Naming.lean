import ObjectBridge.Proofs.Message.Parts
import ObjectBridge.Proofs.Registry.Normal

/-!
# The objects that converted values name

The standard registry names an object in the message of a value only where the value holds a proxy for it
that has not let go of it, at whatever depth (`handles_convert`). What a request names besides are its
own target and the arguments.
-/

namespace ObjectBridge

namespace Message

variable {id : Int32} {className method property : String} {args : List Message} {m : Message}

@[simp] theorem handles_objectArray : (objectArray args).handles = handlesOfAll args :=
  flatMap_partsOfAll args

@[simp] theorem handles_create : (create className args).handles = handlesOfAll args :=
  flatMap_partsOfAll args

@[simp] theorem handles_callStaticMethod :
    (callStaticMethod className method args).handles = handlesOfAll args := flatMap_partsOfAll args

@[simp] theorem handles_callMethod : (callMethod id method args).handles = id :: handlesOfAll args :=
  congrArg (id :: ·) (flatMap_partsOfAll args)

@[simp] theorem handles_setProperty : (setProperty id property m).handles = id :: m.handles := rfl

end Message

namespace Registry

variable {released : Proxy → Bool}

mutual

/-- An object that the message of a value names has a live proxy in the value. -/
theorem handles_convert {v : Value} {m : Message} (h : standard.convert released v = .ok m) :
    ∀ id ∈ m.handles, ∃ p ∈ v.proxies, p.id = id ∧ released p = false := by
  cases v with
  | object p =>
    obtain ⟨hlive, rfl⟩ := convert_object_ok.mp h
    intro id hid
    exact ⟨p, List.mem_singleton_self p, (List.mem_singleton.mp hid).symm, hlive⟩
  | list items =>
    obtain ⟨ms, hms, rfl⟩ := convert_list_ok.mp h
    rw [Message.handles_objectArray]
    exact handles_convertAll hms
  | int n =>
    rw [convert_int] at h
    cases h
    unfold Message.ofInt
    split <;> exact fun _ hid => by cases hid
  | matrix t =>
    by_cases hcols : t.cols = 1
    · rw [convert_of_column hcols] at h
      cases h
      exact fun _ hid => by cases hid
    · rw [convert_of_not_column hcols] at h
      cases h
      exact fun _ hid => by cases hid
  | null | bool | byte | float | string | boolArray | byteArray | int32Array | int64Array
  | float64Array | stringArray | vector =>
    unfold convert at h
    cases h
    exact fun _ hid => by cases hid

theorem handles_convertAll {vs : List Value} {ms : List Message}
    (h : standard.convertAll released vs = .ok ms) :
    ∀ id ∈ Message.handlesOfAll ms, ∃ p ∈ Value.proxiesOfAll vs, p.id = id ∧ released p = false := by
  cases vs with
  | nil =>
    cases h
    exact fun _ hid => by cases hid
  | cons v vs =>
    obtain ⟨m, rest, hfirst, hrest, rfl⟩ := convertAll_cons_ok.mp h
    intro id hid
    obtain hid | hid := List.mem_append.mp hid
    · obtain ⟨p, hp, hlive⟩ := handles_convert hfirst id hid
      exact ⟨p, List.mem_append_left _ hp, hlive⟩
    · obtain ⟨p, hp, hlive⟩ := handles_convertAll hrest id hid
      exact ⟨p, List.mem_append_right _ hp, hlive⟩

end

end Registry

end ObjectBridge
