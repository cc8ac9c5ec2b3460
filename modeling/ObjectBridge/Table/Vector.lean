import ObjectBridge.Decimal.Binary64
import ObjectBridge.Fault

/-!
# Labelled vectors

A vector of doubles, with a label for each value or with none at all. That labels fit is part of the
type; an empty list of labels means that there are none.
-/

namespace ObjectBridge

/-- Labels that are absent, or not empty and exactly `count` many. -/
def LabelsFit (labels : Option (List String)) (count : Nat) : Prop :=
  ∀ names, labels = some names → names ≠ [] ∧ names.length = count

theorem labelsFit_none (count : Nat) : LabelsFit none count := by
  intro names h
  cases h

theorem labelsFit_some {names : List String} {count : Nat} (hne : names ≠ [])
    (hlen : names.length = count) : LabelsFit (some names) count := by
  intro other h
  cases h
  exact ⟨hne, hlen⟩

/-- Doubles with optional labels. -/
structure LabelledVector where
  labels : Option (List String)
  values : List Binary64
  labels_fit : LabelsFit labels values.length

namespace LabelledVector

def ofValues (values : List Binary64) : LabelledVector := ⟨none, values, labelsFit_none _⟩

/-- A vector with labels, one for each value. -/
def withLabels (names : List String) (values : List Binary64) : Except Fault LabelledVector :=
  if hne : names = [] then .ok (ofValues values)
  else if hlen : names.length = values.length then
    .ok ⟨some names, values, labelsFit_some hne hlen⟩
  else .error (.malformed (.vectorLabels names.length values.length))

def size (v : LabelledVector) : Nat := v.values.length

instance : Inhabited LabelledVector := ⟨ofValues []⟩

end LabelledVector

end ObjectBridge
