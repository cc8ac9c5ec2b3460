import ObjectBridge.Message.Filling
import ObjectBridge.Proofs.Message.Robustness

/-!
# What a catalogue decides

A catalogue decides which variant of message stands for which code, and nothing else: all content comes from the
stream. Main statement: `message_alike`. Catalogues that are alike read every stream alike, whatever their messages
hold, and so does a reader that fills the messages of the catalogue in place, since it overwrites every field.
-/

namespace ObjectBridge

/-- The catalogues know the same codes, and their messages for a code are of the same variant. What these hold is left
open. -/
def Catalogue.Alike (c c' : Catalogue) : Prop :=
  ∀ code, (c.find? code).map Message.tag = (c'.find? code).map Message.tag

namespace Catalogue

theorem find?_register (c : Catalogue) (t : Tag) (m : Message) (code : UInt8) :
    (c.register t m).find? code = if t.code = code then some m else c.find? code := by
  simp only [find?, register, List.find?_cons]
  split <;> simp_all

/-- To replace a message by one of the same variant changes no variant. -/
theorem alike_register {c : Catalogue} {t : Tag} {m : Message}
    (h : (c.find? t.code).map Message.tag = some m.tag) : (c.register t m).Alike c := by
  intro code
  rw [find?_register]
  split
  · rename_i hcode
    rw [← hcode, h]
    rfl
  · rfl

theorem Alike.trans {c c' c'' : Catalogue} (h : c.Alike c') (h' : c'.Alike c'') : c.Alike c'' :=
  fun code => (h code).trans (h' code)

end Catalogue

namespace Reader

/-- The content of a message is read by its variant. -/
theorem payload_empty (item : Action Message) (blank : Message) :
    payload item blank = payload item (.empty blank.tag) := by
  cases blank <;> rfl

/-- Filling a message overwrites all that it held. -/
theorem fill_eq (item : Action Message) (blank : Message) : fill item blank = payload item blank := by
  cases blank <;> rfl

theorem payload_congr (item : Action Message) {blank blank' : Message} (h : blank.tag = blank'.tag) :
    payload item blank = payload item blank' := by
  rw [payload_empty, h, ← payload_empty]

theorem ofCode_alike {c c' : Catalogue} (h : c.Alike c') (item : Action Message) :
    ofCode c item = ofCode c' item := by
  funext code
  have hcode := h code
  unfold ofCode
  cases hfind : c.find? code with
  | none =>
    rw [hfind] at hcode
    rw [Option.map_eq_none_iff.mp hcode.symm]
  | some blank =>
    rw [hfind] at hcode
    obtain ⟨blank', hfind', htag⟩ := Option.map_eq_some_iff.mp hcode.symm
    rw [hfind']
    exact payload_congr item htag.symm

theorem messageWithin_alike {c c' : Catalogue} (h : c.Alike c') (depth : Nat) :
    messageWithin c depth = messageWithin c' depth := by
  induction depth with
  | zero => rfl
  | succ depth ih => rw [messageWithin_succ, messageWithin_succ, ih, ofCode_alike h]

theorem filledWithin_eq (catalogue : Catalogue) (depth : Nat) :
    filledWithin catalogue depth = messageWithin catalogue depth := by
  induction depth with
  | zero => rfl
  | succ depth ih =>
    rw [filledWithin, messageWithin, ih]
    refine congrArg (header >>= ·) (funext fun code => ?_)
    cases catalogue.find? code with
    | none => rfl
    | some blank => exact fill_eq _ blank

/-- Catalogues that are alike read the same from every stream and leave the reader in the same state, also where
they fail, at any depth of nesting. Nothing that their messages hold is left in what is read, not even if they are
filled in place. -/
theorem message_alike {c c' : Catalogue} (h : c.Alike c') :
    message c = message c' ∧ filled c = message c' := by
  have hmessage : message c = message c' := by
    funext r
    rw [message, message, messageWithin_alike h]
  refine ⟨hmessage, ?_⟩
  rw [← hmessage]
  funext r
  rw [filled, message, filledWithin_eq]

/-- A catalogue whose messages are not empty. -/
theorem message_alike_filled :
    let c := (Catalogue.standard.register .objectArray (.objectArray [.int32 1, .null])).register .object
      (.object ⟨7, some "Stale"⟩)
    message c (held [13, 208, 109, 1, 0, 0, 0, 13, 208, 9, 3, 0, 0, 0, 0, 8]) =
        .ok (.objectArray [.object ⟨3, none⟩]) (held [8]) ∧
      filled c (held [13, 208, 109, 1, 0, 0, 0, 13, 208, 9, 3, 0, 0, 0, 0, 8]) =
        .ok (.objectArray [.object ⟨3, none⟩]) (held [8]) := by
  intro c
  have halike : c.Alike .standard := (Catalogue.alike_register rfl).trans (Catalogue.alike_register rfl)
  obtain ⟨hmessage, hfilled⟩ := message_alike halike
  rw [hmessage, hfilled]
  exact ⟨rfl, rfl⟩

end Reader

end ObjectBridge
