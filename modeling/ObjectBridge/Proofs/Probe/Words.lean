import ObjectBridge.Probe.Arguments
import ObjectBridge.Proofs.Decimal.Numerals

/-!
# Words on the command line

Words that start with no dash are operands as they are, and so are all words behind two dashes. A negative number
starts with a dash: unless two dashes stand in front of it, it is read as an option, and there is none of its name
(`operands_of_negative`). So a call with numbers is understood as it stands if none of them is negative, and behind
two dashes in any case.
-/

namespace ObjectBridge.Probe

variable {word : String} {front rest words : List String} {room : Nat} {z : Int}

/-- The word starts with a dash. -/
def Dashed (word : String) : Prop := word.toList.head? = some '-'

instance : DecidablePred Dashed := fun word => inferInstanceAs (Decidable (word.toList.head? = some '-'))

theorem shape_of_not_dashed (h : ¬ Dashed word) : shape word = .plain := by
  have hnot (rest : List Char) : word.toList ≠ '-' :: rest := fun hword => h (by rw [Dashed, hword]; rfl)
  unfold shape
  split
  · rename_i hword
    exact absurd hword (hnot _)
  · rename_i hword
    exact absurd hword (hnot _)
  · rename_i hword
    exact absurd hword (hnot _)
  · rfl

/-- A number that starts with a dash is read as an option whose letter is its first digit. -/
theorem shape_of_negative (hdashed : Dashed word) (h : Decimal.SpellsInt word.toList z) :
    ∃ digit, digit.isDigit = true ∧ shape word = .short digit := by
  obtain ⟨cs, hword⟩ := List.head?_eq_some_iff.mp hdashed
  rw [hword] at h
  obtain ⟨n, hdigits, _⟩ := Decimal.spellsInt_minus.mp h
  obtain ⟨digit, digits, rfl⟩ := List.exists_cons_of_ne_nil hdigits.ne_nil
  have hdigit : digit.isDigit = true := hdigits.isDigit_of_mem digit List.mem_cons_self
  have hdash : digit ≠ '-' := by
    rintro rfl
    cases hdigit
  refine ⟨digit, hdigit, ?_⟩
  unfold shape
  rw [hword]
  split
  · rename_i heq
    cases heq
    exact absurd rfl hdash
  · rename_i heq
    cases heq
    exact absurd rfl hdash
  · rename_i heq
    cases heq
    rfl
  · rename_i hshort
    exact absurd rfl (hshort digit digits)

/-- What words come to behind other operands. -/
def Operands.behind (front : List String) : Operands → Operands
  | .words ws => .words (front ++ ws)
  | .help => .help
  | .misuse => .misuse

theorem operands_append (hfront : ∀ word ∈ front, ¬ Dashed word) (hroom : front.length ≤ room) :
    operands room (front ++ rest) = (operands (room - front.length) rest).behind front := by
  induction front generalizing room with
  | nil =>
    rw [List.nil_append, List.length_nil, Nat.sub_zero]
    cases operands room rest <;> rfl
  | cons word front ih =>
    obtain ⟨hword, hfront⟩ := List.forall_mem_cons.mp hfront
    rw [List.length_cons] at hroom
    obtain ⟨room, rfl⟩ : ∃ left, room = left + 1 := ⟨room - 1, by omega⟩
    rw [List.cons_append, operands, shape_of_not_dashed hword]
    dsimp only
    rw [ih hfront (by omega), List.length_cons, Nat.add_sub_add_right]
    cases operands (room - front.length) rest <;> rfl

theorem operands_plain (h : ∀ word ∈ words, ¬ Dashed word) (hroom : words.length ≤ room) :
    operands room words = .words words := by
  have happend : operands room (words ++ []) = _ := operands_append h hroom
  rw [List.append_nil] at happend
  rw [happend, operands.eq_def]
  exact congrArg Operands.words (List.append_nil words)

theorem operands_escaped (hfront : ∀ word ∈ front, ¬ Dashed word) (hroom : front.length ≤ room) :
    operands room (front ++ "--" :: words) = .words (front ++ words) := by
  rw [operands_append hfront hroom, operands.eq_def]
  rfl

/-- The first number that starts with a dash is taken for an option, and refused. -/
theorem operands_of_negative (hfront : ∀ word ∈ front, ¬ Dashed word) (hroom : front.length ≤ room)
    (hdashed : Dashed word) (h : Decimal.SpellsInt word.toList z) :
    operands room (front ++ word :: rest) = .misuse := by
  obtain ⟨digit, hdigit, hshape⟩ := shape_of_negative hdashed h
  have hhelp : digit ≠ 'h' := by
    rintro rfl
    cases hdigit
  rw [operands_append hfront hroom, operands.eq_def]
  dsimp only
  rw [hshape]
  dsimp only
  rw [if_neg hhelp]
  rfl

/-! ### What help tells -/

/-- There is no option but those that help tells of. -/
theorem mem_aboutOptions_of_assign {o o' : Options} {name value : String} (h : o.assign name value = some o') :
    name ∈ aboutOptions.map Prod.fst := by
  unfold Options.assign at h
  split at h
  · simp [aboutOptions]
  · simp [aboutOptions]
  · simp [aboutOptions]
  · simp [aboutOptions]
  · simp [aboutOptions]
  · simp [aboutOptions]
  · simp [aboutOptions]
  · cases h

/-- A command takes as many words as help tells of parameters, and more if the last is repeated. -/
theorem isSome_ofWords_iff {name : String} (hname : name ∈ commandNames) :
    (Command.ofWords? name words).isSome = true ↔
      (parametersOf name).countP (fun p => !p.repeated) ≤ words.length ∧
        words.length ≤ capacity name words.length := by
  simp only [commandNames, List.mem_cons, List.not_mem_nil, or_false] at hname
  obtain rfl | rfl | rfl | rfl := hname
  · match words with
    | [] | [_] | _ :: _ :: _ => simp [Command.ofWords?, parametersOf, capacity]
  · match words with
    | [] | [_] | _ :: _ :: _ => simp [Command.ofWords?, parametersOf, capacity]
  · match words with
    | [] | [_] | _ :: _ :: _ => simp [Command.ofWords?, parametersOf, capacity]
  · match words with
    | [] | _ :: _ => simp [Command.ofWords?, parametersOf, capacity]

/-! ### A call -/

/-- The words write the numbers, in decimal. -/
def Spelled (ns : List Int64) (words : List String) : Prop :=
  List.Forall₂ (fun n word => Decimal.SpellsInt word.toList n.toInt) ns words

theorem Spelled.spells {ns : List Int64} (h : Spelled ns words) :
    ∀ word ∈ words, ∃ n : Int64, Decimal.SpellsInt word.toList n.toInt := by
  induction h with
  | nil => simp
  | cons hspells _ ih => exact List.forall_mem_cons.mpr ⟨⟨_, hspells⟩, ih⟩

/-- The words in front of a command give these options, and these can be without others. -/
structure Gives (given : List String) (o : Options) : Prop where
  read : ∀ rest, Request.ofWords (given ++ rest) = readFrom o rest
  complete : o.isComplete = true

theorem gives_nothing : Gives [] {} := ⟨fun _ => rfl, rfl⟩

variable {className method : String} {given : List String} {o : Options}

theorem Gives.ofWords_call (h : Gives given o) (words : List String) :
    Request.ofWords (given ++ "call" :: words) = readCommand o "call" words :=
  h.read ("call" :: words)

theorem Gives.readCommand_call (h : Gives given o)
    (hwords : operands words.length words = .words (className :: method :: rest)) :
    readCommand o "call" words = .run o (.call className method rest) := by
  have hroom : capacity "call" words.length = words.length := rfl
  rw [readCommand, hroom, hwords]
  simp only [Command.ofWords?, h.complete, if_true]

theorem readCommand_misuse (h : operands words.length words = .misuse) : readCommand o "call" words = .misuse := by
  have hroom : capacity "call" words.length = words.length := rfl
  rw [readCommand, hroom, h]

section Call

variable (h : Gives given o) (hclass : ¬ Dashed className) (hmethod : ¬ Dashed method)
include h hclass hmethod

theorem ofWords_call_plain (hwords : ∀ word ∈ words, ¬ Dashed word) :
    Request.ofWords (given ++ "call" :: className :: method :: words) = .run o (.call className method words) := by
  rw [h.ofWords_call]
  refine h.readCommand_call (operands_plain ?_ (Nat.le_refl _))
  exact List.forall_mem_cons.mpr ⟨hclass, List.forall_mem_cons.mpr ⟨hmethod, hwords⟩⟩

theorem ofWords_call_escaped (words : List String) :
    Request.ofWords (given ++ "call" :: className :: method :: "--" :: words) =
      .run o (.call className method words) := by
  have hfront : ∀ word ∈ [className, method], ¬ Dashed word := by simp [hclass, hmethod]
  have hroom : [className, method].length ≤ (className :: method :: "--" :: words).length := by simp
  rw [h.ofWords_call]
  exact h.readCommand_call (operands_escaped hfront hroom)

/-- Numbers of which one starts with a dash make no command line. -/
theorem ofWords_call_negative {ns : List Int64} (hwords : Spelled ns words)
    (hnegative : ∃ word ∈ words, Dashed word) :
    Request.ofWords (given ++ "call" :: className :: method :: words) = .misuse := by
  -- The words in front of the first such number are operands.
  obtain ⟨first, hfirst⟩ : ∃ first, words.find? (fun word => decide (Dashed word)) = some first :=
    Option.isSome_iff_exists.mp (List.find?_isSome.mpr (by simpa using hnegative))
  obtain ⟨hdashed, front, rest, rfl, hfront⟩ := List.find?_eq_some_iff_append.mp hfirst
  obtain ⟨n, hspells⟩ := hwords.spells first (by simp)
  have hplain : ∀ word ∈ className :: method :: front, ¬ Dashed word :=
    List.forall_mem_cons.mpr ⟨hclass, List.forall_mem_cons.mpr ⟨hmethod, by simpa using hfront⟩⟩
  rw [h.ofWords_call]
  refine readCommand_misuse (operands_of_negative hplain ?_ (by simpa using hdashed) hspells)
  simp only [List.length_cons, List.length_append]
  omega

end Call

end ObjectBridge.Probe
