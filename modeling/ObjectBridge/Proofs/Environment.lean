import ObjectBridge.Config
import ObjectBridge.Proofs.Decimal.Numerals

/-!
# The environment over a configuration

Three variables hold numbers. An environment is refused for the first of them that is set to no number or to one
that is too great. Otherwise it decides all that it says something about: `Overlaid` tells what that comes to for
each setting. Main statement: `overlay_environment`, both ways, and that the same environment laid over once more
changes nothing.
-/

namespace ObjectBridge.Config

open Decimal

variable {lookup : String → Option String} {c c' : Config}

/-! ### What the environment says -/

/-- The variables that hold numbers, in the order in which they are read, and the greatest number of each. -/
def numberVariables : List (String × Nat) :=
  [("CLRBRIDGE_PORT", 0xffff), ("CLRBRIDGE_RETRIES", 0xffffffff),
    ("CLRBRIDGE_RETRY_GAP_MS", 0xffffffffffffffff)]

/-- The variable is set to a text that is not a number within the limit. -/
def Misset (lookup : String → Option String) (name : String) (limit : Nat) (value : String) : Prop :=
  lookup name = some value ∧ ¬ ∃ n, SpellsPadded value.toList n ∧ n ≤ limit

/-- The first of some variables that is misset, and its value. -/
inductive FirstMisset (lookup : String → Option String) : List (String × Nat) → String → String → Prop
  | here {name value : String} {limit : Nat} {others : List (String × Nat)}
      (h : Misset lookup name limit value) : FirstMisset lookup ((name, limit) :: others) name value
  | later {name value fine : String} {limit : Nat} {others : List (String × Nat)}
      (hfine : ∀ value, ¬ Misset lookup fine limit value) (h : FirstMisset lookup others name value) :
      FirstMisset lookup ((fine, limit) :: others) name value

/-- A number is the one that its variable holds, and what it was if the variable is not set. -/
def NumberFrom (lookup : String → Option String) (name : String) (earlier n : Nat) : Prop :=
  match lookup name with
  | some value => SpellsPadded value.toList n
  | none => n = earlier

/-- A setting is what its variable says, and what it was if the variable is not set or empty. -/
def TextFrom {α : Type} (lookup : String → Option String) (name : String) (meaning : String → α)
    (earlier x : α) : Prop :=
  match lookup name with
  | some value => if value = "" then x = earlier else x = meaning value
  | none => x = earlier

/-- The specification with the runtime and the library that the environment names. -/
structure SpecOverlaid (lookup : String → Option String) (spec spec' : ServerSpec) : Prop where
  server : spec'.server = spec.server
  runtime : TextFrom lookup "CLRBRIDGE_RUNTIME" some spec.runtime spec'.runtime
  dll : TextFrom lookup "CLRBRIDGE_DLL" some spec.dll spec'.dll
  args : spec'.args = spec.args

/-- The configuration with the environment laid over it. -/
structure Overlaid (lookup : String → Option String) (c c' : Config) : Prop where
  host : TextFrom lookup "CLRBRIDGE_HOST" id c.host c'.host
  port : NumberFrom lookup "CLRBRIDGE_PORT" c.port.toNat c'.port.toNat
  retries : NumberFrom lookup "CLRBRIDGE_RETRIES" c.retry.retries c'.retry.retries
  gap : NumberFrom lookup "CLRBRIDGE_RETRY_GAP_MS" c.retry.gap c'.retry.gap
  /-- A runtime and a library count for the specification that is there once the server is named. -/
  server : ∃ named,
    TextFrom lookup "CLRBRIDGE_SERVER" (fun program => some { server := program }) c.server named ∧
      Option.Rel (SpecOverlaid lookup) named c'.server
  creatorClass : c'.creatorClass = c.creatorClass

/-! ### Settings -/

theorem numberFrom_unique {name : String} {earlier n m : Nat} (h : NumberFrom lookup name earlier n)
    (h' : NumberFrom lookup name earlier m) : n = m := by
  unfold NumberFrom at h h'
  cases hlookup : lookup name with
  | none =>
    rw [hlookup] at h h'
    exact h.trans h'.symm
  | some value =>
    rw [hlookup] at h h'
    exact h.unique h'

/-- What a number variable comes to: a number for its setting, or a fault that names it. -/
theorem number?_cases (lookup : String → Option String) (name : String) (limit : Nat) :
    (∃ found, number? lookup name limit = .ok found ∧ (∀ n ∈ found, n ≤ limit) ∧
        (∀ earlier, NumberFrom lookup name earlier (found.getD earlier)) ∧
        ∀ value, ¬ Misset lookup name limit value) ∨
      ∃ value, number? lookup name limit = .error (.config (.notANumber name value)) ∧
        Misset lookup name limit value := by
  simp only [number?, NumberFrom, Misset]
  cases hlookup : lookup name with
  | none => exact .inl ⟨none, rfl, by simp, fun _ => rfl, by simp⟩
  | some value =>
    cases hread : natural? limit (Text.trimBlank value.toList) with
    | none =>
      refine .inr ⟨value, by simp [numberOf, hread, Except.map], rfl, fun hspelled => ?_⟩
      obtain ⟨n, hspelled⟩ := hspelled
      rw [natural?_trimBlank.mpr hspelled] at hread
      cases hread
    | some n =>
      obtain ⟨hspells, hle⟩ := natural?_trimBlank.mp hread
      refine .inl ⟨some n, by simp [numberOf, hread, Except.map], by simpa using hle, fun _ => hspells, ?_⟩
      intro value' hmisset
      cases hmisset.1
      exact hmisset.2 ⟨n, hspells, hle⟩

theorem textFrom_iff {α : Type} {name : String} {meaning : String → α} {earlier x : α} :
    TextFrom lookup name meaning earlier x ↔ x = ((text? lookup name).map meaning).getD earlier := by
  unfold TextFrom text?
  cases hlookup : lookup name with
  | none => simp
  | some value => by_cases hempty : value = "" <;> simp [Option.filter, hempty]

/-- A setting that may be absent. -/
theorem textFrom_some_iff {name : String} {earlier x : Option String} :
    TextFrom lookup name some earlier x ↔ x = (text? lookup name <|> earlier) := by
  rw [textFrom_iff]
  cases text? lookup name <;> simp

theorem specOverlaid_iff {spec spec' : ServerSpec} :
    SpecOverlaid lookup spec spec' ↔ spec' = overlaySpec lookup spec := by
  constructor
  · intro h
    obtain ⟨server, runtime, dll, args⟩ := spec'
    obtain ⟨rfl, hruntime, hdll, rfl⟩ := h
    rw [textFrom_some_iff] at hruntime hdll
    simp only at hruntime hdll
    rw [hruntime, hdll]
    rfl
  · rintro rfl
    exact ⟨rfl, textFrom_some_iff.mpr rfl, textFrom_some_iff.mpr rfl, rfl⟩

theorem rel_specOverlaid_iff {named found : Option ServerSpec} :
    Option.Rel (SpecOverlaid lookup) named found ↔ found = named.map (overlaySpec lookup) := by
  cases named <;> cases found <;> simp [specOverlaid_iff]

/-! ### Saying it again -/

theorem NumberFrom.again {name : String} {earlier n : Nat} (h : NumberFrom lookup name earlier n) :
    NumberFrom lookup name n n := by
  unfold NumberFrom at h ⊢
  cases hlookup : lookup name with
  | none => rfl
  | some value =>
    rw [hlookup] at h
    exact h

theorem TextFrom.again {α : Type} {name : String} {meaning : String → α} {earlier x : α}
    (h : TextFrom lookup name meaning earlier x) : TextFrom lookup name meaning x x := by
  rw [textFrom_iff] at h ⊢
  cases hfound : text? lookup name with
  | none => rfl
  | some value =>
    rw [hfound] at h
    exact h

theorem SpecOverlaid.again {spec spec' : ServerSpec} (h : SpecOverlaid lookup spec spec') :
    SpecOverlaid lookup spec' spec' :=
  ⟨rfl, h.runtime.again, h.dll.again, rfl⟩

namespace Overlaid

/-- A second time the environment changes nothing. -/
theorem again (h : Overlaid lookup c c') : Overlaid lookup c' c' := by
  refine ⟨h.host.again, h.port.again, h.retries.again, h.gap.again, ?_, rfl⟩
  obtain ⟨named, hnamed, hserver⟩ := h.server
  rw [textFrom_iff] at hnamed
  cases hfound : text? lookup "CLRBRIDGE_SERVER" with
  | none =>
    -- no server is named, so that the specification is the one that there is
    refine ⟨c'.server, by rw [textFrom_iff, hfound]; rfl, ?_⟩
    generalize c'.server = found at hserver ⊢
    cases hserver with
    | none => exact .none
    | some hspec => exact .some hspec.again
  | some program => exact ⟨named, by rw [textFrom_iff, hnamed, hfound]; rfl, hserver⟩

/-- The environment leaves one configuration. -/
theorem unique {c₁ c₂ : Config} (h₁ : Overlaid lookup c c₁) (h₂ : Overlaid lookup c c₂) :
    c₁ = c₂ := by
  obtain ⟨named₁, hnamed₁, hserver₁⟩ := h₁.server
  obtain ⟨named₂, hnamed₂, hserver₂⟩ := h₂.server
  have hhost : c₁.host = c₂.host := (textFrom_iff.mp h₁.host).trans (textFrom_iff.mp h₂.host).symm
  have hport : c₁.port = c₂.port := UInt16.toNat_inj.mp (numberFrom_unique h₁.port h₂.port)
  have hretries := numberFrom_unique h₁.retries h₂.retries
  have hgap := numberFrom_unique h₁.gap h₂.gap
  have hserver : c₁.server = c₂.server := by
    rw [rel_specOverlaid_iff.mp hserver₁, rel_specOverlaid_iff.mp hserver₂, textFrom_iff.mp hnamed₁,
      textFrom_iff.mp hnamed₂]
  have hcreator := h₁.creatorClass.trans h₂.creatorClass.symm
  obtain ⟨host₁, port₁, ⟨retries₁, gap₁⟩, server₁, creator₁⟩ := c₁
  obtain ⟨host₂, port₂, ⟨retries₂, gap₂⟩, server₂, creator₂⟩ := c₂
  cases hhost
  cases hport
  cases hretries
  cases hgap
  cases hserver
  cases hcreator
  rfl

end Overlaid

/-! ### The whole configuration -/

theorem FirstMisset.misset {settings : List (String × Nat)} {name value : String}
    (h : FirstMisset lookup settings name value) :
    ∃ limit, (name, limit) ∈ settings ∧ Misset lookup name limit value := by
  induction h with
  | here h => exact ⟨_, List.mem_cons_self .., h⟩
  | later _ _ ih =>
    obtain ⟨limit, hmem, hmisset⟩ := ih
    exact ⟨limit, List.mem_cons_of_mem _ hmem, hmisset⟩

theorem FirstMisset.unique {settings : List (String × Nat)} {name name' value value' : String}
    (h : FirstMisset lookup settings name value) (h' : FirstMisset lookup settings name' value') :
    name = name' ∧ value = value' := by
  induction h with
  | here h =>
    cases h' with
    | here h' => exact ⟨rfl, Option.some.inj (h.1.symm.trans h'.1)⟩
    | later hfine _ => exact absurd h (hfine _)
  | later hfine _ ih =>
    cases h' with
    | here h' => exact absurd h' (hfine _)
    | later _ h' => exact ih h'

/-- The port of a number that a port can be. -/
theorem toNat_port {port : Option Nat} (h : ∀ n ∈ port, n ≤ 0xffff) (earlier : UInt16) :
    ((port.map UInt16.ofNat).getD earlier).toNat = port.getD earlier.toNat := by
  cases port with
  | none => rfl
  | some n =>
    exact UInt16.toNat_ofNat_of_lt' (Nat.lt_succ_of_le (h n rfl))

theorem overlay_of_numbers {port retries gap : Option Nat}
    (hport : number? lookup "CLRBRIDGE_PORT" 0xffff = .ok port)
    (hretries : number? lookup "CLRBRIDGE_RETRIES" 0xffffffff = .ok retries)
    (hgap : number? lookup "CLRBRIDGE_RETRY_GAP_MS" 0xffffffffffffffff = .ok gap) :
    c.overlay lookup = .ok { c with
      host := (text? lookup "CLRBRIDGE_HOST").getD c.host
      port := (port.map UInt16.ofNat).getD c.port
      retry := { retries := retries.getD c.retry.retries, gap := gap.getD c.retry.gap }
      server := ((text? lookup "CLRBRIDGE_SERVER").map (fun program => { server := program : ServerSpec }) <|>
        c.server).map (overlaySpec lookup) } := by
  simp only [overlay, hport, hretries, hgap, bind, Except.bind, pure, Except.pure]

/-- All that laying the environment over a configuration can come to. -/
theorem overlay_cases (c : Config) (lookup : String → Option String) :
    (∃ c', c.overlay lookup = .ok c' ∧ Overlaid lookup c c' ∧
        ∀ setting ∈ numberVariables, ∀ value, ¬ Misset lookup setting.1 setting.2 value) ∨
      ∃ name value, c.overlay lookup = .error (.config (.notANumber name value)) ∧
        FirstMisset lookup numberVariables name value := by
  rcases number?_cases lookup "CLRBRIDGE_PORT" 0xffff with
    ⟨port, hport, hlimit, hportFrom, hportFine⟩ | ⟨value, hport, hmisset⟩
  swap
  · exact .inr ⟨_, value, by simp only [overlay, hport, bind, Except.bind], .here hmisset⟩
  rcases number?_cases lookup "CLRBRIDGE_RETRIES" 0xffffffff with
    ⟨retries, hretries, _, hretriesFrom, hretriesFine⟩ | ⟨value, hretries, hmisset⟩
  swap
  · exact .inr ⟨_, value, by simp only [overlay, hport, hretries, bind, Except.bind],
      .later hportFine (.here hmisset)⟩
  rcases number?_cases lookup "CLRBRIDGE_RETRY_GAP_MS" 0xffffffffffffffff with
    ⟨gap, hgap, _, hgapFrom, hgapFine⟩ | ⟨value, hgap, hmisset⟩
  swap
  · exact .inr ⟨_, value, by simp only [overlay, hport, hretries, hgap, bind, Except.bind],
      .later hportFine (.later hretriesFine (.here hmisset))⟩
  refine .inl ⟨_, overlay_of_numbers hport hretries hgap, ?_, ?_⟩
  · refine ⟨textFrom_iff.mpr ?_, ?_, hretriesFrom _, hgapFrom _,
      ⟨_, textFrom_iff.mpr rfl, rel_specOverlaid_iff.mpr ?_⟩, rfl⟩
    · rw [Option.map_id]
      rfl
    · rw [toNat_port hlimit]
      exact hportFrom _
    · cases text? lookup "CLRBRIDGE_SERVER" <;> rfl
  · simpa [numberVariables] using ⟨hportFine, hretriesFine, hgapFine⟩

theorem overlay_ok_iff :
    c.overlay lookup = .ok c' ↔
      (∀ setting ∈ numberVariables, ∀ value, ¬ Misset lookup setting.1 setting.2 value) ∧
        Overlaid lookup c c' := by
  rcases overlay_cases c lookup with ⟨found, hfound, hover, hfine⟩ | ⟨name, value, herror, hfirst⟩
  · rw [hfound, Except.ok.injEq]
    constructor
    · rintro rfl
      exact ⟨hfine, hover⟩
    · exact fun h => hover.unique h.2
  · constructor
    · intro h
      cases h.symm.trans herror
    · intro h
      obtain ⟨limit, hmem, hmisset⟩ := hfirst.misset
      exact absurd hmisset (h.1 _ hmem value)

theorem overlay_error_iff {fault : Fault} :
    c.overlay lookup = .error fault ↔
      ∃ name value, FirstMisset lookup numberVariables name value ∧
        fault = .config (.notANumber name value) := by
  rcases overlay_cases c lookup with ⟨found, hfound, _, hfine⟩ | ⟨name, value, herror, hfirst⟩
  · constructor
    · intro h
      cases h.symm.trans hfound
    · intro h
      obtain ⟨name, value, hfirst, _⟩ := h
      obtain ⟨limit, hmem, hmisset⟩ := hfirst.misset
      exact absurd hmisset (hfine _ hmem value)
  · rw [herror, Except.error.injEq]
    constructor
    · rintro rfl
      exact ⟨name, value, hfirst, rfl⟩
    · intro h
      obtain ⟨name', value', hfirst', rfl⟩ := h
      obtain ⟨rfl, rfl⟩ := hfirst.unique hfirst'
      rfl

/-- Laying an environment over a configuration fails exactly if a number variable is misset, and says so of the
first. Otherwise it leaves the one configuration in which the environment has decided what it speaks about, and to
do it again changes nothing. -/
theorem overlay_environment (c : Config) (lookup : String → Option String) :
    (∀ c', c.overlay lookup = .ok c' ↔
      (∀ setting ∈ numberVariables, ∀ value, ¬ Misset lookup setting.1 setting.2 value) ∧
        Overlaid lookup c c') ∧
    (∀ fault, c.overlay lookup = .error fault ↔
      ∃ name value, FirstMisset lookup numberVariables name value ∧
        fault = .config (.notANumber name value)) ∧
    ∀ c', c.overlay lookup = .ok c' → c'.overlay lookup = .ok c' := by
  refine ⟨fun _ => overlay_ok_iff, fun _ => overlay_error_iff, fun c' h => ?_⟩
  obtain ⟨hfine, hover⟩ := overlay_ok_iff.mp h
  exact overlay_ok_iff.mpr ⟨hfine, hover.again⟩

/-- A runtime is named over a configuration with a server, and the port has a sign and white space around it. The
retries are misset, but the gap, which is so too, is not looked at. -/
theorem overlay_environment_server :
    let c : Config := { server := some { server := "a", args := ["b"] } }
    let port : String → Option String := fun name =>
      if name = "CLRBRIDGE_PORT" then some "\t+080 " else if name = "CLRBRIDGE_RUNTIME" then some "mono" else none
    let wrong : String → Option String := fun name =>
      if name = "CLRBRIDGE_RETRIES" then some "4294967296" else if name = "CLRBRIDGE_RETRY_GAP_MS" then some "-1"
        else none
    let c' : Config := { c with port := 80, server := some { server := "a", runtime := some "mono", args := ["b"] } }
    (Overlaid port c c' ∧ c'.overlay port = .ok c') ∧
      FirstMisset wrong numberVariables "CLRBRIDGE_RETRIES" "4294967296" := by
  intro c port wrong c'
  have hok : c.overlay port = .ok c' := by decide +kernel
  have herror : c.overlay wrong = .error (.config (.notANumber "CLRBRIDGE_RETRIES" "4294967296")) := by
    decide +kernel
  obtain ⟨hiff, _, hagain⟩ := overlay_environment c port
  obtain ⟨name, value, hfirst, hfault⟩ := ((overlay_environment c wrong).2.1 _).mp herror
  cases hfault
  exact ⟨⟨((hiff c').mp hok).2, hagain c' hok⟩, hfirst⟩

end ObjectBridge.Config
