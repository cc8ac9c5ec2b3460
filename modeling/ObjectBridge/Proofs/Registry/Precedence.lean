import ObjectBridge.Proofs.Registry.Normal

/-!
# The standard rules come first

Every value is accepted by one of the three rules of the standard registry, so rules that are added behind
them are never asked, in lists neither. Main statement: `convert_addRules`. It says besides what the standard
rules come to: the message of a value has the place of every part of it filled by the message of that part,
and there is none just if some proxy in the value has let go of its object.
-/

namespace ObjectBridge

/-! ### Places -/

/-- What stands at a place in a value: the place gives the way down through the lists, one index for each
level. -/
def Value.at? (v : Value) : List Nat → Option Value
  | [] => some v
  | i :: place =>
    match v with
    | .list items => items[i]?.bind fun item => item.at? place
    | _ => none

def Message.at? (m : Message) : List Nat → Option Message
  | [] => some m
  | i :: place =>
    match m with
    | .objectArray items => items[i]?.bind fun item => item.at? place
    | _ => none

namespace Registry

variable {r r' : Registry} {released : Proxy → Bool}

def addRules (r : Registry) (rules : List Rule) : Registry := rules.foldl addRule r

def convertBy (r : Registry) (released : Proxy → Bool) (rule : Rule) (v : Value) :
    Except Fault Message :=
  match rule.converter, v with
  | .array, .list items => (r.convertAll released items).map .objectArray
  | .array, v => convertArray v
  | .object, v => convertObject released v
  | .scalar, v => convertScalar v
  | .custom f, .list items => f released (r.convertEach released items) (.list items)
  | .custom f, v => f released [] v

/-! ### Rules behind rules -/

theorem rules_addRules (r : Registry) (rules : List Rule) :
    (r.addRules rules).rules = r.rules ++ rules := by
  induction rules generalizing r with
  | nil => simp [addRules]
  | cons rule rules ih =>
    have hrest := ih (r.addRule rule)
    simpa [addRules, addRule] using hrest

theorem ruleFor?_addRules_of_some {v : Value} {rule : Rule} (rules : List Rule)
    (h : r.ruleFor? released v = some rule) : (r.addRules rules).ruleFor? released v = some rule := by
  unfold ruleFor? at *
  rw [rules_addRules, List.find?_append, h]
  rfl

theorem exists_ruleFor?_standard (released : Proxy → Bool) (v : Value) :
    ∃ rule, standard.ruleFor? released v = some rule := by
  cases v <;> exact ⟨_, rfl⟩

theorem ruleFor?_addRules_standard (rules : List Rule) (v : Value) :
    (standard.addRules rules).ruleFor? released v = standard.ruleFor? released v := by
  obtain ⟨rule, hrule⟩ := exists_ruleFor?_standard released v
  rw [hrule, ruleFor?_addRules_of_some rules hrule]

theorem convert_of_ruleFor? {v : Value} {rule : Rule} (h : r.ruleFor? released v = some rule) :
    r.convert released v = r.convertBy released rule v := by
  unfold convert
  rw [h]
  rfl

mutual

/-- A conversion depends on nothing of the registry but the rules that it finds. -/
theorem convert_congr (h : ∀ v, r.ruleFor? released v = r'.ruleFor? released v) (v : Value) :
    r.convert released v = r'.convert released v := by
  cases hrule : r'.ruleFor? released v with
  | none =>
    unfold convert
    rw [h v, hrule]
  | some rule =>
    have hrule' : r.ruleFor? released v = some rule := (h v).trans hrule
    rw [convert_of_ruleFor? hrule, convert_of_ruleFor? hrule']
    obtain ⟨name, accepts, converter⟩ := rule
    cases v with
    | list items =>
      have hitems := convertAll_congr h items
      have hmembers := convertEach_congr h items
      cases converter with
      | array => exact congrArg (Except.map Message.objectArray) hitems
      | custom f => exact congrArg (fun members => f released members (.list items)) hmembers
      | _ => rfl
    | _ => cases converter <;> rfl

theorem convertAll_congr (h : ∀ v, r.ruleFor? released v = r'.ruleFor? released v) (vs : List Value) :
    r.convertAll released vs = r'.convertAll released vs := by
  cases vs with
  | nil => rfl
  | cons v vs =>
    unfold convertAll
    rw [convert_congr h v, convertAll_congr h vs]

theorem convertEach_congr (h : ∀ v, r.ruleFor? released v = r'.ruleFor? released v) (vs : List Value) :
    r.convertEach released vs = r'.convertEach released vs := by
  cases vs with
  | nil => rfl
  | cons v vs =>
    unfold convertEach
    rw [convert_congr h v, convertEach_congr h vs]

end

/-! ### What the standard rules come to -/

mutual

theorem convert_of_released {v : Value} {p : Proxy} (h : v.proxies.find? released = some p) :
    standard.convert released v = .error (.released p.id) := by
  cases v with
  | object q =>
    have hq : released q = true ∧ q = p := by simpa [Value.proxies] using h
    obtain ⟨hreleased, rfl⟩ := hq
    rw [convert_object, handle, if_pos hreleased]
    rfl
  | list items =>
    rw [convert_list, convertAll_of_released h]
    rfl
  | _ => cases h

theorem convertAll_of_released {vs : List Value} {p : Proxy}
    (h : (Value.proxiesOfAll vs).find? released = some p) :
    standard.convertAll released vs = .error (.released p.id) := by
  cases vs with
  | nil => cases h
  | cons v vs =>
    rw [Value.proxiesOfAll, List.find?_append] at h
    unfold convertAll
    cases hv : v.proxies.find? released with
    | some q =>
      rw [hv] at h
      cases h
      rw [convert_of_released hv]
    | none =>
      rw [hv] at h
      have hlive : ∀ q ∈ v.proxies, released q = false := by simpa using hv
      obtain ⟨m, hm⟩ := exists_convert hlive
      rw [hm, convertAll_of_released h]

end

theorem convert_eq_error {v : Value} {fault : Fault} :
    standard.convert released v = .error fault ↔
      ∃ p, v.proxies.find? released = some p ∧ fault = .released p.id := by
  cases hv : v.proxies.find? released with
  | none =>
    have hlive : ∀ q ∈ v.proxies, released q = false := by simpa using hv
    obtain ⟨m, hm⟩ := exists_convert hlive
    simp [hm]
  | some p =>
    rw [convert_of_released hv]
    simp [eq_comm]

theorem convertAll_getElem? {vs : List Value} {ms : List Message}
    (h : standard.convertAll released vs = .ok ms) {i : Nat} {v : Value} (hv : vs[i]? = some v) :
    ∃ m, ms[i]? = some m ∧ standard.convert released v = .ok m := by
  induction vs generalizing ms i with
  | nil => cases hv
  | cons first vs ih =>
    obtain ⟨m, rest, hfirst, hrest, rfl⟩ := convertAll_cons_ok.mp h
    cases i with
    | zero =>
      cases hv
      exact ⟨m, rfl, hfirst⟩
    | succ i => exact ih hrest hv

theorem convert_at {v part : Value} {m : Message} {place : List Nat}
    (h : standard.convert released v = .ok m) (hpart : v.at? place = some part) :
    ∃ m', m.at? place = some m' ∧ standard.convert released part = .ok m' := by
  induction place generalizing v m with
  | nil =>
    cases hpart
    exact ⟨m, rfl, h⟩
  | cons i place ih =>
    cases v with
    | list items =>
      obtain ⟨item, hitem, hplace⟩ := Option.bind_eq_some_iff.mp hpart
      obtain ⟨ms, hms, rfl⟩ := convert_list_ok.mp h
      obtain ⟨inner, hinner, hconvert⟩ := convertAll_getElem? hms hitem
      obtain ⟨m', hm', hdone⟩ := ih hconvert hplace
      exact ⟨m', by simp [Message.at?, hinner, hm'], hdone⟩
    | _ => cases hpart

theorem convert_object_at {v : Value} {m : Message} {place : List Nat} {p : Proxy}
    (h : standard.convert released v = .ok m) (hp : v.at? place = some (.object p)) :
    m.at? place = some (.object ⟨p.id, p.className⟩) := by
  obtain ⟨m', hm', hconvert⟩ := convert_at h hp
  obtain ⟨_, rfl⟩ := convert_object_ok.mp hconvert
  exact hm'

/-- Whatever rules stand behind the standard ones, every value is converted as by the standard rules alone,
and so is every part of it. The conversion fails just if some proxy in the value has let go of its object,
and then for the first such proxy from left to right. A proxy becomes a reference with the identifier and
the class name of its object, at whatever depth it stands. The rule by which a value is classified is the
one that converts it, and it is a standard one. -/
theorem convert_addRules (rules : List Rule) (released : Proxy → Bool) (v : Value) :
    (standard.addRules rules).convert released v = standard.convert released v ∧
      (∀ fault, standard.convert released v = .error fault ↔
        ∃ p, v.proxies.find? released = some p ∧ fault = .released p.id) ∧
      (∀ m, standard.convert released v = .ok m →
        (∀ place part, v.at? place = some part →
          ∃ m', m.at? place = some m' ∧ (standard.addRules rules).convert released part = .ok m') ∧
        ∀ place p, v.at? place = some (.object p) →
          m.at? place = some (.object ⟨p.id, p.className⟩)) ∧
      ∃ rule ∈ standard.rules, rule.accepts released v = true ∧
        (standard.addRules rules).classify released v = some rule.name ∧
        (standard.addRules rules).convert released v =
          (standard.addRules rules).convertBy released rule v := by
  have hrules (v : Value) : (standard.addRules rules).ruleFor? released v = standard.ruleFor? released v :=
    ruleFor?_addRules_standard rules v
  refine ⟨convert_congr hrules v, fun fault => convert_eq_error, fun m hm => ⟨?_, ?_⟩, ?_⟩
  · intro place part hpart
    obtain ⟨m', hm', hconvert⟩ := convert_at hm hpart
    exact ⟨m', hm', (convert_congr hrules part).trans hconvert⟩
  · intro place p hp
    exact convert_object_at hm hp
  · obtain ⟨rule, hrule⟩ := exists_ruleFor?_standard released v
    have hfound : (standard.addRules rules).ruleFor? released v = some rule := (hrules v).trans hrule
    have haccepts : rule.accepts released v = true :=
      List.find?_some (p := fun rule : Rule => rule.accepts released v) hrule
    refine ⟨rule, List.mem_of_find?_eq_some hrule, haccepts, ?_, convert_of_ruleFor? hfound⟩
    rw [classify, hfound]
    rfl

example : (standard.addRules [⟨"null", fun _ _ => true, .custom fun _ _ _ => .ok .null⟩]).convert (·.key == 2)
    (.list [.int 4, .list [.object ⟨1, 0, 7, none⟩, .object ⟨2, 0, 8, none⟩], .object ⟨2, 0, 8, none⟩]) =
      .error (.released 8) := by
  rfl

end Registry

end ObjectBridge
