import ObjectBridge.Proofs.Message.Parts
import ObjectBridge.Proofs.Wire.Delivery

/-!
# Which messages can be written

A message counts its texts, labels, arrays, rows, columns and arguments and writes each number in front of
what it counts. These numbers are all that can be too great for the wire: `Message.counts` lists them in the
order of writing, from the message and what it holds and without its layout. Main statement:
`message_encodable`, a message is written exactly if every number is within its limit, and otherwise
everything in front of the first number that is not.
-/

namespace ObjectBridge

/-- A number in front of what it counts: what that is, how many there are, and how many the word for
the number allows. -/
structure Count where
  what : String
  size : Nat
  most : Nat

namespace Count

def exceeds (c : Count) : Bool := c.most < c.size

def ofLength (what : String) (size : Nat) : Count := ⟨what, size, 2147483647⟩

def ofArguments (size : Nat) : Count := ⟨"argument list", size, 65535⟩

def ofText (s : String) : Count := ofLength "string" s.utf8ByteSize

def ofTexts (what : String) (ss : List String) : List Count := ofLength what ss.length :: ss.map ofText

/-- Labels that are absent count as none. -/
def ofLabels (names : Option (List String)) : List Count := ofTexts "label block" (names.getD [])

end Count

namespace Message

/-- What a message counts itself, without the messages that it holds. The values of a matrix are not
counted, only its rows and columns are. -/
def ownCounts : Message → List Count
  | string s | exception s | templateReq s => [.ofText s]
  | object ref => ref.className.toList.map .ofText
  | vector v => Count.ofLabels v.labels ++ [.ofLength "float64 array" v.values.length]
  | matrix m =>
    Count.ofLabels m.rowLabels ++ Count.ofLabels m.colLabels ++
      [.ofLength "matrix rows" m.rows, .ofLength "matrix columns" m.cols]
  | boolArray vs => [.ofLength "bool array" vs.length]
  | byteArray vs => [.ofLength "byte array" vs.length]
  | int32Array vs => [.ofLength "int32 array" vs.length]
  | int64Array vs => [.ofLength "int64 array" vs.length]
  | float64Array vs => [.ofLength "float64 array" vs.length]
  | stringArray vs => Count.ofTexts "string array" vs
  | objectArray items => [.ofLength "object array" items.length]
  | create className args => [.ofText className, .ofArguments args.length]
  | callStaticMethod className method args =>
    [.ofText className, .ofText method, .ofArguments args.length]
  | callMethod _ method args => [.ofText method, .ofArguments args.length]
  | getProperty _ property | getIndexedProperty _ property _ | setProperty _ property _ =>
    [.ofText property]
  | getStaticProperty className property | setStaticProperty className property _ =>
    [.ofText className, .ofText property]
  | templateReply members =>
    Count.ofTexts "string array" members.properties ++ Count.ofTexts "string array" members.methods ++
      Count.ofTexts "string array" members.staticMethods
  | null | bool _ | byte _ | int32 _ | int64 _ | float64 _ | getIndexed .. | protect _ | release _ => []

/-- What a message and the messages in it count, at any depth, in the order of writing. -/
def counts (m : Message) : List Count := m.parts.flatMap ownCounts

/-- No number in a message is too great for the word that carries it. -/
def Encodable (m : Message) : Prop := ∀ c ∈ m.counts, c.size ≤ c.most

end Message

/-! ### The numbers in a layout -/

/-- The number that a field writes, if it is one. -/
def Field.count? : Field → Option Count
  | raw _ | flags _ => none
  | length what n => some (.ofLength what n)
  | arity n => some (.ofArguments n)

@[simp] theorem filterMap_count_texts (what : String) (ss : List String) :
    (Field.texts what ss).filterMap Field.count? = Count.ofTexts what ss := by
  have htexts : (ss.flatMap Field.text).filterMap Field.count? = ss.map Count.ofText := by
    induction ss with
    | nil => rfl
    | cons s ss ih => rw [List.flatMap_cons, List.filterMap_append, ih]; rfl
  rw [Field.texts, List.filterMap_cons, htexts]
  rfl

@[simp] theorem filterMap_count_labels (names : Option (List String)) :
    (Field.labels names).filterMap Field.count? = Count.ofLabels names := by
  cases names with
  | none => rfl
  | some names => exact filterMap_count_texts _ _

namespace Message

theorem partsOfAll_counts (ms : List Message) :
    (partsOfAll ms).flatMap ownCounts = ms.flatMap counts := by
  induction ms with
  | nil => rfl
  | cons m ms ih => rw [partsOfAll, List.flatMap_append, ih]; rfl

theorem counts_of_inner {m : Message} (inner : List Message) (hparts : m.parts = m :: partsOfAll inner) :
    m.counts = m.ownCounts ++ inner.flatMap counts := by
  rw [counts, hparts, List.flatMap_cons, partsOfAll_counts]

mutual

theorem filterMap_count_layout (m : Message) : m.layout.filterMap Field.count? = m.counts := by
  have leaf {m : Message} (hparts : m.parts = [m])
      (hown : m.layout.filterMap Field.count? = m.ownCounts) :
      m.layout.filterMap Field.count? = m.counts := by
    rw [hown, counts_of_inner [] hparts, List.flatMap_nil, List.append_nil]
  cases m with
  | objectArray items =>
    rw [counts_of_inner items rfl, ← filterMap_count_layouts items]
    rfl
  | create className args =>
    rw [counts_of_inner args rfl, ← filterMap_count_layouts args]
    rfl
  | callStaticMethod className method args =>
    rw [counts_of_inner args rfl, ← filterMap_count_layouts args]
    rfl
  | callMethod id method args =>
    rw [counts_of_inner args rfl, ← filterMap_count_layouts args]
    rfl
  | setProperty id property value =>
    rw [counts_of_inner [value] (by simp [parts, partsOfAll]), List.flatMap_singleton,
      ← filterMap_count_layout value]
    rfl
  | setStaticProperty className property value =>
    rw [counts_of_inner [value] (by simp [parts, partsOfAll]), List.flatMap_singleton,
      ← filterMap_count_layout value]
    rfl
  | object ref =>
    refine leaf rfl ?_
    obtain ⟨id, className⟩ := ref
    cases className <;> rfl
  | vector v =>
    refine leaf rfl ?_
    show (Field.labels v.labels ++ _).filterMap Field.count? = _
    rw [List.filterMap_append, filterMap_count_labels]
    rfl
  | matrix t =>
    refine leaf rfl ?_
    show (Field.labels t.rowLabels ++ Field.labels t.colLabels ++ _).filterMap Field.count? = _
    rw [List.filterMap_append, List.filterMap_append, filterMap_count_labels, filterMap_count_labels]
    rfl
  | stringArray vs => exact leaf rfl (filterMap_count_texts "string array" vs)
  | templateReply members =>
    refine leaf rfl ?_
    show (Field.texts "string array" members.properties ++ Field.texts "string array" members.methods ++
      Field.texts "string array" members.staticMethods).filterMap Field.count? = _
    rw [List.filterMap_append, List.filterMap_append, filterMap_count_texts, filterMap_count_texts,
      filterMap_count_texts]
    rfl
  | _ => exact leaf rfl rfl

theorem filterMap_count_layouts (ms : List Message) :
    (layouts ms).filterMap Field.count? = ms.flatMap counts := by
  cases ms with
  | nil => rfl
  | cons m ms =>
    rw [layouts, List.filterMap_append, filterMap_count_layout m, filterMap_count_layouts ms,
      List.flatMap_cons]

end

end Message

/-! ### Writing up to the first number that does not fit -/

/-- A field that cannot be written is a number beyond its limit, and the fault names it. -/
theorem Field.fault?_eq_some {f : Field} {fault : Fault} (h : f.fault? = some fault) :
    ∃ c, f.count? = some c ∧ c.most < c.size ∧ fault = .tooLong c.what c.size := by
  cases f with
  | raw bs | flags vs => cases h
  | length what n =>
    by_cases hn : n < 0x80000000
    · simp only [fault?, if_pos hn] at h
      cases h
    · simp only [fault?, if_neg hn, Option.some.injEq] at h
      refine ⟨.ofLength what n, rfl, ?_, h.symm⟩
      show 2147483647 < n
      omega
  | arity n =>
    by_cases hn : n < 0x10000
    · simp only [fault?, if_pos hn] at h
      cases h
    · simp only [fault?, if_neg hn, Option.some.injEq] at h
      refine ⟨.ofArguments n, rfl, ?_, h.symm⟩
      show 65535 < n
      omega

theorem Field.size_le_of_fault? {f : Field} {c : Count} (h : f.fault? = none) (hc : f.count? = some c) :
    c.size ≤ c.most := by
  cases f with
  | raw bs | flags vs => cases hc
  | length what n =>
    cases hc
    by_cases hn : n < 0x80000000
    · show n ≤ 2147483647
      omega
    · simp only [fault?, if_neg hn] at h
      cases h
  | arity n =>
    cases hc
    by_cases hn : n < 0x10000
    · show n ≤ 65535
      omega
    · simp only [fault?, if_neg hn] at h
      cases h

/-- Fields are written up to the first number that is too great. -/
theorem exists_first_fault {fields : List Field} {fault : Fault} (h : firstFault? fields = some fault) :
    ∃ front field back c, fields = front ++ field :: back ∧ field.count? = some c ∧ c.most < c.size ∧
      (∀ b ∈ front.filterMap Field.count?, b.size ≤ b.most) ∧ fault = .tooLong c.what c.size ∧
      writable fields = front.flatMap Field.bytes := by
  obtain ⟨front, field, back, rfl, hfault, hfront⟩ := List.findSome?_eq_some_iff.mp h
  obtain ⟨c, hc, hexceeds, htext⟩ := Field.fault?_eq_some hfault
  have hfits : ∀ f ∈ front, f.fits = true := fun f hf => by
    rw [Field.fits, hfront f hf]
    rfl
  refine ⟨front, field, back, c, rfl, hc, hexceeds, fun b hb => ?_, htext, ?_⟩
  · obtain ⟨f, hf, hcount⟩ := List.mem_filterMap.mp hb
    exact Field.size_le_of_fault? (hfront f hf) hcount
  · have hstop : field.fits = false := by
      rw [Field.fits, hfault]
      rfl
    rw [writable, List.takeWhile_append_of_pos hfits, List.takeWhile_cons_of_neg (by simp [hstop]),
      List.append_nil]

theorem find?_exceeds {front back : List Count} {c : Count} (hfront : ∀ b ∈ front, b.size ≤ b.most)
    (hc : c.most < c.size) : (front ++ c :: back).find? Count.exceeds = some c := by
  refine List.find?_eq_some_iff_append.mpr ⟨decide_eq_true hc, front, back, rfl, fun b hb => ?_⟩
  have hle := hfront b hb
  simp only [Count.exceeds, Bool.not_eq_true', decide_eq_false_iff_not]
  omega

theorem Message.encodeFault?_eq_none_iff {m : Message} : m.encodeFault? = none ↔ m.Encodable := by
  rw [Encodable, ← filterMap_count_layout]
  constructor
  · intro h c hc
    obtain ⟨f, hf, hcount⟩ := List.mem_filterMap.mp hc
    exact Field.size_le_of_fault? (List.findSome?_eq_none_iff.mp h f hf) hcount
  · intro h
    cases hfault : m.encodeFault? with
    | none => rfl
    | some fault =>
      obtain ⟨front, field, back, c, hlayout, hc, hexceeds, _⟩ := exists_first_fault hfault
      have hle := h c (List.mem_filterMap.mpr ⟨field, by rw [hlayout]; simp, hc⟩)
      omega

/-- A message is written exactly if each argument list in it, at any depth, has at most 65535 members and
each text, array, block of labels, row and column count is at most 2147483647. It is then written in full.
Otherwise the fault names the first number in the order of writing that is too great, and pending are the
bytes of all fields in front of it. -/
theorem message_encodable (m : Message) (w : Writer) :
    ((∃ w', Writer.message m w = .ok () w') ↔ m.Encodable) ∧
      (m.Encodable →
        Writer.message m w = .ok () { w with pending := w.pending ++ m.layout.flatMap Field.bytes }) ∧
      (¬ m.Encodable → ∃ front field back c, m.layout = front ++ field :: back ∧
        field.count? = some c ∧ c.most < c.size ∧
        (∀ b ∈ front.filterMap Field.count?, b.size ≤ b.most) ∧
        m.counts.find? Count.exceeds = some c ∧
        Writer.message m w = .error (.tooLong c.what c.size)
          { w with pending := w.pending ++ front.flatMap Field.bytes }) := by
  have hfits (h : m.Encodable) :
      Writer.message m w = .ok () { w with pending := w.pending ++ m.layout.flatMap Field.bytes } := by
    have hfault := Message.encodeFault?_eq_none_iff.mpr h
    rw [← writable_of_fits (firstFault?_eq_none_iff.mp hfault)]
    exact Writer.message_of_fits w hfault
  refine ⟨⟨fun hok => ?_, fun h => ⟨_, hfits h⟩⟩, hfits, fun hnot => ?_⟩
  · obtain ⟨w', hw'⟩ := hok
    exact Message.encodeFault?_eq_none_iff.mp (Writer.message_ok_iff.mp hw').1
  · cases hfault : m.encodeFault? with
    | none => exact absurd (Message.encodeFault?_eq_none_iff.mp hfault) hnot
    | some fault =>
      obtain ⟨front, field, back, c, hlayout, hc, hexceeds, hfront, rfl, hbytes⟩ :=
        exists_first_fault hfault
      refine ⟨front, field, back, c, hlayout, hc, hexceeds, hfront, ?_, ?_⟩
      · rw [← Message.filterMap_count_layout, hlayout, List.filterMap_append,
          List.filterMap_cons_some hc]
        exact find?_exceeds hfront hexceeds
      · rw [← hbytes]
        exact (Writer.message_of_fault w hfault).1

/-- One argument too many, inside an array and behind texts that fit. -/
theorem message_encodable_crowded :
    ∃ front field back,
      (Message.objectArray [.string "a", .create "Huge" (List.replicate 65536 .null)]).layout =
        front ++ field :: back ∧
      field.count? = some (.ofArguments 65536) ∧
      Writer.message (.objectArray [.string "a", .create "Huge" (List.replicate 65536 .null)])
          (.ofSink {}) =
        .error (.tooLong "argument list" 65536) { sink := {}, pending := front.flatMap Field.bytes } := by
  have hlen : (List.replicate 65536 Message.null).length = 65536 := List.length_replicate
  generalize List.replicate 65536 Message.null = args at hlen ⊢
  have hcounts : (Message.objectArray [.string "a", .create "Huge" args]).counts =
      [.ofLength "object array" 2, .ofText "a", .ofText "Huge"] ++ .ofArguments 65536 ::
        (Message.partsOfAll args).flatMap Message.ownCounts := by
    simp [Message.counts, Message.parts, Message.partsOfAll, Message.ownCounts, hlen]
  have hexceeds : (Count.ofArguments 65536).most < (Count.ofArguments 65536).size := by decide
  have hfront : ∀ b ∈ [Count.ofLength "object array" 2, .ofText "a", .ofText "Huge"], b.size ≤ b.most := by
    simp only [List.forall_mem_cons, List.not_mem_nil, false_implies, implies_true, and_true]
    decide
  have hnot : ¬ (Message.objectArray [.string "a", .create "Huge" args]).Encodable := fun h => by
    have hle := h (.ofArguments 65536) (by rw [hcounts]; simp)
    omega
  obtain ⟨front, field, back, c, hlayout, hc, _, _, hfirst, hwritten⟩ :=
    (message_encodable (.objectArray [.string "a", .create "Huge" args]) (.ofSink {})).2.2 hnot
  rw [hcounts, find?_exceeds hfront hexceeds] at hfirst
  cases hfirst
  exact ⟨front, field, back, hlayout, hc, hwritten⟩

end ObjectBridge
