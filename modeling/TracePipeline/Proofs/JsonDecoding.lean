import TracePipeline.Pipeline.Reading
import TracePipeline.Proofs.Entries
import TracePipeline.Proofs.JsonTexts

/-! How trees that show values are decoded. A reader of a type is right for a value and a result if
it gives that result for each tree that shows the value; readers of lists, maps and records are
right when the readers of their parts are. -/

set_option autoImplicit false

namespace TracePipeline

theorem Scalar.toJson_injective {first second : Scalar} (same : first.toJson = second.toJson) :
    first = second := by
  cases first <;> cases second <;> cases same <;> rfl

namespace Tree

/-! ## The shape of trees -/

theorem Shows.scalar_eq (content : Scalar) {tree : Tree} (shows : Shows content.toJson tree) :
    ∃ start stop, tree = .scalar start (.ok content) stop := by
  generalize shape : content.toJson = value at shows
  cases shows with
  | @scalar _ other start stop same =>
      rw [Scalar.toJson_injective (shape.trans same.symm)]
      exact ⟨start, stop, rfl⟩
  | array | object => cases content <;> cases shape

theorem Shows.array_eq {items : List Json} {tree : Tree} (shows : Shows (.array items) tree) :
    ∃ start level trees stop, tree = .array start level trees (.closed stop) ∧
      level < levelLimit ∧ List.Forall₂ Shows items trees := by
  cases shows with
  | @scalar _ content start stop same => cases content <;> cases same
  | @array level items trees start stop within each =>
      exact ⟨start, level, trees, stop, rfl, within, each⟩

def ShowsEntry (entry : String × Json) (part : Key × Tree) : Prop :=
  part.1.text = .ok entry.1 ∧ Shows entry.2 part.2

private theorem showsEntry_of_each {entries : List (String × Json)} {parts : List (Key × Tree)}
    (keys : List.Forall₂ (fun entry part => part.1.text = .ok entry.1) entries parts)
    (each : List.Forall₂ (fun entry part => Shows entry.2 part.2) entries parts) :
    List.Forall₂ ShowsEntry entries parts := by
  induction keys with
  | nil => exact .nil
  | cons named keys ih =>
      cases each with
      | cons own each => exact .cons ⟨named, own⟩ (ih each)

theorem Shows.object_eq {entries : List (String × Json)} {tree : Tree}
    (shows : Shows (.object entries) tree) :
    ∃ start level parts stop, tree = .object start level parts (.closed stop) ∧
      level < levelLimit ∧ List.Forall₂ ShowsEntry entries parts := by
  cases shows with
  | @scalar _ content start stop same => cases content <;> cases same
  | @object level entries parts start stop within keys each =>
      exact ⟨start, level, parts, stop, rfl, within, showsEntry_of_each keys each⟩

theorem enter_eq_ok {level : Nat} (within : level < levelLimit) (start : Position) :
    enter start level = .ok () :=
  if_pos within

/-! ## Single values -/

/-- A reader gives a result for all trees that show a value. -/
def Reads {α : Type} (reader : Tree → Except Fault α) (value : Json) (result : α) : Prop :=
  ∀ tree, Shows value tree → reader tree = .ok result

theorem reads_string (text : String) : Reads readString (.string text) text := by
  intro tree shows
  obtain ⟨start, stop, rfl⟩ := shows.scalar_eq (.string text)
  rfl

theorem reads_bool (value : Bool) : Reads readBool (.bool value) value := by
  intro tree shows
  obtain ⟨start, stop, rfl⟩ := shows.scalar_eq (.bool value)
  rfl

theorem reads_word32 (value : UInt32) : Reads readWord32 (Json.word32 value) value := by
  intro tree shows
  obtain ⟨start, stop, rfl⟩ := shows.scalar_eq (.number (.integer value.toNat))
  have within : (0 : Int) ≤ value.toNat ∧ (value.toNat : Int) < Nat.pow 2 32 := by
    have bound := value.toNat_lt
    simp only [Nat.pow_eq]
    omega
  simp only [readWord32, if_pos within, Int.toNat_natCast, UInt32.ofNat_toNat]

theorem reads_variant {α : Type} (origin : Origin) {variants : List (String × α)} {name : String}
    {variant : α} (known : variants.lookup name = some variant) :
    Reads (readVariant origin variants) (.string name) variant := by
  intro tree shows
  obtain ⟨start, stop, rfl⟩ := shows.scalar_eq (.string name)
  simp only [readVariant, readVariant.named, known]

theorem Shows.isNull_eq_false {value : Json} {tree : Tree} (shows : Shows value tree)
    (notNull : value.isNull = false) : tree.isNull = false := by
  cases shows with
  | @scalar _ content start stop same =>
      subst same
      cases content with
      | null => cases notNull
      | bool | number | string => rfl
  | array | object => rfl

theorem reads_option {α : Type} {reader : Tree → Except Fault α} {value : Json} {result : α}
    (notNull : value.isNull = false) (reads : Reads reader value result) :
    Reads (readOption reader) value (some result) := by
  intro tree shows
  simp only [readOption, shows.isNull_eq_false notNull, Bool.false_eq_true, if_false,
    reads tree shows]
  rfl

/-! ## Lists and maps -/

variable {α : Type} {reader : Tree → Except Fault α} {encode : α → Json}

theorem mapM_map_eq_ok {β : Type} {values : List β} {encode : β → Json} {decode : β → α}
    {trees : List Tree} (each : ∀ value ∈ values, Reads reader (encode value) (decode value))
    (shown : List.Forall₂ Shows (values.map encode) trees) :
    trees.mapM reader = .ok (values.map decode) := by
  induction values generalizing trees with
  | nil =>
      cases shown
      rfl
  | cons value values ih =>
      cases shown with
      | @cons _ tree _ trees first rest =>
          have own := each value (.head _) tree first
          have others := ih (fun value member => each value (.tail _ member)) rest
          rw [List.mapM_cons, own, others]
          rfl

theorem mapM_eq_ok {items : List α} {trees : List Tree}
    (each : ∀ item ∈ items, Reads reader (encode item) item)
    (shown : List.Forall₂ Shows (items.map encode) trees) : trees.mapM reader = .ok items := by
  have read := mapM_map_eq_ok (show ∀ item ∈ items, Reads reader (encode item) (id item) from each)
    shown
  rwa [List.map_id] at read

theorem reads_list {items : List α} (each : ∀ item ∈ items, Reads reader (encode item) item) :
    Reads (readList reader) (.array (items.map encode)) items := by
  intro tree shows
  obtain ⟨start, level, trees, stop, rfl, within, shown⟩ := shows.array_eq
  simp only [readList, enter_eq_ok within, mapM_eq_ok each shown]
  rfl

/-- The value of a map. -/
def mapEntries (encode : α → Json) (entries : Entries α) : List (String × Json) :=
  entries.map fun entry => (entry.1, encode entry.2)

private theorem readMapEntries_cons {key : Key} {tree : Tree} {name : String} {value : α}
    (named : key.text = .ok name) (read : reader tree = .ok value) (before : Entries α)
    (parts : List (Key × Tree)) :
    readMapEntries reader before ((key, tree) :: parts) =
      readMapEntries reader (before.insert name value) parts := by
  rw [readMapEntries, named]
  change (reader tree >>= _) = _
  rw [read]
  rfl

theorem readMapEntries_map_eq_ok {β : Type} {entries : Entries β} {encode : β → Json}
    {decode : β → α} {parts : List (Key × Tree)}
    (each : ∀ entry ∈ entries, Reads reader (encode entry.2) (decode entry.2))
    (shown : List.Forall₂ ShowsEntry (mapEntries encode entries) parts) (before : Entries α) :
    readMapEntries reader before parts =
      .ok (before.insertAll (entries.map fun entry => (entry.1, decode entry.2))) := by
  induction entries generalizing before parts with
  | nil =>
      cases shown
      rfl
  | cons entry entries ih =>
      cases shown with
      | @cons _ part _ parts first shown =>
          obtain ⟨named, own⟩ := first
          rw [readMapEntries_cons named (each entry (.head _) part.2 own),
            ih (fun entry member => each entry (.tail _ member)) shown]
          rfl

private theorem readMapEntries_eq_ok {before entries : Entries α} {parts : List (Key × Tree)}
    (sorted : Entries.Sorted (before ++ entries))
    (each : ∀ entry ∈ entries, Reads reader (encode entry.2) entry.2)
    (shown : List.Forall₂ ShowsEntry (mapEntries encode entries) parts) :
    readMapEntries reader before parts = .ok (before ++ entries) := by
  have read := readMapEntries_map_eq_ok
    (show ∀ entry ∈ entries, Reads reader (encode entry.2) (id entry.2) from each) shown before
  have same : (entries.map fun entry => (entry.1, id entry.2)) = entries := List.map_id entries
  rw [read, same, Entries.insertAll_eq_append sorted]

theorem reads_map {entries : Entries α} (sorted : entries.Sorted)
    (each : ∀ entry ∈ entries, Reads reader (encode entry.2) entry.2) :
    Reads (readMap reader) (.object (mapEntries encode entries)) entries := by
  intro tree shows
  obtain ⟨start, level, parts, stop, rfl, within, shown⟩ := shows.object_eq
  have read : readMapEntries reader [] parts = .ok ([] ++ entries) :=
    readMapEntries_eq_ok sorted each shown
  simp only [readMap, enter_eq_ok within, read]
  rfl

end Tree

/-! ## Values of any shape -/

namespace Json

mutual

/-- The value with the keys of its objects in order. Of equal keys the last one stays. -/
def inOrder : Json → Json
  | .array items => .array (inOrderItems items)
  | .object entries => .object (Entries.ofPairs (inOrderEntries entries))
  | value => value

def inOrderItems : List Json → List Json
  | [] => []
  | item :: items => inOrder item :: inOrderItems items

def inOrderEntries : List (String × Json) → List (String × Json)
  | [] => []
  | (key, value) :: entries => (key, inOrder value) :: inOrderEntries entries

end

theorem inOrderItems_eq (items : List Json) : inOrderItems items = items.map inOrder := by
  induction items with
  | nil => rfl
  | cons item items ih => rw [inOrderItems, ih, List.map_cons]

theorem inOrderEntries_eq (entries : List (String × Json)) :
    inOrderEntries entries = entries.map fun entry => (entry.1, entry.2.inOrder) := by
  induction entries with
  | nil => rfl
  | cons entry entries ih => rw [inOrderEntries, ih, List.map_cons]

end Json

namespace Tree

theorem readJsonItems_eq (trees : List Tree) : readJsonItems trees = trees.mapM readJson := by
  induction trees with
  | nil => rfl
  | cons tree trees ih => rw [readJsonItems, ih, List.mapM_cons]

theorem readJsonEntries_eq (before : Entries Json) (parts : List (Key × Tree)) :
    readJsonEntries before parts = readMapEntries readJson before parts := by
  induction parts generalizing before with
  | nil => rfl
  | cons part parts ih =>
      obtain ⟨key, tree⟩ := part
      rw [readJsonEntries, readMapEntries]
      simp only [ih]

/-- A tree that shows a value is read as the value with its keys in order. -/
theorem Shows.readJson_eq {value : Json} {tree : Tree} (shows : Shows value tree) :
    readJson tree = .ok value.inOrder := by
  induction value using Json.induct_inside generalizing tree with
  | null =>
      obtain ⟨start, stop, rfl⟩ := shows.scalar_eq .null
      rfl
  | bool value =>
      obtain ⟨start, stop, rfl⟩ := shows.scalar_eq (.bool value)
      rfl
  | number value =>
      obtain ⟨start, stop, rfl⟩ := shows.scalar_eq (.number value)
      rfl
  | string value =>
      obtain ⟨start, stop, rfl⟩ := shows.scalar_eq (.string value)
      rfl
  | array items ih =>
      obtain ⟨start, level, trees, stop, rfl, within, shown⟩ := shows.array_eq
      have inside : ∀ item ∈ items, Reads readJson (id item) item.inOrder :=
        fun item member tree => ih item member
      have read := mapM_map_eq_ok inside (by rwa [List.map_id])
      simp only [readJson, enter_eq_ok within, readJsonItems_eq, read, Json.inOrder,
        Json.inOrderItems_eq]
      rfl
  | object entries ih =>
      obtain ⟨start, level, parts, stop, rfl, within, shown⟩ := shows.object_eq
      have inside : ∀ entry ∈ entries, Reads readJson (id entry.2) entry.2.inOrder :=
        fun entry member tree => ih entry member
      have same : mapEntries id entries = entries := List.map_id entries
      have read := readMapEntries_map_eq_ok inside (same.symm ▸ shown) []
      simp only [readJson, enter_eq_ok within, readJsonEntries_eq, read, Json.inOrder,
        Json.inOrderEntries_eq]
      rfl

end Tree

/-- A value that can be read: its keys are in order, and its numbers are integers that 64 bits
hold. -/
inductive Json.Plain : Json → Prop
  | null : Plain .null
  | bool (value : Bool) : Plain (.bool value)
  | integer {value : Int} (within : Numeral.Within value) : Plain (.number (.integer value))
  | string (value : String) : Plain (.string value)
  | array {items : List Json} (each : ∀ item ∈ items, Plain item) : Plain (.array items)
  | object {entries : Entries Json} (sorted : entries.Sorted)
      (each : ∀ entry ∈ entries, Plain entry.2) : Plain (.object entries)

theorem Json.Plain.integral {value : Json} (plain : value.Plain) : value.Integral := by
  induction plain with
  | null => exact .null
  | bool value => exact .bool value
  | integer within => exact .integer within
  | string value => exact .string value
  | array each ih => exact .array ih
  | object sorted each ih => exact .object ih

theorem Json.Plain.inOrder_eq {value : Json} (plain : value.Plain) : value.inOrder = value := by
  induction plain with
  | null | bool | integer | string => rfl
  | @array items each ih =>
      rw [inOrder, inOrderItems_eq, List.map_congr_left ih, List.map_id']
  | @object entries sorted each ih =>
      have same : inOrderEntries entries = entries := by
        rw [inOrderEntries_eq]
        exact (List.map_congr_left fun entry member => by rw [ih entry member]).trans
          (List.map_id' entries)
      rw [inOrder, same, Entries.ofPairs_of_sorted sorted]

namespace Tree

theorem reads_json {value : Json} (plain : value.Plain) : Reads readJson value value := by
  intro tree shows
  rw [shows.readJson_eq, plain.inOrder_eq]

end Tree

/-! ## Records -/

namespace Slot

variable {σ : Type} {slots : List (Slot σ)}

/-- The entries of a record turn one draft into another. -/
def Fills (slots : List (Slot σ)) (draft : σ) (entries : List (String × Json)) (filled : σ) :
    Prop :=
  ∀ parts, List.Forall₂ Tree.ShowsEntry entries parts →
    fillEntries slots draft parts = .ok filled

theorem fills_nil (draft : σ) : Fills slots draft [] draft := by
  intro parts shown
  cases shown
  rfl

theorem fillEntry_eq_ok {β : Type} {name : String} {get : σ → Option β} {set : σ → β → σ}
    {reader : Tree → Except Fault β} {draft : σ} {tree : Tree} {result : β}
    (slot : slots.find? (fun slot => slot.answersTo name) = some (.of name get set reader))
    (unset : get draft = none) (read : reader tree = .ok result) (key : Key) :
    fillEntry slots draft key name tree = .ok (set draft result) := by
  have free : ¬(get draft).isSome := by simp [unset]
  simp only [fillEntry, slot, of, if_neg free, read]
  rfl

theorem fills_entry {β : Type} {name : String} {get : σ → Option β} {set : σ → β → σ}
    {reader : Tree → Except Fault β} {draft filled : σ} {value : Json} {result : β}
    {rest : List (String × Json)}
    (slot : slots.find? (fun slot => slot.answersTo name) = some (.of name get set reader))
    (unset : get draft = none) (reads : Tree.Reads reader value result)
    (others : Fills slots (set draft result) rest filled) :
    Fills slots draft ((name, value) :: rest) filled := by
  intro parts shown
  cases shown with
  | @cons _ part _ parts first shown =>
      obtain ⟨key, tree⟩ := part
      obtain ⟨named, own⟩ : key.text = .ok name ∧ Tree.Shows value tree := first
      have entry := fillEntry_eq_ok slot unset (reads tree own) key
      rw [fillEntries, named]
      change (fillEntry slots draft key name tree >>= _) = _
      rw [entry]
      exact others parts shown

/-- A field has a slot and has not been read yet. Reading it, or leaving it out, is putting what
there is of it into the draft. -/
structure Free {β : Type} (slots : List (Slot σ)) (name : String)
    (reader : Tree → Except Fault β) (draft : σ) (get : σ → Option β) (set : σ → β → σ)
    (put : σ → Option β → σ) : Prop where
  slot : slots.find? (fun slot => slot.answersTo name) = some (.of name get set reader)
  unset : get draft = none
  left : put draft none = draft
  taken : ∀ found, put draft (some found) = set draft found

theorem fills_field? {α β : Type} {name : String} {get : σ → Option β} {set : σ → β → σ}
    {reader : Tree → Except Fault β} {draft filled : σ} {value : Option α} {encode : α → Json}
    {rest : List (String × Json)} (put : σ → Option β → σ) (result : α → β)
    (free : Free slots name reader draft get set put)
    (reads : ∀ found, value = some found → Tree.Reads reader (encode found) (result found))
    (others : Fills slots (put draft (value.map result)) rest filled) :
    Fills slots draft (Json.field? name (value.map encode) ++ rest) filled := by
  cases value with
  | none =>
      rw [← free.left]
      exact others
  | some found =>
      refine fills_entry free.slot free.unset (reads found rfl) ?_
      rw [← free.taken]
      exact others

theorem fills_value? {β : Type} {name : String} {get : σ → Option β} {set : σ → β → σ}
    {reader : Tree → Except Fault β} {draft filled : σ} {value : Option β} {encode : β → Json}
    {rest : List (String × Json)} (put : σ → Option β → σ)
    (free : Free slots name reader draft get set put)
    (reads : ∀ found, value = some found → Tree.Reads reader (encode found) found)
    (others : Fills slots (put draft value) rest filled) :
    Fills slots draft (Json.field? name (value.map encode) ++ rest) filled :=
  fills_field? put id free reads (by rwa [Option.map_id])

end Slot

theorem Tree.reads_record {σ α : Type} {origin : Origin} {name : String} {slots : List (Slot σ)}
    {empty filled : σ} {finish : σ → Except String α} {entries : List (String × Json)} {result : α}
    (fills : Slot.Fills slots empty entries filled) (finished : finish filled = .ok result) :
    Reads (readRecord origin name slots empty finish) (.object entries) result := by
  intro tree shows
  obtain ⟨start, level, parts, stop, rfl, within, shown⟩ := shows.object_eq
  rw [readRecord, enter_eq_ok within, fills parts shown]
  simp only [bind, Except.bind, finished]
  rfl

end TracePipeline
