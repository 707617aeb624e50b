import TracePipeline.Proofs.Records
import TracePipeline.Proofs.Unplaced

/-! Nulls in spans. A span is a record whose fields all read from `null` as if they were missing, so
that a `null` more changes nothing, wherever in a trace it is put. The one exception is the field
with two keys: `null` under one of them does not go together with the other one. -/

set_option autoImplicit false

namespace TracePipeline

/-! ## Spans as records -/

namespace Span

def childrenSlot : Slot SpanDraft :=
  .of childrenName SpanDraft.children (fun draft spans => { draft with children := some spans })
    (Tree.readOrDefault (Tree.readList read))

/-- The fields of a span, in the order of a span written as a list. -/
def fields : List (Slot SpanDraft) :=
  slots ++ [childrenSlot]

private theorem readAll_eq_mapM (items : List Tree) : readAll items = items.mapM read := by
  induction items with
  | nil => rfl
  | cons item items ih => rw [readAll, ih, List.mapM_cons]

theorem readChildren_eq (tree : Tree) :
    readChildren tree = Tree.readOrDefault (Tree.readList read) tree := by
  cases tree with
  | array start level items ending =>
      rw [readChildren, readAll_eq_mapM]
      rfl
  | _ =>
      rw [readChildren]
      · rfl
      · nofun

theorem fill_childrenSlot (draft : SpanDraft) (tree : Tree) :
    childrenSlot.fill draft tree = (Tree.readOrDefault (Tree.readList read) tree).map fun spans =>
      { draft with children := some spans } := rfl

private theorem find?_fields_children :
    fields.find? (fun slot => slot.answersTo childrenName) = some childrenSlot := by
  rfl

private theorem find?_fields_of_ne {name : String} (other : name ≠ childrenName) :
    fields.find? (fun slot => slot.answersTo name) =
      slots.find? fun slot => slot.answersTo name := by
  have refused : childrenSlot.answersTo name = false := by
    simp [Slot.answersTo, childrenSlot, Slot.of, other.symm]
  rw [fields, List.find?_append, List.find?_singleton, refused]
  exact Option.or_none

private theorem readEntries_eq (draft : SpanDraft) (entries : List (Key × Tree)) :
    readEntries draft entries = Slot.fillEntries fields draft entries := by
  induction entries generalizing draft with
  | nil => rw [readEntries, Slot.fillEntries]
  | cons entry entries ih =>
      obtain ⟨key, value⟩ := entry
      rw [readEntries, Slot.fillEntries]
      apply bind_congr
      intro name
      by_cases ofChildren : name = childrenName
      · rw [if_pos ofChildren, Slot.fillEntry, ofChildren, find?_fields_children, readChildren_eq]
        cases filled : draft.children.isSome with
        | true =>
            have taken : childrenSlot.filled draft = true := filled
            simp only [taken]
            rfl
        | false =>
            have free : childrenSlot.filled draft = false := filled
            simp only [free, fill_childrenSlot, Bool.false_eq_true, if_false]
            cases Tree.readOrDefault (Tree.readList read) value with
            | error fault => rfl
            | ok spans => exact ih _
      · rw [if_neg ofChildren, Slot.fillEntry, Slot.fillEntry, find?_fields_of_ne ofChildren]
        exact bind_congr fun draft => ih draft

private theorem readItems_eq (slots : List (Slot SpanDraft)) (draft : SpanDraft)
    (items : List Tree) :
    readItems slots draft items = Slot.fillItems (slots ++ [childrenSlot]) draft items := by
  induction slots generalizing draft items with
  | nil =>
      cases items with
      | nil => rw [readItems]; rfl
      | cons item items =>
          rw [readItems, readChildren_eq, List.nil_append, Slot.fillItems, fill_childrenSlot]
          cases Tree.readOrDefault (Tree.readList read) item <;> rfl
  | cons slot slots ih =>
      cases items with
      | nil => rw [readItems]; rfl
      | cons item items =>
          rw [readItems, List.cons_append, Slot.fillItems]
          exact bind_congr fun draft => ih draft items

theorem read_eq_readRecord :
    read = Tree.readRecord .streamed "SpanNode" fields {} fun draft => .ok draft.finish := by
  funext tree
  cases tree with
  | object start level entries ending =>
      rw [read, Tree.readRecord, readEntries_eq]
  | array start level items ending =>
      rw [read, Tree.readRecord, readItems_eq]
      apply bind_congr
      intro _
      apply bind_congr
      intro filled
      obtain ⟨draft, behind⟩ := filled
      cases behind <;> rfl
  | _ =>
      rw [read, Tree.readRecord]
      · rfl
      all_goals
        intro _ _ _ _ shape
        cases shape

private theorem blind_readText (tree : Tree) : Tree.Blind readText tree :=
  Tree.blind_readOrDefault (Tree.blind_readString tree)

private theorem blind_readValues (tree : Tree) : Tree.Blind readValues tree :=
  Tree.blind_readOrDefault (Tree.blind_readMap tree Tree.blind_readJson)

private theorem blind_readChildren {tree : Tree}
    (inside : ∀ item ∈ tree.parts, Tree.Blind read item) :
    Tree.Blind (Tree.readOrDefault (Tree.readList read)) tree := by
  apply Tree.blind_readOrDefault
  cases tree with
  | array start level items ending => exact Tree.blind_readList inside
  | _ => exact .error _ _

private theorem blind_fields {tree : Tree} (inside : ∀ item ∈ tree.parts, Tree.Blind read item) :
    ∀ slot ∈ fields, ∀ draft, Tree.Blind (slot.fill draft) tree := by
  have filled {α : Type} {reader : Tree → Except Fault α} (blind : Tree.Blind reader tree)
      (set : SpanDraft → α → SpanDraft) (draft : SpanDraft) :
      Tree.Blind (fun tree => (reader tree).map (set draft)) tree :=
    blind.map fun _ _ same => by rw [same]
  have text := filled (blind_readText tree)
  have values := filled (blind_readValues tree)
  have attributesBlind : Tree.Blind (fun tree => (readValues tree).map attributesOf) tree :=
    (blind_readValues tree).map fun _ _ same => by rw [same]
  have attributes := filled attributesBlind
  have children := filled (blind_readChildren inside)
  simp only [fields, slots, List.cons_append, List.nil_append, List.forall_mem_cons]
  exact ⟨text _, text _, text _, text _, text _, text _, text _, attributes _, values _,
    children _, nofun⟩

theorem blind_read (tree : Tree) : Tree.Blind read tree := by
  have step {tree : Tree}
      (inside : ∀ inner ∈ tree.parts, ∀ item ∈ inner.parts, Tree.Blind read item) :
      Tree.Blind read tree := by
    rw [read_eq_readRecord]
    exact Tree.blind_readRecord _ _ _ _ fun inner member => blind_fields (inside inner member)
  -- A span is two levels inside the span around it, so both levels are told.
  have both : Tree.Blind read tree ∧ ∀ inner ∈ tree.parts, Tree.Blind read inner := by
    induction tree using Tree.induct_inside with
    | scalar => exact ⟨step nofun, nofun⟩
    | broken => exact ⟨step nofun, nofun⟩
    | array start level items ending ih =>
        exact ⟨step fun inner member => (ih inner member).2,
          fun inner member => (ih inner member).1⟩
    | object start level entries ending ih =>
        refine ⟨step fun inner member => ?_, fun inner member => ?_⟩
        · obtain ⟨entry, present, rfl⟩ := List.mem_map.mp member
          exact (ih entry present).2
        · obtain ⟨entry, present, rfl⟩ := List.mem_map.mp member
          exact (ih entry present).1
  exact both.1

/-! ## Fields of a span -/

theorem separate_fields : Slot.Separate fields := by
  constructor
  case apart =>
    simp only [fields, slots, childrenSlot, List.cons_append, List.nil_append, List.pairwise_cons,
      List.forall_mem_cons]
    and_intros
    all_goals first
      | exact ⟨by decide, Slot.leaves_of (fun _ _ => rfl) (fun _ _ _ => rfl),
          Slot.leaves_of (fun _ _ => rfl) (fun _ _ _ => rfl)⟩
      | simp
  case remembers =>
    simp only [fields, slots, childrenSlot, List.cons_append, List.nil_append,
      List.forall_mem_cons]
    and_intros
    all_goals first
      | exact Slot.remembers_of fun _ _ => rfl
      | simp

private theorem nullIsMissing_fields :
    ∀ slot ∈ fields, slot.filled {} = false ∧
      slot.NullIsMissing fun draft => (.ok draft.finish : Except String Span) := by
  simp only [fields, slots, childrenSlot, List.cons_append, List.nil_append, List.forall_mem_cons]
  and_intros
  all_goals first
    | rfl
    | exact Slot.nullIsMissing_of rfl fun draft missing => by
        simp only [SpanDraft.finish, missing]
        rfl
    | simp

/-- The field of the attributes of a span, the only one with two keys. -/
def attributesSlot : Slot SpanDraft :=
  { Slot.of "attributes" SpanDraft.attributes
      (fun draft values => { draft with attributes := some values })
      (fun tree => (readValues tree).map attributesOf) with
    otherKey := some "attributesMap" }

theorem fields_attributes : fields[7]? = some attributesSlot := rfl

private theorem fields_children : fields[9]? = some childrenSlot := rfl

private theorem eq_attributes_of_two_keys :
    ∀ slot ∈ fields, ∀ key ∈ slot.keys, ∀ key' ∈ slot.keys, key ≠ key' →
      key = "attributes" ∧ key' = "attributesMap" ∨
        key = "attributesMap" ∧ key' = "attributes" := by
  decide

private theorem attributesOf_insert_null {name : String} {values : Entries Json}
    (new : name ∉ values.keys) : attributesOf (values.insert name .null) = attributesOf values := by
  induction values with
  | nil => rfl
  | cons entry rest ih =>
      obtain ⟨other, value⟩ := entry
      have differ : name ≠ other := fun same => new (same ▸ .head _)
      rw [Entries.insert, if_neg differ]
      split
      case isTrue => rfl
      case isFalse =>
        rw [attributesOf, attributesOf, List.filterMap_cons, List.filterMap_cons]
        have others := ih fun member => new (.tail _ member)
        unfold attributesOf at others
        rw [others]

/-- A `null` among the attributes is no attribute. -/
theorem agree_attributes_null {name : String} {values values' : Tree}
    (put : Tree.NullPut name values values') (draft : SpanDraft) :
    Agree True (attributesSlot.fill draft values) (attributesSlot.fill draft values') := by
  have readValues_eq {tree : Tree} (solid : tree.isNull = false) :
      readValues tree = Tree.readMap Tree.readJson tree := by
    rw [readValues, Tree.readOrDefault, solid]
    rfl
  have read : Alike Eq ((readValues values).map attributesOf)
      ((readValues values').map attributesOf) := by
    rw [readValues_eq put.isNull.1, readValues_eq put.isNull.2]
    have null : Tree.readJson (Tree.ofScalar .null) = .ok .null := rfl
    exact (put.alike_readMap null).map fun values values' more => by
      rw [more.2, attributesOf_insert_null more.1]
  exact Agree.map (.of_alike read) _

/-! ## Nulls in spans -/

def acceptedKeys : List String :=
  ["stepType", "spanId", "traceId", "parentSpanId", "parent", "name", "spanName", "attributes",
    "attributesMap", "parameterMap", "children"]

private theorem exists_slot_of_acceptedKeys :
    ∀ name ∈ acceptedKeys, ∃ slot ∈ fields, name ∈ slot.keys := by
  decide

/-- A span with a `null` more: under one of its own keys that it does not have, or in the object of
its attributes. -/
inductive NullAdded : Tree → Tree → Prop
  | field {name : String} {old new : Tree} (accepted : name ∈ acceptedKeys)
      (put : Tree.NullPut name old new) : NullAdded old new
  | inAttributes {name : String} {values values' old new : Tree}
      (put : Tree.NullPut name values values')
      (held : Tree.FieldReplaced ["attributes", "attributesMap"] 7 values values' old new) :
      NullAdded old new

/-- One span for another somewhere in a trace: at the root, or among the children of a span. -/
inductive SpanReplaced (old new : Tree) : Tree → Tree → Prop
  | root : SpanReplaced old new old new
  | child {child child' children children' tree tree' : Tree}
      (inside : SpanReplaced old new child child')
      (among : Tree.ItemReplaced child child' children children')
      (held : Tree.FieldReplaced ["children"] 9 children children' tree tree') :
      SpanReplaced old new tree tree'

/-- A span has its attributes by both of the keys for them. -/
def SpellsTwice (tree : Tree) : Prop :=
  tree.Spells "attributes" ∧ tree.Spells "attributesMap"

private theorem SpellsTwice.read_eq_none {tree : Tree} (twice : SpellsTwice tree) :
    (read tree).toOption = none := by
  rw [read_eq_readRecord]
  exact Tree.readRecord_of_spells_twice separate_fields (List.mem_of_getElem? fields_attributes)
    (.head _) (.tail _ (.head _)) (by decide) twice.1 twice.2

theorem NullAdded.alike_read {old new : Tree} (added : NullAdded old new)
    (once : ¬SpellsTwice new) : Alike Eq (read old) (read new) := by
  rw [read_eq_readRecord]
  cases added with
  | @field name _ _ accepted put =>
      obtain ⟨slot, member, answers⟩ := exists_slot_of_acceptedKeys name accepted
      obtain ⟨unfilled, nulls⟩ := nullIsMissing_fields slot member
      refine put.alike_readRecord separate_fields member answers unfilled nulls ?_
      -- Only the field of the attributes has another key.
      intro key also differ spells
      have both := put.spells_of_spells spells
      obtain ⟨rfl, rfl⟩ | ⟨rfl, rfl⟩ :=
        eq_attributes_of_two_keys slot member key also name answers differ
      · exact once ⟨both, put.spells⟩
      · exact once ⟨put.spells, both⟩
  | inAttributes put held =>
      exact (held.agree_readRecord separate_fields fields_attributes (List.Subset.refl _)
        (agree_attributes_null put)).alike

theorem SpanReplaced.agree_read {kept : Prop} {old new tree tree' : Tree}
    (replaced : SpanReplaced old new tree tree') (same : Agree kept (read old) (read new)) :
    Agree kept (read tree) (read tree') := by
  induction replaced with
  | root => exact same
  | child inside among held ih =>
      rw [read_eq_readRecord]
      refine held.agree_readRecord separate_fields fields_children (List.Subset.refl _) ?_
      intro draft
      rw [fill_childrenSlot, fill_childrenSlot]
      refine Agree.map ?_ _
      exact Tree.agree_readOrDefault among.isNull.1 among.isNull.2 (among.agree_readList ih)

private theorem SpanReplaced.self {old new tree tree' : Tree}
    (replaced : SpanReplaced old new tree tree') :
    SpanReplaced new new tree' tree' := by
  induction replaced with
  | root => exact .root
  | child inside among held ih => exact .child ih among.self held.self

theorem toOption_ofDocument (document : Document) :
    (ofDocument document).toOption =
      if document.trailing.isSome then none else (read document.root.unplaced).toOption := by
  rw [← document.toOption_read (blind_read _), ofDocument]
  cases document.read read <;> rfl

instance (tree : Tree) : Decidable (SpellsTwice tree) :=
  inferInstanceAs (Decidable (_ ∧ _))

/-- A document in which a span has a `null` more is read as without it. Only where the span has got
its attributes by both keys, the whole document is refused. -/
theorem toOption_ofDocument_of_nullAdded {document document' : Document} {old new : Tree}
    (added : NullAdded old new)
    (replaced : SpanReplaced old new document.root.unplaced document'.root.unplaced)
    (trailing : document'.trailing.isSome = document.trailing.isSome) :
    (ofDocument document').toOption =
      if SpellsTwice new then none else (ofDocument document).toOption := by
  rw [toOption_ofDocument, toOption_ofDocument, trailing]
  by_cases twice : SpellsTwice new
  · have refused := Agree.error_iff.mp
      (replaced.self.agree_read (Agree.error_iff.mpr twice.read_eq_none))
    rw [if_pos twice, refused, ite_self]
  · have same := replaced.agree_read (.of_alike (added.alike_read twice))
    rw [if_neg twice, same.alike.toOption_eq]

def stageAround (inner : Json) : Json :=
  .object [("children", .array [inner]), ("stepType", .string "stage")]

def leafWith (fields : Entries Json) : Json :=
  .object (("name", .string "build") :: fields)

theorem integral_leafWith {fields : Entries Json}
    (each : ∀ field ∈ fields, Json.Integral field.2) : (leafWith fields).Integral :=
  .object (List.forall_mem_cons.mpr ⟨.string _, each⟩)

theorem integral_stageAround {inner : Json} (integral : inner.Integral) :
    (stageAround inner).Integral := by
  refine .object (List.forall_mem_cons.mpr ⟨?_, List.forall_mem_singleton.mpr (.string _)⟩)
  exact .array (List.forall_mem_singleton.mpr integral)

theorem replaced_stageAround (inner inner' : Json) :
    SpanReplaced (.ofJson inner) (.ofJson inner') (.ofJson (stageAround inner))
      (.ofJson (stageAround inner')) := by
  have among : Tree.ItemReplaced (.ofJson inner) (.ofJson inner') (.ofJson (.array [inner]))
      (.ofJson (.array [inner'])) := @Tree.ItemReplaced.item _ _ _ _ [] [] _
  exact .child .root among (@Tree.FieldReplaced.entry _ _ _ _ _ _ _ "children" [] _ _ rfl (.head _))

/-- A stage is read alike with `null` for the parent of a span in it and without. -/
theorem ofText_null_parent :
    ∃ span, (ofText (stageAround (leafWith [])).prettyText).toOption = some span ∧
      (ofText (stageAround (leafWith [("parent", .null)])).prettyText).toOption = some span := by
  have integral : (stageAround (leafWith [])).Integral :=
    integral_stageAround (integral_leafWith nofun)
  have integral' : (stageAround (leafWith [("parent", .null)])).Integral :=
    integral_stageAround (integral_leafWith (List.forall_mem_singleton.mpr .null))
  obtain ⟨root, whole⟩ := Document.ofText_prettyText integral (by decide)
  obtain ⟨root', whole'⟩ := Document.ofText_prettyText integral' (by decide)
  have added : NullAdded (.ofJson (leafWith [])) (.ofJson (leafWith [("parent", .null)])) := by
    refine .field (by decide : "parent" ∈ acceptedKeys) ?_
    exact @Tree.NullPut.entry _ _ _ _ [_] [] _ rfl (by decide)
  have replaced := replaced_stageAround (leafWith []) (leafWith [("parent", .null)])
  rw [← root, ← root'] at replaced
  have read := toOption_ofDocument_of_nullAdded added replaced (by rw [whole, whole'])
  rw [if_neg (by decide)] at read
  have accepted : (ofText (stageAround (leafWith [])).prettyText).toOption.isSome := by
    rw [ofText, toOption_ofDocument, whole, root]
    rfl
  obtain ⟨span, found⟩ := Option.isSome_iff_exists.mp accepted
  exact ⟨span, found, read.trans found⟩

def oneKey : Json :=
  leafWith [("attributes", .object [])]

def bothKeys : Json :=
  leafWith [("attributes", .object []), ("attributesMap", .null)]

/-- A stage is refused for a span in it that has `null` under the other key for its attributes. -/
theorem not_ofDocument_null_attributes :
    ¬∀ (document document' : Document) (old new : Tree), NullAdded old new →
      SpanReplaced old new document.root.unplaced document'.root.unplaced →
      document'.trailing.isSome = document.trailing.isSome →
      (ofDocument document').toOption = (ofDocument document).toOption := by
  intro always
  have integral : (stageAround oneKey).Integral :=
    integral_stageAround (integral_leafWith (List.forall_mem_singleton.mpr (.object nofun)))
  have integral' : (stageAround bothKeys).Integral := by
    refine integral_stageAround (integral_leafWith ?_)
    rw [List.forall_mem_cons, List.forall_mem_singleton]
    exact ⟨.object nofun, .null⟩
  obtain ⟨root, whole⟩ := Document.ofText_prettyText integral (by decide)
  obtain ⟨root', whole'⟩ := Document.ofText_prettyText integral' (by decide)
  have added : NullAdded (.ofJson oneKey) (.ofJson bothKeys) := by
    refine .field (by decide : "attributesMap" ∈ acceptedKeys) ?_
    exact @Tree.NullPut.entry _ _ _ _ [_, _] [] _ rfl (by decide)
  have replaced := replaced_stageAround oneKey bothKeys
  rw [← root, ← root'] at replaced
  have same := always _ _ _ _ added replaced (by rw [whole, whole'])
  rw [toOption_ofDocument, toOption_ofDocument, whole, whole', root, root'] at same
  cases same

end Span

end TracePipeline
