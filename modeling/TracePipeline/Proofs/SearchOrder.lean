import Mathlib.Data.List.Lex
import TracePipeline.Proofs.Entries
import TracePipeline.Proofs.Occurrences

/-! Searches by place. A place in a value is the way to it, key by key and item by item. A search
for a key goes through the places in lexicographic order and finds the first one where an object
holds something under the key. -/

set_option autoImplicit false

namespace TracePipeline.Json

/-- A value all of whose objects have their keys in order. -/
inductive Ordered : Json → Prop
  | null : Ordered .null
  | bool (value : Bool) : Ordered (.bool value)
  | number (value : Number) : Ordered (.number value)
  | string (value : String) : Ordered (.string value)
  | array {items : List Json} (each : ∀ item ∈ items, Ordered item) : Ordered (.array items)
  | object {entries : Entries Json} (sorted : entries.Sorted)
      (each : ∀ entry ∈ entries, Ordered entry.2) : Ordered (.object entries)

/-! ## Places -/

/-- A step from a value to a part of it. -/
inductive Branch where
  | key (name : String)
  | item (index : Nat)
deriving DecidableEq, Repr

/-- The part of a value behind one step. -/
def part? : Json → Branch → Option Json
  | .object entries, .key name => Entries.get? entries name
  | .array items, .item index => items[index]?
  | _, _ => none

/-- What stands at the end of a way into a value. -/
def at? (root : Json) : List Branch → Option Json
  | [] => some root
  | branch :: way => (part? root branch).bind fun inner => at? inner way

/-- At the end of a way stands an object that holds a value other than `null` under a key. -/
def Holds (key : String) (root : Json) (way : List Branch) (value : Json) : Prop :=
  ∃ entries : Entries Json, root.at? way = some (.object entries) ∧
    entries.get? key = some value ∧ value.isNull = false

/-- The order in which the parts of one value are searched. -/
inductive Branch.Before : Branch → Branch → Prop
  | key {name other : String} (below : name < other) : Before (.key name) (.key other)
  | item {index other : Nat} (below : index < other) : Before (.item index) (.item other)

/-- The order in which places are searched: an object comes before what is inside it, and the parts
of an object or a list come one after the other, each with all that is inside it. -/
def Precedes : List Branch → List Branch → Prop :=
  List.Lex Branch.Before

/-- The first place where an object holds something under a key. -/
def HoldsFirst (key : String) (root : Json) (way : List Branch) (value : Json) : Prop :=
  Holds key root way value ∧
    ∀ other found, Holds key root other found → other = way ∨ Precedes way other

instance : Std.Asymm Branch.Before where
  asymm first second := by
    intro before behind
    cases before with
    | key below =>
        cases behind with
        | key above => exact String.lt_asymm below above
    | item below =>
        cases behind with
        | item above => exact Nat.lt_asymm below above

theorem Precedes.asymm {first second : List Branch} (before : Precedes first second) :
    ¬Precedes second first :=
  Std.Asymm.asymm (r := List.Lex Branch.Before) first second before

/-- A first place has one value. -/
theorem HoldsFirst.unique {key : String} {root value value' : Json} {way way' : List Branch}
    (first : HoldsFirst key root way value) (first' : HoldsFirst key root way' value') :
    value = value' := by
  have same : way' = way := by
    rcases first.2 way' value' first'.1 with same | before
    · exact same
    · rcases first'.2 way value first.1 with same | behind
      · exact same.symm
      · exact absurd behind before.asymm
  subst same
  obtain ⟨entries, there, found, -⟩ := first.1
  obtain ⟨entries', there', found', -⟩ := first'.1
  cases there.symm.trans there'
  exact Option.some.inj (found.symm.trans found')

/-! ## One value -/

theorem holds_cons_iff {key : String} {root value : Json} {branch : Branch} {way : List Branch} :
    Holds key root (branch :: way) value ↔
      ∃ inner, part? root branch = some inner ∧ Holds key inner way value := by
  constructor
  case mp =>
    rintro ⟨entries, there, found⟩
    obtain ⟨inner, own, inside⟩ := Option.bind_eq_some_iff.mp there
    exact ⟨inner, own, entries, inside, found⟩
  case mpr =>
    rintro ⟨inner, own, entries, inside, found⟩
    exact ⟨entries, Option.bind_eq_some_iff.mpr ⟨inner, own, inside⟩, found⟩

/-- What a search through parts has found in one of them is first in the whole value, if the parts
before hold nothing and the value is not the place itself. -/
theorem HoldsFirst.cons {key : String} {root inner value : Json} {branch : Branch}
    {way : List Branch} (first : HoldsFirst key inner way value)
    (own : part? root branch = some inner) (noneHere : ∀ found, ¬Holds key root [] found)
    (others : ∀ other part, part? root other = some part → other = branch ∨
      Branch.Before branch other ∨ ∀ way found, ¬Holds key part way found) :
    HoldsFirst key root (branch :: way) value := by
  refine ⟨holds_cons_iff.mpr ⟨inner, own, first.1⟩, fun place found holds => ?_⟩
  cases place with
  | nil => exact absurd holds (noneHere found)
  | cons other deeper =>
      obtain ⟨part, there, inside⟩ := holds_cons_iff.mp holds
      rcases others other part there with rfl | behind | nothing
      · obtain rfl : inner = part := Option.some.inj (own.symm.trans there)
        rcases first.2 deeper found inside with rfl | later
        · exact .inl rfl
        · exact .inr (.cons later)
      · exact .inr (.rel behind)
      · exact absurd inside (nothing deeper found)

/-! ## Searching -/

private theorem findInItems_eq_findSome? (key : String) (items : List Json) :
    Param.findInItems key items = items.findSome? (Param.findIn key) := by
  induction items with
  | nil => rfl
  | cons item items ih =>
      rw [Param.findInItems, List.findSome?_cons, ih]
      cases Param.findIn key item <;> rfl

private theorem findInEntries_eq_findSome? (key : String) (entries : List (String × Json)) :
    Param.findInEntries key entries = entries.findSome? fun entry => Param.findIn key entry.2 := by
  induction entries with
  | nil => rfl
  | cons entry entries ih =>
      rw [Param.findInEntries, List.findSome?_cons, ih]
      cases Param.findIn key entry.2 <;> rfl

theorem holds_nil_iff {key : String} {entries : Entries Json} {value : Json} :
    Holds key (.object entries) [] value ↔ Param.ofValue? (entries.get? key) = some value := by
  rw [← Option.mem_def, mem_ofValue?_iff]
  constructor
  case mp =>
    rintro ⟨own, ⟨⟩, found⟩
    exact found
  case mpr => exact fun found => ⟨entries, rfl, found⟩

/-- The answer of a search: the first place that holds something, or that there is none. -/
def Answers (key : String) (root : Json) : Option Json → Prop
  | some value => ∃ way, HoldsFirst key root way value
  | none => ∀ way value, ¬Holds key root way value

private theorem answers_array {key : String} {items : List Json}
    (each : ∀ item ∈ items, Answers key item (Param.findIn key item)) :
    Answers key (.array items) (Param.findIn key (.array items)) := by
  have noneHere : ∀ found, ¬Holds key (.array items) [] found := by
    rintro found ⟨entries, ⟨⟩, -⟩
  rw [Param.findIn, findInItems_eq_findSome?]
  cases searched : items.findSome? (Param.findIn key) with
  | none =>
      intro way value holds
      cases way with
      | nil => exact noneHere value holds
      | cons branch way =>
          obtain ⟨inner, own, inside⟩ := holds_cons_iff.mp holds
          cases branch with
          | key name => cases own
          | item index =>
              have member := List.mem_of_getElem? own
              have answer := each inner member
              rw [List.findSome?_eq_none_iff.mp searched inner member] at answer
              exact answer way value inside
  | some value =>
      obtain ⟨before, inner, after, rfl, found, earlier⟩ := List.findSome?_eq_some_iff.mp searched
      have answer := each inner (by simp)
      rw [found] at answer
      obtain ⟨way, first⟩ := answer
      have own : part? (.array (before ++ inner :: after)) (.item before.length) = some inner := by
        simp [part?]
      refine ⟨_, first.cons own noneHere fun other part there => ?_⟩
      cases other with
      | key name => cases there
      | item index =>
          rcases Nat.lt_trichotomy index before.length with below | rfl | above
          · have present : before[index]? = some part := by
              rw [← there]
              exact (List.getElem?_append_left below).symm
            have member := List.mem_of_getElem? present
            have answer := each part (List.mem_append_left _ member)
            rw [earlier part member] at answer
            exact .inr (.inr answer)
          · exact .inl rfl
          · exact .inr (.inl (.item above))

private theorem answers_object {key : String} {entries : Entries Json} (sorted : entries.Sorted)
    (each : ∀ entry ∈ entries, Answers key entry.2 (Param.findIn key entry.2)) :
    Answers key (.object entries) (Param.findIn key (.object entries)) := by
  rw [Param.findIn, findInEntries_eq_findSome?]
  cases held : Param.ofValue? (entries.get? key) with
  | some value =>
      refine ⟨[], holds_nil_iff.mpr held, fun other found _ => ?_⟩
      cases other with
      | nil => exact .inl rfl
      | cons branch way => exact .inr .nil
  | none =>
      have noneHere : ∀ found, ¬Holds key (.object entries) [] found := by
        intro found holds
        cases held.symm.trans (holds_nil_iff.mp holds)
      change Answers key (.object entries) (entries.findSome? fun entry => Param.findIn key entry.2)
      cases searched : entries.findSome? fun entry => Param.findIn key entry.2 with
      | none =>
          intro way value holds
          cases way with
          | nil => exact noneHere value holds
          | cons branch way =>
              obtain ⟨inner, own, inside⟩ := holds_cons_iff.mp holds
              cases branch with
              | item index => cases own
              | key name =>
                  have member := Entries.mem_of_get? own
                  have answer := each _ member
                  rw [List.findSome?_eq_none_iff.mp searched _ member] at answer
                  exact answer way value inside
      | some value =>
          obtain ⟨before, ⟨name, inner⟩, after, rfl, found, earlier⟩ :=
            List.findSome?_eq_some_iff.mp searched
          have answer := each (name, inner) (by simp)
          rw [found] at answer
          obtain ⟨way, first⟩ := answer
          have own : part? (.object (before ++ (name, inner) :: after)) (.key name) = some inner :=
            (Entries.get?_eq_some_iff sorted).mpr (by simp)
          refine ⟨_, first.cons own noneHere fun other part there => ?_⟩
          cases other with
          | item index => cases there
          | key label =>
              have member := (Entries.get?_eq_some_iff sorted).mp there
              rcases List.mem_append.mp member with old | later
              · have answer := each (label, part) member
                rw [earlier (label, part) old] at answer
                exact .inr (.inr answer)
              · rcases List.mem_cons.mp later with same | behind
                · cases same
                  exact .inl rfl
                · have keys := (List.pairwise_append.mp (List.pairwise_map.mp sorted)).2.1
                  exact .inr (.inl (.key ((List.pairwise_cons.mp keys).1 _ behind)))

private theorem answers_findIn {root : Json} (ordered : root.Ordered) (key : String) :
    Answers key root (Param.findIn key root) := by
  induction ordered with
  | null | bool | number | string =>
      rintro way value ⟨entries, there, -⟩
      cases way with
      | nil => cases there
      | cons branch way => cases there
  | array each ih => exact answers_array ih
  | object sorted each ih => exact answers_object sorted ih

/-- A search finds nothing just if no object inside holds a value other than `null` under the key,
and else what the first such object holds, in the order of places. A view of a value and a view of
the entries of an object are searched alike. -/
theorem find_iff_holdsFirst {root : Json} (ordered : root.Ordered) (key : String) :
    ((Param.ofValue? (some root)).find key = none ↔ ∀ way value, ¬Holds key root way value) ∧
      (∀ value, (Param.ofValue? (some root)).find key = some value ↔
        ∃ way, HoldsFirst key root way value) ∧
      ∀ entries, root = .object entries →
        (Param.ofEntries entries).find key = (Param.ofValue? (some root)).find key := by
  have answer := answers_findIn ordered key
  have view : (Param.ofValue? (some root)).find key = Param.findIn key root := by
    cases root <;> rfl
  rw [view]
  cases searched : Param.findIn key root with
  | none =>
      rw [searched] at answer
      refine ⟨iff_of_true rfl answer, fun value => ?_, ?_⟩
      · refine iff_of_false nofun ?_
        rintro ⟨way, first⟩
        exact answer way value first.1
      · rintro entries rfl
        exact searched
  | some found =>
      rw [searched] at answer
      obtain ⟨way, first⟩ := answer
      refine ⟨iff_of_false nofun fun nothing => nothing way found first.1, fun value => ?_, ?_⟩
      · constructor
        case mp => exact fun same => ⟨way, Option.some.inj same ▸ first⟩
        case mpr => exact fun ⟨_, other⟩ => congrArg some (first.unique other)
      · rintro entries rfl
        exact searched

/-- A depth behind two that are `null`: its own one, and one in the item before. -/
def depthBehindNulls : Json :=
  .object [("depth", .null), ("scm", .object [("extensions",
    .array [.object [("depth", .null)], .object [("depth", .number (.integer 2))]])])]

private theorem ordered_depthBehindNulls : depthBehindNulls.Ordered := by
  have single {name : String} {value : Json} (inside : value.Ordered) :
      Ordered (.object [(name, value)]) :=
    .object (List.pairwise_singleton _ _) (List.forall_mem_singleton.mpr inside)
  have items : Ordered (.array [.object [("depth", .null)],
      .object [("depth", .number (.integer 2))]]) :=
    .array (List.forall_mem_cons.mpr
      ⟨single .null, List.forall_mem_singleton.mpr (single (.number _))⟩)
  exact .object (by decide)
    (List.forall_mem_cons.mpr ⟨.null, List.forall_mem_singleton.mpr (single items)⟩)

theorem holdsFirst_depthBehindNulls :
    depthBehindNulls.Ordered ∧
      ∃ way, HoldsFirst "depth" depthBehindNulls way (.number (.integer 2)) :=
  ⟨ordered_depthBehindNulls,
    ((find_iff_holdsFirst ordered_depthBehindNulls "depth").2.1 _).mp rfl⟩

end TracePipeline.Json
