import TracePipeline.Proofs.JsonTexts
import TracePipeline.Trace.Param

/-! Where values stand under a key. All places of a value are listed in the order in which a search
goes through them, so that a search finds the first one. -/

set_option autoImplicit false

namespace TracePipeline.Json

/-- A value stands under a key of an object somewhere inside another value. -/
inductive Under (key : String) (value : Json) : Json → Prop
  | own {entries : Entries Json} (found : entries.get? key = some value) :
      Under key value (.object entries)
  | entry {entries : Entries Json} {name : String} {inner : Json} (member : (name, inner) ∈ entries)
      (inside : Under key value inner) : Under key value (.object entries)
  | item {items : List Json} {inner : Json} (member : inner ∈ items)
      (inside : Under key value inner) : Under key value (.array items)

mutual

/-- The values other than `null` under a key: an object's own one first, then those in its entries,
one entry after the other, and those in the items of a list. -/
def under (key : String) : Json → List Json
  | .object entries =>
    (Param.ofValue? (Entries.get? entries key)).toList ++ underEntries key entries
  | .array items => underItems key items
  | _ => []

def underItems (key : String) : List Json → List Json
  | [] => []
  | item :: items => under key item ++ underItems key items

def underEntries (key : String) : List (String × Json) → List Json
  | [] => []
  | (_, value) :: entries => under key value ++ underEntries key entries

end

private theorem underItems_eq_flatMap (key : String) (items : List Json) :
    underItems key items = items.flatMap (under key) := by
  induction items with
  | nil => rfl
  | cons item items ih => rw [underItems, ih, List.flatMap_cons]

private theorem underEntries_eq_flatMap (key : String) (entries : List (String × Json)) :
    underEntries key entries = entries.flatMap fun entry => under key entry.2 := by
  induction entries with
  | nil => rfl
  | cons entry entries ih => rw [underEntries, ih, List.flatMap_cons]

theorem mem_ofValue?_iff {found : Option Json} {value : Json} :
    value ∈ Param.ofValue? found ↔ found = some value ∧ value.isNull = false := by
  simp [Param.ofValue?, Option.filter_eq_some_iff]

theorem mem_under_iff {key : String} {value root : Json} :
    value ∈ under key root ↔ Under key value root ∧ value.isNull = false := by
  induction root using induct_inside with
  | null | bool | number | string =>
      constructor
      case mp => exact fun member => nomatch member
      case mpr => exact fun whole => nomatch whole.1
  | array items ih =>
      rw [under, underItems_eq_flatMap, List.mem_flatMap]
      constructor
      case mp =>
        intro listed
        obtain ⟨item, present, member⟩ := listed
        obtain ⟨inside, solid⟩ := (ih item present).mp member
        exact ⟨.item present inside, solid⟩
      case mpr =>
        intro whole
        obtain ⟨place, solid⟩ := whole
        cases place with
        | @item _ inner present inside =>
            exact ⟨inner, present, (ih inner present).mpr ⟨inside, solid⟩⟩
  | object entries ih =>
      rw [under, underEntries_eq_flatMap, List.mem_append, Option.mem_toList,
        ← Option.mem_def, mem_ofValue?_iff, List.mem_flatMap]
      constructor
      case mp =>
        intro listed
        obtain ⟨found, solid⟩ | ⟨entry, present, member⟩ := listed
        · exact ⟨.own found, solid⟩
        · obtain ⟨inside, solid⟩ := (ih entry present).mp member
          exact ⟨.entry present inside, solid⟩
      case mpr =>
        intro whole
        obtain ⟨place, solid⟩ := whole
        cases place with
        | own found => exact .inl ⟨found, solid⟩
        | entry present inside => exact .inr ⟨_, present, (ih _ present).mpr ⟨inside, solid⟩⟩

private theorem findInItems_eq_head? {key : String} {items : List Json}
    (each : ∀ item ∈ items, Param.findIn key item = (under key item).head?) :
    Param.findInItems key items = (underItems key items).head? := by
  induction items with
  | nil => rfl
  | cons item items ih =>
      rw [Param.findInItems, underItems, List.head?_append, each item (.head _),
        ih fun inner member => each inner (.tail _ member)]

private theorem findInEntries_eq_head? {key : String} {entries : List (String × Json)}
    (each : ∀ entry ∈ entries, Param.findIn key entry.2 = (under key entry.2).head?) :
    Param.findInEntries key entries = (underEntries key entries).head? := by
  induction entries with
  | nil => rfl
  | cons entry entries ih =>
      rw [Param.findInEntries, underEntries, List.head?_append, each entry (.head _),
        ih fun inner member => each inner (.tail _ member)]

theorem findIn_eq_head? (key : String) (root : Json) :
    Param.findIn key root = (under key root).head? := by
  induction root using induct_inside with
  | null | bool | number | string => rfl
  | array items ih => exact findInItems_eq_head? ih
  | object entries ih =>
      rw [Param.findIn, under, List.head?_append, ← findInEntries_eq_head? ih]
      cases Param.ofValue? (Entries.get? entries key) <;> rfl

end TracePipeline.Json
