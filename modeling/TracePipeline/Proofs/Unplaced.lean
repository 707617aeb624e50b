import TracePipeline.Proofs.JsonDecoding
import TracePipeline.Proofs.Outcomes
import TracePipeline.Trace.Reading

/-! What readers see of a tree. Whether a reader takes a tree, and what it reads there, does not
depend on the places at which the parts of the tree stand. -/

set_option autoImplicit false

namespace TracePipeline

/-! ## Trees without places -/

def Ending.unplaced : Ending → Ending
  | .closed _ => .closed .start
  | .broken reason _ => .broken reason .start
  | .unreached => .unreached

def Key.unplaced (key : Key) : Key :=
  ⟨key.text.mapError Fault.unplaced, .start⟩

namespace Tree

/-- All that matters of a level is whether it is within the limit. -/
def cutLevel (level : Nat) : Nat :=
  if level < levelLimit then 0 else levelLimit

mutual

def unplaced : Tree → Tree
  | .scalar _ content _ => .scalar .start (content.mapError Fault.unplaced) .start
  | .array _ level items ending =>
    .array .start (cutLevel level) (unplacedItems items) ending.unplaced
  | .object _ level entries ending =>
    .object .start (cutLevel level) (unplacedEntries entries) ending.unplaced
  | .broken _ strict skipping => .broken .start strict.unplaced skipping.unplaced

def unplacedItems : List Tree → List Tree
  | [] => []
  | item :: items => item.unplaced :: unplacedItems items

def unplacedEntries : List (Key × Tree) → List (Key × Tree)
  | [] => []
  | (key, value) :: entries => (key.unplaced, value.unplaced) :: unplacedEntries entries

end

def parts : Tree → List Tree
  | .array _ _ items _ => items
  | .object _ _ entries _ => entries.map Prod.snd
  | _ => []

/-- A property of all trees follows from the trees inside to the list or object around them. -/
theorem induct_inside {motive : Tree → Prop}
    (scalar : ∀ start content stop, motive (.scalar start content stop))
    (array : ∀ start level items ending, (∀ item ∈ items, motive item) →
      motive (.array start level items ending))
    (object : ∀ start level entries ending, (∀ entry ∈ entries, motive entry.2) →
      motive (.object start level entries ending))
    (broken : ∀ start strict skipping, motive (.broken start strict skipping)) (tree : Tree) :
    motive tree := by
  refine @Tree.rec motive (fun items => ∀ item ∈ items, motive item)
    (fun entries => ∀ entry ∈ entries, motive entry.2) (fun entry => motive entry.2)
    scalar array object broken ?_ ?_ ?_ ?_ ?_ tree
  · intro item member
    cases member
  · intro first rest firstHolds restHolds item member
    cases member with
    | head => exact firstHolds
    | tail _ later => exact restHolds item later
  · intro entry member
    cases member
  · intro first rest firstHolds restHolds entry member
    cases member with
    | head => exact firstHolds
    | tail _ later => exact restHolds entry later
  · intro key value holds
    exact holds

private theorem Shows.unplaced_eq {value : Json} {tree : Tree} (shows : Shows value tree) :
    tree.unplaced = ofJson value := by
  induction value using Json.induct_inside generalizing tree with
  | null =>
      obtain ⟨start, stop, rfl⟩ := shows.scalar_eq .null
      rfl
  | bool value =>
      obtain ⟨start, stop, rfl⟩ := shows.scalar_eq (.bool value)
      rfl
  | number value =>
      obtain ⟨start, stop, rfl⟩ := shows.scalar_eq (.number value)
      rfl
  | string value =>
      obtain ⟨start, stop, rfl⟩ := shows.scalar_eq (.string value)
      rfl
  | array items ih =>
      obtain ⟨start, level, trees, stop, rfl, within, shown⟩ := shows.array_eq
      have inside : unplacedItems trees = ofJsonItems items := by
        clear shows
        induction shown with
        | nil => rfl
        | cons own shown others =>
            rw [unplacedItems, ofJsonItems, ih _ (.head _) own,
              others fun item member => ih item (.tail _ member)]
      rw [unplaced, ofJson, inside, cutLevel, if_pos within]
      rfl
  | object entries ih =>
      obtain ⟨start, level, parts, stop, rfl, within, shown⟩ := shows.object_eq
      have inside : unplacedEntries parts = ofJsonEntries entries := by
        clear shows
        induction shown with
        | nil => rfl
        | @cons entry part _ _ own shown others =>
            obtain ⟨key, item⟩ := part
            obtain ⟨named, value⟩ := own
            have text : key.text = .ok entry.1 := named
            rw [unplacedEntries, ofJsonEntries, ih _ (.head _) value,
              others fun entry member => ih entry (.tail _ member), Key.unplaced, text]
            rfl
      rw [unplaced, ofJson, inside, cutLevel, if_pos within]
      rfl

/-! ## Readers that do not look at places -/

/-- A reader answers alike for a tree and for the tree without places. -/
def Blind {α : Type} (reader : Tree → Except Fault α) (tree : Tree) : Prop :=
  Alike Eq (reader tree.unplaced) (reader tree)

theorem alike_enter (start : Position) (level : Nat) :
    Alike Eq (enter .start (cutLevel level)) (enter start level) := by
  unfold cutLevel
  by_cases within : level < levelLimit
  · rw [if_pos within, enter_eq_ok within, enter_eq_ok (by decide)]
    exact .refl _
  · rw [if_neg within, enter, enter, if_neg within, if_neg (by decide)]
    exact .error _ _

theorem alike_close (cause : Break → Cause) (ending : Ending) :
    Alike (fun _ _ => True) (ending.unplaced.close cause) (ending.close cause) := by
  cases ending with
  | closed => exact .ok trivial
  | broken => exact .error _ _
  | unreached => exact .ok trivial

theorem alike_text (key : Key) : Alike Eq key.unplaced.text key.text := by
  unfold Key.unplaced
  cases key.text with
  | error fault => exact .error _ fault
  | ok name => exact .ok rfl

private theorem isNull_unplaced (tree : Tree) : tree.unplaced.isNull = tree.isNull := by
  cases tree with
  | scalar start content stop =>
      cases content with
      | error fault => rfl
      | ok value => cases value <;> rfl
  | _ => rfl

theorem blind_readString (tree : Tree) : Blind readString tree := by
  cases tree with
  | scalar start content stop =>
      cases content with
      | error fault => exact .error _ _
      | ok value =>
          cases value with
          | string text => exact .ok rfl
          | _ => exact .error _ _
  | _ => exact .error _ _

theorem blind_readOrDefault {α : Type} [Inhabited α] {reader : Tree → Except Fault α} {tree : Tree}
    (blind : Blind reader tree) : Blind (readOrDefault reader) tree := by
  unfold Blind readOrDefault
  rw [isNull_unplaced]
  split
  case isTrue => exact .refl _
  case isFalse => exact blind

private theorem blind_skip (tree : Tree) : Blind skip tree := by
  induction tree using induct_inside with
  | scalar => exact .ok rfl
  | broken => exact .error _ _
  | array start level items ending ih =>
      have inside : Alike Eq (skipItems (unplacedItems items)) (skipItems items) := by
        induction items with
        | nil => exact .ok rfl
        | cons item items others =>
            rw [unplacedItems, skipItems, skipItems]
            exact (ih item (.head _)).bind fun _ _ _ =>
              others fun inner member => ih inner (.tail _ member)
      unfold Blind
      rw [unplaced, skip, skip]
      exact inside.bind fun _ _ _ => (alike_close _ ending).bind fun _ _ _ => .refl _
  | object start level entries ending ih =>
      have inside : Alike Eq (skipEntries (unplacedEntries entries)) (skipEntries entries) := by
        induction entries with
        | nil => exact .ok rfl
        | cons entry entries others =>
            rw [unplacedEntries, skipEntries, skipEntries]
            exact (ih entry (.head _)).bind fun _ _ _ =>
              others fun inner member => ih inner (.tail _ member)
      unfold Blind
      rw [unplaced, skip, skip]
      exact inside.bind fun _ _ _ => (alike_close _ ending).bind fun _ _ _ => .refl _

theorem alike_mapM {α : Type} {reader : Tree → Except Fault α} {items : List Tree}
    (each : ∀ item ∈ items, Blind reader item) :
    Alike Eq ((unplacedItems items).mapM reader) (items.mapM reader) := by
  induction items with
  | nil => exact .ok rfl
  | cons item items ih =>
      rw [unplacedItems, List.mapM_cons, List.mapM_cons]
      refine (each item (.head _)).bind fun value _ same => ?_
      refine (ih fun inner member => each inner (.tail _ member)).bind fun values _ same' => ?_
      rw [same, same']
      exact .refl _

theorem blind_readList {α : Type} {reader : Tree → Except Fault α} {start : Position} {level : Nat}
    {items : List Tree} {ending : Ending} (each : ∀ item ∈ items, Blind reader item) :
    Blind (readList reader) (.array start level items ending) := by
  unfold Blind
  rw [unplaced, readList, readList]
  refine (alike_enter start level).bind fun _ _ _ => ?_
  refine (alike_mapM each).bind fun values _ same => ?_
  rw [same]
  exact (alike_close _ ending).bind fun _ _ _ => .refl _

theorem alike_readMapEntries {α : Type} {reader : Tree → Except Fault α} {before : Entries α}
    {entries : List (Key × Tree)} (each : ∀ entry ∈ entries, Blind reader entry.2) :
    Alike Eq (readMapEntries reader before (unplacedEntries entries))
      (readMapEntries reader before entries) := by
  induction entries generalizing before with
  | nil => exact .ok rfl
  | cons entry entries ih =>
      obtain ⟨key, item⟩ := entry
      rw [unplacedEntries, readMapEntries, readMapEntries]
      refine (alike_text key).bind fun name _ same => ?_
      refine (each _ (.head _)).bind fun value _ same' => ?_
      rw [same, same']
      exact ih fun inner member => each inner (.tail _ member)

theorem blind_readMap {α : Type} {reader : Tree → Except Fault α} (tree : Tree)
    (each : ∀ inner, Blind reader inner) : Blind (readMap reader) tree := by
  cases tree with
  | object start level entries ending =>
      unfold Blind
      rw [unplaced, readMap, readMap]
      refine (alike_enter start level).bind fun _ _ _ => ?_
      refine (alike_readMapEntries fun entry _ => each entry.2).bind fun values _ same => ?_
      rw [same]
      exact (alike_close _ ending).bind fun _ _ _ => .refl _
  | _ => exact .error _ _

theorem blind_readJson (tree : Tree) : Blind readJson tree := by
  induction tree using induct_inside with
  | scalar start content stop =>
      cases content with
      | error fault => exact .error _ _
      | ok value => exact .ok rfl
  | broken => exact .error _ _
  | array start level items ending ih =>
      unfold Blind
      rw [unplaced, readJson, readJson, readJsonItems_eq, readJsonItems_eq]
      refine (alike_enter start level).bind fun _ _ _ => ?_
      refine (alike_mapM ih).bind fun values _ same => ?_
      rw [same]
      exact (alike_close _ ending).bind fun _ _ _ => .refl _
  | object start level entries ending ih =>
      unfold Blind
      rw [unplaced, readJson, readJson, readJsonEntries_eq, readJsonEntries_eq]
      refine (alike_enter start level).bind fun _ _ _ => ?_
      refine (alike_readMapEntries ih).bind fun values _ same => ?_
      rw [same]
      exact (alike_close _ ending).bind fun _ _ _ => .refl _

end Tree

/-! ## Records -/

variable {σ : Type}

namespace Slot

private theorem alike_fillEntry {slots : List (Slot σ)} {value : Tree}
    (each : ∀ slot ∈ slots, ∀ draft, Tree.Blind (slot.fill draft) value) (draft : σ) (key : Key)
    (name : String) :
    Alike Eq (fillEntry slots draft key.unplaced name value.unplaced)
      (fillEntry slots draft key name value) := by
  unfold fillEntry
  cases found : slots.find? fun slot => slot.answersTo name with
  | none => exact (Tree.blind_skip value).bind fun _ _ _ => .refl _
  | some slot =>
      simp only
      split
      case isTrue => exact .error _ _
      case isFalse => exact each slot (List.mem_of_find?_eq_some found) draft

private theorem alike_fillEntries {slots : List (Slot σ)} {entries : List (Key × Tree)} {draft : σ}
    (each : ∀ entry ∈ entries, ∀ slot ∈ slots, ∀ draft, Tree.Blind (slot.fill draft) entry.2) :
    Alike Eq (fillEntries slots draft (Tree.unplacedEntries entries))
      (fillEntries slots draft entries) := by
  induction entries generalizing draft with
  | nil => exact .ok rfl
  | cons entry entries ih =>
      obtain ⟨key, value⟩ := entry
      rw [Tree.unplacedEntries, fillEntries, fillEntries]
      refine (Tree.alike_text key).bind fun name _ same => ?_
      rw [← same]
      refine (alike_fillEntry (each _ (.head _)) draft key name).bind fun draft _ same' => ?_
      rw [← same']
      exact ih fun inner member => each inner (.tail _ member)

/-- The items behind the last field are those of the list without places. -/
theorem alike_fillItems {slots : List (Slot σ)} {items : List Tree} {draft : σ}
    (each : ∀ item ∈ items, ∀ slot ∈ slots, ∀ draft, Tree.Blind (slot.fill draft) item) :
    Alike (fun first second => first = (second.1, second.2.map Tree.unplacedItems))
      (fillItems slots draft (Tree.unplacedItems items)) (fillItems slots draft items) := by
  induction slots generalizing items draft with
  | nil => exact .ok rfl
  | cons slot slots ih =>
      cases items with
      | nil => exact .ok rfl
      | cons item items =>
          rw [Tree.unplacedItems, fillItems, fillItems]
          refine (each item (.head _) slot (.head _) draft).bind fun draft _ same => ?_
          rw [← same]
          exact ih fun inner member slot later => each inner (.tail _ member) slot (.tail _ later)

end Slot

namespace Tree

private theorem alike_endRecord (origin : Origin) (size : Nat) (items : List Tree)
    (ending : Ending) :
    Alike Eq (endRecord origin size (unplacedItems items) ending.unplaced)
      (endRecord origin size items ending) := by
  cases items with
  | nil => exact (alike_close _ ending).bind fun _ _ _ => .refl _
  | cons item items => cases origin <;> exact .error _ _

/-- The fault of a missing field is one wherever it is said to be. -/
theorem alike_finish {α : Type} (finished : Except String α) (cause cause' : String → Fault) :
    Alike Eq
      (match finished with
        | .ok record => (pure record : Except Fault α)
        | .error missing => throw (cause missing))
      (match finished with
        | .ok record => pure record
        | .error missing => throw (cause' missing)) := by
  cases finished with
  | ok record => exact .ok rfl
  | error missing => exact .error _ _

theorem blind_readRecord {α : Type} (origin : Origin) (name : String) {slots : List (Slot σ)}
    (empty : σ) (finish : σ → Except String α) {tree : Tree}
    (each : ∀ inner ∈ tree.parts, ∀ slot ∈ slots, ∀ draft, Blind (slot.fill draft) inner) :
    Blind (readRecord origin name slots empty finish) tree := by
  cases tree with
  | object start level entries ending =>
      have inside : ∀ entry ∈ entries, ∀ slot ∈ slots, ∀ draft, Blind (slot.fill draft) entry.2 :=
        fun entry member => each entry.2 (List.mem_map_of_mem member)
      unfold Blind
      rw [unplaced, readRecord, readRecord]
      refine (alike_enter start level).bind fun _ _ _ => ?_
      refine (Slot.alike_fillEntries inside).bind fun draft _ same => ?_
      rw [← same]
      exact (alike_close _ ending).bind fun _ _ _ => alike_finish (finish draft) _ _
  | array start level items ending =>
      unfold Blind
      rw [unplaced, readRecord, readRecord]
      refine (alike_enter start level).bind fun _ _ _ => ?_
      refine (Slot.alike_fillItems each).bind fun filled answer same => ?_
      obtain ⟨draft, behind⟩ := answer
      subst same
      cases behind with
      | none => exact (alike_close _ ending).bind fun _ _ _ => alike_finish (finish draft) _ _
      | some items =>
          exact (alike_endRecord origin slots.length items ending).bind fun _ _ _ =>
            alike_finish (finish draft) _ _
  | _ => exact .error _ _

end Tree

/-- What is read from a document, told by the root without places. -/
theorem Document.toOption_read {α : Type} {reader : Tree → Except Fault α} (document : Document)
    (blind : Tree.Blind reader document.root) :
    (document.read reader).toOption =
      if document.trailing.isSome then none else (reader document.root.unplaced).toOption := by
  obtain ⟨root, trailing⟩ := document
  have same : (reader root.unplaced).toOption = (reader root).toOption := blind.toOption_eq
  rw [same, Document.read]
  cases reader root with
  | error fault => cases trailing <;> rfl
  | ok value => cases trailing <;> rfl

theorem Document.ofText_prettyText {value : Json} (integral : value.Integral)
    (shallow : value.depth < Tree.levelLimit) :
    (Document.ofText value.prettyText).root.unplaced = Tree.ofJson value ∧
      (Document.ofText value.prettyText).trailing = none := by
  obtain ⟨tree, parsed, shows⟩ := Json.ofText_prettyText integral shallow
  rw [parsed]
  exact ⟨shows.unplaced_eq, rfl⟩

end TracePipeline
