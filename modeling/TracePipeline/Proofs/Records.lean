import Mathlib.Data.List.Pairwise
import TracePipeline.Proofs.JsonDecoding
import TracePipeline.Proofs.Outcomes

/-! How the entries of a record or a map work together. The fields of a record are independent of
each other, so that a `null` under a key that is not there can be put anywhere. -/

set_option autoImplicit false

namespace TracePipeline

/-! ## Independent fields -/

namespace Slot

variable {σ : Type}

def keys (slot : Slot σ) : List String :=
  slot.name :: slot.otherKey.toList

theorem answersTo_iff {slot : Slot σ} {key : String} :
    slot.answersTo key = true ↔ key ∈ slot.keys := by
  rw [answersTo, Bool.or_eq_true, beq_iff_eq, beq_iff_eq, keys, List.mem_cons, Option.mem_toList,
    eq_comm]

/-- Reading a field changes nothing for another: that one can be read before it just as behind
it. -/
structure Leaves (slot other : Slot σ) : Prop where
  filled : ∀ {draft draft' : σ} {tree : Tree}, slot.fill draft tree = .ok draft' →
    other.filled draft' = other.filled draft
  fill : ∀ {draft draft' : σ} {tree : Tree} (tree' : Tree), slot.fill draft tree = .ok draft' →
    Alike (fun next next' => slot.fill next tree = .ok next') (other.fill draft tree')
      (other.fill draft' tree')

/-- Two fields of a record that have nothing in common. -/
structure Apart (slot other : Slot σ) : Prop where
  keys : ∀ key ∈ slot.keys, key ∉ other.keys
  left : Leaves slot other
  right : Leaves other slot

instance : Std.Symm (@Apart σ) where
  symm _ _ apart :=
    ⟨fun key also own => apart.keys key own also, apart.right, apart.left⟩

/-- Fields that are kept in parts of their own of a draft leave each other. -/
theorem leaves_of {α β : Type} {name name' : String} {otherKey otherKey' : Option String}
    {get : σ → Option α} {get' : σ → Option β} {set : σ → α → σ} {set' : σ → β → σ}
    {reader : Tree → Except Fault α} {reader' : Tree → Except Fault β}
    (keeps : ∀ draft value, get' (set draft value) = get' draft)
    (commute : ∀ draft value value',
      set (set' draft value') value = set' (set draft value) value') :
    Leaves { of name get set reader with otherKey := otherKey }
      { of name' get' set' reader' with otherKey := otherKey' } := by
  constructor
  case filled =>
    intro draft draft' tree filled
    obtain ⟨value, -, rfl⟩ := map_eq_ok_iff.mp filled
    exact congrArg Option.isSome (keeps draft value)
  case fill =>
    intro draft draft' tree tree' filled
    obtain ⟨value, read, rfl⟩ := map_eq_ok_iff.mp filled
    simp only [of, read]
    cases reader' tree' with
    | error fault => exact .error _ _
    | ok value' => exact .ok (congrArg Except.ok (commute draft value value'))

/-- A field is filled when it has been read. -/
def Remembers (slot : Slot σ) : Prop :=
  ∀ draft draft' tree, slot.fill draft tree = .ok draft' → slot.filled draft' = true

/-- The fields of a record have nothing in common. -/
structure Separate (slots : List (Slot σ)) : Prop where
  apart : slots.Pairwise Apart
  remembers : ∀ slot ∈ slots, slot.Remembers

theorem remembers_of {α : Type} {name : String} {otherKey : Option String} {get : σ → Option α}
    {set : σ → α → σ} {reader : Tree → Except Fault α}
    (own : ∀ draft value, get (set draft value) = some value) :
    Remembers { of name get set reader with otherKey := otherKey } := by
  intro draft draft' tree filled
  obtain ⟨value, -, rfl⟩ := map_eq_ok_iff.mp filled
  exact congrArg Option.isSome (own draft value)

namespace Separate

variable {slots : List (Slot σ)} {slot : Slot σ}

theorem apart_of_ne (separate : Separate slots) (member : slot ∈ slots) {other : Slot σ}
    (member' : other ∈ slots) (differ : other ≠ slot) : Apart other slot :=
  separate.apart.forall member' member differ

theorem find?_eq_some (separate : Separate slots) (member : slot ∈ slots) {key : String}
    (answers : key ∈ slot.keys) :
    slots.find? (fun slot => slot.answersTo key) = some slot := by
  obtain ⟨before, after, rfl⟩ := List.append_of_mem member
  refine List.find?_eq_some_iff_append.mpr ⟨answersTo_iff.mpr answers, before, after, rfl, ?_⟩
  intro other earlier
  have apart := (List.pairwise_append.mp separate.apart).2.2 other earlier slot (.head _)
  have silent : key ∉ other.keys := fun also => apart.keys key also answers
  simpa [← answersTo_iff] using silent

theorem find?_cases (slots : List (Slot σ)) (key : String) :
    slots.find? (fun slot => slot.answersTo key) = none ∨
      ∃ slot ∈ slots, key ∈ slot.keys ∧
        slots.find? (fun slot => slot.answersTo key) = some slot := by
  cases found : slots.find? fun slot => slot.answersTo key with
  | none => exact .inl rfl
  | some slot =>
      have answers := List.find?_some found
      exact .inr ⟨slot, List.mem_of_find?_eq_some found, answersTo_iff.mp answers, rfl⟩

end Separate

/-! ## Entries of a record -/

/-- An entry is one for a field. -/
def Answers (slot : Slot σ) (entry : Key × Tree) : Prop :=
  ∃ key ∈ slot.keys, entry.1.text = .ok key

section

variable {slots : List (Slot σ)} {slot : Slot σ} {draft draft' : σ} {key : Key} {name : String}
  {value : Tree}

private theorem fillEntry_eq_of_unfilled (separate : Separate slots) (member : slot ∈ slots)
    (answers : name ∈ slot.keys) (unfilled : slot.filled draft = false) :
    fillEntry slots draft key name value = slot.fill draft value := by
  rw [fillEntry, separate.find?_eq_some member answers]
  simp [unfilled]

private theorem fillEntry_of_filled (separate : Separate slots) (member : slot ∈ slots)
    (answers : name ∈ slot.keys) (filled : slot.filled draft = true) :
    fillEntry slots draft key name value ≠ .ok draft' := by
  rw [fillEntry, separate.find?_eq_some member answers]
  simp [filled]

theorem filled_of_fillEntry (separate : Separate slots) (member : slot ∈ slots)
    (silent : name ∉ slot.keys) (read : fillEntry slots draft key name value = .ok draft') :
    slot.filled draft' = slot.filled draft := by
  unfold fillEntry at read
  obtain nothing | ⟨other, member', answers, found⟩ := Separate.find?_cases slots name
  · rw [nothing] at read
    obtain ⟨-, -, same⟩ := bind_eq_ok_iff.mp read
    cases same
    rfl
  · rw [found] at read
    simp only at read
    split at read
    case isTrue => cases read
    case isFalse =>
      have differ : other ≠ slot := fun same => silent (same ▸ answers)
      exact (separate.apart_of_ne member member' differ).left.filled read

private theorem filled_of_fillEntry_own (separate : Separate slots) (member : slot ∈ slots)
    (answers : name ∈ slot.keys) (read : fillEntry slots draft key name value = .ok draft') :
    slot.filled draft' = true := by
  unfold fillEntry at read
  rw [separate.find?_eq_some member answers] at read
  simp only at read
  split at read
  case isTrue => cases read
  case isFalse => exact separate.remembers slot member _ _ _ read

theorem fillEntries_append (slots : List (Slot σ)) (draft : σ) (before after : List (Key × Tree)) :
    fillEntries slots draft (before ++ after) =
      fillEntries slots draft before >>= fun draft => fillEntries slots draft after := by
  induction before generalizing draft with
  | nil => rfl
  | cons entry before ih =>
      obtain ⟨key, value⟩ := entry
      simp only [List.cons_append, fillEntries, bind_assoc, ih]

variable {entries : List (Key × Tree)}

private theorem filled_of_fillEntries (separate : Separate slots) (member : slot ∈ slots)
    (silent : ∀ entry ∈ entries, ¬slot.Answers entry)
    (read : fillEntries slots draft entries = .ok draft') :
    slot.filled draft' = slot.filled draft := by
  induction entries generalizing draft with
  | nil =>
      cases read
      rfl
  | cons entry entries ih =>
      obtain ⟨key, value⟩ := entry
      rw [fillEntries] at read
      obtain ⟨name, named, rest⟩ := bind_eq_ok_iff.mp read
      obtain ⟨middle, first, rest⟩ := bind_eq_ok_iff.mp rest
      have other : name ∉ slot.keys := fun answers => silent _ (.head _) ⟨name, answers, named⟩
      rw [ih (fun entry later => silent entry (.tail _ later)) rest]
      exact filled_of_fillEntry separate member other first

private theorem not_answers_of_filled (separate : Separate slots) (member : slot ∈ slots)
    (filled : slot.filled draft = true) (read : fillEntries slots draft entries = .ok draft') :
    ∀ entry ∈ entries, ¬slot.Answers entry := by
  induction entries generalizing draft with
  | nil => exact nofun
  | cons entry entries ih =>
      obtain ⟨key, value⟩ := entry
      rw [fillEntries] at read
      obtain ⟨name, named, rest⟩ := bind_eq_ok_iff.mp read
      obtain ⟨middle, first, rest⟩ := bind_eq_ok_iff.mp rest
      have other : name ∉ slot.keys := fun answers =>
        fillEntry_of_filled separate member answers filled first
      rw [← filled_of_fillEntry separate member other first] at filled
      rw [List.forall_mem_cons]
      refine ⟨?_, ih filled rest⟩
      intro answered
      obtain ⟨key', answers, named'⟩ := answered
      cases named.symm.trans named'
      exact other answers

/-- A record is read only if no two of its entries are for one field. -/
theorem pairwise_of_fillEntries (separate : Separate slots) (member : slot ∈ slots)
    (read : fillEntries slots draft entries = .ok draft') :
    entries.Pairwise fun entry entry' => ¬(slot.Answers entry ∧ slot.Answers entry') := by
  induction entries generalizing draft with
  | nil => exact .nil
  | cons entry entries ih =>
      obtain ⟨key, value⟩ := entry
      rw [fillEntries] at read
      obtain ⟨name, named, rest⟩ := bind_eq_ok_iff.mp read
      obtain ⟨middle, first, rest⟩ := bind_eq_ok_iff.mp rest
      refine .cons ?_ (ih rest)
      intro later present both
      obtain ⟨⟨key', answers, named'⟩, also⟩ := both
      cases named.symm.trans named'
      have filled := filled_of_fillEntry_own separate member answers first
      exact not_answers_of_filled separate member filled rest later present also

end

/-! ## Nulls -/

section

variable {slots : List (Slot σ)} {slot : Slot σ} {draft draft' : σ} {key : Key} {name : String}

/-- A draft with an empty field, and the draft in which the field has been read from `null`. -/
structure Nulled (slot : Slot σ) (draft draft' : σ) : Prop where
  unfilled : slot.filled draft = false
  filled : slot.fill draft (.ofScalar .null) = .ok draft'

/-- A field can be read from `null`, which comes to the same as not reading it. -/
structure NullIsMissing {β : Type} (slot : Slot σ) (finish : σ → β) : Prop where
  takes : ∀ draft, ∃ draft', slot.fill draft (.ofScalar .null) = .ok draft'
  finished : ∀ {draft draft' : σ}, slot.Nulled draft draft' → finish draft' = finish draft

theorem nullIsMissing_of {α β : Type} {name : String} {otherKey : Option String}
    {get : σ → Option α} {set : σ → α → σ} {reader : Tree → Except Fault α} {null : α}
    {finish : σ → β} (read : reader (.ofScalar .null) = .ok null)
    (finished : ∀ draft, get draft = none → finish (set draft null) = finish draft) :
    NullIsMissing { of name get set reader with otherKey := otherKey } finish := by
  have fill (draft : σ) : (of name get set reader).fill draft (.ofScalar .null) =
      .ok (set draft null) :=
    congrArg (Except.map (set draft)) read
  constructor
  case takes => exact fun draft => ⟨_, fill draft⟩
  case finished =>
    intro draft draft' nulled
    cases (fill draft).symm.trans nulled.filled
    exact finished draft (by simpa [of] using nulled.unfilled)

private theorem Nulled.alike_fillEntry (nulled : slot.Nulled draft draft')
    (separate : Separate slots) (member : slot ∈ slots) (silent : name ∉ slot.keys) (value : Tree) :
    Alike slot.Nulled (fillEntry slots draft key name value)
      (fillEntry slots draft' key name value) := by
  unfold fillEntry
  obtain nothing | ⟨other, member', answers, found⟩ := Separate.find?_cases slots name
  · rw [nothing]
    exact (Alike.refl value.skip).bind fun _ _ _ => .ok nulled
  · have differ : other ≠ slot := fun same => silent (same ▸ answers)
    have apart := separate.apart_of_ne member member' differ
    rw [found]
    simp only [apart.right.filled nulled.filled]
    split
    case isTrue => exact .error _ _
    case isFalse =>
      refine (apart.right.fill value nulled.filled).imp fun next next' first filled => ?_
      exact ⟨(apart.left.filled first).trans nulled.unfilled, filled⟩

private theorem Nulled.alike_fillEntries {entries : List (Key × Tree)}
    (nulled : slot.Nulled draft draft') (separate : Separate slots) (member : slot ∈ slots)
    (silent : ∀ entry ∈ entries, ¬slot.Answers entry) :
    Alike slot.Nulled (fillEntries slots draft entries) (fillEntries slots draft' entries) := by
  induction entries generalizing draft draft' with
  | nil => exact .ok nulled
  | cons entry entries ih =>
      obtain ⟨key, value⟩ := entry
      rw [fillEntries, fillEntries]
      cases named : key.text with
      | error fault => exact .error _ _
      | ok name =>
          have other : name ∉ slot.keys := fun answers => silent _ (.head _) ⟨name, answers, named⟩
          refine (nulled.alike_fillEntry separate member other value).bind fun _ _ nulled => ?_
          exact ih nulled fun entry later => silent entry (.tail _ later)

private theorem alike_fillEntries_null {before after : List (Key × Tree)}
    (separate : Separate slots)
    (member : slot ∈ slots) (answers : name ∈ slot.keys) (named : key.text = .ok name)
    (unfilled : slot.filled draft = false)
    {β : Type} {finish : σ → β} (nulls : slot.NullIsMissing finish)
    (silent : ∀ entry ∈ before ++ after, ¬slot.Answers entry) :
    Alike (fun draft draft' => finish draft' = finish draft)
      (fillEntries slots draft (before ++ after))
      (fillEntries slots draft (before ++ (key, .ofScalar .null) :: after)) := by
  rw [List.forall_mem_append] at silent
  rw [fillEntries_append, fillEntries_append]
  cases first : fillEntries slots draft before with
  | error fault => exact .error _ _
  | ok middle =>
      -- The field is still empty where the null stands, and no later entry fills it either.
      have empty := (filled_of_fillEntries separate member silent.1 first).trans unfilled
      obtain ⟨middle', filled⟩ := nulls.takes middle
      rw [ok_bind, ok_bind, fillEntries, named, ok_bind,
        fillEntry_eq_of_unfilled separate member answers empty, filled]
      have alike := Nulled.alike_fillEntries ⟨empty, filled⟩ separate member silent.2
      exact alike.imp fun _ _ _ nulled => nulls.finished nulled

end

/-! ## One field for another -/

section

variable {slots : List (Slot σ)} {slot : Slot σ} {draft : σ} {kept : Prop} {old new : Tree}

private theorem agree_fillEntries {key : Key} {name : String} {before after : List (Key × Tree)}
    (named : key.text = .ok name)
    (found : slots.find? (fun slot => slot.answersTo name) = some slot)
    (same : ∀ draft, Agree kept (slot.fill draft old) (slot.fill draft new)) :
    Agree kept (fillEntries slots draft (before ++ (key, old) :: after))
      (fillEntries slots draft (before ++ (key, new) :: after)) := by
  rw [fillEntries_append, fillEntries_append]
  refine .bind_right _ fun draft => ?_
  rw [fillEntries, fillEntries, named, ok_bind, ok_bind, fillEntry, fillEntry, found]
  refine Agree.bind_left ?_ _
  simp only
  split
  case isTrue => exact .error _ _
  case isFalse => exact same draft

private theorem agree_fillItems {before after : List Tree}
    (place : slots[before.length]? = some slot)
    (same : ∀ draft, Agree kept (slot.fill draft old) (slot.fill draft new)) :
    Agree kept (fillItems slots draft (before ++ old :: after))
      (fillItems slots draft (before ++ new :: after)) := by
  induction before generalizing slots draft with
  | nil =>
      cases slots with
      | nil => cases place
      | cons first rest =>
          cases place
          rw [List.nil_append, List.nil_append, fillItems, fillItems]
          exact (same draft).bind_left _
  | cons item before ih =>
      cases slots with
      | nil => cases place
      | cons first rest =>
          rw [List.cons_append, List.cons_append, fillItems, fillItems]
          exact .bind_right _ fun draft => ih place

end

end Slot

namespace Tree

/-- The entries of an object; nothing else has any. -/
def entries : Tree → List (Key × Tree)
  | .object _ _ entries _ => entries
  | _ => []

/-- An object has an entry under a key. -/
def Spells (tree : Tree) (key : String) : Prop :=
  ∃ entry ∈ tree.entries, entry.1.text = .ok key

instance (tree : Tree) (key : String) : Decidable (tree.Spells key) :=
  inferInstanceAs (Decidable (∃ entry ∈ tree.entries, entry.1.text = .ok key))

theorem agree_readOrDefault {α : Type} [Inhabited α] {kept : Prop}
    {reader : Tree → Except Fault α} {old new : Tree} (old_ne : old.isNull = false)
    (new_ne : new.isNull = false) (same : Agree kept (reader old) (reader new)) :
    Agree kept (readOrDefault reader old) (readOrDefault reader new) := by
  rw [readOrDefault, readOrDefault, old_ne, new_ne]
  exact same

/-- One item of a list for another. -/
inductive ItemReplaced (old new : Tree) : Tree → Tree → Prop
  | item {start : Position} {level : Nat} {before after : List Tree} {ending : Ending} :
      ItemReplaced old new (.array start level (before ++ old :: after) ending)
        (.array start level (before ++ new :: after) ending)

/-- One field of a record for another: the value under one of its keys, or the item at its place in
a record written as a list. -/
inductive FieldReplaced (keys : List String) (place : Nat) (old new : Tree) : Tree → Tree → Prop
  | entry {start : Position} {level : Nat} {key : Key} {name : String}
      {before after : List (Key × Tree)} {ending : Ending} (named : key.text = .ok name)
      (answers : name ∈ keys) :
      FieldReplaced keys place old new (.object start level (before ++ (key, old) :: after) ending)
        (.object start level (before ++ (key, new) :: after) ending)
  | item {start : Position} {level : Nat} {before after : List Tree} {ending : Ending}
      (here : before.length = place) :
      FieldReplaced keys place old new (.array start level (before ++ old :: after) ending)
        (.array start level (before ++ new :: after) ending)

/-- One `null` more in an object, under a key that it does not have. -/
inductive NullPut (name : String) : Tree → Tree → Prop
  | entry {start : Position} {level : Nat} {key : Key} {before after : List (Key × Tree)}
      {ending : Ending} (named : key.text = .ok name)
      (missing : ∀ entry ∈ before ++ after, entry.1.text ≠ .ok name) :
      NullPut name (.object start level (before ++ after) ending)
        (.object start level (before ++ (key, ofScalar .null) :: after) ending)

section

variable {kept : Prop} {old new tree tree' : Tree}

theorem ItemReplaced.self (replaced : ItemReplaced old new tree tree') :
    ItemReplaced new new tree' tree' := by
  cases replaced with
  | item => exact .item

theorem ItemReplaced.isNull (replaced : ItemReplaced old new tree tree') :
    tree.isNull = false ∧ tree'.isNull = false := by
  cases replaced with
  | item => exact ⟨rfl, rfl⟩

theorem NullPut.isNull {name : String} (put : NullPut name tree tree') :
    tree.isNull = false ∧ tree'.isNull = false := by
  cases put with
  | entry => exact ⟨rfl, rfl⟩

theorem FieldReplaced.self {keys : List String} {place : Nat}
    (replaced : FieldReplaced keys place old new tree tree') :
    FieldReplaced keys place new new tree' tree' := by
  cases replaced with
  | entry named answers => exact .entry named answers
  | item here => exact .item here

theorem NullPut.spells {name : String} (put : NullPut name tree tree') : tree'.Spells name := by
  cases put with
  | entry named missing => exact ⟨_, List.mem_append_right _ (.head _), named⟩

theorem NullPut.spells_of_spells {name key : String} (put : NullPut name tree tree')
    (spells : tree.Spells key) : tree'.Spells key := by
  cases put with
  | entry named missing =>
      obtain ⟨entry, member, named'⟩ := spells
      refine ⟨entry, ?_, named'⟩
      rw [entries, List.mem_append, List.mem_cons]
      exact (List.mem_append.mp member).imp_right .inr

theorem ItemReplaced.agree_readList {α : Type} {reader : Tree → Except Fault α}
    (replaced : ItemReplaced old new tree tree') (same : Agree kept (reader old) (reader new)) :
    Agree kept (readList reader tree) (readList reader tree') := by
  cases replaced with
  | item =>
      simp only [readList, List.mapM_append, List.mapM_cons, bind_assoc]
      refine .bind_right _ fun _ => .bind_right _ fun _ => ?_
      exact same.bind_left _

variable {σ α : Type} {slots : List (Slot σ)} {slot : Slot σ} {origin : Origin} {label : String}
  {empty : σ} {finish : σ → Except String α}

theorem FieldReplaced.agree_readRecord {keys : List String} {place : Nat}
    (replaced : FieldReplaced keys place old new tree tree') (separate : Slot.Separate slots)
    (here : slots[place]? = some slot) (own : keys ⊆ slot.keys)
    (same : ∀ draft, Agree kept (slot.fill draft old) (slot.fill draft new)) :
    Agree kept (readRecord origin label slots empty finish tree)
      (readRecord origin label slots empty finish tree') := by
  cases replaced with
  | entry named answers =>
      have found := separate.find?_eq_some (List.mem_of_getElem? here) (own answers)
      rw [readRecord, readRecord]
      refine .bind_right _ fun _ => ?_
      exact (Slot.agree_fillEntries named found same).bind_left _
  | item length =>
      rw [readRecord, readRecord]
      refine .bind_right _ fun _ => ?_
      exact (Slot.agree_fillItems (length ▸ here) same).bind_left _

/-- A record with a `null` more is read as without it, if it does not have the field by another
key. -/
theorem NullPut.alike_readRecord {name : String} (put : NullPut name tree tree')
    (separate : Slot.Separate slots) (member : slot ∈ slots) (answers : name ∈ slot.keys)
    (unfilled : slot.filled empty = false)
    (nulls : slot.NullIsMissing finish)
    (silent : ∀ key ∈ slot.keys, key ≠ name → ¬tree.Spells key) :
    Alike Eq (readRecord origin label slots empty finish tree)
      (readRecord origin label slots empty finish tree') := by
  cases put with
  | @entry start level key before after ending named missing =>
      have others : ∀ entry ∈ before ++ after, ¬slot.Answers entry := by
        intro entry present answered
        obtain ⟨key', answers', named'⟩ := answered
        by_cases same : key' = name
        · exact missing entry present (same ▸ named')
        · exact silent key' answers' same ⟨entry, present, named'⟩
      rw [readRecord, readRecord]
      refine (Alike.refl _).bind fun _ _ _ => ?_
      refine (Slot.alike_fillEntries_null separate member answers named unfilled nulls
        others).bind fun draft draft' same => ?_
      rw [same]
      exact .refl _

theorem readRecord_of_spells_twice {name name' : String} (separate : Slot.Separate slots)
    (member : slot ∈ slots) (answers : name ∈ slot.keys) (answers' : name' ∈ slot.keys)
    (differ : name ≠ name') (spells : tree.Spells name) (spells' : tree.Spells name') :
    (readRecord origin label slots empty finish tree).toOption = none := by
  obtain ⟨entry, present, named⟩ := spells
  obtain ⟨entry', present', named'⟩ := spells'
  cases tree with
  | object start level entries ending =>
      cases read :
        readRecord origin label slots empty finish (.object start level entries ending) with
      | error fault => rfl
      | ok record =>
          rw [readRecord] at read
          obtain ⟨-, -, rest⟩ := bind_eq_ok_iff.mp read
          obtain ⟨draft, filled, -⟩ := bind_eq_ok_iff.mp rest
          -- The two entries differ, so one of them comes first, whichever it is.
          have exclude : Std.Symm fun entry entry' : Key × Tree =>
              ¬(slot.Answers entry ∧ slot.Answers entry') :=
            ⟨fun _ _ apart both => apart both.symm⟩
          have pairs := Slot.pairwise_of_fillEntries separate member filled
          refine absurd ⟨⟨name, answers, named⟩, name', answers', named'⟩
            (pairs.forall present present' ?_)
          intro same
          rw [same, named'] at named
          exact differ (Except.ok.inj named).symm
  | _ => cases present

end

end Tree

/-! ## Maps -/

theorem Entries.insert_comm {α : Type} {key key' : String} (differ : key ≠ key') (value value' : α)
    (entries : Entries α) :
    (entries.insert key value).insert key' value' =
      (entries.insert key' value').insert key value := by
  induction entries with
  | nil => grind [Entries.insert]
  | cons entry rest ih =>
      obtain ⟨other, kept⟩ := entry
      grind [Entries.insert]

namespace Tree

variable {α : Type} {reader : Tree → Except Fault α}

private theorem readMapEntries_append (before : Entries α) (entries entries' : List (Key × Tree)) :
    readMapEntries reader before (entries ++ entries') =
      readMapEntries reader before entries >>= fun values =>
        readMapEntries reader values entries' := by
  induction entries generalizing before with
  | nil => rfl
  | cons entry entries ih =>
      obtain ⟨key, item⟩ := entry
      simp only [List.cons_append, readMapEntries, bind_assoc, ih]

private theorem notMem_keys_of_readMapEntries {name : String} {before values : Entries α}
    {entries : List (Key × Tree)} (new : name ∉ before.keys)
    (missing : ∀ entry ∈ entries, entry.1.text ≠ .ok name)
    (read : readMapEntries reader before entries = .ok values) : name ∉ values.keys := by
  induction entries generalizing before with
  | nil =>
      cases read
      exact new
  | cons entry entries ih =>
      obtain ⟨key, item⟩ := entry
      rw [readMapEntries] at read
      obtain ⟨other, named, rest⟩ := bind_eq_ok_iff.mp read
      obtain ⟨value, own, rest⟩ := bind_eq_ok_iff.mp rest
      refine ih ?_ (fun entry later => missing entry (.tail _ later)) rest
      intro member
      cases Entries.mem_keys_insert member with
      | inl same => exact missing _ (.head _) (same ▸ named)
      | inr old => exact new old

private theorem alike_readMapEntries_insert {name : String} {before : Entries α} {value : α}
    {entries : List (Key × Tree)} (missing : ∀ entry ∈ entries, entry.1.text ≠ .ok name) :
    Alike (fun values values' => values' = values.insert name value)
      (readMapEntries reader before entries)
      (readMapEntries reader (before.insert name value) entries) := by
  induction entries generalizing before with
  | nil => exact .ok rfl
  | cons entry entries ih =>
      obtain ⟨key, item⟩ := entry
      rw [readMapEntries, readMapEntries]
      cases named : key.text with
      | error fault => exact .error _ _
      | ok other =>
          have differ : name ≠ other := fun same => missing _ (.head _) (same ▸ named)
          refine (Alike.refl (reader item)).bind fun found _ same => ?_
          rw [← same, Entries.insert_comm differ]
          exact ih fun entry later => missing entry (.tail _ later)

private theorem alike_readMapEntries_put {key : Key} {name : String} {item : Tree} {value : α}
    {before after : List (Key × Tree)} (named : key.text = .ok name)
    (missing : ∀ entry ∈ before ++ after, entry.1.text ≠ .ok name)
    (read : reader item = .ok value) :
    Alike (fun values values' => name ∉ values.keys ∧ values' = values.insert name value)
      (readMapEntries reader [] (before ++ after))
      (readMapEntries reader [] (before ++ (key, item) :: after)) := by
  rw [List.forall_mem_append] at missing
  rw [readMapEntries_append, readMapEntries_append]
  cases first : readMapEntries reader [] before with
  | error fault => exact .error _ _
  | ok middle =>
      have new : name ∉ middle.keys :=
        notMem_keys_of_readMapEntries List.not_mem_nil missing.1 first
      rw [ok_bind, ok_bind, readMapEntries, named, ok_bind, read, ok_bind]
      refine (alike_readMapEntries_insert missing.2).imp fun values values' rest same => ?_
      exact ⟨notMem_keys_of_readMapEntries new missing.2 rest, same⟩

theorem NullPut.alike_readMap {name : String} {tree tree' : Tree} {null : α}
    (put : NullPut name tree tree') (read : reader (ofScalar .null) = .ok null) :
    Alike (fun values values' => name ∉ values.keys ∧ values' = values.insert name null)
      (readMap reader tree) (readMap reader tree') := by
  cases put with
  | @entry start level key before after ending named missing =>
      rw [readMap, readMap]
      refine (Alike.refl _).bind fun _ _ _ => ?_
      refine (alike_readMapEntries_put named missing read).bind fun values values' same => ?_
      exact (Alike.refl (ending.close Break.objectCause)).bind fun _ _ _ => .ok same

end Tree

end TracePipeline
