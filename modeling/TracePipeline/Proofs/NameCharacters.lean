import TracePipeline.Proofs.IdCharacters

/-! The characters of display names. A name is made like the label's part of an id, but keeps its
spaces and all letters of Unicode; what it tells is the start of what the label tells. -/

set_option autoImplicit false

namespace TracePipeline.Label

/-- What is taken off at the ends of names. -/
def isNameEdge (c : Char) : Bool :=
  c == '_' || c == ' '

/-- A label with its unsafe characters replaced, without underscores and spaces at its ends. -/
def cleanedName (label : String) : List Char :=
  Text.trimBy isNameEdge (collapse isNameSafe false label.toList)

/-- The safe characters of a text other than the underscore. -/
def wording (text : List Char) : List Char :=
  text.filter fun c => isNameSafe c && c != '_'

/-- What a name tells of a label. A label that is a name already stays as it is; of any other one
the wording stays in its order up to the cut, and a label without any becomes the fallback. -/
structure Displays (label name : List Char) : Prop where
  length : 1 ≤ name.length ∧ name.length ≤ 128
  safe : ∀ c ∈ name, Text.isWord c ∨ c = ' ' ∨ c = '-'
  starts : ∀ c ∈ name.head?, c ≠ '_' ∧ c ≠ ' '
  kept : (∀ c ∈ label, Text.isWord c ∨ c = ' ' ∨ c = '-') → label ≠ [] → label.length ≤ 128 →
    (∀ c ∈ label.head?, c ≠ '_' ∧ c ≠ ' ') → (∀ c ∈ label.getLast?, c ≠ '_' ∧ c ≠ ' ') →
    name = label
  empty : (∀ c ∈ label, isNameSafe c = false ∨ c = ' ' ∨ c = '_') → name = "unamed".toList
  order : ¬(∀ c ∈ label, isNameSafe c = false ∨ c = ' ' ∨ c = '_') →
    name.filter (· != '_') <+: (wording label).dropWhile (· == ' ')

/-! ## Safe characters and edges -/

theorem isNameSafe_iff {c : Char} : isNameSafe c ↔ Text.isWord c ∨ c = ' ' ∨ c = '-' := by
  simp [isNameSafe, or_assoc]

theorem isNameEdge_eq_false_iff {c : Char} : isNameEdge c = false ↔ c ≠ '_' ∧ c ≠ ' ' := by
  simp [isNameEdge]

private theorem isNameSafe_mark : isNameSafe '_' := by decide

private theorem collapse_of_safe {isSafe : Char → Bool} {text : List Char}
    (safe : ∀ c ∈ text, isSafe c) (inRun : Bool) : collapse isSafe inRun text = text := by
  induction text generalizing inRun with
  | nil => rfl
  | cons c text ih =>
      rw [collapse, if_pos (safe c (.head _)), ih fun d member => safe d (.tail _ member)]

private theorem trimBy_of_ends {drop : Char → Bool} {text : List Char}
    (starts : ∀ c ∈ text.head?, drop c = false) (stops : ∀ c ∈ text.getLast?, drop c = false) :
    Text.trimBy drop text = text := by
  have front : text.dropWhile drop = text := by
    cases text with
    | nil => rfl
    | cons c rest => exact List.dropWhile_cons_of_neg (Bool.eq_false_iff.mp (starts c rfl))
  rw [Text.trimBy, front]
  refine List.rdropWhile_eq_self_iff.mpr fun someText => ?_
  exact Bool.eq_false_iff.mp (stops _ (List.getLast?_eq_some_getLast someText))

/-! ## What is left of a label -/

theorem trimmed_cleanedName (label : String) :
    Trimmed isNameEdge (collapse isNameSafe false label.toList) (cleanedName label) :=
  trimmed_trimBy _ _

theorem forall_safe_cleanedName (label : String) : ∀ c ∈ cleanedName label, isNameSafe c :=
  fun c member => (collapsed_collapse isNameSafe label.toList).forall_safe isNameSafe_mark c
    ((trimmed_cleanedName label).subset member)

/-- Where all characters are safe, the wording is what is left without the underscores. -/
theorem wording_of_safe {text : List Char} (safe : ∀ c ∈ text, isNameSafe c) :
    wording text = text.filter (· != '_') :=
  List.filter_congr fun c member => by simp [safe c member]

private theorem wording_append (first second : List Char) :
    wording (first ++ second) = wording first ++ wording second :=
  List.filter_append first second

/-- But for spaces at its ends, a cleaned label has the wording of the label. -/
theorem wording_split (label : String) :
    ∃ front back, wording label.toList = front ++ (wording (cleanedName label) ++ back) ∧
      ∀ c ∈ front ++ back, c = ' ' := by
  obtain ⟨front, back, split, dropped⟩ := (trimmed_cleanedName label).ends
  have same : wording (collapse isNameSafe false label.toList) = wording label.toList :=
    (collapsed_collapse isNameSafe label.toList).filter_eq
  refine ⟨wording front, wording back, ?_, ?_⟩
  · rw [← same, split, wording_append, wording_append]
  · intro c member
    rw [← wording_append] at member
    obtain ⟨inside, solid⟩ := List.mem_filter.mp member
    have edge := dropped c inside
    simp_all [isNameEdge]

/-- The first character of a cleaned label is part of its wording. -/
theorem wording_cleanedName {label : String} {c : Char} {rest : List Char}
    (shape : cleanedName label = c :: rest) :
    wording (cleanedName label) = c :: wording rest ∧ c ≠ ' ' := by
  have solid := isNameEdge_eq_false_iff.mp ((trimmed_cleanedName label).starts c (by simp [shape]))
  have safe := forall_safe_cleanedName label c (by simp [shape])
  rw [shape]
  exact ⟨List.filter_cons_of_pos (by simp [safe, solid.1]), solid.2⟩

theorem cleanedName_eq_nil_iff (label : String) :
    cleanedName label = [] ↔ ∀ c ∈ label.toList, isNameSafe c = false ∨ c = ' ' ∨ c = '_' := by
  obtain ⟨front, back, split, spaces⟩ := wording_split label
  constructor
  case mp =>
    intro nothing c member
    by_cases told : c ∈ wording label.toList
    · rw [split, nothing] at told
      exact .inr (.inl (spaces c (by simpa [wording] using told)))
    · by_cases safe : isNameSafe c
      · exact .inr (.inr (by simpa [wording, member, safe] using told))
      · exact .inl (by simpa using safe)
  case mpr =>
    intro harmful
    cases shape : cleanedName label with
    | nil => rfl
    | cons c rest =>
        obtain ⟨told, solid⟩ := wording_cleanedName shape
        have member : c ∈ wording label.toList := by simp [split, told]
        obtain ⟨inside, kept⟩ := List.mem_filter.mp member
        have other := harmful c inside
        simp_all

/-- Without the spaces in front, the wording of a label goes on from that of the cleaned label. -/
theorem wording_cleanedName_starts {label : String} (someName : cleanedName label ≠ []) :
    wording (cleanedName label) <+: (wording label.toList).dropWhile (· == ' ') := by
  obtain ⟨front, back, split, spaces⟩ := wording_split label
  obtain ⟨c, rest, shape⟩ := List.exists_cons_of_ne_nil someName
  obtain ⟨told, solid⟩ := wording_cleanedName shape
  have dropped : ∀ d ∈ front, (d == ' ') = true := fun d member =>
    beq_iff_eq.mpr (spaces d (List.mem_append_left _ member))
  have stays : ((wording label.toList).dropWhile (· == ' ')) =
      wording (cleanedName label) ++ back := by
    rw [split, List.dropWhile_append_of_pos dropped, told]
    exact List.dropWhile_cons_of_neg (by simpa using solid)
  rw [stays]
  exact List.prefix_append _ _

/-! ## Names -/

theorem displayName_eq (label : String) :
    (displayName label).toList = (orFallback (cleanedName label)).take nameLimit :=
  String.toList_ofList

private theorem head?_displayName (label : String) :
    ∃ c, (displayName label).toList.head? = some c ∧ isNameEdge c = false := by
  rw [displayName_eq, List.head?_take, if_neg (by decide)]
  cases shape : cleanedName label with
  | nil => exact ⟨'u', rfl, by decide⟩
  | cons c rest => exact ⟨c, rfl, (trimmed_cleanedName label).starts c (by simp [shape])⟩

theorem displayName_of_safe {label : String} (safe : ∀ c ∈ label.toList, isNameSafe c)
    (someText : label.toList ≠ []) (short : label.toList.length ≤ nameLimit)
    (starts : ∀ c ∈ label.toList.head?, isNameEdge c = false)
    (stops : ∀ c ∈ label.toList.getLast?, isNameEdge c = false) :
    (displayName label).toList = label.toList := by
  have whole : cleanedName label = label.toList := by
    rw [cleanedName, collapse_of_safe safe, trimBy_of_ends starts stops]
  rw [displayName_eq, whole, orFallback_of_ne_nil someText, List.take_of_length_le short]

/-- The display name of any label: its length, its characters, its first character, and how much of
the label it tells. -/
theorem displayName_displays (label : String) :
    Displays label.toList (displayName label).toList := by
  have solid {c : Char} : isNameEdge c = false ↔ c ≠ '_' ∧ c ≠ ' ' := isNameEdge_eq_false_iff
  constructor
  case length =>
    rw [String.length_toList]
    exact length_displayName label
  case safe =>
    intro c member
    rw [displayName_eq] at member
    exact isNameSafe_iff.mp (forall_orFallback (by decide) (forall_safe_cleanedName label) c
      (List.mem_of_mem_take member))
  case starts =>
    intro c first
    obtain ⟨d, found, edge⟩ := head?_displayName label
    obtain rfl : d = c := Option.some.inj (found.symm.trans first)
    exact solid.mp edge
  case kept =>
    intro safe someText short starts stops
    exact displayName_of_safe (fun c member => isNameSafe_iff.mpr (safe c member)) someText short
      (fun c first => solid.mpr (starts c first)) (fun c last => solid.mpr (stops c last))
  case empty =>
    intro harmful
    rw [displayName_eq, (cleanedName_eq_nil_iff label).mpr harmful]
    rfl
  case order =>
    intro someWord
    have someName : cleanedName label ≠ [] := mt (cleanedName_eq_nil_iff label).mp someWord
    rw [displayName_eq, orFallback_of_ne_nil someName]
    have cut : ((cleanedName label).take nameLimit).filter (· != '_') <+:
        (cleanedName label).filter (· != '_') := (List.take_prefix _ _).filter _
    rw [← wording_of_safe (forall_safe_cleanedName label)] at cut
    exact cut.trans (wording_cleanedName_starts someName)

end TracePipeline.Label
