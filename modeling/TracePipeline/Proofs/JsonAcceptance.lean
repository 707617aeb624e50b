import TracePipeline.Proofs.JsonDecoding
import TracePipeline.Proofs.SearchOrder
import TracePipeline.Proofs.TokenAcceptance

/-! Only texts of values are read. What is read without a fault is a text of a value, and the tree
shows this value. So a text is read as a value just if the value is encoded as this text. -/

set_option autoImplicit false

namespace TracePipeline

/-! ## Parts and words -/

namespace Tree

open Cursor (Blank)

variable {cursor next : Cursor}

private theorem exists_of_close {bracket : Char} (closed : follow bracket cursor = .close next) :
    ∃ gap, Blank gap ∧ cursor.rest = Glyph.ofText (gap ++ [bracket]) ++ next.rest := by
  obtain ⟨gap, blank, split⟩ := cursor.exists_gap
  unfold follow at closed
  dsimp only at closed
  split at closed
  case h_1 => cases closed
  case h_2 glyph more shape =>
    split at closed
    case isTrue isBracket =>
      subst isBracket
      cases closed
      refine ⟨gap, blank, ?_⟩
      rw [split, shape, Cursor.rest_advance shape, ofText_append]
      rfl
    case isFalse =>
      split at closed
      case isTrue =>
        split at closed
        case h_1 => cases closed
        case h_2 => split at closed <;> cases closed
      case isFalse => cases closed

/-- Behind a comma comes a part that is not empty. -/
theorem exists_of_more {bracket : Char} (more : follow bracket cursor = .more next) :
    ∃ gap skipped, Blank gap ∧ Blank skipped ∧
      cursor.rest = Glyph.ofText (gap ++ ',' :: skipped) ++ next.rest ∧ next.rest ≠ [] := by
  obtain ⟨gap, before, split⟩ := cursor.exists_gap
  unfold follow at more
  dsimp only at more
  split at more
  case h_1 => cases more
  case h_2 glyph behind shape =>
    split at more
    case isTrue => cases more
    case isFalse =>
      split at more
      case isFalse => cases more
      case isTrue isComma =>
        subst isComma
        obtain ⟨skipped, after, split'⟩ := cursor.skipSpace.advance.exists_gap
        split at more
        case h_1 => cases more
        case h_2 part rest shape' =>
          split at more
          case isTrue => cases more
          case isFalse =>
            cases more
            refine ⟨gap, skipped, before, after, ?_, shape' ▸ nofun⟩
            rw [split, shape, ← Cursor.rest_advance shape, split', ofText_append]
            rfl

private theorem exists_of_readKey {label : Key} {key : String}
    (read : readKey cursor = (label, .ok next)) (named : label.text = .ok key) :
    ∃ body gap skipped, Quoted.Spells key.toList body ∧ Blank gap ∧ Blank skipped ∧
      cursor.rest =
        Glyph.ofText (body ++ '"' :: (gap ++ ':' :: skipped)) ++ next.rest := by
  unfold readKey at read
  split at read
  case h_1 => cases read
  case h_2 text behind closed =>
    dsimp only at read
    split at read
    case h_1 => cases read
    case h_2 glyph more shape =>
      split at read
      case isFalse => cases read
      case isTrue isColon =>
        subst isColon
        cases read
        cases named
        obtain ⟨body, quoted, spells⟩ := Quoted.Spells.of_read closed
        obtain ⟨gap, before, split⟩ := behind.exists_gap
        obtain ⟨skipped, after, split'⟩ := behind.skipSpace.advance.exists_gap
        refine ⟨body, gap, skipped, spells, before, after, ?_⟩
        rw [quoted, split, shape, ← Cursor.rest_advance shape, split']
        simp [Glyph.ofText]

private theorem split_of_readLetters {letters : List Char}
    (read : readLetters letters cursor = .ok next) :
    cursor.rest = Glyph.ofText letters ++ next.rest := by
  induction letters generalizing cursor with
  | nil =>
      cases read
      rfl
  | cons letter letters ih =>
      rw [readLetters] at read
      split at read
      case h_1 => cases read
      case h_2 glyph more shape =>
        split at read
        case isFalse => cases read
        case isTrue isLetter =>
          subst isLetter
          have behind := ih read
          rw [Cursor.rest_advance shape] at behind
          rw [shape, behind]
          rfl

/-! ## Values -/

/-- Reading took a text, and what the text is of has a property. -/
def Took {α : Type} (spells : α → List Char → Prop) (cursor : Cursor) (next? : Option Cursor)
    (holds : α → Prop) : Prop :=
  ∃ next part text, next? = some next ∧ cursor.rest = Glyph.ofText text ++ next.rest ∧
    spells part text ∧ holds part

/-- The strict reader finds nothing wrong with a tree. -/
def Accepted (tree : Tree) : Prop :=
  ∃ value, readJson tree = .ok value

/-- A value is shown, and it is not nested too deep. -/
def ShownWithin (level : Nat) (tree : Tree) (value : Json) : Prop :=
  Shows value tree ∧ level + value.depth < levelLimit

variable {next? : Option Cursor} {tree : Tree} {level fuel : Nat}

section Took

variable {α : Type} {spells : α → List Char → Prop} {holds : α → Prop}
  {allHold others : List α → Prop} {bracket : Char} {stop start : Cursor}

theorem Took.exists_next (took : Took spells cursor next? holds) : ∃ next, next? = some next := by
  obtain ⟨next, -, -, known, -⟩ := took
  exact ⟨next, known⟩

/-- A part with the closing bracket behind it is the last one. -/
theorem Took.last (took : Took spells cursor (some stop) holds)
    (closed : follow bracket stop = .close next) (single : ∀ part, holds part → allHold [part]) :
    Took (Json.Joined bracket spells) cursor (some next) allHold := by
  obtain ⟨_, part, text, ⟨⟩, split, spelled, own⟩ := took
  obtain ⟨gap, blank, split'⟩ := exists_of_close closed
  refine ⟨next, [part], _, rfl, ?_, .last spelled blank, single part own⟩
  rw [split, split']
  simp [Glyph.ofText]

theorem Took.more (took : Took spells cursor (some stop) holds)
    (comma : follow bracket stop = .more start)
    (rest : Took (Json.Joined bracket spells) start next? others)
    (cons : ∀ part parts, holds part → others parts → allHold (part :: parts)) :
    Took (Json.Joined bracket spells) cursor next? allHold := by
  obtain ⟨_, part, text, ⟨⟩, split, spelled, own⟩ := took
  obtain ⟨gap, skipped, before, after, split', -⟩ := exists_of_more comma
  obtain ⟨next, parts, later, known, split'', joined, all⟩ := rest
  refine ⟨next, part :: parts, _, known, ?_, .more spelled before after joined,
    cons part parts own all⟩
  rw [split, split', split'']
  simp [Glyph.ofText]

/-- The comma behind a part makes what follows shorter. -/
theorem Took.length_lt (took : Took spells cursor (some stop) holds)
    (comma : follow bracket stop = .more start) : start.rest.length < cursor.rest.length := by
  obtain ⟨_, part, text, ⟨⟩, split, -⟩ := took
  obtain ⟨gap, skipped, -, -, split', -⟩ := exists_of_more comma
  rw [split, split']
  simp only [Glyph.ofText, List.length_append, List.length_map, List.length_cons]
  omega

end Took

theorem Took.scalar {content : Scalar} {text : List Char} {stop : Position}
    (within : level < levelLimit) (split : cursor.rest = Glyph.ofText text ++ next.rest)
    (spelled : content.toJson.Spelled text) :
    Took Json.Spelled cursor (some next)
      (ShownWithin level (.scalar cursor.position (.ok content) stop)) := by
  have flat : content.toJson.depth = 0 := by
    cases content <;> rfl
  exact ⟨next, content.toJson, text, rfl, split, spelled, .scalar rfl, by rwa [flat]⟩

private theorem took_word {letters : List Char} {content : Scalar} {first : Char}
    {more : List Glyph}
    (read : readWord letters content cursor = (tree, next?)) (accepted : Accepted tree)
    (within : level < levelLimit) (here : cursor.rest = .char first :: more)
    (spelled : content.toJson.Spelled (first :: letters)) :
    Took Json.Spelled cursor next? (ShownWithin level tree) := by
  unfold readWord at read
  split at read
  case h_2 =>
    cases read
    cases accepted.choose_spec
  case h_1 next word =>
    cases read
    refine .scalar within ?_ spelled
    rw [here, ← Cursor.rest_advance here, split_of_readLetters word]
    rfl

private theorem took_number (read : readNumber cursor = (tree, next?)) (accepted : Accepted tree)
    (within : level < levelLimit) : Took Json.Spelled cursor next? (ShownWithin level tree) := by
  unfold readNumber at read
  split at read
  case h_1 =>
    cases read
    cases accepted.choose_spec
  case h_2 numeral next done =>
    dsimp only at read
    split at read
    case h_2 =>
      cases read
      cases accepted.choose_spec
    case h_1 number value =>
      cases read
      obtain ⟨text, spelled, split⟩ := Numeral.Spelled.of_read done
      exact .scalar within split (.number ⟨numeral, spelled, value⟩)

private theorem took_quoted {more : List Glyph} (read : readQuoted cursor = (tree, next?))
    (accepted : Accepted tree) (within : level < levelLimit)
    (here : cursor.rest = .char '"' :: more) :
    Took Json.Spelled cursor next? (ShownWithin level tree) := by
  unfold readQuoted at read
  split at read
  case h_1 =>
    cases read
    cases accepted.choose_spec
  case h_2 found next closed =>
    cases read
    cases found with
    | error fault => cases accepted.choose_spec
    | ok text =>
        obtain ⟨body, split, spells⟩ := Quoted.Spells.of_read closed
        have whole : cursor.rest = Glyph.ofText ('"' :: (body ++ ['"'])) ++ next.rest := by
          rw [here, ← Cursor.rest_advance here, split]
          simp [Glyph.ofText]
        exact .scalar within whole (.string spells)

/-! ## Lists and objects -/

/-- Trees that are items are accepted, and the list ends. -/
def AcceptedItems (trees : List Tree) (ending : Ending) : Prop :=
  (∃ values, readJsonItems trees = .ok values) ∧ ∃ stop, ending.close Break.listCause = .ok stop

def AcceptedEntries (parts : List (Key × Tree)) (ending : Ending) : Prop :=
  (∃ before values, readJsonEntries before parts = .ok values) ∧
    ∃ stop, ending.close Break.objectCause = .ok stop

theorem lt_of_enter {start : Position} {done : Unit} (entered : enter start level = .ok done) :
    level < levelLimit := by
  unfold enter at entered
  split at entered
  case isTrue within => exact within
  case isFalse => cases entered

private theorem Accepted.array {start : Position} {trees : List Tree} {ending : Ending}
    (accepted : Accepted (.array start level trees ending)) :
    level < levelLimit ∧ AcceptedItems trees ending := by
  obtain ⟨value, read⟩ := accepted
  rw [readJson] at read
  obtain ⟨_, entered, read⟩ := bind_eq_ok_iff.mp read
  obtain ⟨values, inside, read⟩ := bind_eq_ok_iff.mp read
  obtain ⟨stop, closed, -⟩ := bind_eq_ok_iff.mp read
  exact ⟨lt_of_enter entered, ⟨values, inside⟩, stop, closed⟩

private theorem Accepted.object {start : Position} {parts : List (Key × Tree)} {ending : Ending}
    (accepted : Accepted (.object start level parts ending)) :
    level < levelLimit ∧ AcceptedEntries parts ending := by
  obtain ⟨value, read⟩ := accepted
  rw [readJson] at read
  obtain ⟨_, entered, read⟩ := bind_eq_ok_iff.mp read
  obtain ⟨values, inside, read⟩ := bind_eq_ok_iff.mp read
  obtain ⟨stop, closed, -⟩ := bind_eq_ok_iff.mp read
  exact ⟨lt_of_enter entered, ⟨[], values, inside⟩, stop, closed⟩

private theorem AcceptedItems.cons {trees : List Tree} {ending : Ending}
    (accepted : AcceptedItems (tree :: trees) ending) :
    Accepted tree ∧ AcceptedItems trees ending := by
  obtain ⟨⟨values, read⟩, closed⟩ := accepted
  rw [readJsonItems] at read
  obtain ⟨value, own, read⟩ := bind_eq_ok_iff.mp read
  obtain ⟨values, others, -⟩ := bind_eq_ok_iff.mp read
  exact ⟨⟨value, own⟩, ⟨values, others⟩, closed⟩

private theorem AcceptedEntries.cons {label : Key} {parts : List (Key × Tree)} {ending : Ending}
    (accepted : AcceptedEntries ((label, tree) :: parts) ending) :
    (∃ key, label.text = .ok key) ∧ Accepted tree ∧ AcceptedEntries parts ending := by
  obtain ⟨⟨before, values, read⟩, closed⟩ := accepted
  rw [readJsonEntries] at read
  obtain ⟨key, named, read⟩ := bind_eq_ok_iff.mp read
  obtain ⟨value, own, read⟩ := bind_eq_ok_iff.mp read
  exact ⟨⟨key, named⟩, ⟨value, own⟩, ⟨_, values, read⟩, closed⟩

/-- Items are shown up to the end of a list, and none is nested too deep. -/
structure ItemsShown (level : Nat) (trees : List Tree) (ending : Ending) (items : List Json) :
    Prop where
  closed : ∃ stop, ending = .closed stop
  each : List.Forall₂ Shows items trees
  shallow : level + Json.depthItems items < levelLimit

structure EntriesShown (level : Nat) (parts : List (Key × Tree)) (ending : Ending)
    (entries : List (String × Json)) : Prop where
  closed : ∃ stop, ending = .closed stop
  keys : List.Forall₂ (fun entry part => part.1.text = .ok entry.1) entries parts
  each : List.Forall₂ (fun entry part => Shows entry.2 part.2) entries parts
  shallow : level + Json.depthEntries entries < levelLimit

private theorem ItemsShown.single {item : Json} (stop : Position)
    (shown : ShownWithin level tree item) :
    ItemsShown level [tree] (.closed stop) [item] := by
  refine ⟨⟨stop, rfl⟩, .cons shown.1 .nil, ?_⟩
  have shallow := shown.2
  simp only [Json.depthItems]
  omega

private theorem ItemsShown.cons {trees : List Tree} {ending : Ending} {item : Json}
    {items : List Json}
    (shown : ShownWithin level tree item) (others : ItemsShown level trees ending items) :
    ItemsShown level (tree :: trees) ending (item :: items) := by
  refine ⟨others.closed, .cons shown.1 others.each, ?_⟩
  have shallow := shown.2
  have shallow' := others.shallow
  simp only [Json.depthItems]
  omega

/-- An entry is shown by its key and the tree of its value. -/
def EntryShown (level : Nat) (part : Key × Tree) (entry : String × Json) : Prop :=
  part.1.text = .ok entry.1 ∧ ShownWithin level part.2 entry.2

private theorem EntriesShown.single {part : Key × Tree} {entry : String × Json} (stop : Position)
    (shown : EntryShown level part entry) :
    EntriesShown level [part] (.closed stop) [entry] := by
  obtain ⟨named, shows, shallow⟩ := shown
  refine ⟨⟨stop, rfl⟩, .cons named .nil, .cons shows .nil, ?_⟩
  simp only [Json.depthEntries]
  omega

private theorem EntriesShown.cons {part : Key × Tree} {parts : List (Key × Tree)} {ending : Ending}
    {entry : String × Json} {entries : List (String × Json)}
    (shown : EntryShown level part entry) (others : EntriesShown level parts ending entries) :
    EntriesShown level (part :: parts) ending (entry :: entries) := by
  obtain ⟨named, shows, shallow⟩ := shown
  refine ⟨others.closed, .cons named others.keys, .cons shows others.each, ?_⟩
  have shallow' := others.shallow
  simp only [Json.depthEntries]
  omega

/-- With a count that covers the input, reading takes a text of a value wherever the strict reader
accepts what was made of it. -/
def TakesValue (fuel : Nat) : Prop :=
  ∀ {level : Nat} {cursor : Cursor} {tree : Tree} {next? : Option Cursor},
    readValue fuel level cursor = (tree, next?) → Accepted tree → level < levelLimit →
    2 * cursor.rest.length ≤ fuel + 1 →
    Took Json.Spelled cursor next? (ShownWithin level tree)

def TakesItems (fuel : Nat) : Prop :=
  ∀ {level : Nat} {cursor : Cursor} {trees : List Tree} {ending : Ending}
    {next? : Option Cursor}, readItems fuel level cursor = (trees, ending, next?) →
    AcceptedItems trees ending → level < levelLimit → cursor.rest ≠ [] →
    2 * cursor.rest.length ≤ fuel →
    Took (Json.Joined ']' Json.Spelled) cursor next? (ItemsShown level trees ending)

def TakesEntries (fuel : Nat) : Prop :=
  ∀ {level : Nat} {cursor : Cursor} {parts : List (Key × Tree)} {ending : Ending}
    {next? : Option Cursor}, readEntries fuel level cursor = (parts, ending, next?) →
    AcceptedEntries parts ending → level < levelLimit → cursor.rest ≠ [] →
    2 * cursor.rest.length ≤ fuel →
    Took (Json.Joined '}' (Json.Paired Json.Spelled)) cursor next? (EntriesShown level parts ending)

private theorem TakesItems.step (value : TakesValue fuel) (items : TakesItems fuel) :
    TakesItems (fuel + 1) := by
  -- The value takes one step of the count, and the comma behind it pays for that step.
  intro level cursor trees ending next? read accepted within some enough
  have positive := List.length_pos_of_ne_nil some
  unfold readItems at read
  dsimp only at read
  cases first : readValue fuel level cursor with
  | mk tree after =>
      rw [first] at read
      dsimp only at read
      have took {trees : List Tree} {ending : Ending}
          (accepted : AcceptedItems (tree :: trees) ending) :
          Took Json.Spelled cursor after (ShownWithin level tree) :=
        value first accepted.cons.1 within (by omega)
      split at read
      case h_1 =>
        cases read
        cases (took accepted).exists_next.choose_spec
      case h_2 stop =>
        split at read
        case h_1 next closed =>
          cases read
          exact (took accepted).last closed fun item => .single _
        case h_2 =>
          cases read
          cases accepted.2.choose_spec
        case h_3 start comma =>
          cases behind : readItems fuel level start with
          | mk trees rest =>
              obtain ⟨ending, next?⟩ := rest
              rw [behind] at read
              cases read
              have shorter := (took accepted).length_lt comma
              obtain ⟨-, -, -, -, -, others⟩ := exists_of_more comma
              have later := items behind accepted.cons.2 within others (by omega)
              exact (took accepted).more comma later fun item items => .cons

theorem not_accepted_broken {start : Position} {strict skipping : Fault} :
    ¬Accepted (.broken start strict skipping) := by
  rintro ⟨value, read⟩
  cases read

private theorem not_accepted_of_readKey {label : Key}
    (read : readKey cursor = (label, .error tree)) :
    ¬Accepted tree := by
  unfold readKey at read
  split at read
  case h_1 =>
    cases read
    exact not_accepted_broken
  case h_2 =>
    dsimp only at read
    split at read
    case h_1 =>
      cases read
      exact not_accepted_broken
    case h_2 =>
      split at read
      case isTrue => cases read
      case isFalse =>
        cases read
        exact not_accepted_broken

/-- An entry is a key and a value of which reading takes a text. -/
theorem TakesValue.entry (value : TakesValue fuel) {label : Key} {start : Cursor}
    {more : List Glyph} (quote : cursor.rest = .char '"' :: more)
    (labelled : readKey cursor.advance = (label, .ok start))
    (named : ∃ key, label.text = .ok key) (read : readValue fuel level start = (tree, next?))
    (accepted : Accepted tree) (within : level < levelLimit)
    (enough : 2 * cursor.rest.length ≤ fuel + 1) :
    Took (Json.Paired Json.Spelled) cursor next? (EntryShown level (label, tree)) := by
  obtain ⟨key, named⟩ := named
  obtain ⟨body, gap, skipped, spells, before, behind, split⟩ := exists_of_readKey labelled named
  rw [Cursor.rest_advance quote] at split
  have shorter : 2 * start.rest.length ≤ fuel + 1 := by
    rw [quote, split] at enough
    simp only [Glyph.ofText, List.length_append, List.length_map, List.length_cons] at enough
    omega
  obtain ⟨next, item, text, rfl, split', spelled, shown⟩ := value read accepted within shorter
  refine ⟨next, (key, item), _, rfl, ?_, .pair spells before behind spelled, named, shown⟩
  rw [quote, split, split']
  simp [Glyph.ofText]

private theorem TakesEntries.step (value : TakesValue fuel) (entries : TakesEntries fuel) :
    TakesEntries (fuel + 1) := by
  intro level cursor parts ending next? read accepted within some enough
  have positive := List.length_pos_of_ne_nil some
  unfold readEntries at read
  split at read
  case isTrue =>
    cases read
    cases accepted.2.choose_spec
  case isFalse starts =>
    obtain ⟨more, quote⟩ : ∃ more, cursor.rest = .char '"' :: more :=
      List.head?_eq_some_iff.mp (not_not.mp starts)
    split at read
    case h_1 label tree broken =>
      cases read
      exact absurd accepted.cons.2.1 (not_accepted_of_readKey broken)
    case h_2 label start labelled =>
      dsimp only at read
      cases first : readValue fuel level start with
      | mk tree after =>
          rw [first] at read
          dsimp only at read
          have took {parts : List (Key × Tree)} {ending : Ending}
              (accepted : AcceptedEntries ((label, tree) :: parts) ending) :
              Took (Json.Paired Json.Spelled) cursor after (EntryShown level (label, tree)) :=
            value.entry quote labelled accepted.cons.1 first accepted.cons.2.1 within (by omega)
          split at read
          case h_1 =>
            cases read
            cases (took accepted).exists_next.choose_spec
          case h_2 stop =>
            split at read
            case h_1 next closed =>
              cases read
              exact (took accepted).last closed fun entry => .single _
            case h_2 =>
              cases read
              cases accepted.2.choose_spec
            case h_3 start comma =>
              cases behind : readEntries fuel level start with
              | mk parts rest =>
                  obtain ⟨ending, next?⟩ := rest
                  rw [behind] at read
                  cases read
                  have shorter := (took accepted).length_lt comma
                  obtain ⟨-, -, -, -, -, others⟩ := exists_of_more comma
                  have later := entries behind accepted.cons.2.2 within others (by omega)
                  exact (took accepted).more comma later fun entry entries => .cons

/-- What stands behind an opening bracket: the closing one, the end of the text, or parts. -/
def readInside {β : Type} (bracket : Char) (first : Cursor)
    (parts : List β × Ending × Option Cursor) : List β × Ending × Option Cursor :=
  if first.rest.head? = some (.char bracket) then
    ([], .closed first.advance.position, some first.advance)
  else if first.rest.isEmpty then ([], .broken .endOfText first.position, none)
  else parts

theorem readInside_cases {β : Type} (bracket : Char) (first : Cursor)
    (parts : List β × Ending × Option Cursor) :
    (first.rest = .char bracket :: first.advance.rest ∧
        readInside bracket first parts =
          ([], .closed first.advance.position, some first.advance)) ∨
      readInside bracket first parts = ([], .broken .endOfText first.position, none) ∨
      (first.rest ≠ [] ∧ readInside bracket first parts = parts) := by
  unfold readInside
  split
  case isTrue closing =>
    obtain ⟨rest, here⟩ := List.head?_eq_some_iff.mp closing
    exact .inl ⟨by rw [Cursor.rest_advance here, here], rfl⟩
  case isFalse =>
    split
    case isTrue => exact .inr (.inl rfl)
    case isFalse some => exact .inr (.inr ⟨by simpa using some, rfl⟩)

/-- Parts have at least one glyph less before them than the list or object. -/
theorem enough_inside {c : Char} {more : List Glyph} (opening : cursor.rest = .char c :: more)
    (enough : 2 * cursor.rest.length ≤ fuel + 2) :
    2 * cursor.advance.skipSpace.rest.length ≤ fuel := by
  obtain ⟨gap, -, split⟩ := cursor.advance.exists_gap
  rw [opening, ← Cursor.rest_advance opening, split] at enough
  simp only [Glyph.ofText, List.length_append, List.length_map, List.length_cons] at enough
  omega

private theorem TakesItems.array (items : TakesItems fuel) {more : List Glyph}
    (opening : cursor.rest = .char '[' :: more) {start : Position} {trees : List Tree}
    {ending : Ending} {next? : Option Cursor}
    (read : readInside ']' cursor.advance.skipSpace
      (readItems fuel (level + 1) cursor.advance.skipSpace) = (trees, ending, next?))
    (accepted : Accepted (.array start (level + 1) trees ending))
    (enough : 2 * cursor.rest.length ≤ fuel + 2) :
    Took Json.Spelled cursor next?
      (ShownWithin level (.array start (level + 1) trees ending)) := by
  obtain ⟨within, inside⟩ := accepted.array
  obtain ⟨gap, blank, split⟩ := cursor.advance.exists_gap
  rw [Cursor.rest_advance opening] at split
  rcases readInside_cases ']' cursor.advance.skipSpace
    (readItems fuel (level + 1) cursor.advance.skipSpace) with
    ⟨closing, found⟩ | found | ⟨some, found⟩
  · cases found.symm.trans read
    refine ⟨_, .array [], _, rfl, ?_, .noItems blank, .array within .nil, within⟩
    rw [opening, split, closing]
    simp [Glyph.ofText]
  · cases found.symm.trans read
    cases inside.2.choose_spec
  · obtain ⟨next, raws, text, rfl, split', joined, ⟨stop, rfl⟩, all, fits⟩ :=
      items (found.symm.trans read) inside within some (enough_inside opening enough)
    refine ⟨next, .array raws, _, rfl, ?_, .array blank joined, .array within all, ?_⟩
    · rw [opening, split, split']
      simp [Glyph.ofText]
    · simp only [Json.depth]
      omega

private theorem TakesEntries.object (entries : TakesEntries fuel) {more : List Glyph}
    (opening : cursor.rest = .char '{' :: more) {start : Position} {parts : List (Key × Tree)}
    {ending : Ending} {next? : Option Cursor}
    (read : readInside '}' cursor.advance.skipSpace
      (readEntries fuel (level + 1) cursor.advance.skipSpace) = (parts, ending, next?))
    (accepted : Accepted (.object start (level + 1) parts ending))
    (enough : 2 * cursor.rest.length ≤ fuel + 2) :
    Took Json.Spelled cursor next?
      (ShownWithin level (.object start (level + 1) parts ending)) := by
  obtain ⟨within, inside⟩ := accepted.object
  obtain ⟨gap, blank, split⟩ := cursor.advance.exists_gap
  rw [Cursor.rest_advance opening] at split
  rcases readInside_cases '}' cursor.advance.skipSpace
    (readEntries fuel (level + 1) cursor.advance.skipSpace) with
    ⟨closing, found⟩ | found | ⟨some, found⟩
  · cases found.symm.trans read
    refine ⟨_, .object [], _, rfl, ?_, .noEntries blank, .object within .nil .nil, within⟩
    rw [opening, split, closing]
    simp [Glyph.ofText]
  · cases found.symm.trans read
    cases inside.2.choose_spec
  · obtain ⟨next, raws, text, rfl, split', joined, ⟨stop, rfl⟩, keys, all, fits⟩ :=
      entries (found.symm.trans read) inside within some (enough_inside opening enough)
    refine ⟨next, .object raws, _, rfl, ?_, .object blank joined, .object within keys all, ?_⟩
    · rw [opening, split, split']
      simp [Glyph.ofText]
    · simp only [Json.depth]
      omega

private theorem TakesValue.step (items : TakesItems fuel) (entries : TakesEntries fuel) :
    TakesValue (fuel + 1) := by
  intro level cursor tree next? read accepted within enough
  unfold readValue at read
  split at read
  case h_1 =>
    cases read
    exact absurd accepted not_accepted_broken
  case h_2 =>
    cases read
    exact absurd accepted not_accepted_broken
  case h_3 c more here =>
    split at read
    case isTrue quote => exact took_quoted read accepted within (quote ▸ here)
    split at read
    case isTrue opening =>
      cases read
      exact entries.object (opening ▸ here) rfl accepted enough
    split at read
    case isTrue opening =>
      cases read
      exact items.array (opening ▸ here) rfl accepted enough
    split at read
    case isTrue => exact took_number read accepted within
    split at read
    case isTrue word => exact took_word read accepted within (word ▸ here) .null
    split at read
    case isTrue word => exact took_word read accepted within (word ▸ here) .true
    split at read
    case isTrue word => exact took_word read accepted within (word ▸ here) .false
    case isFalse =>
      cases read
      exact absurd accepted not_accepted_broken

theorem takes (fuel : Nat) : TakesValue fuel ∧ TakesItems fuel ∧ TakesEntries fuel := by
  induction fuel with
  | zero =>
      -- Parts that the count cuts off look like parts that end, so it must cover the input.
      refine ⟨?_, ?_, ?_⟩
      · intro level cursor tree next? read accepted
        cases read
        exact absurd accepted not_accepted_broken
      · intro level cursor trees ending next? read accepted within some enough
        exact absurd (List.length_pos_of_ne_nil some) (by omega)
      · intro level cursor parts ending next? read accepted within some enough
        exact absurd (List.length_pos_of_ne_nil some) (by omega)
  | succ fuel ih =>
      obtain ⟨value, items, entries⟩ := ih
      exact ⟨TakesValue.step items entries, TakesItems.step value items,
        TakesEntries.step value entries⟩

end Tree

/-! ## Whole texts -/

theorem Glyph.ofText_injective {first second : List Char} (same : ofText first = ofText second) :
    first = second :=
  (List.map_inj_right fun _ _ same => Glyph.char.inj same).mp same

namespace Document

open Cursor (Blank)

/-- A text in which nothing is wrong is a text of a value, with white space around it. -/
theorem exists_spelled {text : String} {tree : Tree} (parsed : ofText text = ⟨tree, none⟩)
    (accepted : tree.Accepted) :
    ∃ (value : Json) (before body after : List Char), Blank before ∧ Blank after ∧
      value.Spelled body ∧ text = String.ofList (before ++ (body ++ after)) ∧
      Tree.Shows value tree ∧ value.depth < Tree.levelLimit := by
  obtain ⟨before, leading, split⟩ := (Cursor.ofGlyphs (Glyph.ofText text.toList)).exists_gap
  have enough : 2 * (Cursor.ofGlyphs (Glyph.ofText text.toList)).skipSpace.rest.length ≤
      2 * (Glyph.ofText text.toList).length + 2 + 1 := by
    have whole : (Glyph.ofText text.toList).length = (Glyph.ofText before).length +
        (Cursor.ofGlyphs (Glyph.ofText text.toList)).skipSpace.rest.length := by
      rw [← List.length_append, ← split]
      rfl
    omega
  unfold ofText ofGlyphs at parsed
  dsimp only at parsed
  split at parsed
  case h_1 root read =>
    cases parsed
    obtain ⟨next, -, -, impossible, -⟩ :=
      (Tree.takes _).1 read accepted (by decide) enough
    cases impossible
  case h_2 root next read =>
    split at parsed
    case isFalse => cases parsed
    case isTrue ends =>
      cases parsed
      obtain ⟨_, value, body, ⟨⟩, split', spelled, shows, shallow⟩ :=
        (Tree.takes _).1 read accepted (by decide) enough
      obtain ⟨after, trailing, split''⟩ := next.exists_gap
      rw [List.isEmpty_iff.mp ends, List.append_nil] at split''
      have same : Glyph.ofText text.toList = Glyph.ofText (before ++ (body ++ after)) := by
        refine split.trans ?_
        rw [split', split'']
        simp [Glyph.ofText]
      refine ⟨value, before, body, after, leading, trailing, spelled, ?_, shows, by omega⟩
      rw [← Glyph.ofText_injective same, String.ofList_toList]

theorem exists_of_read {α : Type} {reader : Tree → Except Fault α} {document : Document}
    {value : α} (read : document.read reader = .ok value) :
    reader document.root = .ok value ∧ document.trailing = none := by
  obtain ⟨found, own, behind⟩ := bind_eq_ok_iff.mp read
  split at behind
  case h_1 ends =>
    cases behind
    exact ⟨own, ends⟩
  case h_2 => cases behind

end Document

namespace Json

open Cursor (Blank)

/-- A text encodes a value: between white space, it is a text of the value, whose keys may stand in
any order there. Of equal keys the last one counts. Not too many lists and objects stand around each
other in the text. -/
def EncodedAs (value : Json) (text : String) : Prop :=
  ∃ (raw : Json) (before body after : List Char), raw.inOrder = value ∧
    raw.depth < Tree.levelLimit ∧ Blank before ∧ Blank after ∧ raw.Spelled body ∧
    text = String.ofList (before ++ (body ++ after))

/-- A text is read as the value that is encoded as this text. -/
theorem read?_eq_ok_iff {value : Json} {text : String} :
    read? text = .ok value ↔ value.EncodedAs text := by
  constructor
  case mp =>
    intro read
    cases parsed : Document.ofText text with
    | mk tree trailing =>
        rw [read?, parsed] at read
        obtain ⟨own, rfl⟩ : tree.readJson = .ok value ∧ trailing = none :=
          Document.exists_of_read read
        obtain ⟨raw, before, body, after, leading, behind, spelled, whole, shows, shallow⟩ :=
          Document.exists_spelled parsed ⟨value, own⟩
        rw [shows.readJson_eq] at own
        exact ⟨raw, before, body, after, Except.ok.inj own, shallow, leading, behind, spelled,
          whole⟩
  case mpr =>
    rintro ⟨raw, before, body, after, rfl, shallow, leading, behind, spelled, rfl⟩
    obtain ⟨tree, parsed, shows⟩ := Document.ofText_spelled leading behind spelled shallow
    rw [read?, parsed, Document.read, shows.readJson_eq]
    rfl

theorem ordered_inOrder (value : Json) : value.inOrder.Ordered := by
  induction value using induct_inside with
  | null => exact .null
  | bool value => exact .bool value
  | number value => exact .number value
  | string value => exact .string value
  | array items ih =>
      rw [inOrder, inOrderItems_eq]
      exact .array (List.forall_mem_map.mpr ih)
  | object entries ih =>
      rw [inOrder, inOrderEntries_eq]
      refine .object (Entries.sorted_ofPairs _) fun entry member => ?_
      rcases Entries.mem_insertAll member with inside | nothing
      · obtain ⟨own, present, rfl⟩ := List.mem_map.mp inside
        exact ih own present
      · cases nothing

/-- What is read of a text has the keys of all its objects in order. -/
theorem ordered_of_read? {value : Json} {text : String} (read : read? text = .ok value) :
    value.Ordered := by
  obtain ⟨raw, -, -, -, rfl, -⟩ := read?_eq_ok_iff.mp read
  exact ordered_inOrder raw

/-- The compact text of a value, between white space, encodes the value. -/
theorem encodedAs_compact {value : Json} (plain : value.Plain)
    (shallow : value.depth < Tree.levelLimit) {before after : List Char} (leading : Blank before)
    (behind : Blank after) :
    value.EncodedAs (String.ofList (before ++ (value.compact ++ after))) :=
  ⟨value, before, value.compact, after, plain.inOrder_eq, shallow, leading, behind,
    spelled_compact plain.integral, rfl⟩

end Json

end TracePipeline
