import Mathlib.Data.List.TakeWhile
import TracePipeline.Proofs.ShellQuoting
import TracePipeline.ShellWord

/-! How a POSIX shell reads a script: words with their quotes removed, redirections, comments and
here-documents. A text in single quotes, or escaped between double quotes, is read as one word with
that text as its value, whatever the text is. -/

set_option autoImplicit false

namespace TracePipeline

namespace Text

/-- Lines with line feeds between them are the text they were cut from. -/
theorem intercalate_splitBy (text : List Char) :
    ['\n'].intercalate (splitBy (· == '\n') text) = text := by
  induction text with
  | nil => rfl
  | cons c rest ih =>
      rw [splitBy]
      cases pieces : splitBy (· == '\n') rest with
      | nil => exact absurd pieces (splitBy_ne_nil _ rest)
      | cons piece more =>
          rw [pieces] at ih
          split
          case isTrue isCut =>
            rw [List.intercalate_cons_cons, ih, eq_of_beq isCut]
            rfl
          case isFalse =>
            cases more with
            | nil => simpa using ih
            | cons next more =>
                rw [List.intercalate_cons_cons] at ih ⊢
                rw [← ih]
                rfl

end Text

namespace Posix

open ShellWord (quote quoteChar escape escapeChar isSpecial)

/-! ## Words -/

/-- A character of a word that stands for itself, or a mark that stands for something else: it
starts an expansion or belongs to a pattern of file names. -/
inductive Piece where
  | char (c : Char)
  | mark (c : Char)
deriving DecidableEq

def Piece.shown : Piece → Char
  | char c | mark c => c

abbrev Word := List Piece

/-- The word whose value is a text, with nothing to expand. -/
def literal (text : List Char) : Word :=
  text.map .char

def isGap (c : Char) : Bool :=
  c == ' ' || c == '\t'

/-- The characters that end a word outside quotes. -/
def endsWord (c : Char) : Bool :=
  isGap c || ['\n', '|', '&', ';', '<', '>', '(', ')'].contains c

/-- A dollar sign or a backtick, the start of an expansion also between double quotes. -/
def isExpansion (c : Char) : Bool :=
  c == '$' || c.toNat == 0x60

/-- The marks of patterns and the tilde, which are marks outside quotes only. -/
def isPattern (c : Char) : Bool :=
  ['*', '?', '[', '~'].contains c

/-- What a character adds to a word. Between double quotes a backslash is kept unless it stands in
front of an expansion, a double quote, another backslash or the end of a line. -/
def pieces : Quoting → Char → Word
  | .bare, c =>
    if c == '\\' || c == '\'' || c == '"' then []
    else [if isExpansion c || isPattern c then .mark c else .char c]
  | .escaped, c => if c = '\n' then [] else [.char c]
  | .single, c => if c = '\'' then [] else [.char c]
  | .double, c =>
    if c == '\\' || c == '"' then [] else [if isExpansion c then .mark c else .char c]
  | .doubleEscaped, c =>
    if c = '\n' then []
    else if c == '\\' || c == '"' || isExpansion c then [.char c]
    else [.char '\\', .char c]

/-- Reads a word to its end, and gives the text behind it. Nothing is read if a quote stays open or
the text ends with a backslash that escapes nothing. -/
def readWord (quoting : Quoting) : List Char → Option (Word × List Char)
  | [] => if quoting = .bare then some ([], []) else none
  | c :: rest =>
    if quoting = .bare && endsWord c then some ([], c :: rest)
    else (readWord (quoting.next c) rest).map fun (word, left) => (pieces quoting c ++ word, left)

/-- Whether a word starts here. A `#` starts a comment. -/
def startsWord : List Char → Bool
  | [] => false
  | c :: _ => !endsWord c && c != '#'

/-- The word at the start of a text, and the text behind it. -/
def word? (text : List Char) : Option (Word × List Char) :=
  if startsWord text then readWord .bare text else none

/-- A text that a word in front of it does not go on with. -/
def Ends (rest : List Char) : Prop :=
  ∀ c ∈ rest.head?, endsWord c

theorem readWord_bare_of_ends {rest : List Char} (ends : Ends rest) :
    readWord .bare rest = some ([], rest) := by
  cases rest with
  | nil => rfl
  | cons c rest => simp [readWord, ends c rfl]

/-! ## Parts of words -/

/-- Reading a text adds pieces to the word that is read, whatever comes behind the text. -/
def Adds (before : Quoting) (text : List Char) (word : Word) (after : Quoting) : Prop :=
  ∀ rest, readWord before (text ++ rest) =
    (readWord after rest).map fun (more, left) => (word ++ more, left)

theorem Adds.nil (quoting : Quoting) : Adds quoting [] [] quoting := by
  intro rest
  simp

theorem Adds.append {before middle after : Quoting} {first second : List Char}
    {word more : Word} (adds : Adds before first word middle)
    (others : Adds middle second more after) :
    Adds before (first ++ second) (word ++ more) after := by
  intro rest
  rw [List.append_assoc, adds, others, Option.map_map]
  simp [Function.comp_def]

theorem adds_char {quoting : Quoting} {c : Char}
    (inside : (quoting = .bare && endsWord c) = false) :
    Adds quoting [c] (pieces quoting c) (quoting.next c) := by
  intro rest
  rw [List.singleton_append, readWord, inside]
  rfl

/-- Characters that are written so that each adds itself. -/
theorem adds_flatMap {quoting : Quoting} {write : Char → List Char}
    (each : ∀ c, Adds quoting (write c) [.char c] quoting) (text : List Char) :
    Adds quoting (text.flatMap write) (literal text) quoting := by
  induction text with
  | nil => exact .nil quoting
  | cons c text ih => exact (each c).append ih

theorem adds_quoteChar (c : Char) : Adds .single (quoteChar c) [.char c] .single := by
  unfold quoteChar
  split
  case isTrue isQuote =>
    subst isQuote
    have leave : Adds .single ['\''] [] .bare := adds_char rfl
    have escape : Adds .bare ['\\'] [] .escaped := adds_char rfl
    have own : Adds .escaped ['\''] [.char '\''] .bare := adds_char rfl
    have back : Adds .bare ['\''] [] .single := adds_char rfl
    exact ((leave.append escape).append own).append back
  case isFalse other =>
    have own : Adds .single [c] (pieces .single c) (Quoting.single.next c) := adds_char rfl
    simpa [pieces, Quoting.next, other] using own

theorem isSpecial_iff (c : Char) :
    isSpecial c = (c == '\\' || c == '"' || isExpansion c) := by
  simp [isSpecial, isExpansion, Bool.or_assoc]

private theorem adds_escapeChar (c : Char) : Adds .double (escapeChar c) [.char c] .double := by
  unfold escapeChar
  split
  case isTrue special =>
    have escape : Adds .double ['\\'] [] .doubleEscaped := adds_char rfl
    have own : Adds .doubleEscaped [c] (pieces .doubleEscaped c) .double := adds_char rfl
    rw [isSpecial_iff] at special
    have noLineEnd : c ≠ '\n' := by
      rintro rfl
      cases special
    rw [pieces, if_neg noLineEnd, if_pos special] at own
    exact escape.append own
  case isFalse plain =>
    have own : Adds .double [c] (pieces .double c) (Quoting.double.next c) := adds_char rfl
    rw [isSpecial_iff, Bool.or_eq_true, not_or, Bool.not_eq_true, Bool.not_eq_true] at plain
    obtain ⟨ordinary, alone⟩ := plain
    have stays : Quoting.double.next c = .double := by
      simp only [Bool.or_eq_false_iff, beq_eq_false_iff_ne] at ordinary
      simp [Quoting.next, ordinary]
    rw [stays, pieces, ordinary, alone] at own
    exact own

theorem adds_quote (text : List Char) : Adds .bare (quote text) (literal text) .bare := by
  have enter : Adds .bare ['\''] [] .single := adds_char rfl
  have leave : Adds .single ['\''] [] .bare := adds_char rfl
  have whole := (enter.append (adds_flatMap adds_quoteChar text)).append leave
  simpa [quote] using whole

/-- A text between double quotes, with what is special there escaped. -/
theorem adds_escape (text : List Char) :
    Adds .bare ('"' :: escape text ++ ['"']) (literal text) .bare := by
  have enter : Adds .bare ['"'] [] .double := adds_char rfl
  have leave : Adds .double ['"'] [] .bare := adds_char rfl
  have whole := (enter.append (adds_flatMap adds_escapeChar text)).append leave
  simpa [escape] using whole

/-- A character that stands for itself outside quotes. -/
def isPlain (c : Char) : Bool :=
  !endsWord c && !(c == '\\' || c == '\'' || c == '"') && !isExpansion c && !isPattern c

theorem adds_plain {text : List Char} (plain : text.all isPlain) :
    Adds .bare text (literal text) .bare := by
  induction text with
  | nil => exact .nil .bare
  | cons c text ih =>
      obtain ⟨first, others⟩ := Bool.and_eq_true_iff.mp (List.all_cons.symm.trans plain)
      simp only [isPlain, Bool.and_eq_true, Bool.not_eq_true'] at first
      obtain ⟨⟨⟨inside, ordinary⟩, alone⟩, noPattern⟩ := first
      have own : Adds .bare [c] (pieces .bare c) (Quoting.bare.next c) :=
        adds_char (by simp [inside])
      have stays : Quoting.bare.next c = .bare := by
        simp only [Bool.or_eq_false_iff, beq_eq_false_iff_ne] at ordinary
        simp [Quoting.next, ordinary]
      rw [stays, pieces, ordinary, alone, noPattern] at own
      exact own.append (ih others)

/-- A text that adds a word is read as that word where one starts. -/
theorem Adds.word? {text rest : List Char} {word : Word} (adds : Adds .bare text word .bare)
    (starts : startsWord (text ++ rest)) (ends : Ends rest) :
    word? (text ++ rest) = some (word, rest) := by
  rw [Posix.word?, if_pos starts, adds, readWord_bare_of_ends ends]
  simp

-- A dollar sign between double quotes stands for itself only behind a backslash.
example : word? "\"\\$HOME $HOME\" rest".toList =
    some (literal "$HOME ".toList ++ .mark '$' :: literal "HOME".toList, " rest".toList) := by
  decide +kernel

/-! ## Commands -/

/-- Where a command writes to: a file, or a stream that is open already. -/
inductive Output where
  | file (name : Word)
  | stream (number : Word)
deriving DecidableEq

/-- A simple command: its words, its outputs and the text of its here-document. What the first word
stands for is not looked at. -/
structure Command where
  words : List Word := []
  outputs : List Output := []
  document : Option (List Char) := none
deriving DecidableEq

/-- What was read of a command, and the delimiter of a here-document that starts on the next
line. -/
structure Draft where
  command : Command := {}
  awaited : Option (List Char) := none
deriving DecidableEq

namespace Draft

/-- The command of a draft, if there is anything in it. -/
def commands (draft : Draft) : List Command :=
  if draft.command = {} then [] else [draft.command]

def addWord (draft : Draft) (word : Word) : Draft :=
  { draft with command.words := draft.command.words ++ [word] }

def addOutput (draft : Draft) (output : Output) : Draft :=
  { draft with command.outputs := draft.command.outputs ++ [output] }

end Draft

/-- The lines of a here-document up to the first one that is the delimiter, and the lines behind. -/
def takeDocument (delimiter : List Char) :
    List (List Char) → Option (List Char × List (List Char))
  | [] => none
  | line :: rest =>
    if line = delimiter then some ([], rest)
    else (takeDocument delimiter rest).map fun (body, left) => (line ++ '\n' :: body, left)

/-- What reading the next part of a script gives: the commands that it completes, what is read of
the next one, and the text behind. -/
abbrev Progress := List Command × Draft × List Char

namespace Draft

/-- The end of a line ends a command. The here-document of the command follows. -/
def endLine (draft : Draft) (rest : List Char) : Option Progress :=
  match draft.awaited with
  | none => some (draft.commands, {}, rest)
  | some delimiter =>
    (takeDocument delimiter (Text.splitBy (· == '\n') rest)).map fun (body, lines) =>
      ([{ draft.command with document := some body }], {}, ['\n'].intercalate lines)

/-- An output to the word that comes next. -/
def readTarget (draft : Draft) (output : Word → Output) (rest : List Char) : Option Progress :=
  (word? (rest.dropWhile isGap)).map fun (word, left) => ([], draft.addOutput (output word), left)

/-- The target behind `>`, or behind `>&`. -/
def readOutput (draft : Draft) : List Char → Option Progress
  | '&' :: rest => draft.readTarget .stream rest
  | rest => draft.readTarget .file rest

/-- The delimiter of a here-document behind `<`. It has to be quoted. -/
def readDelimiter (draft : Draft) (rest : List Char) : Option Progress :=
  if draft.awaited = none && rest.take 2 = ['<', '\''] then
    (readWord .single (rest.drop 2)).map fun (word, left) =>
      ([], { draft with awaited := some (word.map Piece.shown) }, left)
  else none

/-- A word of a command. Digits right in front of a redirection would belong to that. -/
def readArgument (draft : Draft) (text : List Char) : Option Progress :=
  match word? text with
  | some (word, left) =>
    if left.head? = some '<' || left.head? = some '>' then none
    else some ([], draft.addWord word, left)
  | none => none

end Draft

/-- Reads the next part of a script. Commands that are joined or grouped by operators are not
read. -/
def readPart (draft : Draft) : List Char → Option Progress
  | [] => none
  | c :: rest =>
    if isGap c then some ([], draft, rest)
    else if c = '#' then some ([], draft, rest.dropWhile (· != '\n'))
    else if c = '\n' then draft.endLine rest
    else if c = '>' then draft.readOutput rest
    else if c = '<' then draft.readDelimiter rest
    else if c = '\\' && rest.head? = some '\n' then some ([], draft, rest.tail)
    else draft.readArgument (c :: rest)

theorem length_readWord {quoting : Quoting} {text left : List Char} {word : Word}
    (read : readWord quoting text = some (word, left)) : left.length ≤ text.length := by
  induction text generalizing quoting word with
  | nil =>
      rw [readWord] at read
      split at read <;> cases read
      exact Nat.le_refl _
  | cons c rest ih =>
      rw [readWord] at read
      split at read
      · cases read
        exact Nat.le_refl _
      · obtain ⟨⟨more, behind⟩, onward, ⟨⟩⟩ := Option.map_eq_some_iff.mp read
        exact Nat.le_succ_of_le (ih onward)

theorem length_word? {c : Char} {rest left : List Char} {word : Word}
    (read : word? (c :: rest) = some (word, left)) : left.length ≤ rest.length := by
  unfold word? at read
  split at read
  case isFalse => cases read
  case isTrue starts =>
    simp only [startsWord, Bool.and_eq_true, Bool.not_eq_true'] at starts
    rw [readWord, starts.1, Bool.and_false] at read
    obtain ⟨⟨more, behind⟩, onward, ⟨⟩⟩ := Option.map_eq_some_iff.mp read
    exact length_readWord onward

private theorem length_word?_le {text left : List Char} {word : Word}
    (read : word? text = some (word, left)) : left.length ≤ text.length := by
  cases text with
  | nil => cases read
  | cons c rest => exact Nat.le_succ_of_le (length_word? read)

private theorem length_intercalate_takeDocument {delimiter body : List Char}
    {lines left : List (List Char)} (taken : takeDocument delimiter lines = some (body, left)) :
    (['\n'].intercalate left).length ≤ (['\n'].intercalate lines).length := by
  have shorter (line : List Char) (rest : List (List Char)) :
      (['\n'].intercalate rest).length ≤ (['\n'].intercalate (line :: rest)).length := by
    cases rest with
    | nil => simp
    | cons next rest =>
        rw [List.intercalate_cons_cons, List.length_append, List.length_append]
        omega
  induction lines generalizing body with
  | nil => cases taken
  | cons line rest ih =>
      rw [takeDocument] at taken
      split at taken
      · cases taken
        exact shorter line _
      · obtain ⟨⟨more, behind⟩, onward, ⟨⟩⟩ := Option.map_eq_some_iff.mp taken
        exact Nat.le_trans (ih onward) (shorter line rest)

private theorem length_endLine {draft next : Draft} {rest left : List Char} {done : List Command}
    (read : draft.endLine rest = some (done, next, left)) : left.length ≤ rest.length := by
  unfold Draft.endLine at read
  split at read
  · cases read
    exact Nat.le_refl _
  · obtain ⟨⟨body, lines⟩, taken, ⟨⟩⟩ := Option.map_eq_some_iff.mp read
    have shorter := length_intercalate_takeDocument taken
    rwa [Text.intercalate_splitBy] at shorter

private theorem length_readTarget {draft next : Draft} {output : Word → Output}
    {rest left : List Char}
    {done : List Command} (read : draft.readTarget output rest = some (done, next, left)) :
    left.length ≤ rest.length := by
  obtain ⟨⟨word, behind⟩, target, ⟨⟩⟩ := Option.map_eq_some_iff.mp read
  exact Nat.le_trans (length_word?_le target) (List.length_dropWhile_le _ _)

private theorem length_readOutput {draft next : Draft} {rest left : List Char} {done : List Command}
    (read : draft.readOutput rest = some (done, next, left)) : left.length ≤ rest.length := by
  unfold Draft.readOutput at read
  split at read
  · exact Nat.le_succ_of_le (length_readTarget read)
  · exact length_readTarget read

private theorem length_readDelimiter {draft next : Draft} {rest left : List Char}
    {done : List Command}
    (read : draft.readDelimiter rest = some (done, next, left)) : left.length ≤ rest.length := by
  unfold Draft.readDelimiter at read
  split at read
  · obtain ⟨⟨word, behind⟩, delimiter, ⟨⟩⟩ := Option.map_eq_some_iff.mp read
    exact Nat.le_trans (length_readWord delimiter) (by simp)
  · cases read

private theorem length_readArgument {draft next : Draft} {c : Char} {rest left : List Char}
    {done : List Command} (read : draft.readArgument (c :: rest) = some (done, next, left)) :
    left.length ≤ rest.length := by
  unfold Draft.readArgument at read
  split at read
  case h_1 argument =>
    split at read
    · cases read
    · cases read
      exact length_word? argument
  case h_2 => cases read

/-- Every part takes something of the text. -/
theorem length_readPart {draft next : Draft} {text left : List Char} {done : List Command}
    (read : readPart draft text = some (done, next, left)) : left.length < text.length := by
  cases text with
  | nil => cases read
  | cons c rest =>
      rw [List.length_cons, Nat.lt_succ_iff]
      simp only [readPart] at read
      split at read
      · cases read
        exact Nat.le_refl _
      split at read
      · cases read
        exact List.length_dropWhile_le _ _
      split at read
      · exact length_endLine read
      split at read
      · exact length_readOutput read
      split at read
      · exact length_readDelimiter read
      split at read
      · cases read
        simp
      · exact length_readArgument read

/-- The commands of a script in their order, where all of it can be read. -/
def readFrom (draft : Draft) (text : List Char) : Option (List Command) :=
  if text = [] then
    if draft.awaited = none then some draft.commands else none
  else
    match _ : readPart draft text with
    | some (done, next, left) => (readFrom next left).map fun others => done ++ others
    | none => none
termination_by text.length
decreasing_by exact length_readPart (by assumption)

def commands (script : List Char) : Option (List Command) :=
  readFrom {} script

theorem readFrom_of_part {draft next : Draft} {text left : List Char} {done : List Command}
    (read : readPart draft text = some (done, next, left)) :
    readFrom draft text = (readFrom next left).map fun others => done ++ others := by
  have some : text ≠ [] := by
    rintro rfl
    cases read
  rw [readFrom, if_neg some]
  split
  case h_1 found =>
    rw [read] at found
    cases found
    rfl
  case h_2 found =>
    rw [read] at found
    cases found

/-- A part that completes no command. -/
theorem readFrom_within {draft next : Draft} {text left : List Char}
    (read : readPart draft text = some ([], next, left)) :
    readFrom draft text = readFrom next left := by
  rw [readFrom_of_part read]
  simp

theorem readFrom_nil (command : Command) :
    readFrom ⟨command, none⟩ [] = some (Draft.commands ⟨command, none⟩) := by
  rw [readFrom, if_pos rfl, if_pos rfl]

/-! ## Reading the parts of a script -/

section Parts

variable {draft : Draft} {text rest : List Char} {word : Word}

theorem readFrom_gap (draft : Draft) (rest : List Char) :
    readFrom draft (' ' :: rest) = readFrom draft rest :=
  readFrom_within (by rfl)

/-- A line that starts with `#` does nothing. -/
theorem readFrom_comment {line : List Char} (within : '\n' ∉ line) (rest : List Char) :
    readFrom {} ('#' :: line ++ '\n' :: rest) = readFrom {} rest := by
  have passed : (line ++ '\n' :: rest).dropWhile (· != '\n') = '\n' :: rest := by
    rw [List.dropWhile_append_of_pos]
    · rfl
    · intro c member
      rw [bne_iff_ne]
      rintro rfl
      exact within member
  have comment : readPart {} ('#' :: line ++ '\n' :: rest) =
      some ([], {}, (line ++ '\n' :: rest).dropWhile (· != '\n')) := rfl
  rw [readFrom_within comment, passed]
  exact readFrom_within (by rfl)

/-- The end of a line ends a command that waits for no here-document. -/
theorem readFrom_lineEnd (command : Command) (rest : List Char) :
    readFrom ⟨command, none⟩ ('\n' :: rest) =
      (readFrom {} rest).map fun others => Draft.commands ⟨command, none⟩ ++ others :=
  readFrom_of_part (by rfl)

/-- The end of a line is followed by the here-document of its command. -/
theorem readFrom_document {command : Command} {delimiter body : List Char}
    {lines : List (List Char)}
    (taken : takeDocument delimiter (Text.splitBy (· == '\n') rest) = some (body, lines)) :
    readFrom ⟨command, some delimiter⟩ ('\n' :: rest) =
      (readFrom {} (['\n'].intercalate lines)).map fun others =>
        { command with document := some body } :: others := by
  have part : readPart ⟨command, some delimiter⟩ ('\n' :: rest) =
      (takeDocument delimiter (Text.splitBy (· == '\n') rest)).map fun (body, lines) =>
        ([{ command with document := some body }], {}, ['\n'].intercalate lines) := rfl
  rw [taken] at part
  exact readFrom_of_part part

/-- Blanks, line feeds or nothing: what comes behind a word that is no part of a redirection. -/
def Parted (rest : List Char) : Prop :=
  ∀ c ∈ rest.head?, isGap c || c == '\n'

theorem Parted.ends (parted : Parted rest) : Ends rest := by
  intro c member
  rcases Bool.or_eq_true_iff.mp (parted c member) with gap | feed
  · simp [endsWord, gap]
  · simp [endsWord, eq_of_beq feed]

theorem startsWord_append (starts : startsWord text) (rest : List Char) :
    startsWord (text ++ rest) := by
  cases text with
  | nil => cases starts
  | cons c text => exact starts

/-- A word becomes the next argument of its command. -/
theorem readFrom_word (adds : Adds .bare text word .bare) (starts : startsWord text)
    (direct : text.head? ≠ some '\\') (parted : Parted rest) :
    readFrom draft (text ++ rest) = readFrom (draft.addWord word) rest := by
  apply readFrom_within
  have read := adds.word? (startsWord_append starts rest) parted.ends
  have argument : draft.readArgument (text ++ rest) = some ([], draft.addWord word, rest) := by
    have plain : ¬(rest.head? = some '<' || rest.head? = some '>') := by
      simp only [Bool.or_eq_true, decide_eq_true_eq]
      rintro (less | greater)
      · cases parted _ less
      · cases parted _ greater
    rw [Draft.readArgument, read]
    exact if_neg plain
  cases text with
  | nil => cases starts
  | cons c text =>
      simp only [startsWord, endsWord, List.contains_cons, Bool.and_eq_true, Bool.not_eq_true',
        Bool.or_eq_false_iff, beq_eq_false_iff_ne, bne_iff_ne] at starts
      obtain ⟨⟨noGap, noFeed, -, -, -, noLess, noGreater, -⟩, noComment⟩ := starts
      have noSlash : c ≠ '\\' := fun same => direct (congrArg some same)
      rw [List.cons_append] at argument ⊢
      simp [readPart, noGap, noFeed, noLess, noGreater, noComment, noSlash, argument]

end Parts

end Posix

end TracePipeline
