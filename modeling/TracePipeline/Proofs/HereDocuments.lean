import TracePipeline.Proofs.ReadingOrder
import TracePipeline.Proofs.ShellArguments

/-! Files written through here-documents. A shell takes the lines of a here-document as they are, up
to the first one that is the delimiter: a text without such a line is written as it was given, and
of any other text the lines behind that one are read as commands. -/

set_option autoImplicit false

namespace TracePipeline

namespace Text

/-- Lines that are ended by a line feed each. -/
def endedLines (lines : List (List Char)) : List Char :=
  lines.flatMap (· ++ ['\n'])

@[simp] theorem endedLines_cons (line : List Char) (lines : List (List Char)) :
    endedLines (line :: lines) = line ++ '\n' :: endedLines lines := by
  simp [endedLines]

@[simp] theorem endedLines_append (first second : List (List Char)) :
    endedLines (first ++ second) = endedLines first ++ endedLines second :=
  List.flatMap_append

private theorem endedLines_eq_intercalate {lines : List (List Char)} (some : lines ≠ []) :
    endedLines lines = ['\n'].intercalate lines ++ ['\n'] := by
  induction lines with
  | nil => exact absurd rfl some
  | cons line rest ih =>
      cases rest with
      | nil => simp [endedLines]
      | cons next rest =>
          rw [endedLines_cons, ih (List.cons_ne_nil _ _), List.intercalate_cons_cons]
          simp

/-- The lines of a text, ended by a line feed each, are the text with a line feed behind it. -/
theorem endedLines_splitBy (text : List Char) :
    endedLines (splitBy (· == '\n') text) = text ++ ['\n'] := by
  rw [endedLines_eq_intercalate (splitBy_ne_nil _ text), intercalate_splitBy]

/-- Line feeds at the end of a text are no part of any line but empty ones. -/
theorem mem_splitBy_trimEndBy {line : List Char} (some : line ≠ []) (text : List Char) :
    line ∈ splitBy (· == '\n') (trimEndBy (· == '\n') text) ↔ line ∈ splitBy (· == '\n') text := by
  obtain ⟨count, pieces⟩ := splitBy_trimEndBy (· == '\n') text
  rw [pieces, List.mem_append, or_iff_left]
  intro member
  exact some (List.eq_of_mem_replicate member)

end Text

/-- The text of a `writeFile` step, which is empty when none is given. -/
def Span.fileText (span : Span) : String :=
  (span.param "text").scalarText?.getD ""

namespace Posix

open ShellWord (quote quoteChar)
open Text (endedLines splitBy trimEndBy)

/-! ## Redirections and here-documents -/

section Parts

variable {draft : Draft} {text rest : List Char} {word : Word}

/-- A word behind `>` is the file that the command writes to. -/
theorem readFrom_target (adds : Adds .bare text word .bare) (starts : startsWord text)
    (ends : Ends rest) :
    readFrom draft ('>' :: ' ' :: (text ++ rest)) =
      readFrom (draft.addOutput (.file word)) rest := by
  apply readFrom_within
  have direct : (' ' :: (text ++ rest)).dropWhile isGap = text ++ rest := by
    cases text with
    | nil => cases starts
    | cons c text =>
        simp only [startsWord, endsWord, Bool.and_eq_true, Bool.not_eq_true',
          Bool.or_eq_false_iff] at starts
        rw [List.dropWhile_cons_of_pos rfl, List.cons_append,
          List.dropWhile_cons_of_neg (by simp [starts.1.1])]
  have read : readPart draft ('>' :: ' ' :: (text ++ rest)) =
      draft.readTarget .file (' ' :: (text ++ rest)) := rfl
  rw [read, Draft.readTarget, direct, adds.word? (startsWord_append starts rest) ends]
  rfl

/-- A quoted word behind `<<` is the delimiter of a here-document. -/
theorem readFrom_delimiter (command : Command) (delimiter : List Char) (ends : Ends rest) :
    readFrom ⟨command, none⟩ ('<' :: '<' :: (quote delimiter ++ rest)) =
      readFrom ⟨command, some delimiter⟩ rest := by
  apply readFrom_within
  have leave : Adds .single ['\''] [] .bare := adds_char rfl
  have quoted := (adds_flatMap adds_quoteChar delimiter).append leave
  have read : readPart ⟨command, none⟩ ('<' :: '<' :: (quote delimiter ++ rest)) =
      Draft.readDelimiter ⟨command, none⟩ ('<' :: (quote delimiter ++ rest)) := rfl
  have behind : ('<' :: (quote delimiter ++ rest)).drop 2 =
      delimiter.flatMap quoteChar ++ ['\''] ++ rest := rfl
  rw [read, Draft.readDelimiter]
  split
  case isTrue =>
    rw [behind, quoted, readWord_bare_of_ends ends]
    simp [literal, Piece.shown, Function.comp_def]
  case isFalse other => exact absurd rfl other

/-- A here-document ends at the first line that is its delimiter. -/
theorem takeDocument_append {delimiter : List Char} {lines : List (List Char)}
    (absent : delimiter ∉ lines) (rest : List (List Char)) :
    takeDocument delimiter (lines ++ delimiter :: rest) = some (endedLines lines, rest) := by
  induction lines with
  | nil => exact if_pos rfl
  | cons line lines ih =>
      obtain ⟨other, others⟩ := List.ne_and_not_mem_of_not_mem_cons absent
      rw [List.cons_append, takeDocument, if_neg other.symm, ih others]
      simp

end Parts

/-! ## Scripts that write files -/

/-- `cat` writes its here-document to a file. -/
def writing (file : String) (document : List Char) : Command where
  words := [literal "cat".toList]
  outputs := [.file (literal file.toList)]
  document := some document

/-- What a shell does with the script for a file and the lines that are to be written. -/
theorem commands_hereDocument {file : String} {delimiter : List Char}
    {lines behind : List (List Char)} {rest : List Char} (absent : delimiter ∉ lines)
    (cut : splitBy (· == '\n') rest = lines ++ delimiter :: behind) :
    commands ("cat > ".toList ++ (ShellWord.quoteText file).toList ++ " <<".toList ++
        quote delimiter ++ '\n' :: rest) =
      (commands (['\n'].intercalate behind)).map fun others =>
        writing file (endedLines lines) :: others := by
  have parts : "cat > ".toList ++ (ShellWord.quoteText file).toList ++ " <<".toList ++
      quote delimiter ++ '\n' :: rest = "cat".toList ++ ' ' :: '>' :: ' ' ::
        (quote file.toList ++ ' ' :: '<' :: '<' :: (quote delimiter ++ '\n' :: rest)) := by
    simp [ShellWord.quoteText]
  have gap : Ends (' ' :: '<' :: '<' :: (quote delimiter ++ '\n' :: rest)) :=
    (parted_cons rfl _).ends
  have feed : Ends ('\n' :: rest) := (parted_cons rfl _).ends
  rw [commands, parts, readFrom_name (by decide) (by decide),
    readFrom_target (adds_quote file.toList) rfl gap, readFrom_gap]
  refine (readFrom_delimiter _ delimiter feed).trans ?_
  refine readFrom_document ?_
  rw [cut, takeDocument_append absent]

/-! ## Written texts -/

section Written

variable {span : Span} {context : Context} {file text : String}

/-- The script that writes a text to a file. -/
def writeScript (file text : String) : String :=
  "cat > " ++ ShellWord.quoteText file ++ " <<'" ++ Converter.hereDelimiter ++ "'\n" ++
    String.ofList (trimEndBy (· == '\n') text.toList) ++ "\n" ++ Converter.hereDelimiter

theorem writeFile_eq (given : (span.param "file").text? = some file) (context : Context) :
    Converter.writeFile span context =
      .ok [Converter.scriptStep span context .sh (writeScript file span.fileText)] := by
  rw [Converter.writeFile, given]
  rfl

theorem toList_writeScript (file text : String) :
    (writeScript file text).toList =
      "cat > ".toList ++ (ShellWord.quoteText file).toList ++ " <<".toList ++
        quote Converter.hereDelimiter.toList ++
        '\n' :: (trimEndBy (· == '\n') text.toList ++ '\n' :: Converter.hereDelimiter.toList) := by
  have quoted : quote Converter.hereDelimiter.toList =
      '\'' :: Converter.hereDelimiter.toList ++ ['\''] := by decide
  rw [quoted]
  simp [writeScript]

theorem splitBy_hereDelimiter (body : List Char) :
    splitBy (· == '\n') (body ++ '\n' :: Converter.hereDelimiter.toList) =
      splitBy (· == '\n') body ++ [Converter.hereDelimiter.toList] := by
  have last : splitBy (· == '\n') Converter.hereDelimiter.toList =
      [Converter.hereDelimiter.toList] := by decide
  rw [Text.splitBy_append_cut (by rfl), last]

/-- The lines of a text behind the first one that is the delimiter are commands, and so is the
delimiter that was to end the text. -/
theorem commands_writeScript_of_cut (file : String) {lines behind : List (List Char)}
    (cut : splitBy (· == '\n') (trimEndBy (· == '\n') text.toList) =
      lines ++ Converter.hereDelimiter.toList :: behind)
    (absent : Converter.hereDelimiter.toList ∉ lines) :
    commands (writeScript file text).toList =
      (commands (['\n'].intercalate (behind ++ [Converter.hereDelimiter.toList]))).map
        fun others => writing file (endedLines lines) :: others := by
  rw [toList_writeScript]
  refine commands_hereDocument absent ?_
  rw [splitBy_hereDelimiter, cut, List.append_assoc, List.cons_append]

theorem commands_writeScript_of_notMem (file : String)
    (absent : Converter.hereDelimiter.toList ∉ splitBy (· == '\n') text.toList) :
    commands (writeScript file text).toList =
      some [writing file (trimEndBy (· == '\n') text.toList ++ ['\n'])] := by
  have others : Converter.hereDelimiter.toList ∉
      splitBy (· == '\n') (trimEndBy (· == '\n') text.toList) := by
    rwa [Text.mem_splitBy_trimEndBy (by decide)]
  have nothing : commands (['\n'].intercalate []) = some [] := readFrom_nil {}
  rw [toList_writeScript, commands_hereDocument others (splitBy_hereDelimiter _), nothing,
    Text.endedLines_splitBy]
  rfl

/-- A text is written as it was given if none of its lines is the delimiter, and only then. -/
theorem commands_writeScript_iff (file text : String) :
    commands (writeScript file text).toList =
        some [writing file (trimEndBy (· == '\n') text.toList ++ ['\n'])] ↔
      Converter.hereDelimiter.toList ∉ splitBy (· == '\n') text.toList := by
  refine ⟨fun read member => ?_, commands_writeScript_of_notMem file⟩
  rw [← Text.mem_splitBy_trimEndBy (by decide)] at member
  obtain ⟨lines, behind, cut, absent⟩ := List.eq_append_cons_of_mem member
  rw [commands_writeScript_of_cut file cut absent, ← Text.endedLines_splitBy, cut] at read
  obtain ⟨others, -, same⟩ := Option.map_eq_some_iff.mp read
  -- The document that was read is shorter than the text.
  have document := congrArg Command.document (List.cons.inj same).1
  simp [writing] at document

/-- What the script of a `writeFile` step does: with no line that is the delimiter it writes exactly
the text to exactly the file. Otherwise it writes the lines in front of the first such line, and
what comes behind that line is run. -/
theorem writeFile_writes_iff (given : (span.param "file").text? = some file) (context : Context) :
    ∃ script, Converter.writeFile span context =
        .ok [Converter.scriptStep span context .sh script] ∧
      (commands script.toList =
          some [writing file (trimEndBy (· == '\n') span.fileText.toList ++ ['\n'])] ↔
        Converter.hereDelimiter.toList ∉ splitBy (· == '\n') span.fileText.toList) ∧
      ∀ lines behind,
        splitBy (· == '\n') (trimEndBy (· == '\n') span.fileText.toList) =
            lines ++ Converter.hereDelimiter.toList :: behind →
          Converter.hereDelimiter.toList ∉ lines →
            commands script.toList =
              (commands (['\n'].intercalate (behind ++ [Converter.hereDelimiter.toList]))).map
                fun others => writing file (endedLines lines) :: others := by
  refine ⟨writeScript file span.fileText, writeFile_eq given context,
    commands_writeScript_iff file span.fileText, ?_⟩
  intro lines behind cut absent
  exact commands_writeScript_of_cut file cut absent

/-- A step that writes a text with shell syntax in it. -/
def writesShellText : Span :=
  { (default : Span) with
    parameters := [("file", .string "it's here"), ("text", .string "echo $HOME\n'EOF'\n\n")] }

theorem writes_shellText :
    (writesShellText.param "file").text? = some "it's here" ∧
      Runs Converter.writeFile writesShellText {}
        [writing "it's here" "echo $HOME\n'EOF'\n".toList] := by
  have given : (writesShellText.param "file").text? = some "it's here" := by decide +kernel
  obtain ⟨script, made, exact, -⟩ := writeFile_writes_iff given {}
  have text : trimEndBy (· == '\n') writesShellText.fileText.toList ++ ['\n'] =
      "echo $HOME\n'EOF'\n".toList := by decide +kernel
  rw [text] at exact
  exact ⟨given, script, made, exact.mpr (by decide +kernel)⟩

/-- A step whose text has the delimiter on a line of its own. -/
def writesDelimiter : Span :=
  { (default : Span) with
    parameters := [("file", .string "notes.txt"),
      ("text", .string "a\nJENKINS_EOF\nrm -rf build")] }

theorem file_writesDelimiter : (writesDelimiter.param "file").text? = some "notes.txt" := by
  decide +kernel

/-- The rest of such a text is run. -/
theorem runs_writesDelimiter :
    Runs Converter.writeFile writesDelimiter {}
      [writing "notes.txt" "a\n".toList, plainCommand ["rm", "-rf", "build"],
        plainCommand ["JENKINS_EOF"]] := by
  refine ⟨_, writeFile_eq file_writesDelimiter {}, ?_⟩
  decide +kernel

theorem not_writes_delimiter :
    ¬∀ (span : Span) (context : Context) (file : String),
      (span.param "file").text? = some file →
        Runs Converter.writeFile span context
          [writing file (trimEndBy (· == '\n') span.fileText.toList ++ ['\n'])] := by
  intro always
  have same := (always writesDelimiter {} "notes.txt" file_writesDelimiter).unique
    runs_writesDelimiter
  cases congrArg List.length same

end Written

end Posix

end TracePipeline
