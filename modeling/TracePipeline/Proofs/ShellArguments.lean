import TracePipeline.Proofs.ShellReading
import TracePipeline.Registry

/-! Texts as arguments of shell commands. Messages and names of files go into scripts in quotes, and
a shell that runs the script passes each of them on as it was, as one argument. -/

set_option autoImplicit false

namespace TracePipeline

/-- The message of an `echo` step, which is empty when none is given. -/
def Span.message (span : Span) : String :=
  ((span.param "message").scalarText?.or (span.sidecar.get "message").scalarText?).getD ""

/-- The message of an `error` step. Only the parameters of the step are asked for it. -/
def Span.errorMessage (span : Span) : String :=
  (span.param "message").scalarText?.getD ""

namespace Posix

/-- A command of words without anything to expand. -/
def plainCommand (words : List String) : Command :=
  { words := words.map fun word => literal word.toList }

/-- A converter makes one script step of a span, and a shell reads the script as these commands. -/
def Runs (convert : Convert) (span : Span) (context : Context) (expected : List Command) : Prop :=
  ∃ script, convert span context = .ok [Converter.scriptStep span context .sh script] ∧
    commands script.toList = some expected

theorem Runs.unique {convert : Convert} {span : Span} {context : Context}
    {first second : List Command} (runs : Runs convert span context first)
    (others : Runs convert span context second) : first = second := by
  obtain ⟨script, made, read⟩ := runs
  obtain ⟨script', made', read'⟩ := others
  have same : script = script' := by
    have steps := Except.ok.inj (made.symm.trans made')
    simpa [Converter.scriptStep, Context.script] using steps
  subst same
  exact Option.some.inj (read.symm.trans read')

theorem word?_quoteText (text : String) :
    word? (ShellWord.quoteText text).toList = some (literal text.toList, []) := by
  have read : word? (ShellWord.quote text.toList ++ []) = some (literal text.toList, []) :=
    (adds_quote text.toList).word? rfl (by simp [Ends])
  rw [List.append_nil] at read
  rwa [ShellWord.quoteText, String.toList_ofList]

theorem toList_escapeText (text : String) :
    ("\"" ++ ShellWord.escapeText text ++ "\"").toList =
      '"' :: ShellWord.escape text.toList ++ ['"'] := by
  simp [ShellWord.escapeText]

theorem word?_escapeText (text : String) :
    word? ("\"" ++ ShellWord.escapeText text ++ "\"").toList =
      some (literal text.toList, []) := by
  have read : word? ('"' :: ShellWord.escape text.toList ++ ['"'] ++ []) =
      some (literal text.toList, []) :=
    (adds_escape text.toList).word? rfl (by simp [Ends])
  rwa [List.append_nil, ← toList_escapeText] at read

/-! ## Scripts -/

section Scripts

variable {draft : Draft} {rest : List Char}

theorem parted_nil : Parted [] := by
  simp [Parted]

theorem parted_cons {c : Char} (parts : isGap c || c == '\n') (rest : List Char) :
    Parted (c :: rest) := by
  intro first member
  cases member
  exact parts

theorem readFrom_quoteText (text : String) (parted : Parted rest) :
    readFrom draft ((ShellWord.quoteText text).toList ++ rest) =
      readFrom (draft.addWord (literal text.toList)) rest := by
  rw [ShellWord.quoteText, String.toList_ofList]
  exact readFrom_word (adds_quote text.toList) rfl (by simp [ShellWord.quote]) parted

theorem readFrom_escapeText (text : String) (parted : Parted rest) :
    readFrom draft (("\"" ++ ShellWord.escapeText text ++ "\"").toList ++ rest) =
      readFrom (draft.addWord (literal text.toList)) rest := by
  rw [toList_escapeText]
  exact readFrom_word (adds_escape text.toList) rfl (by simp) parted

theorem readFrom_plain {name : List Char} (plain : name.all isPlain) (starts : startsWord name)
    (parted : Parted rest) :
    readFrom draft (name ++ rest) = readFrom (draft.addWord (literal name)) rest := by
  have direct : name.head? ≠ some '\\' := by
    intro slash
    obtain ⟨more, rfl⟩ := List.head?_eq_some_iff.mp slash
    cases plain
  exact readFrom_word (adds_plain plain) starts direct parted

/-- A word of a command that needs no quotes, with a blank behind it. -/
theorem readFrom_name {name : List Char} (plain : name.all isPlain) (starts : startsWord name)
    (rest : List Char) :
    readFrom draft (name ++ ' ' :: rest) = readFrom (draft.addWord (literal name)) rest := by
  rw [readFrom_plain plain starts (parted_cons rfl rest), readFrom_gap]

/-- A message between double quotes is the one argument of `echo`. -/
theorem readFrom_echo (message : String) (parted : Parted rest) :
    readFrom {} (("echo \"" ++ ShellWord.escapeText message ++ "\"").toList ++ rest) =
      readFrom ⟨plainCommand ["echo", message], none⟩ rest := by
  have cut : "echo \"" ++ ShellWord.escapeText message ++ "\"" =
      "echo" ++ " " ++ ("\"" ++ ShellWord.escapeText message ++ "\"") := by
    simp [← String.toList_inj]
  have apart : (" " : String).toList = [' '] := rfl
  rw [cut, String.toList_append, String.toList_append, apart, List.append_assoc,
    List.append_assoc, List.singleton_append, readFrom_name (by decide) (by decide),
    readFrom_escapeText message parted]
  rfl

theorem commands_echo (message : String) :
    commands ("echo \"" ++ ShellWord.escapeText message ++ "\"").toList =
      some [plainCommand ["echo", message]] := by
  have read := readFrom_echo message parted_nil
  rw [List.append_nil] at read
  rw [commands, read, readFrom_nil]
  rfl

/-- The message goes to the error stream, and the script ends with a failure. -/
theorem commands_error (message : String) :
    commands ("echo \"" ++ ShellWord.escapeText message ++ "\" >&2\nexit 1").toList =
      some [{ plainCommand ["echo", message] with outputs := [.stream (literal ['2'])] },
        plainCommand ["exit", "1"]] := by
  have cut : ("echo \"" ++ ShellWord.escapeText message ++ "\" >&2\nexit 1").toList =
      ("echo \"" ++ ShellWord.escapeText message ++ "\"").toList ++
        ' ' :: ">&2".toList ++ '\n' :: ("exit".toList ++ ' ' :: ("1".toList ++ [])) := by
    simp
  have stream : readPart ⟨plainCommand ["echo", message], none⟩
      (">&2".toList ++ '\n' :: ("exit".toList ++ ' ' :: ("1".toList ++ []))) =
      some ([], ⟨{ plainCommand ["echo", message] with outputs := [.stream (literal ['2'])] }, none⟩,
        '\n' :: ("exit".toList ++ ' ' :: ("1".toList ++ []))) := rfl
  have failure : readFrom {} ("exit".toList ++ ' ' :: ("1".toList ++ [])) =
      some [plainCommand ["exit", "1"]] := by
    rw [readFrom_name (by decide) (by decide), readFrom_plain (by decide) (by decide) parted_nil]
    exact readFrom_nil _
  rw [commands, cut, List.append_assoc, List.cons_append, readFrom_echo message (parted_cons rfl _),
    readFrom_gap, readFrom_within stream, readFrom_lineEnd, failure]
  rfl

/-- A command for a file, whose name comes behind the words of the command. -/
theorem runs_fileCommand {span : Span} {context : Context} {file command : String}
    (words : List String) (given : (span.param "file").text? = some file)
    (read : ∀ rest, readFrom {} (command.toList ++ ' ' :: rest) =
      readFrom ⟨plainCommand words, none⟩ rest) :
    Runs (Converter.fileCommand command) span context [plainCommand (words ++ [file])] := by
  refine ⟨command ++ " " ++ ShellWord.quoteText file, ?_, ?_⟩
  · simp [Converter.fileCommand, given, Converter.required]
  · have cut : (command ++ " " ++ ShellWord.quoteText file).toList =
        command.toList ++ ' ' :: ((ShellWord.quoteText file).toList ++ []) := by
      simp
    have added : Draft.addWord ⟨plainCommand words, none⟩ (literal file.toList) =
        ⟨plainCommand (words ++ [file]), none⟩ := by
      simp [Draft.addWord, plainCommand]
    rw [commands, cut, read, readFrom_quoteText file parted_nil, added, readFrom_nil]
    simp [Draft.commands, plainCommand]

end Scripts

/-- Every text in quotes is read as one word with that text as its value and with nothing to
expand. So the scripts of messages and of files pass on the message or the name of the file. -/
theorem quoted_texts_are_arguments :
    (∀ text : String,
      word? (ShellWord.quoteText text).toList = some (literal text.toList, []) ∧
      word? ("\"" ++ ShellWord.escapeText text ++ "\"").toList = some (literal text.toList, [])) ∧
    ∀ span context,
      Runs Converter.echo span context [plainCommand ["echo", span.message]] ∧
      Runs Converter.error span context
        [{ plainCommand ["echo", span.errorMessage] with outputs := [.stream (literal ['2'])] },
          plainCommand ["exit", "1"]] ∧
      ∀ file, (span.param "file").text? = some file →
        Runs (Converter.fileCommand "cat") span context [plainCommand ["cat", file]] ∧
        Runs (Converter.fileCommand "test -e") span context
          [plainCommand ["test", "-e", file]] := by
  refine ⟨fun text => ⟨word?_quoteText text, word?_escapeText text⟩, fun span context => ?_⟩
  refine ⟨⟨_, rfl, commands_echo span.message⟩, ⟨_, rfl, commands_error span.errorMessage⟩, ?_⟩
  intro file given
  constructor
  case left =>
    refine runs_fileCommand ["cat"] given ?_
    intro rest
    exact readFrom_name (by decide) (by decide) rest
  case right =>
    refine runs_fileCommand ["test", "-e"] given ?_
    intro rest
    have cut : "test -e".toList ++ ' ' :: rest =
        "test".toList ++ ' ' :: ("-e".toList ++ ' ' :: rest) := by simp
    rw [cut, readFrom_name (by decide) (by decide), readFrom_name (by decide) (by decide)]
    rfl

/-- A step for a file whose name has a quote and a blank in it. -/
def quotedFile : Span :=
  { (default : Span) with parameters := [("file", .string "it's here")] }

theorem quotedFile_is_argument :
    (quotedFile.param "file").text? = some "it's here" ∧
      Runs (Converter.fileCommand "cat") quotedFile {} [plainCommand ["cat", "it's here"]] ∧
      Runs (Converter.fileCommand "test -e") quotedFile {}
        [plainCommand ["test", "-e", "it's here"]] := by
  have given : (quotedFile.param "file").text? = some "it's here" := by decide +kernel
  exact ⟨given, (quoted_texts_are_arguments.2 quotedFile {}).2.2 _ given⟩

end Posix

end TracePipeline
