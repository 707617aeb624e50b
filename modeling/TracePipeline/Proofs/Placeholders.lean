import TracePipeline.Converter.Placeholder
import TracePipeline.Proofs.HereDocuments
import TracePipeline.Proofs.PrettyLines

/-! What placeholders run. The script of a placeholder shows the parameters of its span as comments,
whatever they hold, and prints a message. The step type is written into one comment whatever line
ends it has: its further lines are comments only if they start like one. -/

set_option autoImplicit false

namespace TracePipeline

namespace Text

theorem notMem_of_mem_splitBy {text line : List Char} (member : line ∈ splitBy (· == '\n') text) :
    '\n' ∉ line := by
  intro inside
  cases (of_mem_splitBy member inside).2

private theorem splitBy_append_of_notCut {cut : Char → Bool} {front text piece : List Char}
    {pieces : List (List Char)} (within : ∀ c ∈ front, cut c = false)
    (cuts : splitBy cut text = piece :: pieces) :
    splitBy cut (front ++ text) = (front ++ piece) :: pieces := by
  induction front with
  | nil => exact cuts
  | cons c front ih =>
      rw [List.cons_append, splitBy, ih fun other member => within other (.tail _ member),
        within c (.head _)]
      rfl

private theorem append_lineFeed_inj {line other rest more : List Char} (within : '\n' ∉ line)
    (inside : '\n' ∉ other) (same : line ++ '\n' :: rest = other ++ '\n' :: more) :
    line = other ∧ rest = more := by
  induction line generalizing other with
  | nil =>
      cases other with
      | nil => exact ⟨rfl, (List.cons.inj same).2⟩
      | cons c other =>
          cases (List.cons.inj same).1
          exact absurd (.head _) inside
  | cons c line ih =>
      cases other with
      | nil =>
          cases (List.cons.inj same).1
          exact absurd (.head _) within
      | cons d other =>
          obtain ⟨rfl, others⟩ := List.cons.inj same
          obtain ⟨rfl, left⟩ := ih (fun member => within (.tail _ member))
            (fun member => inside (.tail _ member)) others
          exact ⟨rfl, left⟩

/-- A text starts with comments in one way only: of two ways to take lines off it, one goes on where
the other one stops. -/
theorem exists_more_lines {lines comments : List (List Char)} {rest other : List Char}
    (within : ∀ line ∈ lines, '\n' ∉ line)
    (commented : ∀ line ∈ comments, line.head? = some '#' ∧ '\n' ∉ line)
    (noComment : rest.head? ≠ some '#')
    (same : endedLines lines ++ rest = endedLines comments ++ other) :
    ∃ more, lines = comments ++ more ∧ endedLines more ++ rest = other := by
  induction comments generalizing lines with
  | nil => exact ⟨lines, rfl, same⟩
  | cons comment comments ih =>
      obtain ⟨starts, whole⟩ := commented comment (.head _)
      cases lines with
      | nil =>
          refine absurd ?_ noComment
          obtain ⟨text, rfl⟩ := List.head?_eq_some_iff.mp starts
          rw [← List.nil_append rest]
          exact congrArg List.head? same
      | cons line lines =>
          rw [endedLines_cons, endedLines_cons, List.append_assoc, List.append_assoc] at same
          obtain ⟨rfl, others⟩ := append_lineFeed_inj (within line (.head _)) whole same
          obtain ⟨more, rfl, left⟩ := ih (fun line member => within line (.tail _ member))
            (fun line member => commented line (.tail _ member)) others
          exact ⟨more, rfl, left⟩

end Text

namespace Posix

open ShellWord (escape escapeChar isSpecial)
open Text (endedLines splitBy)

/-! ## Quoted texts -/

/-- Whether a text between double quotes leaves them open up to its end, behind a backslash or
not. -/
def staysQuoted : Bool → List Char → Bool
  | escaped, [] => !escaped
  | true, _ :: rest => staysQuoted false rest
  | false, c :: rest => c != '"' && staysQuoted (c == '\\') rest

private theorem staysQuoted_escape (text : List Char) : staysQuoted false (escape text) := by
  induction text with
  | nil => rfl
  | cons c text ih =>
      rw [escape, List.flatMap_cons, escapeChar]
      split
      case isTrue => exact ih
      case isFalse plain =>
        simp only [isSpecial, Bool.or_eq_true, not_or, Bool.not_eq_true] at plain
        obtain ⟨⟨⟨noSlash, noQuote⟩, -⟩, -⟩ := plain
        rw [List.singleton_append, staysQuoted, noSlash, bne, noQuote]
        exact ih

/-- A quote behind a blank ends the quotes around it. -/
theorem staysQuoted_blank_quote (escaped : Bool) (first second : List Char) :
    staysQuoted escaped (first ++ ' ' :: '"' :: second) = false := by
  induction first generalizing escaped with
  | nil => cases escaped <;> rfl
  | cons c first ih => cases escaped <;> simp [staysQuoted, ih]

/-! ## Comments -/

/-- Lines that start with `#` do nothing. -/
theorem readFrom_comments {comments : List (List Char)} (rest : List Char)
    (commented : ∀ line ∈ comments, line.head? = some '#' ∧ '\n' ∉ line) :
    readFrom {} (endedLines comments ++ rest) = readFrom {} rest := by
  induction comments with
  | nil => rfl
  | cons comment comments ih =>
      obtain ⟨starts, within⟩ := commented comment (.head _)
      obtain ⟨text, rfl⟩ := List.head?_eq_some_iff.mp starts
      have inside : '\n' ∉ text := fun member => within (.tail _ member)
      rw [Text.endedLines_cons, List.append_assoc, List.cons_append]
      exact (readFrom_comment inside _).trans
        (ih fun line member => commented line (.tail _ member))

/-! ## Announcements -/

def parametersLine : List Char := "# Parameters:".toList

/-- Lines of a script, and what stands between the quotes of the `echo` behind them. -/
structure Announcement where
  lines : List (List Char)
  quoted : List Char

namespace Announcement

def script (announcement : Announcement) : List Char :=
  endedLines announcement.lines ++ ("echo ".toList ++ '"' :: announcement.quoted ++ ['"'])

/-- All lines are comments, those behind the line for the parameters are the document, and nothing
is run but the `echo`, whose one word in double quotes is the message. -/
structure Tells (announcement : Announcement) (message : String) (document : List Char) :
    Prop where
  commented : ∀ line ∈ announcement.lines, line.head? = some '#' ∧ '\n' ∉ line
  shown : (announcement.lines.dropWhile (· != parametersLine)).tail =
    (splitBy (· == '\n') document).map ("# ".toList ++ ·)
  enclosed : staysQuoted false announcement.quoted
  spoken : word? ('"' :: announcement.quoted ++ ['"']) = some (literal message.toList, [])
  run : commands announcement.script = some [plainCommand ["echo", message]]

/-- A script is an announcement in one way only. If the comments ended earlier, the quotes of the
command behind them would hold the command of the other one, and its quote ends them. -/
theorem eq_of_script_eq {announcement other : Announcement}
    (commented : ∀ line ∈ announcement.lines, line.head? = some '#' ∧ '\n' ∉ line)
    (enclosed : staysQuoted false announcement.quoted)
    (within : ∀ line ∈ other.lines, '\n' ∉ line)
    (same : announcement.script = other.script) : announcement = other := by
  obtain ⟨lines, quoted⟩ := announcement
  obtain ⟨others, inside⟩ := other
  have noComment : ("echo ".toList ++ '"' :: inside ++ ['"']).head? ≠ some '#' := by
    intro starts
    cases starts
  obtain ⟨more, rfl, rest⟩ := Text.exists_more_lines within commented noComment same.symm
  cases more with
  | nil =>
      have quotes : inside = quoted := by simpa [endedLines] using rest
      rw [List.append_nil, quotes]
  | cons line more =>
      have cut : (endedLines (line :: more) ++ "echo".toList) ++ ' ' :: '"' :: inside =
          "echo \"".toList ++ quoted := by
        refine (List.append_left_inj ['"']).mp ?_
        simpa using rest
      rcases List.append_eq_append_iff.mp cut with ⟨front, start, -⟩ | ⟨front, -, behind⟩
      · -- The start of the command has no line feed in it.
        have feed : '\n' ∈ "echo \"".toList := by
          rw [start]
          simp
        exact absurd feed (by decide)
      · rw [behind, staysQuoted_blank_quote] at enclosed
        cases enclosed

end Announcement

/-! ## The script of a placeholder -/

def unsupported (stepType : String) : String :=
  "Unsupported step type: " ++ stepType

/-- The parameters of a span as a pretty text. -/
def parametersText (parameters : Entries Json) : List Char :=
  Json.pretty 0 (.object parameters)

/-- The lines of the parameters as comments. -/
def parameterLines (parameters : Entries Json) : List (List Char) :=
  (splitBy (· == '\n') (parametersText parameters)).map ("# ".toList ++ ·)

def placeholderParts (stepType : String) (parameters : Entries Json) : Announcement where
  lines := splitBy (· == '\n') ("# Unsupported step type: ".toList ++ stepType.toList) ++
    parametersLine :: parameterLines parameters
  quoted := escape (unsupported stepType).toList

private theorem toList_unsupported (stepType : String) :
    (unsupported stepType).toList = "Unsupported step type: ".toList ++ stepType.toList :=
  String.toList_append

private theorem escape_unsupported (stepType : String) :
    escape (unsupported stepType).toList =
      "Unsupported step type: ".toList ++ escape stepType.toList := by
  have plain : escape "Unsupported step type: ".toList = "Unsupported step type: ".toList := by
    decide +kernel
  rw [toList_unsupported, escape, List.flatMap_append]
  exact congrArg (· ++ escape stepType.toList) plain

private theorem endedLines_parameterLines (parameters : Entries Json) :
    endedLines (parameterLines parameters) =
      (Text.lines (parametersText parameters)).flatMap Converter.comment := by
  rw [parameterLines, parametersText, Json.lines_pretty_object, endedLines, List.flatMap_map]
  rfl

private theorem script_placeholderParts (stepType : String) (parameters : Entries Json) :
    (placeholderParts stepType parameters).script =
      (Converter.placeholderScript stepType parameters).toList := by
  have whole : Converter.placeholderScript stepType parameters =
      "# Unsupported step type: " ++ stepType ++ "\n# Parameters:\n" ++
        String.ofList ((Text.lines (parametersText parameters)).flatMap Converter.comment) ++
        "echo \"Unsupported step type: " ++ ShellWord.escapeText stepType ++ "\"" := rfl
  have middle : "\n# Parameters:\n".toList = '\n' :: (parametersLine ++ ['\n']) := by
    decide +kernel
  have last : "echo \"Unsupported step type: ".toList =
      "echo ".toList ++ '"' :: "Unsupported step type: ".toList := by decide +kernel
  have quote : "\"".toList = ['"'] := rfl
  rw [Announcement.script, placeholderParts, Text.endedLines_append, Text.endedLines_cons,
    Text.endedLines_splitBy, endedLines_parameterLines, escape_unsupported, whole,
    ShellWord.escapeText]
  simp only [String.toList_append, String.toList_ofList, middle, last, quote]
  generalize "Unsupported step type: ".toList = opening
  generalize "# Unsupported step type: ".toList = heading
  simp

/-- Every line of a step type but the first one starts a comment of its own, other than the line in
front of the parameters. -/
def StaysComment (stepType : String) : Prop :=
  ∀ line ∈ (splitBy (· == '\n') stepType.toList).tail,
    line.head? = some '#' ∧ line ≠ parametersLine

/-- What comes behind the first line that is a mark is the document, if the mark in front of it is the
first one. -/
theorem tail_dropWhile_eq_iff {lines document : List (List Char)} {mark : List Char} :
    ((lines ++ mark :: document).dropWhile (· != mark)).tail = document ↔ mark ∉ lines := by
  induction lines with
  | nil => simp
  | cons line lines ih =>
      by_cases found : line = mark
      · subst found
        have longer : lines ++ line :: document ≠ document := by
          intro same
          have lengths := congrArg List.length same
          rw [List.length_append, List.length_cons] at lengths
          omega
        simp [longer]
      · rw [List.cons_append, List.dropWhile_cons_of_pos (by simpa using found), ih]
        simp [Ne.symm found]

/-- The lines of the step type follow the words in front of it. -/
theorem exists_typeLines (stepType : String) :
    ∃ first others, splitBy (· == '\n') stepType.toList = first :: others ∧
      splitBy (· == '\n') ("# Unsupported step type: ".toList ++ stepType.toList) =
        ("# Unsupported step type: ".toList ++ first) :: others := by
  have within : ∀ c ∈ "# Unsupported step type: ".toList, (c == '\n') = false := by simp
  cases cuts : splitBy (· == '\n') stepType.toList with
  | nil => exact absurd cuts (Text.splitBy_ne_nil _ _)
  | cons first others =>
      exact ⟨first, others, rfl, Text.splitBy_append_of_notCut within cuts⟩

theorem commented_parameterLines (parameters : Entries Json) :
    ∀ line ∈ parametersLine :: parameterLines parameters,
      line.head? = some '#' ∧ '\n' ∉ line := by
  intro line member
  rcases List.mem_cons.mp member with rfl | shown
  · exact ⟨rfl, by decide⟩
  · obtain ⟨text, inside, rfl⟩ := List.mem_map.mp shown
    exact ⟨rfl, by simpa using Text.notMem_of_mem_splitBy inside⟩

theorem within_placeholderParts (stepType : String) (parameters : Entries Json) :
    ∀ line ∈ (placeholderParts stepType parameters).lines, '\n' ∉ line := by
  intro line member
  rcases List.mem_append.mp member with typeLine | shown
  · exact Text.notMem_of_mem_splitBy typeLine
  · exact (commented_parameterLines parameters line shown).2

theorem commented_placeholderParts_iff {stepType : String} {parameters : Entries Json} :
    (∀ line ∈ (placeholderParts stepType parameters).lines, line.head? = some '#') ↔
      ∀ line ∈ (splitBy (· == '\n') stepType.toList).tail, line.head? = some '#' := by
  obtain ⟨first, others, cuts, headed⟩ := exists_typeLines stepType
  have heading : ("# Unsupported step type: ".toList ++ first).head? = some '#' := rfl
  have shown := fun line member => (commented_parameterLines parameters line member).1
  rw [placeholderParts, headed, cuts, List.tail_cons]
  simp only [List.forall_mem_append, List.forall_mem_cons (a := _ ++ first)]
  constructor
  case mp => exact fun commented => commented.1.2
  case mpr => exact fun commented => ⟨⟨heading, commented⟩, shown⟩

theorem shown_placeholderParts_iff {stepType : String} {parameters : Entries Json} :
    ((placeholderParts stepType parameters).lines.dropWhile (· != parametersLine)).tail =
        parameterLines parameters ↔
      parametersLine ∉ (splitBy (· == '\n') stepType.toList).tail := by
  obtain ⟨first, others, cuts, headed⟩ := exists_typeLines stepType
  have heading : parametersLine ≠ "# Unsupported step type: ".toList ++ first := by
    intro same
    have third := congrArg (·[2]?) same
    cases third
  rw [placeholderParts, tail_dropWhile_eq_iff, headed, cuts, List.tail_cons, List.mem_cons,
    or_iff_right heading]

/-- Comments in front of the command of a placeholder do not change what it does. -/
theorem commands_comments_echo {comments : List (List Char)} (stepType : String)
    (commented : ∀ line ∈ comments, line.head? = some '#' ∧ '\n' ∉ line) :
    commands (endedLines comments ++
        ("echo ".toList ++ '"' :: escape (unsupported stepType).toList ++ ['"'])) =
      some [plainCommand ["echo", unsupported stepType]] := by
  have echo : "echo ".toList ++ '"' :: escape (unsupported stepType).toList ++ ['"'] =
      ("echo \"" ++ ShellWord.escapeText (unsupported stepType) ++ "\"").toList := by
    simp [ShellWord.escapeText]
  rw [commands, echo, readFrom_comments _ commented]
  exact commands_echo _

theorem tells_placeholderParts_iff (stepType : String) (parameters : Entries Json) :
    (placeholderParts stepType parameters).Tells (unsupported stepType)
        (parametersText parameters) ↔ StaysComment stepType := by
  constructor
  case mp =>
    intro tells line member
    have commented := commented_placeholderParts_iff.mp fun line inside =>
      (tells.commented line inside).1
    refine ⟨commented line member, fun mark => ?_⟩
    exact shown_placeholderParts_iff.mp tells.shown (mark ▸ member)
  case mpr =>
    intro stays
    have commented : ∀ line ∈ (placeholderParts stepType parameters).lines,
        line.head? = some '#' ∧ '\n' ∉ line := fun line member =>
      ⟨commented_placeholderParts_iff.mpr (fun line inside => (stays line inside).1) line member,
        within_placeholderParts stepType parameters line member⟩
    have spoken := word?_escapeText (unsupported stepType)
    rw [toList_escapeText] at spoken
    exact {
      commented := commented
      shown := shown_placeholderParts_iff.mpr fun member => (stays _ member).2 rfl
      enclosed := staysQuoted_escape _
      spoken := spoken
      run := commands_comments_echo stepType commented }

/-- What a placeholder runs. It does nothing but print its message as long as the lines of the step
type stay comments. Whatever the type and the parameters are, all that comes behind the type is
comments and the command. -/
theorem placeholder_tells_iff (span : Span) (context : Context) :
    ∃ run, Converter.placeholder span context =
        .ok [Converter.scriptStep span context .sh run] ∧
      ((∃ announcement : Announcement, announcement.script = run.toList ∧
          announcement.Tells (unsupported span.stepType) (parametersText span.parameters)) ↔
        StaysComment span.stepType) ∧
      ∃ rest, run.toList =
          "# Unsupported step type: ".toList ++ span.stepType.toList ++ '\n' :: rest ∧
        commands rest = some [plainCommand ["echo", unsupported span.stepType]] := by
  have parts := script_placeholderParts span.stepType span.parameters
  refine ⟨_, rfl, ?_, ?_⟩
  · rw [← parts, ← tells_placeholderParts_iff span.stepType span.parameters]
    constructor
    case mp =>
      intro ⟨announcement, same, tells⟩
      have only := Announcement.eq_of_script_eq tells.commented tells.enclosed
        (within_placeholderParts span.stepType span.parameters) same
      exact only ▸ tells
    case mpr => exact fun tells => ⟨_, rfl, tells⟩
  · refine ⟨_, ?_, commands_comments_echo span.stepType
      (commented_parameterLines span.parameters)⟩
    rw [← parts, Announcement.script, placeholderParts, Text.endedLines_append,
      Text.endedLines_splitBy]
    simp only [List.append_assoc, List.cons_append, List.nil_append]

/-- A step type of two lines. -/
def lineFeedType : Span :=
  { (default : Span) with typeName := "deploy\nrm -rf build" }

/-- The second line of such a type is run. -/
theorem runs_lineFeedType :
    Runs Converter.placeholder lineFeedType {}
      [plainCommand ["rm", "-rf", "build"],
        plainCommand ["echo", unsupported "deploy\nrm -rf build"]] :=
  ⟨_, rfl, by decide +kernel⟩

theorem not_tells_lineFeed :
    ¬∀ (span : Span) (context : Context),
      ∃ run, Converter.placeholder span context =
          .ok [Converter.scriptStep span context .sh run] ∧
        ∃ announcement : Announcement, announcement.script = run.toList ∧
          announcement.Tells (unsupported span.stepType) (parametersText span.parameters) := by
  intro always
  obtain ⟨run, made, announcement, same, tells⟩ := always lineFeedType {}
  have echo : Runs Converter.placeholder lineFeedType {}
      [plainCommand ["echo", unsupported lineFeedType.stepType]] :=
    ⟨run, made, same ▸ tells.run⟩
  cases congrArg List.length (echo.unique runs_lineFeedType)

end Posix

end TracePipeline
