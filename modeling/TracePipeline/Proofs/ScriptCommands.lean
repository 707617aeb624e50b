import Mathlib.Data.List.Basic
import TracePipeline.Proofs.Trimming
import TracePipeline.Tool.Invocation

/-! The command that is cut out of a script. A tool gets the first command of the script that runs
it, and of the text around that command nothing but white space and two separators is lost. -/

set_option autoImplicit false

namespace TracePipeline

/-! ## Texts without white space -/

namespace Text

/-- What can be seen of a text: all of it but its white space. -/
def visible (text : List Char) : List Char :=
  text.filter fun c => !isBlank c

@[simp] theorem visible_nil : visible [] = [] := rfl

@[simp] theorem visible_append (first second : List Char) :
    visible (first ++ second) = visible first ++ visible second :=
  List.filter_append _ _

theorem visible_eq_self_iff {text : List Char} :
    visible text = text ↔ ∀ c ∈ text, isBlank c = false := by
  simp [visible]

private theorem visible_flatten (texts : List (List Char)) :
    visible texts.flatten = texts.flatMap visible := by
  induction texts with
  | nil => rfl
  | cons text rest ih => simp [ih]

theorem visible_eq_nil_iff {text : List Char} : visible text = [] ↔ text.all isBlank := by
  simp [visible]

/-- Cutting a text loses the cuts and nothing else. -/
theorem flatten_splitBy (cut : Char → Bool) (text : List Char) :
    (splitBy cut text).flatten = text.filter fun c => !cut c := by
  induction text with
  | nil => rfl
  | cons c rest ih =>
      rw [splitBy]
      by_cases isCut : cut c
      · simp [isCut, ih]
      · rw [if_neg isCut]
        split
        case h_1 nothing => exact absurd nothing (splitBy_ne_nil cut rest)
        case h_2 piece pieces split =>
          rw [split] at ih
          simpa [isCut] using ih

private theorem flatten_words (text : List Char) : (words text).flatten = visible text := by
  rw [words, List.flatten_filter_not_isEmpty, flatten_splitBy, visible]

private theorem visible_dropReturn (line : List Char) :
    visible (dropReturn line) = visible line := by
  fun_induction dropReturn line with
  | case1 => rfl
  | case2 => rfl
  | case3 c rest _ ih =>
      rw [← List.singleton_append, visible_append, ih, ← visible_append, List.singleton_append]

private theorem visible_linesOfPieces (pieces : List (List Char)) :
    (linesOfPieces pieces).flatMap visible = pieces.flatMap visible := by
  fun_induction linesOfPieces pieces with
  | case1 => rfl
  | case2 last nothing => simp_all
  | case3 last someText => rfl
  | case4 piece pieces _ ih => simp [ih, visible_dropReturn]

/-- The lines of a text hold all that can be seen of it. -/
theorem visible_lines (text : List Char) : (lines text).flatMap visible = visible text := by
  have feeds : ∀ c : Char, (!isBlank c && !(c == '\n')) = !isBlank c := by
    intro c
    by_cases feed : c = '\n'
    · rw [feed]
      rfl
    · simp [feed]
  rw [lines, visible_linesOfPieces, ← visible_flatten, flatten_splitBy, visible, visible,
    List.filter_filter]
  simp only [feeds]

theorem visible_intercalate {separator : List Char} (blank : visible separator = [])
    (texts : List (List Char)) :
    visible (separator.intercalate texts) = texts.flatMap visible := by
  induction texts with
  | nil => rfl
  | cons text rest ih =>
      cases rest with
      | nil => simp [List.intercalate]
      | cons next rest =>
          rw [List.intercalate_cons_cons, visible_append, visible_append, blank, ih]
          simp

end Text

namespace ToolInvocation

open Text (visible)

/-! ## Tokens -/

theorem flatten_splitSemicolon (token : Token) : (splitSemicolon token).flatten = token := by
  unfold splitSemicolon
  split
  case h_1 rest same =>
    split
    · simp
    · simpa using (congrArg List.reverse same).symm
  case h_2 => simp

theorem flatten_tokens (line : List Char) : (tokens line).flatten = visible line := by
  rw [← Text.flatten_words, tokens, List.flatMap_def, List.flatten_flatten, List.map_map]
  congr 1
  exact List.map_id'' flatten_splitSemicolon _

/-- There are no blanks in tokens. -/
theorem visible_token {line : List Char} {token : Token} (member : token ∈ tokens line) :
    visible token = token := by
  rw [Text.visible_eq_self_iff]
  intro c inside
  have seen : c ∈ visible line := by
    rw [← flatten_tokens]
    exact List.mem_flatten_of_mem member inside
  simpa using (List.mem_filter.mp seen).2

theorem visible_joinTokens (tokens : List Token) :
    visible (joinTokens tokens) = tokens.flatMap visible :=
  Text.visible_intercalate rfl tokens

private theorem visible_remainder (tokens : List Token) :
    (remainder tokens).flatMap visible = tokens.flatMap visible := by
  unfold remainder
  split
  case isTrue nothing => simp_all
  case isFalse => simp [visible_joinTokens]

private theorem visible_joinLines (lines : List (List Char)) :
    visible (joinLines lines).toList = lines.flatMap visible := by
  have feed : visible ['\n'] = [] := rfl
  rw [← Text.visible_intercalate feed]
  simp only [joinLines]
  split
  case isTrue blank => rw [Text.visible_eq_nil_iff.mpr blank]; rfl
  case isFalse => rw [String.toList_ofList]

/-! ## Commands of a line -/

/-- A part of a line is a command: it has tokens, none of them a separator, and is bounded by
separators or the ends of the line. -/
structure IsCommand (line before command after : List Token) : Prop where
  split : line = before ++ (command ++ after)
  someToken : command ≠ []
  whole : ∀ token ∈ command, isSeparator token = false
  starts : ∀ token ∈ before.getLast?, isSeparator token
  ends : ∀ token ∈ after.head?, isSeparator token

/-- A command that runs a tool and is tied to no other command. The scanner is also run by a Maven
command with one of its goals. -/
structure Qualifies (tool : Tool) (command : List Token) : Prop where
  alone : ∀ token ∈ command, isOperator token = false
  called : ∃ word rest, command = word :: rest ∧
    (runs tool word ∨ tool = .sonarScanner ∧ runs .maven word ∧
      ∃ token ∈ command, Text.startsWith "sonar:".toList token)

/-- The word that calls a tool, which is not among the arguments. A Maven command that runs the
scanner is kept as a whole. -/
def callWord (tool : Tool) : List Token → Token
  | word :: _ => if runs tool word then word else []
  | [] => []

theorem arguments?_eq_none_iff {tool : Tool} {command : List Token} :
    arguments? tool command = none ↔ ¬Qualifies tool command := by
  cases command with
  | nil =>
      refine ⟨fun _ qualifies => ?_, fun _ => rfl⟩
      obtain ⟨_, _, nothing, -⟩ := qualifies.called
      cases nothing
  | cons first rest =>
      have called : Qualifies tool (first :: rest) ↔
          (∀ token ∈ first :: rest, isOperator token = false) ∧
            (runs tool first ∨ tool = .sonarScanner ∧ runs .maven first ∧
              ∃ token ∈ first :: rest, Text.startsWith "sonar:".toList token) := by
        constructor
        · rintro ⟨alone, word, others, ⟨⟩, called⟩
          exact ⟨alone, called⟩
        · rintro ⟨alone, called⟩
          exact ⟨alone, first, rest, rfl, called⟩
      rw [called]
      simp only [arguments?]
      split
      case isTrue tied =>
        obtain ⟨token, member, operator⟩ := List.any_eq_true.mp tied
        refine iff_of_true rfl fun qualifies => ?_
        rw [qualifies.1 token member] at operator
        cases operator
      case isFalse free =>
        have alone : ∀ token ∈ first :: rest, isOperator token = false := by simpa using free
        split
        case isTrue direct => exact iff_of_false (by simp) (not_not_intro ⟨alone, .inl direct⟩)
        case isFalse other =>
          split
          case isTrue goal =>
            simp only [Bool.and_eq_true, decide_eq_true_eq, List.any_eq_true, and_assoc] at goal
            exact iff_of_false (by simp) (not_not_intro ⟨alone, .inr goal⟩)
          case isFalse noGoal =>
            simp only [Bool.and_eq_true, decide_eq_true_eq, List.any_eq_true, and_assoc] at noGoal
            exact iff_of_true rfl fun qualifies => qualifies.2.elim other noGoal

/-- A command is the word that calls the tool and the arguments. -/
theorem visible_arguments {tool : Tool} {command : List Token} {arguments : List Char}
    (found : arguments? tool command = some arguments) :
    visible (callWord tool command) ++ visible arguments = command.flatMap visible := by
  cases command with
  | nil => cases found
  | cons first rest =>
      simp only [arguments?] at found
      split at found
      · cases found
      split at found
      case isTrue runs =>
        cases found
        simp [callWord, runs, visible_joinTokens]
      case isFalse other =>
        split at found
        · cases found
          simp [callWord, other, visible_joinTokens]
        · cases found

/-- The first command of a line behind some passed commands: it is the one that starts there, or it
starts further on. -/
theorem IsCommand.eq_or_later {passed command rest before inner after : List Token}
    (stands : IsCommand (passed ++ (command ++ rest)) before inner after)
    (behind : passed.length ≤ before.length)
    (whole : ∀ token ∈ command, isSeparator token = false)
    (ends : ∀ token ∈ rest.head?, isSeparator token) :
    before = passed ∧ inner = command ∧ after = rest ∨
      passed.length + command.length < before.length := by
  obtain ⟨middle, rfl, same⟩ : ∃ middle, before = passed ++ middle ∧
      command ++ rest = middle ++ (inner ++ after) := by
    obtain ⟨middle, first, second⟩ | ⟨middle, first, second⟩ :=
      List.append_eq_append_iff.mp stands.split
    · exact ⟨middle, first, second⟩
    · have nothing : middle = [] := by
        rw [first, List.length_append] at behind
        exact List.length_eq_zero_iff.mp (by omega)
      subst nothing
      exact ⟨[], by simpa using first.symm, by simpa using second.symm⟩
  by_cases later : command.length < middle.length
  · right
    rw [List.length_append]
    omega
  left
  -- What is between the passed commands and this one ends in a separator, which `command` has not.
  have nothing : middle = [] := by
    by_contra some
    have inside : middle.getLast some ∈ command := by
      have initial : middle <+: command :=
        List.prefix_of_prefix_length_le ⟨inner ++ after, same.symm⟩ ⟨rest, rfl⟩ (by omega)
      exact initial.subset (List.getLast_mem some)
    have last : middle.getLast some ∈ (passed ++ middle).getLast? := by
      rw [List.getLast?_append_of_ne_nil _ some, List.getLast?_eq_some_getLast some]
      rfl
    have separates := stands.starts _ last
    rw [whole _ inside] at separates
    cases separates
  subst nothing
  rw [List.nil_append] at same
  obtain ⟨more, first, second⟩ | ⟨more, first, second⟩ := List.append_eq_append_iff.mp same
  · cases more with
    | nil => exact ⟨by simp, by simpa using first, by simpa using second.symm⟩
    | cons token more =>
        have separates := ends token (by rw [second]; rfl)
        rw [stands.whole token (by rw [first]; simp)] at separates
        cases separates
  · cases more with
    | nil => exact ⟨by simp, by simpa using first.symm, by simpa using second⟩
    | cons token more =>
        have separates := stands.ends token (by rw [second]; rfl)
        rw [whole token (by rw [first]; simp)] at separates
        cases separates

/-- A command that runs a tool, with what is found of it, and no other one before it. The search
begins behind some tokens. -/
structure FirstFound (tool : Tool) (line : List Token) (start : Nat) (found : Found)
    (before command after : List Token) : Prop where
  stands : IsCommand line before command after
  behind : start ≤ before.length
  arguments : arguments? tool command = some found.arguments
  before_eq : found.before = before.dropLast
  after_eq : found.after = after.drop 1
  first : ∀ before' command' after', IsCommand line before' command' after' →
    start ≤ before'.length → before'.length < before.length → ¬Qualifies tool command'

/-- What is found when the command that is being read ends and runs the tool. -/
theorem firstFound_here {tool : Tool} {passed command rest : List Token} {arguments : List Char}
    (starts : ∀ token ∈ passed.getLast?, isSeparator token)
    (whole : ∀ token ∈ command, isSeparator token = false)
    (ends : ∀ token ∈ rest.head?, isSeparator token)
    (found : arguments? tool command = some arguments) :
    FirstFound tool (passed ++ (command ++ rest)) passed.length
      ⟨passed.dropLast, arguments, rest.drop 1⟩ passed command rest where
  stands := {
    split := rfl
    someToken := by
      rintro rfl
      cases found
    whole := whole
    starts := starts
    ends := ends }
  behind := Nat.le_refl _
  arguments := found
  before_eq := rfl
  after_eq := rfl
  first := fun _ _ _ _ behind before => absurd before (Nat.not_lt.mpr behind)

/-- Between commands that were passed and the rest of a line stands the command that is being
read. -/
theorem findCommand_spec (tool : Tool) (passed command rest : List Token)
    (starts : ∀ token ∈ passed.getLast?, isSeparator token)
    (whole : ∀ token ∈ command, isSeparator token = false) :
    match findCommand tool passed command rest with
    | none => ∀ before inner after, IsCommand (passed ++ (command ++ rest)) before inner after →
        passed.length ≤ before.length → ¬Qualifies tool inner
    | some found => ∃ before inner after,
        FirstFound tool (passed ++ (command ++ rest)) passed.length found before inner after := by
  induction rest generalizing passed command with
  | nil =>
      have noMore : ∀ token ∈ ([] : List Token).head?, isSeparator token := by simp
      rw [findCommand]
      cases found : arguments? tool command with
      | some arguments => exact ⟨passed, command, [], firstFound_here starts whole noMore found⟩
      | none =>
          intro before inner after stands behind
          rcases stands.eq_or_later behind whole noMore with ⟨-, rfl, -⟩ | later
          · exact arguments?_eq_none_iff.mp found
          · have lengths := congrArg List.length stands.split
            simp only [List.length_append, List.length_nil] at lengths
            omega
  | cons token rest ih =>
      rw [findCommand]
      by_cases separates : isSeparator token
      · have ends : ∀ next ∈ (token :: rest).head?, isSeparator next := by simpa using separates
        rw [if_pos separates]
        cases found : arguments? tool command with
        | some arguments =>
            exact ⟨passed, command, token :: rest, firstFound_here starts whole ends found⟩
        | none =>
            have split : passed ++ (command ++ token :: rest) =
                passed ++ command ++ [token] ++ ([] ++ rest) := by simp
            have onward := ih (passed ++ command ++ [token]) [] (by simpa using separates) (by simp)
            -- This command does not qualify, and every other one starts behind the separator.
            have later : ∀ before inner after,
                IsCommand (passed ++ (command ++ token :: rest)) before inner after →
                passed.length ≤ before.length → Qualifies tool inner →
                (passed ++ command ++ [token]).length ≤ before.length := by
              intro before inner after stands behind qualifies
              rcases stands.eq_or_later behind whole ends with ⟨-, rfl, -⟩ | later
              · exact absurd qualifies (arguments?_eq_none_iff.mp found)
              · simp only [List.length_append, List.length_singleton]
                omega
            rw [split] at later ⊢
            cases next : findCommand tool (passed ++ command ++ [token]) [] rest with
            | none =>
                rw [next] at onward
                intro before inner after stands behind qualifies
                have further := later before inner after stands behind qualifies
                exact onward before inner after stands further qualifies
            | some found =>
                rw [next] at onward
                obtain ⟨before, inner, after, first⟩ := onward
                refine ⟨before, inner, after, { first with behind := ?_, first := ?_ }⟩
                · have behind := first.behind
                  simp only [List.length_append] at behind
                  omega
                · intro before' inner' after' stands behind earlier qualifies
                  have further := later before' inner' after' stands behind qualifies
                  exact first.first before' inner' after' stands further earlier qualifies
      · have longer : ∀ next ∈ command ++ [token], isSeparator next = false := by
          intro next member
          rcases List.mem_append.mp member with old | new
          · exact whole next old
          · rw [List.mem_singleton.mp new]
            exact Bool.eq_false_iff.mpr separates
        have same : command ++ token :: rest = command ++ [token] ++ rest := by simp
        rw [if_neg separates, same]
        exact ih passed (command ++ [token]) starts longer

/-! ## Commands of a script -/

/-- A command of a script: the lines above and below its line, and the tokens of that line. -/
structure CommandSite (script : String) where
  above : List (List Char)
  line : List Char
  below : List (List Char)
  before : List Token
  command : List Token
  after : List Token
  lines_eq : Text.lines script.toList = above ++ line :: below
  stands : IsCommand (tokens line) before command after

namespace CommandSite

variable {script : String}

/-- One command comes before another one in script order. -/
def Precedes (first second : CommandSite script) : Prop :=
  first.above.length < second.above.length ∨
    first.above.length = second.above.length ∧ first.before.length < second.before.length

/-- The separator in front of a command, if there is one. -/
def separatorBefore (site : CommandSite script) : Token :=
  site.before.getLast?.getD []

def separatorAfter (site : CommandSite script) : Token :=
  site.after.head?.getD []

theorem mem_separators {token : Option Token} (separates : ∀ found ∈ token, isSeparator found) :
    token.getD [] ∈ [[], "&&".toList, ";".toList] := by
  cases token with
  | none => simp
  | some token =>
      have either := separates token rfl
      exact List.mem_cons_of_mem _ (by simpa [isSeparator] using either)

/-- The tokens of a site show all that can be seen of their line. -/
theorem visible_line (site : CommandSite script) :
    visible site.line =
      site.before.flatten ++ (site.command.flatten ++ site.after.flatten) := by
  rw [← flatten_tokens, site.stands.split, List.flatten_append, List.flatten_append]

private theorem flatMap_visible (site : CommandSite script) {part : List Token}
    (inside : part ⊆ tokens site.line) : part.flatMap visible = part.flatten := by
  rw [List.flatMap_def, List.map_congr_left fun token member => visible_token (inside member),
    List.map_id']

private theorem before_subset (site : CommandSite script) : site.before ⊆ tokens site.line := by
  rw [site.stands.split]
  exact List.subset_append_left _ _

private theorem command_subset (site : CommandSite script) : site.command ⊆ tokens site.line := by
  rw [site.stands.split]
  exact List.subset_append_of_subset_right _ (List.subset_append_left _ _)

private theorem after_subset (site : CommandSite script) : site.after ⊆ tokens site.line := by
  rw [site.stands.split]
  exact List.subset_append_of_subset_right _ (List.subset_append_right _ _)

private theorem before_flatten (site : CommandSite script) :
    site.before.flatten = site.before.dropLast.flatten ++ site.separatorBefore := by
  unfold separatorBefore
  rcases List.eq_nil_or_concat site.before with nothing | ⟨rest, token, same⟩
  · rw [nothing]
    rfl
  · rw [same]
    simp

private theorem after_flatten (site : CommandSite script) :
    site.after.flatten = site.separatorAfter ++ (site.after.drop 1).flatten := by
  unfold separatorAfter
  cases site.after with
  | nil => rfl
  | cons token rest => rfl

/-- An invocation is what a script leaves when it is cut at a command. Up to white space the texts
before and after it lack the separators next to the command, and the arguments lack the word that
calls the tool. -/
structure Cut (tool : Tool) (site : CommandSite script) (invocation : ToolInvocation) : Prop where
  before : visible invocation.before.toList ++ site.separatorBefore =
    site.above.flatMap visible ++ site.before.flatten
  arguments : callWord tool site.command ++ visible invocation.arguments.toList =
    site.command.flatten
  after : site.separatorAfter ++ visible invocation.after.toList =
    site.after.flatten ++ site.below.flatMap visible

/-- Nothing that can be seen of a script is lost by a cut, and nothing changes places. -/
theorem Cut.visible_eq {tool : Tool} {site : CommandSite script} {invocation : ToolInvocation}
    (cut : site.Cut tool invocation) :
    visible script.toList =
      visible invocation.before.toList ++ site.separatorBefore ++
        (callWord tool site.command ++ visible invocation.arguments.toList) ++
        site.separatorAfter ++ visible invocation.after.toList := by
  rw [cut.before, cut.arguments, List.append_assoc _ site.separatorAfter, cut.after,
    ← Text.visible_lines, site.lines_eq, List.flatMap_append, List.flatMap_cons, visible_line]
  simp only [List.append_assoc]

theorem cut_of_firstFound {tool : Tool} (site : CommandSite script) {found : Found}
    (first : FirstFound tool (tokens site.line) 0 found site.before site.command site.after) :
    site.Cut tool {
      before := joinLines (site.above ++ remainder found.before)
      arguments := String.ofList found.arguments
      after := joinLines (remainder found.after ++ site.below) } where
  before := by
    have kept : found.before ⊆ tokens site.line := by
      rw [first.before_eq]
      exact fun token member => site.before_subset (List.dropLast_subset _ member)
    rw [visible_joinLines, List.flatMap_append, visible_remainder, site.flatMap_visible kept,
      first.before_eq, site.before_flatten, List.append_assoc]
  arguments := by
    have word : visible (callWord tool site.command) = callWord tool site.command := by
      unfold callWord
      split
      case h_1 first rest same =>
        have member : first ∈ tokens site.line := site.command_subset (by rw [same]; exact .head _)
        split
        · exact visible_token member
        · rfl
      case h_2 => rfl
    have whole := visible_arguments first.arguments
    rw [word, site.flatMap_visible site.command_subset] at whole
    rw [String.toList_ofList, whole]
  after := by
    have kept : found.after ⊆ tokens site.line := by
      rw [first.after_eq]
      exact fun token member => site.after_subset (List.mem_of_mem_drop member)
    rw [visible_joinLines, List.flatMap_append, visible_remainder, site.flatMap_visible kept,
      first.after_eq, site.after_flatten, List.append_assoc]

end CommandSite

/-- The first line with a command that runs the tool, and what is found on it. -/
theorem findLine_spec (tool : Tool) (lines : List (List Char)) :
    match findLine tool lines with
    | none => ∀ line ∈ lines, findCommand tool [] [] (tokens line) = none
    | some (above, found, below) => ∃ line, lines = above ++ line :: below ∧
        findCommand tool [] [] (tokens line) = some found ∧
        ∀ earlier ∈ above, findCommand tool [] [] (tokens earlier) = none := by
  induction lines with
  | nil => simp [findLine]
  | cons line rest ih =>
      rw [findLine]
      cases own : findCommand tool [] [] (tokens line) with
      | some found => exact ⟨line, rfl, own, by simp⟩
      | none =>
          cases later : findLine tool rest with
          | none =>
              rw [later] at ih
              exact List.forall_mem_cons.mpr ⟨own, ih⟩
          | some answer =>
              rw [later] at ih
              obtain ⟨above, found, below⟩ := answer
              obtain ⟨place, split, here, earlier⟩ := ih
              refine ⟨place, ?_, here, List.forall_mem_cons.mpr ⟨own, earlier⟩⟩
              rw [split]
              rfl

/-- On a line on which nothing is found no command runs the tool. -/
theorem not_qualifies_of_findCommand {tool : Tool} {line : List Char}
    (nothing : findCommand tool [] [] (tokens line) = none) {before command after : List Token}
    (stands : IsCommand (tokens line) before command after) : ¬Qualifies tool command := by
  have spec := findCommand_spec tool [] [] (tokens line) (by simp) (by simp)
  rw [nothing] at spec
  exact spec before command after stands (Nat.zero_le _)

/-- What is found on a line is the first command that runs the tool, with all that is around it. -/
theorem exists_site_of_findLine {tool : Tool} {script : String} {above below : List (List Char)}
    {found : Found}
    (answer : findLine tool (Text.lines script.toList) = some (above, found, below)) :
    ∃ site : CommandSite script, site.above = above ∧ site.below = below ∧
      FirstFound tool (tokens site.line) 0 found site.before site.command site.after ∧
      ∀ other : CommandSite script, Qualifies tool other.command → ¬other.Precedes site := by
  have spec := findLine_spec tool (Text.lines script.toList)
  rw [answer] at spec
  obtain ⟨line, split, here, earlier⟩ := spec
  have own := findCommand_spec tool [] [] (tokens line) (by simp) (by simp)
  rw [here] at own
  obtain ⟨before, command, after, first⟩ := own
  refine ⟨⟨above, line, below, before, command, after, split, first.stands⟩, rfl, rfl, first, ?_⟩
  rintro other qualifies (higher | ⟨level, left⟩)
  · have member : other.line ∈ above := by
      have place : (Text.lines script.toList)[other.above.length]? = some other.line := by
        rw [other.lines_eq]
        simp
      rw [split, List.getElem?_append_left higher] at place
      exact List.mem_of_getElem? place
    exact not_qualifies_of_findCommand (earlier _ member) other.stands qualifies
  · obtain ⟨-, same⟩ := List.append_inj (other.lines_eq.symm.trans split) level
    obtain ⟨sameLine, -⟩ := List.cons_eq_cons.mp same
    have stands := other.stands
    rw [sameLine] at stands
    exact first.first _ _ _ stands (Nat.zero_le _) left qualifies

end ToolInvocation

namespace Tool

open ToolInvocation
open Text (visible)

/-- A tool finds nothing in a script just if no command runs it. Otherwise the script is cut at the
first command that does, and only white space, the word that calls the tool and the separators next
to the command are lost. -/
theorem findInvocation?_cuts_first (tool : Tool) (script : String) :
    (tool.findInvocation? script = none ↔
        ∀ site : CommandSite script, ¬Qualifies tool site.command) ∧
      ∀ invocation, tool.findInvocation? script = some invocation →
        ∃ site : CommandSite script, Qualifies tool site.command ∧
          (∀ other : CommandSite script, Qualifies tool other.command → ¬other.Precedes site) ∧
          site.Cut tool invocation ∧
          site.separatorBefore ∈ [[], "&&".toList, ";".toList] ∧
          site.separatorAfter ∈ [[], "&&".toList, ";".toList] ∧
          visible script.toList =
            visible invocation.before.toList ++ site.separatorBefore ++
              (callWord tool site.command ++ visible invocation.arguments.toList) ++
              site.separatorAfter ++ visible invocation.after.toList := by
  unfold findInvocation?
  cases answer : findLine tool (Text.lines script.toList) with
  | none =>
      have nothing := findLine_spec tool (Text.lines script.toList)
      rw [answer] at nothing
      refine ⟨iff_of_true rfl fun site => ?_, by simp⟩
      have member : site.line ∈ Text.lines script.toList := by
        rw [site.lines_eq]
        simp
      exact not_qualifies_of_findCommand (nothing site.line member) site.stands
  | some found =>
      obtain ⟨above, found, below⟩ := found
      obtain ⟨site, rfl, rfl, first, earliest⟩ := exists_site_of_findLine answer
      have qualifies : Qualifies tool site.command := by
        by_contra other
        have found := first.arguments
        rw [arguments?_eq_none_iff.mpr other] at found
        cases found
      refine ⟨iff_of_false (by simp) fun nothing => nothing site qualifies, ?_⟩
      rintro invocation ⟨⟩
      have cut := site.cut_of_firstFound first
      exact ⟨site, qualifies, earliest, cut, CommandSite.mem_separators site.stands.starts,
        CommandSite.mem_separators site.stands.ends, cut.visible_eq⟩

def wrapperLine : String :=
  "cd app; ./mvnw -B package && echo done"

theorem findInvocation?_cuts_wrapperLine :
    maven.findInvocation? wrapperLine = some ⟨"cd app", "-B package", "echo done"⟩ ∧
      ∃ site : CommandSite wrapperLine, Qualifies maven site.command ∧
        site.separatorBefore ++ (callWord maven site.command ++ "-Bpackage".toList) ++
          site.separatorAfter = ";./mvnw-Bpackage&&".toList := by
  have found : maven.findInvocation? wrapperLine =
      some ⟨"cd app", "-B package", "echo done"⟩ := by
    decide +kernel
  obtain ⟨site, qualifies, -, -, -, -, whole⟩ :=
    (findInvocation?_cuts_first maven wrapperLine).2 _ found
  have parts : visible wrapperLine.toList = "cdapp".toList ++ ";./mvnw-Bpackage&&".toList ++
      "echodone".toList := by
    decide
  have before : visible "cd app".toList = "cdapp".toList := by decide
  have arguments : visible "-B package".toList = "-Bpackage".toList := by decide
  have after : visible "echo done".toList = "echodone".toList := by decide
  refine ⟨found, site, qualifies, ?_⟩
  rw [parts, before, arguments, after] at whole
  have inner := List.append_cancel_right whole
  rw [List.append_assoc "cdapp".toList, List.append_assoc "cdapp".toList] at inner
  exact (List.append_cancel_left inner).symm

end Tool

end TracePipeline
