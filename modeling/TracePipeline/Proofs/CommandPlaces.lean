import TracePipeline.Proofs.ScriptCommands

/-! Where a command stands in the text of its script. The lines of a script and the tokens of a line
are pieces of the text with line ends and blanks between them, so every command has a place in it:
the text falls into what is in front of the command, the command itself and what is behind it. -/

set_option autoImplicit false

namespace TracePipeline

namespace Text

/-! ## Lines in a text -/

/-- The first piece of a text reaches up to the first cut; the others are the pieces of the rest. -/
theorem splitBy_eq_cons {cut : Char → Bool} {text piece : List Char} {pieces : List (List Char)}
    (cuts : splitBy cut text = piece :: pieces) :
    (∀ c ∈ piece, cut c = false) ∧
      (pieces = [] ∧ text = piece ∨
        ∃ mark rest, cut mark ∧ text = piece ++ mark :: rest ∧ splitBy cut rest = pieces) := by
  induction text generalizing piece with
  | nil =>
      cases cuts
      exact ⟨by simp, .inl ⟨rfl, rfl⟩⟩
  | cons c rest ih =>
      rw [splitBy] at cuts
      split at cuts
      case isTrue isCut =>
        obtain ⟨rfl, others⟩ := List.cons.inj cuts
        exact ⟨by simp, .inr ⟨c, rest, isCut, rfl, others⟩⟩
      case isFalse kept =>
        cases pieces' : splitBy cut rest with
        | nil => exact absurd pieces' (splitBy_ne_nil cut rest)
        | cons first others =>
            rw [pieces'] at cuts
            obtain ⟨rfl, rfl⟩ := List.cons.inj cuts
            obtain ⟨clean, whole⟩ := ih pieces'
            refine ⟨List.forall_mem_cons.mpr ⟨Bool.eq_false_iff.mpr kept, clean⟩, ?_⟩
            obtain ⟨rfl, rfl⟩ | ⟨mark, behind, isCut, rfl, same⟩ := whole
            · exact .inl ⟨rfl, rfl⟩
            · exact .inr ⟨mark, behind, isCut, rfl, same⟩

def IsLineEnd (mark : List Char) : Prop :=
  mark = ['\n'] ∨ mark = ['\r', '\n']

theorem IsLineEnd.blank {mark : List Char} (isEnd : IsLineEnd mark) :
    mark.all isBlank := by
  rcases isEnd with rfl | rfl <;> rfl

/-- A text that consists of lines, each with its end. -/
inductive Ended : List Char → List (List Char) → Prop where
  | nil : Ended [] []
  | cons {line mark rest : List Char} {lines : List (List Char)} :
      IsLineEnd mark → Ended rest lines → Ended (line ++ (mark ++ rest)) (line :: lines)

/-- A text that consists of lines, of which the last one need not have an end. -/
inductive Lined : List Char → List (List Char) → Prop where
  | nil : Lined [] []
  | last {line : List Char} : line ≠ [] → Lined line [line]
  | cons {line mark rest : List Char} {lines : List (List Char)} :
      IsLineEnd mark → Lined rest lines → Lined (line ++ (mark ++ rest)) (line :: lines)

theorem eq_dropReturn (line : List Char) :
    line = dropReturn line ∨ line = dropReturn line ++ ['\r'] := by
  fun_induction dropReturn line with
  | case1 => exact .inl rfl
  | case2 => exact .inr rfl
  | case3 c rest _ ih =>
      rcases ih with same | same
      · exact .inl (congrArg (c :: ·) same)
      · exact .inr (congrArg (c :: ·) same)

private theorem lined_linesOfPieces {text : List Char} {pieces : List (List Char)}
    (cuts : splitBy (· == '\n') text = pieces) : Lined text (linesOfPieces pieces) := by
  fun_induction linesOfPieces pieces generalizing text with
  | case1 => exact absurd cuts (splitBy_ne_nil _ text)
  | case2 last nothing =>
      obtain ⟨-, ⟨-, rfl⟩ | ⟨mark, rest, -, -, more⟩⟩ := splitBy_eq_cons cuts
      · rw [List.isEmpty_iff.mp nothing]
        exact .nil
      · exact absurd more (splitBy_ne_nil _ rest)
  | case3 last some =>
      obtain ⟨-, ⟨-, rfl⟩ | ⟨mark, rest, -, -, more⟩⟩ := splitBy_eq_cons cuts
      · exact .last (by simpa using some)
      · exact absurd more (splitBy_ne_nil _ rest)
  | case4 piece pieces several ih =>
      obtain ⟨-, ⟨nothing, -⟩ | ⟨mark, rest, feed, rfl, more⟩⟩ := splitBy_eq_cons cuts
      · exact absurd nothing (by simpa using several)
      · have isFeed : mark = '\n' := by simpa using feed
        subst isFeed
        rcases eq_dropReturn piece with same | same
        · have whole : piece ++ '\n' :: rest = dropReturn piece ++ (['\n'] ++ rest) := by
            rw [← same]
            rfl
          rw [whole]
          exact .cons (.inl rfl) (ih more)
        · have whole : piece ++ '\n' :: rest = dropReturn piece ++ (['\r', '\n'] ++ rest) := by
            conv_lhs => rw [same]
            simp
          rw [whole]
          exact .cons (.inr rfl) (ih more)

theorem lined_lines (text : List Char) : Lined text (lines text) :=
  lined_linesOfPieces rfl

theorem Ended.lined {text last : List Char} {lines : List (List Char)}
    (ended : Ended text lines) (some : last ≠ []) :
    Lined (text ++ last) (lines ++ [last]) := by
  induction ended with
  | nil => exact .last some
  | cons isEnd _ ih =>
      rw [List.append_assoc, List.append_assoc]
      exact .cons isEnd ih

theorem Ended.lined_nil {text : List Char} {lines : List (List Char)}
    (ended : Ended text lines) : Lined text lines := by
  induction ended with
  | nil => exact .nil
  | cons isEnd _ ih => exact .cons isEnd ih

/-- A line of a text, with what is above it and below it. -/
theorem Lined.split {text line : List Char} {above below : List (List Char)}
    (lined : Lined text (above ++ line :: below)) :
    ∃ upper mark lower, text = upper ++ (line ++ (mark ++ lower)) ∧ Ended upper above ∧
      (mark = [] ∧ lower = [] ∧ below = [] ∨ IsLineEnd mark ∧ Lined lower below) := by
  induction above generalizing text with
  | nil =>
      cases lined with
      | last some => exact ⟨[], [], [], by simp, .nil, .inl ⟨rfl, rfl, rfl⟩⟩
      | cons isEnd rest => exact ⟨[], _, _, rfl, .nil, .inr ⟨isEnd, rest⟩⟩
  | cons first above ih =>
      generalize whole : first :: above ++ line :: below = lines at lined
      cases lined with
      | nil => cases whole
      | last some =>
          have nothing := (List.cons.inj whole).2
          simp at nothing
      | @cons head mark rest lines isEnd others =>
          obtain ⟨rfl, rfl⟩ := List.cons.inj whole
          obtain ⟨upper, lineEnd, lower, rfl, ended, behind⟩ := ih others
          exact ⟨first ++ (mark ++ upper), lineEnd, lower, by simp, .cons isEnd ended, behind⟩

end Text

namespace ToolInvocation

open Text (isBlank visible)

/-! ## Tokens in a line -/

/-- A text that consists of tokens with blanks around them. Only a semicolon may stand directly
behind another token. -/
inductive Laid : List Char → List Token → Prop where
  | nil {gap : List Char} : gap.all isBlank → Laid gap []
  | cons {gap token rest : List Char} {tokens : List Token} :
      gap.all isBlank → token ≠ [] → visible token = token →
      (∀ c ∈ rest.head?, isBlank c) ∨ tokens.head? = some [';'] →
      Laid rest tokens → Laid (gap ++ (token ++ rest)) (token :: tokens)

theorem laid_nil_iff {text : List Char} : Laid text [] ↔ text.all isBlank := by
  constructor
  · intro laid
    cases laid with
    | nil blank => exact blank
  · exact .nil

theorem Laid.ne_nil {text : List Char} {tokens : List Token} (laid : Laid text tokens)
    (some : tokens ≠ []) : text ≠ [] := by
  cases laid with
  | nil => exact absurd rfl some
  | cons _ nonempty => simp [nonempty]

private theorem Laid.blank {text : List Char} {tokens : List Token} {c : Char} (isBlank : isBlank c)
    (laid : Laid text tokens) : Laid (c :: text) tokens := by
  cases laid with
  | nil blank => exact .nil (by simp [isBlank, blank])
  | @cons gap token rest tokens blank some clean border others =>
      have wider : (c :: gap).all Text.isBlank := by simp [isBlank, blank]
      exact .cons wider some clean border others

private theorem Laid.append_blank {text gap : List Char} {tokens : List Token}
    (laid : Laid text tokens) (blank : gap.all isBlank) : Laid (text ++ gap) tokens := by
  induction laid with
  | nil before => exact .nil (by simp [before, blank])
  | @cons gap' token rest tokens before some clean border _ ih =>
      rw [List.append_assoc, List.append_assoc]
      refine .cons before some clean (border.imp_left fun blanks c member => ?_) ih
      cases rest with
      | nil => exact List.all_eq_true.mp blank c (List.mem_of_mem_head? member)
      | cons head rest => exact blanks c member

theorem laid_words {line : List Char} {pieces : List (List Char)}
    (cuts : Text.splitBy isBlank line = pieces) :
    Laid line (pieces.filter fun piece => !piece.isEmpty) := by
  induction pieces generalizing line with
  | nil => exact absurd cuts (Text.splitBy_ne_nil _ line)
  | cons piece pieces ih =>
      obtain ⟨clean, whole⟩ := Text.splitBy_eq_cons cuts
      have unbroken : visible piece = piece := Text.visible_eq_self_iff.mpr clean
      rw [List.filter_cons]
      obtain ⟨rfl, rfl⟩ | ⟨mark, rest, isCut, rfl, more⟩ := whole
      · split
        case isTrue some =>
          have noMore : Laid [] [] := .nil rfl
          have single : Laid ([] ++ (line ++ [])) [line] :=
            .cons rfl (by simpa using some) unbroken (.inl (by simp)) noMore
          simpa using single
        case isFalse nothing =>
          have empty : line = [] := by simpa using nothing
          rw [empty]
          exact .nil rfl
      · have others := (ih more).blank isCut
        split
        case isTrue some =>
          rw [← List.nil_append (piece ++ mark :: rest)]
          exact .cons rfl (by simpa using some) unbroken (.inl (by simpa using isCut)) others
        case isFalse nothing =>
          have empty : piece = [] := by simpa using nothing
          rw [empty]
          exact others

private theorem splitSemicolon_cases (token : Token) :
    splitSemicolon token = [token] ∨
      ∃ stem, stem ≠ [] ∧ token = stem ++ [';'] ∧ splitSemicolon token = [stem, [';']] := by
  have flat := flatten_splitSemicolon token
  unfold splitSemicolon at flat ⊢
  split at flat
  case h_1 rest same =>
    split at flat
    case isTrue nothing => exact .inl (if_pos nothing)
    case isFalse some =>
      rw [if_neg some]
      exact .inr ⟨rest.reverse, by simpa using some, by simpa using flat.symm, rfl⟩
  case h_2 => exact .inl rfl

private theorem Laid.splitSemicolons {text : List Char} {words : List Token}
    (laid : Laid text words) :
    Laid text (words.flatMap splitSemicolon) := by
  induction laid with
  | nil blank => exact .nil blank
  | @cons gap token rest words blank some clean border _ ih =>
      have onward : (∀ c ∈ rest.head?, isBlank c) ∨
          (words.flatMap splitSemicolon).head? = Option.some [';'] := by
        refine border.imp_right fun semicolon => ?_
        obtain ⟨others, rfl⟩ := List.head?_eq_some_iff.mp semicolon
        rfl
      rw [List.flatMap_cons]
      rcases splitSemicolon_cases token with same | ⟨stem, nonempty, rfl, same⟩
      · rw [same]
        exact .cons blank some clean onward ih
      · rw [same, List.append_assoc]
        have stemClean : visible stem = stem := by
          rw [Text.visible_eq_self_iff] at clean ⊢
          exact fun c member => clean c (List.mem_append_left _ member)
        have behind : Laid ([';'] ++ rest) ([';'] :: words.flatMap splitSemicolon) := by
          rw [← List.nil_append ([';'] ++ rest)]
          exact .cons rfl (by simp) rfl onward ih
        exact .cons blank nonempty stemClean (.inr rfl) behind

theorem laid_tokens (line : List Char) : Laid line (tokens line) :=
  (laid_words rfl).splitSemicolons

/-- Between two tokens a text may be cut so that all blanks between them go to the second part. -/
theorem Laid.split {text : List Char} {first second : List Token}
    (laid : Laid text (first ++ second)) :
    ∃ front back, text = front ++ back ∧ Laid front first ∧ Laid back second ∧
      (∀ c ∈ front.getLast?, isBlank c = false) ∧
      (first ≠ [] → (∀ c ∈ back.head?, isBlank c) ∨ second.head? = some [';']) := by
  induction first generalizing text with
  | nil => exact ⟨[], text, rfl, .nil rfl, laid, by simp, by simp⟩
  | cons token first ih =>
      rw [List.cons_append] at laid
      cases laid with
      | @cons gap _ rest _ blank some clean border others =>
          obtain ⟨front, back, rfl, frontLaid, backLaid, tight, onward⟩ := ih others
          have tokenClean := Text.visible_eq_self_iff.mp clean
          -- Without further tokens nothing of the rest belongs to the first part.
          have alone : first = [] → front = [] := by
            rintro rfl
            have allBlank := laid_nil_iff.mp frontLaid
            by_contra nonempty
            have last := tight _ (List.getLast?_eq_some_getLast nonempty)
            rw [List.all_eq_true.mp allBlank _ (List.getLast_mem nonempty)] at last
            cases last
          refine ⟨gap ++ (token ++ front), back, by simp, ?_, backLaid, ?_, fun _ => ?_⟩
          · refine .cons blank some clean ?_ frontLaid
            cases first with
            | nil => rw [alone rfl]; simp
            | cons next first =>
                refine border.imp_left fun blanks c member => blanks c ?_
                cases front with
                | nil => cases member
                | cons head front => exact member
          · intro c member
            rw [List.getLast?_append_of_ne_nil _ (by simp [some])] at member
            by_cases nothing : front = []
            · rw [nothing, List.append_nil] at member
              exact tokenClean c (List.mem_of_getLast? member)
            · rw [List.getLast?_append_of_ne_nil _ nothing] at member
              exact tight c member
          · cases first with
            | nil =>
                rw [alone rfl] at border
                exact border
            | cons next first => exact onward (by simp)

/-! ## The place of a command -/

namespace CommandSite

variable {script : String}

/-- The text of a script around a command: the lines above with their ends, the text in front of the
separator, the command, the text behind the separator after it, and the lines below. -/
structure Place (site : CommandSite script) where
  above : List Char
  before : List Char
  gapBefore : List Char
  command : List Char
  gapAfter : List Char
  after : List Char
  lineEnd : List Char
  below : List Char
  script_eq : script.toList =
    above ++ (before ++ (site.separatorBefore ++ gapBefore)) ++ (command ++
      (gapAfter ++ site.separatorAfter ++ (after ++ (lineEnd ++ below))))
  above_ended : Text.Ended above site.above
  before_laid : Laid before site.before.dropLast
  gapBefore_blank : gapBefore.all isBlank
  gapBefore_ne_nil : site.before ≠ [] → gapBefore ≠ []
  command_laid : Laid command site.command
  command_starts : ∀ c ∈ command.head?, isBlank c = false
  command_ends : ∀ c ∈ command.getLast?, isBlank c = false
  gapAfter_blank : gapAfter.all isBlank
  after_laid : Laid after (site.after.drop 1)
  below_lined : lineEnd = [] ∧ below = [] ∧ site.below = [] ∨
    Text.IsLineEnd lineEnd ∧ Text.Lined below site.below

private theorem exists_front (site : CommandSite script) {front : List Char}
    (laid : Laid front site.before) (tight : ∀ c ∈ front.getLast?, isBlank c = false) :
    ∃ before, front = before ++ site.separatorBefore ∧ Laid before site.before.dropLast := by
  unfold separatorBefore
  rcases List.eq_nil_or_concat site.before with nothing | ⟨init, token, same⟩
  · rw [nothing] at laid ⊢
    exact ⟨front, by simp, laid⟩
  · rw [same, List.concat_eq_append] at laid ⊢
    obtain ⟨before, behind, rfl, beforeLaid, tokenLaid, -, -⟩ := laid.split
    cases tokenLaid with
    | @cons gap _ rest _ blank some _ _ nothing =>
        cases nothing with
        | nil restBlank =>
            have empty : rest = [] := by
              by_contra nonempty
              have last := tight (rest.getLast nonempty) (by
                rw [← List.append_assoc, ← List.append_assoc,
                  List.getLast?_append_of_ne_nil _ nonempty]
                exact List.getLast?_eq_some_getLast nonempty)
              rw [List.all_eq_true.mp restBlank _ (List.getLast_mem nonempty)] at last
              cases last
            subst empty
            refine ⟨before ++ gap, by simp, ?_⟩
            rw [List.dropLast_concat]
            exact beforeLaid.append_blank blank

private theorem exists_back (site : CommandSite script) {back : List Char}
    (laid : Laid back site.after) :
    ∃ gap after, back = gap ++ (site.separatorAfter ++ after) ∧ gap.all isBlank ∧
      Laid after (site.after.drop 1) := by
  unfold separatorAfter
  generalize site.after = tokens at laid
  cases laid with
  | nil blank => exact ⟨back, [], by simp, blank, .nil rfl⟩
  | @cons gap token rest tokens blank some clean border others =>
      exact ⟨gap, rest, rfl, blank, others⟩

/-- A command with nothing around it but the blanks in front of it. -/
theorem exists_command (site : CommandSite script) {middle : List Char}
    (laid : Laid middle site.command) (tight : ∀ c ∈ middle.getLast?, isBlank c = false) :
    ∃ gap command, middle = gap ++ command ∧ gap.all isBlank ∧ command ≠ [] ∧
      Laid command site.command ∧ (∀ c ∈ command.head?, isBlank c = false) ∧
      ∀ c ∈ command.getLast?, isBlank c = false := by
  have some := site.stands.someToken
  generalize site.command = tokens at laid some
  cases laid with
  | nil => exact absurd rfl some
  | @cons gap token rest tokens blank nonempty clean border others =>
      have here : Laid ([] ++ (token ++ rest)) (token :: tokens) :=
        .cons rfl nonempty clean border others
      refine ⟨gap, token ++ rest, rfl, blank, by simp [nonempty], here, ?_, ?_⟩
      · intro c member
        rw [List.head?_append_of_ne_nil _ nonempty] at member
        exact Text.visible_eq_self_iff.mp clean c (List.mem_of_mem_head? member)
      · intro c member
        refine tight c ?_
        rwa [List.getLast?_append_of_ne_nil _ (by simp [nonempty])]

/-- Every command of a script has a place in its text. -/
theorem exists_place (site : CommandSite script) : Nonempty site.Place := by
  have lined := Text.lined_lines script.toList
  rw [site.lines_eq] at lined
  obtain ⟨upper, lineEnd, lower, text, ended, behind⟩ := lined.split
  have laid := laid_tokens site.line
  rw [site.stands.split] at laid
  obtain ⟨front, onward, line, frontLaid, onwardLaid, frontTight, border⟩ := laid.split
  obtain ⟨middle, back, rfl, middleLaid, backLaid, middleTight, -⟩ := onwardLaid.split
  obtain ⟨before, rfl, beforeLaid⟩ := site.exists_front frontLaid frontTight
  obtain ⟨gap, command, rfl, gapBlank, some, commandLaid, starts, ends⟩ :=
    site.exists_command middleLaid middleTight
  obtain ⟨gapAfter, after, rfl, gapAfterBlank, afterLaid⟩ := site.exists_back backLaid
  -- Behind a separator a command stands apart, since it does not start with a semicolon.
  have apart : site.before ≠ [] → gap ≠ [] := by
    rintro separated rfl
    rcases border separated with blank | semicolon
    · obtain ⟨c, rest, rfl⟩ := List.exists_cons_of_ne_nil some
      have first : isBlank c := blank c rfl
      rw [starts c rfl] at first
      cases first
    · rw [List.head?_append_of_ne_nil _ site.stands.someToken] at semicolon
      have separates := site.stands.whole _ (List.mem_of_mem_head? semicolon)
      cases separates
  refine ⟨⟨upper, before, gap, command, gapAfter, after, lineEnd, lower, ?_, ended, beforeLaid,
    gapBlank, apart, commandLaid, starts, ends, gapAfterBlank, afterLaid, behind⟩⟩
  rw [text, line]
  simp only [List.append_assoc]

theorem not_precedes {site : CommandSite script} (above : site.above = [])
    (before : site.before = []) (other : CommandSite script) : ¬other.Precedes site := by
  rintro (higher | ⟨-, left⟩)
  · exact Nat.not_lt_zero _ (above ▸ higher)
  · exact Nat.not_lt_zero _ (before ▸ left)

/-! ## What is found at a command -/

/-- A tool finds an invocation at a command: no earlier command qualifies, and the texts around it
are made of the other lines and of the tokens of its line. -/
structure Yields (site : CommandSite script) (tool : Tool) (invocation : ToolInvocation) :
    Prop where
  qualifies : Qualifies tool site.command
  first : ∀ other : CommandSite script, Qualifies tool other.command → ¬other.Precedes site
  before : invocation.before = joinLines (site.above ++ remainder site.before.dropLast)
  arguments : arguments? tool site.command = some invocation.arguments.toList
  after : invocation.after = joinLines (remainder (site.after.drop 1) ++ site.below)

theorem exists_yields {tool : Tool} {invocation : ToolInvocation}
    (found : tool.findInvocation? script = some invocation) :
    ∃ site : CommandSite script, site.Yields tool invocation := by
  obtain ⟨⟨above, found, below⟩, answer, rfl⟩ := Option.map_eq_some_iff.mp found
  obtain ⟨site, rfl, rfl, first, earliest⟩ := exists_site_of_findLine answer
  refine ⟨site, ?_, earliest, ?_, ?_, ?_⟩
  · by_contra other
    have arguments := first.arguments
    rw [arguments?_eq_none_iff.mpr other] at arguments
    cases arguments
  · exact congrArg (fun tokens => joinLines (site.above ++ remainder tokens)) first.before_eq
  · rw [String.toList_ofList]
    exact first.arguments
  · exact congrArg (fun tokens => joinLines (remainder tokens ++ site.below)) first.after_eq

end CommandSite

end ToolInvocation

end TracePipeline
