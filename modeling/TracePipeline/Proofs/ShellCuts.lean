import TracePipeline.Proofs.ShellQuoting

/-! Cuts of a script and the quotes of the shell. An invocation is cut out of a script by its
tokens, which know of blanks only. It is a whole simple command, cut out between quotes, just if the
text found in front of it and the command itself keep their quotes closed, no operator is glued to a
word of the command, and no line goes on into it or behind it. -/

set_option autoImplicit false

namespace TracePipeline

open Text (isBlank)

namespace ToolInvocation

/-! ## Cuts between quotes -/

namespace CommandSite

variable {script : String} {site : CommandSite script}

namespace Place

def front (place : site.Place) : List Char :=
  place.above ++ (place.before ++ (site.separatorBefore ++ place.gapBefore))

/-- A command starts a line that only goes on the line above, which ends in a backslash. -/
def ContinuesAbove (place : site.Place) : Prop :=
  site.before = [] ∧ ∃ text mark, place.above = text ++ mark ∧ Text.IsLineEnd mark ∧
    (Quoting.bare.after text).isEscaped

/-- The line of a command ends in a backslash that makes it go on below. -/
def ContinuedBelow (place : site.Place) : Prop :=
  place.lineEnd ≠ [] ∧
    (Quoting.bare.after (place.front ++ (place.command ++
      (place.gapAfter ++ site.separatorAfter ++ place.after)))).isEscaped

/-- A whole simple command is cut out, between quotes: it holds no operator, no cut is inside quotes
or between lines that belong together, and the texts around it keep their quotes closed. -/
structure Clean (place : site.Place) (invocation : ToolInvocation) : Prop where
  simple : hasOperator (Quoting.bare.after place.front) false place.command = false
  starts : (Quoting.bare.after place.front).isOutside
  ends : (Quoting.bare.after (place.front ++ place.command)).isOutside
  fresh : ¬place.ContinuesAbove
  whole : ¬place.ContinuedBelow
  balanced : Balanced script.toList →
    Balanced invocation.before.toList ∧ Balanced invocation.after.toList

end Place

theorem plain_of_mem_separators {token : Token} (some : token ∈ [[], "&&".toList, ";".toList]) :
    '\'' ∉ token ∧ '"' ∉ token ∧ (∀ c ∈ token.head?, c ≠ '\\') ∧
      Quoting.bare.after token = .bare := by
  simp only [List.mem_cons, List.not_mem_nil, or_false] at some
  rcases some with rfl | rfl | rfl <;> exact ⟨by decide, by decide, by simp, rfl⟩

private theorem separatorBefore_mem (site : CommandSite script) :
    site.separatorBefore ∈ [[], "&&".toList, ";".toList] :=
  mem_separators site.stands.starts

theorem separatorAfter_mem (site : CommandSite script) :
    site.separatorAfter ∈ [[], "&&".toList, ";".toList] :=
  mem_separators site.stands.ends

private theorem after_eq_nil_of_separatorAfter (nothing : site.separatorAfter = []) :
    site.after = [] := by
  have ends := site.stands.ends
  unfold separatorAfter at nothing
  cases tokens : site.after with
  | nil => rfl
  | cons token rest =>
      rw [tokens] at nothing ends
      have empty : token = [] := nothing
      have separates := ends token rfl
      rw [empty] at separates
      cases separates

namespace Place

variable (place : site.Place)

private theorem script_eq_front : script.toList = place.front ++ (place.command ++
    (place.gapAfter ++ site.separatorAfter ++ (place.after ++ (place.lineEnd ++ place.below)))) := by
  rw [place.script_eq, front]

private theorem front_ends : ∀ c ∈ place.front.getLast?, isBlank c := by
  have ended : ∀ {text : List Char} {lines : List (List Char)}, Text.Ended text lines →
      ∀ c ∈ text.getLast?, isBlank c := by
    intro text lines ended
    induction ended with
    | nil => simp
    | @cons line mark rest lines isEnd others ih =>
        cases rest with
        | nil => rcases isEnd with rfl | rfl <;> simp <;> rfl
        | cons c rest =>
            rw [← List.append_assoc, List.getLast?_append_of_ne_nil _ (by simp)]
            exact ih
  have blankEnds : ∀ {gap : List Char}, gap.all isBlank → ∀ c ∈ gap.getLast?, isBlank c :=
    fun blank c member => List.all_eq_true.mp blank c (List.mem_of_getLast? member)
  rw [front]
  by_cases gap : place.gapBefore = []
  · have first : site.before = [] := by
      by_contra some
      exact place.gapBefore_ne_nil some gap
    have blank : place.before.all isBlank := by
      have laid := place.before_laid
      rw [first] at laid
      exact laid_nil_iff.mp laid
    rw [gap, separatorBefore, first]
    cases before : place.before with
    | nil => simpa using ended place.above_ended
    | cons c rest =>
        rw [List.getLast?_append_of_ne_nil _ (by simp)]
        rw [before] at blank
        simpa using blankEnds blank
  · rw [← List.append_assoc, ← List.append_assoc, List.getLast?_append_of_ne_nil _ gap]
    exact blankEnds place.gapBefore_blank

/-- In front of a command a shell is outside quotes just if it reads plain text there. -/
theorem after_front_eq_bare (outside : (Quoting.bare.after place.front).isOutside) :
    Quoting.bare.after place.front = .bare := by
  have settled : (Quoting.bare.after place.front).next ' ' = Quoting.bare.after place.front := by
    have ends := place.front_ends
    rcases List.eq_nil_or_concat place.front with nothing | ⟨rest, c, same⟩
    · rw [nothing]
      rfl
    · rw [same, List.concat_eq_append] at ends ⊢
      rw [Quoting.after_append, Quoting.after_cons, Quoting.after_nil,
        Quoting.next_of_blank (ends c (by simp)), Quoting.next_blank_blank]
  generalize Quoting.bare.after place.front = quoting at outside settled
  cases quoting with
  | bare => rfl
  | escaped => cases settled
  | single => cases outside
  | double => cases outside
  | doubleEscaped => cases outside

variable {tool : Tool} {invocation : ToolInvocation}

private theorem quotesAlike_before (yields : site.Yields tool invocation) :
    QuotesAlike invocation.before.toList (place.above ++ place.before) := by
  rw [yields.before]
  refine (quotesAlike_joinLines _).trans (QuotesAlike.symm ?_)
  have laid := place.before_laid
  unfold remainder
  split
  case isTrue nothing =>
    rw [List.isEmpty_iff.mp nothing] at laid
    rw [List.append_nil]
    exact (QuotesAlike.append_blank (laid_nil_iff.mp laid) _).trans
      place.above_ended.lined_nil.quotesAlike
  case isFalse some =>
    have nonempty : place.before ≠ [] := laid.ne_nil (by simpa using some)
    have lined := place.above_ended.lined nonempty
    have same : List.Forall₂ QuotesAlike site.above site.above :=
      List.forall₂_same.mpr fun line _ => .refl line
    refine lined.quotesAlike.trans (QuotesAlike.intercalate ?_)
    exact List.rel_append same (.cons laid.quotesAlike .nil)

private theorem quotesAlike_after (yields : site.Yields tool invocation) :
    QuotesAlike invocation.after.toList (place.after ++ (place.lineEnd ++ place.below)) := by
  rw [yields.after]
  refine (quotesAlike_joinLines _).trans (QuotesAlike.symm ?_)
  have laid := place.after_laid
  have same : List.Forall₂ QuotesAlike site.below site.below :=
    List.forall₂_same.mpr fun line _ => .refl line
  unfold remainder
  split
  case isTrue nothing =>
    rw [List.isEmpty_iff.mp nothing] at laid
    refine (QuotesAlike.blank_append (laid_nil_iff.mp laid) _).trans ?_
    rw [List.nil_append]
    obtain ⟨lineEnd, below, none⟩ | ⟨isEnd, lined⟩ := place.below_lined
    · rw [lineEnd, below, none]
      exact .refl _
    · exact (QuotesAlike.blank_append isEnd.blank _).trans lined.quotesAlike
  case isFalse some =>
    have lined : Text.Lined (place.after ++ (place.lineEnd ++ place.below))
        (place.after :: site.below) := by
      obtain ⟨lineEnd, below, none⟩ | ⟨isEnd, lined⟩ := place.below_lined
      · rw [lineEnd, below, none, List.append_nil, List.append_nil]
        exact .last (laid.ne_nil (by simpa using some))
      · exact .cons isEnd lined
    exact lined.quotesAlike.trans (QuotesAlike.intercalate (.cons laid.quotesAlike same))

/-- The text found in front of a command keeps its quotes closed just if the command does not start
inside quotes. -/
theorem balanced_before_iff (yields : site.Yields tool invocation) :
    Balanced invocation.before.toList ↔ (Quoting.bare.after place.front).isOutside := by
  have gap : '\'' ∉ place.gapBefore ∧ '"' ∉ place.gapBefore := by
    have blank := List.all_eq_true.mp place.gapBefore_blank
    constructor <;> intro member <;> cases blank _ member
  obtain ⟨noSingle, noDouble, -, -⟩ := plain_of_mem_separators site.separatorBefore_mem
  have noSingle' : '\'' ∉ site.separatorBefore ++ place.gapBefore := by simp [noSingle, gap.1]
  have noDouble' : '"' ∉ site.separatorBefore ++ place.gapBefore := by simp [noDouble, gap.2]
  have crossed := Quoting.isOutside_after noSingle' noDouble'
  rw [(place.quotesAlike_before yields).balanced_iff, Balanced, front, ← List.append_assoc,
    Quoting.after_append _ (place.above ++ place.before), crossed]

/-- Behind a command there is a blank, a separator or nothing. -/
theorem back_starts (c : Char) (first : c ∈ (place.gapAfter ++ site.separatorAfter ++
    (place.after ++ (place.lineEnd ++ place.below))).head?) : c ≠ '\'' ∧ c ≠ '"' ∧ c ≠ '\\' := by
  have blankFirst (isBlank : isBlank c) : c ≠ '\'' ∧ c ≠ '"' ∧ c ≠ '\\' := by
    refine ⟨?_, ?_, ?_⟩ <;> rintro rfl <;> cases isBlank
  have ofGap {gap rest : List Char} (blank : gap.all isBlank)
      (first : c ∈ (gap ++ rest).head?) (some : gap ≠ []) : isBlank c := by
    rw [List.head?_append_of_ne_nil _ some] at first
    exact List.all_eq_true.mp blank c (List.mem_of_mem_head? first)
  by_cases gap : place.gapAfter = []
  · rw [gap, List.nil_append] at first
    by_cases separator : site.separatorAfter = []
    · have blank : place.after.all isBlank := by
        have laid := place.after_laid
        rw [site.after_eq_nil_of_separatorAfter separator] at laid
        exact laid_nil_iff.mp laid
      rw [separator, List.nil_append] at first
      by_cases after : place.after = []
      · rw [after, List.nil_append] at first
        obtain ⟨lineEnd, below, -⟩ | ⟨isEnd, -⟩ := place.below_lined
        · rw [lineEnd, below] at first
          cases first
        · have some : place.lineEnd ≠ [] := by
            rcases isEnd with same | same <;> simp [same]
          exact blankFirst (ofGap isEnd.blank first some)
      · exact blankFirst (ofGap blank first after)
    · rw [List.head?_append_of_ne_nil _ separator] at first
      obtain ⟨noSingle, noDouble, noSlash, -⟩ := plain_of_mem_separators site.separatorAfter_mem
      have member := List.mem_of_mem_head? first
      exact ⟨fun same => noSingle (same ▸ member), fun same => noDouble (same ▸ member),
        noSlash c first⟩
  · rw [List.append_assoc] at first
    exact blankFirst (ofGap place.gapAfter_blank first gap)

/-- When a command ends outside quotes, the text found behind it keeps its quotes closed just if the
script does. -/
theorem balanced_after_iff (yields : site.Yields tool invocation)
    (ends : (Quoting.bare.after (place.front ++ place.command)).isOutside) :
    Balanced invocation.after.toList ↔ Balanced script.toList := by
  have gap : Quoting.bare.after (place.gapAfter ++ site.separatorAfter) = .bare := by
    obtain ⟨-, -, -, separator⟩ := plain_of_mem_separators site.separatorAfter_mem
    rw [Quoting.after_append, Quoting.after_of_blank place.gapAfter_blank rfl, separator]
  have starts := place.back_starts
  have whole := place.script_eq_front
  rw [← List.append_assoc] at whole
  rw [(place.quotesAlike_after yields).balanced_iff, Balanced, Balanced, whole,
    Quoting.after_append _ (place.front ++ place.command)]
  generalize Quoting.bare.after (place.front ++ place.command) = quoting at ends
  have onward : Quoting.bare.after (place.after ++ (place.lineEnd ++ place.below)) =
      Quoting.bare.after (place.gapAfter ++ site.separatorAfter ++
        (place.after ++ (place.lineEnd ++ place.below))) := by
    rw [Quoting.after_append _ (place.gapAfter ++ site.separatorAfter), gap]
  rw [onward]
  generalize place.gapAfter ++ site.separatorAfter ++
    (place.after ++ (place.lineEnd ++ place.below)) = back at starts
  cases quoting with
  | bare => rfl
  | escaped =>
      -- A backslash at the end of the command takes one plain character.
      cases back with
      | nil => rfl
      | cons c back =>
          obtain ⟨noSingle, noDouble, noSlash⟩ := starts c rfl
          have same : Quoting.bare.next c = Quoting.escaped.next c := by
            simp [Quoting.next, noSingle, noDouble, noSlash]
          rw [Quoting.after_cons, Quoting.after_cons, same]
  | single => cases ends
  | double => cases ends
  | doubleEscaped => cases ends

theorem clean_iff (yields : site.Yields tool invocation) :
    place.Clean invocation ↔ ¬Glued place.command ∧ Balanced invocation.before.toList ∧
      Balanced place.command ∧ ¬place.ContinuesAbove ∧ ¬place.ContinuedBelow := by
  have glued := hasOperator_iff_glued yields.qualifies place.command_laid
  constructor
  · intro clean
    have bare := place.after_front_eq_bare clean.starts
    have simple := clean.simple
    have ends := clean.ends
    rw [bare] at simple
    rw [Quoting.after_append, bare] at ends
    refine ⟨?_, (place.balanced_before_iff yields).mpr clean.starts, ends, clean.fresh,
      clean.whole⟩
    rw [← glued, simple]
    simp
  · rintro ⟨unglued, before, command, fresh, whole⟩
    have starts := (place.balanced_before_iff yields).mp before
    have bare := place.after_front_eq_bare starts
    have ends : (Quoting.bare.after (place.front ++ place.command)).isOutside := by
      rw [Quoting.after_append, bare]
      exact command
    refine ⟨?_, starts, ends, fresh, whole, fun script => ⟨before, ?_⟩⟩
    · rw [bare]
      rw [← glued] at unglued
      simpa using unglued
    · exact (place.balanced_after_iff yields ends).mpr script

end Place

end CommandSite

end ToolInvocation

namespace Tool

open ToolInvocation

/-- A script that a tool finds an invocation in is cut at a command that has a place in its text.
The command is a whole simple one, and cut out between quotes, just if no operator is glued to one
of its words, the quotes in the text in front of it and in itself are closed, and no line goes on
into it or behind it. An operator that stands by itself is never in it. -/
theorem findInvocation?_clean_iff (tool : Tool) (script : String) (invocation : ToolInvocation)
    (found : tool.findInvocation? script = some invocation) :
    (∃ site : CommandSite script, site.Yields tool invocation ∧ Nonempty site.Place) ∧
      ∀ (site : CommandSite script) (place : site.Place), site.Yields tool invocation →
        (place.Clean invocation ↔
          ¬Glued place.command ∧ Balanced invocation.before.toList ∧ Balanced place.command ∧
            ¬place.ContinuesAbove ∧ ¬place.ContinuedBelow) := by
  obtain ⟨site, yields⟩ := CommandSite.exists_yields found
  exact ⟨⟨site, yields, site.exists_place⟩, fun _ place yields => place.clean_iff yields⟩

def quotedList : String :=
  "./mvnw -B \"-Dlist=a;b\" package; echo 'it is done'"

def quotedListSite : CommandSite quotedList where
  above := []
  line := quotedList.toList
  below := []
  before := []
  command := ["./mvnw".toList, "-B".toList, "\"-Dlist=a;b\"".toList, "package".toList]
  after := [[';'], "echo".toList, "'it".toList, "is".toList, "done'".toList]
  lines_eq := by decide
  stands := ⟨by decide, by decide, by decide, by decide, by decide⟩

def quotedListPlace : quotedListSite.Place where
  above := []
  before := []
  gapBefore := []
  command := "./mvnw -B \"-Dlist=a;b\" package".toList
  gapAfter := []
  after := " echo 'it is done'".toList
  lineEnd := []
  below := []
  script_eq := by decide
  above_ended := .nil
  before_laid := .nil rfl
  gapBefore_blank := rfl
  gapBefore_ne_nil := by simp [quotedListSite]
  command_laid := laid_tokens "./mvnw -B \"-Dlist=a;b\" package".toList
  command_starts := by simp; rfl
  command_ends := by simp; rfl
  gapAfter_blank := rfl
  after_laid := laid_tokens " echo 'it is done'".toList
  below_lined := .inl ⟨rfl, rfl, rfl⟩

theorem clean_quotedList :
    maven.findInvocation? quotedList =
        some ⟨"", "-B \"-Dlist=a;b\" package", "echo 'it is done'"⟩ ∧
      quotedListPlace.Clean ⟨"", "-B \"-Dlist=a;b\" package", "echo 'it is done'"⟩ := by
  have found : maven.findInvocation? quotedList =
      some ⟨"", "-B \"-Dlist=a;b\" package", "echo 'it is done'"⟩ := by
    decide +kernel
  have yields : quotedListSite.Yields maven
      ⟨"", "-B \"-Dlist=a;b\" package", "echo 'it is done'"⟩ := {
    qualifies := ⟨by decide, "./mvnw".toList, _, rfl, .inl (by decide)⟩
    first := fun other _ => CommandSite.not_precedes rfl rfl other
    before := by decide
    arguments := by decide
    after := by decide }
  have unglued : ¬Glued quotedListPlace.command := by
    rintro ⟨front, word, back, isWord, -, -, inside⟩
    have none : hasOperator .bare false quotedListPlace.command = false := by decide
    rw [hasOperator_of_word isWord inside] at none
    cases none
  have clean := (findInvocation?_clean_iff maven quotedList _ found).2 _ quotedListPlace yields
  refine ⟨found, clean.mpr ⟨unglued, rfl, rfl, ?_, ?_⟩⟩
  · rintro ⟨-, text, mark, nothing, isEnd, -⟩
    obtain ⟨rfl, rfl⟩ := List.append_eq_nil_iff.mp nothing.symm
    rcases isEnd with none | none <;> cases none
  · rintro ⟨continued, -⟩
    exact continued rfl

def gluedPipe : String :=
  "mvn test|tee build.log"

def gluedPipeSite : CommandSite gluedPipe where
  above := []
  line := gluedPipe.toList
  below := []
  before := []
  command := ["mvn".toList, "test|tee".toList, "build.log".toList]
  after := []
  lines_eq := by decide
  stands := ⟨by decide, by decide, by decide, by decide, by decide⟩

def gluedPipePlace : gluedPipeSite.Place where
  above := []
  before := []
  gapBefore := []
  command := gluedPipe.toList
  gapAfter := []
  after := []
  lineEnd := []
  below := []
  script_eq := by decide
  above_ended := .nil
  before_laid := .nil rfl
  gapBefore_blank := rfl
  gapBefore_ne_nil := by simp [gluedPipeSite]
  command_laid := laid_tokens gluedPipe.toList
  command_starts := by simp [gluedPipe]; rfl
  command_ends := by simp [gluedPipe]; rfl
  gapAfter_blank := rfl
  after_laid := .nil rfl
  below_lined := .inl ⟨rfl, rfl, rfl⟩

/-- A pipe without blanks around it does not keep its command in the script. -/
theorem not_clean_gluedPipe :
    ¬∀ (tool : Tool) (script : String) (invocation : ToolInvocation),
      tool.findInvocation? script = some invocation →
        ∀ (site : CommandSite script) (place : site.Place), site.Yields tool invocation →
          place.Clean invocation := by
  intro always
  have found : maven.findInvocation? gluedPipe = some ⟨"", "test|tee build.log", ""⟩ := by
    decide +kernel
  have yields : gluedPipeSite.Yields maven ⟨"", "test|tee build.log", ""⟩ := {
    qualifies := ⟨by decide, "mvn".toList, _, rfl, .inl (by decide)⟩
    first := fun other _ => CommandSite.not_precedes rfl rfl other
    before := by decide
    arguments := by decide
    after := by decide }
  have clean := always maven gluedPipe _ found gluedPipeSite gluedPipePlace yields
  have simple : hasOperator .bare false gluedPipe.toList = false := clean.simple
  revert simple
  decide

end Tool

end TracePipeline
