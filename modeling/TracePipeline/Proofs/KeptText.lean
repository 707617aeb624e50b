import Mathlib.Data.List.Infix
import Mathlib.Data.List.TakeWhile
import TracePipeline.Proofs.CommandPlaces
import TracePipeline.Proofs.Trimming

/-! What is kept of a script around an invocation. All other lines are kept as they are, but the
line of the command is put together from its tokens: the text is the one that was written, up to
blanks at its ends, just if single blanks stood between the tokens of that line and the line is not
set in. -/

set_option autoImplicit false

namespace TracePipeline

namespace Text

/-! ## Trimming -/

theorem Solid.of_visible {text : List Char} (some : text ≠ []) (clean : visible text = text) :
    Solid text where
  ne_nil := some
  starts c member := visible_eq_self_iff.mp clean c (List.mem_of_mem_head? member)
  ends c member := visible_eq_self_iff.mp clean c (List.mem_of_getLast? member)

theorem visible_trim (text : List Char) : visible (trim text) = visible text := by
  obtain blank | ⟨before, core, after, rfl, blank, solid, blank'⟩ := blank_or_solid text
  · rw [trim_of_blank blank, visible_eq_nil_iff.mpr blank, visible_nil]
  · rw [trim_of_solid blank solid blank', visible_append, visible_append,
      visible_eq_nil_iff.mpr blank, visible_eq_nil_iff.mpr blank', List.nil_append,
      List.append_nil]

/-- What stands behind a text may be exchanged for its trimmed form unless there is something to see
in front of it and blanks between. -/
theorem trim_append_eq_iff {text core : List Char} (outer : List Char) (solid : Solid core)
    (some : ¬text.all isBlank) :
    trim (outer ++ text) = trim (outer ++ core) ↔
      trim text = core ∧ (outer.all isBlank ∨ ∀ c ∈ text.head?, isBlank c = false) := by
  obtain blank | ⟨gap, inner, after, rfl, blank, solid', blank'⟩ := blank_or_solid text
  · exact absurd blank some
  have nothing : ([] : List Char).all isBlank := rfl
  rw [trim_of_solid blank solid' blank']
  obtain allBlank | ⟨before, start, between, rfl, blank'', solid'', -⟩ := blank_or_solid outer
  · have alone : trim (outer ++ core) = core := by
      rw [trim_blank_append allBlank]
      simpa using trim_of_solid nothing solid nothing
    rw [trim_blank_append allBlank, trim_of_solid blank solid' blank', alone]
    exact ⟨fun same => ⟨same, .inl allBlank⟩, And.left⟩
  · have visibleOuter : ¬(before ++ (start ++ between)).all isBlank := by
      simp [solid''.not_blank]
    have left : trim (before ++ (start ++ between) ++ (gap ++ (inner ++ after))) =
        start ++ (between ++ gap ++ inner) := by
      have whole := trim_of_solid blank'' (solid''.join (between ++ gap) solid') blank'
      simpa using whole
    have right : trim (before ++ (start ++ between) ++ core) = start ++ (between ++ core) := by
      have whole := trim_of_solid blank'' (solid''.join between solid) nothing
      simpa using whole
    rw [left, right, List.append_right_inj, List.append_assoc, List.append_right_inj,
      or_iff_right visibleOuter]
    -- The core starts with something to see, so it takes up no blanks in front of the inner text.
    cases gap with
    | nil =>
        rw [List.nil_append, List.nil_append, List.head?_append_of_ne_nil _ solid'.ne_nil]
        exact (and_iff_left solid'.starts).symm
    | cons c gap =>
        have isBlank := (Bool.and_eq_true_iff.mp (List.all_cons.symm.trans blank)).1
        constructor
        · rintro rfl
          have seen := solid.starts c rfl
          rw [isBlank] at seen
          cases seen
        · rintro ⟨-, seen⟩
          have seen := seen c rfl
          rw [isBlank] at seen
          cases seen

theorem trim_eq_append_iff {text core : List Char} (outer : List Char) (solid : Solid core)
    (some : ¬text.all isBlank) :
    trim (text ++ outer) = trim (core ++ outer) ↔
      trim text = core ∧ (outer.all isBlank ∨ ∀ c ∈ text.getLast?, isBlank c = false) := by
  have some' : ¬text.reverse.all isBlank := by simpa using some
  have mirrored := trim_append_eq_iff outer.reverse solid.reverse some'
  simpa only [← List.reverse_append, trim_reverse, List.reverse_inj, List.all_reverse,
    List.head?_reverse] using mirrored

/-! ## Parts of a text -/

/-- Up to blanks at its ends a text is the start of another one. -/
def TrimmedPrefix (part text : List Char) : Prop :=
  ∃ start, start <+: text ∧ trim start = trim part

/-- Up to blanks at its ends a text is the end of another one. -/
def TrimmedSuffix (part text : List Char) : Prop :=
  ∃ rest, rest <:+ text ∧ trim rest = trim part

/-- What can be seen of a start of a text settles it up to blanks. -/
theorem trimmedPrefix_iff {part start text : List Char} (isStart : start <+: text)
    (same : visible start = visible part) :
    TrimmedPrefix part text ↔ trim start = trim part := by
  refine ⟨?_, fun alike => ⟨start, isStart, alike⟩⟩
  -- Of two starts of a text one is the start of the other, and what is between them is blank.
  rintro ⟨other, isStart', alike⟩
  have seen : visible other = visible start := by
    rw [← visible_trim other, alike, visible_trim, same]
  rw [← alike]
  rcases List.prefix_or_prefix_of_prefix isStart isStart' with ⟨gap, rfl⟩ | ⟨gap, rfl⟩
  · have blank : gap.all isBlank := visible_eq_nil_iff.mp (by simpa using seen)
    exact (trim_append_blank start blank).symm
  · have blank : gap.all isBlank := visible_eq_nil_iff.mp (by simpa using seen)
    exact trim_append_blank other blank

theorem trimmedPrefix_reverse_iff {part text : List Char} :
    TrimmedPrefix part.reverse text.reverse ↔ TrimmedSuffix part text := by
  constructor
  · rintro ⟨start, isStart, alike⟩
    refine ⟨start.reverse, List.reverse_prefix.mp (by simpa using isStart), ?_⟩
    rw [trim_reverse, alike, trim_reverse, List.reverse_reverse]
  · rintro ⟨rest, isRest, alike⟩
    exact ⟨rest.reverse, List.reverse_prefix.mpr isRest, by rw [trim_reverse, trim_reverse, alike]⟩

theorem trimmedSuffix_iff {part rest text : List Char} (isRest : rest <:+ text)
    (same : visible rest = visible part) :
    TrimmedSuffix part text ↔ trim rest = trim part := by
  have seen : visible rest.reverse = visible part.reverse := by
    rw [visible, visible, List.filter_reverse, List.filter_reverse]
    exact congrArg List.reverse same
  rw [← trimmedPrefix_reverse_iff, trimmedPrefix_iff (List.reverse_prefix.mpr isRest) seen,
    trim_reverse, trim_reverse, List.reverse_inj]

/-! ## Lines with a line feed only -/

theorem IsLineEnd.eq_feed {mark line rest : List Char} (isEnd : IsLineEnd mark)
    (feeds : ¬['\r', '\n'] <:+: line ++ (mark ++ rest)) :
    mark = ['\n'] ∧ ¬['\r', '\n'] <:+: rest := by
  refine ⟨isEnd.resolve_right ?_, fun inside => feeds ?_⟩
  · rintro rfl
    exact feeds (List.infix_append' _ _ _)
  · exact inside.trans ((List.suffix_append _ _).isInfix.trans (List.suffix_append _ _).isInfix)

private theorem Ended.intercalate_eq {text : List Char} {lines : List (List Char)}
    (ended : Ended text lines) (feeds : ¬['\r', '\n'] <:+: text) (last : List Char) :
    ['\n'].intercalate (lines ++ [last]) = text ++ last := by
  induction ended with
  | nil => simp
  | cons isEnd _ ih =>
      obtain ⟨rfl, others⟩ := isEnd.eq_feed feeds
      rw [List.cons_append, List.intercalate_cons_of_ne_nil (by simp), ih others]
      simp

/-- Lines put together again lack only blanks at the end of their text. -/
theorem Lined.exists_gap {text : List Char} {lines : List (List Char)} (lined : Lined text lines)
    (feeds : ¬['\r', '\n'] <:+: text) :
    ∃ gap, gap.all isBlank ∧ text = ['\n'].intercalate lines ++ gap := by
  induction lined with
  | nil => exact ⟨[], rfl, rfl⟩
  | last => exact ⟨[], rfl, by simp⟩
  | @cons line mark rest lines isEnd others ih =>
      obtain ⟨rfl, fewer⟩ := isEnd.eq_feed feeds
      cases lines with
      | nil =>
          cases others
          exact ⟨['\n'], rfl, by simp⟩
      | cons next lines =>
          obtain ⟨gap, blank, rfl⟩ := ih fewer
          exact ⟨gap, blank, by simp [List.intercalate_cons_cons]⟩

end Text

namespace ToolInvocation

open Text (isBlank visible trim Solid TrimmedPrefix TrimmedSuffix)

/-! ## Texts made of tokens -/

theorem Laid.solid {text : List Char} {tokens : List Token} (laid : Laid text tokens)
    (some : tokens ≠ []) : Solid (joinTokens tokens) := by
  induction laid with
  | nil => exact absurd rfl some
  | @cons gap token rest tokens _ nonempty clean _ _ ih =>
      have here := Solid.of_visible nonempty clean
      cases tokens with
      | nil => simpa [joinTokens] using here
      | cons next tokens =>
          rw [joinTokens, List.intercalate_cons_cons, List.append_assoc]
          exact here.join _ (ih (by simp))

theorem Laid.visible_joinTokens {text : List Char} {tokens : List Token}
    (laid : Laid text tokens) : visible (joinTokens tokens) = visible text := by
  rw [ToolInvocation.visible_joinTokens]
  induction laid with
  | nil blank => exact (Text.visible_eq_nil_iff.mpr blank).symm
  | cons blank _ _ _ _ ih =>
      rw [List.flatMap_cons, ih, Text.visible_append, Text.visible_append,
        Text.visible_eq_nil_iff.mpr blank, List.nil_append]

theorem Laid.not_blank {text : List Char} {tokens : List Token} (laid : Laid text tokens)
    (some : tokens ≠ []) : ¬text.all isBlank := by
  rw [← Text.visible_eq_nil_iff, ← laid.visible_joinTokens, Text.visible_eq_nil_iff]
  exact (laid.solid some).not_blank

theorem trim_joinLines (lines : List (List Char)) :
    trim (joinLines lines).toList = trim (['\n'].intercalate lines) := by
  simp only [joinLines]
  split
  case isTrue blank => rw [Text.trim_of_blank blank]; rfl
  case isFalse => rw [String.toList_ofList]

/-! ## The text around a command -/

namespace CommandSite.Place

variable {script : String} {site : CommandSite script}

/-- The text in front of a command on its line is written with single blanks between its tokens, and
not set in when there is something to see above. -/
def PlainBefore (place : site.Place) : Prop :=
  site.before.dropLast = [] ∨
    trim place.before = joinTokens site.before.dropLast ∧
      (place.above.all isBlank ∨ ∀ c ∈ place.before.head?, isBlank c = false)

/-- The text behind a command on its line is written with single blanks between its tokens, and none
at its end when there is something to see below. -/
def PlainAfter (place : site.Place) : Prop :=
  site.after.drop 1 = [] ∨
    trim place.after = joinTokens (site.after.drop 1) ∧
      ((place.lineEnd ++ place.below).all isBlank ∨ ∀ c ∈ place.after.getLast?, isBlank c = false)

variable {tool : Tool} {invocation : ToolInvocation} (place : site.Place)

theorem before_prefix : place.above ++ place.before <+: script.toList := by
  rw [place.script_eq]
  refine ((List.prefix_append_right_inj _).mpr ?_).trans (List.prefix_append _ _)
  exact List.prefix_append _ _

theorem after_suffix : place.after ++ (place.lineEnd ++ place.below) <:+ script.toList := by
  rw [place.script_eq]
  exact .trans (List.suffix_append _ _) (.trans (List.suffix_append _ _) (List.suffix_append _ _))

/-- The lines above a command are found as they are, and its line is put together. -/
theorem trim_before (yields : site.Yields tool invocation)
    (feeds : ¬['\r', '\n'] <:+: script.toList) :
    trim invocation.before.toList = trim (place.above ++ joinTokens site.before.dropLast) := by
  have feeds : ¬['\r', '\n'] <:+: place.above := fun inside =>
    feeds (inside.trans ((List.prefix_append _ _).trans place.before_prefix).isInfix)
  rw [yields.before, trim_joinLines]
  unfold remainder
  split
  case isTrue nothing =>
    obtain ⟨gap, blank, same⟩ := place.above_ended.lined_nil.exists_gap feeds
    rw [List.isEmpty_iff.mp nothing, List.append_nil]
    conv_rhs => rw [same]
    simp [joinTokens, Text.trim_append_blank _ blank]
  case isFalse => rw [place.above_ended.intercalate_eq feeds]

private theorem exists_gap_below (feeds : ¬['\r', '\n'] <:+: script.toList) :
    ∃ gap, gap.all isBlank ∧ ∀ line, line ++ (place.lineEnd ++ place.below) =
      ['\n'].intercalate (line :: site.below) ++ gap := by
  obtain ⟨lineEnd, below, none⟩ | ⟨isEnd, lined⟩ := place.below_lined
  · exact ⟨[], rfl, fun line => by simp [lineEnd, below, none]⟩
  have feeds : ¬['\r', '\n'] <:+: place.after ++ (place.lineEnd ++ place.below) := fun inside =>
    feeds (inside.trans place.after_suffix.isInfix)
  obtain ⟨same, fewer⟩ := isEnd.eq_feed feeds
  obtain ⟨gap, blank, whole⟩ := lined.exists_gap fewer
  cases lines : site.below with
  | nil =>
      rw [lines, List.intercalate_nil, List.nil_append] at whole
      have feed : ['\n'].all isBlank := rfl
      exact ⟨'\n' :: gap, by simpa [blank] using feed, fun line => by simp [same, whole]⟩
  | cons next below =>
      rw [lines] at whole
      refine ⟨gap, blank, fun line => ?_⟩
      rw [same, whole, List.intercalate_cons_cons, List.append_assoc, List.append_assoc]

theorem trim_after (yields : site.Yields tool invocation)
    (feeds : ¬['\r', '\n'] <:+: script.toList) :
    trim invocation.after.toList =
      trim (joinTokens (site.after.drop 1) ++ (place.lineEnd ++ place.below)) := by
  obtain ⟨gap, blank, same⟩ := place.exists_gap_below feeds
  rw [yields.after, trim_joinLines, same, Text.trim_append_blank _ blank]
  unfold remainder
  split
  case isTrue nothing =>
    rw [List.isEmpty_iff.mp nothing, List.nil_append]
    cases site.below with
    | nil => rfl
    | cons line below =>
        have feed : ['\n'].all isBlank := rfl
        rw [joinTokens, List.intercalate_nil, List.intercalate_cons_cons, List.nil_append,
          Text.trim_blank_append feed]
  case isFalse => rfl

private theorem visible_before (yields : site.Yields tool invocation)
    (feeds : ¬['\r', '\n'] <:+: script.toList) :
    visible (place.above ++ place.before) = visible invocation.before.toList := by
  rw [← Text.visible_trim invocation.before.toList, place.trim_before yields feeds,
    Text.visible_trim, Text.visible_append, Text.visible_append,
    place.before_laid.visible_joinTokens]

private theorem visible_after (yields : site.Yields tool invocation)
    (feeds : ¬['\r', '\n'] <:+: script.toList) :
    visible (place.after ++ (place.lineEnd ++ place.below)) = visible invocation.after.toList := by
  rw [← Text.visible_trim invocation.after.toList, place.trim_after yields feeds,
    Text.visible_trim, Text.visible_append, Text.visible_append (joinTokens _),
    place.after_laid.visible_joinTokens]

/-- The text found in front of a command is the start of its script just if it is plain there. -/
theorem trimmedPrefix_before_iff (yields : site.Yields tool invocation)
    (feeds : ¬['\r', '\n'] <:+: script.toList) :
    TrimmedPrefix invocation.before.toList script.toList ↔ place.PlainBefore := by
  rw [Text.trimmedPrefix_iff place.before_prefix (place.visible_before yields feeds),
    place.trim_before yields feeds, PlainBefore]
  have laid := place.before_laid
  generalize site.before.dropLast = tokens at laid
  cases tokens with
  | nil =>
      have same := Text.trim_append_blank place.above (laid_nil_iff.mp laid)
      exact iff_of_true (by simpa [joinTokens] using same) (.inl rfl)
  | cons token tokens =>
      rw [or_iff_right (List.cons_ne_nil _ _)]
      exact Text.trim_append_eq_iff _ (laid.solid (by simp)) (laid.not_blank (by simp))

theorem trimmedSuffix_after_iff (yields : site.Yields tool invocation)
    (feeds : ¬['\r', '\n'] <:+: script.toList) :
    TrimmedSuffix invocation.after.toList script.toList ↔ place.PlainAfter := by
  rw [Text.trimmedSuffix_iff place.after_suffix (place.visible_after yields feeds),
    place.trim_after yields feeds, PlainAfter]
  have laid := place.after_laid
  generalize site.after.drop 1 = tokens at laid
  cases tokens with
  | nil =>
      have same := Text.trim_blank_append (laid_nil_iff.mp laid) (place.lineEnd ++ place.below)
      exact iff_of_true (by simpa [joinTokens] using same) (.inl rfl)
  | cons token tokens =>
      rw [or_iff_right (List.cons_ne_nil _ _)]
      exact Text.trim_eq_append_iff _ (laid.solid (by simp)) (laid.not_blank (by simp))

end CommandSite.Place

end ToolInvocation

namespace Tool

open ToolInvocation
open Text (trim TrimmedPrefix TrimmedSuffix)

/-- A script that a tool finds an invocation in is cut at a command that has a place in its text. Up
to blanks at their ends, the texts found around it are the text above and the text below as they
stand, with the tokens of its own line put together. They are the start and the end of the script
just if that line is plain in front of the command and behind it. -/
theorem findInvocation?_verbatim_iff (tool : Tool) (script : String) (invocation : ToolInvocation)
    (found : tool.findInvocation? script = some invocation)
    (feeds : ¬['\r', '\n'] <:+: script.toList) :
    (∃ site : CommandSite script, site.Yields tool invocation ∧ Nonempty site.Place) ∧
      ∀ (site : CommandSite script) (place : site.Place), site.Yields tool invocation →
        (trim invocation.before.toList = trim (place.above ++ joinTokens site.before.dropLast) ∧
            (TrimmedPrefix invocation.before.toList script.toList ↔ place.PlainBefore)) ∧
          trim invocation.after.toList =
              trim (joinTokens (site.after.drop 1) ++ (place.lineEnd ++ place.below)) ∧
            (TrimmedSuffix invocation.after.toList script.toList ↔ place.PlainAfter) := by
  obtain ⟨site, yields⟩ := CommandSite.exists_yields found
  refine ⟨⟨site, yields, site.exists_place⟩, fun _ place yields => ⟨⟨?_, ?_⟩, ?_, ?_⟩⟩
  · exact place.trim_before yields feeds
  · exact place.trimmedPrefix_before_iff yields feeds
  · exact place.trim_after yields feeds
  · exact place.trimmedSuffix_after_iff yields feeds

def plainScript : String :=
  "cd app\nls -l && mvn -q  test && echo ok\n  echo done\n"

theorem verbatim_plainScript :
    maven.findInvocation? plainScript =
        some ⟨"cd app\nls -l", "-q test", "echo ok\n  echo done"⟩ ∧
      ∃ (site : CommandSite plainScript) (place : site.Place),
        site.Yields maven ⟨"cd app\nls -l", "-q test", "echo ok\n  echo done"⟩ ∧
          place.PlainBefore ∧ place.PlainAfter := by
  have found : maven.findInvocation? plainScript =
      some ⟨"cd app\nls -l", "-q test", "echo ok\n  echo done"⟩ := by
    decide +kernel
  have feeds : ¬['\r', '\n'] <:+: plainScript.toList := by decide +kernel
  obtain ⟨⟨site, yields, ⟨place⟩⟩, kept⟩ :=
    findInvocation?_verbatim_iff maven plainScript _ found feeds
  obtain ⟨⟨-, before⟩, -, after⟩ := kept site place yields
  refine ⟨found, site, place, yields, before.mp ?_, after.mp ?_⟩
  · exact ⟨"cd app\nls -l".toList, by decide +kernel, by decide +kernel⟩
  · exact ⟨"echo ok\n  echo done\n".toList, by decide +kernel, by decide +kernel⟩

def quotedBlanks : String :=
  "echo \"a  b\" && mvn test"

/-- Blanks between quotes are lost when they stand on the line of a command. -/
theorem not_verbatim_quotedBlanks :
    ¬∀ (tool : Tool) (script : String) (invocation : ToolInvocation),
      tool.findInvocation? script = some invocation → ¬['\r', '\n'] <:+: script.toList →
        TrimmedPrefix invocation.before.toList script.toList ∧
          TrimmedSuffix invocation.after.toList script.toList := by
  intro always
  have found : maven.findInvocation? quotedBlanks = some ⟨"echo \"a b\"", "test", ""⟩ := by
    decide +kernel
  obtain ⟨⟨start, isStart, same⟩, -⟩ := always maven quotedBlanks _ found (by decide +kernel)
  have other : ∀ start ∈ quotedBlanks.toList.inits, trim start ≠ trim "echo \"a b\"".toList := by
    decide +kernel
  exact other start ((List.mem_inits _ _).mpr isStart) same

end Tool

end TracePipeline
