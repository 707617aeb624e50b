import Mathlib.Data.List.Forall2
import TracePipeline.Proofs.CommandPlaces

/-! Quotes and operators of the shell. Texts that differ only in the blanks between their tokens and
in the ends of their lines leave the same quotes open. An operator outside quotes is a token of its
own or glued to the characters of another one. -/

set_option autoImplicit false

namespace TracePipeline

/-! ## Quotes -/

/-- How a shell takes the next character of a text: outside quotes, between single quotes or between
double quotes, and whether a backslash stands before it. -/
inductive Quoting where
  | bare
  | escaped
  | single
  | double
  | doubleEscaped
deriving DecidableEq

namespace Quoting

open Text (isBlank)

def next : Quoting → Char → Quoting
  | bare, c =>
    if c = '\\' then escaped else if c = '\'' then single else if c = '"' then double else bare
  | escaped, _ => bare
  | single, c => if c = '\'' then bare else single
  | double, c => if c = '\\' then doubleEscaped else if c = '"' then bare else double
  | doubleEscaped, _ => double

def after (quoting : Quoting) (text : List Char) : Quoting :=
  text.foldl next quoting

def isOutside : Quoting → Bool
  | bare | escaped => true
  | single | double | doubleEscaped => false

def isEscaped : Quoting → Bool
  | escaped | doubleEscaped => true
  | bare | single | double => false

@[simp] theorem after_nil (quoting : Quoting) : quoting.after [] = quoting := rfl

@[simp] theorem after_cons (quoting : Quoting) (c : Char) (text : List Char) :
    quoting.after (c :: text) = (quoting.next c).after text := rfl

@[simp] theorem after_append (quoting : Quoting) (first second : List Char) :
    quoting.after (first ++ second) = (quoting.after first).after second :=
  List.foldl_append

theorem next_of_blank {c : Char} (blank : isBlank c) (quoting : Quoting) :
    quoting.next c = quoting.next ' ' := by
  have noSlash : c ≠ '\\' := by rintro rfl; cases blank
  have noSingle : c ≠ '\'' := by rintro rfl; cases blank
  have noDouble : c ≠ '"' := by rintro rfl; cases blank
  cases quoting <;> simp [next, noSlash, noSingle, noDouble]

@[simp] theorem next_blank_blank (quoting : Quoting) :
    (quoting.next ' ').next ' ' = quoting.next ' ' := by
  cases quoting <;> rfl

@[simp] theorem next_blank_semicolon (quoting : Quoting) :
    (quoting.next ' ').next ';' = quoting.next ';' := by
  cases quoting <;> rfl

theorem after_of_blank {gap : List Char} (blank : gap.all isBlank) {quoting : Quoting}
    (settled : quoting.next ' ' = quoting) : quoting.after gap = quoting := by
  induction gap with
  | nil => rfl
  | cons c gap ih =>
      obtain ⟨first, others⟩ := Bool.and_eq_true_iff.mp (List.all_cons.symm.trans blank)
      rw [after_cons, next_of_blank first, settled, ih others]

private theorem next_after_of_blank {gap : List Char} (blank : gap.all isBlank)
    (quoting : Quoting) :
    (quoting.after gap).next ' ' = quoting.next ' ' := by
  cases gap with
  | nil => rfl
  | cons c gap =>
      obtain ⟨first, others⟩ := Bool.and_eq_true_iff.mp (List.all_cons.symm.trans blank)
      rw [after_cons, next_of_blank first, after_of_blank others (next_blank_blank quoting),
        next_blank_blank]

theorem isOutside_next {c : Char} (noSingle : c ≠ '\'') (noDouble : c ≠ '"')
    (quoting : Quoting) : (quoting.next c).isOutside = quoting.isOutside := by
  cases quoting with
  | bare => by_cases slash : c = '\\' <;> simp [next, slash, noSingle, noDouble, isOutside]
  | double => by_cases slash : c = '\\' <;> simp [next, slash, noDouble, isOutside]
  | single => simp [next, noSingle, isOutside]
  | escaped => rfl
  | doubleEscaped => rfl

/-- Only quotes lead into and out of quotes. -/
theorem isOutside_after {text : List Char} (noSingle : '\'' ∉ text) (noDouble : '"' ∉ text)
    (quoting : Quoting) : (quoting.after text).isOutside = quoting.isOutside := by
  induction text generalizing quoting with
  | nil => rfl
  | cons c text ih =>
      rw [List.mem_cons, not_or] at noSingle noDouble
      rw [after_cons, ih noSingle.2 noDouble.2, isOutside_next (Ne.symm noSingle.1)
        (Ne.symm noDouble.1)]

end Quoting

/-- The quotes that are opened in a text are closed in it. -/
def Balanced (text : List Char) : Prop :=
  (Quoting.bare.after text).isOutside

/-! ## Texts that differ in blanks -/

open Text (isBlank visible)

/-- Two texts leave the same quotes open, whatever was open before, when a blank is in front of them
and behind them. -/
def QuotesAlike (first second : List Char) : Prop :=
  ∀ quoting : Quoting, quoting.next ' ' = quoting →
    (quoting.after first).next ' ' = (quoting.after second).next ' '

namespace QuotesAlike

theorem refl (text : List Char) : QuotesAlike text text := fun _ _ => rfl

theorem symm {first second : List Char} (alike : QuotesAlike first second) :
    QuotesAlike second first :=
  fun quoting settled => (alike quoting settled).symm

theorem trans {first second third : List Char} (alike : QuotesAlike first second)
    (onward : QuotesAlike second third) : QuotesAlike first third :=
  fun quoting settled => (alike quoting settled).trans (onward quoting settled)

theorem append_blank {gap : List Char} (blank : gap.all isBlank) (text : List Char) :
    QuotesAlike (text ++ gap) text := by
  intro quoting _
  rw [Quoting.after_append, Quoting.next_after_of_blank blank]

theorem blank_append {gap : List Char} (blank : gap.all isBlank) (text : List Char) :
    QuotesAlike (gap ++ text) text := by
  intro quoting settled
  rw [Quoting.after_append, Quoting.after_of_blank blank settled]

/-- Texts may be exchanged on both sides of a blank. -/
theorem join {first first' second second' : List Char} {mark mark' : Char}
    (alike : QuotesAlike first first') (others : QuotesAlike second second')
    (blank : isBlank mark) (blank' : isBlank mark') :
    QuotesAlike (first ++ mark :: second) (first' ++ mark' :: second') := by
  intro quoting settled
  rw [Quoting.after_append, Quoting.after_cons, Quoting.next_of_blank blank,
    Quoting.after_append, Quoting.after_cons, Quoting.next_of_blank blank', alike quoting settled]
  exact others _ (Quoting.next_blank_blank _)

theorem balanced_iff {first second : List Char} (alike : QuotesAlike first second) :
    Balanced first ↔ Balanced second := by
  have outside (text : List Char) :
      (Quoting.bare.after text).isOutside = ((Quoting.bare.after text).next ' ').isOutside :=
    (Quoting.isOutside_next (by decide) (by decide) _).symm
  rw [Balanced, Balanced, outside first, outside second, alike .bare rfl]

theorem intercalate {lines lines' : List (List Char)}
    (each : List.Forall₂ QuotesAlike lines lines') :
    QuotesAlike (['\n'].intercalate lines) (['\n'].intercalate lines') := by
  induction each with
  | nil => exact refl _
  | @cons line line' lines lines' here others ih =>
      cases others with
      | nil => simpa using here
      | cons next others =>
          rw [List.intercalate_cons_cons, List.intercalate_cons_cons, List.append_assoc,
            List.append_assoc]
          exact join here ih rfl rfl

end QuotesAlike

/-- The ends of its lines make no difference to the quotes of a text. -/
theorem Text.Lined.quotesAlike {text : List Char} {lines : List (List Char)}
    (lined : Text.Lined text lines) : QuotesAlike text (['\n'].intercalate lines) := by
  induction lined with
  | nil => exact .refl _
  | last => simpa using QuotesAlike.refl _
  | @cons line mark rest lines isEnd others ih =>
      cases lines with
      | nil =>
          cases others
          simpa using QuotesAlike.append_blank isEnd.blank line
      | cons next lines =>
          rw [List.intercalate_cons_cons, List.append_assoc]
          rcases isEnd with rfl | rfl
          · exact (QuotesAlike.refl line).join ih rfl rfl
          · have whole : line ++ (['\r', '\n'] ++ rest) = line ++ ['\r'] ++ '\n' :: rest := by simp
            rw [whole]
            exact (QuotesAlike.append_blank rfl line).join ih rfl rfl

namespace ToolInvocation

/-- Tokens with single blanks between them leave open what their text leaves open. -/
theorem Laid.quotesAlike {text : List Char} {tokens : List Token} (laid : Laid text tokens) :
    QuotesAlike text (joinTokens tokens) := by
  induction laid with
  | nil blank => exact QuotesAlike.append_blank blank []
  | @cons gap token rest tokens blank some clean border others ih =>
      refine (QuotesAlike.blank_append blank _).trans ?_
      intro quoting settled
      -- A blank in front of the rest changes nothing: it starts with one, or with a semicolon.
      have apart (open' : Quoting) :
          (open'.after rest).next ' ' = ((open'.next ' ').after rest).next ' ' := by
        cases rest with
        | nil => simp
        | cons c rest =>
            by_cases isBlank : isBlank c
            · simp [Quoting.next_of_blank isBlank]
            · have semicolon : c = ';' := by
                have first := border.resolve_left fun blanks => isBlank (blanks c rfl)
                obtain ⟨more, rfl⟩ := List.head?_eq_some_iff.mp first
                generalize whole : c :: rest = line at others
                cases others with
                | @cons gap' _ rest' _ blank' _ _ _ _ =>
                    cases gap' with
                    | nil => exact (List.cons.inj whole).1
                    | cons d gap' =>
                        obtain ⟨rfl, -⟩ := List.cons.inj whole
                        exact absurd (Bool.and_eq_true_iff.mp (List.all_cons.symm.trans blank')).1
                          isBlank
              rw [semicolon, Quoting.after_cons, Quoting.after_cons, Quoting.next_blank_semicolon]
      have onward := ih ((quoting.after token).next ' ') (Quoting.next_blank_blank _)
      rw [Quoting.after_append, apart, onward]
      cases tokens with
      | nil => simp [joinTokens]
      | cons following tokens =>
          simp [joinTokens, List.intercalate_cons_cons, Quoting.after_append]

theorem quotesAlike_joinLines (lines : List (List Char)) :
    QuotesAlike (joinLines lines).toList (['\n'].intercalate lines) := by
  simp only [joinLines]
  split
  case isTrue blank => exact (QuotesAlike.append_blank blank []).symm
  case isFalse => simpa using QuotesAlike.refl _

/-! ## Operators -/

/-- Whether `|`, `||`, `&`, `&&` or `;` stands in a text outside quotes. Behind a `<` or `>` outside
quotes, as `redirects` tells, `&` and `|` belong to a redirection. -/
def hasOperator (quoting : Quoting) (redirects : Bool) : List Char → Bool
  | [] => false
  | c :: rest =>
    (quoting == .bare && (c == ';' || (c == '|' || c == '&') && !redirects)) ||
      hasOperator (quoting.next c) (quoting == .bare && (c == '<' || c == '>')) rest

theorem hasOperator_cons_blank {c : Char} (blank : isBlank c) (quoting : Quoting)
    (redirects : Bool) (rest : List Char) :
    hasOperator quoting redirects (c :: rest) = hasOperator (quoting.next c) false rest := by
  have unlike {d : Char} (visible : isBlank d = false) : (c == d) = false := by
    rw [beq_eq_false_iff_ne]
    rintro rfl
    rw [blank] at visible
    cases visible
  simp [hasOperator, unlike (d := ';') rfl, unlike (d := '|') rfl, unlike (d := '&') rfl,
    unlike (d := '<') rfl, unlike (d := '>') rfl]

theorem hasOperator_append_blank {c : Char} (blank : isBlank c) (quoting : Quoting)
    (redirects : Bool) (text rest : List Char) :
    hasOperator quoting redirects (text ++ c :: rest) =
      (hasOperator quoting redirects text ||
        hasOperator ((quoting.after text).next c) false rest) := by
  induction text generalizing quoting redirects with
  | nil => simp [hasOperator_cons_blank blank, hasOperator]
  | cons d text ih => simp [hasOperator, ih, Bool.or_assoc]

private theorem hasOperator_blank_append {gap : List Char} (blank : gap.all isBlank)
    (quoting : Quoting) (text : List Char) :
    hasOperator quoting false (gap ++ text) = hasOperator (quoting.after gap) false text := by
  induction gap generalizing quoting with
  | nil => rfl
  | cons c gap ih =>
      obtain ⟨first, others⟩ := Bool.and_eq_true_iff.mp (List.all_cons.symm.trans blank)
      rw [List.cons_append, hasOperator_cons_blank first, ih others, Quoting.after_cons]

/-- A word of a text, with blanks or the ends of the text around it. -/
structure IsWord (text front word back : List Char) : Prop where
  split : text = front ++ (word ++ back)
  unbroken : visible word = word
  starts : ∀ c ∈ front.getLast?, isBlank c
  ends : ∀ c ∈ back.head?, isBlank c

theorem hasOperator_of_word {text front word back : List Char}
    (isWord : IsWord text front word back) {quoting : Quoting} (inside : hasOperator (quoting.after front) false word) :
    hasOperator quoting false text := by
  have whole : hasOperator (quoting.after front) false (word ++ back) := by
    cases back with
    | nil => rwa [List.append_nil]
    | cons c back => rw [hasOperator_append_blank (isWord.ends c rfl), inside, Bool.true_or]
  rw [isWord.split]
  rcases List.eq_nil_or_concat front with rfl | ⟨rest, c, rfl⟩
  · exact whole
  · rw [List.concat_eq_append] at whole ⊢
    have blank : isBlank c := isWord.starts c (by simp)
    rw [Quoting.after_append, Quoting.after_cons, Quoting.after_nil] at whole
    rw [List.append_assoc, List.singleton_append, hasOperator_append_blank blank, whole,
      Bool.or_true]

/-- An operator stands in a word of its text. -/
theorem Laid.exists_word {text : List Char} {tokens : List Token} (laid : Laid text tokens)
    (whole : [';'] ∉ tokens) {quoting : Quoting} (holds : hasOperator quoting false text) :
    ∃ front word back, word ∈ tokens ∧ IsWord text front word back ∧
      hasOperator (quoting.after front) false word := by
  induction laid generalizing quoting with
  | @nil gap blank =>
      have nothing := hasOperator_blank_append blank quoting []
      rw [List.append_nil, holds] at nothing
      cases nothing
  | @cons gap token rest tokens blank some clean border others ih =>
      rw [hasOperator_blank_append blank] at holds
      have spaced : ∀ c ∈ rest.head?, isBlank c := by
        refine border.resolve_right fun semicolon => whole ?_
        exact .tail _ (List.mem_of_mem_head? semicolon)
      have here : IsWord (gap ++ (token ++ rest)) gap token rest :=
        ⟨rfl, clean, fun c member => List.all_eq_true.mp blank c (List.mem_of_getLast? member),
          spaced⟩
      cases rest with
      | nil =>
          rw [List.append_nil] at holds
          exact ⟨gap, token, [], .head _, here, holds⟩
      | cons c rest =>
          have isBlank := spaced c rfl
          rw [hasOperator_append_blank isBlank, Bool.or_eq_true] at holds
          rcases holds with first | later
          · exact ⟨gap, token, c :: rest, .head _, here, first⟩
          · have behind : hasOperator ((quoting.after gap).after token) false (c :: rest) := by
              rwa [hasOperator_cons_blank isBlank]
            obtain ⟨front, word, back, member, isWord, inside⟩ :=
              ih (fun semicolon => whole (.tail _ semicolon)) behind
            refine ⟨gap ++ (token ++ front), word, back, .tail _ member,
              ⟨?_, isWord.unbroken, ?_, isWord.ends⟩, by simpa using inside⟩
            · rw [isWord.split]
              simp
            · -- The rest starts with a blank, which is no part of the word.
              have nonempty : front ≠ [] := by
                rintro rfl
                have first := isWord.split
                cases word with
                | nil => cases inside
                | cons d word =>
                    obtain ⟨rfl, -⟩ := List.cons.inj first
                    have visible := Text.visible_eq_self_iff.mp isWord.unbroken c (.head _)
                    rw [isBlank] at visible
                    cases visible
              rw [List.getLast?_append_of_ne_nil _ (by simp [nonempty]),
                List.getLast?_append_of_ne_nil _ nonempty]
              exact isWord.starts

/-- An operator outside quotes is glued to other characters of a word. -/
def Glued (text : List Char) : Prop :=
  ∃ front word back, IsWord text front word back ∧ isOperator word = false ∧
    isSeparator word = false ∧ hasOperator (Quoting.bare.after front) false word

/-- In a command that qualifies no operator stands by itself. -/
theorem hasOperator_iff_glued {script : String} {tool : Tool} {site : CommandSite script}
    (qualifies : Qualifies tool site.command) {text : List Char} (laid : Laid text site.command) :
    hasOperator .bare false text ↔ Glued text := by
  constructor
  · intro holds
    have noSeparator : [';'] ∉ site.command := fun member => by
      cases site.stands.whole _ member
    obtain ⟨front, word, back, member, isWord, inside⟩ := laid.exists_word noSeparator holds
    exact ⟨front, word, back, isWord, qualifies.alone word member, site.stands.whole word member,
      inside⟩
  · rintro ⟨front, word, back, isWord, -, -, inside⟩
    exact hasOperator_of_word isWord inside

end ToolInvocation

end TracePipeline
