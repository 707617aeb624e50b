import Mathlib.Algebra.Group.Int.Defs
import Mathlib.Data.List.Basic
import TracePipeline.Json.Decode

/-! The simplest parts of JSON texts and how they are read: white space, quoted texts and numbers.
What is printed of a quoted text or an integer is a text of it. -/

set_option autoImplicit false

namespace TracePipeline

/-! ## Cursors -/

namespace Cursor

/-- White space between the parts of a text. -/
def Blank (gap : List Char) : Prop :=
  ∀ c ∈ gap, isSpace (.char c) = true

theorem blank_nil : Blank [] :=
  List.forall_mem_nil _

/-- No white space comes next. -/
def Settled (rest : List Glyph) : Prop :=
  ∀ glyph, rest.head? = some glyph → isSpace glyph = false

variable {cursor : Cursor} {rest : List Glyph}

theorem rest_advance {glyph : Glyph} (here : cursor.rest = glyph :: rest) :
    cursor.advance.rest = rest := by
  simp [advance, here]

private theorem rest_skipSpaceFrom {gap : List Char} (blank : Blank gap) (settled : Settled rest)
    (position : Position) : (skipSpaceFrom position (Glyph.ofText gap ++ rest)).rest = rest := by
  induction gap generalizing position with
  | nil =>
      cases rest with
      | nil => rfl
      | cons glyph more =>
          have solid := settled glyph rfl
          simp [Glyph.ofText, skipSpaceFrom, solid]
  | cons c gap ih =>
      have space := blank c (.head _)
      have others : Blank gap := fun c member => blank c (.tail _ member)
      simp only [Glyph.ofText, List.map_cons, List.cons_append, skipSpaceFrom, space, if_true]
      exact ih others _

theorem rest_skipSpace {gap : List Char} (blank : Blank gap) (settled : Settled rest)
    (here : cursor.rest = Glyph.ofText gap ++ rest) : cursor.skipSpace.rest = rest := by
  rw [skipSpace, here]
  exact rest_skipSpaceFrom blank settled _

/-- No digit comes next. -/
def NoDigit (rest : List Glyph) : Prop :=
  ∀ c, rest.head? = some (.char c) → c.isDigit = false

private theorem takeDigitsFrom_append {digits : List Char} (each : ∀ c ∈ digits, c.isDigit)
    (stops : NoDigit rest) (position : Position) :
    ∃ next, takeDigitsFrom position (Glyph.ofText digits ++ rest) = (digits, next) ∧
      next.rest = rest := by
  induction digits generalizing position with
  | nil =>
      refine ⟨⟨position, rest⟩, ?_, rfl⟩
      match rest with
      | [] => rfl
      | .stray byte :: more => rfl
      | .char c :: more =>
          have other := stops c rfl
          simp [Glyph.ofText, takeDigitsFrom, other]
  | cons c digits ih =>
      have own := each c (.head _)
      obtain ⟨next, taken, left⟩ :=
        ih (fun c member => each c (.tail _ member)) (position.after (.char c))
      refine ⟨next, ?_, left⟩
      rw [Glyph.ofText] at taken
      simp only [Glyph.ofText, List.map_cons, List.cons_append, takeDigitsFrom, own, if_true, taken]

theorem takeDigits_append {digits : List Char} (each : ∀ c ∈ digits, c.isDigit)
    (stops : NoDigit rest) (here : cursor.rest = Glyph.ofText digits ++ rest) :
    ∃ next, cursor.takeDigits = (digits, next) ∧ next.rest = rest := by
  rw [takeDigits, here]
  exact takeDigitsFrom_append each stops _

end Cursor

/-! ## Quoted texts -/

namespace Quoted

open Json (escape hexQuad quote)

/-- What may stand in quotes for a text. A character stands there as it is, by an escape of one
letter, or by the code unit it consists of; one that consists of two stands there by both. -/
inductive Spells : List Char → List Char → Prop
  | nil : Spells [] []
  | plain {c : Char} {text body : List Char} (notQuote : c ≠ '"') (notMark : c ≠ '\\')
      (visible : ¬c.toNat < 0x20) (others : Spells text body) : Spells (c :: text) (c :: body)
  | short {mark c : Char} {text body : List Char} (known : escaped? mark = some c)
      (others : Spells text body) : Spells (c :: text) ('\\' :: mark :: body)
  | unit {i j k l : Char} {code : Nat} {text body : List Char}
      (digits : hexQuad? i j k l = some code) (notLeading : isLeading code = false)
      (notTrailing : isTrailing code = false) (others : Spells text body) :
      Spells (Char.ofNat code :: text) ('\\' :: 'u' :: i :: j :: k :: l :: body)
  | pair {i j k l m n o p : Char} {leading trailing : Nat} {text body : List Char}
      (first : hexQuad? i j k l = some leading) (isFirst : isLeading leading)
      (second : hexQuad? m n o p = some trailing) (isSecond : isTrailing trailing)
      (others : Spells text body) :
      Spells (pairChar leading trailing :: text)
        ('\\' :: 'u' :: i :: j :: k :: l :: '\\' :: 'u' :: m :: n :: o :: p :: body)

/-! ### What is written -/

private theorem hexDigit?_digitChar :
    ∀ digit < 16, hexDigit? (Nat.digitChar digit) = some digit := by
  decide

/-- A character is escaped by a mark that stands for it, by its code, or not at all. -/
theorem escape_cases (c : Char) :
    (∃ mark, escape c = ['\\', mark] ∧ escaped? mark = some c) ∨
      (escape c = '\\' :: 'u' :: hexQuad c.toNat ∧ c.toNat < 0x20) ∨
      (escape c = [c] ∧ c ≠ '"' ∧ c ≠ '\\' ∧ ¬c.toNat < 0x20) := by
  unfold escape
  iterate 7
    split
    case isTrue same =>
      subst same
      exact .inl ⟨_, rfl, by decide⟩
  split
  case isTrue control => exact .inr (.inl ⟨rfl, control⟩)
  case isFalse visible => exact .inr (.inr ⟨rfl, ‹_›, ‹_›, visible⟩)

/-- The digits of a control character tell its code. -/
theorem hexQuad?_hexQuad {code : Nat} (control : code < 0x20) :
    hexQuad? (Nat.digitChar (code / 4096 % 16)) (Nat.digitChar (code / 256 % 16))
      (Nat.digitChar (code / 16 % 16)) (Nat.digitChar (code % 16)) = some code := by
  have digit (value : Nat) : hexDigit? (Nat.digitChar (value % 16)) = some (value % 16) :=
    hexDigit?_digitChar _ (Nat.mod_lt _ (by decide))
  have total : code / 4096 % 16 * 4096 + code / 256 % 16 * 256 + code / 16 % 16 * 16 + code % 16 =
      code := by
    omega
  simp [hexQuad?, digit, total]

/-- The escape of a character stands for it. -/
theorem Spells.escape {text body : List Char} (spells : Spells text body) (c : Char) :
    Spells (c :: text) (escape c ++ body) := by
  rcases escape_cases c with ⟨mark, escaped, known⟩ | ⟨escaped, control⟩ |
    ⟨escaped, notQuote, notMark, visible⟩
  · rw [escaped]
    exact .short known spells
  · have notLeading : isLeading c.toNat = false := by
      simp only [isLeading, Bool.and_eq_false_iff, decide_eq_false_iff_not]
      omega
    have notTrailing : isTrailing c.toNat = false := by
      simp only [isTrailing, Bool.and_eq_false_iff, decide_eq_false_iff_not]
      omega
    have unit := Spells.unit (hexQuad?_hexQuad control) notLeading notTrailing spells
    rw [Char.ofNat_toNat] at unit
    rw [escaped]
    exact unit
  · rw [escaped]
    exact .plain notQuote notMark visible spells

theorem spells_flatMap_escape (text : List Char) : Spells text (text.flatMap escape) := by
  induction text with
  | nil => exact .nil
  | cons c text ih => exact ih.escape c

/-! ### What is read -/

/-- Reading a quoted text without a fault so far. -/
def Progress.clean (taken : List Char) : Progress :=
  ⟨taken, none, none, none⟩

theorem hexQuad?_eq_some_iff {i j k l : Char} {code : Nat} :
    hexQuad? i j k l = some code ↔
      ∃ a b c d, hexDigit? i = some a ∧ hexDigit? j = some b ∧ hexDigit? k = some c ∧
        hexDigit? l = some d ∧ a * 4096 + b * 256 + c * 16 + d = code := by
  simp [hexQuad?, Option.bind_eq_some_iff]

/-- Four digits are read as the code unit they tell. -/
theorem readFrom_digits {i j k l : Char} {code : Nat} (digits : hexQuad? i j k l = some code)
    (progress : Progress) (rest : List Glyph) (position : Position) :
    ∃ place, readFrom position (.unit 4 0) progress (Glyph.ofText [i, j, k, l] ++ rest) =
      readFrom place .plain (progress.pushUnit code ⟨place, rest⟩) rest := by
  obtain ⟨a, b, c, d, first, second, third, fourth, rfl⟩ := hexQuad?_eq_some_iff.mp digits
  have total : (((0 * 16 + a) * 16 + b) * 16 + c) * 16 + d = a * 4096 + b * 256 + c * 16 + d := by
    omega
  refine ⟨(Glyph.ofText [i, j, k, l]).foldl Position.after position, ?_⟩
  simp only [Glyph.ofText, List.map_cons, List.map_nil, List.cons_append, List.nil_append,
    List.foldl_cons, List.foldl_nil, readFrom, hexGlyph?, first, second, third, fourth, total,
    Nat.reduceEqDiff, if_false, if_true, Nat.reduceSub]

theorem pushUnit_clean {code : Nat} (notLeading : isLeading code = false)
    (notTrailing : isTrailing code = false) (taken : List Char) (next : Cursor) :
    (Progress.clean taken).pushUnit code next = .clean (Char.ofNat code :: taken) := by
  simp only [Progress.pushUnit, notLeading, notTrailing, Bool.false_eq_true, if_false]
  rfl

private theorem notLeading_of_isTrailing {code : Nat} (isSecond : isTrailing code) :
    isLeading code = false := by
  simp only [isTrailing, Bool.and_eq_true, decide_eq_true_eq] at isSecond
  simp only [isLeading, Bool.and_eq_false_iff, decide_eq_false_iff_not]
  omega

/-- Behind the first half of a pair its second half completes the character. -/
theorem pushUnit_trailing {trailing : Nat} (isSecond : isTrailing trailing) (taken : List Char)
    (leading : Nat) (next : Cursor) :
    Progress.pushUnit ⟨taken, some leading, none, none⟩ trailing next =
      .clean (pairChar leading trailing :: taken) := by
  simp only [Progress.pushUnit, notLeading_of_isTrailing isSecond, isSecond, Bool.false_eq_true,
    if_false, if_true]
  rfl

theorem pushUnit_leading {m n o p : Char} {leading trailing : Nat} (isFirst : isLeading leading)
    (second : hexQuad? m n o p = some trailing) (isSecond : isTrailing trailing)
    (taken : List Char) (place : Position) (rest : List Glyph) :
    (Progress.clean taken).pushUnit leading
        ⟨place, Glyph.ofText ['\\', 'u', m, n, o, p] ++ rest⟩ =
      ⟨taken, some leading, none, none⟩ := by
  have noFault : pairFault? place (Glyph.ofText ['\\', 'u', m, n, o, p] ++ rest) = none := by
    simp [Glyph.ofText, pairFault?, second, isSecond]
  simp only [Progress.pushUnit, isFirst, if_true, Progress.clean, noFault]
  rfl

/-- Up to the closing quote, what stands for a text is read as this text. -/
theorem readFrom_spelled {text body : List Char} (spells : Spells text body) (taken : List Char)
    (rest : List Glyph) (position : Position) :
    ∃ next, readFrom position .plain (.clean taken) (Glyph.ofText body ++ .char '"' :: rest) =
      .closed (.ok (String.ofList (taken.reverse ++ text))) next ∧ next.rest = rest := by
  induction spells generalizing taken position with
  | nil =>
      refine ⟨⟨position.after (.char '"'), rest⟩, ?_, rfl⟩
      simp [Glyph.ofText, readFrom, Progress.close, Progress.clean]
  | @plain c text body notQuote notMark visible others ih =>
      obtain ⟨next, read, left⟩ := ih (c :: taken) (position.after (.char c))
      refine ⟨next, ?_, left⟩
      have first : readFrom position .plain (.clean taken)
          (Glyph.ofText (c :: body) ++ .char '"' :: rest) =
          readFrom (position.after (.char c)) .plain (.clean (c :: taken))
            (Glyph.ofText body ++ .char '"' :: rest) := by
        simp only [Glyph.ofText, List.map_cons, List.cons_append, readFrom, if_neg notQuote,
          if_neg notMark, if_neg visible]
        rfl
      rw [first, read]
      simp
  | @short mark c text body known others ih =>
      obtain ⟨next, read, left⟩ :=
        ih (c :: taken) ((position.after (.char '\\')).after (.char mark))
      refine ⟨next, ?_, left⟩
      have notUnit : mark ≠ 'u' := by
        rintro rfl
        cases known
      have first : readFrom position .plain (.clean taken)
          (Glyph.ofText ('\\' :: mark :: body) ++ .char '"' :: rest) =
          readFrom ((position.after (.char '\\')).after (.char mark)) .plain (.clean (c :: taken))
            (Glyph.ofText body ++ .char '"' :: rest) := by
        have entered : readFrom position .plain (.clean taken)
            (Glyph.ofText ('\\' :: mark :: body) ++ .char '"' :: rest) =
            readFrom (position.after (.char '\\')) .escape (.clean taken)
              (.char mark :: (Glyph.ofText body ++ .char '"' :: rest)) := rfl
        rw [entered, readFrom]
        simp only [if_neg notUnit, known]
        rfl
      rw [first, read]
      simp
  | @unit i j k l code text body digits notLeading notTrailing others ih =>
      obtain ⟨place, unit⟩ := readFrom_digits digits (.clean taken)
        (Glyph.ofText body ++ .char '"' :: rest)
        ((position.after (.char '\\')).after (.char 'u'))
      obtain ⟨next, read, left⟩ := ih (Char.ofNat code :: taken) place
      refine ⟨next, ?_, left⟩
      rw [pushUnit_clean notLeading notTrailing, read] at unit
      refine Eq.trans unit ?_
      simp
  | @pair i j k l m n o p leading trailing text body first isFirst second isSecond others ih =>
      obtain ⟨middle, unit⟩ := readFrom_digits first (.clean taken)
        (Glyph.ofText ['\\', 'u', m, n, o, p] ++ (Glyph.ofText body ++ .char '"' :: rest))
        ((position.after (.char '\\')).after (.char 'u'))
      obtain ⟨place, unit'⟩ := readFrom_digits second ⟨taken, some leading, none, none⟩
        (Glyph.ofText body ++ .char '"' :: rest)
        ((middle.after (.char '\\')).after (.char 'u'))
      obtain ⟨next, read, left⟩ := ih (pairChar leading trailing :: taken) place
      refine ⟨next, ?_, left⟩
      rw [pushUnit_leading isFirst second isSecond] at unit
      rw [pushUnit_trailing isSecond, read] at unit'
      refine (Eq.trans unit unit').trans ?_
      simp

/-- Behind its opening quote a quoted text is read as the text it stands for. -/
theorem read_spelled {cursor : Cursor} {rest : List Glyph} {text : String} {body : List Char}
    (spells : Spells text.toList body)
    (here : cursor.rest = Glyph.ofText body ++ .char '"' :: rest) :
    ∃ next, read cursor = .closed (.ok text) next ∧ next.rest = rest := by
  obtain ⟨next, closed, left⟩ := readFrom_spelled spells [] rest cursor.position
  refine ⟨next, ?_, left⟩
  have started : read cursor = readFrom cursor.position .plain (.clean []) cursor.rest := rfl
  rw [started, here, closed]
  simp

end Quoted

/-! ## Numbers -/

namespace Numeral

/-- Nothing comes next that a number could go on with. -/
def Ended (rest : List Glyph) : Prop :=
  ∀ c, rest.head? = some (.char c) → c.isDigit = false ∧ c ≠ '.' ∧ c ≠ 'e' ∧ c ≠ 'E'

private theorem Ended.noDigit {rest : List Glyph} (ended : Ended rest) : Cursor.NoDigit rest :=
  fun c here => (ended c here).1

/-- Digits, of which there is at least one. -/
structure Digits (digits : List Char) : Prop where
  some : digits ≠ []
  each : ∀ c ∈ digits, c.isDigit

/-- The digits before the point: a zero alone, or digits that do not start with one. -/
inductive Whole : List Char → Prop
  | zero : Whole ['0']
  | digits {first : Char} {rest : List Char} (own : first.isDigit) (nonzero : first ≠ '0')
      (others : ∀ c ∈ rest, c.isDigit) : Whole (first :: rest)

inductive Fraction : Option (List Char) → List Char → Prop
  | none : Fraction none []
  | some {digits : List Char} (own : Digits digits) : Fraction (some digits) ('.' :: digits)

def IsExponentMark (mark : Char) : Prop :=
  mark = 'e' ∨ mark = 'E'

inductive Exponent : Option (Bool × List Char) → List Char → Prop
  | none : Exponent none []
  | plain {mark : Char} {digits : List Char} (isMark : IsExponentMark mark) (own : Digits digits) :
      Exponent (some (false, digits)) (mark :: digits)
  | plus {mark : Char} {digits : List Char} (isMark : IsExponentMark mark) (own : Digits digits) :
      Exponent (some (false, digits)) (mark :: '+' :: digits)
  | minus {mark : Char} {digits : List Char} (isMark : IsExponentMark mark)
      (own : Digits digits) : Exponent (some (true, digits)) (mark :: '-' :: digits)

/-- A text of a numeral: its parts one after the other, without any white space. -/
inductive Spelled : Numeral → List Char → Prop
  | parts {negative : Bool} {whole point scale : List Char} {fraction : Option (List Char)}
      {exponent : Option (Bool × List Char)} (own : Whole whole) (behind : Fraction fraction point)
      (last : Exponent exponent scale) :
      Spelled ⟨negative, whole, fraction, exponent⟩
        ((if negative then ['-'] else []) ++ (whole ++ (point ++ scale)))

variable {cursor : Cursor} {rest : List Glyph}

/-! ### What is read -/

private theorem Digits.head {digits : List Char} (own : Digits digits) :
    ∃ first others, digits = first :: others ∧ first.isDigit := by
  obtain ⟨first, others, rfl⟩ := List.exists_cons_of_ne_nil own.some
  exact ⟨first, others, rfl, own.each first (.head _)⟩

theorem Whole.head {whole : List Char} (own : Whole whole) :
    ∃ first others, whole = first :: others ∧ first.isDigit := by
  cases own with
  | zero => exact ⟨'0', [], rfl, rfl⟩
  | digits own => exact ⟨_, _, rfl, own⟩

private theorem readWhole_spelled {whole : List Char} (own : Whole whole)
    (stops : Cursor.NoDigit rest) (here : cursor.rest = Glyph.ofText whole ++ rest) :
    ∃ next, readWhole cursor = .ok (whole, next) ∧ next.rest = rest := by
  cases own with
  | zero =>
      have behind : cursor.advance.rest = Glyph.ofText [] ++ rest := Cursor.rest_advance here
      obtain ⟨next, taken, -⟩ := Cursor.takeDigits_append (by simp) stops behind
      refine ⟨cursor.advance, ?_, behind⟩
      rw [readWhole, here]
      simp [Glyph.ofText, taken]
  | @digits first others own nonzero each =>
      obtain ⟨next, taken, left⟩ := Cursor.takeDigits_append
        (List.forall_mem_cons.mpr ⟨own, each⟩) stops here
      refine ⟨next, ?_, left⟩
      rw [readWhole, here]
      simp [Glyph.ofText, nonzero, taken]

theorem readDigits_spelled {digits : List Char} (own : Digits digits)
    (stops : Cursor.NoDigit rest) (here : cursor.rest = Glyph.ofText digits ++ rest) :
    ∃ next, readDigits cursor = .ok (digits, next) ∧ next.rest = rest := by
  obtain ⟨next, taken, left⟩ := Cursor.takeDigits_append own.each stops here
  refine ⟨next, ?_, left⟩
  simp [readDigits, taken, own.some]

private theorem readFraction_spelled {fraction : Option (List Char)} {text : List Char}
    (own : Fraction fraction text) (stops : Cursor.NoDigit rest)
    (noPoint : ∀ c, rest.head? = some (.char c) → c ≠ '.')
    (here : cursor.rest = Glyph.ofText text ++ rest) :
    ∃ next, readFraction cursor = .ok (fraction, next) ∧ next.rest = rest := by
  cases own with
  | none =>
      refine ⟨cursor, ?_, here⟩
      unfold readFraction
      split
      case h_1 point =>
        exact absurd rfl (noPoint '.' (congrArg List.head? (here.symm.trans point)))
      case h_2 => rfl
  | @some digits own =>
      have point : cursor.rest = .char '.' :: (Glyph.ofText digits ++ rest) := here
      obtain ⟨next, read, left⟩ := readDigits_spelled own stops (Cursor.rest_advance point)
      refine ⟨next, ?_, left⟩
      rw [readFraction, point]
      change (readDigits cursor.advance >>= _) = _
      rw [read]
      rfl

private theorem startsExponent_of_mark {mark : Char} (isMark : IsExponentMark mark)
    {more : List Glyph}
    (here : cursor.rest = .char mark :: more) : startsExponent cursor = true := by
  rw [startsExponent, here]
  rcases isMark with rfl | rfl <;> rfl

private theorem readExponent_mark (starts : startsExponent cursor = true) {negative : Bool}
    {digits : List Char} {start next : Cursor} (sign : readSign cursor.advance = (negative, start))
    (read : readDigits start = .ok (digits, next)) :
    readExponent cursor = .ok (some (negative, digits), next) := by
  rw [readExponent, if_pos starts, sign]
  change (readDigits start >>= _) = _
  rw [read]
  rfl

private theorem readExponent_spelled {exponent : Option (Bool × List Char)} {text : List Char}
    (own : Exponent exponent text) (ended : Ended rest)
    (here : cursor.rest = Glyph.ofText text ++ rest) :
    ∃ next, readExponent cursor = .ok (exponent, next) ∧ next.rest = rest := by
  cases own with
  | none =>
      have starts : startsExponent cursor = false := by
        unfold startsExponent
        split
        case h_1 c more shape =>
          obtain ⟨-, -, lower, upper⟩ :=
            ended c (congrArg List.head? (here.symm.trans shape))
          simp [lower, upper]
        case h_2 => rfl
      exact ⟨cursor, by rw [readExponent, starts]; rfl, here⟩
  | @plain mark digits isMark own =>
      have behind : cursor.advance.rest = Glyph.ofText digits ++ rest := Cursor.rest_advance here
      obtain ⟨next, read, left⟩ := readDigits_spelled own ended.noDigit behind
      refine ⟨next, readExponent_mark (startsExponent_of_mark isMark here) ?_ read, left⟩
      obtain ⟨first, others, rfl, digit⟩ := own.head
      rw [readSign, behind]
      simp only [Glyph.ofText, List.map_cons, List.cons_append]
      split
      case h_1 shape =>
        cases shape
        cases digit
      case h_2 shape =>
        cases shape
        cases digit
      case h_3 => rfl
  | @plus mark digits isMark own =>
      have sign : cursor.advance.rest = .char '+' :: (Glyph.ofText digits ++ rest) :=
        Cursor.rest_advance here
      obtain ⟨next, read, left⟩ := readDigits_spelled own ended.noDigit (Cursor.rest_advance sign)
      refine ⟨next, readExponent_mark (startsExponent_of_mark isMark here) ?_ read, left⟩
      rw [readSign, sign]
      rfl
  | @minus mark digits isMark own =>
      have sign : cursor.advance.rest = .char '-' :: (Glyph.ofText digits ++ rest) :=
        Cursor.rest_advance here
      obtain ⟨next, read, left⟩ := readDigits_spelled own ended.noDigit (Cursor.rest_advance sign)
      refine ⟨next, readExponent_mark (startsExponent_of_mark isMark here) ?_ read, left⟩
      rw [readSign, sign]
      rfl

/-- What `read` does behind the sign. -/
def readUnsigned (negative : Bool) (start : Cursor) :
    Except (Fault × Fault) (Numeral × Cursor) := do
  let (whole, next) ← readWhole start
  let (fraction, next) ← readFraction next
  let (exponent, next) ← readExponent next
  pure (⟨negative, whole, fraction, exponent⟩, next)

theorem read_minus {more : List Glyph} (sign : cursor.rest = .char '-' :: more) :
    read cursor = readUnsigned true cursor.advance := by
  unfold read
  rw [sign]
  rfl

theorem read_plain (noSign : ∀ more, cursor.rest ≠ .char '-' :: more) :
    read cursor = readUnsigned false cursor := by
  unfold read
  split
  case h_1 shape =>
    split at shape
    case h_1 more sign => exact absurd sign (noSign more)
    case h_2 =>
      cases shape
      rfl

private theorem readUnsigned_eq {negative : Bool} {whole : List Char}
    {fraction : Option (List Char)}
    {exponent : Option (Bool × List Char)} {start first second third : Cursor}
    (digits : readWhole start = .ok (whole, first))
    (point : readFraction first = .ok (fraction, second))
    (scale : readExponent second = .ok (exponent, third)) :
    readUnsigned negative start = .ok (⟨negative, whole, fraction, exponent⟩, third) := by
  unfold readUnsigned
  rw [digits]
  change (readFraction first >>= _) = _
  rw [point]
  change (readExponent second >>= _) = _
  rw [scale]
  rfl

/-- An exponent lengthens neither the digits before the point nor those behind it. -/
theorem Exponent.stops {exponent : Option (Bool × List Char)} {text : List Char}
    (own : Exponent exponent text) (ended : Ended rest) :
    ∀ c, (Glyph.ofText text ++ rest).head? = some (.char c) → c.isDigit = false ∧ c ≠ '.' := by
  have marked {mark : Char} (isMark : IsExponentMark mark) {more : List Glyph} :
      ∀ c, (Glyph.char mark :: more).head? = some (.char c) → c.isDigit = false ∧ c ≠ '.' := by
    rintro c ⟨⟩
    rcases isMark with rfl | rfl <;> decide
  cases own with
  | none => exact fun c here => ⟨(ended c here).1, (ended c here).2.1⟩
  | plain isMark | plus isMark | minus isMark => exact marked isMark

private theorem Fraction.stops {fraction : Option (List Char)} {text : List Char}
    (own : Fraction fraction text) (stops : Cursor.NoDigit rest) :
    Cursor.NoDigit (Glyph.ofText text ++ rest) := by
  cases own with
  | none => exact stops
  | some =>
      rintro c ⟨⟩
      rfl

private theorem readUnsigned_spelled {whole point scale : List Char} {fraction : Option (List Char)}
    {exponent : Option (Bool × List Char)} (own : Whole whole) (behind : Fraction fraction point)
    (last : Exponent exponent scale) (ended : Ended rest) (negative : Bool)
    (here : cursor.rest = Glyph.ofText (whole ++ (point ++ scale)) ++ rest) :
    ∃ next, readUnsigned negative cursor = .ok (⟨negative, whole, fraction, exponent⟩, next) ∧
      next.rest = rest := by
  have stops := last.stops ended
  have noDigit : Cursor.NoDigit (Glyph.ofText scale ++ rest) := fun c here => (stops c here).1
  obtain ⟨first, digits, left⟩ := readWhole_spelled own (behind.stops noDigit)
    (here.trans (by simp [Glyph.ofText]))
  obtain ⟨second, pointed, left⟩ := readFraction_spelled behind noDigit
    (fun c here => (stops c here).2) left
  obtain ⟨third, scaled, left⟩ := readExponent_spelled last ended left
  exact ⟨third, readUnsigned_eq digits pointed scaled, left⟩

/-- A text of a numeral is read as this numeral. -/
theorem read_spelled {numeral : Numeral} {text : List Char} (spelled : numeral.Spelled text)
    (ended : Ended rest) (here : cursor.rest = Glyph.ofText text ++ rest) :
    ∃ next, read cursor = .ok (numeral, next) ∧ next.rest = rest := by
  cases spelled with
  | @parts negative whole point scale fraction exponent own behind last =>
      cases negative with
      | true =>
          have sign : cursor.rest =
              .char '-' :: (Glyph.ofText (whole ++ (point ++ scale)) ++ rest) := here
          rw [read_minus sign]
          exact readUnsigned_spelled own behind last ended true (Cursor.rest_advance sign)
      | false =>
          have noSign : ∀ more, cursor.rest ≠ .char '-' :: more := by
            intro more sign
            obtain ⟨first, others, rfl, digit⟩ := own.head
            cases here.symm.trans sign
            cases digit
          rw [read_plain noSign]
          exact readUnsigned_spelled own behind last ended false here

/-! ### Integers -/

private theorem takeWithin_eq {limit value : Nat} {digits : List Char}
    (within : Nat.ofDigitChars 10 digits value ≤ limit) :
    takeWithin limit value digits = (Nat.ofDigitChars 10 digits value, []) := by
  induction digits generalizing value with
  | nil => rfl
  | cons digit digits ih =>
      have next : 10 * value + (digit.toNat - '0'.toNat) = value * 10 + digitValue digit := by
        rw [digitValue, Nat.mul_comm]
      rw [Nat.ofDigitChars_cons, next] at within ⊢
      have grows : value * 10 + digitValue digit ≤
          Nat.ofDigitChars 10 digits (value * 10 + digitValue digit) := by
        rw [Nat.ofDigitChars_eq_ofDigitChars_zero]
        exact Nat.le_trans (Nat.le_mul_of_pos_left _ (Nat.pow_pos (by decide)))
          (Nat.le_add_right _ _)
      rw [takeWithin, if_pos (Nat.le_trans grows within), ih within]

private theorem head_toDigits_ne_zero {value : Nat} (positive : 0 < value) :
    ∃ digit digits, Nat.toDigits 10 value = digit :: digits ∧ digit ≠ '0' := by
  induction value using Nat.strongRecOn with
  | ind value ih =>
      by_cases small : value < 10
      · refine ⟨Nat.digitChar value, [], Nat.toDigits_of_lt_base small, ?_⟩
        simp only [ne_eq, Nat.digitChar_eq_zero]
        omega
      · obtain ⟨digit, digits, shape, nonzero⟩ := ih (value / 10) (by omega) (by omega)
        refine ⟨digit, digits ++ [Nat.digitChar (value % 10)], ?_, nonzero⟩
        rw [Nat.toDigits_of_base_le (by decide) (by omega), shape]
        rfl

theorem whole_toDigits (value : Nat) : Whole (Nat.toDigits 10 value) := by
  by_cases zero : value = 0
  · rw [zero, Nat.toDigits_zero]
    exact .zero
  · obtain ⟨digit, digits, shape, nonzero⟩ := head_toDigits_ne_zero (Nat.pos_of_ne_zero zero)
    have each : ∀ c ∈ digit :: digits, c.isDigit := fun c member =>
      Nat.isDigit_of_mem_toDigits (by decide) (by decide) (shape ▸ member)
    rw [shape]
    exact .digits (each digit (.head _)) nonzero fun c member => each c (.tail _ member)

/-- The text of an integer is its digits, behind a minus sign if it is negative. -/
theorem spelled_integerText (value : Int) :
    Spelled ⟨decide (value < 0), Nat.toDigits 10 value.natAbs, none, none⟩
      (Number.integerText value) := by
  have parts := @Spelled.parts (decide (value < 0)) _ _ _ _ _ (whole_toDigits value.natAbs)
    .none .none
  simpa [Number.integerText] using parts

/-- The integers that the digits of a number are read as. -/
def Within (value : Int) : Prop :=
  -(2 ^ 63 : Int) ≤ value ∧ value < 2 ^ 64

instance (value : Int) : Decidable (Within value) :=
  inferInstanceAs (Decidable (-(2 ^ 63 : Int) ≤ value ∧ value < 2 ^ 64))

theorem value_integer {value : Int} (within : Within value) :
    Numeral.value ⟨decide (value < 0), Nat.toDigits 10 value.natAbs, none, none⟩ =
      .ok (.integer value) := by
  obtain ⟨lower, upper⟩ := within
  have limit : Nat.ofDigitChars 10 (Nat.toDigits 10 value.natAbs) 0 ≤ wordMax := by
    rw [Nat.ofDigitChars_ten_toDigits, wordMax]
    simp only [Nat.pow_eq]
    omega
  have taken := takeWithin_eq limit
  rw [Nat.ofDigitChars_ten_toDigits] at taken
  unfold Numeral.value
  rw [taken]
  by_cases negative : value < 0
  · have bound : 0 < value.natAbs ∧ value.natAbs ≤ Nat.pow 2 63 := by
      simp only [Nat.pow_eq]
      omega
    have back : -(value.natAbs : Int) = value := by omega
    simp only [negative, decide_true, Bool.not_true, Bool.false_eq_true, if_false, if_pos bound,
      back]
  · have back : (value.natAbs : Int) = value := by omega
    simp only [negative, decide_false, Bool.not_false, if_true, back]

end Numeral

/-- A text of a number: that of a numeral with this value. -/
def Number.Spelled (number : Number) (text : List Char) : Prop :=
  ∃ numeral : Numeral, numeral.Spelled text ∧ numeral.value = .ok number

theorem Number.Spelled.head {number : Number} {text : List Char} (spelled : number.Spelled text) :
    ∃ c rest, text = c :: rest ∧ (c = '-' ∨ c.isDigit = true) := by
  obtain ⟨numeral, ⟨own, behind, last⟩, -⟩ := spelled
  obtain ⟨first, others, rfl, digit⟩ := own.head
  split
  · exact ⟨'-', _, rfl, .inl rfl⟩
  · exact ⟨first, _, rfl, .inr digit⟩

theorem Number.spelled_integerText {value : Int} (within : Numeral.Within value) :
    Number.Spelled (.integer value) (Number.integerText value) :=
  ⟨_, Numeral.spelled_integerText value, Numeral.value_integer within⟩

end TracePipeline
