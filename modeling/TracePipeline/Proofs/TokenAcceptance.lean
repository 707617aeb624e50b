import TracePipeline.Proofs.JsonTokens
import TracePipeline.Proofs.Outcomes

/-! What is read as a part of a JSON text is a text of it: what is passed over is white space, what
is read as a number or a quoted text without a fault is spelled as one. -/

set_option autoImplicit false

namespace TracePipeline

/-! ## Cursors -/

namespace Cursor

private theorem exists_gapFrom (position : Position) (rest : List Glyph) :
    ∃ gap, Blank gap ∧ rest = Glyph.ofText gap ++ (skipSpaceFrom position rest).rest := by
  induction rest generalizing position with
  | nil => exact ⟨[], blank_nil, rfl⟩
  | cons glyph rest ih =>
      by_cases space : isSpace glyph
      · obtain ⟨gap, blank, split⟩ := ih (position.after glyph)
        cases glyph with
        | stray byte => cases space
        | char c =>
            refine ⟨c :: gap, List.forall_mem_cons.mpr ⟨space, blank⟩, ?_⟩
            simp only [skipSpaceFrom, space, if_true]
            exact congrArg (Glyph.char c :: ·) split
      · exact ⟨[], blank_nil, by simp [skipSpaceFrom, space, Glyph.ofText]⟩

/-- What is passed over is white space. -/
theorem exists_gap (cursor : Cursor) :
    ∃ gap, Blank gap ∧ cursor.rest = Glyph.ofText gap ++ cursor.skipSpace.rest :=
  exists_gapFrom cursor.position cursor.rest

private theorem takeDigitsFrom_split (position : Position) (rest : List Glyph) :
    (∀ c ∈ (takeDigitsFrom position rest).1, c.isDigit) ∧
      rest = Glyph.ofText (takeDigitsFrom position rest).1 ++
        (takeDigitsFrom position rest).2.rest := by
  induction rest generalizing position with
  | nil => exact ⟨List.forall_mem_nil _, rfl⟩
  | cons glyph rest ih =>
      cases glyph with
      | stray byte => exact ⟨List.forall_mem_nil _, rfl⟩
      | char c =>
          by_cases digit : c.isDigit
          · obtain ⟨each, split⟩ := ih (position.after (.char c))
            simp only [takeDigitsFrom, digit, if_true]
            exact ⟨List.forall_mem_cons.mpr ⟨digit, each⟩, congrArg (Glyph.char c :: ·) split⟩
          · simp only [takeDigitsFrom, if_neg digit]
            exact ⟨List.forall_mem_nil _, rfl⟩

theorem takeDigits_split {cursor next : Cursor} {digits : List Char}
    (taken : cursor.takeDigits = (digits, next)) :
    (∀ c ∈ digits, c.isDigit) ∧ cursor.rest = Glyph.ofText digits ++ next.rest := by
  have split := takeDigitsFrom_split cursor.position cursor.rest
  rw [← takeDigits, taken] at split
  exact split

end Cursor

/-! ## Numbers -/

namespace Numeral

variable {cursor next : Cursor}

theorem Digits.of_readDigits {digits : List Char} (read : readDigits cursor = .ok (digits, next)) :
    Digits digits ∧ cursor.rest = Glyph.ofText digits ++ next.rest := by
  rw [readDigits] at read
  cases taken : cursor.takeDigits with
  | mk text stop =>
      obtain ⟨each, split⟩ := Cursor.takeDigits_split taken
      rw [taken] at read
      cases text with
      | nil => cases read
      | cons first rest =>
          cases read
          exact ⟨⟨List.cons_ne_nil _ _, each⟩, split⟩

private theorem Whole.of_readWhole {whole : List Char}
    (read : readWhole cursor = .ok (whole, next)) :
    Whole whole ∧ cursor.rest = Glyph.ofText whole ++ next.rest := by
  unfold readWhole at read
  split at read
  case h_1 => cases read
  case h_2 rest zero =>
    dsimp only at read
    split at read
    · cases read
      exact ⟨.zero, by rw [Cursor.rest_advance zero, zero]; rfl⟩
    · cases read
  case h_3 notZero =>
    cases taken : cursor.takeDigits with
    | mk text stop =>
        obtain ⟨each, split⟩ := Cursor.takeDigits_split taken
        rw [taken] at read
        cases text with
        | nil => cases read
        | cons first rest =>
            cases read
            obtain ⟨own, others⟩ := List.forall_mem_cons.mp each
            refine ⟨.digits own ?_ others, split⟩
            rintro rfl
            exact notZero _ split

private theorem Fraction.of_readFraction {fraction : Option (List Char)}
    (read : readFraction cursor = .ok (fraction, next)) :
    ∃ text, Fraction fraction text ∧ cursor.rest = Glyph.ofText text ++ next.rest := by
  unfold readFraction at read
  split at read
  case h_1 rest point =>
    obtain ⟨⟨digits, stop⟩, behind, finished⟩ := bind_eq_ok_iff.mp read
    cases finished
    obtain ⟨own, split⟩ := Digits.of_readDigits behind
    refine ⟨_, .some own, ?_⟩
    rw [point, ← Cursor.rest_advance point, split]
    rfl
  case h_2 =>
    cases read
    exact ⟨[], .none, rfl⟩

private theorem readSign_cases (cursor : Cursor) :
    readSign cursor = (false, cursor) ∨
      (readSign cursor = (false, cursor.advance) ∧
        cursor.rest = .char '+' :: cursor.advance.rest) ∨
      (readSign cursor = (true, cursor.advance) ∧
        cursor.rest = .char '-' :: cursor.advance.rest) := by
  unfold readSign
  split
  case h_1 rest sign => exact .inr (.inl ⟨rfl, by rw [Cursor.rest_advance sign, sign]⟩)
  case h_2 rest sign => exact .inr (.inr ⟨rfl, by rw [Cursor.rest_advance sign, sign]⟩)
  case h_3 => exact .inl rfl

private theorem Exponent.of_readExponent {exponent : Option (Bool × List Char)}
    (read : readExponent cursor = .ok (exponent, next)) :
    ∃ text, Exponent exponent text ∧ cursor.rest = Glyph.ofText text ++ next.rest := by
  unfold readExponent at read
  split at read
  case isFalse =>
    cases read
    exact ⟨[], .none, rfl⟩
  case isTrue starts =>
    obtain ⟨mark, isMark, here⟩ :
        ∃ mark, IsExponentMark mark ∧ cursor.rest = .char mark :: cursor.advance.rest := by
      unfold startsExponent at starts
      split at starts
      case h_1 c rest shape =>
        exact ⟨c, by simpa [IsExponentMark] using starts, by rw [Cursor.rest_advance shape, shape]⟩
      case h_2 => cases starts
    rcases readSign_cases cursor.advance with none | ⟨plus, sign⟩ | ⟨minus, sign⟩
    · rw [none] at read
      obtain ⟨⟨digits, stop⟩, behind, finished⟩ := bind_eq_ok_iff.mp read
      cases finished
      obtain ⟨own, split⟩ := Digits.of_readDigits behind
      exact ⟨_, .plain isMark own, by rw [here, split]; rfl⟩
    · rw [plus] at read
      obtain ⟨⟨digits, stop⟩, behind, finished⟩ := bind_eq_ok_iff.mp read
      cases finished
      obtain ⟨own, split⟩ := Digits.of_readDigits behind
      exact ⟨_, .plus isMark own, by rw [here, sign, split]; rfl⟩
    · rw [minus] at read
      obtain ⟨⟨digits, stop⟩, behind, finished⟩ := bind_eq_ok_iff.mp read
      cases finished
      obtain ⟨own, split⟩ := Digits.of_readDigits behind
      exact ⟨_, .minus isMark own, by rw [here, sign, split]; rfl⟩

private theorem exists_parts_of_readUnsigned {negative : Bool} {numeral : Numeral}
    (read : readUnsigned negative cursor = .ok (numeral, next)) :
    ∃ text, cursor.rest = Glyph.ofText text ++ next.rest ∧
      numeral.Spelled ((if negative then ['-'] else []) ++ text) := by
  obtain ⟨⟨whole, first⟩, digits, read⟩ := bind_eq_ok_iff.mp read
  obtain ⟨⟨fraction, second⟩, point, read⟩ := bind_eq_ok_iff.mp read
  obtain ⟨⟨exponent, third⟩, scale, read⟩ := bind_eq_ok_iff.mp read
  cases read
  obtain ⟨own, split⟩ := Whole.of_readWhole digits
  obtain ⟨pointed, behind, split'⟩ := Fraction.of_readFraction point
  obtain ⟨scaled, last, split''⟩ := Exponent.of_readExponent scale
  refine ⟨whole ++ (pointed ++ scaled), ?_, .parts own behind last⟩
  rw [split, split', split'']
  simp [Glyph.ofText]

/-- What is read as a numeral is a text of it. -/
theorem Spelled.of_read {numeral : Numeral} (done : read cursor = .ok (numeral, next)) :
    ∃ text, numeral.Spelled text ∧ cursor.rest = Glyph.ofText text ++ next.rest := by
  by_cases sign : ∃ more, cursor.rest = .char '-' :: more
  · obtain ⟨more, here⟩ := sign
    rw [read_minus here] at done
    obtain ⟨text, split, spelled⟩ := exists_parts_of_readUnsigned done
    refine ⟨_, spelled, ?_⟩
    rw [here, ← Cursor.rest_advance here, split]
    rfl
  · rw [read_plain (not_exists.mp sign)] at done
    obtain ⟨text, split, spelled⟩ := exists_parts_of_readUnsigned done
    exact ⟨_, spelled, split⟩

end Numeral

/-! ## Quoted texts -/

namespace Quoted

variable {position : Position} {progress : Progress} {rest : List Glyph} {text : String}
  {next : Cursor}

/-- The strict reader has nothing to hold against the text so far. -/
def Progress.Faultless (progress : Progress) : Prop :=
  progress.fault = none ∧ progress.unreadable = none

theorem Progress.Faultless.of_push {c : Char} (faultless : (progress.push c).Faultless) :
    progress.Faultless :=
  ⟨faultless.1, Option.map_eq_none_iff.mp faultless.2⟩

theorem Progress.not_faultless_pushStray : ¬progress.pushStray.Faultless :=
  fun faultless => nomatch faultless.2

theorem Progress.not_faultless_fail {fault : Fault} : ¬(progress.fail fault).Faultless := by
  rintro ⟨none, -⟩
  cases found : progress.fault <;> simp [fail, found] at none

private theorem Progress.Faultless.of_pushUnit {code : Nat}
    (faultless : (progress.pushUnit code next).Faultless) : progress.Faultless := by
  unfold pushUnit at faultless
  split at faultless
  case isTrue =>
    have neither := Option.orElse_eq_or.symm.trans faultless.1
    exact ⟨(Option.or_eq_none_iff.mp neither).1, faultless.2⟩
  case isFalse =>
    split at faultless
    case isTrue =>
      split at faultless
      case h_1 => exact faultless.of_push
      case h_2 => exact absurd faultless not_faultless_fail
    case isFalse => exact faultless.of_push

private theorem Progress.Faultless.of_close {behind : Cursor}
    (closed : progress.close position behind = .closed (.ok text) next) : progress.Faultless := by
  unfold close at closed
  split at closed
  case h_1 => cases closed
  case h_2 noFault =>
    split at closed
    case h_1 => cases closed
    case h_2 readable => exact ⟨noFault, readable⟩

/-- A fault is never taken back. -/
theorem faultless_of_readFrom {mode : Mode}
    (closed : readFrom position mode progress rest = .closed (.ok text) next) :
    progress.Faultless := by
  induction rest generalizing position mode progress with
  | nil => cases closed
  | cons glyph rest ih =>
      unfold readFrom at closed
      dsimp only at closed
      split at closed
      case h_1 => exact absurd (ih closed) Progress.not_faultless_pushStray
      case h_2 c =>
        split at closed
        case isTrue => exact .of_close closed
        case isFalse =>
          split at closed
          case isTrue => exact ih closed
          case isFalse =>
            split at closed
            case isTrue => cases closed
            case isFalse => exact (ih closed).of_push
      case h_3 => cases closed
      case h_4 c =>
        split at closed
        case isTrue => exact ih closed
        case isFalse =>
          split at closed
          case h_1 => exact (ih closed).of_push
          case h_2 => cases closed
      case h_5 missing value =>
        split at closed
        case h_1 => cases closed
        case h_2 =>
          split at closed
          case isTrue => exact (ih closed).of_pushUnit
          case isFalse => exact ih closed

private theorem exists_digit {missing value : Nat}
    (closed : readFrom position (.unit missing value) progress rest = .closed (.ok text) next) :
    ∃ c digit more, rest = .char c :: more ∧ hexDigit? c = some digit ∧
      (if missing = 1 then
        readFrom (position.after (.char c)) .plain
          (progress.pushUnit (value * 16 + digit) ⟨position.after (.char c), more⟩) more
      else
        readFrom (position.after (.char c)) (.unit (missing - 1) (value * 16 + digit)) progress
          more) = .closed (.ok text) next := by
  cases rest with
  | nil => cases closed
  | cons glyph more =>
      cases glyph with
      | stray byte => cases closed
      | char c =>
          unfold readFrom at closed
          dsimp only [hexGlyph?] at closed
          split at closed
          case h_1 => cases closed
          case h_2 digit known => exact ⟨c, digit, more, rfl, known, closed⟩

/-- Four digits stand where a code unit is read. -/
theorem exists_unit
    (closed : readFrom position (.unit 4 0) progress rest = .closed (.ok text) next) :
    ∃ i j k l code place more, rest = Glyph.ofText [i, j, k, l] ++ more ∧
      hexQuad? i j k l = some code ∧
      readFrom place .plain (progress.pushUnit code ⟨place, more⟩) more =
        .closed (.ok text) next := by
  obtain ⟨i, a, more, rfl, first, closed⟩ := exists_digit closed
  rw [if_neg (by decide)] at closed
  obtain ⟨j, b, more, rfl, second, closed⟩ := exists_digit closed
  rw [if_neg (by decide)] at closed
  obtain ⟨k, c, more, rfl, third, closed⟩ := exists_digit closed
  rw [if_neg (by decide)] at closed
  obtain ⟨l, d, more, rfl, fourth, closed⟩ := exists_digit closed
  rw [if_pos rfl] at closed
  refine ⟨i, j, k, l, _, _, more, rfl, ?_, closed⟩
  exact hexQuad?_eq_some_iff.mpr ⟨a, b, c, d, first, second, third, fourth, by omega⟩

/-- Where nothing is wrong with the first half of a pair, its second half follows. -/
theorem exists_trailing {place : Position} (noFault : pairFault? place rest = none)
    (closed : readFrom position .plain progress rest = .closed (.ok text) next) :
    ∃ m n o p code place more, rest = Glyph.ofText ['\\', 'u', m, n, o, p] ++ more ∧
      hexQuad? m n o p = some code ∧ isTrailing code ∧
      readFrom place .plain (progress.pushUnit code ⟨place, more⟩) more =
        .closed (.ok text) next := by
  unfold pairFault? at noFault
  split at noFault
  case h_1 => cases closed
  case h_3 => cases noFault
  case h_2 behind =>
    dsimp only at noFault
    split at noFault
    case h_1 => cases closed
    case h_4 => cases noFault
    case h_2 m n o p more =>
      obtain ⟨_, _, _, _, code, stop, more, shape, known, ends⟩ := exists_unit closed
      cases shape
      simp only [known] at noFault
      split at noFault
      case isTrue trailing =>
        exact ⟨m, n, o, p, code, stop, more, rfl, known, trailing, ends⟩
      case isFalse => cases noFault
    case h_3 more notUnit =>
      obtain ⟨m, n, o, p, code, stop, more, rfl, -⟩ := exists_unit closed
      exact absurd rfl (notUnit m n o p more)

/-- A part of a quoted text stands for the character that is read of it, whatever follows. -/
def SpellsFirst (c : Char) (part : List Char) : Prop :=
  ∀ {text body : List Char}, Spells text body → Spells (c :: text) (part ++ body)

/-- A code unit is a character, or the first half of a pair that stands for one. -/
theorem exists_coded {taken : List Char} {i j k l : Char} {code : Nat}
    (known : hexQuad? i j k l = some code)
    (closed : readFrom position .plain
      ((Progress.clean taken).pushUnit code ⟨position, rest⟩) rest = .closed (.ok text) next) :
    ∃ c part place more, rest = Glyph.ofText part ++ more ∧
      SpellsFirst c ('\\' :: 'u' :: i :: j :: k :: l :: part) ∧
      readFrom place .plain (.clean (c :: taken)) more = .closed (.ok text) next := by
  have faultless := faultless_of_readFrom closed
  cases leading : isLeading code with
  | true =>
      have noFault : pairFault? position rest = none := by
        simpa [Progress.pushUnit, leading, Progress.clean] using faultless.1
      obtain ⟨m, n, o, p, second, place, more, rfl, known', trailing, ends⟩ :=
        exists_trailing noFault closed
      rw [pushUnit_leading leading known' trailing, pushUnit_trailing trailing] at ends
      exact ⟨pairChar code second, ['\\', 'u', m, n, o, p], place, more, rfl,
        .pair known leading known' trailing, ends⟩
  | false =>
      cases trailing : isTrailing code with
      | true =>
          simp only [Progress.pushUnit, leading, trailing, Bool.false_eq_true, if_false,
            if_true] at faultless
          exact absurd faultless Progress.not_faultless_fail
      | false =>
          rw [pushUnit_clean leading trailing] at closed
          exact ⟨Char.ofNat code, [], position, rest, rfl, .unit known leading trailing, closed⟩

private theorem exists_escape {taken : List Char}
    (closed : readFrom position .escape (.clean taken) rest = .closed (.ok text) next) :
    ∃ c part place more, rest = Glyph.ofText part ++ more ∧ SpellsFirst c ('\\' :: part) ∧
      readFrom place .plain (.clean (c :: taken)) more = .closed (.ok text) next := by
  match rest with
  | [] => cases closed
  | .stray byte :: more => cases closed
  | .char mark :: more =>
      unfold readFrom at closed
      dsimp only at closed
      split at closed
      case isTrue isUnit =>
        subst isUnit
        obtain ⟨i, j, k, l, code, place, behind, rfl, known, ends⟩ := exists_unit closed
        obtain ⟨c, part, place, more, rfl, first, ends⟩ := exists_coded known ends
        exact ⟨c, 'u' :: i :: j :: k :: l :: part, place, more, rfl, first, ends⟩
      case isFalse =>
        split at closed
        case h_1 c known => exact ⟨c, [mark], _, more, rfl, .short known, closed⟩
        case h_2 => cases closed

/-- A step through a quoted text is the closing quote or a part that stands for a character. -/
theorem exists_step {taken : List Char}
    (closed : readFrom position .plain (.clean taken) rest = .closed (.ok text) next) :
    (rest = .char '"' :: next.rest ∧ text = String.ofList taken.reverse) ∨
      ∃ c part place more, rest = Glyph.ofText part ++ more ∧ part ≠ [] ∧ SpellsFirst c part ∧
        readFrom place .plain (.clean (c :: taken)) more = .closed (.ok text) next := by
  match rest with
  | [] => cases closed
  | .stray byte :: more =>
      have faultless : (Progress.clean taken).pushStray.Faultless := faultless_of_readFrom closed
      exact absurd faultless Progress.not_faultless_pushStray
  | .char c :: more =>
      unfold readFrom at closed
      dsimp only at closed
      split at closed
      case isTrue quote =>
        subst quote
        cases closed
        exact .inl ⟨rfl, rfl⟩
      case isFalse notQuote =>
        split at closed
        case isTrue mark =>
          subst mark
          obtain ⟨c, part, place, more, rfl, first, ends⟩ := exists_escape closed
          exact .inr ⟨c, '\\' :: part, place, more, rfl, List.cons_ne_nil _ _, first,
            ends⟩
        case isFalse notMark =>
          split at closed
          case isTrue => cases closed
          case isFalse visible =>
            exact .inr ⟨c, [c], _, more, rfl, List.cons_ne_nil _ _,
              .plain notQuote notMark visible, closed⟩

/-- Up to the closing quote, what is read as a text stands for this text. -/
theorem exists_spelled {taken : List Char}
    (closed : readFrom position .plain (.clean taken) rest = .closed (.ok text) next) :
    ∃ body tail, rest = Glyph.ofText body ++ .char '"' :: next.rest ∧ Spells tail body ∧
      text.toList = taken.reverse ++ tail := by
  -- An escape takes more than one glyph, so the induction is on the number of glyphs.
  induction glyphs : rest.length using Nat.strongRecOn generalizing position taken rest with
  | ind count ih =>
      rcases exists_step closed with
        ⟨rfl, rfl⟩ | ⟨c, part, place, more, rfl, some, first, closed⟩
      · exact ⟨[], [], rfl, .nil, by simp⟩
      · have smaller : more.length < count := by
          have positive := List.length_pos_of_ne_nil some
          simp only [Glyph.ofText, List.length_append, List.length_map] at glyphs
          omega
        obtain ⟨body, tail, rfl, spells, whole⟩ := ih _ smaller closed rfl
        exact ⟨part ++ body, c :: tail, by simp [Glyph.ofText], first spells,
          by simpa using whole⟩

/-- What is read as a text behind an opening quote stands for this text. -/
theorem Spells.of_read {cursor : Cursor} (closed : read cursor = .closed (.ok text) next) :
    ∃ body, cursor.rest = Glyph.ofText body ++ .char '"' :: next.rest ∧
      Spells text.toList body := by
  have clean : readFrom cursor.position .plain (.clean []) cursor.rest = .closed (.ok text) next :=
    closed
  obtain ⟨body, tail, split, spells, whole⟩ := exists_spelled clean
  rw [List.reverse_nil, List.nil_append] at whole
  exact ⟨body, split, whole ▸ spells⟩

end Quoted

end TracePipeline
