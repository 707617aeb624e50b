import TracePipeline.Proofs.Splicing

/-! Where order ids come from. A span has the id of its own attributes, a stage or a parallel branch
without one has that of the first span below that marks it, and all others have zero. -/

set_option autoImplicit false

namespace TracePipeline

/-! ## Texts of integers -/

/-- A text spells an integer of 64 bits: digits, with a sign in front or without one. -/
inductive SpellsInteger : List Char → Int → Prop
  | unsigned {digits : List Char} (some : digits ≠ []) (each : ∀ c ∈ digits, c.isDigit)
      (within : Nat.ofDigitChars 10 digits 0 < Nat.pow 2 63) :
      SpellsInteger digits (Nat.ofDigitChars 10 digits 0)
  | positive {digits : List Char} (some : digits ≠ []) (each : ∀ c ∈ digits, c.isDigit)
      (within : Nat.ofDigitChars 10 digits 0 < Nat.pow 2 63) :
      SpellsInteger ('+' :: digits) (Nat.ofDigitChars 10 digits 0)
  | negative {digits : List Char} (some : digits ≠ []) (each : ∀ c ∈ digits, c.isDigit)
      (within : Nat.ofDigitChars 10 digits 0 ≤ Nat.pow 2 63) :
      SpellsInteger ('-' :: digits) (-Nat.ofDigitChars 10 digits 0)

private theorem Binary64.eq_of_takeSign {text digits : List Char} {negative : Bool}
    (split : takeSign text = (negative, digits)) :
    negative = true ∧ text = '-' :: digits ∨
      negative = false ∧ (text = '+' :: digits ∨ text = digits) := by
  unfold takeSign at split
  split at split <;> simp_all

private theorem Binary64.takeSign_digits {digits : List Char} (each : ∀ c ∈ digits, c.isDigit) :
    takeSign digits = (false, digits) := by
  unfold takeSign
  split
  case h_1 => exact absurd (each '-' (.head _)) (by decide)
  case h_2 => exact absurd (each '+' (.head _)) (by decide)
  case h_3 => rfl

namespace Span

private theorem parseInteger?_of_takeSign {text digits : List Char} {negative : Bool}
    (split : Binary64.takeSign text = (negative, digits)) (value : Int) :
    parseInteger? text = some value ↔
      (digits ≠ [] ∧ ∀ c ∈ digits, c.isDigit) ∧
        (if negative then -(Binary64.digitsValue digits : Int)
          else Binary64.digitsValue digits) = value ∧
        -(Nat.pow 2 63 : Int) ≤ value ∧ value < Nat.pow 2 63 := by
  have refused : (digits.isEmpty || !digits.all Char.isDigit) = true ↔
      ¬(digits ≠ [] ∧ ∀ c ∈ digits, c.isDigit) := by
    simp [Decidable.or_iff_not_imp_left]
  unfold parseInteger?
  rw [split]
  simp only [refused]
  by_cases digitsOnly : digits ≠ [] ∧ ∀ c ∈ digits, c.isDigit
  · rw [if_neg (not_not_intro digitsOnly), Option.ite_none_right_eq_some, Option.some.injEq]
    constructor
    · intro read
      obtain ⟨within, rfl⟩ := read
      exact ⟨digitsOnly, rfl, within⟩
    · intro whole
      obtain ⟨-, rfl, within⟩ := whole
      exact ⟨within, rfl⟩
  · rw [if_pos digitsOnly]
    exact ⟨(nomatch ·), fun whole => absurd whole.1 digitsOnly⟩

theorem parseInteger?_eq_some_iff {text : List Char} {value : Int} :
    parseInteger? text = some value ↔ SpellsInteger text value := by
  constructor
  case mp =>
    intro read
    cases split : Binary64.takeSign text with
    | mk negative digits =>
        obtain ⟨⟨some, each⟩, rfl, within⟩ := (parseInteger?_of_takeSign split value).mp read
        obtain ⟨rfl, rfl⟩ | ⟨rfl, rfl | rfl⟩ := Binary64.eq_of_takeSign split
        · rw [if_pos rfl] at within ⊢
          exact .negative some each (Int.ofNat_le.mp (Int.neg_le_neg_iff.mp within.1))
        · rw [if_neg Bool.false_ne_true] at within ⊢
          exact .positive some each (Int.ofNat_lt.mp within.2)
        · rw [if_neg Bool.false_ne_true] at within ⊢
          exact .unsigned some each (Int.ofNat_lt.mp within.2)
  case mpr =>
    intro spelled
    have limit : Nat.pow 2 63 = 9223372036854775808 := rfl
    cases spelled with
    | unsigned some each within =>
        refine (parseInteger?_of_takeSign (Binary64.takeSign_digits each) _).mpr
          ⟨⟨some, each⟩, rfl, ?_⟩
        omega
    | positive some each within =>
        refine (parseInteger?_of_takeSign rfl _).mpr ⟨⟨some, each⟩, rfl, ?_⟩
        omega
    | negative some each within =>
        refine (parseInteger?_of_takeSign rfl _).mpr ⟨⟨some, each⟩, rfl, ?_⟩
        omega

/-! ## The id of a span's own attributes -/

/-- An attribute holds an integer, with blanks around it or without. -/
def AttributeHolds (span : Span) (key : String) (order : Int) : Prop :=
  ∃ text, span.attributes.get? key = some text ∧ SpellsInteger (Text.trim text.toList) order

/-- A span holds the integer of the first of its two attributes that holds one. -/
inductive HoldsOrder (span : Span) : Int → Prop
  | first {order : Int} (holds : span.AttributeHolds "step.id" order) : HoldsOrder span order
  | second {order : Int} (missing : ¬∃ other, span.AttributeHolds "step.id" other)
      (holds : span.AttributeHolds "jenkins.pipeline.step.id" order) : HoldsOrder span order

/-- A span shows the integer of the first of its two attributes that is there at all. -/
inductive ShowsOrder (span : Span) : Int → Prop
  | first {order : Int} (holds : span.AttributeHolds "step.id" order) : ShowsOrder span order
  | second {order : Int} (missing : span.attributes.get? "step.id" = none)
      (holds : span.AttributeHolds "jenkins.pipeline.step.id" order) : ShowsOrder span order

/-- The first attribute is there and holds no integer, while the second one does. -/
def HidesOrder (span : Span) : Prop :=
  (∃ text, span.attributes.get? "step.id" = some text) ∧
    (¬∃ other, span.AttributeHolds "step.id" other) ∧
    ∃ order, span.AttributeHolds "jenkins.pipeline.step.id" order

theorem AttributeHolds.unique {span : Span} {key : String} {order other : Int}
    (holds : span.AttributeHolds key order) (also : span.AttributeHolds key other) :
    order = other := by
  obtain ⟨text, found, spelled⟩ := holds
  obtain ⟨text', found', spelled'⟩ := also
  cases found.symm.trans found'
  have same := (parseInteger?_eq_some_iff.mpr spelled).symm.trans
    (parseInteger?_eq_some_iff.mpr spelled')
  exact Option.some.inj same

theorem HoldsOrder.unique {span : Span} {order other : Int} (holds : span.HoldsOrder order)
    (also : span.HoldsOrder other) : order = other := by
  cases holds with
  | first own =>
      cases also with
      | first own' => exact own.unique own'
      | second missing => exact absurd ⟨order, own⟩ missing
  | second missing own =>
      cases also with
      | first own' => exact absurd ⟨other, own'⟩ missing
      | second _ own' => exact own.unique own'

theorem rawOrder?_eq (span : Span) :
    span.rawOrder? = (span.attributes.get? "step.id").or
      (span.attributes.get? "jenkins.pipeline.step.id") := by
  rw [rawOrder?, orderKeys, List.findSome?_cons, List.findSome?_singleton]
  cases span.attributes.get? "step.id" <;> rfl

theorem directOrder?_eq_some_iff {span : Span} {order : Int} :
    span.directOrder? = some order ↔ span.ShowsOrder order := by
  rw [directOrder?, rawOrder?_eq, Option.bind_eq_some_iff]
  simp only [parseInteger?_eq_some_iff]
  cases first : span.attributes.get? "step.id" with
  | some text =>
      constructor
      case mp =>
        intro read
        obtain ⟨_, ⟨⟩, spelled⟩ := read
        exact .first ⟨text, first, spelled⟩
      case mpr =>
        intro shows
        cases shows with
        | first holds =>
            obtain ⟨text', found, spelled⟩ := holds
            cases first.symm.trans found
            exact ⟨text, rfl, spelled⟩
        | second missing => cases first.symm.trans missing
  | none =>
      constructor
      case mp =>
        intro read
        obtain ⟨text, found, spelled⟩ := read
        exact .second first ⟨text, found, spelled⟩
      case mpr =>
        intro shows
        cases shows with
        | first holds =>
            obtain ⟨text, found, -⟩ := holds
            cases first.symm.trans found
        | second _ holds => exact holds

private theorem ShowsOrder.holds {span : Span} {order : Int} (shows : span.ShowsOrder order) :
    span.HoldsOrder order := by
  cases shows with
  | first holds => exact .first holds
  | second missing holds =>
      refine .second (fun first => ?_) holds
      obtain ⟨other, text, found, -⟩ := first
      cases missing.symm.trans found

theorem HoldsOrder.shows_iff {span : Span} {order : Int} (holds : span.HoldsOrder order) :
    span.ShowsOrder order ↔ ¬span.HidesOrder := by
  cases holds with
  | first holds => exact iff_of_true (.first holds) fun hides => hides.2.1 ⟨order, holds⟩
  | second missing holds =>
      constructor
      case mp =>
        intro shows hides
        obtain ⟨⟨text, there⟩, -⟩ := hides
        cases shows with
        | first own => exact missing ⟨order, own⟩
        | second absent => cases absent.symm.trans there
      case mpr =>
        intro open'
        refine .second ?_ holds
        rw [Option.eq_none_iff_forall_ne_some]
        exact fun text there => open' ⟨⟨text, there⟩, missing, order, holds⟩

/-! ## Markers -/

/-- Another span marks the same stage or parallel branch as a span that has a name. -/
def Marks (span other : Span) : Prop :=
  span.name ≠ "" ∧
    (other.spanName = "Stage: " ++ span.name ∨ other.spanName = "Parallel branch: " ++ span.name ∨
      other.stepType = "stage" ∧ other.name = span.name)

theorem isMarkedBy_iff {span other : Span} : span.isMarkedBy other = true ↔ span.Marks other := by
  simp [isMarkedBy, Marks, or_assoc]

theorem markerOrder?_eq_findSome? (group span : Span) :
    markerOrder? group span =
      span.descendants.findSome? fun other =>
        if group.isMarkedBy other then other.directOrder? else none := by
  induction span using induct_children with
  | step span ih =>
      rw [markerOrder?_eq, descendants_eq]
      generalize span.children = spans at ih
      induction spans with
      | nil => rfl
      | cons child rest others =>
          rw [markerOrderAmong?, descendantsOf, ih child (.head _),
            others fun inner member => ih inner (.tail _ member), List.findSome?_cons,
            List.findSome?_append]
          cases if group.isMarkedBy child then child.directOrder? else none <;> rfl

/-! ## Recovered order ids -/

/-- An order id and the span that tells it, if there is one: the span itself, or for a stage or a
parallel branch the first span below that marks it and has an id. Where nothing tells it, the id is
zero. `own` says which id a span has by itself. -/
inductive Recovers (own : Span → Int → Prop) (span : Span) : Option Span → Int → Prop
  | self {order : Int} (has : own span order) : Recovers own span (some span) order
  | marker {order : Int} {marker : Span} {before after : List Span}
      (without : ¬∃ other, own span other)
      (group : span.stepType = "stage" ∨ span.stepType = "parallel")
      (split : span.descendants = before ++ marker :: after) (marks : span.Marks marker)
      (has : own marker order)
      (first : ∀ other ∈ before, span.Marks other → ¬∃ id, own other id) :
      Recovers own span (some marker) order
  | zero (without : ¬∃ other, own span other)
      (nothing : span.stepType = "stage" ∨ span.stepType = "parallel" →
        ∀ other ∈ span.descendants, span.Marks other → ¬∃ id, own other id) :
      Recovers own span none 0

theorem directOrder?_eq_none {span : Span} (without : ¬∃ order, span.ShowsOrder order) :
    span.directOrder? = none := by
  rw [Option.eq_none_iff_forall_ne_some]
  exact fun order shown => without ⟨order, directOrder?_eq_some_iff.mp shown⟩

private theorem markerOrder?_eq_none {span : Span} {others : List Span}
    (nothing : ∀ other ∈ others, span.Marks other → ¬∃ order, other.ShowsOrder order) :
    (others.findSome? fun other =>
      if span.isMarkedBy other then other.directOrder? else none) = none := by
  rw [List.findSome?_eq_none_iff]
  intro other member
  split
  case isTrue marked =>
    exact directOrder?_eq_none (nothing other member (isMarkedBy_iff.mp marked))
  case isFalse => rfl

private theorem order_eq_of_recovers {span : Span} {source : Option Span} {order : Int}
    (recovers : Recovers ShowsOrder span source order) : span.order = order := by
  unfold Span.order
  cases recovers with
  | self has => rw [directOrder?_eq_some_iff.mpr has]
  | @marker _ marker before after without group split marks has first =>
      have isGroup : (span.stepType = "stage" || span.stepType = "parallel") = true := by
        simpa using group
      have found : markerOrder? span span = some order := by
        rw [markerOrder?_eq_findSome?, split, List.findSome?_append, markerOrder?_eq_none first,
          List.findSome?_cons, if_pos (isMarkedBy_iff.mpr marks),
          directOrder?_eq_some_iff.mpr has]
        rfl
      rw [directOrder?_eq_none without, found]
      exact if_pos isGroup
  | zero without nothing =>
      rw [directOrder?_eq_none without]
      simp only
      split
      case isTrue isGroup =>
        have group : span.stepType = "stage" ∨ span.stepType = "parallel" := by
          simpa using isGroup
        rw [markerOrder?_eq_findSome?, markerOrder?_eq_none (nothing group)]
        rfl
      case isFalse => rfl

theorem exists_recovers (own : Span → Int → Prop) (span : Span) :
    ∃ source order, Recovers own span source order := by
  classical
  by_cases has : ∃ order, own span order
  · obtain ⟨order, has⟩ := has
    exact ⟨_, order, .self has⟩
  by_cases group : span.stepType = "stage" ∨ span.stepType = "parallel"
  · cases found : span.descendants.find? fun other => span.Marks other ∧ ∃ order, own other order
      with
    | none =>
        have nothing := List.find?_eq_none.mp found
        refine ⟨none, 0, .zero has fun _ other member marked told => ?_⟩
        exact nothing other member (decide_eq_true ⟨marked, told⟩)
    | some marker =>
        obtain ⟨holds, before, after, split, first⟩ := List.find?_eq_some_iff_append.mp found
        obtain ⟨marks, order, told⟩ := of_decide_eq_true holds
        refine ⟨_, order, .marker has group split marks told fun other earlier marked id => ?_⟩
        simpa [marked, id] using first other earlier
  · exact ⟨none, 0, .zero has fun isGroup => absurd isGroup group⟩

private theorem marker_unique {own : Span → Int → Prop} {span marker marker' : Span}
    {order order' : Int} {before before' after after' : List Span}
    (split : span.descendants = before ++ marker :: after)
    (split' : span.descendants = before' ++ marker' :: after')
    (marks : span.Marks marker) (marks' : span.Marks marker')
    (has : own marker order) (has' : own marker' order')
    (first : ∀ other ∈ before, span.Marks other → ¬∃ id, own other id)
    (first' : ∀ other ∈ before', span.Marks other → ¬∃ id, own other id) : marker = marker' := by
  classical
  -- Both are what a search for a marker with an id finds.
  have found {one : Span} {id : Int} {earlier later : List Span}
      (split : span.descendants = earlier ++ one :: later) (marks : span.Marks one)
      (has : own one id) (first : ∀ other ∈ earlier, span.Marks other → ¬∃ id, own other id) :
      (span.descendants.find? fun other => span.Marks other ∧ ∃ id, own other id) = some one := by
    refine List.find?_eq_some_iff_append.mpr
      ⟨decide_eq_true ⟨marks, id, has⟩, earlier, later, split, fun other member => ?_⟩
    rw [Bool.not_eq_true', decide_eq_false_iff_not, not_and]
    exact first other member
  exact Option.some.inj ((found split marks has first).symm.trans (found split' marks' has' first'))

theorem Recovers.source_unique {own : Span → Int → Prop} {span : Span}
    {source source' : Option Span} {order order' : Int} (recovers : Recovers own span source order)
    (recovers' : Recovers own span source' order') : source = source' := by
  cases recovers with
  | self has =>
      cases recovers' with
      | self => rfl
      | marker without => exact absurd ⟨_, has⟩ without
      | zero without => exact absurd ⟨_, has⟩ without
  | @marker _ marker before after without group split marks has first =>
      cases recovers' with
      | self has' => exact absurd ⟨_, has'⟩ without
      | marker _ _ split' marks' has' first' =>
          exact congrArg some (marker_unique split split' marks marks' has has' first first')
      | zero _ nothing =>
          exact absurd ⟨_, has⟩ (nothing group marker (by simp [split]) marks)
  | zero without nothing =>
      cases recovers' with
      | self has' => exact absurd ⟨_, has'⟩ without
      | @marker _ marker' _ _ _ group split' marks' has' _ =>
          exact absurd ⟨_, has'⟩ (nothing group marker' (by simp [split']) marks')
      | zero => rfl

/-- The span that tells an id by what the attributes hold also tells it by what they show, unless
it hides it. -/
theorem Recovers.shows_iff {span : Span} {source : Option Span} {order : Int}
    (recovers : Recovers HoldsOrder span source order) :
    Recovers ShowsOrder span source order ↔ ∀ teller ∈ source, ¬teller.HidesOrder := by
  have without {other : Span} (nothing : ¬∃ id, other.HoldsOrder id) :
      ¬∃ id, other.ShowsOrder id := fun ⟨id, shows⟩ => nothing ⟨id, shows.holds⟩
  cases recovers with
  | self has =>
      constructor
      case mp =>
        intro shown teller told
        cases told
        cases shown with
        | self has' => exact has.shows_iff.mp has'
        | marker silent _ _ _ has' _ => exact absurd ⟨_, has'⟩ silent
      case mpr => exact fun open' => .self (has.shows_iff.mpr (open' span rfl))
  | @marker _ marker before after missing group split marks has first =>
      constructor
      case mp =>
        intro shown teller told
        cases told
        cases shown with
        | self has' => exact absurd ⟨_, has'.holds⟩ missing
        | marker _ _ _ _ has' _ => exact has.shows_iff.mp has'
      case mpr =>
        exact fun open' => .marker (without missing) group split marks
          (has.shows_iff.mpr (open' marker rfl))
          fun other member marked => without (first other member marked)
  | zero missing nothing =>
      exact iff_of_true
        (.zero (without missing) fun group other member marked =>
          without (nothing group other member marked))
        fun teller member => nomatch member

/-- Where the order id of a span comes from: the first integer that the span's attributes show, or
the marker's. It is the one that they hold just if the span that tells it does not hide it. -/
theorem order_recovered_iff (span : Span) :
    ∃ taken, Recovers ShowsOrder span taken span.order ∧
      ∃ source order, Recovers HoldsOrder span source order ∧
        (taken = source ∧ span.order = order ↔ ∀ teller ∈ source, ¬teller.HidesOrder) := by
  obtain ⟨taken, shown, shows⟩ := exists_recovers ShowsOrder span
  obtain ⟨source, order, holds⟩ := exists_recovers HoldsOrder span
  have same := order_eq_of_recovers shows
  refine ⟨taken, same ▸ shows, source, order, holds, ?_⟩
  rw [← holds.shows_iff]
  constructor
  case mp =>
    intro both
    obtain ⟨rfl, rfl⟩ := both
    exact same ▸ shows
  case mpr =>
    intro told
    exact ⟨shows.source_unique told, order_eq_of_recovers told⟩

/-- A shell whose first attribute is no integer, while its second one is. -/
def hiddenOrder : Span :=
  { (default : Span) with
    typeName := "sh"
    attributes := [("jenkins.pipeline.step.id", "12"), ("step.id", "seven")] }

private theorem holdsOrder_hiddenOrder : hiddenOrder.HoldsOrder 12 := by
  refine .second (fun first => ?_) ⟨"12", rfl, parseInteger?_eq_some_iff.mp (by decide)⟩
  obtain ⟨order, text, found, spelled⟩ := first
  cases found
  have nothing : parseInteger? (Text.trim "seven".toList) = none := by decide
  cases nothing.symm.trans (parseInteger?_eq_some_iff.mpr spelled)

/-- The second attribute of such a span is passed over. -/
theorem not_recovers_hiddenOrder :
    ¬∀ span : Span, ∃ source, Recovers HoldsOrder span source span.order := by
  intro always
  obtain ⟨source, recovers⟩ := always hiddenOrder
  have zero : hiddenOrder.order = 0 := by decide
  rw [zero] at recovers
  cases recovers with
  | self has => cases has.unique holdsOrder_hiddenOrder
  | marker without => exact without ⟨12, holdsOrder_hiddenOrder⟩
  | zero without => exact without ⟨12, holdsOrder_hiddenOrder⟩

end Span

end TracePipeline
