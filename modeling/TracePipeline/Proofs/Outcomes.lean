import Mathlib.Logic.Basic

/-! Outcomes that are values or errors: when a chain of them is a value, and when two of them are
alike. -/

set_option autoImplicit false

namespace TracePipeline

theorem ok_bind {ε α β : Type} (value : α) (next : α → Except ε β) :
    (.ok value >>= next) = next value := rfl

theorem bind_eq_ok_iff {ε α β : Type} {result : Except ε α} {next : α → Except ε β} {value : β} :
    result >>= next = .ok value ↔ ∃ middle, result = .ok middle ∧ next middle = .ok value := by
  cases result with
  | ok middle => simp [Bind.bind, Except.bind]
  | error fault => simp [Bind.bind, Except.bind]

theorem map_eq_ok_iff {ε α β : Type} {result : Except ε α} {change : α → β} {value : β} :
    result.map change = .ok value ↔ ∃ middle, result = .ok middle ∧ change middle = value := by
  cases result with
  | ok middle => simp [Except.map]
  | error fault => simp [Except.map]

theorem mapError_eq_ok_iff {ε δ α : Type} {change : ε → δ} {result : Except ε α} {value : α} :
    result.mapError change = .ok value ↔ result = .ok value := by
  cases result with
  | ok other =>
      change (Except.ok other : Except δ α) = .ok value ↔ _
      simp
  | error fault =>
      change (Except.error (change fault) : Except δ α) = .ok value ↔ _
      simp

/-- Two outcomes are both errors, or both values that are related. -/
inductive Alike {ε α β : Type} (related : α → β → Prop) : Except ε α → Except ε β → Prop
  | ok {value : α} {other : β} (same : related value other) :
      Alike related (.ok value) (.ok other)
  | error (fault fault' : ε) : Alike related (.error fault) (.error fault')

namespace Alike

variable {ε α β γ δ : Type} {related : α → β → Prop} {related' : γ → δ → Prop}

theorem of_self {related : α → α → Prop} (outcome : Except ε α)
    (same : ∀ value, related value value) : Alike related outcome outcome := by
  cases outcome with
  | error fault => exact .error fault fault
  | ok value => exact .ok (same value)

theorem refl (outcome : Except ε α) : Alike Eq outcome outcome :=
  .of_self outcome fun _ => rfl

theorem bind {outcome : Except ε α} {other : Except ε β} {next : α → Except ε γ}
    {next' : β → Except ε δ} (first : Alike related outcome other)
    (later : ∀ value value', related value value' → Alike related' (next value) (next' value')) :
    Alike related' (outcome >>= next) (other >>= next') := by
  cases first with
  | ok same => exact later _ _ same
  | error fault fault' => exact .error fault fault'

theorem imp {related' : α → β → Prop} {outcome : Except ε α} {other : Except ε β}
    (alike : Alike related outcome other)
    (later : ∀ value value', outcome = .ok value → related value value' → related' value value') :
    Alike related' outcome other := by
  cases alike with
  | ok same => exact .ok (later _ _ rfl same)
  | error fault fault' => exact .error fault fault'

theorem map {outcome : Except ε α} {other : Except ε β} {f : α → γ} {g : β → δ}
    (first : Alike related outcome other)
    (later : ∀ value value', related value value' → related' (f value) (g value')) :
    Alike related' (outcome.map f) (other.map g) := by
  cases first with
  | ok same => exact .ok (later _ _ same)
  | error fault fault' => exact .error fault fault'

theorem toOption_eq {outcome other : Except ε α} (alike : Alike Eq outcome other) :
    outcome.toOption = other.toOption := by
  cases alike with
  | ok same => rw [same]
  | error => rfl

end Alike

/-- Two outcomes are both errors, unless they are the same value and `kept` holds. -/
def Agree {ε α : Type} (kept : Prop) (first second : Except ε α) : Prop :=
  Alike (fun value other => kept ∧ value = other) first second

namespace Agree

variable {ε α β : Type} {kept : Prop}

theorem of_kept (holds : kept) (outcome : Except ε α) : Agree kept outcome outcome :=
  .of_self outcome fun _ => ⟨holds, rfl⟩

theorem of_alike {first second : Except ε α} (alike : Alike Eq first second) :
    Agree True first second := by
  cases alike with
  | ok same => exact .ok ⟨trivial, same⟩
  | error fault fault' => exact .error fault fault'

theorem alike {first second : Except ε α} (agree : Agree kept first second) :
    Alike Eq first second :=
  agree.imp fun _ _ _ same => same.2

theorem bind_left {first second : Except ε α} (agree : Agree kept first second)
    (next : α → Except ε β) : Agree kept (first >>= next) (second >>= next) := by
  refine Alike.bind agree fun value other same => ?_
  rw [same.2]
  exact of_kept same.1 _

theorem bind_right (outcome : Except ε α) {next next' : α → Except ε β}
    (later : ∀ value, Agree kept (next value) (next' value)) :
    Agree kept (outcome >>= next) (outcome >>= next') := by
  refine Alike.bind (.refl outcome) fun value other same => ?_
  rw [same]
  exact later other

theorem map {first second : Except ε α} (agree : Agree kept first second) (change : α → β) :
    Agree kept (first.map change) (second.map change) :=
  Alike.map agree fun _ _ same => ⟨same.1, congrArg change same.2⟩

theorem error_iff {outcome : Except ε α} :
    Agree False outcome outcome ↔ outcome.toOption = none := by
  constructor
  case mp =>
    intro agree
    cases agree with
    | ok never => exact never.1.elim
    | error => rfl
  case mpr =>
    intro nothing
    cases outcome with
    | error fault => exact .error fault fault
    | ok value => cases nothing

end Agree

end TracePipeline
