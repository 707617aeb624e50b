import TracePipeline.Proofs.Answers
import TracePipeline.Proofs.Reached

/-! The places of a trace: all its spans in pre-order, whether a walk reaches them or not. As two
spans may look alike, a place is known by its path alone. -/

set_option autoImplicit false

namespace TracePipeline

/-! ## Enclosing -/

namespace Visit

/-- The path to a span ends with the path to any span around it. -/
def Encloses (outer inner : Visit) : Prop :=
  outer.path <:+ inner.path ∧ outer.path ≠ inner.path

instance (outer inner : Visit) : Decidable (outer.Encloses inner) :=
  inferInstanceAs (Decidable (_ ∧ _))

theorem Encloses.not_suffix {outer inner : Visit} (encloses : outer.Encloses inner) :
    ¬inner.path <:+ outer.path := by
  intro back
  have longer := Nat.le_antisymm encloses.1.length_le back.length_le
  exact encloses.2 (encloses.1.eq_of_length longer)

end Visit

/-! ## All places -/

theorem Reached.mono {registry wider : Registry} {start visit : Visit}
    (opens : ∀ span : Span, span.descends registry → span.descends wider)
    (reached : Reached registry start visit) : Reached wider start visit := by
  induction reached with
  | start => exact .start
  | child _ onward found ih => exact ih.child (opens _ onward) found

namespace Span

/-- Where nothing is registered nothing ends a walk. -/
@[simp] theorem descends_empty (span : Span) : span.descends .empty := by
  unfold descends
  cases dispatched : Registry.empty.dispatch span.stepType with
  | checkout converter => cases Registry.get?_of_dispatch (.inl dispatched)
  | convert converter => cases Registry.get?_of_dispatch (.inr dispatched)
  | _ => simp

/-- A span and all those below it, each before its children. -/
def places (path : List Nat) (around : List Span) (span : Span) : List Visit :=
  span.visits .empty path around

def placesFrom (path : List Nat) (around : List Span) (index : Nat) (spans : List Span) :
    List Visit :=
  visitsFrom .empty path around index spans

theorem places_eq (path : List Nat) (around : List Span) (span : Span) :
    span.places path around =
      ⟨path, span, around⟩ :: placesFrom path (span :: around) 0 span.children := by
  rw [places, visits_eq, if_pos (descends_empty span), placesFrom]

theorem visits_subset_places (registry : Registry) (path : List Nat) (around : List Span)
    (span : Span) : span.visits registry path around ⊆ span.places path around := by
  intro visit member
  exact mem_visits_iff.mpr ((mem_visits_iff.mp member).mono fun span _ => descends_empty span)

theorem visitsFrom_subset_placesFrom (registry : Registry) (path : List Nat)
    (around : List Span) (index : Nat) (spans : List Span) :
    visitsFrom registry path around index spans ⊆ placesFrom path around index spans := by
  intro visit member
  obtain ⟨number, span, found, below⟩ := mem_visitsFrom_iff.mp member
  exact mem_visitsFrom_iff.mpr ⟨number, span, found, visits_subset_places _ _ _ _ below⟩

theorem descendants_subset {span inner : Span} (member : inner ∈ span.descendants) :
    inner.descendants ⊆ span.descendants := by
  induction span using induct_children with
  | step span ih =>
      rw [descendants_eq, descendantsOf_eq_flatMap] at member
      obtain ⟨child, present, member⟩ := List.mem_flatMap.mp member
      have below := (child_descendants_sublist present).subset
      rcases List.mem_cons.mp member with rfl | deeper
      · exact fun span inside => below (.tail _ inside)
      · exact fun span inside => below (.tail _ (ih child present deeper inside))

private theorem map_span_placesFrom {path : List Nat} {around spans : List Span} (index : Nat)
    (each : ∀ span ∈ spans, ∀ path around,
      (span.places path around).map Visit.span = span :: span.descendants) :
    (placesFrom path around index spans).map Visit.span = descendantsOf spans := by
  induction spans generalizing index with
  | nil => rfl
  | cons first rest ih =>
      have own := each first (.head _) (index :: path) around
      have others := ih (index + 1) fun span member => each span (.tail _ member)
      rw [places] at own
      rw [placesFrom] at others
      rw [placesFrom, visitsFrom, List.map_append, own, others, descendantsOf, List.cons_append]

theorem map_span_places (path : List Nat) (around : List Span) (span : Span) :
    (span.places path around).map Visit.span = span :: span.descendants := by
  induction span using induct_children generalizing path around with
  | step span ih =>
      rw [places_eq, List.map_cons, descendants_eq,
        map_span_placesFrom 0 fun child member path around => ih child member path around]

/-! ## Paths -/

/-- What is below one child is not around anything below another one. -/
theorem childNumber_unique {path inner outer : List Nat} {index other : Nat}
    (above : (index :: path) <:+ outer) (below : (other :: path) <:+ inner)
    (suffix : outer <:+ inner) : index = other := by
  have same := (List.suffix_of_suffix_length_le (above.trans suffix) below (by simp)).eq_of_length
    (by simp)
  exact (List.cons.inj same).1

theorem path_suffix_of_mem_visits {registry : Registry} {path : List Nat} {around : List Span}
    {span : Span} {visit : Visit} (member : visit ∈ span.visits registry path around) :
    path <:+ visit.path :=
  (mem_visits_iff.mp member).path_suffix

theorem exists_child_path {registry : Registry} {path : List Nat} {around spans : List Span}
    {start : Nat} {visit : Visit} (member : visit ∈ visitsFrom registry path around start spans) :
    ∃ index, start ≤ index ∧ (index :: path) <:+ visit.path := by
  obtain ⟨index, span, -, below⟩ := mem_visitsFrom_iff.mp member
  exact ⟨start + index, Nat.le_add_right _ _, path_suffix_of_mem_visits below⟩

theorem encloses_of_mem_visitsFrom {registry : Registry} {path : List Nat}
    {around spans : List Span} {start : Nat} {outer visit : Visit} (here : outer.path = path)
    (member : visit ∈ visitsFrom registry path around start spans) : outer.Encloses visit := by
  obtain ⟨index, -, below⟩ := exists_child_path member
  subst here
  refine ⟨(List.suffix_cons _ _).trans below, fun same => ?_⟩
  have longer := below.length_le
  rw [← same, List.length_cons] at longer
  exact Nat.not_succ_le_self _ longer

end Span

end TracePipeline
