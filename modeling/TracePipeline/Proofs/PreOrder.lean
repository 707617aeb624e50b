import TracePipeline.Proofs.OrderIds

/-! The order of a tree. A traversal by a stack ends and yields the spans below one in pre-order,
the lexicographic order of the ways to them, and a search for markers by recursion answers with the
first one of the same list that has an order id. -/

set_option autoImplicit false

namespace TracePipeline

/-! ## Runs of a traversal -/

namespace Traversal

/-- What the steps of a traversal yield, one after the other, until it ends. -/
inductive Yields : Traversal → List Span → Prop
  | ended {traversal : Traversal} (stopped : traversal.next? = none) : Yields traversal []
  | step {traversal rest : Traversal} {span : Span} {spans : List Span}
      (next : traversal.next? = some (span, rest)) (others : Yields rest spans) :
      Yields traversal (span :: spans)

theorem yields_toList (traversal : Traversal) : traversal.Yields traversal.toList := by
  fun_induction toList traversal with
  | case1 traversal stopped => exact .ended stopped
  | case2 traversal span rest next ih => exact .step next ih

private theorem Yields.eq_remaining {traversal : Traversal} {spans : List Span}
    (yields : traversal.Yields spans) : spans = traversal.remaining := by
  induction yields with
  | ended stopped => exact (remaining_of_next?_none stopped).symm
  | step next _ ih => rw [remaining_of_next?_some next, ih]

/-- Every traversal ends, whatever is on its stack, and what it yields is what remained. -/
theorem yields_iff {traversal : Traversal} {spans : List Span} :
    traversal.Yields spans ↔ spans = traversal.remaining := by
  constructor
  case mp => exact Yields.eq_remaining
  case mpr =>
    intro same
    rw [same, ← toList_eq_remaining]
    exact yields_toList traversal

end Traversal

namespace Span

/-! ## Ways -/

/-- The span at the end of a way, which tells from the root down the number of each child. -/
def at? (root : Span) : List Nat → Option Span
  | [] => some root
  | index :: way => root.children[index]?.bind fun child => child.at? way

/-- A list holds all spans below a root in pre-order: one for each way that leads down to a span,
in lexicographic order. So a span comes before those below it, and these before the next child. -/
def InPreOrder (root : Span) (spans : List Span) : Prop :=
  ∃ ways : List (List Nat), ways.Pairwise (List.Lex (· < ·)) ∧
    (∀ way, way ∈ ways ↔ way ≠ [] ∧ (root.at? way).isSome) ∧ spans.map some = ways.map root.at?

mutual

/-- The ways to the spans below one, each before its extensions. -/
def ways : Span → List (List Nat)
  | { children, .. } => waysFrom 0 children

def waysFrom (start : Nat) : List Span → List (List Nat)
  | [] => []
  | child :: rest => ([] :: ways child).map (start :: ·) ++ waysFrom (start + 1) rest

end

theorem ways_eq (span : Span) : span.ways = waysFrom 0 span.children := by
  cases span
  rw [ways]

theorem mem_waysFrom_iff {way : List Nat} {start : Nat} {spans : List Span} :
    way ∈ waysFrom start spans ↔ ∃ index child deeper, way = (start + index) :: deeper ∧
      spans[index]? = some child ∧ deeper ∈ [] :: child.ways := by
  induction spans generalizing start with
  | nil => simp [waysFrom]
  | cons first rest ih =>
      have shift (index : Nat) : start + 1 + index = start + (index + 1) := by omega
      rw [waysFrom, List.mem_append, List.mem_map, ih]
      constructor
      case mp =>
        intro member
        rcases member with own | other
        · obtain ⟨deeper, below, rfl⟩ := own
          exact ⟨0, first, deeper, rfl, rfl, below⟩
        · obtain ⟨index, child, deeper, rfl, found, below⟩ := other
          exact ⟨index + 1, child, deeper, by rw [shift], found, below⟩
      case mpr =>
        intro leads
        obtain ⟨index, child, deeper, rfl, found, below⟩ := leads
        cases index with
        | zero =>
            cases found
            exact .inl ⟨deeper, below, rfl⟩
        | succ index => exact .inr ⟨index, child, deeper, by rw [shift], found, below⟩

theorem ne_nil_of_mem_ways {way : List Nat} {span : Span} (member : way ∈ span.ways) :
    way ≠ [] := by
  rw [ways_eq] at member
  obtain ⟨index, child, deeper, rfl, -⟩ := mem_waysFrom_iff.mp member
  exact List.cons_ne_nil _ _

theorem mem_cons_ways_iff {way : List Nat} {span : Span} :
    way ∈ [] :: span.ways ↔ (span.at? way).isSome := by
  induction span using induct_children generalizing way with
  | step span ih =>
      cases way with
      | nil => exact iff_of_true (.head _) rfl
      | cons number way =>
          rw [List.mem_cons, or_iff_right (List.cons_ne_nil _ _), ways_eq, mem_waysFrom_iff, at?,
            Option.isSome_bind, Option.any_eq_true]
          constructor
          case mp =>
            intro member
            obtain ⟨index, child, deeper, same, found, inside⟩ := member
            rw [Nat.zero_add] at same
            cases same
            exact ⟨child, found, (ih child (List.mem_of_getElem? found)).mp inside⟩
          case mpr =>
            intro leads
            obtain ⟨child, found, onward⟩ := leads
            exact ⟨number, child, way, by rw [Nat.zero_add], found,
              (ih child (List.mem_of_getElem? found)).mpr onward⟩

theorem mem_ways_iff {way : List Nat} {span : Span} :
    way ∈ span.ways ↔ way ≠ [] ∧ (span.at? way).isSome := by
  rw [← mem_cons_ways_iff, List.mem_cons]
  constructor
  case mp => exact fun member => ⟨ne_nil_of_mem_ways member, .inr member⟩
  case mpr => exact fun leads => leads.2.resolve_left leads.1

private theorem pairwise_waysFrom {spans : List Span} (start : Nat)
    (each : ∀ span ∈ spans, span.ways.Pairwise (List.Lex (· < ·))) :
    (waysFrom start spans).Pairwise (List.Lex (· < ·)) := by
  induction spans generalizing start with
  | nil => exact .nil
  | cons first rest ih =>
      -- A child comes before what is below it, and that before the children behind.
      have above : ∀ way ∈ first.ways, List.Lex (· < ·) [] way := by
        intro way member
        cases way with
        | nil => exact absurd rfl (ne_nil_of_mem_ways member)
        | cons number way => exact .nil
      have inside := List.pairwise_cons.mpr ⟨above, each first (.head _)⟩
      have others := ih (start + 1) fun span member => each span (.tail _ member)
      refine List.pairwise_append.mpr ⟨List.pairwise_map.mpr (inside.imp .cons), others, ?_⟩
      intro way member other later
      obtain ⟨deeper, -, rfl⟩ := List.mem_map.mp member
      obtain ⟨index, child, below, rfl, -⟩ := mem_waysFrom_iff.mp later
      exact .rel (by omega)

theorem pairwise_ways (span : Span) : span.ways.Pairwise (List.Lex (· < ·)) := by
  induction span using induct_children with
  | step span ih =>
      rw [ways_eq]
      exact pairwise_waysFrom 0 ih

private theorem map_at?_waysFrom {root : Span} {spans : List Span} (before : List Span)
    (split : root.children = before ++ spans)
    (each : ∀ span ∈ spans, span.ways.map span.at? = span.descendants.map some) :
    (waysFrom before.length spans).map root.at? = (descendantsOf spans).map some := by
  induction spans generalizing before with
  | nil => rfl
  | cons first rest ih =>
      have here : root.children[before.length]? = some first := by
        rw [split, List.getElem?_append_right (Nat.le_refl _), Nat.sub_self]
        rfl
      have inside : (root.at? ∘ fun way => before.length :: way) = first.at? := by
        funext way
        rw [Function.comp_apply, at?, here, Option.bind_some]
      have others := ih (before ++ [first]) (by rw [split, List.append_assoc]; rfl)
        fun span member => each span (.tail _ member)
      rw [List.length_append, List.length_singleton] at others
      rw [waysFrom, List.map_append, List.map_map, inside, others, List.map_cons,
        each first (.head _), descendantsOf, List.map_cons, List.map_append, at?,
        List.cons_append]

theorem map_at?_ways (span : Span) : span.ways.map span.at? = span.descendants.map some := by
  induction span using induct_children with
  | step span ih =>
      rw [ways_eq, descendants_eq]
      exact map_at?_waysFrom [] rfl ih

theorem inPreOrder_descendants (span : Span) : span.InPreOrder span.descendants :=
  ⟨span.ways, pairwise_ways span, fun _ => mem_ways_iff, (map_at?_ways span).symm⟩

/-! ## Searching -/

/-- An order id is that of the first span in a list that marks a group and has one. -/
def FirstMarker (group : Span) (spans : List Span) (order : Int) : Prop :=
  ∃ before marker after, spans = before ++ marker :: after ∧ group.Marks marker ∧
    marker.directOrder? = some order ∧
    ∀ other ∈ before, group.Marks other → other.directOrder? = none

theorem markerOrder?_eq_none_iff {group span : Span} :
    markerOrder? group span = none ↔
      ∀ other ∈ span.descendants, group.Marks other → other.directOrder? = none := by
  simp only [markerOrder?_eq_findSome?, List.findSome?_eq_none_iff, ite_eq_right_iff,
    isMarkedBy_iff]

theorem markerOrder?_eq_some_iff {group span : Span} {order : Int} :
    markerOrder? group span = some order ↔ group.FirstMarker span.descendants order := by
  simp only [markerOrder?_eq_findSome?, List.findSome?_eq_some_iff, Option.ite_none_right_eq_some,
    ite_eq_right_iff, isMarkedBy_iff, FirstMarker, and_assoc]

/-! ## Both ways through a tree -/

/-- A traversal by a stack and a search by recursion go through the same list, whatever the tree. -/
theorem traversals_agree (span : Span) :
    (∀ spans, (Traversal.below span).Yields spans ↔ spans = span.descendants) ∧
      (Traversal.below span).toList = span.descendants ∧
      span.descendants = (span.children.flatMap fun child => child :: child.descendants) ∧
      span.InPreOrder span.descendants ∧
      ∀ group : Span,
        (∀ order, markerOrder? group span = some order ↔
          group.FirstMarker span.descendants order) ∧
        (markerOrder? group span = none ↔
          ∀ other ∈ span.descendants, group.Marks other → other.directOrder? = none) := by
  refine ⟨fun spans => ?_, Traversal.toList_below span, ?_, inPreOrder_descendants span, fun group =>
    ⟨fun order => markerOrder?_eq_some_iff, markerOrder?_eq_none_iff⟩⟩
  · rw [Traversal.yields_iff, Traversal.remaining_below]
  · rw [descendants_eq, descendantsOf_eq_flatMap]

end Span

end TracePipeline
