import TracePipeline.Trace.Span

/-!
# Traversals

A traversal visits all spans below one, a step at a time and each before its own children. It keeps
a stack of those that it has not come to yet.
-/

set_option autoImplicit false

namespace TracePipeline

/-- The spans still to visit, with all that is below them. The next one is the last. -/
structure Traversal where
  stack : Array Span

namespace Traversal

/-- A traversal of all spans below one. -/
def below (span : Span) : Traversal :=
  ⟨span.children.reverse.toArray⟩

/-- The next span and what is left to visit then. The children of the span come next, so that they
go on top of the stack, the first one last. -/
def next? (traversal : Traversal) : Option (Span × Traversal) :=
  match traversal.stack.back? with
  | none => none
  | some span => some (span, ⟨traversal.stack.pop ++ span.children.reverse⟩)

/-! ## What is left to visit -/

/-- The spans that a traversal has still to visit, in order. -/
def remaining (traversal : Traversal) : List Span :=
  Span.descendantsOf traversal.stack.toList.reverse

@[simp] theorem remaining_below (span : Span) : (below span).remaining = span.descendants := by
  rw [remaining, below, List.toList_toArray, List.reverse_reverse, Span.descendants_eq]

theorem remaining_of_next?_none {traversal : Traversal} (ended : traversal.next? = none) :
    traversal.remaining = [] := by
  unfold next? at ended
  split at ended
  case h_1 empty =>
    rw [Array.back?_eq_none_iff] at empty
    rw [remaining, empty]
    rfl
  case h_2 => cases ended

/-- A step takes the next span off those that remain, as its children take its place. -/
theorem remaining_of_next?_some {traversal rest : Traversal} {span : Span}
    (next : traversal.next? = some (span, rest)) :
    traversal.remaining = span :: rest.remaining := by
  unfold next? at next
  split at next
  case h_1 => cases next
  case h_2 top last =>
    cases next
    rw [← Array.getLast?_toList] at last
    obtain ⟨others, stack⟩ := List.getLast?_eq_some_iff.mp last
    simp only [remaining, Array.toList_appendList, Array.toList_pop, stack, List.dropLast_concat,
      List.reverse_append, List.reverse_reverse, List.reverse_singleton, List.singleton_append,
      Span.descendantsOf_append, Span.descendantsOf, Span.descendants_eq span]

/-! ## Visiting -/

/-- All spans that a traversal visits. -/
def toList (traversal : Traversal) : List Span :=
  match _ : traversal.next? with
  | none => []
  | some (span, rest) => span :: rest.toList
termination_by traversal.remaining.length
decreasing_by
  rw [remaining_of_next?_some ‹traversal.next? = some (span, rest)›]
  exact Nat.lt_succ_self _

theorem toList_eq_remaining (traversal : Traversal) : traversal.toList = traversal.remaining := by
  fun_induction toList traversal with
  | case1 traversal ended => exact (remaining_of_next?_none ended).symm
  | case2 traversal span rest next ih => rw [remaining_of_next?_some next, ih]

/-- A traversal visits what is below a span in the order of the tree. -/
@[simp] theorem toList_below (span : Span) : (below span).toList = span.descendants := by
  rw [toList_eq_remaining, remaining_below]

end Traversal

end TracePipeline
