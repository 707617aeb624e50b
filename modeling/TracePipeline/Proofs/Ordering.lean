import TracePipeline.Merge

/-! Laws of the stable sort of one level. Sorting reorders entries and nothing else, and it
commutes with every change to the steps that leaves the order ids alone. Blocks of entries may
trade places when they have no order id in common. It is the one way to bring entries into the order
of their ids that leaves those with equal ids as they came. -/

set_option autoImplicit false

namespace TracePipeline

namespace OrderedStep

/-- Changes the step of an entry and keeps its order id. -/
def mapStep (change : Step → Step) (entry : OrderedStep) : OrderedStep :=
  { entry with step := change entry.step }

@[simp] theorem mapStep_order (change : Step → Step) (entry : OrderedStep) :
    (entry.mapStep change).order = entry.order := rfl

@[simp] theorem mapStep_step (change : Step → Step) (entry : OrderedStep) :
    (entry.mapStep change).step = change entry.step := rfl

theorem insert_perm (entry : OrderedStep) (entries : List OrderedStep) :
    (insert entry entries).Perm (entry :: entries) := by
  induction entries with
  | nil => exact .refl _
  | cons other rest ih =>
      simp only [insert]
      split
      · exact .refl _
      · exact (ih.cons other).trans (.swap entry other rest)

theorem sort_perm (entries : List OrderedStep) : (sort entries).Perm entries := by
  induction entries with
  | nil => exact .refl _
  | cons entry rest ih =>
      exact (insert_perm entry (sort rest)).trans (ih.cons entry)

private theorem insert_map (change : Step → Step) (entry : OrderedStep)
    (entries : List OrderedStep) :
    insert (entry.mapStep change) (entries.map (mapStep change)) =
      (insert entry entries).map (mapStep change) := by
  induction entries with
  | nil => rfl
  | cons other rest ih =>
      by_cases first : entry.order ≤ other.order
      · simp [insert, first]
      · simp [insert, first, ih]

/-- Only order ids decide where an entry goes. -/
theorem sort_map (change : Step → Step) (entries : List OrderedStep) :
    sort (entries.map (mapStep change)) = (sort entries).map (mapStep change) := by
  induction entries with
  | nil => rfl
  | cons entry rest ih =>
      calc sort ((entry :: rest).map (mapStep change))
          = insert (entry.mapStep change) (sort (rest.map (mapStep change))) := rfl
        _ = insert (entry.mapStep change) ((sort rest).map (mapStep change)) := by rw [ih]
        _ = (sort (entry :: rest)).map (mapStep change) := insert_map change entry (sort rest)

/-! ## Sorting in parts -/

/-- Entries with different order ids go to the same places in either order. -/
theorem insert_insert {first second : OrderedStep} (differ : first.order ≠ second.order)
    (entries : List OrderedStep) :
    insert first (insert second entries) = insert second (insert first entries) := by
  induction entries with
  | nil =>
      simp only [insert]
      split <;> split <;> first | omega | rfl
  | cons other rest ih =>
      simp only [insert]
      split <;> split <;> simp only [insert] <;> grind

/-- An entry may be put into a part before that goes to the rest. -/
theorem foldr_insert_insert (entry : OrderedStep) (entries sorted : List OrderedStep) :
    (insert entry entries).foldr insert sorted = insert entry (entries.foldr insert sorted) := by
  induction entries with
  | nil => rfl
  | cons other rest ih =>
      simp only [insert]
      split
      case isTrue => rfl
      case isFalse later =>
        have differ : entry.order ≠ other.order := by omega
        simp only [List.foldr_cons, ih, insert_insert differ]

private theorem foldr_insert_sort (entries sorted : List OrderedStep) :
    (sort entries).foldr insert sorted = entries.foldr insert sorted := by
  induction entries with
  | nil => rfl
  | cons entry rest ih =>
      calc (sort (entry :: rest)).foldr insert sorted
          = (insert entry (sort rest)).foldr insert sorted := rfl
        _ = insert entry ((sort rest).foldr insert sorted) := foldr_insert_insert _ _ _
        _ = (entry :: rest).foldr insert sorted := by rw [ih, List.foldr_cons]

theorem sort_append (first second : List OrderedStep) :
    sort (first ++ second) = first.foldr insert (sort second) :=
  List.foldr_append

/-- Parts may be sorted by themselves first. -/
theorem sort_append_congr {first first' second second' : List OrderedStep}
    (same : sort first' = sort first) (others : sort second' = sort second) :
    sort (first' ++ second') = sort (first ++ second) := by
  rw [sort_append, sort_append, ← foldr_insert_sort first', ← foldr_insert_sort first, same,
    others]

/-- Two lists of entries have no order id in common. -/
def Apart (first second : List OrderedStep) : Prop :=
  ∀ one ∈ first, ∀ other ∈ second, one.order ≠ other.order

theorem Apart.symm {first second : List OrderedStep} (apart : Apart first second) :
    Apart second first :=
  fun one member other member' => (apart other member' one member).symm

private theorem foldr_insert_insert_of_apart {entry : OrderedStep} {entries : List OrderedStep}
    (apart : Apart [entry] entries) (sorted : List OrderedStep) :
    entries.foldr insert (insert entry sorted) = insert entry (entries.foldr insert sorted) := by
  induction entries with
  | nil => rfl
  | cons other rest ih =>
      have differ : entry.order ≠ other.order := apart entry (.head _) other (.head _)
      have others : Apart [entry] rest := fun one member next member' =>
        apart one member next (.tail _ member')
      rw [List.foldr_cons, ih others, insert_insert differ.symm, List.foldr_cons]

theorem sort_append_comm {first second : List OrderedStep} (apart : Apart first second) :
    sort (first ++ second) = sort (second ++ first) := by
  induction first with
  | nil => rw [List.nil_append, List.append_nil]
  | cons entry rest ih =>
      have away : Apart [entry] second := by
        simpa [Apart] using apart entry (.head _)
      have others : Apart rest second := fun one member => apart one (.tail _ member)
      calc sort (entry :: (rest ++ second))
          = insert entry (sort (rest ++ second)) := rfl
        _ = insert entry (second.foldr insert (sort rest)) := by rw [ih others, sort_append]
        _ = second.foldr insert (insert entry (sort rest)) :=
            (foldr_insert_insert_of_apart away _).symm
        _ = sort (second ++ entry :: rest) := (sort_append second (entry :: rest)).symm

/-- Blocks of entries may come in any order when no two of them have an order id in common. -/
theorem sort_flatMap_perm {α : Type} {block : α → List OrderedStep} {values values' : List α}
    (same : values'.Perm values)
    (apart : values.Pairwise fun one other => Apart (block one) (block other)) :
    sort (values'.flatMap block) = sort (values.flatMap block) := by
  induction same with
  | nil => rfl
  | cons value _ ih =>
      simp only [List.flatMap_cons]
      exact sort_append_congr rfl (ih apart.of_cons)
  | swap first second rest =>
      have differ := List.rel_of_pairwise_cons apart (.head _)
      simp only [List.flatMap_cons, ← List.append_assoc]
      exact sort_append_congr (sort_append_comm differ.symm) rfl
  | trans first second ihFirst ihSecond =>
      -- The blocks stay apart in whatever order they come.
      have between := (second.pairwise_iff Apart.symm).mpr apart
      exact (ihFirst between).trans (ihSecond apart)

/-- The entries in the order of their ids, those with equal ids in the order they had. -/
structure StablySorted (entries sorted : List OrderedStep) : Prop where
  ordered : sorted.Pairwise fun first second => first.order ≤ second.order
  stable : ∀ order, (sorted.filter fun entry => entry.order = order) =
    entries.filter fun entry => entry.order = order

private theorem filter_insert (entry : OrderedStep) (entries : List OrderedStep) (order : Int) :
    ((insert entry entries).filter fun entry => entry.order = order) =
      (entry :: entries).filter fun entry => entry.order = order := by
  induction entries with
  | nil => rfl
  | cons other rest ih =>
      simp only [insert]
      split
      case isTrue => rfl
      case isFalse later =>
        by_cases here : other.order = order
        · have before : entry.order ≠ order := by omega
          simp only [List.filter_cons, here, before] at ih ⊢
          simp [ih]
        · simp only [List.filter_cons, here] at ih ⊢
          simpa using ih

private theorem pairwise_insert {entries : List OrderedStep} (entry : OrderedStep)
    (ordered : entries.Pairwise fun first second => first.order ≤ second.order) :
    (insert entry entries).Pairwise fun first second => first.order ≤ second.order := by
  induction entries with
  | nil => exact List.pairwise_singleton _ _
  | cons other rest ih =>
      obtain ⟨first, others⟩ := List.pairwise_cons.mp ordered
      simp only [insert]
      split
      case isTrue before =>
        refine List.pairwise_cons.mpr ⟨?_, ordered⟩
        intro next member
        rcases List.mem_cons.mp member with rfl | later
        · exact before
        · exact Int.le_trans before (first next later)
      case isFalse later =>
        refine List.pairwise_cons.mpr ⟨?_, ih others⟩
        intro next member
        rcases List.mem_cons.mp ((insert_perm entry rest).mem_iff.mp member) with rfl | old
        · omega
        · exact first next old

theorem stablySorted_sort (entries : List OrderedStep) : StablySorted entries (sort entries) where
  ordered := by
    induction entries with
    | nil => exact .nil
    | cons entry rest ih => exact pairwise_insert entry ih
  stable := by
    intro order
    induction entries with
    | nil => rfl
    | cons entry rest ih =>
        calc (sort (entry :: rest)).filter (fun entry => entry.order = order)
            = (insert entry (sort rest)).filter (fun entry => entry.order = order) := rfl
          _ = (entry :: sort rest).filter (fun entry => entry.order = order) :=
              filter_insert entry (sort rest) order
          _ = (entry :: rest).filter (fun entry => entry.order = order) := by
              rw [List.filter_cons, ih, List.filter_cons]

theorem StablySorted.mem_iff {entries sorted : List OrderedStep}
    (stably : StablySorted entries sorted) (entry : OrderedStep) :
    entry ∈ sorted ↔ entry ∈ entries := by
  have same : entry ∈ sorted.filter (fun other => other.order = entry.order) ↔
      entry ∈ entries.filter (fun other => other.order = entry.order) := by
    rw [stably.stable]
  simpa using same

theorem StablySorted.symm {entries sorted other : List OrderedStep}
    (stably : StablySorted entries sorted) (again : StablySorted entries other) :
    StablySorted other sorted where
  ordered := stably.ordered
  stable := fun order => (stably.stable order).trans (again.stable order).symm

/-- There is one way only to sort entries stably. -/
theorem StablySorted.unique {entries sorted other : List OrderedStep}
    (stably : StablySorted entries sorted) (again : StablySorted entries other) :
    other = sorted := by
  have same := stably.symm again
  have ordered := again.ordered
  clear stably again
  induction sorted generalizing other with
  | nil =>
      cases other with
      | nil => rfl
      | cons first rest => exact absurd ((same.mem_iff first).mpr (.head _)) (by simp)
  | cons entry sorted ih =>
      cases other with
      | nil => exact absurd ((same.mem_iff entry).mp (.head _)) (by simp)
      | cons first rest =>
          -- The first entries have the least id, and among those with this id they are the first.
          have least : first.order = entry.order := by
            have low := (List.pairwise_cons.mp same.ordered).1
            have low' := (List.pairwise_cons.mp ordered).1
            rcases List.mem_cons.mp ((same.mem_iff first).mpr (.head _)) with rfl | later
            · rfl
            rcases List.mem_cons.mp ((same.mem_iff entry).mp (.head _)) with rfl | later'
            · rfl
            exact Int.le_antisymm (low' entry later') (low first later)
          have firsts := same.stable entry.order
          rw [List.filter_cons_of_pos (by simp), List.filter_cons_of_pos (by simpa using least)]
            at firsts
          obtain ⟨rfl, -⟩ := List.cons.inj firsts
          have others : StablySorted rest sorted := by
            refine ⟨(List.pairwise_cons.mp same.ordered).2, fun order => ?_⟩
            have kept := same.stable order
            rw [List.filter_cons, List.filter_cons] at kept
            split at kept
            · exact (List.cons.inj kept).2
            · exact kept
          rw [ih others (List.pairwise_cons.mp ordered).2]

end OrderedStep

theorem sortedSteps_perm (entries : List OrderedStep) :
    (sortedSteps entries).Perm (entries.map OrderedStep.step) :=
  (OrderedStep.sort_perm entries).map OrderedStep.step

theorem sortedSteps_map (change : Step → Step) (entries : List OrderedStep) :
    sortedSteps (entries.map (OrderedStep.mapStep change)) =
      (sortedSteps entries).map change := by
  simp only [sortedSteps, OrderedStep.sort_map, List.map_map]
  rfl

theorem mem_sortedSteps {step : Step} {entries : List OrderedStep} :
    step ∈ sortedSteps entries ↔ ∃ entry ∈ entries, entry.step = step := by
  rw [(sortedSteps_perm entries).mem_iff, List.mem_map]

@[simp] theorem sortedSteps_eq_nil_iff (entries : List OrderedStep) :
    sortedSteps entries = [] ↔ entries = [] := by
  rw [← List.length_eq_zero_iff, (sortedSteps_perm entries).length_eq, List.length_map,
    List.length_eq_zero_iff]

theorem length_sortedSteps (entries : List OrderedStep) :
    (sortedSteps entries).length = entries.length := by
  rw [(sortedSteps_perm entries).length_eq, List.length_map]

@[simp] theorem finalize_false (entries : List OrderedStep) :
    finalize false entries = sortedSteps entries := rfl

@[simp] theorem finalize_true (entries : List OrderedStep) :
    finalize true entries = Step.mergeAdjacent (sortedSteps entries) := rfl

end TracePipeline
