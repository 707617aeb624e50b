import Mathlib.Data.List.Nodup
import TracePipeline.Proofs.Places
import TracePipeline.Proofs.ToolAllocation
import TracePipeline.Proofs.ToolSettings

/-! Which declaration of a tool counts. A tool wrapper hears all that is declared below it before
the walk goes there, where it is heard again. That changes nothing about which declaration comes
first: at every moment it is the first one in the order of the trace among those heard so far. -/

set_option autoImplicit false

namespace TracePipeline

/-! ## First declarations -/

namespace Declaration

/-- Two lists have the same first declaration of every tool. -/
def SameFirst (first second : List Declaration) : Prop :=
  ∀ tool, (first.find? fun declared => declared.tool = tool) =
    second.find? fun declared => declared.tool = tool

namespace SameFirst

variable {first second : List Declaration}

theorem refl (declarations : List Declaration) : SameFirst declarations declarations :=
  fun _ => rfl

theorem trans {third : List Declaration} (same : SameFirst first second)
    (next : SameFirst second third) : SameFirst first third :=
  fun tool => (same tool).trans (next tool)

theorem append {first' second' : List Declaration} (same : SameFirst first second)
    (same' : SameFirst first' second') : SameFirst (first ++ first') (second ++ second') := by
  intro tool
  rw [List.find?_append, List.find?_append, same tool, same' tool]

/-- Hearing declarations once more changes nothing. -/
theorem append_right_of_subset (subset : second ⊆ first) : SameFirst (first ++ second) first := by
  intro tool
  rw [List.find?_append]
  cases found : first.find? fun declared => declared.tool = tool with
  | some declared => rfl
  | none =>
      rw [Option.none_or, List.find?_eq_none]
      exact fun declared member => List.find?_eq_none.mp found declared (subset member)

end SameFirst

end Declaration

open Declaration (SameFirst)

/-! ## What is heard -/

namespace Visit

variable (registry : Registry)

/-- A visit is that of a tool wrapper around a place. -/
def Wraps (visit place : Visit) : Prop :=
  (visit.span.wrapperTool? registry).isSome ∧ visit.Encloses place

/-- A visit tells of the declarations at a place: it is there itself, or wraps it. -/
def Tells (visit place : Visit) : Prop :=
  visit.path = place.path ∧ visit.span.isStructural = false ∨ visit.Wraps registry place

instance (visit place : Visit) : Decidable (visit.Wraps registry place) :=
  inferInstanceAs (Decidable (_ ∧ _))

instance (visit place : Visit) : Decidable (visit.Tells registry place) :=
  inferInstanceAs (Decidable (_ ∨ _))

variable (visits : List Visit)

def Heard (place : Visit) : Prop :=
  ∃ visit ∈ visits, visit.Tells registry place

/-- Two places below one tool wrapper among visits. -/
def ShareWrapper (first second : Visit) : Prop :=
  ∃ visit ∈ visits, visit.Wraps registry first ∧ visit.Wraps registry second

instance (place : Visit) : Decidable (Heard registry visits place) :=
  inferInstanceAs (Decidable (∃ visit ∈ visits, _))

instance (first second : Visit) : Decidable (ShareWrapper registry visits first second) :=
  inferInstanceAs (Decidable (∃ visit ∈ visits, _))

/-- The places of which one of the visits knows by then: those heard up to it, and those behind it
that a wrapper around it has heard. -/
def known (before : List Visit) (visit : Visit) (after : List Visit) : List Visit :=
  (before ++ [visit]).filter (Heard registry visits) ++
    after.filter (ShareWrapper registry visits visit)

def declaredAt (places : List Visit) : List Declaration :=
  places.flatMap fun place => place.span.declarations

variable {registry visits}

private theorem declaredAt_append (first second : List Visit) :
    declaredAt (first ++ second) = declaredAt first ++ declaredAt second :=
  List.flatMap_append

/-- All that a visit hears is declared below any span that it is below. -/
theorem declarations_subset_of_mem {visit : Visit} {outer : Span}
    (inside : visit.span ∈ outer.descendants) :
    visit.declarations registry ⊆ outer.descendants.flatMap Span.declarations := by
  intro declared member
  unfold declarations at member
  split at member
  · cases member
  rcases List.mem_append.mp member with own | below
  · exact List.mem_flatMap.mpr ⟨visit.span, inside, own⟩
  · split at below
    · obtain ⟨span, deeper, own⟩ := List.mem_flatMap.mp below
      exact List.mem_flatMap.mpr ⟨span, Span.descendants_subset inside deeper, own⟩
    · cases below

theorem suffix_of_tells {visit place : Visit} (tells : visit.Tells registry place) :
    visit.path <:+ place.path := by
  rcases tells with ⟨here, -⟩ | wraps
  · exact here ▸ List.suffix_refl _
  · exact wraps.2.1

/-- More visits hear no more of a place if none of them tells of it. -/
theorem heard_congr {more : List Visit} {place : Visit} (subset : visits ⊆ more)
    (silent : ∀ visit ∈ more, visit.Tells registry place → visit ∈ visits) :
    Heard registry more place ↔ Heard registry visits place := by
  constructor
  · rintro ⟨visit, member, tells⟩
    exact ⟨visit, silent visit member tells, tells⟩
  · rintro ⟨visit, member, tells⟩
    exact ⟨visit, subset member, tells⟩

private theorem shareWrapper_congr {more : List Visit} {place other : Visit}
    (subset : visits ⊆ more)
    (silent : ∀ visit ∈ more, visit.Tells registry place → visit ∈ visits) :
    ShareWrapper registry more place other ↔ ShareWrapper registry visits place other := by
  constructor
  · rintro ⟨visit, member, wraps, both⟩
    exact ⟨visit, silent visit member (.inr wraps), wraps, both⟩
  · rintro ⟨visit, member, both⟩
    exact ⟨visit, subset member, both⟩

theorem filter_heard_congr {more places : List Visit} (subset : visits ⊆ more)
    (silent : ∀ place ∈ places, ∀ visit ∈ more, visit.Tells registry place → visit ∈ visits) :
    places.filter (Heard registry more) = places.filter (Heard registry visits) := by
  apply List.filter_congr
  intro place member
  exact decide_eq_decide.mpr (heard_congr subset (silent place member))

private theorem known_append_left (places before after : List Visit) (visit : Visit) :
    known registry visits (places ++ before) visit after =
      places.filter (Heard registry visits) ++ known registry visits before visit after := by
  rw [known, List.append_assoc, List.filter_append, List.append_assoc, known]

theorem known_append_right {before after places : List Visit} {visit : Visit}
    (beyond : ∀ place ∈ places, ¬ShareWrapper registry visits visit place) :
    known registry visits before visit (after ++ places) =
      known registry visits before visit after := by
  have nothing : places.filter (ShareWrapper registry visits visit) = [] :=
    List.filter_eq_nil_iff.mpr fun place member => by simpa using beyond place member
  unfold known
  rw [after.filter_append, nothing, List.append_nil]

theorem known_eq_before {before after : List Visit} {visit : Visit}
    (heard : ∀ place ∈ before ++ [visit], Heard registry visits place)
    (beyond : ∀ place ∈ after, ¬ShareWrapper registry visits visit place) :
    known registry visits before visit after = before ++ [visit] := by
  have nothing : known registry visits before visit ([] ++ after) = _ :=
    known_append_right beyond
  rw [List.nil_append] at nothing
  rw [nothing, known, List.filter_eq_self.mpr fun place member =>
    decide_eq_true (heard place member)]
  exact List.append_nil _

private theorem known_eq_all {before after : List Visit} {visit : Visit}
    (heard : ∀ place ∈ before ++ [visit], Heard registry visits place)
    (shared : ∀ place ∈ after, ShareWrapper registry visits visit place) :
    known registry visits before visit after = before ++ visit :: after := by
  unfold known
  rw [List.filter_eq_self.mpr fun place member => decide_eq_true (heard place member),
    List.filter_eq_self.mpr fun place member => decide_eq_true (shared place member),
    List.append_assoc, List.singleton_append]

private theorem known_congr {more before after : List Visit} {visit : Visit}
    (subset : visits ⊆ more) (silent : ∀ place ∈ before ++ visit :: after, ∀ visit ∈ more,
      visit.Tells registry place → visit ∈ visits) :
    known registry more before visit after = known registry visits before visit after := by
  have heard : (before ++ [visit]).filter (Heard registry more) =
      (before ++ [visit]).filter (Heard registry visits) := by
    have initial : before ++ [visit] <+: before ++ visit :: after := ⟨after, by simp⟩
    exact filter_heard_congr subset fun place member => silent place (initial.subset member)
  have shared : after.filter (ShareWrapper registry more visit) =
      after.filter (ShareWrapper registry visits visit) := by
    apply List.filter_congr
    intro place member
    exact decide_eq_decide.mpr (shareWrapper_congr subset (silent visit (by simp)))
  rw [known, known, heard, shared]

end Visit

namespace Ledger

theorem heard_foldl_after (registry : Registry) (ledger : Ledger) (visits : List Visit) :
    (visits.foldl (after registry) ledger).heard =
      ledger.heard ++ visits.flatMap (Visit.declarations registry) := by
  induction visits generalizing ledger with
  | nil => exact (List.append_nil _).symm
  | cons visit rest ih =>
      rw [List.foldl_cons, ih, List.flatMap_cons, ← List.append_assoc]
      rfl

end Ledger

namespace Stop

variable {registry : Registry} {ledger : Ledger} {visits : List Visit} {stop : Stop}

private theorem exists_heard_before (member : stop ∈ tour registry ledger visits) :
    ∃ heard, stop.ledger.heard = ledger.heard ++ heard ∧
      heard ⊆ visits.flatMap (Visit.declarations registry) := by
  induction visits generalizing ledger with
  | nil => cases member
  | cons visit rest ih =>
      rcases List.mem_cons.mp member with rfl | later
      · exact ⟨[], (List.append_nil _).symm, List.nil_subset _⟩
      · obtain ⟨heard, same, subset⟩ := ih later
        refine ⟨visit.declarations registry ++ heard, ?_, ?_⟩
        · rw [same, ← List.append_assoc]
          rfl
        · rw [List.flatMap_cons]
          exact List.append_subset.mpr ⟨List.subset_append_left _ _,
            List.Subset.trans subset (List.subset_append_right _ _)⟩

private theorem visit_mem_of_mem_tour (member : stop ∈ tour registry ledger visits) :
    stop.visit ∈ visits := by
  rw [← map_visit_tour registry ledger visits]
  exact List.mem_map_of_mem member

end Stop

/-! ## Walks hear in the order of the trace -/

/-- Among some places, what visits hear comes first just if it is declared first, both in the end
and at every stop. -/
structure HearsInOrder (registry : Registry) (visits places : List Visit) : Prop where
  all : SameFirst (visits.flatMap (Visit.declarations registry))
    (Visit.declaredAt (places.filter (Visit.Heard registry visits)))
  each : ∀ (ledger : Ledger), ∀ stop ∈ tour registry ledger visits,
    stop.visit.span.isStructural = false →
      ∃ before after, places = before ++ stop.visit :: after ∧
        SameFirst (stop.ledger.heard ++ stop.visit.span.declarations)
          (ledger.heard ++
            Visit.declaredAt (Visit.known registry visits before stop.visit after))

namespace HearsInOrder

variable {registry : Registry} {visits visits' places places' : List Visit}

theorem unvisited (registry : Registry) (places : List Visit) :
    HearsInOrder registry [] places where
  all := by
    have nothing : places.filter (Visit.Heard registry []) = [] :=
      List.filter_eq_nil_iff.mpr fun place _ => by simp [Visit.Heard]
    rw [nothing]
    exact .refl _
  each := fun _ _ member => nomatch member

private theorem single {visit : Visit} (plain : visit.span.wrapperTool? registry = none) :
    HearsInOrder registry [visit] [visit] := by
  have heard : Visit.Heard registry [visit] visit ↔ visit.span.isStructural = false := by
    simp [Visit.Heard, Visit.Tells, Visit.Wraps, plain]
  constructor
  · cases structural : visit.span.isStructural with
    | true =>
        rw [List.filter_cons_of_neg (by simp [heard, structural])]
        simp [Visit.declarations, structural, Visit.declaredAt, SameFirst]
    | false =>
        rw [List.filter_cons_of_pos (by simp [heard, structural])]
        simp [Visit.declarations, structural, plain, Visit.declaredAt, SameFirst]
  · intro ledger stop member ordinary
    rw [List.mem_singleton.mp member] at ordinary ⊢
    refine ⟨[], [], rfl, ?_⟩
    have known : Visit.known registry [visit] [] visit [] = [visit] :=
      Visit.known_eq_before (by simpa using heard.mpr ordinary) (by simp)
    rw [known]
    simp [Visit.declaredAt, SameFirst]

/-- Parts of a trace that have nothing to tell of each other. -/
theorem append (first : HearsInOrder registry visits places)
    (second : HearsInOrder registry visits' places')
    (silent : ∀ visit ∈ visits, ∀ place ∈ places', ¬visit.Tells registry place)
    (silent' : ∀ visit ∈ visits', ∀ place ∈ places, ¬visit.Tells registry place) :
    HearsInOrder registry (visits ++ visits') (places ++ places') := by
  have own : ∀ place ∈ places, ∀ visit ∈ visits ++ visits', visit.Tells registry place →
      visit ∈ visits := by
    intro place member visit visited tells
    exact (List.mem_append.mp visited).resolve_right fun foreign =>
      silent' visit foreign place member tells
  have own' : ∀ place ∈ places', ∀ visit ∈ visits ++ visits', visit.Tells registry place →
      visit ∈ visits' := by
    intro place member visit visited tells
    exact (List.mem_append.mp visited).resolve_left fun foreign =>
      silent visit foreign place member tells
  have heard : places.filter (Visit.Heard registry (visits ++ visits')) =
      places.filter (Visit.Heard registry visits) :=
    Visit.filter_heard_congr (List.subset_append_left _ _) own
  constructor
  · rw [List.flatMap_append, List.filter_append, heard,
      Visit.filter_heard_congr (List.subset_append_right _ _) own', Visit.declaredAt_append]
    exact first.all.append second.all
  · intro ledger stop member ordinary
    rw [tour_append, List.mem_append] at member
    rcases member with here | later
    · obtain ⟨before, after, split, same⟩ := first.each ledger stop here ordinary
      refine ⟨before, after ++ places', by rw [split, List.append_assoc, List.cons_append], ?_⟩
      -- No wrapper around the stop reaches beyond the first part.
      have beyond : ∀ place ∈ places',
          ¬Visit.ShareWrapper registry (visits ++ visits') stop.visit place := by
        rintro place member ⟨visit, visited, wraps, both⟩
        have present : visit ∈ visits :=
          own stop.visit (by simp [split]) visit visited (.inr wraps)
        exact silent visit present place member (.inr both)
      have known : Visit.known registry (visits ++ visits') before stop.visit after =
          Visit.known registry visits before stop.visit after :=
        Visit.known_congr (List.subset_append_left _ _) (split ▸ own)
      rw [Visit.known_append_right beyond, known]
      exact same
    · obtain ⟨before, after, split, same⟩ := second.each _ stop later ordinary
      refine ⟨places ++ before, after, by rw [split, List.append_assoc], ?_⟩
      have known : Visit.known registry (visits ++ visits') before stop.visit after =
          Visit.known registry visits' before stop.visit after :=
        Visit.known_congr (List.subset_append_right _ _) (split ▸ own')
      rw [Ledger.heard_foldl_after] at same
      rw [Visit.known_append_left, heard, known, Visit.declaredAt_append, ← List.append_assoc]
      exact same.trans (((SameFirst.refl ledger.heard).append first.all).append (.refl _))

/-- A tool wrapper hears at once all that is declared below it, so that the visits there hear
nothing new. -/
theorem wrapper {visit : Visit} {inner below : List Visit}
    (wraps : (visit.span.wrapperTool? registry).isSome)
    (ordinary : visit.span.isStructural = false)
    (encloses : ∀ place ∈ below, visit.Encloses place)
    (spans : below.map Visit.span = visit.span.descendants) (among : inner ⊆ below) :
    HearsInOrder registry (visit :: inner) (visit :: below) := by
  have told : visit.declarations registry = Visit.declaredAt (visit :: below) := by
    simp only [Visit.declarations, ordinary, wraps, Visit.declaredAt, ← spans]
    simp [List.flatMap_map]
  have heard : ∀ place ∈ visit :: below, Visit.Heard registry (visit :: inner) place := by
    intro place member
    rcases List.mem_cons.mp member with rfl | deeper
    · exact ⟨place, .head _, .inl ⟨rfl, ordinary⟩⟩
    · exact ⟨visit, .head _, .inr ⟨wraps, encloses place deeper⟩⟩
  have old : inner.flatMap (Visit.declarations registry) ⊆ Visit.declaredAt (visit :: below) := by
    intro declared member
    obtain ⟨visit', visited, member⟩ := List.mem_flatMap.mp member
    have inside : visit'.span ∈ visit.span.descendants :=
      spans ▸ List.mem_map_of_mem (among visited)
    rw [← told, Visit.declarations, if_neg (by simp [ordinary]), if_pos wraps]
    exact List.mem_append_right _ (visit'.declarations_subset_of_mem inside member)
  constructor
  · rw [List.filter_eq_self.mpr fun place member => decide_eq_true (heard place member),
      List.flatMap_cons, told]
    exact .append_right_of_subset old
  · intro ledger stop member _
    rcases List.mem_cons.mp member with rfl | later
    · refine ⟨[], below, rfl, ?_⟩
      have own : Visit.known registry (visit :: inner) [] visit below = [visit] := by
        apply Visit.known_eq_before
        · exact fun place member => heard place (List.mem_singleton.mp member ▸ .head _)
        · rintro place - ⟨visit', visited, wraps', -⟩
          rcases List.mem_cons.mp visited with rfl | deeper
          · exact wraps'.2.2 rfl
          · exact (encloses visit' (among deeper)).not_suffix wraps'.2.1
      rw [own]
      simp [Visit.declaredAt, SameFirst]
    · obtain ⟨before, after, split⟩ := List.append_of_mem
        (among (Stop.visit_mem_of_mem_tour later))
      refine ⟨visit :: before, after, by rw [split, List.cons_append], ?_⟩
      have all : Visit.known registry (visit :: inner) (visit :: before) stop.visit after =
          visit :: below := by
        rw [split, ← List.cons_append]
        apply Visit.known_eq_all
        · have initial : visit :: before ++ [stop.visit] <+: visit :: below :=
            ⟨after, by simp [split]⟩
          exact fun place member => heard place (initial.subset member)
        · intro place member
          exact ⟨visit, .head _, ⟨wraps, encloses _ (by simp [split])⟩,
            ⟨wraps, encloses _ (by simp [split, member])⟩⟩
      obtain ⟨prior, same, subset⟩ := Stop.exists_heard_before later
      have own : stop.visit.span.declarations ⊆ Visit.declaredAt (visit :: below) :=
        fun declared member => List.mem_flatMap.mpr ⟨stop.visit, by simp [split], member⟩
      have after : (ledger.after registry visit).heard =
          ledger.heard ++ Visit.declaredAt (visit :: below) := congrArg _ told
      have again : prior ++ stop.visit.span.declarations ⊆ Visit.declaredAt (visit :: below) :=
        List.append_subset.mpr ⟨List.Subset.trans subset old, own⟩
      rw [all, same, after, List.append_assoc]
      exact .append_right_of_subset (List.Subset.trans again (List.subset_append_right _ _))

end HearsInOrder

namespace Span

variable {registry : Registry}

private theorem hearsInOrder_children {path : List Nat} {around spans : List Span} (index : Nat)
    (each : ∀ span ∈ spans, ∀ path around,
      HearsInOrder registry (span.visits registry path around) (span.places path around)) :
    HearsInOrder registry (visitsFrom registry path around index spans)
      (placesFrom path around index spans) := by
  induction spans generalizing index with
  | nil => exact .unvisited registry []
  | cons first rest ih =>
      have others := ih (index + 1) fun span member => each span (.tail _ member)
      refine (each first (.head _) (index :: path) around).append others ?_ ?_
      · intro visit visited place member tells
        obtain ⟨number, later, below⟩ := exists_child_path member
        have same := childNumber_unique (path_suffix_of_mem_visits visited) below
          (Visit.suffix_of_tells tells)
        omega
      · intro visit visited place member tells
        obtain ⟨number, later, above⟩ := exists_child_path visited
        have same := childNumber_unique above (path_suffix_of_mem_visits member)
          (Visit.suffix_of_tells tells)
        omega

theorem hearsInOrder (registry : Registry) (path : List Nat) (around : List Span) (span : Span) :
    HearsInOrder registry (span.visits registry path around) (span.places path around) := by
  induction span using induct_children generalizing path around with
  | step span ih =>
      have inner : HearsInOrder registry
          (visitsFrom registry path (span :: around) 0 span.children)
          (placesFrom path (span :: around) 0 span.children) :=
        hearsInOrder_children 0 fun child member path around => ih child member path around
      have below : ∀ place ∈ placesFrom path (span :: around) 0 span.children,
          Visit.Encloses ⟨path, span, around⟩ place :=
        fun place member => encloses_of_mem_visitsFrom rfl member
      rw [visits_eq, places_eq]
      cases wraps : span.wrapperTool? registry with
      | some tool =>
          have isWrapper : (span.wrapperTool? registry).isSome := by rw [wraps, Option.isSome_some]
          rw [if_pos (descends_of_wrapperTool? isWrapper)]
          apply HearsInOrder.wrapper isWrapper (ordinary_of_wrapperTool? isWrapper) below
          · have spans := map_span_places path around span
            rw [places_eq, List.map_cons] at spans
            exact (List.cons.inj spans).2
          · exact visitsFrom_subset_placesFrom _ _ _ _ _
      | none =>
          have alone : HearsInOrder registry [⟨path, span, around⟩] [⟨path, span, around⟩] :=
            .single wraps
          have silent : ∀ visit ∈ [(⟨path, span, around⟩ : Visit)],
              ∀ place ∈ placesFrom path (span :: around) 0 span.children,
                ¬visit.Tells registry place := by
            intro visit here place member
            rw [List.mem_singleton.mp here]
            rintro (⟨same, -⟩ | wrapped)
            · exact (below place member).2 same
            · simp [Visit.Wraps, wraps] at wrapped
          split
          · refine alone.append inner silent ?_
            intro visit visited place here tells
            rw [List.mem_singleton.mp here] at tells
            exact (below visit (visitsFrom_subset_placesFrom _ _ _ _ _ visited)).not_suffix
              (Visit.suffix_of_tells tells)
          · exact alone.append (.unvisited registry _) silent fun _ visited => nomatch visited

/-- The declarations of reached spans are heard, but for structural ones, and those below reached
tool wrappers, reached or not. -/
theorem heard_iff {root : Span} {place : Visit} (member : place ∈ root.places [] []) :
    Visit.Heard registry (root.visits registry [] []) place ↔
      Reached registry (.root root) place ∧ place.span.isStructural = false ∨
        ∃ wrapper, Reached registry (.root root) wrapper ∧
          (wrapper.span.wrapperTool? registry).isSome ∧ wrapper.Encloses place := by
  constructor
  · rintro ⟨visit, visited, ⟨here, ordinary⟩ | wraps⟩
    · have same : visit = place := List.inj_on_of_nodup_map (nodup_paths_visits .empty [] [] root)
        (visits_subset_places _ _ _ _ visited) member here
      exact .inl ⟨same ▸ mem_visits_iff.mp visited, same ▸ ordinary⟩
    · exact .inr ⟨visit, mem_visits_iff.mp visited, wraps⟩
  · rintro (⟨reached, ordinary⟩ | ⟨wrapper, reached, wraps⟩)
    · exact ⟨place, mem_visits_iff.mpr reached, .inl ⟨rfl, ordinary⟩⟩
    · exact ⟨wrapper, mem_visits_iff.mpr reached, .inr wraps⟩

end Span

namespace Visit

def firstDeclared? (tool : Tool) (places : List Visit) : Option Declaration :=
  (declaredAt places).find? fun declared => declared.tool = tool

private theorem spoken_of_firstDeclared? {tool : Tool} {places : List Visit}
    {declared : Declaration}
    (found : firstDeclared? tool places = some declared) : declared.Spoken := by
  obtain ⟨place, -, member⟩ := List.mem_flatMap.mp (List.mem_of_find?_eq_some found)
  exact Span.spoken_of_mem_declarations member

theorem notBlank_of_choice? {registry : Registry} {taken : List Tool} {visit : Visit}
    {choice : Choice} (chosen : visit.choice? registry taken = some choice) :
    NotBlank choice.pending.installation := by
  obtain ⟨wrapper, -, found⟩ := List.mem_filterMap.mp (choice?_spec chosen).1
  obtain ⟨tool, -, same⟩ := Option.map_eq_some_iff.mp found
  exact same ▸ PendingTool.notBlank_ofWrapper tool wrapper

end Visit

namespace Conversion

theorem declaration?_walk {registry : Registry} (shells : registry.ConvertsShells)
    (options : Options) (merge : Bool) (root : Span) (tool : Tool) :
    (root.walk ⟨registry, merge⟩ [] (.root options) {}).2.declaration? tool =
      Visit.firstDeclared? tool
        ((root.places [] []).filter (Visit.Heard registry (root.visits registry [] []))) := by
  rw [(kept_walk_root shells options merge root).declared,
    (root.outline_eq_tour registry {} [] []).2, Ledger.heard_foldl_after]
  exact (root.hearsInOrder registry [] []).all tool

private theorem declared?_of_choice? {registry : Registry} {root : Span} {stop : Stop}
    (member : stop ∈ root.stops registry) {choice : Choice}
    (chosen : stop.choice? registry = some choice) :
    ∃ before after, root.places [] [] = before ++ stop.visit :: after ∧
      ∀ tool, stop.visit.declared? stop.ledger tool =
        Visit.firstDeclared? tool
          (Visit.known registry (root.visits registry [] []) before stop.visit after) := by
  obtain ⟨before, after, split, same⟩ := (root.hearsInOrder registry [] []).each {} stop member
    (Visit.ordinary_of_choice? chosen)
  exact ⟨before, after, split, same⟩

/-- The steps of a pipeline that run tools are those for which shells make way. -/
theorem runs_iff_exists_stop {registry : Registry} (standard : registry.Standard)
    (options : Options) (root : Span) (step : Step) (tool : Tool) :
    step ∈ Step.subtrees (ofSpan registry options root).pipeline.steps ∧ step.runs tool ↔
      ∃ stop ∈ root.stops registry, ∃ choice,
        stop.choice? registry = some choice ∧ choice.pending.tool = tool ∧
          step = stop.visit.toolStep registry options stop.ledger choice := by
  rw [← List.mem_filter, (filter_runs_perm standard options root tool).mem_iff,
    List.mem_flatMap]
  apply exists_congr
  intro stop
  apply and_congr_right
  intro _
  rw [Stop.filter_runs_steps standard]
  cases stop.choice? registry with
  | none => simp
  | some choice => simp

/-- The step of a shell that runs a tool goes by the first declaration of the tool among the places
known at the shell. -/
def GoesByFirst (options : Options) (visits places : List Visit) (visit : Visit) (choice : Choice)
    (step : Step) : Prop :=
  ∃ before after, places = before ++ visit :: after ∧
    ∃ declared info used,
      declared = Visit.firstDeclared? choice.pending.tool
        (Visit.known .builtin visits before visit after) ∧
      step = choice.pending.step visit.span choice.invocation.arguments
        (visit.context .builtin options) declared ∧
      step = .task info (.plugin used) ∧
      used.settings.get? "version" = (declared.bind Declaration.version).map .string ∧
      used.settings.get? "installation" =
        (choice.pending.installation.or (declared.bind Declaration.name)).map .string

private theorem goesByFirst_toolStep (options : Options) {root : Span} {stop : Stop}
    (member : stop ∈ root.stops .builtin) {choice : Choice}
    (chosen : stop.choice? .builtin = some choice) :
    GoesByFirst options (root.visits .builtin [] []) (root.places [] []) stop.visit choice
      (stop.visit.toolStep .builtin options stop.ledger choice) := by
  obtain ⟨before, after, split, same⟩ := declared?_of_choice? member chosen
  have spoken : ∀ declared ∈ stop.visit.declared? stop.ledger choice.pending.tool,
      declared.Spoken := by
    intro declared found
    exact Visit.spoken_of_firstDeclared? ((same _).symm.trans found)
  exact ⟨before, after, split, _, _, _, same choice.pending.tool, rfl, rfl,
    PendingTool.plugin_version _ _ _ spoken,
    PendingTool.plugin_installation _ _ _ (Visit.notBlank_of_choice? chosen) spoken⟩

/-- Which declaration of each tool a conversion goes by. The visits are those of the walk, the
places all spans in pre-order. -/
structure DeclaresInOrder (options : Options) (root : Span) (visits places : List Visit) : Prop where
  spans : places.map Visit.span = root :: root.descendants
  distinct : (places.map Visit.path).Nodup
  reached : ∀ visit, visit ∈ visits ↔ Reached .builtin (.root root) visit
  heard : ∀ place ∈ places, Visit.Heard .builtin visits place ↔
    Reached .builtin (.root root) place ∧ place.span.isStructural = false ∨
      ∃ wrapper, Reached .builtin (.root root) wrapper ∧
        (wrapper.span.wrapperTool? .builtin).isSome ∧ wrapper.Encloses place
  /-- A walk ends with the first declaration of each tool. -/
  detected : ∀ tool,
    (root.walk ⟨.builtin, options.mergeSteps⟩ [] (.root options) {}).2.declaration? tool =
      Visit.firstDeclared? tool (places.filter (Visit.Heard .builtin visits))
  /-- A shell that runs a tool has a step for it in the pipeline. -/
  synthesized : ∀ stop ∈ root.stops .builtin, ∀ choice, stop.choice? .builtin = some choice →
    stop.visit.isShell ∧ ∃ step ∈ Step.subtrees (ofSpan .builtin options root).pipeline.steps,
      step.runs choice.pending.tool ∧ GoesByFirst options visits places stop.visit choice step
  /-- Any step of a tool in the pipeline is one of those. -/
  origin : ∀ step ∈ Step.subtrees (ofSpan .builtin options root).pipeline.steps, ∀ tool,
    step.runs tool → ∃ stop ∈ root.stops .builtin, ∃ choice,
      stop.choice? .builtin = some choice ∧ choice.pending.tool = tool ∧
        GoesByFirst options visits places stop.visit choice step

end Conversion

end TracePipeline
