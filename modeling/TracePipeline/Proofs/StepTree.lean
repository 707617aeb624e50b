import TracePipeline.Conversion
import TracePipeline.Proofs.Ordering

/-! Steps at all depths. A document is read as the list of its steps, each before the steps inside
it; ids, tasks and tools of a whole document are read off that list. -/

set_option autoImplicit false

namespace TracePipeline

/-- The tool whose plugin a task runs. -/
def Task.tool? : Task → Option Tool
  | .plugin used => Tool.all.find? fun tool => tool.pluginImage = used.image
  | _ => none

namespace Step

mutual

/-- A step and all steps inside it, each before those inside it. -/
def subtree : Step → List Step
  | .task info payload => [.task info payload]
  | .block info kind steps => .block info kind steps :: subtrees steps

def subtrees : List Step → List Step
  | [] => []
  | step :: rest => subtree step ++ subtrees rest

end

def isTask : Step → Bool
  | .task .. => true
  | .block .. => false

@[simp] theorem isTask_task (info : StepInfo) (payload : Task) :
    (task info payload).isTask = true := rfl

@[simp] theorem isTask_block (info : StepInfo) (kind : Block) (steps : List Step) :
    (block info kind steps).isTask = false := rfl

def isGroup : Step → Bool
  | .block _ .group _ => true
  | _ => false

/-- The tasks among steps and inside them: what is left when all blocks are flattened. -/
def tasks (steps : List Step) : List Step :=
  (subtrees steps).filter isTask

def isPlugin : Step → Bool
  | .task _ (.plugin _) => true
  | _ => false

def plugins (steps : List Step) : List Step :=
  (subtrees steps).filter isPlugin

/-- The ids of steps and of all steps inside them. -/
def ids (steps : List Step) : List String :=
  (subtrees steps).map Step.id

def tool? : Step → Option Tool
  | .task _ payload => payload.tool?
  | .block .. => none

/-- A property of all steps follows from the steps inside to the block around them. -/
theorem induct_inside {motive : Step → Prop} (task : ∀ info payload, motive (.task info payload))
    (block : ∀ info kind steps, (∀ step ∈ steps, motive step) → motive (.block info kind steps))
    (step : Step) : motive step := by
  refine @Step.rec motive (fun steps => ∀ step ∈ steps, motive step) task block ?_ ?_ step
  · intro step member
    cases member
  · intro first rest firstHolds restHolds step member
    rcases List.mem_cons.mp member with rfl | later
    · exact firstHolds
    · exact restHolds step later

theorem subtrees_eq_flatMap (steps : List Step) : subtrees steps = steps.flatMap subtree := by
  induction steps with
  | nil => rfl
  | cons step rest ih => simp [subtrees, ih]

@[simp] theorem subtrees_append (first second : List Step) :
    subtrees (first ++ second) = subtrees first ++ subtrees second := by
  simp [subtrees_eq_flatMap]

theorem subtrees_perm {first second : List Step} (same : first.Perm second) :
    (subtrees first).Perm (subtrees second) := by
  simpa only [subtrees_eq_flatMap] using same.flatMap_right subtree

@[simp] theorem tasks_append (first second : List Step) :
    tasks (first ++ second) = tasks first ++ tasks second := by
  simp [tasks]

theorem tasks_perm {first second : List Step} (same : first.Perm second) :
    (tasks first).Perm (tasks second) :=
  (subtrees_perm same).filter isTask

theorem tasks_block (info : StepInfo) (kind : Block) (steps : List Step) :
    tasks [.block info kind steps] = tasks steps := by
  simp [tasks, subtrees, subtree]

theorem tasks_eq_self {steps : List Step} (flat : ∀ step ∈ steps, step.isTask) :
    tasks steps = steps := by
  induction steps with
  | nil => rfl
  | cons step rest ih =>
      cases step with
      | task info payload =>
          have tail := ih fun step member => flat step (.tail _ member)
          simpa [tasks, subtrees, subtree, List.filter_cons] using tail
      | block info kind steps => exact absurd (flat _ (.head _)) (by simp)

private theorem plugins_append (first second : List Step) :
    plugins (first ++ second) = plugins first ++ plugins second := by
  simp [plugins]

theorem plugins_cons (step : Step) (rest : List Step) :
    plugins (step :: rest) = plugins [step] ++ plugins rest :=
  plugins_append [step] rest

@[simp] theorem plugins_block (info : StepInfo) (kind : Block) (steps : List Step) :
    plugins [.block info kind steps] = plugins steps := by
  simp [plugins, subtrees, subtree, isPlugin]

@[simp] theorem ids_nil : ids [] = [] := rfl

theorem ids_cons (step : Step) (rest : List Step) :
    ids (step :: rest) = ids [step] ++ ids rest := by
  simp [ids, subtrees]

@[simp] theorem ids_append (first second : List Step) :
    ids (first ++ second) = ids first ++ ids second := by
  simp [ids]

theorem ids_perm {first second : List Step} (same : first.Perm second) :
    (ids first).Perm (ids second) :=
  (subtrees_perm same).map Step.id

theorem ids_block (info : StepInfo) (kind : Block) (steps : List Step) :
    ids [.block info kind steps] = info.id :: ids steps := by
  simp [ids, subtrees, subtree, Step.id, Step.info]

theorem ids_eq_map {steps : List Step} (flat : ∀ step ∈ steps, step.isTask) :
    ids steps = steps.map id := by
  induction steps with
  | nil => rfl
  | cons step rest ih =>
      rw [ids_cons, ih fun step member => flat step (.tail _ member)]
      cases step with
      | task info payload => rfl
      | block info kind steps => exact absurd (flat _ (.head _)) (by simp)

end Step

end TracePipeline
