import TracePipeline.CommandLine.Directory
import TracePipeline.Proofs.Entries

/-! The machines that runs are made on. Reading changes nothing. A write that is refused changes
nothing either; any other write leaves its text in one place, and the log only adds to the errors. A
session in memory is such a machine. -/

set_option autoImplicit false

namespace TracePipeline.CommandLine

/-! ## Machines -/

/-- An action that leaves the machine as it is. -/
def Keeps {σ α : Type} (action : StateM σ α) : Prop :=
  ∀ machine, (action.run machine).2 = machine

/-- Machines whose files can be looked at by name, as well as what they have printed. -/
class MachineView (σ : Type) where
  fileOf? (machine : σ) (name : String) : Option String
  outputOf (machine : σ) : String
  errorsOf (machine : σ) : String

open MachineView

section

variable {σ : Type} [Host (StateM σ)]

def inputOf (machine : σ) : Except FileFault String :=
  ((Host.readInput : StateM σ (Except FileFault String)).run machine).1

def contentOf (machine : σ) (path : String) : Except FileFault String :=
  ((Host.readFile path : StateM σ (Except FileFault String)).run machine).1

def afterWriting (machine : σ) (path text : String) : Except FileFault Unit × σ :=
  (Host.writeFile path text : StateM σ (Except FileFault Unit)).run machine

def afterOutput (machine : σ) (text : String) : Except FileFault Unit × σ :=
  (Host.writeOutput text : StateM σ (Except FileFault Unit)).run machine

def afterErrors (machine : σ) (text : String) : Except FileFault Unit × σ :=
  (Host.writeErrors text : StateM σ (Except FileFault Unit)).run machine

def afterLog (machine : σ) (record : LogRecord) : σ :=
  ((Host.log record : StateM σ Unit).run machine).2

variable [MachineView σ]

/-- A machine differs from what it was before by what has been printed since. -/
structure Printed (before after : σ) (text report : String) : Prop where
  files : ∀ name, fileOf? after name = fileOf? before name
  output : outputOf after = outputOf before ++ text
  errors : errorsOf after = errorsOf before ++ report

/-- A machine differs from what it was before in one file, to which the path leads and which has
the text; and it may have reported something. -/
structure Stored (before after : σ) (path text : String) : Prop where
  read : contentOf after path = .ok text
  single : ∃ name, fileOf? after name = some text ∧
    ∀ other, other ≠ name → fileOf? after other = fileOf? before other
  output : outputOf after = outputOf before

end

/-- What a run relies on. -/
class LawfulHost (σ : Type) [Host (StateM σ)] [MachineView σ] : Prop where
  keeps_readInput : Keeps (Host.readInput : StateM σ (Except FileFault String))
  keeps_readFile (path : String) :
    Keeps (Host.readFile path : StateM σ (Except FileFault String))
  of_writing_error {before after : σ} {path text : String} {fault : FileFault} :
    afterWriting before path text = (.error fault, after) → after = before
  of_writing_ok {before after : σ} {path text : String} :
    afterWriting before path text = (.ok (), after) →
      Stored before after path text ∧ errorsOf after = errorsOf before
  of_output_error {before after : σ} {text : String} {fault : FileFault} :
    afterOutput before text = (.error fault, after) → after = before
  of_output_ok {before after : σ} {text : String} :
    afterOutput before text = (.ok (), after) → Printed before after text ""
  of_errors_error {before after : σ} {text : String} {fault : FileFault} :
    afterErrors before text = (.error fault, after) → after = before
  of_errors_ok {before after : σ} {text : String} :
    afterErrors before text = (.ok (), after) → Printed before after "" text
  exists_printed_log (before : σ) (record : LogRecord) :
    ∃ report, Printed before (afterLog before record) "" report

/-! ## Stages of a run -/

section

variable {σ α β : Type}

theorem run_bind (action : StateM σ α) (next : α → StateM σ β) (machine : σ) :
    (action >>= next).run machine = (next (action.run machine).1).run (action.run machine).2 := rfl

theorem Keeps.pure (value : α) : Keeps (Pure.pure value : StateM σ α) :=
  fun _ => rfl

theorem Keeps.run_bind {action : StateM σ α} (first : Keeps action) (next : α → StateM σ β)
    (machine : σ) : (action >>= next).run machine = (next (action.run machine).1).run machine := by
  rw [CommandLine.run_bind, first]

theorem Keeps.bind {action : StateM σ α} {next : α → StateM σ β} (first : Keeps action)
    (second : ∀ value, Keeps (next value)) : Keeps (action >>= next) := by
  intro machine
  rw [first.run_bind, second]

/-- A machine takes all of some texts, one after the other. -/
inductive Takes (write : String → StateM σ (Except FileFault Unit)) : σ → List String → σ → Prop
  | nil {machine : σ} : Takes write machine [] machine
  | cons {before between after : σ} {text : String} {texts : List String}
      (taken : (write text).run before = (.ok (), between))
      (others : Takes write between texts after) : Takes write before (text :: texts) after

variable {write : String → StateM σ (Except FileFault Unit)} {before after : σ} {text : String}
  {texts : List String}

theorem run_writeAll_cons : (writeAll write (text :: texts)).run before =
    match (write text).run before with
    | (.error fault, between) => (.error fault, between)
    | (.ok (), between) => (writeAll write texts).run between := by
  rw [writeAll, run_bind]
  cases (write text).run before with
  | mk result between => cases result <;> rfl

theorem run_writeAll_eq_ok_iff :
    (writeAll write texts).run before = (.ok (), after) ↔ Takes write before texts after := by
  induction texts generalizing before with
  | nil =>
      constructor
      · intro ran
        cases ran
        exact .nil
      · intro takes
        cases takes
        rfl
  | cons text texts ih =>
      rw [run_writeAll_cons]
      constructor
      · intro ran
        cases first : (write text).run before with
        | mk result between =>
            rw [first] at ran
            cases result with
            | error fault => cases ran
            | ok => exact .cons first (ih.mp ran)
      · intro takes
        cases takes with
        | cons taken others =>
            rw [taken]
            exact ih.mpr others

theorem Takes.unique {other : σ} (first : Takes write before texts after)
    (second : Takes write before texts other) : after = other := by
  have same := (run_writeAll_eq_ok_iff.mpr first).symm.trans (run_writeAll_eq_ok_iff.mpr second)
  exact congrArg Prod.snd same

/-- Texts are written up to the first one that is refused. -/
theorem of_run_writeAll_error {fault : FileFault}
    (ran : (writeAll write texts).run before = (.error fault, after)) :
    ∃ taken refused rest between, texts = taken ++ refused :: rest ∧
      Takes write before taken between ∧ (write refused).run between = (.error fault, after) := by
  induction texts generalizing before with
  | nil => cases ran
  | cons text texts ih =>
      rw [run_writeAll_cons] at ran
      cases first : (write text).run before with
      | mk result between =>
          rw [first] at ran
          cases result with
          | error other =>
              cases ran
              exact ⟨[], text, texts, before, rfl, .nil, first⟩
          | ok =>
              obtain ⟨taken, refused, rest, last, split, takes, refuses⟩ := ih ran
              exact ⟨text :: taken, refused, rest, last, by rw [split, List.cons_append],
                .cons first takes, refuses⟩

end

section

variable {σ : Type} [Host (StateM σ)]

/-- The machine after some records have come to its log. -/
def logging (machine : σ) (records : List LogRecord) : σ :=
  records.foldl afterLog machine

theorem run_logAll (records : List LogRecord) (machine : σ) :
    (logAll records : StateM σ Unit).run machine = ((), logging machine records) := by
  induction records generalizing machine with
  | nil => rfl
  | cons record records ih => exact ih (afterLog machine record)

end

/-! ## What is printed -/

section

variable {σ : Type} [MachineView σ]

theorem Printed.refl (machine : σ) : Printed machine machine "" "" where
  files := fun _ => rfl
  output := String.append_empty.symm
  errors := String.append_empty.symm

theorem Printed.trans {before between after : σ} {text text' report report' : String}
    (first : Printed before between text report) (second : Printed between after text' report') :
    Printed before after (text ++ text') (report ++ report') where
  files := fun name => (second.files name).trans (first.files name)
  output := by rw [second.output, first.output, String.append_assoc]
  errors := by rw [second.errors, first.errors, String.append_assoc]

/-- Texts in a row. -/
def joined (texts : List String) : String :=
  texts.foldr (· ++ ·) ""

variable [Host (StateM σ)]

theorem Stored.of_printed {before between after : σ} {path text report : String}
    (printed : Printed before between "" report) (stored : Stored between after path text) :
    Stored before after path text where
  read := stored.read
  single := by
    obtain ⟨name, own, others⟩ := stored.single
    exact ⟨name, own, fun other differs => (others other differs).trans (printed.files other)⟩
  output := by rw [stored.output, printed.output, String.append_empty]

variable [LawfulHost σ] {before after : σ} {texts : List String}

theorem printed_output (takes : Takes Host.writeOutput before texts after) :
    Printed before after (joined texts) "" := by
  induction takes with
  | nil => exact .refl _
  | cons taken others ih => exact (LawfulHost.of_output_ok taken).trans ih

theorem printed_errors (takes : Takes Host.writeErrors before texts after) :
    Printed before after "" (joined texts) := by
  induction takes with
  | nil => exact .refl _
  | cons taken others ih => exact (LawfulHost.of_errors_ok taken).trans ih

theorem exists_printed_logging (machine : σ) (records : List LogRecord) :
    ∃ report, Printed machine (logging machine records) "" report := by
  induction records generalizing machine with
  | nil => exact ⟨"", .refl machine⟩
  | cons record records ih =>
      obtain ⟨first, printed⟩ := LawfulHost.exists_printed_log machine record
      obtain ⟨rest, printed'⟩ := ih (afterLog machine record)
      exact ⟨first ++ rest, printed.trans printed'⟩

end

/-! ## Directories in memory -/

/-- The name of the file that a text would be put into. -/
def Place.name? : Place → Option String
  | .file name _ | .free name => some name
  | .directory | .tooLong => none

namespace Directory

/-- The directory with a text in the file of that name. -/
def put (directory : Directory) (name text : String) : Directory :=
  { directory with files := directory.files.insert name text }

private theorem hasFolder_put {directory : Directory} {folder : String}
    (inside : directory.hasFolder folder) (name text : String) :
    (directory.put name text).hasFolder folder := by
  obtain ⟨file, member, below⟩ := List.any_eq_true.mp inside
  exact List.any_eq_true.mpr ⟨file, Entries.keys_subset_insert _ _ _ member, below⟩

variable {directory : Directory} {folder : List String} {part name text : String}

theorem entry_eq_file (short : part.utf8ByteSize ≤ nameLimit)
    (found : directory.files.get? (nameOf (folder ++ [part])) = some text) :
    directory.entry folder part = .file (nameOf (folder ++ [part])) text := by
  simp only [entry, if_neg (Nat.not_lt.mpr short), found]

theorem entry_eq_directory (short : part.utf8ByteSize ≤ nameLimit)
    (missing : directory.files.get? (nameOf (folder ++ [part])) = none)
    (inside : directory.hasFolder (nameOf (folder ++ [part]))) :
    directory.entry folder part = .directory := by
  simp only [entry, if_neg (Nat.not_lt.mpr short), missing, inside, if_true]

/-- What there is at a place that a path leads to. -/
def Found (directory : Directory) : Place → Prop
  | .directory | .tooLong => True
  | .file name text => directory.files.get? name = some text
  | .free name => directory.files.get? name = none ∧ directory.hasFolder name = false

theorem entry_spec (directory : Directory) (folder : List String) (part : String) :
    directory.Found (directory.entry folder part) ∧
      match directory.entry folder part with
      | .tooLong => True
      | .directory => part.utf8ByteSize ≤ nameLimit ∧
          directory.files.get? (nameOf (folder ++ [part])) = none ∧
          directory.hasFolder (nameOf (folder ++ [part]))
      | .file name _ | .free name =>
          part.utf8ByteSize ≤ nameLimit ∧ name = nameOf (folder ++ [part]) := by
  by_cases long : nameLimit < part.utf8ByteSize
  · simp [entry, long, Found]
  have short := Nat.not_lt.mp long
  cases found : directory.files.get? (nameOf (folder ++ [part])) with
  | some text => simp [entry_eq_file short found, Found, found, short]
  | none =>
      cases inside : directory.hasFolder (nameOf (folder ++ [part])) with
      | true => simp [entry_eq_directory short found inside, Found, short]
      | false => simp [entry, long, found, inside, Found, short]

private theorem found_of_follow {place : Place} {parts : List String}
    (reached : directory.follow folder parts = .ok place) : directory.Found place := by
  fun_induction follow directory folder parts with
  | case1 => cases reached; trivial
  | case2 folder rest ih => exact ih reached
  | case3 folder rest ih => exact ih reached
  | case4 folder part =>
      cases reached
      exact (entry_spec directory folder part).1
  | case5 folder part single double rest more here ih => exact ih reached
  | case6 | case7 | case8 => cases reached

/-- A folder on the way is not where the way ends. -/
theorem ne_of_found {place : Place} {other : String} (found : directory.Found place)
    (named : place.name? = some name) (missing : directory.files.get? other = none)
    (inside : directory.hasFolder other) : other ≠ name := by
  intro same
  subst same
  cases place with
  | directory | tooLong => cases named
  | file name text =>
      cases named
      cases missing.symm.trans found
  | free name =>
      cases named
      cases inside.symm.trans found.2

/-- A path leads to the text that was put where it led before. -/
theorem follow_put {place : Place} {parts : List String} (named : place.name? = some name)
    (reached : directory.follow folder parts = .ok place) (text : String) :
    (directory.put name text).follow folder parts = .ok (.file name text) := by
  fun_induction follow directory folder parts with
  | case1 => cases reached; cases named
  | case2 folder rest ih => exact ih reached
  | case3 folder rest ih => exact ih reached
  | case4 folder part single double =>
      cases reached
      have spec := (entry_spec directory folder part).2
      have own : part.utf8ByteSize ≤ nameLimit ∧ name = nameOf (folder ++ [part]) := by
        cases here : directory.entry folder part with
        | directory | tooLong => rw [here] at named; cases named
        | file found old | free found =>
            rw [here] at named spec
            cases named
            exact spec
      obtain ⟨short, rfl⟩ := own
      have written : (directory.put (nameOf (folder ++ [part])) text).files.get?
          (nameOf (folder ++ [part])) = some text := by
        rw [put, Entries.get?_insert, if_pos rfl]
      simp only [follow, entry_eq_file short written]
  | case5 folder part single double rest more here ih =>
      have spec := (entry_spec directory folder part).2
      rw [here] at spec
      obtain ⟨short, missing, inside⟩ := spec
      have differ := ne_of_found (found_of_follow reached) named missing inside
      have still : (directory.put name text).files.get? (nameOf (folder ++ [part])) = none := by
        rw [put, Entries.get?_insert, if_neg differ, missing]
      simp only [follow, entry_eq_directory short still (hasFolder_put inside name text)]
      exact ih reached
  | case6 | case7 | case8 => cases reached

theorem find_put {path : String} {place : Place} (named : place.name? = some name)
    (found : directory.find path = .ok place) (text : String) :
    (directory.put name text).find path = .ok (.file name text) := by
  unfold find at found ⊢
  split at found
  · cases found
  case isFalse short =>
    rw [if_neg short]
    split at found
    · cases found
    case isFalse nonempty =>
      rw [if_neg nonempty]
      exact follow_put named found text

theorem write_eq_ok {path : String} {after : Directory}
    (written : directory.write path text = .ok after) :
    ∃ place name, directory.find path = .ok place ∧ place.name? = some name ∧
      namesFolder path = false ∧ after = directory.put name text := by
  unfold write at written
  split at written
  · cases written
  case h_2 place found =>
    split at written
    · cases written
    case isFalse single =>
      split at written
      · cases written
      · cases written
      all_goals
        cases written
        exact ⟨_, _, found, rfl, by simpa using single, rfl⟩

/-- The text that was put is the content of the file that the path leads to, and all other files
are as they were. -/
theorem stored_of_write {after : Directory} {path : String}
    (written : directory.write path text = .ok after) :
    after.read path = .ok text ∧ ∃ name, after.files.get? name = some text ∧
      ∀ other, other ≠ name → after.files.get? other = directory.files.get? other := by
  obtain ⟨place, name, found, named, single, rfl⟩ := write_eq_ok written
  refine ⟨?_, name, ?_, ?_⟩
  · rw [read, find_put named found text, single]
    rfl
  · exact (Entries.get?_insert _ name text name).trans (if_pos rfl)
  · intro other differs
    exact (Entries.get?_insert _ name text other).trans (if_neg differs)

end Directory

/-! ## Sessions -/

namespace Session

instance : MachineView Session where
  fileOf? session name := session.directory.files.get? name
  outputOf session := session.output
  errorsOf session := session.errors

variable (session : Session) (path text : String)

private theorem afterWriting_eq : afterWriting session path text =
    match session.directory.write path text with
    | .ok after => (.ok (), { session with directory := after })
    | .error fault => (.error fault, session) := rfl

private theorem afterOutput_eq : afterOutput session text =
    if session.hasRoomFor text then (.ok (), { session with output := session.output ++ text })
    else (.error .noSpace, session) := rfl

private theorem afterLog_eq (record : LogRecord) :
    afterLog session record = session.withRecord record :=
  rfl

instance : LawfulHost Session where
  keeps_readInput _ := rfl
  keeps_readFile _ _ := rfl
  of_writing_error := by
    intro before after path text fault ran
    rw [afterWriting_eq] at ran
    cases written : before.directory.write path text with
    | ok directory => rw [written] at ran; cases ran
    | error fault => rw [written] at ran; cases ran; rfl
  of_writing_ok := by
    intro before after path text ran
    rw [afterWriting_eq] at ran
    cases written : before.directory.write path text with
    | ok directory =>
        rw [written] at ran
        cases ran
        obtain ⟨content, single⟩ := Directory.stored_of_write written
        exact ⟨⟨content, single, rfl⟩, rfl⟩
    | error fault => rw [written] at ran; cases ran
  of_output_error := by
    intro before after text fault ran
    rw [afterOutput_eq] at ran
    split at ran
    · cases ran
    · cases ran; rfl
  of_output_ok := by
    intro before after text ran
    rw [afterOutput_eq] at ran
    split at ran
    · cases ran
      exact ⟨fun _ => rfl, rfl, String.append_empty.symm⟩
    · cases ran
  of_errors_error := by
    intro before after text fault ran
    cases ran
  of_errors_ok := by
    intro before after text ran
    cases ran
    exact ⟨fun _ => rfl, String.append_empty.symm, rfl⟩
  exists_printed_log := by
    intro before record
    rw [afterLog_eq, withRecord]
    split
    · exact ⟨record.text ++ "\n", fun _ => rfl, String.append_empty.symm,
        String.append_assoc⟩
    · exact ⟨"", .refl before⟩

end Session

end TracePipeline.CommandLine
