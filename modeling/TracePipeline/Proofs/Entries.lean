import TracePipeline.Entries

/-! Finite maps by what is looked up in them. Writing changes the value of one key; of several
values for a key the last one stays. Keys keep their order, so that each of them occurs once. -/

set_option autoImplicit false

namespace TracePipeline.Entries

variable {α : Type}

/-! ## Looking up -/

theorem get?_cons (key : String) (value : α) (rest : Entries α) (name : String) :
    get? ((key, value) :: rest) name = if name = key then some value else get? rest name := by
  rw [get?, List.lookup_cons]
  by_cases same : name = key
  · simp [same]
  · rw [beq_false_of_ne same, if_neg same]
    rfl

theorem get?_insert (entries : Entries α) (key : String) (value : α) (name : String) :
    (entries.insert key value).get? name =
      if name = key then some value else entries.get? name := by
  induction entries with
  | nil => rw [insert, get?_cons]
  | cons entry rest ih =>
      obtain ⟨other, kept⟩ := entry
      simp only [insert]
      split
      · rw [get?_cons]
      · split
        case isTrue same =>
          subst same
          rw [get?_cons, get?_cons]
          split <;> rfl
        case isFalse differ =>
          rw [get?_cons, get?_cons, ih]
          by_cases found : name = other
          · have untouched : name ≠ key := fun same => differ (same.symm.trans found)
            rw [if_pos found, if_neg untouched, if_pos found]
          · rw [if_neg found, if_neg found]

/-- The last pair for a key counts, and what was there before only when there is none. -/
theorem get?_insertAll (entries : Entries α) (pairs : List (String × α)) (name : String) :
    (entries.insertAll pairs).get? name = (pairs.reverse.lookup name).or (entries.get? name) := by
  induction pairs generalizing entries with
  | nil => rfl
  | cons pair rest ih =>
      obtain ⟨key, value⟩ := pair
      have single : List.lookup name [(key, value)] = if name = key then some value else none :=
        get?_cons key value [] name
      rw [insertAll, List.foldl_cons]
      change ((entries.insert key value).insertAll rest).get? name = _
      rw [ih, get?_insert, List.reverse_cons, List.lookup_append, single]
      by_cases same : name = key
      · simp [same]
      · simp [same]

theorem get?_ofPairs (pairs : List (String × α)) (name : String) :
    (ofPairs pairs).get? name = pairs.reverse.lookup name := by
  rw [ofPairs, get?_insertAll]
  exact Option.or_none

/-! ## Members -/

theorem mem_insert {key : String} {value : α} {entries : Entries α} {pair : String × α}
    (member : pair ∈ entries.insert key value) : pair = (key, value) ∨ pair ∈ entries := by
  induction entries with
  | nil => simpa [insert] using member
  | cons entry rest ih =>
      obtain ⟨other, kept⟩ := entry
      simp only [insert] at member
      split at member
      · simpa using member
      · split at member
        · rcases List.mem_cons.mp member with same | old
          · exact .inl same
          · exact .inr (.tail _ old)
        · rcases List.mem_cons.mp member with same | old
          · exact .inr (same ▸ .head _)
          · exact (ih old).imp_right (.tail _)

theorem mem_insertAll {entries : Entries α} {pairs : List (String × α)} {pair : String × α}
    (member : pair ∈ entries.insertAll pairs) : pair ∈ pairs ∨ pair ∈ entries := by
  induction pairs generalizing entries with
  | nil => exact .inr member
  | cons first rest ih =>
      rcases ih member with later | earlier
      · exact .inl (.tail _ later)
      · rcases mem_insert earlier with rfl | old
        · exact .inl (.head _)
        · exact .inr old

theorem mem_of_get? {key : String} {value : α} {entries : Entries α}
    (found : entries.get? key = some value) : (key, value) ∈ entries := by
  obtain ⟨before, after, shape, -⟩ := List.lookup_eq_some_iff.mp found
  simp [shape]

/-! ## Keys in order -/

instance (entries : Entries α) : Decidable entries.Sorted :=
  inferInstanceAs (Decidable ((keys entries).Pairwise (· < ·)))

theorem mem_keys_insert {entries : Entries α} {key name : String} {value : α}
    (member : name ∈ keys (entries.insert key value)) : name = key ∨ name ∈ keys entries := by
  obtain ⟨pair, present, rfl⟩ := List.mem_map.mp member
  rcases mem_insert present with rfl | old
  · exact .inl rfl
  · exact .inr (List.mem_map_of_mem old)

theorem keys_subset_insert (entries : Entries α) (key : String) (value : α) :
    keys entries ⊆ keys (entries.insert key value) := by
  intro name member
  induction entries with
  | nil => cases member
  | cons entry rest ih =>
      obtain ⟨other, kept⟩ := entry
      simp only [insert]
      split
      · exact .tail _ member
      · split
        case isTrue same => exact same ▸ member
        case isFalse =>
          rcases List.mem_cons.mp member with rfl | later
          · exact .head _
          · exact .tail _ (ih later)

theorem sorted_insert {entries : Entries α} (sorted : entries.Sorted) (key : String) (value : α) :
    (entries.insert key value).Sorted := by
  induction entries with
  | nil => exact List.pairwise_singleton _ _
  | cons entry rest ih =>
      obtain ⟨other, kept⟩ := entry
      obtain ⟨above, others⟩ := List.pairwise_cons.mp sorted
      simp only [insert]
      split
      case isTrue below =>
        refine List.pairwise_cons.mpr ⟨?_, sorted⟩
        intro name member
        rcases List.mem_cons.mp member with rfl | later
        · exact below
        · exact String.lt_trans below (above name later)
      case isFalse notBelow =>
        split
        case isTrue same =>
          exact same ▸ List.pairwise_cons.mpr ⟨above, others⟩
        case isFalse differ =>
          refine List.pairwise_cons.mpr ⟨?_, ih others⟩
          intro name member
          rcases mem_keys_insert member with rfl | old
          · exact Std.lt_of_le_of_ne (String.not_lt.mp notBelow) fun same => differ same.symm
          · exact above name old

theorem sorted_insertAll {entries : Entries α} (sorted : entries.Sorted)
    (pairs : List (String × α)) : (entries.insertAll pairs).Sorted := by
  induction pairs generalizing entries with
  | nil => exact sorted
  | cons pair rest ih => exact ih (sorted_insert sorted pair.1 pair.2)

theorem sorted_ofPairs (pairs : List (String × α)) : (ofPairs pairs).Sorted :=
  @sorted_insertAll α [] List.Pairwise.nil pairs

theorem get?_eq_some_iff {entries : Entries α} (sorted : entries.Sorted) {name : String}
    {value : α} : entries.get? name = some value ↔ (name, value) ∈ entries := by
  induction entries with
  | nil => simp [get?]
  | cons entry rest ih =>
      obtain ⟨other, kept⟩ := entry
      obtain ⟨above, others⟩ := List.pairwise_cons.mp sorted
      rw [get?_cons, List.mem_cons]
      by_cases same : name = other
      · subst same
        have alone : (name, value) ∉ rest := fun member =>
          String.lt_irrefl name (above name (List.mem_map_of_mem member))
        simp [alone, eq_comm]
      · simp [same, ih others]

/-- With one value for each key it does not matter from which end they are searched. -/
theorem lookup_reverse {entries : Entries α} (sorted : entries.Sorted) (name : String) :
    entries.reverse.lookup name = entries.get? name := by
  induction entries with
  | nil => rfl
  | cons entry rest ih =>
      obtain ⟨other, kept⟩ := entry
      obtain ⟨above, others⟩ := List.pairwise_cons.mp sorted
      have single : List.lookup name [(other, kept)] = if name = other then some kept else none :=
        get?_cons other kept [] name
      rw [List.reverse_cons, List.lookup_append, ih others, single, get?_cons]
      by_cases same : name = other
      · subst same
        have missing : get? rest name = none := by
          rw [Option.eq_none_iff_forall_ne_some]
          intro value found
          have member := (get?_eq_some_iff others).mp found
          exact String.lt_irrefl name (above name (List.mem_map_of_mem member))
        simp [missing]
      · simp [same]

private theorem insert_last {before : Entries α} {key : String} (value : α)
    (above : ∀ name ∈ before.keys, name < key) :
    before.insert key value = before ++ [(key, value)] := by
  induction before with
  | nil => rfl
  | cons entry rest ih =>
      obtain ⟨other, kept⟩ := entry
      have smaller := above other (.head _)
      have notBelow : ¬key < other := String.lt_asymm smaller
      have differ : key ≠ other := by
        rintro rfl
        exact String.lt_irrefl _ smaller
      rw [insert, if_neg notBelow, if_neg differ, ih fun name member => above name (.tail _ member)]
      rfl

/-- Pairs in order stay as they are. -/
theorem insertAll_eq_append {before pairs : Entries α} (sorted : Sorted (before ++ pairs)) :
    before.insertAll pairs = before ++ pairs := by
  induction pairs generalizing before with
  | nil => exact (List.append_nil before).symm
  | cons pair pairs ih =>
      obtain ⟨key, value⟩ := pair
      -- All keys before are smaller, so the pair goes behind them.
      have above : ∀ name ∈ keys before, name < key := by
        intro name member
        rw [Sorted, keys, List.map_append] at sorted
        exact (List.pairwise_append.mp sorted).2.2 name member key (.head _)
      have next : Sorted ((before ++ [(key, value)]) ++ pairs) := by
        simpa using sorted
      have others := ih next
      rw [List.append_assoc, ← insert_last value above] at others
      exact others

theorem ofPairs_of_sorted {entries : Entries α} (sorted : entries.Sorted) :
    ofPairs entries = entries :=
  @insertAll_eq_append α [] entries sorted

end TracePipeline.Entries
