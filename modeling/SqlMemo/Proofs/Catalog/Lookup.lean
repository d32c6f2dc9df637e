import SqlMemo.Catalog

/-!
# Looking up procedures

The index of a catalog is built by one insertion after another. What it holds under a name is
therefore the position of the last procedure that was registered under it, and a name in any
spelling leads to that procedure.
-/

set_option autoImplicit false

namespace SqlMemo.Catalog

/-! ## The index -/

theorem getElem?_indexOf (procedures : List Procedure) (key : String) :
    (indexOf procedures)[key]? =
      (procedures.zipIdx.reverse.find? fun entry => Text.upper entry.1.name == key).map
        Prod.snd := by
  rw [indexOf, List.foldl_eq_foldr_reverse]
  induction procedures.zipIdx.reverse with
  | nil => exact Std.HashMap.getElem?_empty
  | cons entry earlier ih =>
      rw [List.foldr_cons, Std.HashMap.getElem?_insert, List.find?_cons, ih]
      cases Text.upper entry.1.name == key <;> rfl

/-- Every position in the index is one of the list, and the procedure there has the name. -/
theorem exists_procedure_of_index {procedures : List Procedure} {key : String} {position : Nat}
    (indexed : (indexOf procedures)[key]? = some position) :
    ∃ procedure, procedures[position]? = some procedure ∧ Text.upper procedure.name = key := by
  rw [getElem?_indexOf] at indexed
  obtain ⟨⟨procedure, position'⟩, found, rfl⟩ := Option.map_eq_some_iff.mp indexed
  have entry := List.mem_reverse.mp (List.mem_of_find?_eq_some found)
  have same := List.find?_some found
  exact ⟨procedure, List.mem_zipIdx_iff_getElem?.mp entry, beq_iff_eq.mp same⟩

/-! ## Procedures -/

/-- The last procedure of a list with the given name in upper case is found. -/
theorem find?_ofList (procedures : List Procedure) (name : String) :
    (ofList procedures).find? name =
      procedures.reverse.find? fun procedure => Text.upper procedure.name == Text.upper name := by
  have entries : procedures.reverse = procedures.zipIdx.reverse.map Prod.fst := by
    rw [List.map_reverse, List.zipIdx_map_fst]
  rw [entries, List.find?_map, find?, ofList, getElem?_indexOf, Function.comp_def]
  cases found : procedures.zipIdx.reverse.find? fun entry =>
      Text.upper entry.1.name == Text.upper name with
  | none => rfl
  | some entry =>
      have member := List.mem_reverse.mp (List.mem_of_find?_eq_some found)
      exact List.mem_zipIdx_iff_getElem?.mp member

theorem mem_of_find? {procedures : List Procedure} {name : String} {procedure : Procedure}
    (found : (ofList procedures).find? name = some procedure) : procedure ∈ procedures := by
  rw [find?_ofList] at found
  exact List.mem_reverse.mp (List.mem_of_find?_eq_some found)

/-- What is found has no procedure of the same name behind it. -/
theorem find?_eq_some_iff {procedures : List Procedure} {name : String} {procedure : Procedure} :
    (ofList procedures).find? name = some procedure ↔
      ∃ before after, procedures = before ++ procedure :: after ∧
        Text.upper procedure.name = Text.upper name ∧
        ∀ later ∈ after, Text.upper later.name ≠ Text.upper name := by
  rw [find?_ofList, List.find?_eq_some_iff_append]
  constructor
  · rintro ⟨same, after, before, split, others⟩
    refine ⟨before.reverse, after.reverse, ?_, beq_iff_eq.mp same, ?_⟩
    · rw [← procedures.reverse_reverse, split]
      simp
    · intro later member
      simpa using others later (List.mem_reverse.mp member)
  · rintro ⟨before, after, rfl, same, others⟩
    refine ⟨beq_iff_eq.mpr same, after.reverse, before.reverse, by simp, ?_⟩
    intro later member
    simpa using others later (List.mem_reverse.mp member)

theorem find?_eq_none_iff {procedures : List Procedure} {name : String} :
    (ofList procedures).find? name = none ↔
      ∀ procedure ∈ procedures, Text.upper procedure.name ≠ Text.upper name := by
  rw [find?_ofList, List.find?_eq_none]
  simp only [List.mem_reverse, beq_iff_eq, Ne]

/-- A name in any spelling leads to the last procedure whose name has the same upper case, and to
none exactly if there is no such procedure. So a procedure is found under every spelling of its
name, unless a later one hides it. The index never leads out of the list, and the list stays as it
was registered. -/
theorem find?_of_registered (procedures : List Procedure) :
    let catalog := ofList procedures
    (∀ name procedure, catalog.find? name = some procedure ↔
      ∃ before after, procedures = before ++ procedure :: after ∧
        Text.upper procedure.name = Text.upper name ∧
        ∀ later ∈ after, Text.upper later.name ≠ Text.upper name) ∧
    (∀ name, catalog.find? name = none ↔
      ∀ procedure ∈ procedures, Text.upper procedure.name ≠ Text.upper name) ∧
    (∀ before procedure after, procedures = before ++ procedure :: after →
      (∀ name, Text.upper name = Text.upper procedure.name →
        catalog.find? name = some procedure) ∨
      ∃ later ∈ after, Text.upper later.name = Text.upper procedure.name) ∧
    (∀ key position, catalog.index[key]? = some position →
      ∃ inside : position < procedures.length, Text.upper procedures[position].name = key) ∧
    catalog.procedures = procedures := by
  intro catalog
  refine ⟨fun _ _ => find?_eq_some_iff, fun _ => find?_eq_none_iff, ?_, ?_, rfl⟩
  · intro before procedure after split
    by_cases hidden : ∃ later ∈ after, Text.upper later.name = Text.upper procedure.name
    · exact .inr hidden
    · refine .inl fun name same => find?_eq_some_iff.mpr ⟨before, after, split, same.symm, ?_⟩
      intro later member same'
      exact hidden ⟨later, member, same'.trans same⟩
  · intro key position indexed
    obtain ⟨procedure, found, same⟩ := exists_procedure_of_index indexed
    obtain ⟨inside, rfl⟩ := List.getElem?_eq_some_iff.mp found
    exact ⟨inside, same⟩

/-- The upper case of `ß` is `SS`, so the second street hides the first one under every spelling. -/
theorem find?_of_registered_streets :
    let street : Procedure := ⟨"straße", "", .double, .sum⟩
    let laterStreet : Procedure := ⟨"Strasse", "", .integer, .count⟩
    let catalog := ofList [street, laterStreet]
    catalog.find? "straße" = some laterStreet ∧ catalog.find? "STRAßE" = some laterStreet ∧
    catalog.find? "strase" = none := by
  intro street laterStreet catalog
  have found := (find?_of_registered [street, laterStreet]).1
  have missing := (find?_of_registered [street, laterStreet]).2.1
  refine ⟨(found _ _).mpr ⟨[street], [], rfl, ?_, ?_⟩, (found _ _).mpr ⟨[street], [], rfl, ?_, ?_⟩,
    (missing _).mpr ?_⟩ <;> decide +kernel

end SqlMemo.Catalog
