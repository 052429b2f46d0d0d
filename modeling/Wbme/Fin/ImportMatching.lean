import Wbme.Fin.Import
import Wbme.Fin.ImportRows
import Wbme.Lib.Grouping

/-! # Which rows of a file are carried out

A row points to a stored project by its name and year, or by its name alone when only one
project has it. The rows that point to one project share it: one of them at most is offered to
be carried out, and the others are refused.
-/

namespace Wbme.Fin

open Lib

namespace ImportMatching

/-! ## The rule of a row -/

def Points (u : Unicode) (s : FinStore) (input : ProjectRowInput) (id : Nat) : Prop :=
  ∃ p, s.projects.find? id = some p ∧ p.businessKey = normalizeProjectName u input.name ∧
    (input.year = .number p.year ∨
      input.year = .missing ∧ ∀ j q, s.projects.find? j = some q →
        q.businessKey = p.businessKey → j = id)

/-- The row is among the conflicts or the errors. -/
def Refused (preview : ImportPreviewResult) (rowNumber : Nat) : Prop :=
  rowNumber ∈ preview.conflicts.map (·.rowNumber) ∨ rowNumber ∈ preview.errors.map (·.rowNumber)

structure MatchedOnce (u : Unicode) (s : FinStore) (inputs : List ProjectRowInput)
    (preview : ImportPreviewResult) : Prop where
  /-- A project is offered for one row at most. -/
  once : (preview.pendingChoice.map (·.projectId)).Nodup
  /-- The row is for the project, and the project is not deleted. -/
  rule : ∀ item ∈ preview.pendingChoice, ∃ input ∈ inputs, input.rowNumber = item.rowNumber ∧
    Points u s input item.projectId ∧ ∃ p, s.projects.find? item.projectId = some p ∧ p.isLive = true
  /-- A row that is inserted is for no stored project. -/
  fresh : ∀ item ∈ preview.created, ∃ input ∈ inputs, input.rowNumber = item.rowNumber ∧
    ∀ id, ¬ Points u s input id
  /-- Of two rows for one project one is refused. -/
  others : ∀ i ∈ inputs, ∀ j ∈ inputs, i.rowNumber ≠ j.rowNumber → ∀ id, Points u s i id →
    Points u s j id → Refused preview i.rowNumber ∨ Refused preview j.rowNumber
  /-- A row that is refused is not carried out. -/
  refused : ∀ rowNumber, Refused preview rowNumber →
    rowNumber ∉ preview.created.map (·.rowNumber) ∧
      rowNumber ∉ preview.pendingChoice.map (·.rowNumber)

/-! ## One row at a time -/

variable {input : ProjectRowInput} {matched : List MatchedRow} {t : Nat × Project}

section Rows

variable (u : Unicode) (projects : List (Nat × Project))

def verdict (seenKeys : List (String × RowYear)) (input : ProjectRowInput) :
    MatchStatus × Option (Nat × Project) × String :=
  if input.year = .missing then matchByName projects (normalizeProjectName u input.name)
  else matchByKey projects seenKeys (normalizeProjectName u input.name, input.year)

/-- The project that a row is matched to, whatever stands before it. -/
def targetOf (input : ProjectRowInput) : Option (Nat × Project) := (verdict u projects [] input).2.1

/-- The row behind some others. -/
def matchedRow (state : MatchState) (input : ProjectRowInput) : MatchedRow :=
  if (verdict u projects state.seenKeys input).2.1.any
      fun t => state.seenProjectIds.contains t.1 then
    ⟨input, .duplicate, (verdict u projects state.seenKeys input).2.1,
      "同一文件中多行指向同一项目（重复覆盖）"⟩
  else
    ⟨input, (verdict u projects state.seenKeys input).1,
      (verdict u projects state.seenKeys input).2.1,
      (verdict u projects state.seenKeys input).2.2⟩

variable (state : MatchState)

theorem matchRow_matched (input : ProjectRowInput) :
    (matchRow u projects state input).matched =
      state.matched ++ [matchedRow u projects state input] := rfl

theorem matchRow_seenProjectIds (input : ProjectRowInput) :
    (matchRow u projects state input).seenProjectIds = state.seenProjectIds ++
      ((verdict u projects state.seenKeys input).2.1.map (·.1)).toList := rfl

variable {u projects}

theorem matchByKey_target (seenKeys : List (String × RowYear)) (key : String × RowYear) :
    (matchByKey projects seenKeys key).2.1 =
      (liveOf (projects.filter fun p =>
        (p.2.businessKey, RowYear.number p.2.year) == key)).head? := by
  unfold matchByKey
  dsimp only
  split
  · rename_i target htarget
    exact htarget.symm
  · rename_i hnone
    rw [hnone]
    split
    · rfl
    · split
      · rfl
      · rfl

theorem verdict_target (seenKeys : List (String × RowYear)) (input : ProjectRowInput) :
    (verdict u projects seenKeys input).2.1 = targetOf u projects input := by
  unfold targetOf verdict
  split
  · rfl
  · rw [matchByKey_target, matchByKey_target]

theorem matchedRow_input (input : ProjectRowInput) :
    (matchedRow u projects state input).input = input := by
  unfold matchedRow
  split
  · rfl
  · rfl

theorem matchedRow_target (input : ProjectRowInput) :
    (matchedRow u projects state input).target = targetOf u projects input := by
  unfold matchedRow
  split
  · exact verdict_target _ _
  · exact verdict_target _ _

variable {seenKeys : List (String × RowYear)}

theorem matchByKey_choice {key : String × RowYear}
    (h : (matchByKey projects seenKeys key).1 = .choice) :
    (matchByKey projects seenKeys key).2.1.isSome = true := by
  unfold matchByKey at h ⊢
  dsimp only at h ⊢
  split at h
  · rfl
  · split_ifs at h

theorem matchByName_choice {businessKey : String}
    (h : (matchByName projects businessKey).1 = .choice) :
    (matchByName projects businessKey).2.1.isSome = true := by
  unfold matchByName at h ⊢
  dsimp only at h ⊢
  split at h
  · rfl
  · cases h
  · cases h
  · cases h

theorem verdict_choice (h : (verdict u projects seenKeys input).1 = .choice) :
    (verdict u projects seenKeys input).2.1.isSome = true := by
  unfold verdict at h ⊢
  split at h
  · rename_i hmissing
    rw [if_pos hmissing]
    exact matchByName_choice h
  · rename_i hmissing
    rw [if_neg hmissing]
    exact matchByKey_choice h

theorem verdict_new (h : (verdict u projects seenKeys input).1 = .new) :
    input.year ≠ .missing ∧ ∀ p ∈ projects,
      (p.2.businessKey, RowYear.number p.2.year) ≠
        (normalizeProjectName u input.name, input.year) := by
  unfold verdict at h
  split at h
  · unfold matchByName at h
    dsimp only at h
    split at h
    · cases h
    · cases h
    · cases h
    · cases h
  · rename_i hmissing
    refine ⟨hmissing, ?_⟩
    unfold matchByKey at h
    dsimp only at h
    split at h
    · cases h
    · split at h
      · cases h
      · rename_i hempty
        intro p hp heq
        have hnil : projects.filter (fun p => (p.2.businessKey, RowYear.number p.2.year) ==
            (normalizeProjectName u input.name, input.year)) = [] := by
          simpa using hempty
        have hmem : p ∈ projects.filter (fun p => (p.2.businessKey, RowYear.number p.2.year) ==
            (normalizeProjectName u input.name, input.year)) :=
          List.mem_filter.mpr ⟨hp, beq_iff_eq.mpr heq⟩
        rw [hnil] at hmem
        cases hmem

theorem targetOf_some (h : targetOf u projects input = some t) :
    t ∈ projects ∧ t.2.isLive = true ∧ t.2.businessKey = normalizeProjectName u input.name ∧
      (input.year = .number t.2.year ∨ input.year = .missing ∧
        ∀ p ∈ projects, p.2.businessKey = normalizeProjectName u input.name → p = t) := by
  unfold targetOf verdict at h
  split at h
  · rename_i hmissing
    unfold matchByName at h
    dsimp only at h
    split at h
    · rename_i target hlive hdeleted
      cases h
      have hmem : t ∈ liveOf (projects.filter fun p =>
          p.2.businessKey == normalizeProjectName u input.name) := by
        rw [hlive]
        exact List.mem_singleton_self t
      obtain ⟨hcandidate, hisLive⟩ := List.mem_filter.mp hmem
      obtain ⟨hproject, hname⟩ := List.mem_filter.mp hcandidate
      refine ⟨hproject, hisLive, beq_iff_eq.mp hname, .inr ⟨hmissing, ?_⟩⟩
      intro p hp hpname
      have hpcandidate : p ∈ projects.filter fun p =>
          p.2.businessKey == normalizeProjectName u input.name :=
        List.mem_filter.mpr ⟨hp, beq_iff_eq.mpr hpname⟩
      have hplive : p.2.isLive = true := by
        by_contra hnot
        have hpdeleted : p ∈ (projects.filter fun p =>
            p.2.businessKey == normalizeProjectName u input.name).filter fun p => !p.2.isLive :=
          List.mem_filter.mpr ⟨hpcandidate, by simp [hnot]⟩
        rw [hdeleted] at hpdeleted
        cases hpdeleted
      have hpmem : p ∈ liveOf (projects.filter fun p =>
          p.2.businessKey == normalizeProjectName u input.name) :=
        List.mem_filter.mpr ⟨hpcandidate, hplive⟩
      rw [hlive] at hpmem
      exact List.mem_singleton.mp hpmem
    · cases h
    · cases h
    · cases h
  · rw [matchByKey_target] at h
    obtain ⟨hcandidate, hisLive⟩ := List.mem_filter.mp (List.mem_of_head? h)
    obtain ⟨hproject, hkey⟩ := List.mem_filter.mp hcandidate
    have hkey := beq_iff_eq.mp hkey
    exact ⟨hproject, hisLive, congrArg Prod.fst hkey, .inl (congrArg Prod.snd hkey).symm⟩

theorem targetOf_congr {i j : ProjectRowInput}
    (hname : normalizeProjectName u i.name = normalizeProjectName u j.name)
    (hyear : i.year = j.year) : targetOf u projects i = targetOf u projects j := by
  unfold targetOf verdict
  rw [hname, hyear]

end Rows

/-! ## All rows of a file -/

variable {inputs : List ProjectRowInput} {id : Nat}

section Run

variable {u : Unicode} {projects : List (Nat × Project)}

/-- What the rows matched so far have come to. -/
structure Matching (u : Unicode) (projects : List (Nat × Project)) (state : MatchState) :
    Prop where
  targets : ∀ m ∈ state.matched, m.target = targetOf u projects m.input
  seen : state.seenProjectIds = state.matched.filterMap fun m => m.target.map (·.1)
  choices : ∀ m ∈ state.matched, m.status = .choice → m.target.isSome = true
  fresh : ∀ m ∈ state.matched, m.status = .new → m.input.year ≠ .missing ∧
    ∀ p ∈ projects, (p.2.businessKey, RowYear.number p.2.year) ≠
      (normalizeProjectName u m.input.name, m.input.year)
  once : (choiceTargets state.matched).Nodup

theorem choiceTargets_append (matched : List MatchedRow) (m : MatchedRow) :
    choiceTargets (matched ++ [m]) = choiceTargets matched ++
      if m.status = .choice then (m.target.map (·.1)).toList else [] := by
  unfold choiceTargets
  rw [List.filter_append, List.filterMap_append]
  by_cases hchoice : m.status = .choice
  · rw [if_pos hchoice, List.filter_cons_of_pos (by simp [hchoice]), List.filter_nil]
    cases htarget : m.target with
    | none => simp [htarget]
    | some t => simp [htarget]
  · rw [if_neg hchoice, List.filter_cons_of_neg (by simp [hchoice]), List.filter_nil,
      List.filterMap_nil]

theorem mem_choiceTargets :
    id ∈ choiceTargets matched ↔
      ∃ m ∈ matched, m.status = .choice ∧ m.target.map (·.1) = some id := by
  unfold choiceTargets
  rw [List.mem_filterMap]
  constructor
  · intro h
    obtain ⟨m, hm, hid⟩ := h
    obtain ⟨hmem, hchoice⟩ := List.mem_filter.mp hm
    exact ⟨m, hmem, beq_iff_eq.mp hchoice, hid⟩
  · intro h
    obtain ⟨m, hmem, hchoice, hid⟩ := h
    exact ⟨m, List.mem_filter.mpr ⟨hmem, beq_iff_eq.mpr hchoice⟩, hid⟩

variable {state : MatchState}

theorem matchedRow_choice (h : (matchedRow u projects state input).status = .choice) :
    ∃ t, targetOf u projects input = some t ∧ t.1 ∉ state.seenProjectIds := by
  unfold matchedRow at h
  split at h
  · cases h
  · rename_i hseen
    obtain ⟨t, ht⟩ := Option.isSome_iff_exists.mp (verdict_choice h)
    rw [ht] at hseen
    refine ⟨t, (verdict_target _ _).symm.trans ht, ?_⟩
    simpa using hseen

theorem matchedRow_new (h : (matchedRow u projects state input).status = .new) :
    input.year ≠ .missing ∧ ∀ p ∈ projects, (p.2.businessKey, RowYear.number p.2.year) ≠
      (normalizeProjectName u input.name, input.year) := by
  unfold matchedRow at h
  split at h
  · cases h
  · exact verdict_new h

theorem Matching.step (h : Matching u projects state) (input : ProjectRowInput) :
    Matching u projects (matchRow u projects state input) where
  targets := by
    intro m hm
    rw [matchRow_matched, List.mem_append, List.mem_singleton] at hm
    rcases hm with hm | hm
    · exact h.targets m hm
    · rw [hm, matchedRow_target, matchedRow_input]
  seen := by
    rw [matchRow_seenProjectIds, matchRow_matched, List.filterMap_append, h.seen, verdict_target]
    congr 1
    cases htarget : targetOf u projects input with
    | none => simp [matchedRow_target, htarget]
    | some t => simp [matchedRow_target, htarget]
  choices := by
    intro m hm hchoice
    rw [matchRow_matched, List.mem_append, List.mem_singleton] at hm
    rcases hm with hm | hm
    · exact h.choices m hm hchoice
    · subst hm
      obtain ⟨t, ht, -⟩ := matchedRow_choice hchoice
      rw [matchedRow_target, ht]
      rfl
  fresh := by
    intro m hm hnew
    rw [matchRow_matched, List.mem_append, List.mem_singleton] at hm
    rcases hm with hm | hm
    · exact h.fresh m hm hnew
    · subst hm
      rw [matchedRow_input]
      exact matchedRow_new hnew
  once := by
    rw [matchRow_matched, choiceTargets_append]
    split
    · rename_i hchoice
      obtain ⟨t, ht, hnot⟩ := matchedRow_choice hchoice
      rw [matchedRow_target, ht, Option.map_some, Option.toList_some, List.nodup_append]
      refine ⟨h.once, List.nodup_singleton _, ?_⟩
      intro a ha b hb hab
      rw [List.mem_singleton.mp hb] at hab
      apply hnot
      rw [h.seen, List.mem_filterMap, ← hab]
      obtain ⟨m, hm, -, hid⟩ := mem_choiceTargets.mp ha
      exact ⟨m, hm, hid⟩
    · rw [List.append_nil]
      exact h.once

theorem matching_foldl {state : MatchState} (h : Matching u projects state)
    (inputs : List ProjectRowInput) :
    Matching u projects (inputs.foldl (matchRow u projects) state) := by
  induction inputs generalizing state with
  | nil => exact h
  | cons input inputs ih => exact ih (h.step input)

theorem foldl_inputs (state : MatchState) (inputs : List ProjectRowInput) :
    (inputs.foldl (matchRow u projects) state).matched.map (·.input) =
      state.matched.map (·.input) ++ inputs := by
  induction inputs generalizing state with
  | nil => simp
  | cons input inputs ih =>
      rw [List.foldl_cons, ih, matchRow_matched, List.map_append, List.map_singleton,
        matchedRow_input, List.append_assoc, List.singleton_append]

theorem matchInputs_inputs (inputs : List ProjectRowInput) :
    (matchInputs u projects inputs).map (·.input) = inputs := foldl_inputs ⟨[], [], []⟩ inputs

theorem matching_matchInputs (inputs : List ProjectRowInput) :
    Matching u projects (inputs.foldl (matchRow u projects) ⟨[], [], []⟩) := by
  apply matching_foldl
  constructor
  · intro m hm
    cases hm
  · rfl
  · intro m hm
    cases hm
  · intro m hm
    cases hm
  · exact List.nodup_nil

end Run

section Preview

variable (rowErrors : List RowError) (lossyProjectIds : List Nat)

def rowPreview (m : MatchedRow) : ImportPreviewResult :=
  previewRow rowErrors lossyProjectIds ⟨[], [], [], []⟩ m

theorem previewRow_append (result : ImportPreviewResult) (m : MatchedRow) :
    previewRow rowErrors lossyProjectIds result m =
      ⟨result.created ++ (rowPreview rowErrors lossyProjectIds m).created,
        result.pendingChoice ++ (rowPreview rowErrors lossyProjectIds m).pendingChoice,
        result.conflicts ++ (rowPreview rowErrors lossyProjectIds m).conflicts,
        result.errors ++ (rowPreview rowErrors lossyProjectIds m).errors⟩ := by
  unfold rowPreview previewRow
  dsimp only
  split
  · split
    · simp
    · simp
  · split
    · simp
    · split
      · simp
      · simp
  · split
    · simp
    · simp

theorem buildPreview_eq (matched : List MatchedRow) :
    buildPreview matched rowErrors lossyProjectIds =
      ⟨matched.flatMap fun m => (rowPreview rowErrors lossyProjectIds m).created,
        matched.flatMap fun m => (rowPreview rowErrors lossyProjectIds m).pendingChoice,
        matched.flatMap fun m => (rowPreview rowErrors lossyProjectIds m).conflicts,
        matched.flatMap fun m => (rowPreview rowErrors lossyProjectIds m).errors⟩ := by
  have hall : ∀ result : ImportPreviewResult,
      matched.foldl (previewRow rowErrors lossyProjectIds) result =
        ⟨result.created ++ matched.flatMap fun m => (rowPreview rowErrors lossyProjectIds m).created,
          result.pendingChoice ++
            matched.flatMap fun m => (rowPreview rowErrors lossyProjectIds m).pendingChoice,
          result.conflicts ++
            matched.flatMap fun m => (rowPreview rowErrors lossyProjectIds m).conflicts,
          result.errors ++
            matched.flatMap fun m => (rowPreview rowErrors lossyProjectIds m).errors⟩ := by
    induction matched with
    | nil =>
        intro result
        simp
    | cons m matched ih =>
        intro result
        rw [List.foldl_cons, ih, previewRow_append]
        simp only [List.flatMap_cons, List.append_assoc]
  exact hall ⟨[], [], [], []⟩

theorem mem_created {item : PreviewRowItem} :
    item ∈ (buildPreview matched rowErrors lossyProjectIds).created ↔
      ∃ m ∈ matched, item ∈ (rowPreview rowErrors lossyProjectIds m).created := by
  rw [buildPreview_eq]
  exact List.mem_flatMap

variable {item : PendingChoiceItem}

theorem mem_pendingChoice :
    item ∈ (buildPreview matched rowErrors lossyProjectIds).pendingChoice ↔
      ∃ m ∈ matched, item ∈ (rowPreview rowErrors lossyProjectIds m).pendingChoice := by
  rw [buildPreview_eq]
  exact List.mem_flatMap

theorem mem_conflicts {item : ConflictItem} :
    item ∈ (buildPreview matched rowErrors lossyProjectIds).conflicts ↔
      ∃ m ∈ matched, item ∈ (rowPreview rowErrors lossyProjectIds m).conflicts := by
  rw [buildPreview_eq]
  exact List.mem_flatMap

theorem mem_errors {item : ErrorItem} :
    item ∈ (buildPreview matched rowErrors lossyProjectIds).errors ↔
      ∃ m ∈ matched, item ∈ (rowPreview rowErrors lossyProjectIds m).errors := by
  rw [buildPreview_eq]
  exact List.mem_flatMap

variable {rowErrors lossyProjectIds}

variable {m : MatchedRow}

theorem rowPreview_pendingChoice
    (h : item ∈ (rowPreview rowErrors lossyProjectIds m).pendingChoice) :
    m.status = .choice ∧ m.target.map (·.1) = some item.projectId ∧
      item.rowNumber = m.input.rowNumber := by
  unfold rowPreview previewRow at h
  dsimp only at h
  split at h
  · split at h
    · cases h
    · cases h
  · rename_i hstatus
    split at h
    · cases h
    · split at h
      · cases h
      · rename_i projectId project htarget
        obtain rfl := List.mem_singleton.mp h
        refine ⟨hstatus, ?_, rfl⟩
        rw [htarget]
        rfl
  · cases h

theorem rowPreview_created {item : PreviewRowItem}
    (h : item ∈ (rowPreview rowErrors lossyProjectIds m).created) :
    m.status = .new ∧ item.rowNumber = m.input.rowNumber := by
  unfold rowPreview previewRow at h
  dsimp only at h
  split at h
  · rename_i hstatus
    split at h
    · cases h
    · obtain rfl := List.mem_singleton.mp h
      exact ⟨hstatus, rfl⟩
  · split at h
    · cases h
    · split at h
      · cases h
      · cases h
  · cases h

theorem rowPreview_refused (h : (rowPreview rowErrors lossyProjectIds m).conflicts ≠ [] ∨
      (rowPreview rowErrors lossyProjectIds m).errors ≠ []) :
    (rowPreview rowErrors lossyProjectIds m).created = [] ∧
      (rowPreview rowErrors lossyProjectIds m).pendingChoice = [] := by
  unfold rowPreview previewRow at h ⊢
  dsimp only at h ⊢
  split at h
  · split at h
    · rename_i herrors
      rw [if_pos herrors]
      exact ⟨rfl, rfl⟩
    · simp at h
  · split at h
    · rename_i herrors
      rw [if_pos herrors]
      exact ⟨rfl, rfl⟩
    · split at h
      · simp at h
      · simp at h
  · exact ⟨rfl, rfl⟩

theorem rowPreview_conflicts {item : ConflictItem}
    (h : item ∈ (rowPreview rowErrors lossyProjectIds m).conflicts) :
    item.rowNumber = m.input.rowNumber := by
  unfold rowPreview previewRow at h
  dsimp only at h
  split at h
  · split at h
    · cases h
    · cases h
  · split at h
    · cases h
    · split at h
      · cases h
      · cases h
  · obtain rfl := List.mem_singleton.mp h
    rfl

theorem rowPreview_errors {item : ErrorItem}
    (h : item ∈ (rowPreview rowErrors lossyProjectIds m).errors) :
    item.rowNumber = m.input.rowNumber := by
  unfold rowPreview previewRow at h
  dsimp only at h
  split at h
  · split at h
    · obtain rfl := List.mem_singleton.mp h
      rfl
    · cases h
  · split at h
    · obtain rfl := List.mem_singleton.mp h
      rfl
    · split at h
      · cases h
      · cases h
  · split at h
    · cases h
    · obtain rfl := List.mem_singleton.mp h
      rfl

theorem rowPreview_kept (hconflicts : (rowPreview rowErrors lossyProjectIds m).conflicts = []) :
    m.status = .new ∨ m.status = .choice := by
  unfold rowPreview previewRow at hconflicts
  dsimp only at hconflicts
  split at hconflicts
  · rename_i hstatus
    exact .inl hstatus
  · rename_i hstatus
    exact .inr hstatus
  · cases hconflicts

theorem pendingChoice_sublist (matched : List MatchedRow) :
    ((buildPreview matched rowErrors lossyProjectIds).pendingChoice.map (·.projectId)).Sublist
      (choiceTargets matched) := by
  rw [buildPreview_eq]
  dsimp only
  induction matched with
  | nil => exact List.Sublist.refl _
  | cons m matched ih =>
      rw [List.flatMap_cons, List.map_append]
      have hsplit : choiceTargets (m :: matched) =
          choiceTargets [m] ++ choiceTargets matched := by
        unfold choiceTargets
        rw [← List.singleton_append, List.filter_append, List.filterMap_append]
      rw [hsplit]
      refine List.Sublist.append ?_ ih
      unfold rowPreview previewRow
      dsimp only
      split
      · split
        · exact List.nil_sublist _
        · exact List.nil_sublist _
      · rename_i hstatus
        split
        · exact List.nil_sublist _
        · split
          · exact List.nil_sublist _
          · rename_i projectId project htarget
            simp [choiceTargets, hstatus, htarget]
      · exact List.nil_sublist _

end Preview

section Stored

variable {u : Unicode} {s : FinStore} {inputs : List ProjectRowInput}

theorem find?_of_projectsNamed (h : t ∈ projectsNamed u inputs s) :
    s.projects.find? t.1 = some t.2 := by
  unfold projectsNamed at h
  exact (Table.mem_select.mp h).1

theorem mem_projectsNamed (hinput : input ∈ inputs) {p : Project}
    (hp : s.projects.find? id = some p)
    (hname : p.businessKey = normalizeProjectName u input.name) :
    (id, p) ∈ projectsNamed u inputs s := by
  unfold projectsNamed
  apply Table.mem_select.mpr
  refine ⟨hp, ?_⟩
  rw [Bool.or_eq_true]
  right
  rw [List.contains_iff_mem, hname]
  exact List.mem_map_of_mem hinput

theorem points_of_targetOf (hinput : input ∈ inputs)
    (h : targetOf u (projectsNamed u inputs s) input = some t) :
    Points u s input t.1 ∧ s.projects.find? t.1 = some t.2 ∧ t.2.isLive = true := by
  obtain ⟨hmem, hlive, hname, hyear⟩ := targetOf_some h
  have hfind := find?_of_projectsNamed hmem
  refine ⟨⟨t.2, hfind, hname, ?_⟩, hfind, hlive⟩
  rcases hyear with hyear | ⟨hmissing, honly⟩
  · exact .inl hyear
  · refine .inr ⟨hmissing, ?_⟩
    intro j q hq hqname
    have hq' := honly (j, q) (mem_projectsNamed hinput hq (hqname.trans hname)) (hqname.trans hname)
    exact congrArg Prod.fst hq'

theorem targets_agree {i j : ProjectRowInput} (hpi : Points u s i id) (hpj : Points u s j id)
    {t t' : Nat × Project} (ht : targetOf u (projectsNamed u inputs s) i = some t)
    (ht' : targetOf u (projectsNamed u inputs s) j = some t') : t.1 = t'.1 := by
  obtain ⟨p, hp, hpname, hpyear⟩ := hpi
  obtain ⟨q, hq, hqname, hqyear⟩ := hpj
  have hpq : p = q := Option.some.inj (hp.symm.trans hq)
  subst hpq
  obtain ⟨hmem, -, hname, -⟩ := targetOf_some ht
  obtain ⟨hmem', -, hname', -⟩ := targetOf_some ht'
  have hfind := find?_of_projectsNamed hmem
  have hfind' := find?_of_projectsNamed hmem'
  have hnames : ∀ honly : (∀ k r, s.projects.find? k = some r →
      r.businessKey = p.businessKey → k = id), t.1 = t'.1 := by
    intro honly
    rw [honly t.1 t.2 hfind (hname.trans hpname.symm),
      honly t'.1 t'.2 hfind' (hname'.trans hqname.symm)]
  rcases hpyear with hpyear | ⟨-, honly⟩
  · rcases hqyear with hqyear | ⟨-, honly⟩
    · have hsame : targetOf u (projectsNamed u inputs s) i =
          targetOf u (projectsNamed u inputs s) j :=
        targetOf_congr (hpname.symm.trans hqname) (hpyear.trans hqyear.symm)
      rw [ht, ht'] at hsame
      rw [Option.some.inj hsame]
    · exact hnames honly
  · exact hnames honly

theorem not_points_of_new (hinput : input ∈ inputs) (hmissing : input.year ≠ .missing)
    (hnone : ∀ p ∈ projectsNamed u inputs s, (p.2.businessKey, RowYear.number p.2.year) ≠
      (normalizeProjectName u input.name, input.year)) (id : Nat) : ¬ Points u s input id := by
  intro h
  obtain ⟨p, hp, hname, hyear⟩ := h
  rcases hyear with hyear | ⟨hno, -⟩
  · exact hnone (id, p) (mem_projectsNamed hinput hp hname) (Prod.ext hname hyear.symm)
  · exact hmissing hno

variable {rowErrors : List RowError} {lossyProjectIds : List Nat}

theorem matchedOnce_buildPreview (hrows : (inputs.map (·.rowNumber)).Nodup) :
    MatchedOnce u s inputs (buildPreview (matchInputs u (projectsNamed u inputs s) inputs)
      rowErrors lossyProjectIds) := by
  have hmatching : Matching u (projectsNamed u inputs s)
      (inputs.foldl (matchRow u (projectsNamed u inputs s)) ⟨[], [], []⟩) :=
    matching_matchInputs inputs
  have hinputs : (matchInputs u (projectsNamed u inputs s) inputs).map (·.input) = inputs :=
    matchInputs_inputs inputs
  have hnodup : (matchInputs u (projectsNamed u inputs s) inputs).Nodup := by
    apply List.Nodup.of_map (·.input)
    rw [hinputs]
    exact List.Nodup.of_map _ hrows
  have hmem : ∀ m ∈ matchInputs u (projectsNamed u inputs s) inputs, m.input ∈ inputs := by
    intro m hm
    rw [← hinputs]
    exact List.mem_map_of_mem hm
  have hrow : ∀ i ∈ inputs, ∃ m ∈ matchInputs u (projectsNamed u inputs s) inputs,
      m.input = i := by
    intro i hi
    rw [← hinputs] at hi
    exact List.mem_map.mp hi
  have hsame : ∀ a ∈ matchInputs u (projectsNamed u inputs s) inputs,
      ∀ b ∈ matchInputs u (projectsNamed u inputs s) inputs,
        a.input.rowNumber = b.input.rowNumber → a = b := by
    intro a ha b hb heq
    have hinput := List.inj_on_of_nodup_map hrows (hmem a ha) (hmem b hb) heq
    have hinputsNodup : ((matchInputs u (projectsNamed u inputs s) inputs).map (·.input)).Nodup := by
      rw [hinputs]
      exact List.Nodup.of_map _ hrows
    exact List.inj_on_of_nodup_map hinputsNodup ha hb hinput
  have hfresh : ∀ m ∈ matchInputs u (projectsNamed u inputs s) inputs, m.status = .new →
      ∀ id, ¬ Points u s m.input id := by
    intro m hm hnew
    obtain ⟨hmissing, hnone⟩ := hmatching.fresh m hm hnew
    exact not_points_of_new (hmem m hm) hmissing hnone
  constructor
  · exact hmatching.once.sublist (pendingChoice_sublist _)
  · intro item hitem
    obtain ⟨m, hm, hin⟩ := mem_pendingChoice _ _ |>.mp hitem
    obtain ⟨-, htarget, hnumber⟩ := rowPreview_pendingChoice hin
    obtain ⟨t, ht, hid⟩ := Option.map_eq_some_iff.mp htarget
    rw [hmatching.targets m hm] at ht
    obtain ⟨hpoints, hfind, hlive⟩ := points_of_targetOf (hmem m hm) ht
    rw [hid] at hpoints hfind
    exact ⟨m.input, hmem m hm, hnumber.symm, hpoints, t.2, hfind, hlive⟩
  · intro item hitem
    obtain ⟨m, hm, hin⟩ := mem_created _ _ |>.mp hitem
    obtain ⟨hnew, hnumber⟩ := rowPreview_created hin
    exact ⟨m.input, hmem m hm, hnumber.symm, hfresh m hm hnew⟩
  · intro i hi j hj hne id hpi hpj
    by_contra hnot
    rw [not_or] at hnot
    -- a row that is for a project and is not refused is a choice
    have hchoice : ∀ k ∈ inputs, Points u s k id →
        ¬ Refused (buildPreview (matchInputs u (projectsNamed u inputs s) inputs) rowErrors
          lossyProjectIds) k.rowNumber →
        ∃ m ∈ matchInputs u (projectsNamed u inputs s) inputs, m.input = k ∧
          m.status = .choice ∧ ∃ t, targetOf u (projectsNamed u inputs s) k = some t ∧
            m.target = some t := by
      intro k hk hpk hkept
      obtain ⟨m, hm, hmk⟩ := hrow k hk
      have hconflicts : (rowPreview rowErrors lossyProjectIds m).conflicts = [] := by
        by_contra hsome
        obtain ⟨item, hitem⟩ := List.exists_mem_of_ne_nil _ hsome
        apply hkept
        left
        refine List.mem_map.mpr ⟨item, (mem_conflicts _ _).mpr ⟨m, hm, hitem⟩, ?_⟩
        rw [rowPreview_conflicts hitem, hmk]
      rcases rowPreview_kept hconflicts with hnew | hstatus
      · rw [← hmk] at hpk
        exact absurd hpk (hfresh m hm hnew id)
      · obtain ⟨t, ht⟩ := Option.isSome_iff_exists.mp (hmatching.choices m hm hstatus)
        refine ⟨m, hm, hmk, hstatus, t, ?_, ht⟩
        rw [← hmk, ← hmatching.targets m hm]
        exact ht
    obtain ⟨a, ha, hai, hachoice, t, ht, hat⟩ := hchoice i hi hpi hnot.1
    obtain ⟨b, hb, hbj, hbchoice, t', ht', hbt⟩ := hchoice j hj hpj hnot.2
    have hid := targets_agree hpi hpj ht ht'
    have hcount : (((matchInputs u (projectsNamed u inputs s) inputs).filter
        fun m => m.status == .choice).filterMap fun m => m.target.map (·.1)).count t.1 ≤ 1 :=
      List.nodup_iff_count_le_one.mp hmatching.once t.1
    have hab : a = b := by
      refine (count_filterMap_le_one (hnodup.filter _) (fun m => m.target.map (·.1)) t.1).mp
        hcount a ?_ b ?_ ?_ ?_
      · exact List.mem_filter.mpr ⟨ha, beq_iff_eq.mpr hachoice⟩
      · exact List.mem_filter.mpr ⟨hb, beq_iff_eq.mpr hbchoice⟩
      · rw [hat]
        rfl
      · rw [hbt, hid]
        rfl
    apply hne
    rw [← hai, ← hbj, hab]
  · intro rowNumber hrefused
    have hfound : ∃ m ∈ matchInputs u (projectsNamed u inputs s) inputs,
        m.input.rowNumber = rowNumber ∧ ((rowPreview rowErrors lossyProjectIds m).conflicts ≠ [] ∨
          (rowPreview rowErrors lossyProjectIds m).errors ≠ []) := by
      rcases hrefused with hin | hin
      · obtain ⟨item, hitem, hnumber⟩ := List.mem_map.mp hin
        obtain ⟨m, hm, hitem⟩ := mem_conflicts _ _ |>.mp hitem
        exact ⟨m, hm, (rowPreview_conflicts hitem).symm.trans hnumber,
          .inl (List.ne_nil_of_mem hitem)⟩
      · obtain ⟨item, hitem, hnumber⟩ := List.mem_map.mp hin
        obtain ⟨m, hm, hitem⟩ := mem_errors _ _ |>.mp hitem
        exact ⟨m, hm, (rowPreview_errors hitem).symm.trans hnumber,
          .inr (List.ne_nil_of_mem hitem)⟩
    obtain ⟨m, hm, hnumber, hsome⟩ := hfound
    obtain ⟨hcreated, hpending⟩ := rowPreview_refused hsome
    constructor
    · intro hin
      obtain ⟨item, hitem, hitemNumber⟩ := List.mem_map.mp hin
      obtain ⟨m', hm', hitem⟩ := mem_created _ _ |>.mp hitem
      have heq := hsame m' hm' m hm
        ((rowPreview_created hitem).2.symm.trans (hitemNumber.trans hnumber.symm))
      rw [heq, hcreated] at hitem
      cases hitem
    · intro hin
      obtain ⟨item, hitem, hitemNumber⟩ := List.mem_map.mp hin
      obtain ⟨m', hm', hitem⟩ := mem_pendingChoice _ _ |>.mp hitem
      have heq := hsame m' hm' m hm
        ((rowPreview_pendingChoice hitem).2.2.symm.trans (hitemNumber.trans hnumber.symm))
      rw [heq, hpending] at hitem
      cases hitem

end Stored

/-! ## The match step -/

open ImportRows (inputsOf buildRowInputs_rowNumbers)

def previewOf (env : ImportEnvironment) (s : FinStore) (file : ParsedFile) :
    ImportPreviewResult :=
  let inputs := inputsOf env s.financeDictItems file
  if inputs.isEmpty then previewErrors file.errors
  else
    let matched := matchInputs env.unicode (projectsNamed env.unicode inputs s) inputs
    let ids := choiceTargets matched
    buildPreview matched file.errors
      (lossyOf s .invoice ids ++ lossyOf s .receipt ids ++ lossyOf s .subcontractPayment ids)

variable (env : ImportEnvironment)

theorem run_matchRows (file : ParsedFile) (n : Nat) (s : FinStore) :
    (matchRows env file).run n s = .ok (previewOf env s file, n, s) := by
  unfold matchRows previewOf buildRowInputsWithGroups
  rw [Txn.run_bind, Txn.run_bind, Txn.run_query]
  show Txn.run (if (inputsOf env s.financeDictItems file).isEmpty = true then _ else _) n s = _
  dsimp only
  by_cases hempty : (inputsOf env s.financeDictItems file).isEmpty = true
  · rw [if_pos hempty, if_pos hempty]
    rfl
  · rw [if_neg hempty, if_neg hempty]
    rfl

theorem inputs_nodup (items : Table FinanceDictItem) (file : ParsedFile) :
    ((inputsOf env items file).map (·.rowNumber)).Nodup :=
  file.nodup.sublist (buildRowInputs_rowNumbers env.unicode env.number
    (validGroupsOf env.unicode items) none file.rows)

theorem matchedOnce_previewOf (s : FinStore) (file : ParsedFile) :
    MatchedOnce env.unicode s (inputsOf env s.financeDictItems file) (previewOf env s file) := by
  unfold previewOf
  dsimp only
  split
  · rename_i hempty
    rw [List.isEmpty_iff] at hempty
    rw [hempty]
    constructor
    · exact List.nodup_nil
    · intro item hitem
      cases hitem
    · intro item hitem
      cases hitem
    · intro i hi
      cases hi
    · intro rowNumber _
      exact ⟨List.not_mem_nil, List.not_mem_nil⟩
  · exact matchedOnce_buildPreview (inputs_nodup env s.financeDictItems file)

/-! ## Plans -/

open ImportService

/-- What is carried out of a preview. -/
structure PlannedOnce (u : Unicode) (s : FinStore) (inputs : List ProjectRowInput)
    (plan : ImportPlan) : Prop where
  once : (plan.toOverwrite.map (·.targetId)).Nodup
  rule : ∀ item ∈ plan.toOverwrite, item.input ∈ inputs ∧ Points u s item.input item.targetId
  fresh : ∀ input ∈ plan.toCreate, input ∈ inputs ∧ ∀ id, ¬ Points u s input id

section Plan

variable {preview : ImportPreviewResult} {choices : List ImportChoiceDto}

structure RowPlan (preview : ImportPreviewResult) (input : ProjectRowInput)
    (toCreate : List ProjectRowInput) (toOverwrite : List OverwriteItem) : Prop where
  created : ∀ other ∈ toCreate, other = input ∧ isCreatedRow preview input.rowNumber = true
  inputs : (toOverwrite.map (·.input)).Sublist [input]
  targets : ∀ item ∈ toOverwrite, ∃ pending, pendingFor preview item.input.rowNumber = some pending ∧
    item.targetId = pending.projectId

theorem rowPlan_nil (input : ProjectRowInput) : RowPlan preview input [] [] where
  created _ h := by cases h
  inputs := List.nil_sublist _
  targets _ h := by cases h

variable {pending : PendingChoiceItem}

theorem overwriteOf_pending {choice : ImportChoiceDto} {item : OverwriteItem}
    (h : overwriteOf input pending choice = .ok item) :
    item.input = input ∧ item.targetId = pending.projectId := by
  unfold overwriteOf at h
  split at h
  · rename_i projectId dataRevision _ _
    split_ifs at h with hproject _
    cases h
    exact ⟨rfl, not_not.mp hproject⟩
  · cases h

theorem planRow_rowPlan {plan plan' : ImportPlan}
    (h : planRow preview choices plan input = .ok plan') :
    ∃ toCreate toOverwrite, plan'.toCreate = plan.toCreate ++ toCreate ∧
      plan'.toOverwrite = plan.toOverwrite ++ toOverwrite ∧
      RowPlan preview input toCreate toOverwrite := by
  have hsame : ∀ {skipped : Nat}, ImportPlan.mk plan.toCreate plan.toOverwrite skipped = plan' →
      ∃ toCreate toOverwrite, plan'.toCreate = plan.toCreate ++ toCreate ∧
        plan'.toOverwrite = plan.toOverwrite ++ toOverwrite ∧
        RowPlan preview input toCreate toOverwrite := by
    intro skipped heq
    rw [← heq]
    exact ⟨[], [], (List.append_nil _).symm, (List.append_nil _).symm, rowPlan_nil input⟩
  unfold planRow at h
  dsimp only at h
  split at h
  · rename_i hcreated
    split at h
    · cases h
    · exact hsame (Except.ok.inj h)
    · cases h
      refine ⟨[input], [], rfl, (List.append_nil _).symm, ?_, List.nil_sublist _, ?_⟩
      · intro other hother
        exact ⟨List.mem_singleton.mp hother, hcreated⟩
      · intro item hitem
        cases hitem
  · split at h
    · exact hsame (Except.ok.inj h)
    · rename_i pending hpending
      split at h
      · exact hsame (Except.ok.inj h)
      · rename_i choice hchoice
        split at h
        · exact hsame (Except.ok.inj h)
        · cases hitem : overwriteOf input pending choice with
          | error e =>
              rw [hitem] at h
              cases h
          | ok item =>
              rw [hitem] at h
              cases h
              obtain ⟨hinput, htarget⟩ := overwriteOf_pending hitem
              refine ⟨[], [item], (List.append_nil _).symm, rfl, ?_, ?_, ?_⟩
              · intro other hother
                cases hother
              · rw [List.map_singleton, hinput]
              · intro other hother
                obtain rfl := List.mem_singleton.mp hother
                exact ⟨pending, by rw [hinput]; exact hpending, htarget⟩

theorem planRows_rowPlan {inputs : List ProjectRowInput} {plan plan' : ImportPlan}
    (h : inputs.foldlM (planRow preview choices) plan = .ok plan') :
    ∃ toCreate toOverwrite, plan'.toCreate = plan.toCreate ++ toCreate ∧
      plan'.toOverwrite = plan.toOverwrite ++ toOverwrite ∧
      (∀ input ∈ toCreate, input ∈ inputs ∧ isCreatedRow preview input.rowNumber = true) ∧
      (toOverwrite.map (·.input)).Sublist inputs ∧
      ∀ item ∈ toOverwrite, ∃ pending, pendingFor preview item.input.rowNumber = some pending ∧
        item.targetId = pending.projectId := by
  induction inputs generalizing plan with
  | nil =>
      cases h
      refine ⟨[], [], (List.append_nil _).symm, (List.append_nil _).symm, ?_, List.nil_sublist _, ?_⟩
      · intro input hinput
        cases hinput
      · intro item hitem
        cases hitem
  | cons input inputs ih =>
      rw [List.foldlM_cons] at h
      cases hrow : planRow preview choices plan input with
      | error e =>
          rw [hrow] at h
          cases h
      | ok next =>
          rw [hrow] at h
          obtain ⟨created, overwritten, hcreate, hoverwrite, hplan⟩ := planRow_rowPlan hrow
          obtain ⟨more, moreOverwritten, hmore, hmoreOverwritten, hcreated, hsub, htargets⟩ := ih h
          refine ⟨created ++ more, overwritten ++ moreOverwritten, ?_, ?_, ?_, ?_, ?_⟩
          · rw [hmore, hcreate, List.append_assoc]
          · rw [hmoreOverwritten, hoverwrite, List.append_assoc]
          · intro other hother
            rcases List.mem_append.mp hother with hother | hother
            · obtain ⟨heq, hrowCreated⟩ := hplan.created other hother
              rw [heq]
              exact ⟨List.mem_cons_self, hrowCreated⟩
            · exact ⟨List.mem_cons_of_mem _ (hcreated other hother).1, (hcreated other hother).2⟩
          · rw [List.map_append, ← List.singleton_append]
            exact hplan.inputs.append hsub
          · intro item hitem
            rcases List.mem_append.mp hitem with hitem | hitem
            · exact hplan.targets item hitem
            · exact htargets item hitem

theorem pendingFor_mem {rowNumber : Nat} (h : pendingFor preview rowNumber = some pending) :
    pending ∈ preview.pendingChoice ∧ pending.rowNumber = rowNumber := by
  unfold pendingFor at h
  have hnumber := List.find?_some h
  exact ⟨List.mem_reverse.mp (List.mem_of_find?_eq_some h), beq_iff_eq.mp hnumber⟩

theorem plannedOnce {u : Unicode} {s : FinStore} (hrows : (inputs.map (·.rowNumber)).Nodup)
    (hmatched : MatchedOnce u s inputs preview) {plan : ImportPlan}
    (h : planRows preview choices inputs = .ok plan) : PlannedOnce u s inputs plan := by
  obtain ⟨toCreate, toOverwrite, hcreate, hoverwrite, hcreated, hsub, htargets⟩ :=
    planRows_rowPlan h
  rw [List.nil_append] at hcreate hoverwrite
  have hitems : (toOverwrite.map fun item => item.input.rowNumber).Nodup := by
    have hmap := hrows.sublist (hsub.map (·.rowNumber))
    rw [List.map_map] at hmap
    exact hmap
  constructor
  · rw [hoverwrite]
    refine List.Nodup.map_on ?_ (List.Nodup.of_map _ hitems)
    intro a ha b hb hsame
    obtain ⟨pending, hpending, htarget⟩ := htargets a ha
    obtain ⟨pending', hpending', htarget'⟩ := htargets b hb
    obtain ⟨hmem, hnumber⟩ := pendingFor_mem hpending
    obtain ⟨hmem', hnumber'⟩ := pendingFor_mem hpending'
    have heq : pending = pending' := List.inj_on_of_nodup_map hmatched.once hmem hmem'
      (htarget.symm.trans (hsame.trans htarget'))
    apply List.inj_on_of_nodup_map hitems ha hb
    rw [← hnumber, ← hnumber', heq]
  · intro item hitem
    rw [hoverwrite] at hitem
    have hinput : item.input ∈ inputs := hsub.subset (List.mem_map_of_mem hitem)
    obtain ⟨pending, hpending, htarget⟩ := htargets item hitem
    obtain ⟨hmem, hnumber⟩ := pendingFor_mem hpending
    obtain ⟨input, hmemInput, hinputNumber, hpoints, -⟩ := hmatched.rule pending hmem
    have heq : input = item.input :=
      List.inj_on_of_nodup_map hrows hmemInput hinput (hinputNumber.trans hnumber)
    refine ⟨hinput, ?_⟩
    rw [htarget, ← heq]
    exact hpoints
  · intro input hinput
    rw [hcreate] at hinput
    obtain ⟨hmem, hisCreated⟩ := hcreated input hinput
    obtain ⟨item, hitem, hnumber⟩ := List.any_eq_true.mp hisCreated
    obtain ⟨other, hother, hotherNumber, hnone⟩ := hmatched.fresh item hitem
    have heq : other = input := List.inj_on_of_nodup_map hrows hother hmem
      (hotherNumber.trans (beq_iff_eq.mp hnumber))
    exact ⟨hmem, heq ▸ hnone⟩

end Plan

section Kept

def Kept (id : Nat) (p : Project) (n : Nat) (s : FinStore) : Prop :=
  s.projects.Below n ∧ s.projects.find? id = some p

variable {id : Nat} {p : Project}

theorem Kept.congr {n m : Nat} {s s' : FinStore} (h : Kept id p n s) (hle : n ≤ m)
    (hprojects : s'.projects = s.projects) : Kept id p m s' := by
  unfold Kept
  rw [hprojects]
  exact ⟨h.1.mono hle, h.2⟩

theorem kept_createProject (row : Project) (e : Failure) :
    (createProject row e).Preserves (Kept id p) := by
  apply Txn.preserves_create
  intro n s _ h
  refine ⟨h.1.insert_succ row, ?_⟩
  show (s.projects.insert n row).find? id = some p
  rw [Table.find?_insert_ne _ _ (Nat.ne_of_lt (h.1 id p h.2))]
  exact h.2

theorem kept_createBatches (env : ConfirmEnvironment) (batches : List (Nat × List ProjectData)) :
    (createBatches env batches).Preserves (Kept id p) := by
  induction batches with
  | nil => exact Txn.preserves_pure []
  | cons batch batches ih =>
      unfold createBatches
      refine Txn.Preserves.bind ?_ fun ids => (Txn.preserves_liftExcept _).bind fun _ =>
        ih.bind fun more => Txn.preserves_pure _
      intro n s h
      exact Txn.wp_mapM (fun _ _ n s => Kept id p n s)
        (fun data _ _ n s h => kept_createProject _ _ n s h) h

theorem kept_createAll (env : ConfirmEnvironment) (items : Table FinanceDictItem)
    (toCreate : List ProjectRowInput) : (createAll env items toCreate).Preserves (Kept id p) := by
  unfold createAll
  split
  · exact Txn.preserves_pure []
  · exact (Txn.preserves_liftExcept _).bind fun _ => (Txn.preserves_query _).bind fun clashes =>
      (Txn.preserves_guard _ _).bind fun _ => (Txn.preserves_liftExcept _).bind fun _ =>
        (Txn.preserves_liftExcept _).bind fun data => kept_createBatches env _

theorem kept_updateProjectAt {targetId : Nat} (hne : targetId ≠ id) (dataRevision : Nat)
    (f : Project → Project) : (updateProjectAt targetId dataRevision f).Preserves (Kept id p) := by
  apply Txn.preserves_act
  intro n s a c hok h
  split at hok
  · cases hok
    exact h
  · split at hok
    · cases hok
    · cases hok
      refine ⟨h.1.alter _, ?_⟩
      show (s.projects.update targetId f).find? id = some p
      rw [Table.find?_update_ne _ _ (Ne.symm hne)]
      exact h.2

variable {env : ConfirmEnvironment}

variable {operator : OperationLogOperator} {items : Table FinanceDictItem}

theorem kept_overwriteOne {rows : Table Project} {item : Nat × OverwriteItem}
    (hne : item.2.targetId ≠ id) : (overwriteOne env items rows item).Preserves (Kept id p) :=
  (Txn.preserves_liftExcept _).bind fun _ => (Txn.preserves_liftExcept _).bind fun _ =>
    (kept_updateProjectAt hne _ _).bind fun _ => Txn.preserves_guard _ _

theorem kept_createDetails (kind : DetailKind) (rows : List (Nat × DetailItem)) :
    (createDetails kind rows).Preserves (Kept id p) := by
  apply Txn.preserves_forM
  intro row
  refine Txn.Preserves.bind (Txn.preserves_create ?_) fun _ => Txn.preserves_pure _
  intro n s _ h
  exact h.congr (Nat.le_succ n) (FinStore.projects_withDetails _ _ _)

theorem kept_deleteDetailsOf (kind : DetailKind) (ids : List Nat) :
    (deleteDetailsOf kind ids).Preserves (Kept id p) := by
  apply Txn.preserves_exec
  intro n s h
  exact h.congr (Nat.le_refl n) (FinStore.projects_withDetails _ _ _)

theorem readOnly_batchSnapshotDetails (ids : List Nat) : (batchSnapshotDetails ids).ReadOnly :=
  (Txn.readOnly_query _).bind fun _ => (Txn.readOnly_query _).bind fun _ =>
    (Txn.readOnly_query _).bind fun _ => Txn.readOnly_pure _

theorem kept_overwriteAll {toOverwrite : List OverwriteItem}
    (hne : ∀ item ∈ toOverwrite, item.targetId ≠ id) :
    (overwriteAll env items toOverwrite).Preserves (Kept id p) := by
  unfold overwriteAll
  split
  · exact Txn.preserves_pure []
  · refine (Txn.preserves_liftExcept _).bind fun _ => (Txn.preserves_query _).bind fun rows =>
      (Txn.preserves_liftExcept _).bind fun _ =>
        (readOnly_batchSnapshotDetails _).preserves.bind fun before => Txn.Preserves.bind ?_
          fun _ => (Txn.preserves_liftExcept _).bind fun _ => (kept_deleteDetailsOf _ _).bind
            fun _ => (kept_deleteDetailsOf _ _).bind fun _ => (kept_deleteDetailsOf _ _).bind
              fun _ => Txn.Preserves.bind ?_ fun _ =>
                (readOnly_batchSnapshotDetails _).preserves.bind fun after => Txn.preserves_pure _
    · intro n s h
      refine Txn.wp_forM (fun rest n s => (∀ item ∈ rest, item.2.targetId ≠ id) ∧ Kept id p n s)
        ?_ ⟨?_, h⟩ |> fun hw => Txn.wp_mono hw fun _ _ _ h => h.2
      · intro item rest n s h
        refine Txn.wp_mono (kept_overwriteOne (h.1 item List.mem_cons_self) n s h.2) ?_
        intro _ n s hkept
        exact ⟨fun other hother => h.1 other (List.mem_cons_of_mem _ hother), hkept⟩
      · intro item hitem
        obtain ⟨other, hother, heq⟩ := List.mem_map.mp hitem
        rw [← heq]
        exact hne _ (List.fst_mem_of_mem_zipIdx hother)
    · exact (Txn.preserves_liftExcept _).bind fun _ => (Txn.preserves_liftExcept _).bind fun _ =>
        (Txn.preserves_liftExcept _).bind fun _ => (kept_createDetails _ _).bind fun _ =>
          (kept_createDetails _ _).bind fun _ => kept_createDetails _ _

theorem kept_writeProjectOperation (operation : ProjectOperation) :
    (writeProjectOperation operation).Preserves (Kept id p) := by
  refine Txn.Preserves.bind (Txn.preserves_create ?_) fun _ => Txn.preserves_pure _
  intro n s _ h
  exact h.congr (Nat.le_succ n) rfl

theorem kept_confirmRun {preview : ImportPreviewResult} {choices : List ImportChoiceDto}
    (hplan : ∀ plan, planRows preview choices inputs = .ok plan →
      ∀ item ∈ plan.toOverwrite, item.targetId ≠ id) :
    (confirmRun env operator inputs preview choices).Preserves (Kept id p) := by
  unfold confirmRun
  refine Txn.Preserves.bind ?_ fun result => (Txn.preserves_liftExcept _).bind fun _ =>
    (Txn.preserves_liftExcept _).bind fun _ => Txn.preserves_pure _
  unfold applyImport
  split
  · exact Txn.preserves_pure _
  · refine (Txn.preserves_liftExcept _).bind fun _ => (Txn.preserves_query _).bind fun items => ?_
    cases hrows : planRows preview choices inputs with
    | error e => exact Txn.preserves_throw e
    | ok plan =>
        exact (kept_createAll env items _).bind fun createdIds =>
          (kept_overwriteAll (hplan plan hrows)).bind fun overwritten =>
            (Txn.preserves_liftExcept _).bind fun _ =>
              (Txn.preserves_forM kept_writeProjectOperation).bind fun _ =>
                (Txn.preserves_liftExcept _).bind fun _ => Txn.preserves_pure _

theorem kept_confirm {file : ParsedFile} {dto : ImportConfirmDto} {fingerprint : String}
    {n n' : Nat} {s s' : FinStore} {reply : FinReply} (hbelow : s.projects.Below n)
    (hstored : s.projects.find? id = some p)
    (hnone : ∀ input ∈ inputsOf env.toImportEnvironment s.financeDictItems file,
      ¬ Points env.unicode s input id)
    (h : (confirm env operator file dto fingerprint).exec n s = .ok (reply, n', s')) :
    s'.projects.find? id = some p := by
  have hrecover := readOnly_replayAfterConflict finLog
    (options operator dto.idempotencyKey fingerprint)
  rcases Call.exec_ok_cases hrecover h with hmain | hsame
  · have hsafe : (confirm env operator file dto fingerprint).main.safe
        (fun _ n s => Kept id p n s) n s := by
      refine Txn.safe_bind (Txn.readOnly_liftExcept (env.checkTimeout .parsed) n s) ?_
      intro _ n₁ s₁ hsame
      obtain ⟨rfl, rfl⟩ := hsame
      refine Txn.safe_bind (R := fun preview n s => preview = previewOf env.toImportEnvironment s₁ file ∧
        n = n₁ ∧ s = s₁) ?_ ?_
      · rw [Txn.safe, Txn.wp_iff_run, run_matchRows]
        exact ⟨rfl, rfl, rfl⟩
      · intro preview n₂ s₂ hsame
        obtain ⟨rfl, rfl, rfl⟩ := hsame
        refine Txn.safe_bind (Txn.readOnly_liftExcept (env.checkTimeout .matched) _ _) ?_
        intro _ n₃ s₃ hsame
        obtain ⟨rfl, rfl⟩ := hsame
        refine Txn.safe_bind (R := fun inputs n s =>
          inputs = inputsOf env.toImportEnvironment s₃.financeDictItems file ∧ n = n₃ ∧ s = s₃) ?_ ?_
        · exact ⟨rfl, rfl, rfl⟩
        · intro inputs n₄ s₄ hsame
          obtain ⟨rfl, rfl, rfl⟩ := hsame
          refine Txn.safe_bind (Txn.readOnly_liftExcept (env.checkTimeout .grouped) _ _) ?_
          intro _ n₅ s₅ hsame
          obtain ⟨rfl, rfl⟩ := hsame
          refine preserves_executeIdempotentOperation finLog
            (fun n s row hkept => Kept.congr hkept (Nat.le_succ n) rfl) _
            (kept_confirmRun ?_) _ _ ⟨hbelow, hstored⟩
          intro plan hplan item hitem heq
          have hplanned := plannedOnce (inputs_nodup _ _ _) (matchedOnce_previewOf _ _ _) hplan
          obtain ⟨hinput, hpoints⟩ := hplanned.rule item hitem
          exact hnone item.input hinput (heq ▸ hpoints)
    exact (Txn.wp_of_run_ok hsafe hmain).2
  · rw [hsame.2]
    exact hstored

end Kept

/-- The match step offers each stored project for one row at most, under the rule of the row,
and refuses the other rows for it; and what is confirmed of it writes over no project that a row
is not for. -/
theorem rows_matched_once (env : ConfirmEnvironment) (file : ParsedFile) (n : Nat) (s : FinStore) :
    ∃ preview, (matchRows env.toImportEnvironment file).run n s = .ok (preview, n, s) ∧
      MatchedOnce env.unicode s
        (inputsOf env.toImportEnvironment s.financeDictItems file) preview ∧
      (∀ choices plan, planRows preview choices
          (inputsOf env.toImportEnvironment s.financeDictItems file) = .ok plan →
        PlannedOnce env.unicode s
          (inputsOf env.toImportEnvironment s.financeDictItems file) plan) ∧
      (s.projects.Below n → ∀ operator dto fingerprint reply n' s',
        (confirm env operator file dto fingerprint).exec n s = .ok (reply, n', s') →
          ∀ id p, s.projects.find? id = some p →
            (∀ input ∈ inputsOf env.toImportEnvironment s.financeDictItems file,
              ¬ Points env.unicode s input id) →
            s'.projects.find? id = some p) := by
  have hmatched := matchedOnce_previewOf env.toImportEnvironment s file
  refine ⟨previewOf env.toImportEnvironment s file, run_matchRows _ file n s, hmatched, ?_, ?_⟩
  · intro choices plan hplan
    exact plannedOnce (inputs_nodup _ _ _) hmatched hplan
  · intro hbelow operator dto fingerprint reply n' s' hok id p hstored hnone
    exact kept_confirm hbelow hstored hnone hok

end ImportMatching

end Wbme.Fin
