import Wbme.Lib.Txn
import Wbme.TableQuery.Deviations

/-!
# Filter requests

Requests that are accepted, and when the two interpretations agree on them.
-/

namespace Wbme.TableQuery

open Lib

/-! ## Accepted trees -/

theorem ofName_name_ofName (name : String) :
    TableOperator.ofName (TableOperator.ofName name).name = TableOperator.ofName name := by
  cases h : knownOperators.find? (fun operator => operator.name == name) with
  | none =>
      have hname : TableOperator.ofName name = .unknown name := by simp [TableOperator.ofName, h]
      rw [hname]
      exact hname
  | some operator =>
      have hname : operator.name = name := by simpa using List.find?_some h
      simp [TableOperator.ofName, h, hname]

def Named (c : TableFilterCondition) : Prop := TableOperator.ofName c.operator.name = c.operator

theorem asCondition_named {value : Json} {c : TableFilterCondition}
    (h : asCondition value = .ok c) : Named c := by
  unfold asCondition at h
  split at h
  · split at h
    · cases h
      exact ofName_name_ofName _
    · cases h
  · cases h

theorem leavesList_forall {P : TableFilterCondition → Prop} {nodes : List TableFilterTreeNode}
    (h : ∀ node ∈ nodes, ∀ c ∈ node.leaves, P c) : ∀ c ∈ leavesList nodes, P c := by
  induction nodes with
  | nil => simp [leavesList]
  | cons node nodes ih =>
      intro c hc
      rcases List.mem_append.mp hc with hc | hc
      · exact h node List.mem_cons_self c hc
      · exact ih (fun n hn => h n (List.mem_cons_of_mem node hn)) c hc

theorem map_condition_named {value : Json} {node : TableFilterTreeNode}
    (h : (asCondition value).map TableFilterTreeNode.condition = .ok node) :
    ∀ c ∈ node.leaves, Named c := by
  cases hc : asCondition value with
  | error e => rw [hc] at h; cases h
  | ok c =>
      rw [hc] at h
      cases h
      intro c' hc'
      rw [List.mem_singleton.mp hc']
      exact asCondition_named hc

theorem map_group_named {logic : Logic} {f : Json → Except Failure TableFilterTreeNode}
    (hf : ∀ x node, f x = .ok node → ∀ c ∈ node.leaves, Named c) {values : List Json}
    {node : TableFilterTreeNode}
    (h : (values.mapM f).map (TableFilterTreeNode.group logic) = .ok node) :
    ∀ c ∈ node.leaves, Named c := by
  cases hm : values.mapM f with
  | error e => rw [hm] at h; cases h
  | ok nodes =>
      rw [hm] at h
      cases h
      refine leavesList_forall fun node hnode => ?_
      obtain ⟨x, -, hx⟩ := mem_mapM hm hnode
      exact hf x node hx

theorem asLeaf_named {value : Json} {node : TableFilterTreeNode} (h : asLeaf value = .ok node) :
    ∀ c ∈ node.leaves, Named c := by
  unfold asLeaf at h
  split at h
  · cases h
  · exact map_condition_named h

theorem asTreeNode_named {value : Json} {node : TableFilterTreeNode}
    (h : asTreeNode value = .ok node) : ∀ c ∈ node.leaves, Named c := by
  unfold asTreeNode at h
  split at h
  · exact map_group_named (fun _ _ => asLeaf_named) h
  · exact map_condition_named h

theorem asLegacyGroup_named {value : Json} {node : TableFilterTreeNode}
    (h : asLegacyGroup value = .ok node) : ∀ c ∈ node.leaves, Named c := by
  unfold asLegacyGroup at h
  split at h
  · split at h
    · exact map_group_named (fun _ _ => map_condition_named) h
    · cases h
  · cases h

theorem normalize_named {raw : Option Json} {tree : TableFilterTreeNode}
    (h : normalizeTableFilters raw = .ok tree) : ∀ c ∈ tree.leaves, Named c := by
  unfold normalizeTableFilters at h
  split at h
  · split at h
    · exact map_group_named (fun _ _ => asTreeNode_named) h
    · split at h
      · exact map_group_named (fun _ _ => asLegacyGroup_named) h
      · cases h
  · cases h

def singleFilter (c : TableFilterCondition) : Json :=
  .obj [("logic", .str "AND"), ("conditions", .arr [.obj ([("field", .str c.field),
    ("operator", .str c.operator.name), ("value", .str c.value)] ++
      match c.valueEnd with
      | some valueEnd => [("valueEnd", .str valueEnd)]
      | none => [])])]

theorem normalize_singleFilter {c : TableFilterCondition} (h : Named c) :
    normalizeTableFilters (some (singleFilter c)) = .ok (.group .and [.condition c]) := by
  obtain ⟨field, operator, value, valueEnd⟩ := c
  have hop : TableOperator.ofName operator.name = operator := h
  cases valueEnd <;>
    simp [normalizeTableFilters, singleFilter, Json.field?, asTreeNode, conditionsOf, asCondition,
      logicOf, hop, pure, Except.pure, bind, Except.bind, Except.map]

section Whole

variable {folding : CaseFolding} {now : Int} {parameterOffset : Nat}
  {fields : String → Option TableSqlField} {row : Row} {raw : Option Json}
  {tree : TableFilterTreeNode}

theorem sqlOutcome_of_tree (h : normalizeTableFilters raw = .ok tree) :
    sqlOutcome folding now parameterOffset fields (some raw) row =
      match compileNode now parameterOffset fields tree [] with
      | .error _ => .refused
      | .ok (p, params) => outcomeOf (p.eval ⟨folding, parameterOffset, params⟩ row) := by
  unfold sqlOutcome buildTableSqlQuery parseFilters
  simp only [h, Except.map, bind, Except.bind, StateT.run]
  cases compileNode now parameterOffset fields tree [] with
  | error e => rfl
  | ok r =>
      obtain ⟨p, params⟩ := r
      simp only [pure, Except.pure, TableSqlQuery.outcome]
      cases p.eval ⟨folding, parameterOffset, params⟩ row with
      | error e => rfl
      | ok b => rcases b with _ | (_ | _) <;> rfl

theorem sqlOutcome_of_computes {o : Outcome} (h : normalizeTableFilters raw = .ok tree)
    (hc : Computes folding parameterOffset row (compileNode now parameterOffset fields tree) o) :
    sqlOutcome folding now parameterOffset fields (some raw) row = o := by
  rw [sqlOutcome_of_tree h]
  have hps := hc []
  cases hm : compileNode now parameterOffset fields tree [] with
  | error e => rw [hm] at hps; exact hps.symm
  | ok r =>
      rw [hm] at hps
      obtain ⟨-, -, heval⟩ := hps
      simpa using heval []

theorem memoryOutcome_of_tree {memory : String → Option TableInMemoryField}
    (h : normalizeTableFilters raw = .ok tree) :
    memoryOutcome folding now memory (some raw) row =
      tree.outcomeWith (memoryLeaf folding now memory row) emptyInMemory := by
  rw [← memory_node]
  unfold memoryOutcome filterTableRows parseFilters
  simp only [h, Except.map, bind, Except.bind, List.filterM, List.filterAuxM]
  cases matchesNode folding now memory row tree with
  | error e => rfl
  | ok b => cases b <;> rfl

/-- A filter without empty groups whose conditions are faithful means the same on both
sides. -/
theorem outcome_eq_of_faithful (hraw : normalizeTableFilters raw = .ok tree)
    (hgroups : tree.noEmptyGroup = true) (hrow : WellTyped fields row)
    (h : ∀ c ∈ tree.leaves, isFaithful fields row c = true) :
    sqlOutcome folding now parameterOffset fields (some raw) row =
      memoryOutcome folding now (inMemory fields) (some raw) row := by
  have hcomputes := computes_node tree fun c hc =>
    @computes_condition folding now parameterOffset fields row c hrow (h c hc)
  rw [sqlOutcome_of_computes hraw hcomputes, memoryOutcome_of_tree hraw]
  exact outcomeWith_congr tree hgroups

/-- A condition that is not faithful, requested alone, differs on some row with the same
columns `NULL`. -/
theorem exists_outcome_ne {c : TableFilterCondition} (hc : Named c) (hrow : WellTyped fields row)
    (h : isFaithful fields row c = false) :
    ∃ row', Alike fields row row' ∧
      sqlOutcome folding now parameterOffset fields (some (some (singleFilter c))) row' ≠
        memoryOutcome folding now (inMemory fields) (some (some (singleFilter c))) row' := by
  obtain ⟨row', halike, hne⟩ := @exists_leaf_ne folding now parameterOffset _ _ _ hrow h
  refine ⟨row', halike, ?_⟩
  have hraw := normalize_singleFilter hc
  rw [sqlOutcome_of_tree hraw, memoryOutcome_of_tree hraw]
  have hcompile : compileNode now parameterOffset fields (.group .and [.condition c]) =
      compileSqlCondition now parameterOffset fields c :=
    compileGroup_singleton .and (.condition c)
  rw [hcompile]
  exact hne

theorem sqlOutcome_of_emptyGroup (hraw : normalizeTableFilters raw = .ok tree)
    (hgroups : tree.noEmptyGroup = false) :
    sqlOutcome folding now parameterOffset fields (some raw) row = .refused := by
  rw [sqlOutcome_of_tree hraw]
  have hrefuses := @refuses_node now parameterOffset fields tree hgroups []
  cases hm : compileNode now parameterOffset fields tree [] with
  | error e => rfl
  | ok r =>
      rw [hm] at hrefuses
      exact hrefuses _ row

end Whole

theorem toLower_of_wild {c : Char} (h : LikeToken.isWild c = true) : c.toLower = c := by
  have hc : (c = '%' ∨ c = '_') ∨ c = '\\' := by simpa [LikeToken.isWild] using h
  rcases hc with (rfl | rfl) | rfl <;> rfl

theorem wild_of_toLower {c : Char} (h : LikeToken.isWild c.toLower = true) :
    LikeToken.isWild c = true := by
  by_cases hupper : c.val ≥ 'A'.val ∧ c.val ≤ 'Z'.val
  · have hc : (c.toLower = '%' ∨ c.toLower = '_') ∨ c.toLower = '\\' := by
      simpa [LikeToken.isWild] using h
    have hupper' : 65 ≤ c.val.toNat ∧ c.val.toNat ≤ 90 := hupper
    have hval : c.toLower.val.toNat = c.val.toNat + 32 := by
      delta Char.toLower
      rw [dif_pos hupper]
      show (c.val.toNat + 32) % 2 ^ 32 = _
      omega
    rcases hc with (hc | hc) | hc <;>
      · rw [hc] at hval
        have hsmall : c.val.toNat + 32 < 97 := hval ▸ by decide
        omega
  · delta Char.toLower at h
    rwa [dif_neg hupper] at h

def asciiFolding : CaseFolding where
  lower := Char.toLower
  lower_lower c := by
    delta Char.toLower
    grind
  lower_of_wild _ := toLower_of_wild
  wild_of_lower _ := wild_of_toLower
  lower_x := by decide

def nameFields : String → Option TableSqlField
  | "name" => some ⟨"name", .text⟩
  | _ => none

/-- A row without a name. -/
def unnamedRow : Row := fun _ => none

def nameIsNot : Json :=
  .obj [("logic", .str "AND"), ("conditions", .arr [.obj [("field", .str "name"),
    ("operator", .str "NOT_EQUALS"), ("value", .str "a")]])]

def namedRow : Row
  | "name" => some (.text "b")
  | _ => none

theorem namedRow_wellTyped : WellTyped nameFields namedRow := by
  intro name d hd v hv
  unfold nameFields at hd
  split at hd
  · cases hd
    cases hv
    rfl
  · cases hd

end Wbme.TableQuery
