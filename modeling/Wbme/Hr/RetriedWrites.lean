import Wbme.Asset.Fingerprint
import Wbme.Hr.Store
import Wbme.IdempotencyReplay

/-! # Retried writes of title rules and departments

The fingerprint of these writes is the text of their payload as it came, not of its canonical
form. The controllers build the payload member by member, so its members are always in one order;
lists stay in the order of the request.
-/

namespace Wbme.Hr

open Lib Lib.JsValue

/-- An optional member: absent, null or a value. -/
abbrev Given (α : Type) : Type := Option (Option α)

structure TitleRuleInput where
  titleName : Given String
  departmentId : Given Nat
  positionId : Given Nat
  roleCondition : Given String
  status : Given String
  sort : Given Nat

structure DepartmentInput where
  name : Given String
  sort : Given Nat
  status : Given String
  leaders : Given (List Nat)

inductive ConfigWrite where
  | createTitleRule (input : TitleRuleInput)
  | updateTitleRule (id : Nat) (input : TitleRuleInput)
  | deleteTitleRules (ids : List Nat)
  | updateDepartment (id : Nat) (input : DepartmentInput)
  | moveDepartment (id : Nat) (parentId : Given Nat)
  | deleteDepartments (ids : List Nat)

/-! ## Fingerprints -/

def member {α : Type} (f : α → JsValue Nat) (x : Given α) : Option (JsValue Nat) :=
  x.map fun value => value.elim .null f

def numbers (ids : List Nat) : JsValue Nat := .arr (ids.map .num)

def TitleRuleInput.fields (key : String) (input : TitleRuleInput) :
    List (String × Option (JsValue Nat)) :=
  [("titleName", member .str input.titleName), ("departmentId", member .num input.departmentId),
    ("positionId", member .num input.positionId),
    ("roleCondition", member .str input.roleCondition), ("status", member .str input.status),
    ("sort", member .num input.sort), ("idempotencyKey", some (.str key))]

def DepartmentInput.fields (key : String) (input : DepartmentInput) :
    List (String × Option (JsValue Nat)) :=
  [("name", member .str input.name), ("sort", member .num input.sort),
    ("status", member .str input.status), ("leaders", member numbers input.leaders),
    ("idempotencyKey", some (.str key))]

namespace ConfigWrite

def scope : ConfigWrite → String
  | .createTitleRule _ => "hr.title-rule.create"
  | .updateTitleRule _ _ => "hr.title-rule.update"
  | .deleteTitleRules _ => "hr.title-rule.delete"
  | .updateDepartment _ _ => "hr.department.update"
  | .moveDepartment _ _ => "hr.department.move"
  | .deleteDepartments _ => "hr.department.delete"

def payload (key : String) : ConfigWrite → JsValue Nat
  | .createTitleRule input => .obj (input.fields key)
  | .updateTitleRule id input => .obj (("id", some (.num id)) :: input.fields key)
  | .deleteTitleRules ids => numbers ids
  | .updateDepartment id input => .obj (("id", some (.num id)) :: input.fields key)
  | .moveDepartment id parentId =>
      .obj [("id", some (.num id)), ("parentId", member .num parentId)]
  | .deleteDepartments ids => numbers ids

def fingerprint (key : String) (w : ConfigWrite) : String := stringify Nat.repr (w.payload key)

def options (operator : OperationLogOperator) (feature key : String) (w : ConfigWrite) :
    IdempotentOptions where
  operator
  feature
  scope := w.scope
  idempotencyKey := some key
  fingerprint := w.fingerprint key

/-- Two writes ask for the same, whatever the order of their lists. -/
def SameIntent : ConfigWrite → ConfigWrite → Prop
  | .deleteTitleRules ids, .deleteTitleRules ids' => ids.Perm ids'
  | .deleteDepartments ids, .deleteDepartments ids' => ids.Perm ids'
  | .updateDepartment id input, .updateDepartment id' input' => id = id' ∧
      input = { input' with leaders := input.leaders } ∧
      Option.Rel (Option.Rel List.Perm) input.leaders input'.leaders
  | w, w' => w = w'

/-- A write repeats another as it is, or asks for something else: no list of it is the list of
the other in another order. -/
def KeepsOrder (w w' : ConfigWrite) : Prop := SameIntent w w' → w = w'

end ConfigWrite

/-! ## Texts and payloads -/

theorem renderFields_defined (text : Nat → String) (comma : Bool)
    (fields : List (String × Option (JsValue Nat))) :
    renderFields text comma (fields.filter (·.2.isSome)) = renderFields text comma fields := by
  induction fields generalizing comma with
  | nil => rfl
  | cons field fields ih =>
      obtain ⟨key, value⟩ := field
      cases value with
      | none =>
          rw [List.filter_cons_of_neg (by simp), ih]
          simp [renderFields, renderField, renderMember]
      | some value =>
          rw [List.filter_cons_of_pos (by simp), renderFields, renderFields, ih]

theorem fields_eq_of_defined {fields fields' : List (String × Option (JsValue Nat))}
    (hkeys : fields.map (·.1) = fields'.map (·.1)) (hnodup : (fields.map (·.1)).Nodup)
    (h : fields.filter (·.2.isSome) = fields'.filter (·.2.isSome)) : fields = fields' := by
  induction fields generalizing fields' with
  | nil => exact (List.map_eq_nil_iff.mp hkeys.symm).symm
  | cons field fields ih =>
      cases fields' with
      | nil => cases hkeys
      | cons field' fields' =>
          obtain ⟨key, value⟩ := field
          obtain ⟨key', value'⟩ := field'
          simp only [List.map_cons, List.cons.injEq, List.nodup_cons] at hkeys hnodup
          obtain ⟨rfl, hkeys⟩ := hkeys
          have habsent : ∀ {rest : List (String × Option (JsValue Nat))} {x : JsValue Nat},
              rest.map (·.1) = fields.map (·.1) → (key, some x) ∈ rest.filter (·.2.isSome) →
              False := fun hrest hmem => hnodup.1 (hrest ▸
            List.mem_map_of_mem (f := (·.1)) (List.mem_of_mem_filter hmem))
          cases value with
          | none =>
              cases value' with
              | none => rw [ih hkeys hnodup.2 (by simpa using h)]
              | some x =>
                  simp only [List.filter_cons, Option.isSome_none, Option.isSome_some,
                    Bool.false_eq_true, if_false, if_true] at h
                  exact (habsent rfl (h ▸ List.mem_cons_self)).elim
          | some x =>
              cases value' with
              | none =>
                  simp only [List.filter_cons, Option.isSome_none, Option.isSome_some,
                    Bool.false_eq_true, if_false, if_true] at h
                  exact (habsent hkeys.symm (h.symm ▸ List.mem_cons_self)).elim
              | some x' =>
                  simp only [List.filter_cons, Option.isSome_some, if_true, List.cons.injEq] at h
                  rw [h.1, ih hkeys hnodup.2 h.2]

theorem plain_numbers (ids : List Nat) : Plain (numbers ids) := by
  refine .arr fun x hx => ?_
  obtain ⟨n, -, rfl⟩ := List.mem_map.mp hx
  exact .num n

theorem plain_member {α : Type} {f : α → JsValue Nat} (hf : ∀ a, Plain (f a)) {x : Given α}
    {v : JsValue Nat} (h : member f x = some v) : Plain v := by
  obtain ⟨value, -, rfl⟩ := Option.map_eq_some_iff.mp h
  cases value with
  | none => exact .null
  | some a => exact hf a

theorem member_inj {α : Type} {f : α → JsValue Nat} (hf : Function.Injective f)
    (hnull : ∀ a, f a ≠ .null) : Function.Injective (member f) := by
  apply Option.map_injective
  intro x y h
  cases x with
  | none =>
      cases y with
      | none => rfl
      | some b => exact absurd h.symm (hnull b)
  | some a =>
      cases y with
      | none => exact absurd h (hnull a)
      | some b => exact congrArg some (hf h)

theorem str_inj : Function.Injective (member .str) :=
  member_inj (fun _ _ h => by cases h; rfl) fun _ h => by cases h

theorem num_inj : Function.Injective (member (.num : Nat → JsValue Nat)) :=
  member_inj (fun _ _ h => by cases h; rfl) fun _ h => by cases h

theorem numbers_inj : Function.Injective numbers := by
  intro ids ids' h
  exact List.map_injective_iff.mpr (fun _ _ h => by cases h; rfl) (JsValue.arr.inj h)

theorem leaders_inj : Function.Injective (member numbers) :=
  member_inj numbers_inj fun _ h => by cases h

variable {key : String}

theorem TitleRuleInput.fields_inj {input input' : TitleRuleInput}
    (h : input.fields key = input'.fields key) : input = input' := by
  simp only [fields, List.cons.injEq, Prod.mk.injEq, true_and, and_true] at h
  obtain ⟨h1, h2, h3, h4, h5, h6⟩ := h
  cases input
  cases input'
  cases str_inj h1; cases num_inj h2; cases num_inj h3; cases str_inj h4; cases str_inj h5
  cases num_inj h6
  rfl

theorem DepartmentInput.fields_inj {input input' : DepartmentInput}
    (h : input.fields key = input'.fields key) : input = input' := by
  simp only [fields, List.cons.injEq, Prod.mk.injEq, true_and, and_true] at h
  obtain ⟨h1, h2, h3, h4⟩ := h
  cases input
  cases input'
  cases str_inj h1; cases num_inj h2; cases str_inj h3; cases leaders_inj h4
  rfl

/-- All members that are there are without undefined parts. -/
def PlainFields (fields : List (String × Option (JsValue Nat))) : Prop :=
  ∀ f ∈ fields, ∀ v, f.2 = some v → Plain v

theorem plain_titleRule (key : String) (input : TitleRuleInput) :
    PlainFields (input.fields key) := by
  intro f hf v hv
  simp only [TitleRuleInput.fields, List.mem_cons, List.not_mem_nil, or_false] at hf
  rcases hf with rfl | rfl | rfl | rfl | rfl | rfl | rfl
  · exact plain_member .str hv
  · exact plain_member .num hv
  · exact plain_member .num hv
  · exact plain_member .str hv
  · exact plain_member .str hv
  · exact plain_member .num hv
  · exact Option.some.inj hv ▸ .str key

theorem plain_department (key : String) (input : DepartmentInput) :
    PlainFields (input.fields key) := by
  intro f hf v hv
  simp only [DepartmentInput.fields, List.mem_cons, List.not_mem_nil, or_false] at hf
  rcases hf with rfl | rfl | rfl | rfl | rfl
  · exact plain_member .str hv
  · exact plain_member .num hv
  · exact plain_member .str hv
  · exact plain_member plain_numbers hv
  · exact Option.some.inj hv ▸ .str key

theorem PlainFields.id {fields : List (String × Option (JsValue Nat))} (h : PlainFields fields)
    (id : Nat) : PlainFields (("id", some (.num id)) :: fields) := by
  intro f hf v hv
  rcases List.mem_cons.mp hf with rfl | hf
  · exact Option.some.inj hv ▸ .num id
  · exact h f hf v hv

theorem fields_eq_of_stringify {fields fields' : List (String × Option (JsValue Nat))}
    (hkeys : fields.map (·.1) = fields'.map (·.1)) (hnodup : (fields.map (·.1)).Nodup)
    (hplain : PlainFields fields) (hplain' : PlainFields fields')
    (h : stringify Nat.repr (.obj fields) = stringify Nat.repr (.obj fields')) :
    fields = fields' := by
  have hdefined : ∀ {l : List (String × Option (JsValue Nat))},
      PlainFields l → Plain (.obj (l.filter (·.2.isSome))) :=
    fun hl => .obj (fun f hf => (List.mem_filter.mp hf).2)
      fun key v hv => hl _ (List.mem_of_mem_filter hv) v rfl
  have htext : ∀ l : List (String × Option (JsValue Nat)),
      stringify Nat.repr (.obj (l.filter (·.2.isSome))) = stringify Nat.repr (.obj l) := by
    intro l
    simp only [stringify, render, renderFields_defined]
  have hobj := stringify_inj Asset.numberText_repr (hdefined hplain) (hdefined hplain')
    (by rw [htext, htext, h])
  exact fields_eq_of_defined hkeys hnodup (JsValue.obj.inj hobj)

namespace ConfigWrite

theorem fingerprint_inj {w w' : ConfigWrite} (hscope : w'.scope = w.scope)
    (h : w'.fingerprint key = w.fingerprint key) : w = w' := by
  have hnumbers : ∀ {ids ids' : List Nat},
      stringify Nat.repr (numbers ids') = stringify Nat.repr (numbers ids) → ids = ids' :=
    fun heq => (numbers_inj (stringify_inj Asset.numberText_repr (plain_numbers _)
      (plain_numbers _) heq)).symm
  unfold fingerprint at h
  cases w <;> cases w' <;> simp only [scope, String.reduceEq] at hscope <;>
    simp only [payload] at h
  · rename_i input input'
    have hfields : input'.fields key = input.fields key := fields_eq_of_stringify rfl
      (by simp [TitleRuleInput.fields]) (plain_titleRule key _) (plain_titleRule key _) h
    rw [TitleRuleInput.fields_inj hfields]
  · rename_i id input id' input'
    have hfields : (("id", some (.num id')) :: input'.fields key :
        List (String × Option (JsValue Nat))) = ("id", some (.num id)) :: input.fields key :=
      fields_eq_of_stringify rfl (by simp [TitleRuleInput.fields]) ((plain_titleRule key _).id _)
        ((plain_titleRule key _).id _) h
    obtain ⟨hid, hinput⟩ := List.cons.inj hfields
    rw [TitleRuleInput.fields_inj hinput]
    cases hid
    rfl
  · rw [hnumbers h]
  · rename_i id input id' input'
    have hfields : (("id", some (.num id')) :: input'.fields key :
        List (String × Option (JsValue Nat))) = ("id", some (.num id)) :: input.fields key :=
      fields_eq_of_stringify rfl (by simp [DepartmentInput.fields])
        ((plain_department key _).id _) ((plain_department key _).id _) h
    obtain ⟨hid, hinput⟩ := List.cons.inj hfields
    rw [DepartmentInput.fields_inj hinput]
    cases hid
    rfl
  · rename_i id parentId id' parentId'
    have hplain : ∀ x : Given Nat, PlainFields [("parentId", member .num x)] := by
      intro x f hf v hv
      rw [List.mem_singleton.mp hf] at hv
      exact plain_member .num hv
    have hfields : ([("id", some (.num id')), ("parentId", member .num parentId')] :
        List (String × Option (JsValue Nat))) = [("id", some (.num id)),
          ("parentId", member .num parentId)] :=
      fields_eq_of_stringify rfl (by simp) ((hplain _).id _) ((hplain _).id _) h
    simp only [List.cons.injEq, Prod.mk.injEq, Option.some.injEq, JsValue.num.injEq, true_and,
      and_true] at hfields
    rw [hfields.1, num_inj hfields.2]
  · rw [hnumbers h]

theorem SameIntent.refl (w : ConfigWrite) : SameIntent w w := by
  cases w with
  | deleteTitleRules ids => exact List.Perm.refl ids
  | deleteDepartments ids => exact List.Perm.refl ids
  | updateDepartment id input =>
      refine ⟨rfl, rfl, ?_⟩
      cases input.leaders with
      | none => exact .none
      | some leaders =>
          cases leaders with
          | none => exact .some .none
          | some ids => exact .some (.some (List.Perm.refl ids))
  | createTitleRule input => exact rfl
  | updateTitleRule id input => exact rfl
  | moveDepartment id parentId => exact rfl

/-- A retry under the key of a recorded write is answered as it should be, by a replay if it asks
for the same and otherwise by a refusal, exactly when it does not put a list of that write in
another order. -/
theorem replays_iff {σ ρ ω : Type} (log : LogTable σ ρ ω) (operator : OperationLogOperator)
    (feature key : String) (w retry : ConfigWrite) (hscope : retry.scope = w.scope) {result : ω}
    {n : Nat} {s : σ} (h : Recorded log (w.options operator feature key) result n s)
    (run : Txn σ ρ Failure (IdempotentOutcome ω)) :
    ((SameIntent w retry → (executeIdempotentOperation log (retry.options operator feature key)
        run).exec n s = .ok (result, n, s)) ∧
      (¬ SameIntent w retry → (executeIdempotentOperation log
        (retry.options operator feature key) run).exec n s =
          .error (.of .idempotencyKeyReused))) ↔ KeepsOrder w retry := by
  rw [exec_of_recorded (p := retry.options operator feature key) h rfl hscope rfl run]
  have htell : (retry.options operator feature key).fingerprint =
      (w.options operator feature key).fingerprint → w = retry := fingerprint_inj hscope
  constructor
  · intro hreplays hsame
    by_contra hne
    have hanswer := hreplays.1 hsame
    rw [if_neg fun heq => hne (htell heq)] at hanswer
    cases hanswer
  · intro horder
    refine ⟨fun hsame => ?_, fun hdiffers => if_neg fun heq => ?_⟩
    · rw [horder hsame, if_pos rfl]
    · exact hdiffers (htell heq ▸ SameIntent.refl w)

def plainLog : LogTable (Table (OperationLog Nat)) Unit Nat where
  system := "HR"
  get t := t
  set _ t := t
  lock _ _ _ := ()
  get_set _ _ := rfl

def someone : OperationLogOperator := ⟨7, "甲", []⟩

/-- The log after rules 1 and 2 were deleted under the key `k`. -/
def deletedTwo : Table (OperationLog Nat) :=
  ⟨[(1, { operatorId := 7, operatorName := "甲", operatorDepartments := .null, system := "HR",
          feature := "title_manage", actionType := .delete, summary := "删除了 2 条职称规则",
          idempotency := some ⟨"hr.title-rule.delete", "k",
            (deleteTitleRules [1, 2]).fingerprint "k", 2⟩ })], by simp⟩

theorem recorded_deletedTwo :
    Recorded plainLog ((deleteTitleRules [1, 2]).options someone "title_manage" "k") 2 2
      deletedTwo where
  below := by
    intro id row hrow
    have hmem : (id, row) ∈ deletedTwo.rows := Table.find?_eq_some_iff.mp hrow
    have hid := congrArg Prod.fst (List.mem_singleton.mp hmem)
    simp only at hid
    omega
  found := ⟨"k", by decide, rfl⟩

theorem replays_iff_again :
    (executeIdempotentOperation plainLog
      ((deleteTitleRules [1, 2]).options someone "title_manage" "k")
        (pure ⟨0, .delete, ""⟩)).exec 2 deletedTwo = .ok (2, 2, deletedTwo) :=
  ((replays_iff plainLog someone "title_manage" "k" (deleteTitleRules [1, 2])
    (deleteTitleRules [1, 2]) rfl recorded_deletedTwo (pure ⟨0, .delete, ""⟩)).mpr
      fun _ => rfl).1 (SameIntent.refl _)

/-- The same rules in another order are refused. -/
theorem not_replayed_reordered :
    SameIntent (deleteTitleRules [1, 2]) (deleteTitleRules [2, 1]) ∧
      (executeIdempotentOperation plainLog
        ((deleteTitleRules [2, 1]).options someone "title_manage" "k")
          (pure ⟨0, .delete, ""⟩)).exec 2 deletedTwo = .error (.of .idempotencyKeyReused) := by
  refine ⟨List.Perm.swap 2 1 [], ?_⟩
  have hanswer := exec_of_recorded
    (p := (deleteTitleRules [2, 1]).options someone "title_manage" "k") recorded_deletedTwo rfl rfl
    rfl (pure ⟨0, .delete, ""⟩)
  rw [hanswer]
  refine if_neg fun heq => ?_
  have hsame : deleteTitleRules [1, 2] = deleteTitleRules [2, 1] := fingerprint_inj rfl heq
  cases hsame

end ConfigWrite

end Wbme.Hr
