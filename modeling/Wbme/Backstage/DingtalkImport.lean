import Wbme.Auth.Store
import Wbme.Backstage.UserLifecycle
import Wbme.IdempotencyReplay
import Wbme.Lib.Grouping

/-! # Importing members of the DingTalk directory

An administrator sees the members of the directory, each with what stands against an import,
and selects some of them. The import reads the directory again and checks the selected members.
The list counts a number over the whole directory, the import over the selected members only.
-/

namespace Wbme.Backstage.DingtalkImport

open Lib
open Auth (DingtalkBinding codeUnits normalizePhoneFromParts)
open Wbme.Fin (trim)
open UserLifecycleService (isLive)

/-- A member as a page of the directory has it. -/
structure ListedMember where
  unionid : Option String
  name : Option String
  mobile : Option String
  stateCode : Option String
  active : Bool

structure DirectoryMember where
  unionId : String
  name : String
  mobile : String
  stateCode : String
  active : Bool
deriving DecidableEq

def unnamed : String := "未命名员工"

def ListedMember.unionId (member : ListedMember) : String := (member.unionid.map trim).getD ""

def ListedMember.toMember (member : ListedMember) : DirectoryMember where
  unionId := member.unionId
  name := if (member.name.map trim).getD "" = "" then unnamed else (member.name.map trim).getD ""
  mobile := (member.mobile.map trim).getD ""
  stateCode := (member.stateCode.map trim).getD ""
  active := member.active

/-- `Map.set` by the id: a member that is there is replaced where it stands. -/
def setMember (members : List DirectoryMember) (member : DirectoryMember) :
    List DirectoryMember :=
  if members.any fun m => m.unionId == member.unionId then
    members.map fun m => if m.unionId == member.unionId then member else m
  else members ++ [member]

/-- The members of all departments, each id once; members without an id are left out. -/
def listDirectoryMembers (pages : List ListedMember) : List DirectoryMember :=
  pages.foldl
    (fun members member =>
      if member.unionId = "" then members else setMember members member.toMember)
    []

def DirectoryMember.phone (member : DirectoryMember) : Option String :=
  normalizePhoneFromParts member.stateCode member.mobile

structure ImportReply where
  userIds : List Nat
  importedCount : Nat

structure ImportStore where
  users : Table User
  dingtalkBindings : Table DingtalkBinding
  operationLogs : Table (OperationLog ImportReply)

inductive ImportLock where
  | phone (phone : String)
  | unionId (unionId : String)
  | boundUser (userId : Nat)
  | idempotency (operatorId : Nat) (scope key : String)

abbrev ImportTx (α : Type) := Txn ImportStore ImportLock Failure α

def importLog : LogTable ImportStore ImportLock ImportReply where
  system := "BACKSTAGE"
  get := ImportStore.operationLogs
  set s t := { s with operationLogs := t }
  lock := ImportLock.idempotency
  get_set _ _ := rfl

/-- The numbers among some that live accounts have. -/
def occupiedPhones (s : ImportStore) (phones : List String) : List String :=
  (s.users.select fun _ u => phones.contains u.phone && isLive u).map (·.2.phone)

def boundUnionIds (s : ImportStore) (unionIds : List String) : List String :=
  (s.dingtalkBindings.select fun _ b => unionIds.contains b.dingtalkUnionId).map
    (·.2.dingtalkUnionId)

/-! ## The candidate list -/

structure CandidateView where
  unionId : String
  name : String
  phone : String
  disabledReason : Option String

def CandidateView.importable (view : CandidateView) : Bool := view.disabledReason.isNone

def nameMaxLength : Nat := 50

def unionIdMaxLength : Nat := 128

/-- A name that the platform does not take. -/
def isBadName (name : String) : Bool :=
  trim name = "" || nameMaxLength < codeUnits (trim name)

def candidateDisabledReason (member : DirectoryMember) (phones occupied bound : List String) :
    Option String :=
  if !member.active then some "该员工已离职"
  else if member.unionId = "" || unionIdMaxLength < codeUnits member.unionId then
    some "钉钉 ID 无效"
  else if isBadName member.name then some "姓名不符合平台要求"
  else
    match member.phone with
    | none => some "未获取到有效手机号"
    | some phone =>
        if 1 < phones.count phone then some "钉钉组织内手机号重复"
        else if bound.contains member.unionId then some "钉钉 ID 已绑定平台账号"
        else if occupied.contains phone then some "手机号已被平台账号使用"
        else none

def toCandidateViews (compareViews : CandidateView → CandidateView → Ordering) (s : ImportStore)
    (members : List DirectoryMember) : List CandidateView :=
  let phones := members.filterMap DirectoryMember.phone
  let unionIds := (members.map (·.unionId)).filter (· ≠ "")
  let occupied := occupiedPhones s phones
  let bound := boundUnionIds s unionIds
  (members.map fun member =>
    { unionId := member.unionId
      name := member.name
      phone := member.phone.getD member.mobile
      disabledReason := candidateDisabledReason member phones occupied bound :
      CandidateView }).insertionSort fun a b => compareViews a b ≠ .gt

/-! ## The import -/

structure ImportDingtalkUsers where
  snapshotId : String
  unionIds : List String
  idempotencyKey : Option String

/-- What surrounds the import: the departments of a user, the hash of a payload, the default
password if the import is configured, the snapshots of the operator, the pages of the directory
unless it cannot be read, and the hash of a password. -/
structure ImportEnvironment where
  departmentsOf : Nat → Option (List DepartmentRef)
  fingerprintPayload : Json → String
  defaultPassword : Option String
  hasSnapshot : String → Bool
  directory : Option (List ListedMember)
  passwordHash : String → String

structure ImportableMember where
  unionId : String
  name : String
  phone : String

/-- Why one member of a batch is refused. -/
structure MemberFailure where
  unionId : String
  code : String
  message : String

def MemberFailure.details (failure : MemberFailure) : List (String × String) :=
  [(s!"failures.{failure.unionId}.code", failure.code),
    (s!"failures.{failure.unionId}.message", failure.message)]

def batchBlocked (failures : List MemberFailure) : Failure :=
  .business .userBatchBlocked (failures.flatMap MemberFailure.details)

def batchLimit : Nat := 100

/-- The first check that a selected member fails; `selectedPhones` are those of the members
before it. -/
def checkMember (selectedPhones : List String) (unionId : String) :
    Option DirectoryMember → Except MemberFailure ImportableMember
  | none => .error ⟨unionId, "DINGTALK_MEMBER_NOT_FOUND", "员工已不在当前钉钉组织架构中"⟩
  | some member =>
      if !member.active then .error ⟨unionId, "DINGTALK_MEMBER_INACTIVE", "员工已离职"⟩
      else if isBadName member.name then
        .error ⟨unionId, "INVALID_NAME", "员工姓名不符合平台要求"⟩
      else
        match member.phone with
        | none => .error ⟨unionId, "INVALID_PHONE", "未获取到有效手机号"⟩
        | some phone =>
            if selectedPhones.contains phone then
              .error ⟨unionId, "DUPLICATE_PHONE", "选中员工存在重复手机号"⟩
            else .ok ⟨unionId, trim member.name, phone⟩

def checkMembers : List String → List (String × Option DirectoryMember) →
    List MemberFailure × List ImportableMember
  | _, [] => ([], [])
  | selectedPhones, (unionId, resolved) :: rest =>
      match checkMember selectedPhones unionId resolved with
      | .error failure =>
          let result := checkMembers selectedPhones rest
          (failure :: result.1, result.2)
      | .ok member =>
          let result := checkMembers (member.phone :: selectedPhones) rest
          (result.1, member :: result.2)

def validateSelectedMembers (selection : List (String × Option DirectoryMember)) :
    Except Failure (List ImportableMember) :=
  if batchLimit < selection.length then .error (.of .validationFailed)
  else
    match checkMembers [] selection with
    | ([], members) => .ok members
    | (failures, _) => .error (batchBlocked failures)

def databaseConflicts (s : ImportStore) (members : List ImportableMember) : List MemberFailure :=
  let occupied := occupiedPhones s (members.map (·.phone))
  let bound := boundUnionIds s (members.map (·.unionId))
  members.flatMap fun member =>
    if bound.contains member.unionId then
      [⟨member.unionId, "DINGTALK_ALREADY_BOUND", "钉钉 ID 已绑定平台账号"⟩]
    else if occupied.contains member.phone then
      [⟨member.unionId, "PHONE_TAKEN", "手机号已被平台账号使用"⟩]
    else []

def newUser (member : ImportableMember) (passwordHash : String) : User where
  name := member.name
  phone := member.phone
  passwordHash := some passwordHash
  status := .active
  isSuperAdmin := false
  sessionVersion := 0
  permissionVersion := 0
  lifecycleVersion := 0
  deletedAt := none

def phoneTaken (s : ImportStore) (phone : String) : Bool :=
  !(s.users.select fun _ u => u.phone == phone && isLive u).isEmpty

def unionIdTaken (s : ImportStore) (unionId : String) : Bool :=
  !(s.dingtalkBindings.select fun _ b => b.dingtalkUnionId == unionId).isEmpty

def userBound (s : ImportStore) (userId : Nat) : Bool :=
  !(s.dingtalkBindings.select fun _ b => b.userId == userId && b.isBound).isEmpty

/-- An account for a member, with its binding. -/
def importMember (passwordHash : String) (member : ImportableMember) : ImportTx Nat := do
  let userId ← Txn.create (fun _ => [.phone member.phone])
    (fun v => [(phoneTaken v member.phone, .uniqueViolation "users_phone_active_unique")])
    fun id s => { s with users := s.users.insert id (newUser member passwordHash) }
  let _ ← Txn.create (fun _ => [.unionId member.unionId, .boundUser userId])
    (fun v =>
      [(unionIdTaken v member.unionId, .uniqueViolation "dingtalk_bindings_dingtalk_union_id_key"),
        (userBound v userId, .uniqueViolation "dingtalk_bindings_user_bound_unique")])
    fun id s =>
      { s with dingtalkBindings := s.dingtalkBindings.insert id ⟨userId, member.unionId, true⟩ }
  pure userId

def importRun (passwordHash : String) (members : List ImportableMember) :
    ImportTx (IdempotentOutcome ImportReply) := do
  let failures ← Txn.query fun v => databaseConflicts v members
  Txn.guard failures.isEmpty (batchBlocked failures)
  let userIds ← members.mapM (importMember passwordHash)
  pure ⟨⟨userIds, userIds.length⟩, .create,
    s!"从钉钉导入了 {userIds.length} 名员工并自动绑定钉钉账号"⟩

def idempotencyScope : String := "users.dingtalk-import"

def options (env : ImportEnvironment) (operator : OperationLogOperator)
    (dto : ImportDingtalkUsers) : IdempotentOptions :=
  ⟨operator, "user_manage", idempotencyScope, dto.idempotencyKey,
    env.fingerprintPayload (.obj [("snapshotId", .str dto.snapshotId),
      ("unionIds", .arr (dto.unionIds.map fun id => .str (trim id)))])⟩

def loadOperationLogOperator (env : ImportEnvironment) (operatorId : Nat) :
    ImportTx OperationLogOperator := do
  let found ← Txn.query fun v => v.users.find? operatorId
  let operator ← Txn.orThrow (found.filter fun u => u.deletedAt.isNone) (.of .unauthorized)
  pure ⟨operatorId, operator.name, (env.departmentsOf operatorId).getD []⟩

def idsRefused : Failure :=
  .business .validationFailed [("fields.field", "unionIds"),
    ("fields.errors", "钉钉 ID 不能为空且不能重复")]

def duplicatedIds (unionIds : List String) : Bool := unionIds.contains "" || !unionIds.Nodup

/-- `Map.get` of the member with an id, the last one if there are several. -/
def resolve (members : List DirectoryMember) (unionId : String) : Option DirectoryMember :=
  members.reverse.find? fun member => member.unionId == unionId

/-- What is checked before the transaction begins; the result is what it imports. -/
def selectMembers (env : ImportEnvironment) (dto : ImportDingtalkUsers) :
    Except Failure (String × List ImportableMember) :=
  match env.defaultPassword with
  | none => .error (.of .dingtalkImportConfigMissing)
  | some password =>
      if !env.hasSnapshot dto.snapshotId then .error (.of .conflict)
      else
        match env.directory with
        | none => .error (.of .dingtalkUnavailable)
        | some pages =>
            (validateSelectedMembers ((dto.unionIds.map trim).map fun id =>
              (id, resolve (listDirectoryMembers pages) id))).map
              fun members => (env.passwordHash password, members)

/-- The result of an earlier import under the key. -/
def replayedBefore (o : IdempotentOptions) : ImportTx (Option ImportReply) :=
  match o.key with
  | none => pure none
  | some key => tryReplayIdempotentResult importLog o key

/-- A number or an id that another transaction took in between. -/
def concurrentlyOccupied (unionIds : List String) :
    Except Failure (ImportReply × Nat × ImportStore) →
      Except Failure (ImportReply × Nat × ImportStore)
  | .error (.uniqueViolation _) =>
      .error (batchBlocked (unionIds.map fun id =>
        ⟨id, "CONCURRENT_OCCUPIED", "账号信息已被并发占用，请刷新后重试"⟩))
  | r => r

def importUsers (env : ImportEnvironment) (operatorId : Nat) (dto : ImportDingtalkUsers) (n : Nat)
    (s : ImportStore) : Except Failure (ImportReply × Nat × ImportStore) :=
  if duplicatedIds (dto.unionIds.map trim) then .error idsRefused
  else
    match (loadOperationLogOperator env operatorId).run n s with
    | .error e => .error e
    | .ok (operator, n, s) =>
        match (replayedBefore (options env operator dto)).run n s with
        | .error e => .error e
        | .ok (some reply, n, s) => .ok (reply, n, s)
        | .ok (none, n, s) =>
            match selectMembers env dto with
            | .error e => .error e
            | .ok (passwordHash, members) =>
                concurrentlyOccupied (dto.unionIds.map trim)
                  ((executeIdempotentOperation importLog (options env operator dto)
                    (importRun passwordHash members)).exec n s)

/-! ## The directory has each id once -/

theorem setMember_ids (members : List DirectoryMember) (member : DirectoryMember) :
    (setMember members member).map (·.unionId) =
      if member.unionId ∈ members.map (·.unionId) then members.map (·.unionId)
      else members.map (·.unionId) ++ [member.unionId] := by
  unfold setMember
  by_cases hin : member.unionId ∈ members.map (·.unionId)
  · have hany : members.any (fun m => m.unionId == member.unionId) = true := by
      rw [List.any_eq_true]
      obtain ⟨m, hm, heq⟩ := List.mem_map.mp hin
      exact ⟨m, hm, beq_iff_eq.mpr heq⟩
    rw [if_pos hany, if_pos hin, List.map_map]
    apply List.map_congr_left
    intro m _
    by_cases heq : m.unionId = member.unionId
    · simp [heq]
    · simp [heq]
  · have hany : ¬ members.any (fun m => m.unionId == member.unionId) = true := by
      rw [List.any_eq_true]
      intro h
      obtain ⟨m, hm, heq⟩ := h
      exact hin (List.mem_map.mpr ⟨m, hm, beq_iff_eq.mp heq⟩)
    rw [if_neg hany, if_neg hin, List.map_append]
    rfl

variable {members : List DirectoryMember} {s : ImportStore} {unionId : String}
  {member : ImportableMember} {unionIds : List String}

theorem setMember_nodup (member : DirectoryMember) (h : (members.map (·.unionId)).Nodup) :
    ((setMember members member).map (·.unionId)).Nodup := by
  rw [setMember_ids]
  split
  · exact h
  · rename_i hnot
    rw [List.nodup_append]
    refine ⟨h, List.nodup_singleton _, ?_⟩
    intro a ha b hb hab
    rw [List.mem_singleton.mp hb] at hab
    exact hnot (hab ▸ ha)

theorem listDirectoryMembers_nodup (pages : List ListedMember) :
    ((listDirectoryMembers pages).map (·.unionId)).Nodup := by
  unfold listDirectoryMembers
  have hall : ∀ members : List DirectoryMember, (members.map (·.unionId)).Nodup →
      ((pages.foldl (fun members member =>
        if member.unionId = "" then members else setMember members member.toMember)
        members).map (·.unionId)).Nodup := by
    induction pages with
    | nil =>
        intro members h
        exact h
    | cons page pages ih =>
        intro members h
        apply ih
        show (List.map (·.unionId) (if page.unionId = "" then members
          else setMember members page.toMember)).Nodup
        split
        · exact h
        · exact setMember_nodup _ h
  exact hall [] List.nodup_nil

variable {compareViews : CandidateView → CandidateView → Ordering} {phone : String} {id : String}
  {b : DingtalkBinding}

theorem resolve_eq_some_iff (hmembers : (members.map (·.unionId)).Nodup) {m : DirectoryMember} :
    resolve members id = some m ↔ m ∈ members ∧ m.unionId = id := by
  unfold resolve
  constructor
  · intro h
    have hid := List.find?_some h
    exact ⟨List.mem_reverse.mp (List.mem_of_find?_eq_some h), beq_iff_eq.mp hid⟩
  · intro h
    rcases h with ⟨hm, hid⟩
    cases hfind : members.reverse.find? fun member => member.unionId == id with
    | none =>
        rw [List.find?_eq_none] at hfind
        exact absurd (beq_iff_eq.mpr hid) (hfind m (List.mem_reverse.mpr hm))
    | some m' =>
        have hm' := List.mem_reverse.mp (List.mem_of_find?_eq_some hfind)
        have hsome := List.find?_some hfind
        have hid' : m'.unionId = id := beq_iff_eq.mp hsome
        rw [List.inj_on_of_nodup_map hmembers hm' hm (hid'.trans hid.symm)]

/-! ## What the list shows -/

/-- A live account has the number. -/
def PhoneLive (s : ImportStore) (phone : String) : Prop :=
  ∃ i u, s.users.find? i = some u ∧ isLive u = true ∧ u.phone = phone

def UnionIdBound (s : ImportStore) (unionId : String) : Prop :=
  ∃ i b, s.dingtalkBindings.find? i = some b ∧ b.dingtalkUnionId = unionId

theorem mem_occupiedPhones {phones : List String} (hin : phone ∈ phones) :
    phone ∈ occupiedPhones s phones ↔ PhoneLive s phone := by
  unfold occupiedPhones PhoneLive
  rw [List.mem_map]
  constructor
  · intro h
    rcases h with ⟨⟨i, u⟩, hu, heq⟩
    obtain ⟨hfind, hp⟩ := Table.mem_select.mp hu
    exact ⟨i, u, hfind, (Bool.and_eq_true_iff.mp hp).2, heq⟩
  · intro h
    rcases h with ⟨i, u, hfind, hlive, heq⟩
    refine ⟨(i, u), Table.mem_select.mpr ⟨hfind, ?_⟩, heq⟩
    rw [heq, hlive, Bool.and_true, List.contains_iff_mem]
    exact hin

theorem mem_boundUnionIds (hin : unionId ∈ unionIds) :
    unionId ∈ boundUnionIds s unionIds ↔ UnionIdBound s unionId := by
  unfold boundUnionIds UnionIdBound
  rw [List.mem_map]
  constructor
  · intro h
    rcases h with ⟨⟨i, b⟩, hb, heq⟩
    exact ⟨i, b, (Table.mem_select.mp hb).1, heq⟩
  · intro h
    rcases h with ⟨i, b, hfind, heq⟩
    refine ⟨(i, b), Table.mem_select.mpr ⟨hfind, ?_⟩, heq⟩
    rw [heq, List.contains_iff_mem]
    exact hin

structure Fits (member : DirectoryMember) (phone : String) : Prop where
  active : member.active = true
  name : isBadName member.name = false
  phone : member.phone = some phone

/-- Nothing in the database stands against a member. -/
structure Free (s : ImportStore) (unionId phone : String) : Prop where
  unionId : ¬ UnionIdBound s unionId
  phone : ¬ PhoneLive s phone

theorem candidateDisabledReason_eq_none {member : DirectoryMember}
    {phones occupied bound : List String} :
    candidateDisabledReason member phones occupied bound = none ↔
      member.unionId ≠ "" ∧ codeUnits member.unionId ≤ unionIdMaxLength ∧
        ∃ phone, Fits member phone ∧ phones.count phone ≤ 1 ∧
          member.unionId ∉ bound ∧ phone ∉ occupied := by
  unfold candidateDisabledReason
  constructor
  · intro h
    split at h
    · cases h
    · rename_i hactive
      split at h
      · cases h
      · rename_i hid
        split at h
        · cases h
        · rename_i hname
          split at h
          · cases h
          · rename_i phone hphone
            split at h
            · cases h
            · rename_i hcount
              split at h
              · cases h
              · rename_i hbound
                split at h
                · cases h
                · rename_i hoccupied
                  simp only [Bool.or_eq_true, decide_eq_true_eq, not_or, not_lt] at hid
                  refine ⟨hid.1, hid.2, phone, ⟨?_, ?_, hphone⟩, Nat.not_lt.mp hcount, ?_, ?_⟩
                  · simpa using hactive
                  · simpa using hname
                  · simpa using hbound
                  · simpa using hoccupied
  · intro h
    rcases h with ⟨hid, hlength, phone, hfits, hcount, hbound, hoccupied⟩
    have hlength' : ¬ unionIdMaxLength < codeUnits member.unionId := Nat.not_lt.mpr hlength
    have hcount' : ¬ 1 < phones.count phone := Nat.not_lt.mpr hcount
    simp [hfits.active, hid, hlength', hfits.name, hfits.phone, hcount', hbound, hoccupied]

/-- The list shows a member as importable when nothing stands against it, and no other member of
the directory has its number. -/
theorem exists_importable_view :
    (∃ view ∈ toCandidateViews compareViews s members,
        view.unionId = id ∧ view.importable = true) ↔
      ∃ m ∈ members, m.unionId = id ∧ id ≠ "" ∧ codeUnits id ≤ unionIdMaxLength ∧
        ∃ phone, Fits m phone ∧ (members.filterMap DirectoryMember.phone).count phone ≤ 1 ∧
          Free s id phone := by
  have hview : ∀ m ∈ members,
      (candidateDisabledReason m (members.filterMap DirectoryMember.phone)
        (occupiedPhones s (members.filterMap DirectoryMember.phone))
        (boundUnionIds s ((members.map (·.unionId)).filter (· ≠ ""))) = none ↔
      m.unionId ≠ "" ∧ codeUnits m.unionId ≤ unionIdMaxLength ∧ ∃ phone, Fits m phone ∧
        (members.filterMap DirectoryMember.phone).count phone ≤ 1 ∧ Free s m.unionId phone) := by
    intro m hm
    rw [candidateDisabledReason_eq_none]
    refine and_congr_right fun hid => and_congr_right fun _ => exists_congr fun phone =>
      and_congr_right fun hfits => and_congr_right fun _ => ?_
    have hids : m.unionId ∈ (members.map (·.unionId)).filter (· ≠ "") := by
      rw [List.mem_filter]
      exact ⟨List.mem_map_of_mem hm, by simpa using hid⟩
    have hphones : phone ∈ members.filterMap DirectoryMember.phone :=
      List.mem_filterMap.mpr ⟨m, hm, hfits.phone⟩
    rw [mem_boundUnionIds hids, mem_occupiedPhones hphones]
    exact ⟨fun h => ⟨h.1, h.2⟩, fun h => ⟨h.unionId, h.phone⟩⟩
  unfold toCandidateViews
  constructor
  · intro h
    rcases h with ⟨view, hin, hid, himportable⟩
    rw [List.mem_insertionSort, List.mem_map] at hin
    obtain ⟨m, hm, heq⟩ := hin
    subst heq
    have hnone := (hview m hm).mp (Option.isNone_iff_eq_none.mp himportable)
    dsimp only at hid
    subst hid
    exact ⟨m, hm, rfl, hnone⟩
  · intro h
    rcases h with ⟨m, hm, hid, hnone⟩
    subst hid
    refine ⟨_, (List.mem_insertionSort _).mpr (List.mem_map_of_mem hm), rfl, ?_⟩
    exact Option.isNone_iff_eq_none.mpr ((hview m hm).mpr hnone)

/-! ## What the import checks -/

def Selected (entry : String × Option DirectoryMember) (member : ImportableMember) : Prop :=
  ∃ m phone, entry.2 = some m ∧ Fits m phone ∧ member = ⟨entry.1, trim m.name, phone⟩

theorem checkMember_ok {selectedPhones : List String} {resolved : Option DirectoryMember} :
    checkMember selectedPhones unionId resolved = .ok member ↔
      Selected (unionId, resolved) member ∧ member.phone ∉ selectedPhones := by
  unfold checkMember Selected
  constructor
  · intro h
    split at h
    · cases h
    · rename_i m
      split at h
      · cases h
      · rename_i hactive
        split at h
        · cases h
        · rename_i hname
          split at h
          · cases h
          · rename_i phone hphone
            split at h
            · cases h
            · rename_i hseen
              cases h
              refine ⟨⟨m, phone, rfl, ⟨?_, ?_, hphone⟩, rfl⟩, ?_⟩
              · simpa using hactive
              · simpa using hname
              · simpa using hseen
  · intro h
    rcases h with ⟨⟨m, phone, hresolved, hfits, hmember⟩, hseen⟩
    dsimp only at hresolved
    subst hresolved
    subst hmember
    dsimp only at hseen
    simp [hfits.active, hfits.name, hfits.phone, hseen]

/-- A selection without failures: every member is selected, and their numbers are new and
different. -/
theorem checkMembers_ok {selection : List (String × Option DirectoryMember)}
    {selectedPhones : List String} {members : List ImportableMember} :
    checkMembers selectedPhones selection = ([], members) ↔
      List.Forall₂ Selected selection members ∧
        (∀ member ∈ members, member.phone ∉ selectedPhones) ∧
        (members.map (·.phone)).Nodup := by
  induction selection generalizing selectedPhones members with
  | nil =>
      rw [List.forall₂_nil_left_iff]
      constructor
      · intro h
        cases h
        simp
      · intro h
        rw [h.1]
        rfl
  | cons entry rest ih =>
      rw [List.forall₂_cons_left_iff]
      unfold checkMembers
      cases hcheck : checkMember selectedPhones entry.1 entry.2 with
      | error failure =>
          refine iff_of_false (fun h => by cases h) ?_
          intro h
          rcases h with ⟨⟨member, others, hsel, -, heq⟩, hseen, -⟩
          subst heq
          have hok := checkMember_ok.mpr ⟨hsel, hseen member List.mem_cons_self⟩
          rw [hcheck] at hok
          cases hok
      | ok member =>
          obtain ⟨hsel, hnew⟩ := checkMember_ok.mp hcheck
          dsimp only
          constructor
          · intro h
            simp only [Prod.mk.injEq] at h
            obtain ⟨hfailures, hmembers⟩ := h
            obtain ⟨hrest, hseen, hnodup⟩ := ih.mp (Prod.ext hfailures rfl)
            subst hmembers
            refine ⟨⟨member, _, hsel, hrest, rfl⟩, ?_, ?_⟩
            · intro other hother
              rcases List.mem_cons.mp hother with hother | hother
              · rw [hother]
                exact hnew
              · intro hin
                exact hseen other hother (List.mem_cons_of_mem _ hin)
            · rw [List.map_cons, List.nodup_cons]
              refine ⟨?_, hnodup⟩
              intro hin
              obtain ⟨other, hother, heq⟩ := List.mem_map.mp hin
              exact hseen other hother (heq ▸ List.mem_cons_self)
          · intro h
            rcases h with ⟨⟨member', others, hsel', hrest, heq⟩, hseen, hnodup⟩
            subst heq
            have hok := checkMember_ok.mpr ⟨hsel', hseen member' List.mem_cons_self⟩
            have hsame : member' = member := by
              rw [hcheck] at hok
              cases hok
              rfl
            subst hsame
            rw [List.map_cons, List.nodup_cons] at hnodup
            have hchecked : checkMembers (member'.phone :: selectedPhones) rest = ([], others) := by
              apply ih.mpr
              refine ⟨hrest, ?_, hnodup.2⟩
              intro other hother hin
              rcases List.mem_cons.mp hin with hin | hin
              · exact hnodup.1 (hin ▸ List.mem_map_of_mem hother)
              · exact hseen other (List.mem_cons_of_mem _ hother) hin
            rw [hchecked]

theorem databaseConflicts_eq_nil {members : List ImportableMember} :
    databaseConflicts s members = [] ↔ ∀ member ∈ members, Free s member.unionId member.phone := by
  unfold databaseConflicts
  rw [List.flatMap_eq_nil_iff]
  refine forall₂_congr fun member hmember => ?_
  have hid := mem_boundUnionIds (s := s) (List.mem_map_of_mem hmember :
    member.unionId ∈ members.map (·.unionId))
  have hphone := mem_occupiedPhones (s := s) (List.mem_map_of_mem hmember :
    member.phone ∈ members.map (·.phone))
  constructor
  · intro h
    split at h
    · cases h
    · rename_i hbound
      split at h
      · cases h
      · rename_i hoccupied
        rw [List.contains_iff_mem, hid] at hbound
        rw [List.contains_iff_mem, hphone] at hoccupied
        exact ⟨hbound, hoccupied⟩
  · intro h
    rw [if_neg, if_neg]
    · rw [List.contains_iff_mem, hphone]
      exact h.phone
    · rw [List.contains_iff_mem, hid]
      exact h.unionId

/-! ## The database keeps numbers and ids apart -/

/-- No two live accounts have one number. -/
def PhonesDistinct (s : ImportStore) : Prop :=
  ∀ i j u v, s.users.find? i = some u → s.users.find? j = some v → isLive u = true →
    isLive v = true → u.phone = v.phone → i = j

/-- No two bindings have one id. -/
def UnionIdsDistinct (s : ImportStore) : Prop :=
  ∀ i j b c, s.dingtalkBindings.find? i = some b → s.dingtalkBindings.find? j = some c →
    b.dingtalkUnionId = c.dingtalkUnionId → i = j

/-- What the indexes, the foreign key and the sequences of the database keep. -/
structure Sound (n : Nat) (s : ImportStore) : Prop where
  phones : PhonesDistinct s
  unionIds : UnionIdsDistinct s
  users : s.users.Below n
  bindings : s.dingtalkBindings.Below n
  logs : s.operationLogs.Below n
  owners : ∀ i b, s.dingtalkBindings.find? i = some b → (s.users.find? b.userId).isSome = true

section Sound

variable {n : Nat} {s : ImportStore}

theorem phoneTaken_eq_true : phoneTaken s phone = true ↔ PhoneLive s phone := by
  unfold phoneTaken PhoneLive
  rw [Bool.not_eq_true', ← Bool.not_eq_true, List.isEmpty_iff]
  constructor
  · intro h
    obtain ⟨⟨i, u⟩, hu⟩ := List.exists_mem_of_ne_nil _ h
    obtain ⟨hfind, hp⟩ := Table.mem_select.mp hu
    rw [Bool.and_eq_true, beq_iff_eq] at hp
    exact ⟨i, u, hfind, hp.2, hp.1⟩
  · intro h hempty
    rcases h with ⟨i, u, hfind, hlive, hphone⟩
    have hmem : (i, u) ∈ s.users.select fun _ u => u.phone == phone && isLive u :=
      Table.mem_select.mpr ⟨hfind, by simp [hphone, hlive]⟩
    rw [hempty] at hmem
    cases hmem

theorem unionIdTaken_eq_true : unionIdTaken s unionId = true ↔ UnionIdBound s unionId := by
  unfold unionIdTaken UnionIdBound
  rw [Bool.not_eq_true', ← Bool.not_eq_true, List.isEmpty_iff]
  constructor
  · intro h
    obtain ⟨⟨i, b⟩, hb⟩ := List.exists_mem_of_ne_nil _ h
    obtain ⟨hfind, hp⟩ := Table.mem_select.mp hb
    exact ⟨i, b, hfind, beq_iff_eq.mp hp⟩
  · intro h hempty
    rcases h with ⟨i, b, hfind, hid⟩
    have hmem : (i, b) ∈ s.dingtalkBindings.select fun _ b => b.dingtalkUnionId == unionId :=
      Table.mem_select.mpr ⟨hfind, by simp [hid]⟩
    rw [hempty] at hmem
    cases hmem

theorem Sound.not_userBound (h : Sound n s) {userId : Nat} (hnew : s.users.find? userId = none) :
    userBound s userId = false := by
  unfold userBound
  rw [Bool.not_eq_false', List.isEmpty_iff, List.eq_nil_iff_forall_not_mem]
  intro x hx
  obtain ⟨hfind, hp⟩ := Table.mem_select.mp hx
  rw [Bool.and_eq_true, beq_iff_eq] at hp
  have howner := h.owners x.1 x.2 hfind
  rw [hp.1, hnew] at howner
  cases howner

theorem Sound.insertUser (h : Sound n s) {u : User} (hphone : ¬ PhoneLive s u.phone) :
    Sound (n + 1) { s with users := s.users.insert n u } where
  phones := by
    intro i j v w hv hw hlive hlive' hsame
    dsimp only at hv hw
    rw [Table.find?_insert] at hv hw
    by_cases hi : i = n
    · by_cases hj : j = n
      · rw [hi, hj]
      · rw [if_pos hi] at hv
        rw [if_neg hj] at hw
        cases hv
        exact absurd ⟨j, w, hw, hlive', hsame.symm⟩ hphone
    · rw [if_neg hi] at hv
      by_cases hj : j = n
      · rw [if_pos hj] at hw
        cases hw
        exact absurd ⟨i, v, hv, hlive, hsame⟩ hphone
      · rw [if_neg hj] at hw
        exact h.phones i j v w hv hw hlive hlive' hsame
  unionIds := h.unionIds
  users := h.users.insert_succ u
  bindings := h.bindings.mono (Nat.le_succ n)
  logs := h.logs.mono (Nat.le_succ n)
  owners := by
    intro i b hb
    show ((s.users.insert n u).find? b.userId).isSome = true
    rw [Table.find?_insert]
    split
    · rfl
    · exact h.owners i b hb

theorem Sound.insertBinding (h : Sound n s) (hid : ¬ UnionIdBound s b.dingtalkUnionId)
    (howner : (s.users.find? b.userId).isSome = true) :
    Sound (n + 1) { s with dingtalkBindings := s.dingtalkBindings.insert n b } where
  phones := h.phones
  unionIds := by
    intro i j c d hc hd hsame
    dsimp only at hc hd
    rw [Table.find?_insert] at hc hd
    by_cases hi : i = n
    · by_cases hj : j = n
      · rw [hi, hj]
      · rw [if_pos hi] at hc
        rw [if_neg hj] at hd
        cases hc
        exact absurd ⟨j, d, hd, hsame.symm⟩ hid
    · rw [if_neg hi] at hc
      by_cases hj : j = n
      · rw [if_pos hj] at hd
        cases hd
        exact absurd ⟨i, c, hc, hsame⟩ hid
      · rw [if_neg hj] at hd
        exact h.unionIds i j c d hc hd hsame
  users := h.users.mono (Nat.le_succ n)
  bindings := h.bindings.insert_succ b
  logs := h.logs.mono (Nat.le_succ n)
  owners := by
    intro i c hc
    dsimp only at hc
    rw [Table.find?_insert] at hc
    split at hc
    · cases hc
      exact howner
    · exact h.owners i c hc

theorem Sound.insertLog (h : Sound n s) (row : OperationLog ImportReply) :
    Sound (n + 1) { s with operationLogs := s.operationLogs.insert n row } where
  phones := h.phones
  unionIds := h.unionIds
  users := h.users.mono (Nat.le_succ n)
  bindings := h.bindings.mono (Nat.le_succ n)
  logs := h.logs.insert_succ row
  owners := h.owners

end Sound

section Keeps

variable {n : Nat} {s : ImportStore} {passwordHash : String}

theorem firstViolated_nil {checks : List (Bool × Failure)}
    (h : Txn.firstViolated checks = none) : ∀ check ∈ checks, check.1 = false := by
  intro check hcheck
  unfold Txn.firstViolated at h
  rw [Option.map_eq_none_iff, List.find?_eq_none] at h
  exact Bool.eq_false_iff.mpr (h check hcheck)

theorem safe_importMember (h : Sound n s) (member : ImportableMember) :
    (importMember passwordHash member).safe (fun _ n s => Sound n s) n s := by
  apply Txn.safe_bind (R := fun id n s => Sound n s ∧ (s.users.find? id).isSome = true)
  · apply Txn.safe_create
    intro hchecks
    have hphone := firstViolated_nil hchecks _ List.mem_cons_self
    constructor
    · apply h.insertUser
      rw [← phoneTaken_eq_true]
      exact Bool.eq_false_iff.mp hphone
    · show ((s.users.insert n _).find? n).isSome = true
      rw [Table.find?_insert_self]
      rfl
  · intro id n s h
    rcases h with ⟨h, howner⟩
    apply Txn.safe_bind (R := fun _ n s => Sound n s)
    · apply Txn.safe_create
      intro hchecks
      have hid := firstViolated_nil hchecks _ List.mem_cons_self
      apply h.insertBinding _ howner
      rw [← unionIdTaken_eq_true]
      exact Bool.eq_false_iff.mp hid
    · intro _ n s h
      exact h

theorem preserves_importRun (members : List ImportableMember) :
    (importRun passwordHash members).Preserves Sound := by
  apply (Txn.preserves_query _).bind
  intro failures
  apply (Txn.preserves_guard _ _).bind
  intro _
  refine Txn.Preserves.bind ?_ fun userIds => Txn.preserves_pure _
  intro n s h
  exact Txn.wp_mapM (fun _ _ n s => Sound n s)
    (fun member _ _ n s h => safe_importMember h member) h

theorem readOnly_loadOperationLogOperator (env : ImportEnvironment) (operatorId : Nat) :
    (loadOperationLogOperator env operatorId).ReadOnly := by
  apply (Txn.readOnly_query _).bind
  intro found
  exact (Txn.readOnly_orThrow _ _).bind fun operator => Txn.readOnly_pure _

theorem readOnly_replayedBefore (o : IdempotentOptions) : (replayedBefore o).ReadOnly := by
  unfold replayedBefore
  cases o.key with
  | none => exact Txn.readOnly_pure none
  | some key => exact readOnly_tryReplayIdempotentResult importLog o key

theorem sound_importUsers {env : ImportEnvironment} {operatorId : Nat}
    {dto : ImportDingtalkUsers} (h : Sound n s) {reply : ImportReply} {n' : Nat}
    {s' : ImportStore} (hok : importUsers env operatorId dto n s = .ok (reply, n', s')) :
    Sound n' s' := by
  unfold importUsers at hok
  split at hok
  · cases hok
  · split at hok
    · cases hok
    · rename_i operator n₁ s₁ hoperator
      obtain ⟨rfl, rfl⟩ :=
        Txn.wp_of_run_ok (readOnly_loadOperationLogOperator env operatorId n s) hoperator
      split at hok
      · cases hok
      · rename_i reply' n₂ s₂ hreplayed
        obtain ⟨rfl, rfl⟩ := Txn.wp_of_run_ok (readOnly_replayedBefore _ _ _) hreplayed
        cases hok
        exact h
      · rename_i n₂ s₂ hreplayed
        obtain ⟨rfl, rfl⟩ := Txn.wp_of_run_ok (readOnly_replayedBefore _ _ _) hreplayed
        split at hok
        · cases hok
        · rename_i passwordHash members _
          unfold concurrentlyOccupied at hok
          split at hok
          · cases hok
          · have hrecover := readOnly_replayAfterConflict importLog (options env operator dto)
            rcases Call.exec_ok_cases hrecover hok with hmain | hsame
            · have himport : (importRun passwordHash members).Preserves Sound :=
                preserves_importRun members
              have hkeeps := preserves_executeIdempotentOperation importLog
                (fun _ _ row hs => Sound.insertLog hs row) (options env operator dto) himport
              exact Txn.wp_of_run_ok (hkeeps _ _ h) hmain
            · rw [hsame.1, hsame.2]
              exact h

end Keeps

/-! ## When an import goes through -/

/-- What is still to be imported has numbers and ids of its own. -/
structure Pending (logs : Table (OperationLog ImportReply)) (rest : List ImportableMember)
    (n : Nat) (s : ImportStore) : Prop where
  sound : Sound n s
  free : ∀ member ∈ rest, Free s member.unionId member.phone
  phones : (rest.map (·.phone)).Nodup
  unionIds : (rest.map (·.unionId)).Nodup
  logs : s.operationLogs = logs

section Pending

variable {logs : Table (OperationLog ImportReply)} {n : Nat} {s : ImportStore}

theorem phoneLive_insertUser {u : User}
    (h : PhoneLive { s with users := s.users.insert n u } phone) :
    PhoneLive s phone ∨ phone = u.phone := by
  rcases h with ⟨i, v, hfind, hlive, hphone⟩
  dsimp only at hfind
  rw [Table.find?_insert] at hfind
  split at hfind
  · cases hfind
    exact .inr hphone.symm
  · exact .inl ⟨i, v, hfind, hlive, hphone⟩

theorem unionIdBound_insertBinding
    (h : UnionIdBound { s with dingtalkBindings := s.dingtalkBindings.insert n b } unionId) :
    UnionIdBound s unionId ∨ unionId = b.dingtalkUnionId := by
  rcases h with ⟨i, c, hfind, hid⟩
  dsimp only at hfind
  rw [Table.find?_insert] at hfind
  split at hfind
  · cases hfind
    exact .inr hid.symm
  · exact .inl ⟨i, c, hfind, hid⟩

variable {passwordHash : String}

variable {o : IdempotentOptions} {E : Failure → Prop}

theorem wp_importMember {rest : List ImportableMember} (h : Pending logs (member :: rest) n s) :
    (importMember passwordHash member).wp (fun _ n s => Pending logs rest n s) E n s := by
  have hfree := h.free member List.mem_cons_self
  have hphones := h.phones
  have hids := h.unionIds
  rw [List.map_cons, List.nodup_cons] at hphones hids
  have huser := h.sound.insertUser (u := newUser member passwordHash) hfree.phone
  have hnoPhone : phoneTaken s member.phone = false := by
    rw [← Bool.not_eq_true, phoneTaken_eq_true]
    exact hfree.phone
  have hnoId : unionIdTaken { s with users := s.users.insert n (newUser member passwordHash) }
      member.unionId = false := by
    rw [← Bool.not_eq_true, unionIdTaken_eq_true]
    exact hfree.unionId
  have hnoBinding : userBound { s with users := s.users.insert n (newUser member passwordHash) }
      n = false := h.sound.not_userBound (h.sound.users.find?_none (Nat.le_refl n))
  unfold importMember
  rw [Txn.wp_bind]
  apply Txn.wp_create
  · simp [Txn.firstViolated, hnoPhone]
  · rw [Txn.wp_bind]
    apply Txn.wp_create
    · simp [Txn.firstViolated, hnoId, hnoBinding]
    · rw [Txn.wp_pure]
      constructor
      · apply huser.insertBinding (b := ⟨n, member.unionId, true⟩) hfree.unionId
        show ((s.users.insert n _).find? n).isSome = true
        rw [Table.find?_insert_self]
        rfl
      · intro other hother
        have hfree' := h.free other (List.mem_cons_of_mem _ hother)
        constructor
        · intro hbound
          rcases unionIdBound_insertBinding hbound with hbound | heq
          · exact hfree'.unionId hbound
          · have heq : other.unionId = member.unionId := heq
            exact hids.1 (heq ▸ List.mem_map_of_mem hother)
        · intro hlive
          rcases phoneLive_insertUser hlive with hlive | heq
          · exact hfree'.phone hlive
          · have heq : other.phone = member.phone := heq
            exact hphones.1 (heq ▸ List.mem_map_of_mem hother)
      · exact hphones.2
      · exact hids.2
      · exact h.logs

theorem wp_importRun {members : List ImportableMember} (h : Pending logs members n s) :
    (importRun passwordHash members).wp (fun _ n s => Sound n s ∧ s.operationLogs = logs) E n s := by
  have hfree : databaseConflicts s members = [] := databaseConflicts_eq_nil.mpr h.free
  unfold importRun
  rw [Txn.wp_bind, Txn.wp_query, Txn.wp_bind, Txn.wp_guard, hfree]
  refine ⟨fun _ => ?_, fun hno => by cases hno⟩
  rw [Txn.wp_bind]
  refine Txn.wp_mono (Txn.wp_mapM (fun rest _ n s => Pending logs rest n s)
    (fun member rest _ n s h => wp_importMember h) h) ?_
  intro userIds n s h
  exact ⟨h.sound, h.logs⟩

theorem run_commit_isOk {members : List ImportableMember} (h : Pending s.operationLogs members n s)
    (hunused : ∀ key, o.key = some key →
      importLog.record? s o.operator.id o.scope key = none) :
    ∃ r, (commitIdempotentOperation importLog o (importRun passwordHash members)).run n s =
      .ok r := by
  have hwp : (commitIdempotentOperation importLog o (importRun passwordHash members)).wp
      (fun _ _ _ => True) (fun _ => False) n s := by
    unfold commitIdempotentOperation
    rw [Txn.wp_bind]
    refine Txn.wp_mono (wp_importRun h) ?_
    intro outcome n' s' hrun
    have hnone : ∀ key, o.key = some key →
        importLog.record? s' o.operator.id o.scope key = none := by
      intro key hkey
      rw [← hunused key hkey]
      show _ = LogTable.record? importLog s o.operator.id o.scope key
      unfold LogTable.record?
      rw [show importLog.get s' = importLog.get s from hrun.2]
    rw [Txn.wp_bind]
    apply Txn.wp_create
    · cases hkey : o.key with
      | none => simp [Txn.firstViolated]
      | some key => simp [Txn.firstViolated, hnone key hkey]
    · trivial
  obtain ⟨a, n', s', hrun, -⟩ := Txn.run_ok_of_wp hwp
  exact ⟨_, hrun⟩

theorem exec_isOk_iff {ids : List String} {members : List ImportableMember} (h : Sound n s)
    (hphones : (members.map (·.phone)).Nodup) (hids : (members.map (·.unionId)).Nodup)
    (hunused : ∀ key, o.key = some key →
      importLog.record? s o.operator.id o.scope key = none) :
    (∃ r, concurrentlyOccupied ids ((executeIdempotentOperation importLog o
      (importRun passwordHash members)).exec n s) = .ok r) ↔
      ∀ member ∈ members, Free s member.unionId member.phone := by
  have hmain : (executeIdempotentOperation importLog o (importRun passwordHash members)).main.run
      n s = (commitIdempotentOperation importLog o (importRun passwordHash members)).run n s := by
    rw [executeIdempotentOperation_main]
    cases hkey : o.key with
    | none => simp [replayOr, hkey]
    | some key => rw [run_replayOr hkey, hunused key hkey]
  constructor
  · intro hok
    by_contra hnot
    have hconflicts : (databaseConflicts s members).isEmpty = false := by
      rw [← Bool.not_eq_true, List.isEmpty_iff, databaseConflicts_eq_nil]
      exact hnot
    have herror : (commitIdempotentOperation importLog o (importRun passwordHash members)).run n s =
        .error (batchBlocked (databaseConflicts s members)) := by
      unfold commitIdempotentOperation importRun
      simp only [Txn.run_bind, Txn.run_query, Txn.run_guard, hconflicts, Bool.false_eq_true,
        if_false]
    obtain ⟨r, hr⟩ := hok
    unfold Call.exec at hr
    rw [hmain, herror] at hr
    have hnoRecovery : (executeIdempotentOperation importLog o
        (importRun passwordHash members)).recover (batchBlocked (databaseConflicts s members)) =
          none := by
      unfold executeIdempotentOperation replayAfterConflict batchBlocked
      dsimp only
      split
      · rename_i hviolation
        cases hviolation
      · rfl
    simp only [hnoRecovery] at hr
    cases hr
  · intro hfree
    obtain ⟨r, hr⟩ : ∃ r, (commitIdempotentOperation importLog o
        (importRun passwordHash members)).run n s = .ok r :=
      run_commit_isOk ⟨h, hfree, hphones, hids, rfl⟩ hunused
    refine ⟨r, ?_⟩
    unfold Call.exec
    rw [hmain, hr]
    rfl

end Pending

/-! ## Batches that the list and the import judge alike -/

/-- A request that is checked against the directory: its operator is there, the import is
configured, the snapshot is the operator's, the directory can be read, the key is not used, and
the batch is not too large. -/
structure Ready (env : ImportEnvironment) (operatorId : Nat) (dto : ImportDingtalkUsers)
    (pages : List ListedMember) (s : ImportStore) : Prop where
  operator : ∃ u, s.users.find? operatorId = some u ∧ u.deletedAt = none
  configured : ∃ password, env.defaultPassword = some password
  snapshot : env.hasSnapshot dto.snapshotId = true
  directory : env.directory = some pages
  unused : ∀ key, dto.idempotencyKey.filter (· ≠ "") = some key →
    importLog.record? s operatorId idempotencyScope key = none
  batch : dto.unionIds.length ≤ batchLimit

/-- A batch that leaves out no member of the directory with the number of a selected one, with
ids of a length that the platform takes. -/
structure Complete (members : List DirectoryMember) (unionIds : List String) : Prop where
  sharers : ∀ a ∈ members, ∀ b ∈ members, ∀ phone, a.unionId ∈ unionIds →
    a.phone = some phone → b.phone = some phone → b.unionId ∈ unionIds
  short : ∀ id ∈ unionIds, codeUnits id ≤ unionIdMaxLength

theorem selected_iff (hmembers : (members.map (·.unionId)).Nodup) :
    Selected (id, resolve members id) member ↔
      ∃ m ∈ members, ∃ phone, m.unionId = id ∧ Fits m phone ∧
        member = ⟨id, trim m.name, phone⟩ := by
  unfold Selected
  constructor
  · intro h
    rcases h with ⟨m, phone, hresolve, hfits, hmember⟩
    obtain ⟨hm, hid⟩ := (resolve_eq_some_iff hmembers).mp hresolve
    exact ⟨m, hm, phone, hid, hfits, hmember⟩
  · intro h
    rcases h with ⟨m, hm, phone, hid, hfits, hmember⟩
    exact ⟨m, phone, (resolve_eq_some_iff hmembers).mpr ⟨hm, hid⟩, hfits, hmember⟩

theorem validateSelectedMembers_ok (hbatch : unionIds.length ≤ batchLimit)
    {imported : List ImportableMember} :
    validateSelectedMembers (unionIds.map fun id => (id, resolve members id)) = .ok imported ↔
      List.Forall₂ (fun id member => Selected (id, resolve members id) member) unionIds imported ∧
        (imported.map (·.phone)).Nodup := by
  have hchecked : checkMembers [] (unionIds.map fun id => (id, resolve members id)) =
      ([], imported) ↔ _ := checkMembers_ok
  rw [List.forall₂_map_left_iff] at hchecked
  have hlimit : ¬ batchLimit < (unionIds.map fun id => (id, resolve members id)).length := by
    rw [List.length_map]
    exact Nat.not_lt.mpr hbatch
  unfold validateSelectedMembers
  rw [if_neg hlimit]
  constructor
  · intro h
    split at h
    · rename_i found heq
      cases h
      obtain ⟨hselected, -, hphones⟩ := hchecked.mp heq
      exact ⟨hselected, hphones⟩
    · cases h
  · intro h
    have heq := hchecked.mpr ⟨h.1, fun _ _ => List.not_mem_nil, h.2⟩
    rw [heq]

/-- The members of a batch are all importable exactly when the checks of the import let them
through and the database has none of them. -/
theorem all_importable_iff (hmembers : (members.map (·.unionId)).Nodup) (hids : unionIds.Nodup)
    (hne : "" ∉ unionIds) (hbatch : unionIds.length ≤ batchLimit)
    (hcomplete : Complete members unionIds) :
    (∀ id ∈ unionIds, ∃ view ∈ toCandidateViews compareViews s members,
        view.unionId = id ∧ view.importable = true) ↔
      ∃ imported, validateSelectedMembers
          (unionIds.map fun id => (id, resolve members id)) = .ok imported ∧
        ∀ member ∈ imported, Free s member.unionId member.phone := by
  have hnodup : members.Nodup := List.Nodup.of_map _ hmembers
  constructor
  · intro h
    have hview : ∀ id ∈ unionIds, ∃ m ∈ members, m.unionId = id ∧ ∃ phone, Fits m phone ∧
        (members.filterMap DirectoryMember.phone).count phone ≤ 1 ∧ Free s id phone := by
      intro id hid
      obtain ⟨m, hm, hmid, -, -, hphone⟩ := exists_importable_view.mp (h id hid)
      exact ⟨m, hm, hmid, hphone⟩
    have hselected : ∀ id ∈ unionIds, ∃ member, Selected (id, resolve members id) member := by
      intro id hid
      obtain ⟨m, hm, hmid, phone, hfits, -⟩ := hview id hid
      exact ⟨_, (selected_iff hmembers).mpr ⟨m, hm, phone, hmid, hfits, rfl⟩⟩
    obtain ⟨imported, himported⟩ := exists_forall₂ hselected
    refine ⟨imported, (validateSelectedMembers_ok hbatch).mpr ⟨himported, ?_⟩, ?_⟩
    · apply nodup_map_of_forall₂ himported hids
      intro a ha b _ c d hc hd hsame
      obtain ⟨m, hm, phone, hma, hfits, hceq⟩ := (selected_iff hmembers).mp hc
      obtain ⟨m', hm', phone', hmb, hfits', hdeq⟩ := (selected_iff hmembers).mp hd
      obtain ⟨m'', hm'', hma', phone'', hfits'', hcount, -⟩ := hview a ha
      have hmm : m'' = m := List.inj_on_of_nodup_map hmembers hm'' hm (hma'.trans hma.symm)
      rw [hceq, hdeq] at hsame
      have hphones : phone = phone' := hsame
      have hphone : phone'' = phone := by
        have heq := hfits''.phone
        rw [hmm, hfits.phone] at heq
        exact (Option.some.inj heq).symm
      rw [hphone] at hcount
      have honly := (count_filterMap_le_one hnodup DirectoryMember.phone phone).mp hcount
      have hsameMember := honly m hm m' hm' hfits.phone (hphones ▸ hfits'.phone)
      rw [← hma, ← hmb, hsameMember]
    · intro member hmember
      obtain ⟨id, hid, hsel⟩ := exists_mem_of_forall₂ himported.flip hmember
      obtain ⟨m, hm, phone, hmid, hfits, heq⟩ := (selected_iff hmembers).mp hsel
      obtain ⟨m', hm', hmid', phone', hfits', -, hfree⟩ := hview id hid
      have hmm : m' = m := List.inj_on_of_nodup_map hmembers hm' hm (hmid'.trans hmid.symm)
      have hphone : phone' = phone := by
        have heq' := hfits'.phone
        rw [hmm, hfits.phone] at heq'
        exact (Option.some.inj heq').symm
      rw [heq]
      exact hphone ▸ hfree
  · intro h id hid
    rcases h with ⟨imported, hvalid, hfree⟩
    obtain ⟨himported, hphones⟩ := (validateSelectedMembers_ok hbatch).mp hvalid
    obtain ⟨member, hmember, hsel⟩ := exists_mem_of_forall₂ himported hid
    obtain ⟨m, hm, phone, hmid, hfits, heq⟩ := (selected_iff hmembers).mp hsel
    apply exists_importable_view.mpr
    have hfree' := hfree member hmember
    rw [heq] at hfree'
    refine ⟨m, hm, hmid, fun hempty => hne (hempty ▸ hid), hcomplete.short id hid, phone, hfits,
      ?_, hfree'⟩
    rw [count_filterMap_le_one hnodup]
    -- a member with the number is selected too, and is imported with it
    have himport : ∀ a ∈ members, a.phone = some phone →
        ∃ other ∈ imported, other.unionId = a.unionId ∧ other.phone = phone := by
      intro a ha haphone
      have hain : a.unionId ∈ unionIds :=
        hcomplete.sharers m hm a ha phone (hmid ▸ hid) hfits.phone haphone
      obtain ⟨other, hother, hselOther⟩ := exists_mem_of_forall₂ himported hain
      obtain ⟨a', ha', phone', haid, hfits', heqOther⟩ := (selected_iff hmembers).mp hselOther
      have haa : a' = a := List.inj_on_of_nodup_map hmembers ha' ha haid
      have hphone : phone' = phone := by
        have heq' := hfits'.phone
        rw [haa, haphone] at heq'
        exact (Option.some.inj heq').symm
      exact ⟨other, hother, by rw [heqOther], by rw [heqOther, hphone]⟩
    intro a ha b hb haphone hbphone
    obtain ⟨x, hx, hxid, hxphone⟩ := himport a ha haphone
    obtain ⟨y, hy, hyid, hyphone⟩ := himport b hb hbphone
    have hxy : x = y := List.inj_on_of_nodup_map hphones hx hy (hxphone.trans hyphone.symm)
    apply List.inj_on_of_nodup_map hmembers ha hb
    rw [← hxid, ← hyid, hxy]

section Accepts

variable {env : ImportEnvironment} {operatorId : Nat} {dto : ImportDingtalkUsers}
  {pages : List ListedMember} {n : Nat} {s : ImportStore}

/-- A request that is ready is accepted when its ids are different, the checks let its members
through and the database has none of them. -/
theorem importUsers_ok_iff (h : Sound n s) (hready : Ready env operatorId dto pages s) :
    (∃ r, importUsers env operatorId dto n s = .ok r) ↔
      (dto.unionIds.map trim).Nodup ∧ "" ∉ dto.unionIds.map trim ∧
        ∃ imported, validateSelectedMembers ((dto.unionIds.map trim).map fun id =>
            (id, resolve (listDirectoryMembers pages) id)) = .ok imported ∧
          ∀ member ∈ imported, Free s member.unionId member.phone := by
  obtain ⟨u, hu, hlive⟩ := hready.operator
  obtain ⟨password, hpassword⟩ := hready.configured
  have hoperator : (loadOperationLogOperator env operatorId).run n s =
      .ok (⟨operatorId, u.name, (env.departmentsOf operatorId).getD []⟩, n, s) := by
    unfold loadOperationLogOperator
    simp only [Txn.run_bind, Txn.run_query, Txn.run_orThrow, hu, Option.filter_some, hlive,
      Option.isNone_none, if_true, Option.elim_some]
    rfl
  have hreplayed : ∀ operator : OperationLogOperator, operator.id = operatorId →
      (replayedBefore (options env operator dto)).run n s = .ok (none, n, s) := by
    intro operator hid
    unfold replayedBefore
    cases hkey : (options env operator dto).key with
    | none => rfl
    | some key =>
        have hnone : importLog.record? s (options env operator dto).operator.id
            (options env operator dto).scope key = none := by
          show importLog.record? s operator.id idempotencyScope key = none
          rw [hid]
          exact hready.unused key hkey
        simp only [tryReplayIdempotentResult, findIdempotencyRecord, Txn.run_bind, Txn.run_query,
          hnone]
        rfl
  have hselect : selectMembers env dto =
      (validateSelectedMembers ((dto.unionIds.map trim).map fun id =>
        (id, resolve (listDirectoryMembers pages) id))).map
          fun members => (env.passwordHash password, members) := by
    unfold selectMembers
    simp only [hpassword, hready.snapshot, Bool.not_true, Bool.false_eq_true, if_false,
      hready.directory]
  have hlength : (dto.unionIds.map trim).length ≤ batchLimit := by
    rw [List.length_map]
    exact hready.batch
  unfold importUsers
  by_cases hdup : duplicatedIds (dto.unionIds.map trim) = true
  · rw [if_pos hdup]
    refine iff_of_false (fun hok => by obtain ⟨r, hr⟩ := hok; cases hr) ?_
    intro hno
    simp only [duplicatedIds, Bool.or_eq_true, List.contains_iff_mem] at hdup
    rcases hdup with hempty | hnodup
    · exact hno.2.1 hempty
    · simp [hno.1] at hnodup
  · rw [if_neg hdup]
    simp only [duplicatedIds, Bool.or_eq_true, List.contains_iff_mem, Bool.not_eq_true',
      decide_eq_false_iff_not, not_or, not_not] at hdup
    have hnot := hreplayed ⟨operatorId, u.name, (env.departmentsOf operatorId).getD []⟩ rfl
    simp only [hoperator, hnot, hselect]
    cases hvalid : validateSelectedMembers ((dto.unionIds.map trim).map fun id =>
        (id, resolve (listDirectoryMembers pages) id)) with
    | error e =>
        refine iff_of_false (fun hok => by obtain ⟨r, hr⟩ := hok; cases hr) ?_
        intro hno
        obtain ⟨-, -, imported, himported, -⟩ := hno
        cases himported
    | ok imported =>
        obtain ⟨himported, hphones⟩ := (validateSelectedMembers_ok hlength).mp hvalid
        have hids : (imported.map (·.unionId)).Nodup := by
          apply nodup_map_of_forall₂ himported hdup.2
          intro a _ b _ c d hc hd hsame
          obtain ⟨_, _, _, _, hceq⟩ := hc
          obtain ⟨_, _, _, _, hdeq⟩ := hd
          rw [hceq, hdeq] at hsame
          exact hsame
        refine Iff.trans (exec_isOk_iff
          (o := options env ⟨operatorId, u.name, (env.departmentsOf operatorId).getD []⟩ dto)
          h hphones hids hready.unused) ?_
        constructor
        · intro hfree
          exact ⟨hdup.2, hdup.1, imported, rfl, hfree⟩
        · intro hall
          obtain ⟨-, -, imported', heq, hfree⟩ := hall
          cases heq
          exact hfree

/-- A complete batch is imported exactly when the list shows each of its members as importable;
after an import no two live accounts have one number, and no two bindings one id. -/
theorem importUsers_accepts_iff {compareViews : CandidateView → CandidateView → Ordering}
    (h : Sound n s) (hready : Ready env operatorId dto pages s) :
    (Complete (listDirectoryMembers pages) (dto.unionIds.map trim) →
      ((∃ r, importUsers env operatorId dto n s = .ok r) ↔
        (dto.unionIds.map trim).Nodup ∧ ∀ id ∈ dto.unionIds.map trim,
          ∃ view ∈ toCandidateViews compareViews s (listDirectoryMembers pages),
            view.unionId = id ∧ view.importable = true)) ∧
      ∀ reply n' s', importUsers env operatorId dto n s = .ok (reply, n', s') →
        PhonesDistinct s' ∧ UnionIdsDistinct s' := by
  have hmembers := listDirectoryMembers_nodup pages
  have hlength : (dto.unionIds.map trim).length ≤ batchLimit := by
    rw [List.length_map]
    exact hready.batch
  constructor
  · intro hcomplete
    rw [importUsers_ok_iff h hready]
    constructor
    · intro hall
      obtain ⟨hids, hne, himported⟩ := hall
      exact ⟨hids, (all_importable_iff hmembers hids hne hlength hcomplete).mpr himported⟩
    · intro hall
      obtain ⟨hids, hviews⟩ := hall
      have hne : "" ∉ dto.unionIds.map trim := by
        intro hempty
        obtain ⟨_, _, _, hid, -⟩ := exists_importable_view.mp (hviews "" hempty)
        exact hid rfl
      exact ⟨hids, hne, (all_importable_iff hmembers hids hne hlength hcomplete).mp hviews⟩
  · intro reply n' s' hok
    have hsound := sound_importUsers h hok
    exact ⟨hsound.phones, hsound.unionIds⟩

end Accepts

section Example

/-- A platform with one account. -/
def oneUserStore : ImportStore where
  users := Table.empty.insert 0 ⟨"管理员", "+8613800000000", some "h", .active, false, 0, 0, 0, none⟩
  dingtalkBindings := Table.empty
  operationLogs := Table.empty

def pageMember (id name mobile : String) : ListedMember :=
  ⟨some id, some name, some mobile, some "86", true⟩

def samplePages : List ListedMember :=
  [pageMember "u1" "张三" "13900000001", pageMember "u2" "李四" "13900000002"]

def sampleEnvironment (pages : List ListedMember) : ImportEnvironment where
  departmentsOf := fun _ => none
  fingerprintPayload := fun _ => "f"
  defaultPassword := some "p"
  hasSnapshot := fun _ => true
  directory := some pages
  passwordHash := fun password => password

def sampleRequest (unionIds : List String) : ImportDingtalkUsers := ⟨"snapshot", unionIds, none⟩

def compareIds (a b : CandidateView) : Ordering := compare a.unionId b.unionId

theorem sound_oneUserStore : Sound 1 oneUserStore where
  phones := by
    intro i j u v hu hv _ _ _
    simp only [oneUserStore, Table.find?_insert, Table.find?_empty] at hu hv
    split at hu
    · split at hv
      · rename_i hi hj
        rw [hi, hj]
      · cases hv
    · cases hu
  unionIds := by
    intro i j b c hb
    cases hb
  users := Table.below_empty 0 |>.insert_succ _
  bindings := Table.below_empty 1
  logs := Table.below_empty 1
  owners := by
    intro i b hb
    cases hb

theorem importUsers_accepts_iff_samplePages :
    ((∃ r, importUsers (sampleEnvironment samplePages) 0 (sampleRequest ["u1"]) 1 oneUserStore =
        .ok r) ↔
      (["u1"].map trim).Nodup ∧ ∀ id ∈ ["u1"].map trim,
        ∃ view ∈ toCandidateViews compareIds oneUserStore (listDirectoryMembers samplePages),
          view.unionId = id ∧ view.importable = true) := by
  have hready : Ready (sampleEnvironment samplePages) 0 (sampleRequest ["u1"]) samplePages
      oneUserStore :=
    ⟨⟨_, Table.find?_insert_self _ _ _, rfl⟩, ⟨"p", rfl⟩, rfl, rfl,
      fun key hkey => (by cases hkey), by decide⟩
  have hsharers : ∀ a ∈ listDirectoryMembers samplePages, ∀ b ∈ listDirectoryMembers samplePages,
      a.phone = b.phone → a = b := by decide +kernel
  refine (importUsers_accepts_iff sound_oneUserStore hready).1 ⟨?_, by decide +kernel⟩
  intro a ha b hb phone hin haphone hbphone
  rw [← hsharers a ha b hb (haphone.trans hbphone.symm)]
  exact hin

/-- The platform with an account that is retired. -/
def retiredStore : ImportStore :=
  { oneUserStore with
    users := oneUserStore.users.insert 1
      ⟨"王五", "+8613900000001", some "h", .deactivated, false, 0, 0, 0, none⟩ }

def sharedPages : List ListedMember :=
  [pageMember "u1" "张三" "13900000001", pageMember "u2" "李四" "13900000001"]

/-- The number of a retired account is given to a member, and of two members with one number one
is imported although the list shows neither as importable. -/
theorem number_of_retired_account_and_half_a_pair_imported :
    ((importUsers (sampleEnvironment samplePages) 0 (sampleRequest ["u1"]) 2 retiredStore).toOption.map
        fun r => r.2.2.users.rows.map (·.2.phone)) =
      some ["+8613800000000", "+8613900000001", "+8613900000001"] ∧
    (importUsers (sampleEnvironment sharedPages) 0 (sampleRequest ["u1"]) 1 oneUserStore).isOk =
      true ∧
    (toCandidateViews compareIds oneUserStore (listDirectoryMembers sharedPages)).map
        (fun view => (view.unionId, view.importable)) = [("u1", false), ("u2", false)] := by
  refine ⟨?_, ?_, ?_⟩ <;> decide +kernel

end Example

end Wbme.Backstage.DingtalkImport
