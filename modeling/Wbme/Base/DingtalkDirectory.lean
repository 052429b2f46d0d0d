import Wbme.Fin.Fields
import Mathlib.Data.List.Dedup
import Mathlib.Tactic.Ring

/-! # The DingTalk directory

The departments are asked for one after the other from the root on, then each of them for its
members, page by page. The remote may answer anything at any call.
-/

namespace Wbme.Base.Dingtalk

/-! ## Requests and answers -/

inductive GatewayFailure where
  | unavailable (message : String)
  /-- A method of a value that does not have it. -/
  | typeError

inductive Request where
  | listsubid (deptId : Int)
  | userList (deptId cursor : Int)

def Request.deptId : Request → Int
  | .listsubid deptId => deptId
  | .userList deptId _ => deptId

/-- The payload of a response, or what `requestLegacy` throws. -/
abbrev Answer := Except GatewayFailure Json

structure Exchange where
  request : Request
  answer : Answer

def rootDepartmentId : Int := 1

def maxDepartments : Nat := 10000

def maxPagesPerDepartment : Nat := 10000

def member? (value : Json) (name : String) : Option Json :=
  match value with
  | .obj fields => Json.field? fields name
  | _ => none

/-! ## The tree of departments -/

def childIds (answer : Answer) : Except GatewayFailure (List Json) := do
  let payload ← answer
  match (member? payload "result").bind fun result => member? result "dept_id_list" with
  | some (.arr ids) => .ok ids
  | _ => .error (.unavailable "钉钉子部门接口返回无效")

/-- The departments that are followed; -7 is the directory of schools and families. -/
def childDepartment : Json → Option Int
  | .num n => if 0 < n ∧ n ≠ rootDepartmentId ∧ n ≠ -7 then some n else none
  | _ => none

def children (answer : Answer) : List Int :=
  match childIds answer with
  | .ok ids => ids.filterMap childDepartment
  | .error _ => []

/-- The loop over the queue, with the departments seen so far and the number of calls: the
departments, and the exchanges that were made. -/
def listAllDepartmentIds (answers : Nat → Answer) (seen queue : List Int) (calls : Nat) :
    Except GatewayFailure (List Int) × List Exchange :=
  match queue with
  | [] => (.ok seen, [])
  | departmentId :: queue =>
      if departmentId ∈ seen then listAllDepartmentIds answers seen queue calls
      else if maxDepartments ≤ seen.length then
        (.error (.unavailable "钉钉部门数量超过可处理上限"), [])
      else
        match childIds (answers calls) with
        | .error e => (.error e, [⟨.listsubid departmentId, answers calls⟩])
        | .ok ids =>
            let found := ids.filterMap childDepartment
            let rest := listAllDepartmentIds answers (seen ++ [departmentId])
              (queue ++ found.filter (· ∉ seen ++ [departmentId])) (calls + 1)
            (rest.1, ⟨.listsubid departmentId, answers calls⟩ :: rest.2)
termination_by (maxDepartments - seen.length, queue.length)
decreasing_by
  · exact .right _ (by simp)
  · exact .left _ _ (by simp; omega)

/-! ## The members of a department -/

structure DirectoryMember where
  unionId : String
  name : String
  mobile : String
  stateCode : String
  active : Bool

def trimmed : Option Json → Except GatewayFailure String
  | none => .ok ""
  | some .null => .ok ""
  | some (.str text) => .ok (Fin.trim text)
  | some _ => .error .typeError

/-- A listed member, unless it has no union id. -/
def readMember (member : Json) : Except GatewayFailure (Option DirectoryMember) :=
  match member with
  | .null => .error .typeError
  | _ => do
      let unionId ← trimmed (member? member "unionid")
      if unionId = "" then pure none
      else do
        let name ← trimmed (member? member "name")
        let mobile ← trimmed (member? member "mobile")
        let stateCode ← trimmed (member? member "state_code")
        pure (some
          { unionId
            name := if name = "" then "未命名员工" else name
            mobile
            stateCode
            active := match member? member "active" with
              | some (.bool false) => false
              | some (.str "false") => false
              | _ => true })

structure Page where
  members : List DirectoryMember
  hasMore : Bool
  nextCursor : Option Int

def setMember : List DirectoryMember → DirectoryMember → List DirectoryMember
  | [], member => [member]
  | first :: members, member =>
      if first.unionId = member.unionId then member :: members
      else first :: setMember members member

section Members

-- the integer that `Number` makes of a value, if it is one
variable (number : Option Json → Option Int)

def readPage (answer : Answer) : Except GatewayFailure Page := do
  let payload ← answer
  let result := (member? payload "result").getD .null
  match member? result "list" with
  | some (.arr list) => do
      let members ← list.mapM readMember
      pure
        { members := members.reduceOption
          hasMore := match member? result "has_more" with
            | some (.bool true) => true
            | some (.str "true") => true
            | _ => false
          nextCursor := (number (member? result "next_cursor")).filter fun next => 0 ≤ next }
  | _ => .error (.unavailable "钉钉部门成员接口返回无效")

/-- The loop over the pages of a department, with the number of pages that are left. -/
def listPages (answers : Nat → Answer) (departmentId : Int) : Nat → Int → List Int →
    List DirectoryMember → Nat → Except GatewayFailure (List DirectoryMember) × List Exchange
  | 0, _, _, _, _ => (.error (.unavailable "钉钉部门成员分页超过可处理上限"), [])
  | pages + 1, cursor, visitedCursors, members, calls =>
      if cursor ∈ visitedCursors then (.error (.unavailable "钉钉部门成员分页游标重复"), [])
      else
        let exchange : Exchange := ⟨.userList departmentId cursor, answers calls⟩
        match readPage number (answers calls) with
        | .error e => (.error e, [exchange])
        | .ok page =>
            let members := page.members.foldl setMember members
            if !page.hasMore then (.ok members, [exchange])
            else
              match page.nextCursor with
              | none => (.error (.unavailable "钉钉部门成员分页游标无效"), [exchange])
              | some next =>
                  let rest := listPages answers departmentId pages next
                    (cursor :: visitedCursors) members (calls + 1)
                  (rest.1, exchange :: rest.2)

def listMembers (answers : Nat → Answer) : List Int → List DirectoryMember → Nat →
    Except GatewayFailure (List DirectoryMember) × List Exchange
  | [], members, _ => (.ok members, [])
  | departmentId :: departmentIds, members, calls =>
      match listPages number answers departmentId maxPagesPerDepartment 0 [] members calls with
      | (.error e, log) => (.error e, log)
      | (.ok members, log) =>
          let rest := listMembers answers departmentIds members (calls + log.length)
          (rest.1, log ++ rest.2)

def listDirectoryMembers (answers : Nat → Answer) :
    Except GatewayFailure (List DirectoryMember) × List Exchange :=
  match listAllDepartmentIds answers [] [rootDepartmentId] 0 with
  | (.error e, log) => (.error e, log)
  | (.ok departmentIds, log) =>
      let rest := listMembers number answers departmentIds [] log.length
      (rest.1, log ++ rest.2)

end Members

/-! ## What was reached -/

inductive Reachable (log : List Exchange) : Int → Prop where
  | root : Reachable log rootDepartmentId
  | child {d c : Int} {answer : Answer} (hd : Reachable log d)
      (hasked : ⟨.listsubid d, answer⟩ ∈ log) (hc : c ∈ children answer) : Reachable log c

theorem Reachable.mono {log log' : List Exchange} (hsub : log ⊆ log') {d : Int}
    (h : Reachable log d) : Reachable log' d := by
  induction h with
  | root => exact .root
  | child _ hasked hc ih => exact .child ih (hsub hasked) hc

/-- The walk through the tree, before its next department. -/
structure Walking (log : List Exchange) (seen queue : List Int) : Prop where
  nodup : seen.Nodup
  bound : seen.length ≤ maxDepartments
  asked : log.map (·.request) = seen.map .listsubid
  reached : ∀ d, d ∈ seen ∨ d ∈ queue → Reachable log d
  closed : ∀ e ∈ log, ∀ c ∈ children e.answer, c ∈ seen ∨ c ∈ queue
  root : rootDepartmentId ∈ seen ∨ rootDepartmentId ∈ queue

theorem walking_start : Walking [] [] [rootDepartmentId] where
  nodup := .nil
  bound := Nat.zero_le _
  asked := rfl
  reached d h := by
    rcases h with h | h
    · cases h
    · rw [List.mem_singleton.mp h]
      exact .root
  closed := nofun
  root := .inr List.mem_cons_self

section Walking

variable {log : List Exchange} {seen queue : List Int} {d : Int}

theorem Walking.skip (h : Walking log seen (d :: queue)) (hd : d ∈ seen) :
    Walking log seen queue where
  nodup := h.nodup
  bound := h.bound
  asked := h.asked
  reached c hc := h.reached c (hc.imp_right (List.mem_cons_of_mem d))
  closed e he c hc := by
    rcases h.closed e he c hc with hseen | hqueue
    · exact .inl hseen
    · rcases List.mem_cons.mp hqueue with heq | hqueue
      · exact .inl (heq ▸ hd)
      · exact .inr hqueue
  root := by
    rcases h.root with hseen | hqueue
    · exact .inl hseen
    · rcases List.mem_cons.mp hqueue with heq | hqueue
      · exact .inl (heq ▸ hd)
      · exact .inr hqueue

theorem Walking.visit (h : Walking log seen (d :: queue)) (hd : d ∉ seen)
    (hbound : seen.length < maxDepartments) {answer : Answer} {found : List Int}
    (hfound : children answer = found) :
    Walking (log ++ [⟨.listsubid d, answer⟩]) (seen ++ [d])
      (queue ++ found.filter (· ∉ seen ++ [d])) := by
  have hold : ∀ c, c ∈ seen ∨ c ∈ d :: queue →
      c ∈ seen ++ [d] ∨ c ∈ queue ++ found.filter (· ∉ seen ++ [d]) := by
    intro c hc
    simp only [List.mem_append, List.mem_cons] at hc ⊢
    tauto
  refine ⟨?_, by simp; omega, by simp [h.asked], ?_, ?_, hold _ h.root⟩
  · exact List.nodup_append.mpr ⟨h.nodup, List.nodup_singleton d, fun a ha b hb heq =>
      hd (List.mem_singleton.mp hb ▸ heq ▸ ha)⟩
  · intro c hc
    have hsub : log ⊆ log ++ [⟨.listsubid d, answer⟩] := List.subset_append_left _ _
    have hcase : (c ∈ seen ∨ c ∈ d :: queue) ∨ c ∈ found := by
      simp only [List.mem_append, List.mem_cons, List.mem_filter] at hc ⊢
      tauto
    rcases hcase with hc | hc
    · exact (h.reached c hc).mono hsub
    · exact .child ((h.reached d (.inr List.mem_cons_self)).mono hsub)
        (List.mem_append_right _ List.mem_cons_self) (hfound.symm ▸ hc)
  · intro e he c hc
    rcases List.mem_append.mp he with he | he
    · exact hold c (h.closed e he c hc)
    · rw [List.mem_singleton.mp he, hfound] at hc
      by_cases hseen : c ∈ seen ++ [d]
      · exact .inl hseen
      · exact .inr (List.mem_append_right _ (by simpa [hc] using hseen))

theorem Walking.done (h : Walking log seen []) (d : Int) : d ∈ seen ↔ Reachable log d := by
  constructor
  · exact fun hd => h.reached d (.inl hd)
  · intro hd
    induction hd with
    | root => exact h.root.resolve_right List.not_mem_nil
    | child _ hasked hc _ => exact (h.closed _ hasked _ hc).resolve_right List.not_mem_nil

end Walking

/-- The departments that were asked are distinct and bounded in number; a walk that comes to its
end has asked all that it reached. -/
structure TreeRead (outcome : Except GatewayFailure (List Int)) (log : List Exchange)
    (ids : List Int) : Prop where
  nodup : ids.Nodup
  bound : ids.length ≤ maxDepartments
  asked : log.map (·.request) = ids.map .listsubid
  found : ∀ found, outcome = .ok found → found = ids ∧ ∀ d, d ∈ ids ↔ Reachable log d

theorem treeRead (answers : Nat → Answer) (seen queue : List Int) (calls : Nat)
    (before : List Exchange) (h : Walking before seen queue) :
    ∃ ids, TreeRead (listAllDepartmentIds answers seen queue calls).1
      (before ++ (listAllDepartmentIds answers seen queue calls).2) ids := by
  fun_induction listAllDepartmentIds answers seen queue calls generalizing before with
  | case1 seen calls =>
      refine ⟨seen, h.nodup, h.bound, by simp [h.asked], fun found hfound => ?_⟩
      cases hfound
      exact ⟨rfl, by simpa using h.done⟩
  | case2 seen calls departmentId queue hseen ih => exact ih before (h.skip hseen)
  | case3 seen calls departmentId queue hseen hfull =>
      exact ⟨seen, h.nodup, h.bound, by simp [h.asked], nofun⟩
  | case4 seen calls departmentId queue hseen hfull e hids =>
      have hv := h.visit hseen (not_le.mp hfull) (rfl : children (answers calls) = _)
      exact ⟨_, hv.nodup, hv.bound, hv.asked, nofun⟩
  | case5 seen calls departmentId queue hseen hfull ids hids found rest ih =>
      have hfound : children (answers calls) = found := by simp [children, hids, found]
      have hv := h.visit hseen (not_le.mp hfull) hfound
      have hrest := ih _ hv
      rwa [List.append_assoc] at hrest

/-! ## What was listed -/

theorem unionIds_setMember (members : List DirectoryMember) (member : DirectoryMember) :
    (setMember members member).map (·.unionId) =
      if member.unionId ∈ members.map (·.unionId) then members.map (·.unionId)
      else members.map (·.unionId) ++ [member.unionId] := by
  induction members with
  | nil => rfl
  | cons first members ih =>
      by_cases hfirst : first.unionId = member.unionId
      · simp [setMember, hfirst]
      · rw [setMember, if_neg hfirst, List.map_cons, ih]
        by_cases hmem : member.unionId ∈ members.map (·.unionId)
        · simp only [if_pos hmem, List.map_cons, if_pos (List.mem_cons_of_mem _ hmem)]
        · rw [if_neg hmem, if_neg (by simpa [Ne.symm hfirst] using hmem)]
          rfl

section Members

variable (number : Option Json → Option Int)

def unionIds (answer : Answer) : List String :=
  match readPage number answer with
  | .ok page => page.members.map (·.unionId)
  | .error _ => []

inductive PagesFrom (d : Int) : Int → List Exchange → Prop where
  | last {cursor : Int} {answer : Answer} {page : Page} (hpage : readPage number answer = .ok page)
      (hlast : page.hasMore = false) : PagesFrom d cursor [⟨.userList d cursor, answer⟩]
  | more {cursor next : Int} {answer : Answer} {page : Page} {log : List Exchange}
      (hpage : readPage number answer = .ok page) (hmore : page.hasMore = true)
      (hnext : page.nextCursor = some next) (hrest : PagesFrom d next log) :
      PagesFrom d cursor (⟨.userList d cursor, answer⟩ :: log)

/-- The entries that exchanges add to others: one for every union id on a page. -/
structure Gathered (members : List DirectoryMember) (log : List Exchange)
    (all : List DirectoryMember) : Prop where
  once : (members.map (·.unionId)).Nodup → (all.map (·.unionId)).Nodup
  exact : ∀ u, u ∈ all.map (·.unionId) ↔
    u ∈ members.map (·.unionId) ∨ ∃ e ∈ log, u ∈ unionIds number e.answer

variable {number} {members all all' : List DirectoryMember} {log log' : List Exchange}

theorem gathered_nil : Gathered number members [] members := ⟨id, by simp⟩

theorem Gathered.append (h : Gathered number members log all)
    (h' : Gathered number all log' all') : Gathered number members (log ++ log') all' where
  once hmembers := h'.once (h.once hmembers)
  exact u := by
    rw [h'.exact, h.exact, or_assoc]
    simp only [List.mem_append, or_and_right, exists_or]

theorem gathered_page {request : Request} {answer : Answer} {page : Page}
    (hpage : readPage number answer = .ok page) :
    Gathered number members [⟨request, answer⟩] (page.members.foldl setMember members) := by
  have hids : unionIds number answer = page.members.map (·.unionId) := by simp [unionIds, hpage]
  suffices h : ((members.map (·.unionId)).Nodup →
      ((page.members.foldl setMember members).map (·.unionId)).Nodup) ∧
      ∀ u, u ∈ (page.members.foldl setMember members).map (·.unionId) ↔
        u ∈ members.map (·.unionId) ∨ u ∈ page.members.map (·.unionId) by
    exact ⟨h.1, fun u => by rw [h.2 u]; simp [hids]⟩
  clear hids hpage
  induction page.members generalizing members with
  | nil => simp
  | cons member rest ih =>
      obtain ⟨honce, hexact⟩ := @ih (setMember members member)
      rw [List.foldl_cons]
      constructor
      · intro hmembers
        apply honce
        rw [unionIds_setMember]
        split
        · exact hmembers
        · rename_i hnew
          exact List.nodup_append.mpr ⟨hmembers, List.nodup_singleton _, fun a ha b hb heq =>
            hnew (List.mem_singleton.mp hb ▸ heq ▸ ha)⟩
      · intro u
        rw [hexact, unionIds_setMember, List.map_cons, List.mem_cons, ← or_assoc]
        split
        · rename_i hold
          constructor
          · tauto
          · rintro ((hu | rfl) | hu)
            · exact .inl hu
            · exact .inl hold
            · exact .inr hu
        · rw [List.mem_append, List.mem_singleton]

theorem listPages_read (answers : Nat → Answer) (d : Int) (pages : Nat) (cursor : Int)
    (visited : List Int) (members : List DirectoryMember) (calls : Nat) :
    let read := listPages number answers d pages cursor visited members calls
    (∀ e ∈ read.2, e.request.deptId = d) ∧ read.2.length ≤ pages ∧
      ∀ all, read.1 = .ok all → PagesFrom number d cursor read.2 ∧
        Gathered number members read.2 all := by
  induction pages generalizing cursor visited members calls with
  | zero => exact ⟨nofun, le_rfl, nofun⟩
  | succ pages ih =>
      have hone : ∀ e ∈ [(⟨.userList d cursor, answers calls⟩ : Exchange)],
          e.request.deptId = d := by
        intro e he
        rw [List.mem_singleton.mp he]
        rfl
      unfold listPages
      by_cases hvisited : cursor ∈ visited
      · rw [if_pos hvisited]
        exact ⟨nofun, Nat.zero_le _, nofun⟩
      rw [if_neg hvisited]
      cases hpage : readPage number (answers calls) with
      | error e => exact ⟨hone, by simp, nofun⟩
      | ok page =>
          have hgathered : Gathered number members [⟨.userList d cursor, answers calls⟩]
              (page.members.foldl setMember members) := gathered_page hpage
          dsimp only
          cases hmore : page.hasMore with
          | false =>
              refine ⟨hone, by simp, fun all hall => ?_⟩
              cases hall
              exact ⟨.last hpage hmore, hgathered⟩
          | true =>
              cases hnext : page.nextCursor with
              | none => exact ⟨hone, by simp, nofun⟩
              | some next =>
                  obtain ⟨hdept, hlength, hall⟩ := ih next (cursor :: visited)
                    (page.members.foldl setMember members) (calls + 1)
                  refine ⟨?_, Nat.succ_le_succ hlength, fun all hread => ?_⟩
                  · intro e he
                    rcases List.mem_cons.mp he with heq | he
                    · exact hone e (List.mem_singleton.mpr heq)
                    · exact hdept e he
                  · obtain ⟨hpages, hrest⟩ := hall all hread
                    exact ⟨.more hpage hmore hnext hpages, hgathered.append hrest⟩

theorem listMembers_read (answers : Nat → Answer) (ids : List Int)
    (members : List DirectoryMember) (calls : Nat) :
    let read := listMembers number answers ids members calls
    (∀ e ∈ read.2, e.request.deptId ∈ ids) ∧
      read.2.length ≤ ids.length * maxPagesPerDepartment ∧
      ∀ all, read.1 = .ok all → ∃ pages, read.2 = pages.flatten ∧
        List.Forall₂ (fun d log => PagesFrom number d 0 log) ids pages ∧
          Gathered number members read.2 all := by
  induction ids generalizing members calls with
  | nil =>
      refine ⟨nofun, Nat.zero_le _, fun all hall => ⟨[], rfl, .nil, ?_⟩⟩
      cases hall
      exact gathered_nil
  | cons d ids ih =>
      obtain ⟨hdept, hlength, hread⟩ := @listPages_read number answers d
        maxPagesPerDepartment 0 [] members calls
      have hfirst : ∀ e ∈ (listPages number answers d maxPagesPerDepartment 0 [] members calls).2,
          e.request.deptId ∈ d :: ids := fun e he => hdept e he ▸ List.mem_cons_self
      rw [List.length_cons, Nat.succ_mul]
      unfold listMembers
      split
      · rename_i e log hpages
        rw [hpages] at hlength hfirst
        have hlog : log.length ≤ maxPagesPerDepartment := hlength
        exact ⟨hfirst, by dsimp only; omega, nofun⟩
      · rename_i found log hpages
        rw [hpages] at hlength hfirst hread
        have hlog : log.length ≤ maxPagesPerDepartment := hlength
        obtain ⟨hwhole, hgathered⟩ := hread found rfl
        obtain ⟨hdepts, hlengths, hreads⟩ := ih found (calls + log.length)
        refine ⟨?_, by simp only [List.length_append]; omega, fun all hall => ?_⟩
        · intro e he
          rcases List.mem_append.mp he with he | he
          · exact hfirst e he
          · exact List.mem_cons_of_mem d (hdepts e he)
        · obtain ⟨pages, hlog, hpagesOf, hrest⟩ := hreads all hall
          exact ⟨log :: pages, by simp [hlog], .cons hwhole hpagesOf, hgathered.append hrest⟩

/-! ## The walk -/

variable (number)

/-- A walk that returns has read every reachable department to its last page, and has one entry
for every union id on these pages. -/
structure WholeDirectory (log : List Exchange) (members : List DirectoryMember)
    (departments : List Int) (tree : List Exchange) (pages : List (List Exchange)) : Prop where
  exchanges : log = tree ++ pages.flatten
  asked : tree.map (·.request) = departments.map .listsubid
  reached : ∀ d, d ∈ departments ↔ Reachable tree d
  read : List.Forall₂ (fun d log => PagesFrom number d 0 log) departments pages
  once : (members.map (·.unionId)).Nodup
  exact : ∀ u, u ∈ members.map (·.unionId) ↔
    ∃ page ∈ pages.flatten, u ∈ unionIds number page.answer

/-- Whatever the remote answers: the calls are bounded by the departments that were asked, these
by their limit, and a walk that does not throw returns the whole directory. -/
theorem listDirectoryMembers_exact (answers : Nat → Answer) :
    let walk := listDirectoryMembers number answers
    (∃ departments : List Int, departments.Nodup ∧ departments.length ≤ maxDepartments ∧
      (∀ d, d ∈ departments ↔ ∃ e ∈ walk.2, e.request.deptId = d) ∧
      walk.2.length ≤ departments.length * (1 + maxPagesPerDepartment)) ∧
    match walk.1 with
    | .error _ => True
    | .ok members => ∃ departments tree pages,
        WholeDirectory number walk.2 members departments tree pages := by
  obtain ⟨ids, htree⟩ := treeRead answers [] [rootDepartmentId] 0 [] walking_start
  rw [List.nil_append] at htree
  have hlength : (listAllDepartmentIds answers [] [rootDepartmentId] 0).2.length = ids.length := by
    simpa using congrArg List.length htree.asked
  have hdepts : ∀ e ∈ (listAllDepartmentIds answers [] [rootDepartmentId] 0).2,
      e.request.deptId ∈ ids := by
    intro e he
    have hmem := htree.asked ▸ List.mem_map_of_mem (f := Exchange.request) he
    obtain ⟨d, hd, hrequest⟩ := List.mem_map.mp hmem
    exact hrequest ▸ hd
  have hasked : ∀ d ∈ ids, ∃ e ∈ (listAllDepartmentIds answers [] [rootDepartmentId] 0).2,
      e.request.deptId = d := by
    intro d hd
    have hmem := htree.asked.symm ▸ List.mem_map_of_mem (f := Request.listsubid) hd
    obtain ⟨e, he, hrequest⟩ := List.mem_map.mp hmem
    exact ⟨e, he, by rw [hrequest]; rfl⟩
  unfold listDirectoryMembers
  split
  · rename_i e log htreeRead
    rw [htreeRead] at hlength hdepts hasked
    refine ⟨⟨ids, htree.nodup, htree.bound, fun d => ⟨hasked d, ?_⟩, ?_⟩, trivial⟩
    · intro ⟨e, he, hd⟩
      exact hd ▸ hdepts e he
    · dsimp only at hlength ⊢
      rw [hlength]
      exact Nat.le_mul_of_pos_right _ (by simp)
  · rename_i found log htreeRead
    rw [htreeRead] at hlength hdepts hasked htree
    obtain ⟨rfl, hreached⟩ := htree.found found rfl
    obtain ⟨hrest, hlengths, hread⟩ := @listMembers_read number answers found []
      log.length
    refine ⟨⟨found, htree.nodup, htree.bound, fun d => ⟨fun hd => ?_, ?_⟩, ?_⟩, ?_⟩
    · obtain ⟨e, he, heq⟩ := hasked d hd
      exact ⟨e, List.mem_append_left _ he, heq⟩
    · intro ⟨e, he, hd⟩
      rcases List.mem_append.mp he with he | he
      · exact hd ▸ hdepts e he
      · exact hd ▸ hrest e he
    · dsimp only at hlength ⊢
      rw [List.length_append, Nat.mul_add, Nat.mul_one]
      exact Nat.add_le_add hlength.le hlengths
    · dsimp only
      split
      · trivial
      · rename_i members hmembers
        obtain ⟨pages, hlog, hpages, hgathered⟩ := hread members hmembers
        refine ⟨found, log, pages, ?_, htree.asked, hreached, hpages, hgathered.once .nil, ?_⟩
        · rw [hlog]
        · intro u
          rw [hgathered.exact, hlog]
          simp

end Members

end Wbme.Base.Dingtalk
