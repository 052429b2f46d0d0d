import Mathlib
import Wbme.Lib.Forest

/-! # Menu configuration

The navigation of a system is defined in code; a stored display configuration moves,
reorders and renames its items and groups and adds groups of its own. Resolving merges
the two, applying turns the merge into the list of items that is rendered.
-/

namespace Wbme.Menu

inductive Permission where
  | code (functionCode : String)
  | anyOf (functionCodes : List String)

structure NavigationItem where
  key : String
  label : String
  path : String
  group : Option String
  subGroup : Option String
  groupPath : Option (List String)
  permission : Option Permission

structure MenuGroupConfigRow where
  nodeKey : String
  parentKey : Option String
  nameOverride : Option String
  sortOrder : Int
deriving DecidableEq

structure MenuItemConfigRow where
  itemKey : String
  parentKey : Option String
  nameOverride : Option String
  sortOrder : Int
deriving DecidableEq

structure SystemMenuConfig where
  groups : List MenuGroupConfigRow
  items : List MenuItemConfigRow
deriving DecidableEq

def emptyMenuConfig : SystemMenuConfig := ⟨[], []⟩

def lastRow {α : Type} (keyOf : α → String) (rows : List α) (k : String) : Option α :=
  rows.reverse.find? fun row => keyOf row = k

/-- A `Set` in insertion order. -/
def distinct (keys : List String) : List String := keys.reverse.dedup.reverse

/-! ## Group names -/

def customGroupPrefix : String := "custom:"

def customGroupDefaultName : String := "新分组"

def isCustomGroupNodeKey (nodeKey : String) : Bool :=
  customGroupPrefix.toList.isPrefixOf nodeKey.toList

/-- The part behind the last separator; groups made by a user share one name. -/
def groupDefaultName (nodeKey : String) : String :=
  if isCustomGroupNodeKey nodeKey then customGroupDefaultName
  else String.ofList (nodeKey.toList.reverse.takeWhile (· ≠ '/')).reverse

/-! ## Placement -/

/-- Where a node stands among its siblings: the configured order, then the default index. -/
structure Placement where
  order : WithTop Int
  defaultIndex : WithTop Nat

/-- Is a number below another one? A missing number is infinite. -/
def isBelow {α : Type} [LT α] [DecidableLT α] : WithTop α → WithTop α → Bool
  | none, _ => false
  | some _, none => true
  | some a, some b => decide (a < b)

/-- Two nodes without a default index differ by `NaN`, which a sort reads as equal. -/
def comparePlacement (left right : Placement) : Ordering :=
  if left.order ≠ right.order then
    if isBelow left.order right.order then .lt else .gt
  else if isBelow left.defaultIndex right.defaultIndex then .lt
  else if isBelow right.defaultIndex left.defaultIndex then .gt
  else .eq

def sortPlaced {α : Type} (placement : α → Placement) (nodes : List α) : List α :=
  nodes.insertionSort fun left right => comparePlacement (placement left) (placement right) ≠ .gt

/-! ## The configuration the code defines -/

/-- What the walk over the default items has written so far. -/
structure IdentityState where
  groups : List MenuGroupConfigRow
  items : List MenuItemConfigRow
  nextOrderByScope : String → Nat

def topScope : String := "@top"

/-- The next free place in a container. -/
def IdentityState.nextOrder (s : IdentityState) (parentKey : Option String) : Int :=
  s.nextOrderByScope (parentKey.getD topScope)

def IdentityState.takeOrder (s : IdentityState) (parentKey : Option String) : String → Nat :=
  fun scope =>
    if scope = parentKey.getD topScope then s.nextOrderByScope scope + 1
    else s.nextOrderByScope scope

/-- The names of a path, joined from the top. -/
def groupNodeKey (parentKey : Option String) (name : String) : String :=
  match parentKey with
  | none => name
  | some p => p ++ "/" ++ name

/-- Step into a group of the path, which is written when it is met for the first time. -/
def enterGroup (at_ : IdentityState × Option String) (name : String) :
    IdentityState × Option String :=
  let (s, parentKey) := at_
  let nodeKey := groupNodeKey parentKey name
  if nodeKey ∈ s.groups.map (·.nodeKey) then (s, some nodeKey)
  else
    ({ s with
        groups := s.groups ++ [⟨nodeKey, parentKey, none, s.nextOrder parentKey⟩],
        nextOrderByScope := s.takeOrder parentKey }, some nodeKey)

def NavigationItem.defaultPath (item : NavigationItem) : List String :=
  ([item.group, item.subGroup].filterMap id).filter (· ≠ "")

def addDefaultItem (s : IdentityState) (item : NavigationItem) : IdentityState :=
  let (s, parentKey) := item.defaultPath.foldl enterGroup (s, none)
  { s with
    items := s.items ++ [⟨item.key, parentKey, none, s.nextOrder parentKey⟩],
    nextOrderByScope := s.takeOrder parentKey }

def configFromDefaults (defaults : List NavigationItem) : SystemMenuConfig :=
  let s := defaults.foldl addDefaultItem ⟨[], [], fun _ => 0⟩
  ⟨s.groups, s.items⟩

/-! ## Candidate parents -/

/-- The groups that exist: those of the code, and those the user made. -/
def allGroupKeys (identity config : SystemMenuConfig) : List String :=
  distinct (identity.groups.map (·.nodeKey) ++
    (config.groups.filter fun row => isCustomGroupNodeKey row.nodeKey).map (·.nodeKey))

/-- The parent a row asks for, unless it asks for the node itself or for no existing group. -/
def usableParent (keys : List String) (nodeKey : String) (desired fallback : Option String) :
    Option String :=
  match desired with
  | none => none
  | some d => if d = nodeKey ∨ d ∉ keys then fallback else some d

def candidateParent (identity config : SystemMenuConfig) (nodeKey : String) : Option String :=
  let keys := allGroupKeys identity config
  match lastRow (·.nodeKey) identity.groups nodeKey, lastRow (·.nodeKey) config.groups nodeKey with
  | some base, some row => usableParent keys nodeKey row.parentKey base.parentKey
  | some base, none => usableParent keys nodeKey base.parentKey base.parentKey
  | none, some row =>
      if isCustomGroupNodeKey nodeKey then usableParent keys nodeKey row.parentKey none else none
  | none, none => none

def identityParent (identity : SystemMenuConfig) (nodeKey : String) : Option String :=
  (lastRow (·.nodeKey) identity.groups nodeKey).bind (·.parentKey)

/-! ## Resolving the parents -/

/-- The nodes being resolved, innermost first, and the resolved ones with their parents. -/
structure Resolution where
  visiting : List String
  done : List (String × Option String)

def Resolution.isDone (s : Resolution) (nodeKey : String) : Bool :=
  nodeKey ∈ s.done.map (·.1)

def Resolution.visit (s : Resolution) (nodeKey : String) : Resolution :=
  { s with visiting := nodeKey :: s.visiting }

def Resolution.finish (s : Resolution) (nodeKey : String) (parent : Option String) : Resolution :=
  ⟨s.visiting.erase nodeKey, (nodeKey, parent) :: s.done⟩

/-- Resolve a node after the parent it takes: its candidate, unless that is being resolved
itself, else its default parent under the same condition, else none. -/
def resolveNode (candidate fallback : String → Option String) :
    Nat → String → Resolution → Resolution
  | 0, _, s => s
  | fuel + 1, nodeKey, s =>
      if s.isDone nodeKey then s
      else
        let s := s.visit nodeKey
        match candidate nodeKey with
        | none => s.finish nodeKey none
        | some c =>
            if c ∉ s.visiting then
              (resolveNode candidate fallback fuel c s).finish nodeKey (some c)
            else
              match fallback nodeKey with
              | none => s.finish nodeKey none
              | some d =>
                  if d ≠ c ∧ d ∉ s.visiting then
                    (resolveNode candidate fallback fuel d s).finish nodeKey (some d)
                  else s.finish nodeKey none

/-- Resolve every group; no chain of open calls is longer than the list of groups. -/
def resolveAll (candidate fallback : String → Option String) (keys : List String) : Resolution :=
  keys.foldl (fun s nodeKey => resolveNode candidate fallback (keys.length + 1) nodeKey s) ⟨[], []⟩

/-! ## The merge -/

structure ResolvedMenuItemRow where
  itemKey : String
  nameOverride : Option String
  parentKey : Option String
  order : WithTop Int
  defaultIndex : Nat

structure ResolvedMenuGroupRow where
  nodeKey : String
  parentKey : Option String
  nameOverride : Option String
  order : WithTop Int
  defaultIndex : WithTop Nat

structure ResolvedMenu where
  items : List ResolvedMenuItemRow
  groups : List ResolvedMenuGroupRow

def ResolvedMenuItemRow.placement (row : ResolvedMenuItemRow) : Placement :=
  ⟨row.order, row.defaultIndex⟩

def ResolvedMenuGroupRow.placement (row : ResolvedMenuGroupRow) : Placement :=
  ⟨row.order, row.defaultIndex⟩

def subtreeFirstIndex (identity : SystemMenuConfig) : Nat → String → WithTop Nat
  | 0, _ => ⊤
  | fuel + 1, nodeKey =>
      let own := identity.items.zipIdx.filterMap fun (row, index) =>
        if row.parentKey = some nodeKey then some (index : WithTop Nat) else none
      let children := identity.groups.filter fun row => row.parentKey = some nodeKey
      (own ++ children.map fun row => subtreeFirstIndex identity fuel row.nodeKey).foldl min ⊤

def resolveGroup (identity config : SystemMenuConfig) (parents : List (String × Option String))
    (nodeKey : String) : ResolvedMenuGroupRow :=
  let row := lastRow (·.nodeKey) config.groups nodeKey
  { nodeKey
    parentKey := Lib.Forest.parentIn parents nodeKey
    nameOverride := row.bind (·.nameOverride)
    order := (row.map fun row => (row.sortOrder : WithTop Int)).getD ⊤
    defaultIndex :=
      if nodeKey ∈ identity.groups.map (·.nodeKey) then
        subtreeFirstIndex identity (identity.groups.length + 1) nodeKey
      else ⊤ }

/-- An item goes where its row sends it, if that is the top or an existing group. -/
def resolveItem (identity config : SystemMenuConfig) (item : NavigationItem) (defaultIndex : Nat) :
    ResolvedMenuItemRow :=
  let row := lastRow (·.itemKey) config.items item.key
  let unmoved : ResolvedMenuItemRow :=
    { itemKey := item.key
      nameOverride := row.bind (·.nameOverride)
      parentKey := (identity.items[defaultIndex]?).bind (·.parentKey)
      order := ⊤
      defaultIndex }
  match row with
  | none => unmoved
  | some row =>
      if row.parentKey.all (· ∈ allGroupKeys identity config) then
        { unmoved with parentKey := row.parentKey, order := row.sortOrder }
      else unmoved

def resolveMenuConfig (defaults : List NavigationItem) (config : SystemMenuConfig) :
    ResolvedMenu :=
  let identity := configFromDefaults defaults
  let keys := allGroupKeys identity config
  let parents := (resolveAll (candidateParent identity config) (identityParent identity) keys).done
  { items := defaults.zipIdx.map fun (item, index) => resolveItem identity config item index
    groups := keys.map (resolveGroup identity config parents) }

/-- The parent relation of a merge. -/
def ResolvedMenu.parentOf (menu : ResolvedMenu) (nodeKey : String) : Option String :=
  (lastRow (·.nodeKey) menu.groups nodeKey).bind (·.parentKey)

/-! ## The rendered list -/

/-- Mark a container and everything above it, up to the first one that is marked already. -/
def markUsed (menu : ResolvedMenu) : Nat → Option String → List String → List String
  | 0, _, used => used
  | _ + 1, none, used => used
  | fuel + 1, some cursor, used =>
      if cursor ∈ used then used
      else markUsed menu fuel (menu.parentOf cursor) (cursor :: used)

/-- The groups that hold an item, themselves or below. -/
def usedGroupKeys (menu : ResolvedMenu) : List String :=
  menu.items.foldl (fun used row => markUsed menu (menu.groups.length + 1) row.parentKey used) []

inductive MenuNode where
  | item (row : ResolvedMenuItemRow)
  | group (row : ResolvedMenuGroupRow)

def MenuNode.placement : MenuNode → Placement
  | .item row => row.placement
  | .group row => row.placement

def renderItem (defaults : List NavigationItem) (row : ResolvedMenuItemRow)
    (ancestors : List String) : Option NavigationItem :=
  (lastRow (·.key) defaults row.itemKey).map fun source =>
    { source with
      label := row.nameOverride.getD source.label
      group := ancestors[0]?
      subGroup := ancestors[1]?
      groupPath := if ancestors = [] then none else some ancestors }

def ResolvedMenuGroupRow.displayName (row : ResolvedMenuGroupRow) : String :=
  row.nameOverride.getD (groupDefaultName row.nodeKey)

/-- The items and used groups of a container, in display order. -/
def containerNodes (menu : ResolvedMenu) (parentKey : Option String) : List MenuNode :=
  sortPlaced MenuNode.placement
    ((menu.items.filter fun row => row.parentKey = parentKey).map .item ++
      (menu.groups.filter fun row => row.parentKey = parentKey ∧
        row.nodeKey ∈ usedGroupKeys menu).map .group)

def emitContainer (defaults : List NavigationItem) (menu : ResolvedMenu) :
    Nat → Option String → List String → List NavigationItem
  | 0, _, _ => []
  | fuel + 1, parentKey, ancestors =>
      (containerNodes menu parentKey).flatMap fun node =>
        match node with
        | .group row =>
            emitContainer defaults menu fuel (some row.nodeKey) (ancestors ++ [row.displayName])
        | .item row => (renderItem defaults row ancestors).toList

def applyMenuConfig (defaults : List NavigationItem) (config : SystemMenuConfig) :
    List NavigationItem :=
  if config.groups = [] ∧ config.items = [] then defaults
  else
    let menu := resolveMenuConfig defaults config
    emitContainer defaults menu (menu.groups.length + 1) none []

attribute [grind =] lastRow distinct Resolution.isDone Resolution.visit Resolution.finish
  resolveNode resolveAll enterGroup addDefaultItem configFromDefaults allGroupKeys usableParent
  candidateParent identityParent resolveGroup resolveItem resolveMenuConfig ResolvedMenu.parentOf

end Wbme.Menu
