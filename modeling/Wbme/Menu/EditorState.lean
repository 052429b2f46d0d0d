import Wbme.Menu.Merge

/-! # The menu editor

The editor works on a tree of items and groups built from a merge. Saving writes the tree
out as a whole configuration: one row for each node, with its parent and its place among
its siblings.
-/

namespace Wbme.Menu

inductive EditorNode where
  | item (itemKey : String) (nameOverride : Option String)
  | group (nodeKey : String) (nameOverride : Option String) (children : List EditorNode)

structure MenuEditorState where
  top : List EditorNode

/-- A node by its kind and key: what is dragged, and what is renamed. -/
inductive EditorDragRef where
  | item (itemKey : String)
  | group (nodeKey : String)
deriving DecidableEq

def EditorNode.ref : EditorNode → EditorDragRef
  | .item itemKey _ => .item itemKey
  | .group nodeKey _ _ => .group nodeKey

mutual

def EditorNode.allNodes : EditorNode → List EditorNode
  | .item itemKey nameOverride => [.item itemKey nameOverride]
  | .group nodeKey nameOverride children =>
      .group nodeKey nameOverride children :: allNodes children

/-- All nodes of a list of trees, each before its children. -/
def allNodes : List EditorNode → List EditorNode
  | [] => []
  | node :: rest => node.allNodes ++ allNodes rest

end

def refs (nodes : List EditorNode) : List EditorDragRef := (allNodes nodes).map EditorNode.ref

/-! ## Building and saving -/

/-- The nodes of a container; an empty group stays, as a place to drop into. -/
def editorNodes (menu : ResolvedMenu) (parentKey : Option String) : List MenuNode :=
  sortPlaced MenuNode.placement
    ((menu.items.filter fun row => row.parentKey = parentKey).map .item ++
      (menu.groups.filter fun row => row.parentKey = parentKey).map .group)

def buildChildren (menu : ResolvedMenu) : Nat → Option String → List EditorNode
  | 0, _ => []
  | fuel + 1, parentKey =>
      (editorNodes menu parentKey).map fun node =>
        match node with
        | .item row => .item row.itemKey row.nameOverride
        | .group row =>
            .group row.nodeKey row.nameOverride (buildChildren menu fuel (some row.nodeKey))

def buildEditorState (defaults : List NavigationItem) (config : SystemMenuConfig) :
    MenuEditorState :=
  let menu := resolveMenuConfig defaults config
  ⟨buildChildren menu (menu.groups.length + 1) none⟩

/-- One configuration behind another. -/
def SystemMenuConfig.append (first second : SystemMenuConfig) : SystemMenuConfig :=
  ⟨first.groups ++ second.groups, first.items ++ second.items⟩

mutual

/-- The rows of a node at an index of its container, and of the nodes below it. -/
def serializeNode (parentKey : Option String) (index : Nat) : EditorNode → SystemMenuConfig
  | .item itemKey nameOverride => ⟨[], [⟨itemKey, parentKey, nameOverride, index⟩]⟩
  | .group nodeKey nameOverride children =>
      SystemMenuConfig.append ⟨[⟨nodeKey, parentKey, nameOverride, index⟩], []⟩
        (serializeNodes (some nodeKey) 0 children)

def serializeNodes (parentKey : Option String) (index : Nat) :
    List EditorNode → SystemMenuConfig
  | [] => emptyMenuConfig
  | node :: rest =>
      (serializeNode parentKey index node).append (serializeNodes parentKey (index + 1) rest)

end

def serializeEditorState (state : MenuEditorState) : SystemMenuConfig :=
  serializeNodes none 0 state.top

/-! ## Finding and changing groups -/

mutual

def EditorNode.findGroup (nodeKey : String) :
    EditorNode → Option (Option String × List EditorNode)
  | .item _ _ => none
  | .group key nameOverride children =>
      if key = nodeKey then some (nameOverride, children) else findGroupNode nodeKey children

/-- The name and children of a group, at any depth. -/
def findGroupNode (nodeKey : String) : List EditorNode → Option (Option String × List EditorNode)
  | [] => none
  | node :: rest => (node.findGroup nodeKey).or (findGroupNode nodeKey rest)

end

mutual

def EditorNode.updateGroup (nodeKey : String) (change : List EditorNode → List EditorNode) :
    EditorNode → EditorNode
  | .item itemKey nameOverride => .item itemKey nameOverride
  | .group key nameOverride children =>
      if key = nodeKey then .group key nameOverride (change children)
      else .group key nameOverride (updateGroup nodeKey change children)

def updateGroup (nodeKey : String) (change : List EditorNode → List EditorNode) :
    List EditorNode → List EditorNode
  | [] => []
  | node :: rest => node.updateGroup nodeKey change :: updateGroup nodeKey change rest

end

inductive Container where
  | top
  | group (nodeKey : String)
deriving DecidableEq

structure Removal where
  removed : EditorNode
  container : Container
  index : Nat

mutual

def EditorNode.removeBelow (ref : EditorDragRef) : EditorNode → Option (EditorNode × Removal)
  | .item _ _ => none
  | .group nodeKey nameOverride children =>
      match children.findIdx? (fun node => node.ref = ref) with
      | some index =>
          children[index]?.map fun removed =>
            (.group nodeKey nameOverride (children.eraseIdx index),
              ⟨removed, .group nodeKey, index⟩)
      | none =>
          (removeBelow ref children).map fun (nodes, removal) =>
            (.group nodeKey nameOverride nodes, removal)

/-- Look for a node below the nodes of a container, one after another. -/
def removeBelow (ref : EditorDragRef) : List EditorNode → Option (List EditorNode × Removal)
  | [] => none
  | node :: rest =>
      match node.removeBelow ref with
      | some (changed, removal) => some (changed :: rest, removal)
      | none => (removeBelow ref rest).map fun (nodes, removal) => (node :: nodes, removal)

end

/-- Take a node out of the tree, at any depth. -/
def removeNode (nodes : List EditorNode) (ref : EditorDragRef) :
    Option (List EditorNode × Removal) :=
  match nodes.findIdx? (fun node => node.ref = ref) with
  | some index =>
      nodes[index]?.map fun removed => (nodes.eraseIdx index, ⟨removed, .top, index⟩)
  | none => removeBelow ref nodes

/-! ## Groups of the user -/

/-- Add an empty group under a new key; the key stands for the random one the editor draws. -/
def createGroupNode (state : MenuEditorState) (nodeKey : String) (parentKey : Option String)
    (nameOverride : Option String) : Option MenuEditorState :=
  let group := EditorNode.group nodeKey nameOverride []
  match parentKey with
  | none => some ⟨state.top ++ [group]⟩
  | some parent =>
      if (findGroupNode parent state.top).isNone then none
      else some ⟨updateGroup parent (· ++ [group]) state.top⟩

def deleteGroupNode (state : MenuEditorState) (nodeKey : String) : Option MenuEditorState :=
  match findGroupNode nodeKey state.top with
  | none => none
  | some (_, children) =>
      if children ≠ [] then none
      else (removeNode state.top (.group nodeKey)).map fun (nodes, _) => ⟨nodes⟩

/-! ## Moving -/

inductive EditorDropTarget where
  | top (index : Int)
  | children (groupKey : String) (index : Int)

def targetContainer : EditorDropTarget → Container
  | .top _ => .top
  | .children groupKey _ => .group groupKey

def EditorDropTarget.index : EditorDropTarget → Int
  | .top index => index
  | .children _ index => index

def collectGroupSubtreeKeys (nodeKey : String) (children : List EditorNode) : List String :=
  nodeKey :: (refs children).filterMap fun ref =>
    match ref with
    | .group key => some key
    | .item _ => none

/-- Is the target no container, or one in the dragged group? -/
def targetGuardFails (state : MenuEditorState) (drag : EditorDragRef)
    (target : EditorDropTarget) : Bool :=
  match target with
  | .top _ => false
  | .children groupKey _ =>
      if (findGroupNode groupKey state.top).isNone then true
      else
        match drag with
        | .item _ => false
        | .group nodeKey =>
            match findGroupNode nodeKey state.top with
            | none => true
            | some (_, children) => groupKey ∈ collectGroupSubtreeKeys nodeKey children

/-- `splice` at an index: past the end it appends, a negative index counts from the end. -/
def insertAt (nodes : List EditorNode) (index : Int) (node : EditorNode) : List EditorNode :=
  let start := min index nodes.length
  nodes.insertIdx (if start < 0 then (max (nodes.length + start) 0).toNat else start.toNat) node

def moveEditorNode (state : MenuEditorState) (drag : EditorDragRef)
    (target : EditorDropTarget) : Option MenuEditorState :=
  if targetGuardFails state drag target then none
  else
    match removeNode state.top drag with
    | none => none
    | some (nodes, removal) =>
        -- a move down in one container has lost the place of the node itself
        let insertIndex :=
          if removal.container = targetContainer target ∧ (removal.index : Int) < target.index then
            target.index - 1
          else target.index
        match target with
        | .top _ => some ⟨insertAt nodes insertIndex removal.removed⟩
        | .children groupKey _ =>
            some ⟨updateGroup groupKey (insertAt · insertIndex removal.removed) nodes⟩

/-- The place of a node, the number of its siblings with it, and its container. -/
structure LocatedNode where
  index : Nat
  size : Nat
  container : Container

mutual

def EditorNode.locateBelow (ref : EditorDragRef) : EditorNode → Option LocatedNode
  | .item _ _ => none
  | .group nodeKey _ children =>
      match children.findIdx? (fun node => node.ref = ref) with
      | some index => some ⟨index, children.length, .group nodeKey⟩
      | none => locateBelow ref children

def locateBelow (ref : EditorDragRef) : List EditorNode → Option LocatedNode
  | [] => none
  | node :: rest => (node.locateBelow ref).or (locateBelow ref rest)

end

def locateNode (nodes : List EditorNode) (ref : EditorDragRef) : Option LocatedNode :=
  match nodes.findIdx? (fun node => node.ref = ref) with
  | some index => some ⟨index, nodes.length, .top⟩
  | none => locateBelow ref nodes

def Container.target (container : Container) (index : Int) : EditorDropTarget :=
  match container with
  | .top => .top index
  | .group nodeKey => .children nodeKey index

inductive Direction where
  | up
  | down

/-- Swap a node with its neighbour in the same container. -/
def moveEditorNodeByOffset (state : MenuEditorState) (drag : EditorDragRef)
    (direction : Direction) : Option MenuEditorState :=
  match locateNode state.top drag with
  | none => none
  | some located =>
      let targetIndex : Int :=
        match direction with
        | .up => located.index - 1
        | .down => located.index + 1
      if targetIndex < 0 ∨ (located.size : Int) ≤ targetIndex then none
      else
        let index :=
          match direction with
          | .up => targetIndex
          | .down => targetIndex + 1
        moveEditorNode state drag (located.container.target index)

/-! ## Renaming -/

/-- The white space that `trim` cuts off. -/
def isTrimmed (c : Char) : Bool :=
  let n := c.toNat
  (9 ≤ n && n ≤ 13) || n == 32 || n == 0xa0 || n == 0x1680 || (0x2000 ≤ n && n ≤ 0x200a) ||
    n == 0x2028 || n == 0x2029 || n == 0x202f || n == 0x205f || n == 0x3000 || n == 0xfeff

def trim (name : String) : String :=
  String.ofList ((name.toList.dropWhile isTrimmed).reverse.dropWhile isTrimmed).reverse

mutual

def EditorNode.rename (target : EditorDragRef) (nameOverride : Option String) :
    EditorNode → EditorNode × Bool
  | .item itemKey old =>
      if target = .item itemKey then (.item itemKey nameOverride, true)
      else (.item itemKey old, false)
  | .group nodeKey old children =>
      if target = .group nodeKey then (.group nodeKey nameOverride children, true)
      else
        let (nodes, found) := renameNodes target nameOverride children
        (.group nodeKey old nodes, found)

/-- Rename the matching nodes, and say whether there was one. -/
def renameNodes (target : EditorDragRef) (nameOverride : Option String) :
    List EditorNode → List EditorNode × Bool
  | [] => ([], false)
  | node :: rest =>
      let (node, foundHere) := node.rename target nameOverride
      let (nodes, foundLater) := renameNodes target nameOverride rest
      (node :: nodes, foundHere || foundLater)

end

def renameEditorNode (state : MenuEditorState) (target : EditorDragRef) (rawName : String) :
    Option MenuEditorState :=
  let nameOverride := if trim rawName = "" then none else some (trim rawName)
  let (nodes, found) := renameNodes target nameOverride state.top
  if found then some ⟨nodes⟩ else none

/-! ## Sessions -/

/-- What a user does to the tree. A new group comes with the random part of its key. -/
inductive EditorOp where
  | create (random : String) (parentKey : Option String) (nameOverride : Option String)
  | delete (nodeKey : String)
  | move (drag : EditorDragRef) (target : EditorDropTarget)
  | moveByOffset (drag : EditorDragRef) (direction : Direction)
  | rename (target : EditorDragRef) (rawName : String)

def applyOp (state : MenuEditorState) : EditorOp → Option MenuEditorState
  | .create random parentKey nameOverride =>
      createGroupNode state (customGroupPrefix ++ random) parentKey nameOverride
  | .delete nodeKey => deleteGroupNode state nodeKey
  | .move drag target => moveEditorNode state drag target
  | .moveByOffset drag direction => moveEditorNodeByOffset state drag direction
  | .rename target rawName => renameEditorNode state target rawName

/-- An operation that is refused changes nothing. -/
def editorStep (state : MenuEditorState) (op : EditorOp) : MenuEditorState :=
  (applyOp state op).getD state

end Wbme.Menu
