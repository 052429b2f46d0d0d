import Wbme.Menu.Merge
import Mathlib.Data.List.Basic

/-! # The menu of the application

The menu tree is built item by item through a map from keys to group nodes. The key of a group is
the text of the names on the way to it, joined by a slash; its place is the list of these names.
-/

namespace Wbme.Web

open Menu

/-! ## Building the tree -/

inductive MenuEntry where
  | leaf (key label : String)
  | group (key label : String)
deriving DecidableEq

/-- What was pushed, in the order of the pushes, each to the children of a group or to the top. An
array of children is what was pushed to it. -/
abbrev MenuPushes := List (Option String × MenuEntry)

/-- The children of a group, or the top level. -/
def childrenOf (pushes : MenuPushes) (siblings : Option String) : List MenuEntry :=
  (pushes.filter fun x => x.1 = siblings).map (·.2)

def groupPathOf (item : NavigationItem) : List String := item.groupPath.getD item.defaultPath

def joinNames : List String → String
  | [] => ""
  | [name] => name
  | name :: names => name ++ "/" ++ joinNames names

def groupMenuKey (path : List String) : String := "group:" ++ joinNames path

def MenuEntry.isGroup (key : String) : MenuEntry → Bool
  | .group k _ => k == key
  | .leaf _ _ => false

def hasGroup (pushes : MenuPushes) (key : String) : Bool := pushes.any fun x => x.2.isGroup key

/-- One name further on the path of an item, with the names before it. -/
def enterGroup (s : MenuPushes × Option String × List String) (name : String) :
    MenuPushes × Option String × List String :=
  let path := s.2.2 ++ [name]
  let key := groupMenuKey path
  (if hasGroup s.1 key then s.1 else s.1 ++ [(s.2.1, .group key name)], some key, path)

def leafOf (item : NavigationItem) : MenuEntry := .leaf item.path item.label

def addItem (pushes : MenuPushes) (item : NavigationItem) : MenuPushes :=
  let s := (groupPathOf item).foldl enterGroup (pushes, none, [])
  s.1 ++ [(s.2.1, leafOf item)]

/-- The tree below the entry of the home page. -/
def menuItems (visibleItems : List NavigationItem) : MenuPushes := visibleItems.foldl addItem []

/-! ## What the tree should be -/

inductive Way (pushes : MenuPushes) : Option String → List (String × String) → Prop where
  | top : Way pushes none []
  | group {siblings : Option String} {way : List (String × String)} {key label : String}
      (hway : Way pushes siblings way) (hmem : (siblings, .group key label) ∈ pushes) :
      Way pushes (some key) (way ++ [(key, label)])

def labelsOf (way : List (String × String)) : List String := way.map (·.2)

def leafPushes (pushes : MenuPushes) : MenuPushes :=
  pushes.filter fun x => match x.2 with
    | .leaf _ _ => true
    | .group _ _ => false

/-- What is seen of a node. -/
inductive Shown where
  | leaf (key label : String)
  | group (label : String)
deriving DecidableEq

def MenuEntry.shown : MenuEntry → Shown
  | .leaf key label => .leaf key label
  | .group _ label => .group label

def nextOn (path : List String) (item : NavigationItem) : Option Shown :=
  if groupPathOf item = path then some (.leaf item.path item.label)
  else if path <+: groupPathOf item then (groupPathOf item)[path.length]?.map .group
  else none

def firstOccurrences (xs : List Shown) : List Shown :=
  xs.foldl (fun seen x => match x with
    | .leaf _ _ => seen ++ [x]
    | .group _ => if x ∈ seen then seen else seen ++ [x]) []

structure MenuLaw (items : List NavigationItem) (pushes : MenuPushes) : Prop where
  /-- Every item is there once, under groups with the names of its path. -/
  once : List.Forall₂ (fun item x => x.2 = leafOf item ∧ ∃ way, Way pushes x.1 way ∧
    labelsOf way = groupPathOf item) items (leafPushes pushes)
  nonempty : ∀ siblings key label, (siblings, .group key label) ∈ pushes →
    childrenOf pushes (some key) ≠ []
  /-- Two ways share a group just as far as their names agree. -/
  shared : ∀ c c' way way', Way pushes c way → Way pushes c' way' → ∀ n g g', way[n]? = some g →
    way'[n]? = some g' → (g.1 = g'.1 ↔ (labelsOf way).take (n + 1) = (labelsOf way').take (n + 1))
  /-- Below every group stands, in the order of first occurrence, what comes next on the paths
  that lead through it. -/
  ordered : ∀ c way, Way pushes c way → (childrenOf pushes c).map MenuEntry.shown =
    firstOccurrences (items.filterMap (nextOn (labelsOf way)))

def GroupPlace (items : List NavigationItem) (path : List String) : Prop :=
  path ≠ [] ∧ ∃ item ∈ items, path <+: groupPathOf item

def KeysTellPlaces (items : List NavigationItem) : Prop :=
  ∀ p q, GroupPlace items p → GroupPlace items q → joinNames p = joinNames q → p = q

/-! ## What every tree is like -/

/-- The array of children at a place. -/
def placeOf (path : List String) : Option String :=
  if path = [] then none else some (groupMenuKey path)

theorem placeOf_snoc (path : List String) (name : String) :
    placeOf (path ++ [name]) = some (groupMenuKey (path ++ [name])) := if_neg (by simp)

theorem isGroup_iff {key : String} {e : MenuEntry} :
    e.isGroup key = true ↔ ∃ label, e = .group key label := by
  cases e with
  | leaf k label => simp [MenuEntry.isGroup]
  | group k label => simp [MenuEntry.isGroup]

variable {path : List String} {item : NavigationItem} {pushes : MenuPushes}

theorem hasGroup_iff {key : String} :
    hasGroup pushes key = true ↔ ∃ c label, (c, .group key label) ∈ pushes := by
  simp only [hasGroup, List.any_eq_true, isGroup_iff, Prod.exists]
  constructor
  · intro ⟨c, e, hmem, label, he⟩
    exact ⟨c, label, he ▸ hmem⟩
  · intro ⟨c, label, hmem⟩
    exact ⟨c, _, hmem, label, rfl⟩

structure Built (grouped listed : List NavigationItem) (pushes : MenuPushes) : Prop where
  groups : ∀ c key label, (c, .group key label) ∈ pushes → ∃ path, c = placeOf path ∧
    key = groupMenuKey (path ++ [label]) ∧ ∃ item ∈ grouped, path ++ [label] <+: groupPathOf item
  unique : ∀ c key label c' label', (c, .group key label) ∈ pushes →
    (c', .group key label') ∈ pushes → c = c' ∧ label = label'
  leaves : leafPushes pushes = listed.map fun item => (placeOf (groupPathOf item), leafOf item)

variable {name : String} {items : List NavigationItem} {c : Option String}

section Building

variable {grouped listed : List NavigationItem} {pushes : MenuPushes} {item : NavigationItem}

theorem Built.more (h : Built grouped listed pushes) (item : NavigationItem) :
    Built (grouped ++ [item]) listed pushes :=
  { h with
    groups := fun c key label hmem => by
      obtain ⟨path, hc, hkey, other, hother, hpre⟩ := h.groups c key label hmem
      exact ⟨path, hc, hkey, other, List.mem_append_left _ hother, hpre⟩ }

theorem Built.enter (h : Built grouped listed pushes) (hitem : item ∈ grouped)
    (hpath : path ++ [name] <+: groupPathOf item) :
    Built grouped listed (enterGroup (pushes, placeOf path, path) name).1 := by
  unfold enterGroup
  dsimp only
  split
  · exact h
  · rename_i hnew
    have hold : ∀ c label, (c, .group (groupMenuKey (path ++ [name])) label) ∉ pushes :=
      fun c label hmem => hnew (hasGroup_iff.mpr ⟨c, label, hmem⟩)
    refine ⟨fun c key label hmem => ?_, fun c key label c' label' hmem hmem' => ?_, ?_⟩
    · rcases List.mem_append.mp hmem with hmem | hmem
      · exact h.groups c key label hmem
      · cases List.mem_singleton.mp hmem
        exact ⟨path, rfl, rfl, item, hitem, hpath⟩
    · rcases List.mem_append.mp hmem with hmem | hmem <;>
        rcases List.mem_append.mp hmem' with hmem' | hmem'
      · exact h.unique c key label c' label' hmem hmem'
      · cases List.mem_singleton.mp hmem'
        exact absurd hmem (hold c label)
      · cases List.mem_singleton.mp hmem
        exact absurd hmem' (hold c' label')
      · cases List.mem_singleton.mp hmem
        cases List.mem_singleton.mp hmem'
        exact ⟨rfl, rfl⟩
    · rw [← h.leaves, leafPushes, List.filter_append]
      simp [leafPushes]

theorem walk_keeps {P : MenuPushes → List String → Prop} (names path : List String)
    (hP : P pushes path) (hstep : ∀ pushes path' name, path' ++ [name] <+: path ++ names →
      P pushes path' → P (enterGroup (pushes, placeOf path', path') name).1 (path' ++ [name])) :
    P (names.foldl enterGroup (pushes, placeOf path, path)).1 (path ++ names) ∧
      (names.foldl enterGroup (pushes, placeOf path, path)).2.1 = placeOf (path ++ names) := by
  induction names generalizing pushes path with
  | nil => exact ⟨by simpa using hP, by simp⟩
  | cons name names ih =>
      have hpath : path ++ name :: names = (path ++ [name]) ++ names := by simp
      have hfirst := hstep pushes path name (by simp) hP
      have hone : enterGroup (pushes, placeOf path, path) name =
          ((enterGroup (pushes, placeOf path, path) name).1, placeOf (path ++ [name]),
            path ++ [name]) := by
        rw [placeOf_snoc]
        rfl
      rw [List.foldl_cons, hone, hpath]
      exact ih (path ++ [name]) hfirst fun pushes path' name' hpre => hstep pushes path' name'
        (hpath ▸ hpre)

theorem Built.add (h : Built listed listed pushes) (item : NavigationItem) :
    Built (listed ++ [item]) (listed ++ [item]) (addItem pushes item) := by
  obtain ⟨hwalk, hplace⟩ := walk_keeps (P := fun pushes _ => Built (listed ++ [item]) listed pushes)
    (groupPathOf item) [] (h.more item) fun pushes path name hpre hbuilt => hbuilt.enter
      (List.mem_append_right _ List.mem_cons_self) hpre
  rw [List.nil_append] at hplace
  show Built _ _ (_ ++ [_])
  have hleaf : ∀ c key label, (c, MenuEntry.group key label) ∉
      [(((groupPathOf item).foldl enterGroup (pushes, none, [])).2.1, leafOf item)] := by
    intro c key label hmem
    cases List.mem_singleton.mp hmem
  refine ⟨fun c key label hmem => ?_, fun c key label c' label' hmem hmem' => ?_, ?_⟩
  · exact hwalk.groups c key label ((List.mem_append.mp hmem).resolve_right (hleaf c key label))
  · exact hwalk.unique c key label c' label'
      ((List.mem_append.mp hmem).resolve_right (hleaf c key label))
      ((List.mem_append.mp hmem').resolve_right (hleaf c' key label'))
  · rw [List.map_append, ← hwalk.leaves, leafPushes, List.filter_append]
    exact congrArg (fun c => leafPushes _ ++ [(c, leafOf item)]) hplace

end Building

theorem built_menuItems (items : List NavigationItem) : Built items items (menuItems items) := by
  induction items using List.reverseRecOn with
  | nil => exact ⟨nofun, nofun, rfl⟩
  | append_singleton items item ih =>
      rw [menuItems, List.foldl_append]
      exact ih.add item

/-! ## Ways and their keys -/

theorem joinNames_snoc (path : List String) (name : String) :
    joinNames (path ++ [name]) = if path = [] then name else joinNames path ++ "/" ++ name := by
  induction path with
  | nil => rfl
  | cons first rest ih =>
      rw [if_neg (List.cons_ne_nil first rest)]
      cases rest with
      | nil => rfl
      | cons second rest =>
          show first ++ "/" ++ joinNames (second :: rest ++ [name]) = _
          rw [ih, if_neg (List.cons_ne_nil second rest)]
          simp [joinNames, String.append_assoc]

theorem groupMenuKey_inj {p q : List String} :
    groupMenuKey p = groupMenuKey q ↔ joinNames p = joinNames q := by
  simp [groupMenuKey, String.ext_iff]

theorem placeOf_eq_iff {p q : List String} :
    placeOf p = placeOf q ↔ (p = [] ↔ q = []) ∧ joinNames p = joinNames q := by
  unfold placeOf
  by_cases hp : p = [] <;> by_cases hq : q = [] <;> simp [hp, hq, groupMenuKey_inj]

theorem labelsOf_snoc (way : List (String × String)) (g : String × String) :
    labelsOf (way ++ [g]) = labelsOf way ++ [g.2] := List.map_append

section Ways

variable {grouped listed : List NavigationItem} {pushes : MenuPushes} {c : Option String}
  {way way' : List (String × String)}

theorem Built.key_below (h : Built grouped listed pushes) {key label : String}
    (hmem : (placeOf path, .group key label) ∈ pushes) : key = groupMenuKey (path ++ [label]) := by
  obtain ⟨other, hplace, hkey, -⟩ := h.groups _ key label hmem
  obtain ⟨hnil, hjoin⟩ := placeOf_eq_iff.mp hplace
  rw [hkey, groupMenuKey_inj, joinNames_snoc, joinNames_snoc, hjoin]
  simp only [hnil]

theorem Way.place (h : Built grouped listed pushes) (hway : Way pushes c way) :
    c = placeOf (labelsOf way) := by
  induction hway with
  | top => rfl
  | group hway hmem ih =>
      subst ih
      rw [labelsOf_snoc, placeOf_snoc, h.key_below hmem]

theorem Way.take (h : Built grouped listed pushes) (hway : Way pushes c way) (n : Nat) :
    Way pushes (placeOf ((labelsOf way).take n)) (way.take n) := by
  induction hway with
  | top => simpa [labelsOf, placeOf] using Way.top
  | @group siblings way key label hway hmem ih =>
      by_cases hn : n ≤ way.length
      · rw [labelsOf_snoc, List.take_append_of_le_length (by simpa [labelsOf] using hn),
          List.take_append_of_le_length hn]
        exact ih
      · have hall := Way.group hway hmem
        rw [List.take_of_length_le (by simp [labelsOf]; omega),
          List.take_of_length_le (by simp; omega), ← hall.place h]
        exact hall

theorem Way.key (h : Built grouped listed pushes) (hway : Way pushes c way) {n : Nat}
    {g : String × String} (hn : way[n]? = some g) :
    g.1 = groupMenuKey ((labelsOf way).take (n + 1)) := by
  induction hway with
  | top => cases hn
  | @group siblings way key label hway hmem ih =>
      rcases Nat.lt_trichotomy n way.length with hlt | heq | hgt
      · rw [List.getElem?_append_left hlt] at hn
        rw [labelsOf_snoc, List.take_append_of_le_length (by simpa [labelsOf] using hlt)]
        exact ih hn
      · subst heq
        rw [List.getElem?_concat_length, Option.some.injEq] at hn
        subst hn
        rw [List.take_of_length_le (by simp [labelsOf]), labelsOf_snoc]
        exact h.key_below (hway.place h ▸ hmem)
      · rw [List.getElem?_eq_none (by simp; omega)] at hn
        cases hn

theorem Way.eq (h : Built grouped listed pushes) (hway : Way pushes c way)
    (hway' : Way pushes c way') : way = way' := by
  induction hway generalizing way' with
  | top =>
      cases hway'
      rfl
  | group hway hmem ih =>
      cases hway' with
      | group hother hmem' =>
          obtain ⟨rfl, rfl⟩ := h.unique _ _ _ _ _ hmem hmem'
          rw [ih hother]

end Ways

/-! ## What stands below a place -/

theorem firstOccurrences_leaf (xs : List Shown) (key label : String) :
    firstOccurrences (xs ++ [.leaf key label]) = firstOccurrences xs ++ [.leaf key label] := by
  rw [firstOccurrences, List.foldl_append]
  rfl

theorem firstOccurrences_group (xs : List Shown) (label : String) :
    firstOccurrences (xs ++ [.group label]) = if .group label ∈ firstOccurrences xs then
      firstOccurrences xs else firstOccurrences xs ++ [.group label] := by
  rw [firstOccurrences, List.foldl_append]
  rfl

theorem mem_firstOccurrences {x : Shown} {xs : List Shown} : x ∈ firstOccurrences xs ↔ x ∈ xs := by
  induction xs using List.reverseRecOn with
  | nil => rfl
  | append_singleton xs y ih =>
      cases y with
      | leaf key label => simp [firstOccurrences_leaf, ih]
      | group label =>
          rw [firstOccurrences_group]
          split
          · rename_i hold
            simp only [ih, List.mem_append, List.mem_singleton]
            refine ⟨.inl, fun h => h.elim id fun hx => ?_⟩
            subst hx
            exact ih.mp hold
          · simp [ih]

/-- The group that a walk shows below a path it leads through. -/
def nextGroup (path walked : List String) : Option Shown :=
  if path <+: walked then walked[path.length]?.map .group else none

theorem nextOn_of_ne (h : groupPathOf item ≠ path) :
    nextOn path item = nextGroup path (groupPathOf item) := if_neg h

theorem nextGroup_self (path : List String) : nextGroup path path = none := by
  simp [nextGroup]

theorem nextGroup_snoc_self (path : List String) (name : String) :
    nextGroup path (path ++ [name]) = some (.group name) := by
  simp [nextGroup]

theorem nextGroup_snoc {path walked : List String} (h : path ≠ walked) :
    nextGroup path (walked ++ [name]) = nextGroup path walked := by
  unfold nextGroup
  by_cases hpre : path <+: walked
  · have hlt : path.length < walked.length :=
      Nat.lt_of_le_of_ne hpre.length_le fun hlen => h (hpre.eq_of_length hlen)
    rw [if_pos hpre, if_pos (hpre.trans (List.prefix_append _ _)), List.getElem?_append_left hlt]
  · rw [if_neg hpre]
    split
    · rename_i hsnoc
      have hall : path = walked ++ [name] := (List.prefix_concat_iff.mp hsnoc).resolve_right hpre
      rw [hall, List.getElem?_eq_none (Nat.le_refl _)]
      rfl
    · rfl

theorem childrenOf_append (pushes : MenuPushes) (c : Option String) (e : MenuEntry) :
    childrenOf (pushes ++ [(c, e)]) c = childrenOf pushes c ++ [e] := by
  simp [childrenOf]

theorem childrenOf_append_ne (pushes : MenuPushes) {c c' : Option String} (e : MenuEntry)
    (h : c ≠ c') : childrenOf (pushes ++ [(c, e)]) c' = childrenOf pushes c' := by
  simp [childrenOf, h]

theorem mem_childrenOf {e : MenuEntry} : e ∈ childrenOf pushes c ↔ (c, e) ∈ pushes := by
  simp [childrenOf, and_comm]

theorem group_shown {label : String} :
    .group label ∈ (childrenOf pushes c).map MenuEntry.shown ↔
      ∃ key, (c, .group key label) ∈ pushes := by
  simp only [List.mem_map, mem_childrenOf]
  constructor
  · intro ⟨e, hmem, he⟩
    cases e with
    | leaf k l => cases he
    | group k l =>
        cases he
        exact ⟨k, hmem⟩
  · intro ⟨key, hmem⟩
    exact ⟨_, hmem, rfl⟩

section Places

variable {items grouped listed : List NavigationItem} {pushes : MenuPushes}

/-- The top and the places of groups. -/
def IsPlace (items : List NavigationItem) (path : List String) : Prop :=
  path = [] ∨ GroupPlace items path

theorem isPlace_of_start (hitem : item ∈ items) (h : path <+: groupPathOf item) : IsPlace items path := by
  by_cases hnil : path = []
  · exact .inl hnil
  · exact .inr ⟨hnil, item, hitem, h⟩

theorem placeOf_inj (hkeys : KeysTellPlaces items) {p q : List String} (hp : IsPlace items p)
    (hq : IsPlace items q) (h : placeOf p = placeOf q) : p = q := by
  obtain ⟨hnil, hjoin⟩ := placeOf_eq_iff.mp h
  rcases hp with hp | hp
  · rw [hp, hnil.mp hp]
  · rcases hq with hq | hq
    · exact absurd (hnil.mpr hq) hp.1
    · exact hkeys p q hp hq hjoin

/-- A walk has shown below every place what the items before it and the walk itself show. -/
def ShownSoFar (items done : List NavigationItem) (pushes : MenuPushes) (walked : List String) :
    Prop :=
  ∀ path, IsPlace items path → (childrenOf pushes (placeOf path)).map MenuEntry.shown =
    firstOccurrences (done.filterMap (nextOn path) ++ (nextGroup path walked).toList)

variable {done : List NavigationItem}

theorem ShownSoFar.enter (hkeys : KeysTellPlaces items) (hall : ∀ item ∈ grouped, item ∈ items)
    (h : Built grouped listed pushes) (hplace : IsPlace items (path ++ [name]))
    (hpath : IsPlace items path) (hshown : ShownSoFar items done pushes path) :
    ShownSoFar items done (enterGroup (pushes, placeOf path, path) name).1 (path ++ [name]) := by
  have hgroup : ∀ {c key label}, (c, .group key label) ∈ pushes → ∃ other, c = placeOf other ∧
      key = groupMenuKey (other ++ [label]) ∧ IsPlace items other ∧
      IsPlace items (other ++ [label]) := by
    intro c key label hmem
    obtain ⟨other, hc, hkey, item, hitem, hpre⟩ := h.groups c key label hmem
    exact ⟨other, hc, hkey, isPlace_of_start (hall item hitem)
      ((List.prefix_append _ _).trans hpre), isPlace_of_start (hall item hitem) hpre⟩
  intro other hother
  by_cases hne : other = path
  · -- below the path itself the walk shows the name
    subst hne
    have hbelow : hasGroup pushes (groupMenuKey (other ++ [name])) = true ↔
        .group name ∈ (childrenOf pushes (placeOf other)).map MenuEntry.shown := by
      rw [hasGroup_iff, group_shown]
      constructor
      · intro ⟨c, label, hmem⟩
        obtain ⟨above, hc, hkey, -, hbelow⟩ := hgroup hmem
        have hsame : other ++ [name] = above ++ [label] := placeOf_inj hkeys hplace hbelow
          (by rw [placeOf_snoc, placeOf_snoc, hkey])
        obtain ⟨rfl, hlabel⟩ := List.append_inj' hsame rfl
        cases hlabel
        exact ⟨_, hc ▸ hmem⟩
      · intro ⟨key, hmem⟩
        exact ⟨_, name, h.key_below hmem ▸ hmem⟩
    have hold := hshown other hother
    rw [nextGroup_self] at hold
    rw [nextGroup_snoc_self, Option.toList_some, firstOccurrences_group]
    rw [Option.toList_none, List.append_nil] at hold
    unfold enterGroup
    dsimp only
    split
    · rename_i hhas
      rw [if_pos (hold ▸ hbelow.mp hhas), hold]
    · rename_i hhas
      rw [if_neg (hold ▸ fun hmem => hhas (hbelow.mpr hmem)), childrenOf_append, List.map_append,
        hold]
      rfl
  · -- elsewhere nothing changes
    rw [nextGroup_snoc hne, ← hshown other hother]
    unfold enterGroup
    dsimp only
    split
    · rfl
    · rw [childrenOf_append_ne _ _ fun heq => hne (placeOf_inj hkeys hother hpath heq.symm)]

theorem ShownSoFar.leaf (hkeys : KeysTellPlaces items) (hitem : item ∈ items)
    (hshown : ShownSoFar items done pushes (groupPathOf item)) :
    ∀ path, IsPlace items path →
      (childrenOf (pushes ++ [(placeOf (groupPathOf item), leafOf item)]) (placeOf path)).map
        MenuEntry.shown = firstOccurrences ((done ++ [item]).filterMap (nextOn path)) := by
  intro path hpath
  have hplace : IsPlace items (groupPathOf item) := isPlace_of_start hitem (List.prefix_refl _)
  rw [List.filterMap_append]
  by_cases heq : groupPathOf item = path
  · subst heq
    have hnext : List.filterMap (nextOn (groupPathOf item)) [item] =
        [.leaf item.path item.label] := by simp [nextOn]
    rw [hnext, childrenOf_append, List.map_append, hshown _ hpath, nextGroup_self,
      Option.toList_none, List.append_nil, firstOccurrences_leaf]
    rfl
  · have hnext : List.filterMap (nextOn path) [item] =
        (nextGroup path (groupPathOf item)).toList := by
      rw [← nextOn_of_ne heq]
      cases h : nextOn path item <;> simp [h]
    rw [hnext, childrenOf_append_ne _ _ fun h => heq (placeOf_inj hkeys hplace hpath h),
      hshown _ hpath]

theorem shown_menuItems (hkeys : KeysTellPlaces items) (hdone : ∀ item ∈ done, item ∈ items)
    {path : List String} (hpath : IsPlace items path) :
    (childrenOf (menuItems done) (placeOf path)).map MenuEntry.shown =
      firstOccurrences (done.filterMap (nextOn path)) := by
  induction done using List.reverseRecOn generalizing path with
  | nil => rfl
  | append_singleton done item ih =>
      have hitem : item ∈ items := hdone item (by simp)
      have hbefore : ∀ item ∈ done, item ∈ items := fun item h => hdone item (by simp [h])
      have hstart : ShownSoFar items done (menuItems done) [] := by
        intro path hpath
        have hnone : nextGroup path [] = none := by simp [nextGroup]
        rw [hnone, Option.toList_none, List.append_nil]
        exact ih hbefore hpath
      obtain ⟨⟨-, hwalk⟩, hplace⟩ := @walk_keeps (menuItems done)
        (fun pushes walked => Built (done ++ [item]) done pushes ∧
          ShownSoFar items done pushes walked) (groupPathOf item) []
        ⟨(built_menuItems done).more item, hstart⟩ fun pushes walked name hpre hboth => by
          have hname : IsPlace items (walked ++ [name]) := isPlace_of_start hitem hpre
          have hwalked : IsPlace items walked :=
            isPlace_of_start hitem ((List.prefix_append _ _).trans hpre)
          exact ⟨hboth.1.enter (by simp) hpre, hboth.2.enter hkeys hdone hboth.1 hname hwalked⟩
      rw [List.nil_append] at hwalk hplace
      have hadd : menuItems (done ++ [item]) =
          ((groupPathOf item).foldl enterGroup (menuItems done, none, [])).1 ++
            [(placeOf (groupPathOf item), leafOf item)] := by
        rw [← hplace, menuItems, List.foldl_append]
        rfl
      rw [hadd]
      exact hwalk.leaf hkeys hitem path hpath

theorem way_to_place (hkeys : KeysTellPlaces items) {path : List String}
    (hpath : IsPlace items path) :
    ∃ way, Way (menuItems items) (placeOf path) way ∧ labelsOf way = path := by
  induction path using List.reverseRecOn with
  | nil => exact ⟨[], .top, rfl⟩
  | append_singleton path name ih =>
      rcases hpath with hnil | ⟨-, item, hitem, hpre⟩
      · exact absurd hnil (by simp)
      have habove : IsPlace items path :=
        isPlace_of_start hitem ((List.prefix_append _ _).trans hpre)
      obtain ⟨way, hway, hlabels⟩ := ih habove
      have hnext : nextOn path item = some (.group name) := by
        obtain ⟨rest, hrest⟩ := hpre
        have hne : groupPathOf item ≠ path := by
          rw [← hrest]
          simp
        rw [nextOn_of_ne hne, ← hrest]
        simp [nextGroup]
      have hmem : Shown.group name ∈
          (childrenOf (menuItems items) (placeOf path)).map MenuEntry.shown := by
        rw [shown_menuItems hkeys (fun _ h => h) habove, mem_firstOccurrences]
        exact List.mem_filterMap.mpr ⟨item, hitem, hnext⟩
      obtain ⟨key, hpush⟩ := group_shown.mp hmem
      refine ⟨way ++ [(key, name)], ?_, by rw [labelsOf_snoc, hlabels]⟩
      rw [placeOf_snoc, ← (built_menuItems items).key_below hpush]
      exact hway.group hpush

theorem Way.isPlace (hkeys : KeysTellPlaces items) {c : Option String}
    {way : List (String × String)} (hway : Way (menuItems items) c way) :
    IsPlace items (labelsOf way) := by
  have hbuilt := built_menuItems items
  induction hway with
  | top => exact .inl rfl
  | @group siblings way key label hway hmem ih =>
      obtain ⟨path, hc, -, item, hitem, hpre⟩ := hbuilt.groups _ _ _ hmem
      have hsame : labelsOf way = path := placeOf_inj hkeys ih
        (isPlace_of_start hitem ((List.prefix_append _ _).trans hpre)) (hway.place hbuilt ▸ hc)
      rw [labelsOf_snoc, hsame]
      exact isPlace_of_start hitem hpre

end Places

/-! ## When the tree is the tree of the items -/

theorem nextOn_isSome (h : path <+: groupPathOf item) : ∃ x, nextOn path item = some x := by
  unfold nextOn
  by_cases heq : groupPathOf item = path
  · exact ⟨_, if_pos heq⟩
  · have hlt : path.length < (groupPathOf item).length :=
      Nat.lt_of_le_of_ne h.length_le fun hlen => heq (h.eq_of_length hlen).symm
    rw [if_neg heq, if_pos h, List.getElem?_eq_getElem hlt]
    exact ⟨_, rfl⟩

theorem menuLaw_of_keysTellPlaces (hkeys : KeysTellPlaces items) : MenuLaw items (menuItems items) where
  once := by
    rw [(built_menuItems items).leaves, List.forall₂_map_right_iff, List.forall₂_same]
    intro item hitem
    exact ⟨rfl, way_to_place hkeys (isPlace_of_start hitem (List.prefix_refl _))⟩
  nonempty := by
    intro siblings key label hmem hempty
    obtain ⟨path, -, hkey, item, hitem, hpre⟩ := (built_menuItems items).groups _ _ _ hmem
    have hshown := shown_menuItems hkeys (fun _ h => h) (isPlace_of_start hitem hpre)
    rw [placeOf_snoc, ← hkey, hempty] at hshown
    obtain ⟨x, hx⟩ := nextOn_isSome hpre
    have hmem : x ∈ firstOccurrences (items.filterMap (nextOn (path ++ [label]))) :=
      mem_firstOccurrences.mpr (List.mem_filterMap.mpr ⟨item, hitem, hx⟩)
    rw [← hshown] at hmem
    cases hmem
  shared := by
    intro c c' way way' hway hway' n g g' hg hg'
    have hbuilt := built_menuItems items
    have hplace : ∀ {c way}, Way (menuItems items) c way → ∀ {g}, way[n]? = some g →
        GroupPlace items ((labelsOf way).take (n + 1)) := by
      intro c way hway g hg
      have hlt : n < way.length := (List.getElem?_eq_some_iff.mp hg).1
      have hne : labelsOf way ≠ [] := by
        intro hnil
        rw [List.map_eq_nil_iff.mp hnil] at hlt
        cases hlt
      rcases hway.isPlace hkeys with hnil | ⟨-, item, hitem, hpre⟩
      · exact absurd hnil hne
      · exact ⟨by simpa using hne, item, hitem, (List.take_prefix _ _).trans hpre⟩
    rw [hway.key hbuilt hg, hway'.key hbuilt hg', groupMenuKey_inj]
    exact ⟨hkeys _ _ (hplace hway hg) (hplace hway' hg'), congrArg joinNames⟩
  ordered := by
    intro c way hway
    rw [hway.place (built_menuItems items)]
    exact shown_menuItems hkeys (fun _ h => h) (hway.isPlace hkeys)

theorem keysTellPlaces_of_menuLaw (h : MenuLaw items (menuItems items)) : KeysTellPlaces items := by
  have hbuilt := built_menuItems items
  have hways : ∀ item ∈ items, ∃ c way, Way (menuItems items) c way ∧
      labelsOf way = groupPathOf item := by
    have honce := h.once
    rw [hbuilt.leaves, List.forall₂_map_right_iff, List.forall₂_same] at honce
    intro item hitem
    obtain ⟨-, way, hway, hlabels⟩ := honce item hitem
    exact ⟨_, way, hway, hlabels⟩
  have hplaces : ∀ p, GroupPlace items p → ∃ way, Way (menuItems items) (placeOf p) way ∧
      labelsOf way = p := by
    intro p hp
    obtain ⟨-, item, hitem, hpre⟩ := hp
    obtain ⟨c, way, hway, hlabels⟩ := hways item hitem
    have htake : p = (labelsOf way).take p.length := by
      rw [hlabels]
      exact List.prefix_iff_eq_take.mp hpre
    have hsub := hway.take hbuilt p.length
    rw [← htake] at hsub
    exact ⟨way.take p.length, hsub, by rw [labelsOf, List.map_take]; exact htake.symm⟩
  intro p q hp hq hjoin
  obtain ⟨way, hway, rfl⟩ := hplaces p hp
  obtain ⟨way', hway', rfl⟩ := hplaces q hq
  have hsame : placeOf (labelsOf way) = placeOf (labelsOf way') :=
    placeOf_eq_iff.mpr ⟨⟨fun h => absurd h hp.1, fun h => absurd h hq.1⟩, hjoin⟩
  rw [hsame] at hway
  rw [hway.eq hbuilt hway']

/-- The menu is the tree of the items exactly when no two places have one key. -/
theorem menuLaw_iff (items : List NavigationItem) :
    MenuLaw items (menuItems items) ↔ KeysTellPlaces items :=
  ⟨keysTellPlaces_of_menuLaw, menuLaw_of_keysTellPlaces⟩

/-- Two pages, one in a group with a slash in its name, one in two groups. -/
def slashItems : List NavigationItem :=
  [⟨"x", "甲", "/x", none, none, some ["a/b"], none⟩,
    ⟨"y", "乙", "/y", none, none, some ["a", "b"], none⟩]

/-- The second page ends up in the group of the first, and an empty group stays. -/
theorem not_menuLaw_slashItems : ¬ MenuLaw slashItems (menuItems slashItems) := by
  intro h
  have hempty : childrenOf (menuItems slashItems) (some "group:a") = [] := by decide +kernel
  have hmem : (none, MenuEntry.group "group:a" "a") ∈ menuItems slashItems := by decide +kernel
  exact h.nonempty none "group:a" "a" hmem hempty

end Wbme.Web
