import Mathlib.Data.List.Basic

/-! # JSON texts

Values as `JSON.stringify` reads them, the text it writes, and that the text tells the value.
Members of an object may be undefined; these are left out of the text. Numbers are of any type
with a text of its own.
-/

namespace Wbme.Lib

inductive JsValue (ν : Type) where
  | null
  | bool (b : Bool)
  | num (n : ν)
  | str (s : String)
  | arr (items : List (JsValue ν))
  | obj (fields : List (String × Option (JsValue ν)))

namespace JsValue

variable {ν : Type}

/-- Induction on a value, by its items and its defined members. -/
theorem induction {motive : JsValue ν → Prop} (null : motive .null)
    (bool : ∀ b, motive (.bool b)) (num : ∀ n, motive (.num n)) (str : ∀ s, motive (.str s))
    (arr : ∀ items, (∀ x ∈ items, motive x) → motive (.arr items))
    (obj : ∀ fields, (∀ key x, (key, some x) ∈ fields → motive x) → motive (.obj fields))
    (v : JsValue ν) : motive v := by
  let items : List (JsValue ν) → Prop := fun l => ∀ x ∈ l, motive x
  let fields : List (String × Option (JsValue ν)) → Prop :=
    fun l => ∀ key x, (key, some x) ∈ l → motive x
  let field : String × Option (JsValue ν) → Prop := fun f => ∀ x, f.2 = some x → motive x
  let member : Option (JsValue ν) → Prop := fun m => ∀ x, m = some x → motive x
  refine @JsValue.rec ν motive items fields field member null bool num str arr obj ?_ ?_ ?_ ?_ ?_
    ?_ ?_ v
  · intro x hx
    cases hx
  · intro x xs hx hxs y hy
    cases hy with
    | head => exact hx
    | tail _ hy => exact hxs y hy
  · intro key x hx
    cases hx
  · intro f fs hf hfs key x hx
    cases hx with
    | head => exact hf x rfl
    | tail _ hx => exact hfs key x hx
  · intro key m hm
    exact hm
  · intro x hx
    cases hx
  · intro x hx y hy
    cases hy
    exact hx

/-! ## The text -/

/-- `0123456789abcdef` -/
def hexDigit (n : Nat) : Char := if n < 10 then Char.ofNat (48 + n) else Char.ofNat (87 + n)

/-- A character of a string in its text. -/
def escapeChar (c : Char) : List Char :=
  if c = '"' then ['\\', '"']
  else if c = '\\' then ['\\', '\\']
  else if c = '\x08' then ['\\', 'b']
  else if c = '\x0c' then ['\\', 'f']
  else if c = '\n' then ['\\', 'n']
  else if c = '\r' then ['\\', 'r']
  else if c = '\t' then ['\\', 't']
  else if c.toNat < 0x20 then
    ['\\', 'u', '0', '0', hexDigit (c.toNat / 16), hexDigit (c.toNat % 16)]
  else [c]

def quote (s : String) : List Char := '"' :: (s.toList.flatMap escapeChar ++ ['"'])

mutual

/-- The characters of `JSON.stringify`, where `text` is that of a number. -/
def render (text : ν → String) : JsValue ν → List Char
  | .null => ['n', 'u', 'l', 'l']
  | .bool true => ['t', 'r', 'u', 'e']
  | .bool false => ['f', 'a', 'l', 's', 'e']
  | .num n => (text n).toList
  | .str s => quote s
  | .arr items => '[' :: renderItems text false items
  | .obj fields => '{' :: renderFields text false fields

/-- The items of an array from one on, with a comma before it or not. -/
def renderItems (text : ν → String) (comma : Bool) : List (JsValue ν) → List Char
  | [] => [']']
  | item :: items =>
      (if comma then [','] else []) ++ (render text item ++ renderItems text true items)

/-- The members of an object from one on, with a comma before it or not. -/
def renderFields (text : ν → String) (comma : Bool) :
    List (String × Option (JsValue ν)) → List Char
  | [] => ['}']
  | field :: fields =>
      renderField text comma field ++ renderFields text (comma || field.2.isSome) fields

def renderField (text : ν → String) (comma : Bool) : String × Option (JsValue ν) → List Char
  | (key, member) => renderMember text comma key member

/-- An undefined member has no text. -/
def renderMember (text : ν → String) (comma : Bool) (key : String) :
    Option (JsValue ν) → List Char
  | none => []
  | some value => (if comma then [','] else []) ++ (quote key ++ ':' :: render text value)

end

/-- `JSON.stringify` -/
def stringify (text : ν → String) (v : JsValue ν) : String := String.ofList (render text v)

/-- A value without undefined members. -/
inductive Plain : JsValue ν → Prop where
  | null : Plain .null
  | bool (b : Bool) : Plain (.bool b)
  | num (n : ν) : Plain (.num n)
  | str (s : String) : Plain (.str s)
  | arr {items : List (JsValue ν)} (h : ∀ x ∈ items, Plain x) : Plain (.arr items)
  | obj {fields : List (String × Option (JsValue ν))} (hsome : ∀ f ∈ fields, f.2.isSome = true)
      (h : ∀ key x, (key, some x) ∈ fields → Plain x) : Plain (.obj fields)

/-! ## Strings are told by their texts -/

def hexValue (c : Char) : Nat := if c.toNat < 58 then c.toNat - 48 else c.toNat - 87

theorem hexValue_hexDigit {n : Nat} (h : n < 16) : hexValue (hexDigit n) = n := by
  have hall : ∀ m : Fin 16, hexValue (hexDigit m) = m := by decide
  exact hall ⟨n, h⟩

/-- The character behind a backslash, and the rest. -/
def unescapeCode : List Char → Option (Char × List Char)
  | [] => none
  | 'u' :: _ :: _ :: a :: b :: rest =>
      some (Char.ofNat (16 * hexValue a + hexValue b), rest)
  | 'b' :: rest => some ('\x08', rest)
  | 'f' :: rest => some ('\x0c', rest)
  | 'n' :: rest => some ('\n', rest)
  | 'r' :: rest => some ('\r', rest)
  | 't' :: rest => some ('\t', rest)
  | c :: rest => some (c, rest)

/-- The first character that an escaped text says, and the rest. -/
def unescape : List Char → Option (Char × List Char)
  | [] => none
  | c :: rest => if c = '\\' then unescapeCode rest else some (c, rest)

theorem unescape_escapeChar (c : Char) (rest : List Char) :
    unescape (escapeChar c ++ rest) = some (c, rest) := by
  unfold escapeChar
  split
  · rename_i h; rw [h]; rfl
  split
  · rename_i h; rw [h]; rfl
  split
  · rename_i h; rw [h]; rfl
  split
  · rename_i h; rw [h]; rfl
  split
  · rename_i h; rw [h]; rfl
  split
  · rename_i h; rw [h]; rfl
  split
  · rename_i h; rw [h]; rfl
  split
  · rename_i h
    have hc : Char.ofNat (16 * hexValue (hexDigit (c.toNat / 16)) +
        hexValue (hexDigit (c.toNat % 16))) = c := by
      rw [hexValue_hexDigit (by omega), hexValue_hexDigit (by omega)]
      have hdiv : 16 * (c.toNat / 16) + c.toNat % 16 = c.toNat := by omega
      rw [hdiv, Char.ofNat_toNat]
    simp only [List.cons_append, List.nil_append, unescape, if_true, unescapeCode, hc]
  · rename_i hback _ _ _ _ _ _
    rw [List.singleton_append, unescape, if_neg hback]

theorem escapeChar_inj {c d : Char} {r s : List Char} (h : escapeChar c ++ r = escapeChar d ++ s) :
    c = d ∧ r = s := by
  have hsome := congrArg unescape h
  rw [unescape_escapeChar, unescape_escapeChar] at hsome
  simpa using hsome

theorem escapeChar_head (c : Char) : ∃ d rest, escapeChar c = d :: rest ∧ d ≠ '"' := by
  unfold escapeChar
  split
  · exact ⟨_, _, rfl, by decide⟩
  rename_i hquote
  repeat' split
  all_goals first
    | exact ⟨_, _, rfl, by decide⟩
    | exact ⟨_, _, rfl, hquote⟩

theorem quote_inj {a b : String} {r s : List Char} (h : quote a ++ r = quote b ++ s) :
    a = b ∧ r = s := by
  have hchars : ∀ cs ds : List Char, cs.flatMap escapeChar ++ '"' :: r =
      ds.flatMap escapeChar ++ '"' :: s → cs = ds ∧ r = s := by
    intro cs
    induction cs with
    | nil =>
        intro ds hds
        cases ds with
        | nil => simpa using hds
        | cons d ds =>
            obtain ⟨first, rest, hfirst, hne⟩ := escapeChar_head d
            rw [List.flatMap_cons, hfirst] at hds
            injection hds with hhead
            exact absurd hhead.symm hne
    | cons c cs ih =>
        intro ds hds
        cases ds with
        | nil =>
            obtain ⟨first, rest, hfirst, hne⟩ := escapeChar_head c
            rw [List.flatMap_cons, hfirst] at hds
            injection hds with hhead
            exact absurd hhead hne
        | cons d ds =>
            rw [List.flatMap_cons, List.flatMap_cons, List.append_assoc, List.append_assoc] at hds
            obtain ⟨hcd, hrest⟩ := escapeChar_inj hds
            obtain ⟨htail, hrs⟩ := ih ds hrest
            exact ⟨by rw [hcd, htail], hrs⟩
  have hinner : a.toList.flatMap escapeChar ++ '"' :: r = b.toList.flatMap escapeChar ++ '"' :: s := by
    simpa [quote] using h
  obtain ⟨hab, hrs⟩ := hchars _ _ hinner
  exact ⟨String.toList_injective hab, hrs⟩

/-! ## Values are told by their texts -/

def isNumberChar (c : Char) : Bool :=
  c.isDigit || c == '-' || c == '+' || c == '.' || c == 'e'

/-- Every number has a text of its own, written in digits, signs, points and exponents. -/
structure NumberText (text : ν → String) : Prop where
  injective : Function.Injective text
  nonempty : ∀ n, (text n).toList ≠ []
  chars : ∀ n, ∀ c ∈ (text n).toList, isNumberChar c = true

/-- What follows does not continue a number. -/
def Stops (rest : List Char) : Prop := ∀ c cs, rest = c :: cs → isNumberChar c = false

theorem takeWhile_number {l rest : List Char} (hl : ∀ c ∈ l, isNumberChar c = true)
    (hrest : Stops rest) : (l ++ rest).takeWhile isNumberChar = l := by
  rw [List.takeWhile_append_of_pos hl]
  cases rest with
  | nil => simp
  | cons c cs => simp [hrest c cs rfl]

variable {text : ν → String}

theorem number_inj (htext : NumberText text) {m n : ν} {r s : List Char} (hr : Stops r)
    (hs : Stops s) (h : (text m).toList ++ r = (text n).toList ++ s) : m = n ∧ r = s := by
  have hfirst := congrArg (List.takeWhile isNumberChar) h
  rw [takeWhile_number (htext.chars m) hr, takeWhile_number (htext.chars n) hs] at hfirst
  refine ⟨htext.injective (String.toList_injective hfirst), ?_⟩
  rw [hfirst] at h
  exact List.append_cancel_left h

/-- Which kind of value a text that begins so says. -/
def kindOfChar (c : Char) : Nat :=
  if c = 'n' then 0
  else if c = 't' ∨ c = 'f' then 1
  else if isNumberChar c then 2
  else if c = '"' then 3
  else if c = '[' then 4
  else if c = '{' then 5
  else 6

def kind : JsValue ν → Nat
  | .null => 0
  | .bool _ => 1
  | .num _ => 2
  | .str _ => 3
  | .arr _ => 4
  | .obj _ => 5

theorem kind_lt (v : JsValue ν) : v.kind < 6 := by
  cases v <;> simp [kind]

theorem kindOfChar_number {c : Char} (h : isNumberChar c = true) : kindOfChar c = 2 := by
  have hn : c ≠ 'n' := by
    intro heq
    rw [heq] at h
    cases h
  have ht : ¬ (c = 't' ∨ c = 'f') := by
    intro heq
    cases heq with
    | inl heq => rw [heq] at h; cases h
    | inr heq => rw [heq] at h; cases h
  rw [kindOfChar, if_neg hn, if_neg ht, if_pos h]

/-- A text begins with a character of its kind. -/
theorem render_head {text : ν → String} (htext : NumberText text) (v : JsValue ν) :
    ∃ c cs, render text v = c :: cs ∧ kindOfChar c = v.kind := by
  cases v with
  | null => exact ⟨'n', _, by rw [render], rfl⟩
  | bool b =>
      cases b with
      | true => exact ⟨'t', _, by rw [render], rfl⟩
      | false => exact ⟨'f', _, by rw [render], rfl⟩
  | num n =>
      cases hn : (text n).toList with
      | nil => exact absurd hn (htext.nonempty n)
      | cons c cs =>
          refine ⟨c, cs, by rw [render, hn], kindOfChar_number (htext.chars n c ?_)⟩
          rw [hn]
          exact List.mem_cons_self
  | str s => exact ⟨'"', _, by rw [render, quote], rfl⟩
  | arr items => exact ⟨'[', _, by rw [render], rfl⟩
  | obj fields => exact ⟨'{', _, by rw [render], rfl⟩

theorem kind_eq (htext : NumberText text) {v w : JsValue ν} {r s : List Char}
    (h : render text v ++ r = render text w ++ s) : v.kind = w.kind := by
  obtain ⟨c, cs, hv, hc⟩ := render_head htext v
  obtain ⟨d, ds, hw, hd⟩ := render_head htext w
  rw [hv, hw] at h
  injection h with hhead
  rw [← hc, ← hd, hhead]

/-- The text of a value, with what follows it, tells the value. -/
def Told (text : ν → String) (v : JsValue ν) : Prop :=
  ∀ w : JsValue ν, Plain w → ∀ r s, Stops r → Stops s →
    render text v ++ r = render text w ++ s → v = w ∧ r = s

theorem stops_items (text : ν → String) (items : List (JsValue ν)) (r : List Char) :
    Stops (renderItems text true items ++ r) := by
  intro c cs h
  cases items with
  | nil =>
      rw [renderItems] at h
      injection h with hhead
      rw [← hhead]
      rfl
  | cons item items =>
      rw [renderItems] at h
      injection h with hhead
      rw [← hhead]
      rfl

theorem renderItems_cons (text : ν → String) (comma : Bool) (item : JsValue ν)
    (items : List (JsValue ν)) (r : List Char) :
    renderItems text comma (item :: items) ++ r =
      (if comma then [','] else []) ++ (render text item ++ (renderItems text true items ++ r)) := by
  rw [renderItems]
  simp

theorem renderItems_inj (htext : NumberText text) {items : List (JsValue ν)}
    (htold : ∀ x ∈ items, Told text x) (comma : Bool) {items' : List (JsValue ν)}
    (hplain : ∀ x ∈ items', Plain x) {r s : List Char}
    (h : renderItems text comma items ++ r = renderItems text comma items' ++ s) :
    items = items' ∧ r = s := by
  -- a closing bracket begins no value
  have hclosed : ∀ (x : JsValue ν) (l m : List Char),
      ']' :: l ≠ (if comma then [','] else []) ++ (render text x ++ m) := by
    intro x l m heq
    cases comma with
    | true =>
        injection heq with hhead
        cases hhead
    | false =>
        obtain ⟨c, cs, hx, hc⟩ := render_head htext x
        rw [hx] at heq
        injection heq with hhead
        rw [← hhead] at hc
        have hlt := kind_lt x
        rw [← hc] at hlt
        exact absurd hlt (by decide)
  induction items generalizing comma items' r s with
  | nil =>
      cases items' with
      | nil =>
          rw [renderItems] at h
          injection h with _ htail
          exact ⟨rfl, htail⟩
      | cons y ys =>
          rw [renderItems, renderItems_cons] at h
          exact absurd h (hclosed y r _)
  | cons x xs ih =>
      cases items' with
      | nil =>
          rw [renderItems, renderItems_cons] at h
          exact absurd h.symm (hclosed x s _)
      | cons y ys =>
          rw [renderItems_cons, renderItems_cons] at h
          have hinner := List.append_cancel_left h
          obtain ⟨hxy, hrest⟩ := htold x List.mem_cons_self y (hplain y List.mem_cons_self) _ _
            (stops_items text xs r) (stops_items text ys s) hinner
          obtain ⟨htail, hrs⟩ := ih (fun z hz => htold z (List.mem_cons_of_mem x hz)) true
            (fun z hz => hplain z (List.mem_cons_of_mem y hz)) hrest (by
              intro z l m heq
              injection heq with hhead
              cases hhead)
          exact ⟨by rw [hxy, htail], hrs⟩

theorem renderFields_cons (text : ν → String) (comma : Bool) (key : String) (x : JsValue ν)
    (fields : List (String × Option (JsValue ν))) (r : List Char) :
    renderFields text comma ((key, some x) :: fields) ++ r =
      (if comma then [','] else []) ++
        (quote key ++ ':' :: (render text x ++ (renderFields text true fields ++ r))) := by
  rw [renderFields, renderField, renderMember]
  simp

theorem stops_fields (text : ν → String) {fields : List (String × Option (JsValue ν))}
    (hsome : ∀ f ∈ fields, f.2.isSome = true) (r : List Char) :
    Stops (renderFields text true fields ++ r) := by
  intro c cs h
  cases fields with
  | nil =>
      rw [renderFields] at h
      injection h with hhead
      rw [← hhead]
      rfl
  | cons field fields =>
      obtain ⟨key, member⟩ := field
      obtain ⟨x, hx⟩ := Option.isSome_iff_exists.mp (hsome _ List.mem_cons_self)
      cases hx
      rw [renderFields_cons] at h
      injection h with hhead
      rw [← hhead]
      rfl

theorem renderFields_inj {text : ν → String} {fields : List (String × Option (JsValue ν))}
    (hsome : ∀ f ∈ fields, f.2.isSome = true)
    (htold : ∀ key x, (key, some x) ∈ fields → Told text x) (comma : Bool)
    {fields' : List (String × Option (JsValue ν))} (hsome' : ∀ f ∈ fields', f.2.isSome = true)
    (hplain : ∀ key x, (key, some x) ∈ fields' → Plain x) {r s : List Char}
    (h : renderFields text comma fields ++ r = renderFields text comma fields' ++ s) :
    fields = fields' ∧ r = s := by
  have hclosed : ∀ (comma : Bool) (key : String) (l m : List Char),
      '}' :: l ≠ (if comma then [','] else []) ++ (quote key ++ m) := by
    intro comma key l m heq
    cases comma with
    | true =>
        injection heq with hhead
        cases hhead
    | false =>
        injection heq with hhead
        cases hhead
  induction fields generalizing comma fields' r s with
  | nil =>
      cases fields' with
      | nil =>
          rw [renderFields] at h
          injection h with _ htail
          exact ⟨rfl, htail⟩
      | cons field' rest' =>
          obtain ⟨key', member'⟩ := field'
          obtain ⟨y, hy⟩ := Option.isSome_iff_exists.mp (hsome' _ List.mem_cons_self)
          cases hy
          rw [renderFields, renderFields_cons] at h
          exact absurd h (hclosed comma key' r _)
  | cons field rest ih =>
      obtain ⟨key, member⟩ := field
      obtain ⟨x, hx⟩ := Option.isSome_iff_exists.mp (hsome _ List.mem_cons_self)
      cases hx
      rw [renderFields_cons] at h
      cases fields' with
      | nil =>
          rw [renderFields] at h
          exact absurd h.symm (hclosed comma key s _)
      | cons field' rest' =>
          obtain ⟨key', member'⟩ := field'
          obtain ⟨y, hy⟩ := Option.isSome_iff_exists.mp (hsome' _ List.mem_cons_self)
          cases hy
          rw [renderFields_cons] at h
          obtain ⟨hkey, hvalue⟩ := quote_inj (List.append_cancel_left h)
          injection hvalue with _ hvalue
          have hrest := fun f hf => hsome f (List.mem_cons_of_mem (key, some x) hf)
          have hrest' := fun f hf => hsome' f (List.mem_cons_of_mem (key', some y) hf)
          obtain ⟨hxy, hlater⟩ := htold key x List.mem_cons_self y
            (hplain key' y List.mem_cons_self) _ _ (stops_fields text hrest r)
            (stops_fields text hrest' s) hvalue
          obtain ⟨htail, hrs⟩ := ih hrest
            (fun k z hz => htold k z (List.mem_cons_of_mem _ hz)) true hrest'
            (fun k z hz => hplain k z (List.mem_cons_of_mem _ hz)) hlater
          exact ⟨by rw [hkey, hxy, htail], hrs⟩

theorem told_of_plain {text : ν → String} (htext : NumberText text) (v : JsValue ν)
    (hv : Plain v) : Told text v := by
  induction v using JsValue.induction with
  | null =>
      intro w hw r s hr hs h
      have hkind := kind_eq htext h
      cases w <;> simp [kind] at hkind
      rw [render] at h
      exact ⟨rfl, List.append_cancel_left h⟩
  | bool b =>
      intro w hw r s hr hs h
      have hkind := kind_eq htext h
      cases w <;> simp [kind] at hkind
      rename_i b'
      cases b <;> cases b' <;> simp only [render] at h
      · exact ⟨rfl, List.append_cancel_left h⟩
      · injection h with hhead
        cases hhead
      · injection h with hhead
        cases hhead
      · exact ⟨rfl, List.append_cancel_left h⟩
  | num n =>
      intro w hw r s hr hs h
      have hkind := kind_eq htext h
      cases w <;> simp [kind] at hkind
      rw [render, render] at h
      obtain ⟨hn, hrs⟩ := number_inj htext hr hs h
      exact ⟨by rw [hn], hrs⟩
  | str a =>
      intro w hw r s hr hs h
      have hkind := kind_eq htext h
      cases w <;> simp [kind] at hkind
      rw [render, render] at h
      obtain ⟨ha, hrs⟩ := quote_inj h
      exact ⟨by rw [ha], hrs⟩
  | arr items ih =>
      intro w hw r s hr hs h
      have hkind := kind_eq htext h
      cases w <;> simp [kind] at hkind
      rw [render, render] at h
      injection h with _ h
      cases hv with
      | arr hitems =>
          cases hw with
          | arr hitems' =>
              obtain ⟨hl, hrs⟩ := renderItems_inj htext (fun x hx => ih x hx (hitems x hx)) false
                hitems' h
              exact ⟨by rw [hl], hrs⟩
  | obj fields ih =>
      intro w hw r s hr hs h
      have hkind := kind_eq htext h
      cases w <;> simp [kind] at hkind
      rw [render, render] at h
      injection h with _ h
      cases hv with
      | obj hsome hfields =>
          cases hw with
          | obj hsome' hfields' =>
              obtain ⟨hl, hrs⟩ := renderFields_inj hsome
                (fun key x hx => ih key x hx (hfields key x hx)) false hsome' hfields' h
              exact ⟨by rw [hl], hrs⟩

/-- Values without undefined members that are written alike are the same. -/
theorem stringify_inj (htext : NumberText text) {v w : JsValue ν} (hv : Plain v) (hw : Plain w)
    (h : stringify text v = stringify text w) : v = w := by
  have hnil : Stops [] := by
    intro c cs hc
    cases hc
  have hchars : render text v = render text w := by
    simpa [stringify] using congrArg String.toList h
  have hboth : render text v ++ [] = render text w ++ [] := by rw [hchars]
  exact (told_of_plain htext v hv w hw [] [] hnil hnil hboth).1

end JsValue

end Wbme.Lib
