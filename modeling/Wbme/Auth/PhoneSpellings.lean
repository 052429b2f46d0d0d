import Mathlib.Data.List.TakeWhile
import Wbme.Auth.Phone

/-! # Spellings of one phone number

What is typed is read by its digits where they begin with a country prefix, and else by the
plus sign in front and the shape of what follows. Two spellings of one number agree exactly
when neither the sign nor that shape tells them apart.
-/

namespace Wbme.Auth

open Wbme.Fin (isSpace trimChars)

/-! ## How a text is read -/

/-- The digits that follow a plus sign, as far as blanks and dashes may stand among them: the
second digit comes at once or after blanks. -/
def plainNumber : List Char → Bool
  | [] => false
  | d :: rest =>
      d.isDigit && (rest.dropWhile isSpace).head?.any Char.isDigit &&
        rest.all fun c => c.isDigit || isSpace c || c == '-'

inductive Spelling where
  | domestic
  | international
  | refused
deriving DecidableEq

/-- What a trimmed text is read as, where its digits do not begin with a country prefix. -/
def spelling : List Char → Spelling
  | '+' :: rest => if plainNumber rest then .international else .refused
  | _ => .domestic

/-- Whether the number of digits fits the stored form. -/
def Spelling.accepts (digits : List Char) : Spelling → Bool
  | .domestic => 4 ≤ digits.length && digits.length ≤ 16
  | .international => 6 ≤ digits.length && digits.length ≤ 18
  | .refused => false

def Spelling.code : Spelling → List Char
  | .domestic => defaultCountryCode
  | _ => []

/-- Digits that name their country by themselves. -/
def prefixed (digits : List Char) : Bool :=
  digits.take 4 = ['0', '0', '8', '6'] || (digits.take 2 = ['8', '6'] && 11 < digits.length)

/-- A character may stand between two parts of a text: the digits name the country, or the texts
with and without it are read in one way, or neither has a fitting number of digits. -/
def keepsReading (before after : List Char) (c : Char) : Bool :=
  let digits := stripPhoneDigits (before ++ after)
  let plain := spelling (trimChars (before ++ after))
  let spaced := spelling (trimChars (before ++ c :: after))
  prefixed digits || spaced == plain || !(spaced.accepts digits || plain.accepts digits)

/-- A country code and a number that are read back from the text of both. -/
def readsBack (stateCode mobile : List Char) : Bool :=
  let digits := stripPhoneDigits stateCode ++ stripPhoneDigits mobile
  let zeros := (stateCode.filter fun c => !isSpace c).take 2 == ['0', '0']
  if digits.take 4 = ['0', '0', '8', '6'] then zeros
  else if digits.take 2 = ['8', '6'] ∧ 11 < digits.length then true
  else !zeros && spelling (trimChars ('+' :: (stateCode ++ ' ' :: mobile))) == .international

/-! ## Digits and blanks -/

variable {digits : List Char} {c : Char}

theorem not_isSpace_of_isDigit (h : c.isDigit = true) : isSpace c = false := by
  have hc : 48 ≤ c.toNat ∧ c.toNat ≤ 57 := by
    simpa [Char.isDigit, UInt32.le_iff_toNat_le] using h
  simp [isSpace]
  omega

theorem not_isDigit_of_isSpace (h : isSpace c = true) : c.isDigit = false := by
  rw [← Bool.not_eq_true]
  intro hd
  rw [not_isSpace_of_isDigit hd] at h
  cases h

@[simp] theorem strip_append (xs ys : List Char) :
    stripPhoneDigits (xs ++ ys) = stripPhoneDigits xs ++ stripPhoneDigits ys :=
  List.filter_append ..

theorem strip_cons_of_not (h : c.isDigit = false) (xs : List Char) :
    stripPhoneDigits (c :: xs) = stripPhoneDigits xs :=
  List.filter_cons_of_neg (by simp [h])

theorem strip_of_all {xs : List Char} (h : xs.all Char.isDigit = true) :
    stripPhoneDigits xs = xs :=
  List.filter_eq_self.mpr (List.all_eq_true.mp h)

variable (xs : List Char)

theorem all_strip : (stripPhoneDigits xs).all Char.isDigit = true :=
  List.all_eq_true.mpr fun _ hc => (List.mem_filter.mp hc).2

theorem strip_dropWhile (xs : List Char) :
    stripPhoneDigits (xs.dropWhile isSpace) = stripPhoneDigits xs := by
  induction xs with
  | nil => rfl
  | cons c xs ih =>
      by_cases hc : isSpace c = true
      · rw [List.dropWhile_cons_of_pos hc, ih, strip_cons_of_not (not_isDigit_of_isSpace hc)]
      · rw [List.dropWhile_cons_of_neg hc]

theorem strip_reverse : stripPhoneDigits xs.reverse = (stripPhoneDigits xs).reverse := List.filter_reverse ..

@[simp] theorem strip_trimChars : stripPhoneDigits (trimChars xs) = stripPhoneDigits xs := by
  rw [trimChars, strip_reverse, strip_dropWhile, strip_reverse, List.reverse_reverse,
    strip_dropWhile]

theorem strip_filter_not_isSpace (xs : List Char) :
    stripPhoneDigits (xs.filter fun c => !isSpace c) = stripPhoneDigits xs := by
  rw [stripPhoneDigits, stripPhoneDigits, List.filter_filter]
  refine List.filter_congr fun c _ => ?_
  cases hc : c.isDigit with
  | false => rfl
  | true => rw [not_isSpace_of_isDigit hc]; rfl

/-! ## The shape behind a plus sign -/

/-- A country code of any length in front of a number makes the plain shape, and nothing of the
digits is lost. -/
theorem plainNumber_of_code {rest : List Char} {k : Nat} (hk : 1 ≤ k)
    (hlen : (rest.take k).length = k) (hcode : (rest.take k).all Char.isDigit = true)
    (hhead : ((rest.drop k).dropWhile isSpace).head?.any Char.isDigit = true)
    (hall : ((rest.drop k).dropWhile isSpace).all
      (fun c => c.isDigit || isSpace c || c == '-') = true) :
    plainNumber rest = true ∧
      rest.take k ++ stripPhoneDigits ((rest.drop k).dropWhile isSpace) =
        stripPhoneDigits rest := by
  constructor
  · cases rest with
    | nil => simp at hlen; omega
    | cons d more =>
        obtain ⟨j, rfl⟩ := Nat.exists_eq_add_of_le hk
        rw [Nat.add_comm, List.take_succ_cons, List.all_cons, Bool.and_eq_true] at hcode
        rw [Nat.add_comm, List.drop_succ_cons] at hhead hall
        have hmore : more.all (fun c => c.isDigit || isSpace c || c == '-') = true := by
          rw [← List.take_append_drop j more, List.all_append, Bool.and_eq_true,
            List.all_eq_true, List.all_eq_true]
          refine ⟨fun c hc => by simp [List.all_eq_true.mp hcode.2 c hc], fun c hc => ?_⟩
          rw [← List.takeWhile_append_dropWhile (p := isSpace) (l := more.drop j)] at hc
          rcases List.mem_append.mp hc with hc | hc
          · simp [List.mem_takeWhile_imp hc]
          · exact List.all_eq_true.mp hall c hc
        have hnext : (more.dropWhile isSpace).head?.any Char.isDigit = true := by
          cases j with
          | zero => simpa using hhead
          | succ j =>
              cases more with
              | nil => simp at hlen
              | cons e more =>
                  have he : e.isDigit = true := by simpa using (by simpa using hcode.2 : _ ∧ _).1
                  rw [List.dropWhile_cons_of_neg (by simp [not_isSpace_of_isDigit he])]
                  simpa using he
        simp only [plainNumber, hcode.1, hnext, hmore, Bool.and_self]
  · rw [strip_dropWhile]
    conv => rhs; rw [← List.take_append_drop k rest, strip_append, strip_of_all hcode]

theorem splitCountryCode_spec (rest : List Char) :
    match splitCountryCode rest with
    | some (code, number) =>
        plainNumber rest = true ∧ stripPhoneDigits number ≠ [] ∧
          code ++ stripPhoneDigits number = stripPhoneDigits rest
    | none => plainNumber rest = false := by
  cases h : splitCountryCode rest with
  | some parts =>
      obtain ⟨k, hk, hf⟩ := List.exists_of_findSome?_eq_some h
      have hpos : 1 ≤ k := by
        rcases List.mem_cons.mp hk with rfl | hk
        · decide
        · simp at hk
          omega
      dsimp only at hf
      split at hf
      · next hcond =>
          obtain rfl := Option.some.inj hf
          obtain ⟨hplain, hdigits⟩ :=
            plainNumber_of_code hpos hcond.1 hcond.2.1 hcond.2.2.1 hcond.2.2.2
          refine ⟨hplain, fun hnil => ?_, hdigits⟩
          cases hn : (rest.drop k).dropWhile isSpace with
          | nil => simp [hn] at hcond
          | cons d more =>
              have hd : d.isDigit = true := by simpa [hn] using hcond.2.2.1
              rw [hn, stripPhoneDigits, List.filter_cons_of_pos hd] at hnil
              cases hnil
      · cases hf
  | none =>
      rw [← Bool.not_eq_true]
      intro hplain
      have hone := List.findSome?_eq_none_iff.mp h 1 (by simp)
      cases rest with
      | nil => cases hplain
      | cons d more =>
          simp only [plainNumber, Bool.and_eq_true] at hplain
          have hall : (more.dropWhile isSpace).all
              (fun c => c.isDigit || isSpace c || c == '-') = true :=
            List.all_eq_true.mpr fun c hc =>
              List.all_eq_true.mp hplain.2 c ((List.dropWhile_sublist _).subset hc)
          simp [hplain.1.1, hplain.1.2, hall] at hone

/-! ## What is stored -/

theorem normalized_nil (h : digits.all Char.isDigit = true) :
    normalized [] digits =
      if 6 ≤ digits.length ∧ digits.length ≤ 18 then some (String.ofList ('+' :: digits))
      else none := by
  simp only [normalized, List.nil_append, isNormalizedPhone, h, Bool.true_and, Bool.and_eq_true,
    decide_eq_true_eq]

theorem normalized_append (code digits : List Char) :
    normalized code digits = normalized [] (code ++ digits) := by
  simp only [normalized, List.nil_append]

theorem Spelling.normalized_eq {digits : List Char} (h : digits.all Char.isDigit = true)
    (s : Spelling) (hs : s ≠ .refused) :
    normalized s.code digits =
      if s.accepts digits then some (String.ofList ('+' :: (s.code ++ digits))) else none := by
  rw [normalized_append,
    normalized_nil (by cases s <;> simp [Spelling.code, defaultCountryCode, h])]
  cases s with
  | refused => exact absurd rfl hs
  | domestic =>
      simp only [Spelling.code, defaultCountryCode, Spelling.accepts, List.length_append,
        List.length_cons, List.length_nil, Bool.and_eq_true, decide_eq_true_eq]
      exact if_congr (by omega) rfl rfl
  | international =>
      simp only [Spelling.code, Spelling.accepts, List.nil_append, Bool.and_eq_true,
        decide_eq_true_eq]
      exact if_congr Iff.rfl rfl rfl

/-- What a text without a country prefix in its digits is stored as. -/
def Spelling.stored (digits : List Char) (s : Spelling) : Option String :=
  if s.accepts digits then some (String.ofList ('+' :: (s.code ++ digits))) else none

theorem normalizePhoneInput_eq (raw : List Char) :
    normalizePhoneInput (String.ofList raw) =
      let digits := stripPhoneDigits raw
      if digits.take 4 = ['0', '0', '8', '6'] then normalized [] (digits.drop 2)
      else if digits.take 2 = ['8', '6'] ∧ 11 < digits.length then normalized [] digits
      else (spelling (trimChars raw)).stored digits := by
  have hdigits := all_strip raw
  unfold normalizePhoneInput typedParts
  simp only [String.toList_ofList, strip_trimChars]
  generalize hd : stripPhoneDigits raw = digits at hdigits
  by_cases hempty : trimChars raw = []
  · have hnil : digits = [] := by rw [← hd, ← strip_trimChars, hempty]; rfl
    subst hnil
    simp [hempty, spelling, Spelling.stored, Spelling.accepts]
  rw [if_neg hempty]
  by_cases h0086 : digits.take 4 = ['0', '0', '8', '6']
  · have hsplit := List.take_append_drop 4 digits
    rw [h0086] at hsplit
    have hdrop : digits.drop 2 = ['8', '6'] ++ digits.drop 4 := by rw [← hsplit]; rfl
    simp only [h0086, if_true, Option.bind_some, hdrop]
    by_cases hnil : digits.drop 4 = []
    · rw [if_pos hnil, hnil]
      rfl
    · rw [if_neg hnil, normalized_append]
  rw [if_neg h0086, if_neg h0086]
  by_cases h86 : digits.take 2 = ['8', '6'] ∧ 11 < digits.length
  · have hsplit := List.take_append_drop 2 digits
    rw [h86.1] at hsplit
    rw [if_pos h86, if_pos h86, Option.bind_some, if_neg, normalized_append, hsplit]
    intro hnil
    have := congrArg List.length hnil
    simp only [List.length_drop, List.length_nil] at this
    omega
  rw [if_neg h86, if_neg h86]
  by_cases hplus : ∃ rest, trimChars raw = '+' :: rest
  · obtain ⟨rest, hrest⟩ := hplus
    have hstrip : stripPhoneDigits rest = digits := by
      rw [← hd, ← strip_trimChars raw, hrest, strip_cons_of_not (by decide)]
    have hspec := splitCountryCode_spec rest
    rw [hrest]
    show ((splitCountryCode rest).map fun parts =>
      (parts.1, stripPhoneDigits parts.2)).bind _ = _
    cases hcode : splitCountryCode rest with
    | none =>
        rw [hcode] at hspec
        simp [spelling, hspec, Spelling.stored, Spelling.accepts]
    | some parts =>
        rw [hcode] at hspec
        obtain ⟨hplain, hne, happ⟩ := hspec
        rw [Option.map_some, Option.bind_some, if_neg hne, normalized_append, happ, hstrip]
        have hread : spelling ('+' :: rest) = .international := by simp [spelling, hplain]
        rw [hread]
        exact Spelling.normalized_eq hdigits .international (by simp)
  · have hread : spelling (trimChars raw) = .domestic := by
      unfold spelling
      split
      · next rest hrest => exact absurd ⟨rest, hrest⟩ hplus
      · rfl
    split
    · next rest hrest => exact absurd ⟨rest, hrest⟩ hplus
    rw [Option.bind_some, hread]
    by_cases hnil : digits = []
    · subst hnil
      rfl
    · rw [if_neg hnil]
      exact Spelling.normalized_eq hdigits .domestic (by simp)

/-! ## The stored form -/

theorem exists_digits {phone : List Char} (h : isNormalizedPhone phone = true) :
    ∃ digits, phone = '+' :: digits ∧ digits.all Char.isDigit = true ∧ 6 ≤ digits.length ∧
      digits.length ≤ 18 := by
  unfold isNormalizedPhone at h
  split at h
  · next digits =>
      simp only [Bool.and_eq_true, decide_eq_true_eq] at h
      exact ⟨digits, rfl, h.1.1, h.1.2, h.2⟩
  · cases h

theorem dropWhile_isSpace_of_digit {cs : List Char}
    (h : ∀ c, cs.head? = some c → isSpace c = false) : cs.dropWhile isSpace = cs := by
  cases cs with
  | nil => rfl
  | cons c cs => exact List.dropWhile_cons_of_neg (by simp [h c rfl])

theorem trimChars_stored (h : digits.all Char.isDigit = true) :
    trimChars ('+' :: digits) = '+' :: digits := by
  have hno : ∀ c ∈ '+' :: digits, isSpace c = false := by
    intro c hc
    rcases List.mem_cons.mp hc with rfl | hc
    · decide
    · exact not_isSpace_of_isDigit (List.all_eq_true.mp h c hc)
  rw [trimChars, dropWhile_isSpace_of_digit fun c hc => hno c (List.mem_of_mem_head? hc),
    dropWhile_isSpace_of_digit fun c hc =>
      hno c (List.mem_reverse.mp (List.mem_of_mem_head? hc)), List.reverse_reverse]

theorem plainNumber_of_all {digits : List Char} (h : digits.all Char.isDigit = true)
    (hlen : 2 ≤ digits.length) : plainNumber digits = true := by
  match digits, hlen with
  | d :: e :: rest, _ =>
      simp only [List.all_cons, Bool.and_eq_true] at h
      rw [plainNumber, List.dropWhile_cons_of_neg (by simp [not_isSpace_of_isDigit h.2.1])]
      simp only [h.1, h.2.1, List.head?_cons, Option.any_some, List.all_cons, Bool.true_or,
        Bool.true_and, List.all_eq_true]
      exact fun c hc => by simp [List.all_eq_true.mp h.2.2 c hc]

theorem input_stored (h : digits.all Char.isDigit = true) (h6 : 6 ≤ digits.length)
    (h18 : digits.length ≤ 18) :
    normalizePhoneInput (String.ofList ('+' :: digits)) = some (String.ofList ('+' :: digits)) ↔
      digits.take 4 ≠ ['0', '0', '8', '6'] := by
  have hstrip : stripPhoneDigits ('+' :: digits) = digits := by
    rw [strip_cons_of_not (by decide), strip_of_all h]
  have hself : normalized [] digits = some (String.ofList ('+' :: digits)) := by
    rw [normalized_nil h, if_pos ⟨h6, h18⟩]
  rw [normalizePhoneInput_eq]
  simp only [hstrip]
  by_cases h0086 : digits.take 4 = ['0', '0', '8', '6']
  · have hdrop : (digits.drop 2).all Char.isDigit = true :=
      List.all_eq_true.mpr fun c hc => List.all_eq_true.mp h c (List.mem_of_mem_drop hc)
    rw [if_pos h0086, normalized_nil hdrop]
    refine iff_of_false (fun heq => ?_) (not_not_intro h0086)
    split at heq
    · have := congrArg List.length (List.cons.inj (String.ofList_injective
        (Option.some.inj heq))).2
      rw [List.length_drop] at this
      omega
    · cases heq
  · rw [if_neg h0086]
    refine iff_of_true ?_ h0086
    split
    · exact hself
    · have hread : spelling ('+' :: digits) = .international := by
        simp [spelling, plainNumber_of_all h (by omega)]
      rw [trimChars_stored h, hread]
      exact (Spelling.normalized_eq h .international nofun).symm.trans hself

theorem input_take_ne {raw : List Char} {phone : String}
    (h : normalizePhoneInput (String.ofList raw) = some phone) :
    ∃ digits, phone = String.ofList ('+' :: digits) ∧ digits.all Char.isDigit = true ∧
      6 ≤ digits.length ∧ digits.length ≤ 18 ∧ digits.take 4 ≠ ['0', '0', '8', '6'] := by
  obtain ⟨digits, hphone, hall, h6, h18⟩ := exists_digits (isNormalizedPhone_of_input h)
  refine ⟨digits, by rw [← hphone, String.ofList_toList], hall, h6, h18, fun h0086 => ?_⟩
  have hraw := all_strip raw
  rw [normalizePhoneInput_eq] at h
  generalize stripPhoneDigits raw = typed at h hraw
  have hof : ∀ out : List Char, some (String.ofList ('+' :: out)) = some phone → out = digits := by
    intro out hout
    rw [← Option.some.inj hout, String.toList_ofList] at hphone
    exact (List.cons.inj hphone).2
  have hnil : ∀ out : List Char, out.all Char.isDigit = true → normalized [] out = some phone →
      out = digits := by
    intro out hout hn
    rw [normalized_nil hout] at hn
    split at hn
    · exact hof out hn
    · cases hn
  dsimp only at h
  split at h
  · next htake =>
      have hd := hnil _ (List.all_eq_true.mpr fun c hc =>
        List.all_eq_true.mp hraw c (List.mem_of_mem_drop hc)) h
      have hsplit := List.take_append_drop 4 typed
      rw [htake] at hsplit
      rw [← hd, ← hsplit] at h0086
      simp at h0086
  · next htake =>
      split at h
      · exact htake (hnil _ hraw h ▸ h0086)
      · unfold Spelling.stored at h
        split at h
        · have hd := hof _ h
          cases hs : spelling (trimChars raw) with
          | domestic =>
              rw [hs] at hd
              rw [← hd] at h0086
              simp [Spelling.code, defaultCountryCode] at h0086
          | international | refused =>
              rw [hs] at hd
              change typed = digits at hd
              exact htake (hd ▸ h0086)
        · cases h

/-! ## Separators -/

/-- Two readings of the same digits are stored alike exactly when they are one reading or the
digits fit neither. -/
theorem stored_eq_iff (digits : List Char) (s s' : Spelling) :
    s.stored digits = s'.stored digits ↔
      (s == s' || !(s.accepts digits || s'.accepts digits)) = true := by
  by_cases hs : s = s'
  · simp [hs]
  have hne : (s == s') = false := by simpa using hs
  rw [hne, Bool.false_or, Bool.not_eq_true', Bool.or_eq_false_iff]
  unfold Spelling.stored
  cases h : s.accepts digits with
  | false => cases h' : s'.accepts digits <;> simp
  | true =>
      cases h' : s'.accepts digits with
      | false => simp
      | true =>
          simp only [if_true]
          refine iff_of_false (fun heq => ?_) (by simp)
          have hlen := congrArg List.length (String.ofList_injective (Option.some.inj heq))
          cases s with
          | refused => cases h
          | domestic =>
              cases s' with
              | refused => cases h'
              | domestic => exact hs rfl
              | international =>
                  simp [Spelling.code, defaultCountryCode] at hlen
                  omega
          | international =>
              cases s' with
              | refused => cases h'
              | international => exact hs rfl
              | domestic =>
                  simp [Spelling.code, defaultCountryCode] at hlen

theorem input_insert (before after : List Char) (hc : c.isDigit = false) :
    normalizePhoneInput (String.ofList (before ++ c :: after)) =
        normalizePhoneInput (String.ofList (before ++ after)) ↔
      keepsReading before after c = true := by
  have hstrip : stripPhoneDigits (before ++ c :: after) = stripPhoneDigits (before ++ after) := by
    rw [strip_append, strip_cons_of_not hc, strip_append]
  rw [normalizePhoneInput_eq, normalizePhoneInput_eq, hstrip]
  unfold keepsReading
  generalize stripPhoneDigits (before ++ after) = digits
  simp only [prefixed]
  by_cases h0086 : digits.take 4 = ['0', '0', '8', '6']
  · simp [h0086]
  · by_cases h86 : digits.take 2 = ['8', '6'] ∧ 11 < digits.length
    · simp [h86]
    · have hno : (decide (digits.take 4 = ['0', '0', '8', '6']) ||
          decide (digits.take 2 = ['8', '6']) && decide (11 < digits.length)) = false := by
        simpa [h0086] using h86
      rw [if_neg h0086, if_neg h86, if_neg h0086, if_neg h86, hno, Bool.false_or]
      exact stored_eq_iff ..

/-! ## Code and number -/

theorem spelling_plus : spelling (trimChars ('+' :: xs)) ≠ .domestic := by
  have hrest : ∃ rest, trimChars ('+' :: xs) = '+' :: rest := by
    rw [trimChars, List.dropWhile_cons_of_neg (by decide), List.reverse_cons,
      List.dropWhile_append]
    split
    · exact ⟨[], rfl⟩
    · exact ⟨_, by rw [List.reverse_append]; rfl⟩
  obtain ⟨rest, hrest⟩ := hrest
  rw [hrest, spelling]
  split <;> exact nofun

theorem cleanCountryCode_cases {stateCode code : List Char}
    (h : cleanCountryCode stateCode = some code) :
    code.all Char.isDigit = true ∧
      ((stateCode.filter fun c => !isSpace c) = '0' :: '0' :: code ∨
        (stateCode.filter fun c => !isSpace c).take 2 ≠ ['0', '0'] ∧
          stripPhoneDigits stateCode = code) := by
  unfold cleanCountryCode at h
  rw [← strip_filter_not_isSpace stateCode]
  generalize (stateCode.filter fun c => !isSpace c) = cs at h
  have hif : ∀ xs : List Char, (if xs.all Char.isDigit ∧ 1 ≤ xs.length ∧ xs.length ≤ 3 then
      some xs else none) = some code → xs = code ∧ code.all Char.isDigit = true := by
    intro xs hxs
    split at hxs
    · next hcond => exact Option.some.inj hxs ▸ ⟨rfl, hcond.1⟩
    · cases hxs
  dsimp only at h
  split at h
  · next rest =>
      obtain ⟨rfl, hall⟩ := hif rest h
      exact ⟨hall, .inr ⟨by simp, by rw [strip_cons_of_not (by decide), strip_of_all hall]⟩⟩
  · next rest =>
      obtain ⟨rfl, hall⟩ := hif rest h
      exact ⟨hall, .inl rfl⟩
  · next hplus hzeros =>
      obtain ⟨rfl, hall⟩ := hif cs h
      refine ⟨hall, .inr ⟨fun htake => hzeros (cs.drop 2) ?_, strip_of_all hall⟩⟩
      have hsplit := List.take_append_drop 2 cs
      rw [htake] at hsplit
      exact hsplit.symm

/-- The text of a plus sign, a code, a blank and a number is read as what code and number are
stored as exactly when it is written without signs that the two readings take differently. -/
theorem input_parts {stateCode mobile phone : String}
    (h : normalizePhoneFromParts stateCode mobile = some phone) :
    normalizePhoneInput ("+" ++ stateCode ++ " " ++ mobile) = some phone ↔
      readsBack stateCode.toList mobile.toList = true := by
  have htext : "+" ++ stateCode ++ " " ++ mobile =
      String.ofList ('+' :: (stateCode.toList ++ ' ' :: mobile.toList)) := by
    rw [← String.toList_inj]
    simp
  rw [htext, normalizePhoneInput_eq]
  unfold normalizePhoneFromParts at h
  dsimp only at h
  split at h
  · cases h
  obtain ⟨code, hcode, hphone⟩ := Option.bind_eq_some_iff.mp h
  obtain ⟨hall, hsign⟩ := cleanCountryCode_cases hcode
  generalize stateCode.toList = sc at hsign
  have hnumber := all_strip mobile.toList
  have hstrip : stripPhoneDigits ('+' :: (sc ++ ' ' :: mobile.toList)) =
      stripPhoneDigits sc ++ stripPhoneDigits mobile.toList := by
    rw [strip_cons_of_not (by decide), strip_append, strip_cons_of_not (by decide)]
  have hread := spelling_plus (sc ++ ' ' :: mobile.toList)
  simp only [hstrip, readsBack]
  generalize spelling (trimChars ('+' :: (sc ++ ' ' :: mobile.toList))) = reading at hread
  generalize stripPhoneDigits mobile.toList = number at hphone hnumber
  have hdigits : (code ++ number).all Char.isDigit = true := by simp [hall, hnumber]
  rw [normalized_append] at hphone
  -- a stored text of other digits is another text
  have hinj : ∀ out : List Char, out.all Char.isDigit = true →
      (normalized [] out = some phone ↔ out = code ++ number) := by
    intro out hout
    refine ⟨fun heq => ?_, fun heq => heq ▸ hphone⟩
    rw [normalized_nil hout] at heq
    rw [normalized_nil hdigits] at hphone
    split at heq
    · split at hphone
      · rw [← hphone] at heq
        exact (List.cons.inj (String.ofList_injective (Option.some.inj heq))).2
      · cases hphone
    · cases heq
  have hstored : ∀ out : List Char, out.all Char.isDigit = true →
      (reading.stored out = some phone ↔ reading = .international ∧ out = code ++ number) := by
    intro out hout
    cases reading with
    | domestic => exact absurd rfl hread
    | refused => simp [Spelling.stored, Spelling.accepts]
    | international =>
        rw [Spelling.stored, ← Spelling.normalized_eq hout .international nofun]
        simpa [Spelling.code] using hinj out hout
  have hlong : ∀ xs : List Char, '0' :: '0' :: xs ≠ xs := by
    intro xs heq
    have hlen := congrArg List.length heq
    simp only [List.length_cons] at hlen
    omega
  rcases hsign with hzeros | ⟨hzeros, hcodeStrip⟩
  · have hsc : stripPhoneDigits sc = '0' :: '0' :: code := by
      rw [← strip_filter_not_isSpace, hzeros]
      exact strip_of_all (by simp [hall])
    rw [hsc, hzeros]
    by_cases h0086 : ('0' :: '0' :: code ++ number).take 4 = ['0', '0', '8', '6']
    · rw [if_pos h0086, if_pos h0086]
      exact iff_of_true hphone rfl
    · rw [if_neg h0086, if_neg h0086, if_neg (by simp), if_neg (by simp), hstored _ (by
        simpa using hdigits)]
      exact iff_of_false (fun heq => hlong _ heq.2) (by simp)
  · have hno : ((sc.filter fun c => !isSpace c).take 2 == ['0', '0']) = false := by
      simpa using hzeros
    rw [hcodeStrip, hno]
    by_cases h0086 : (code ++ number).take 4 = ['0', '0', '8', '6']
    · rw [if_pos h0086, if_pos h0086, hinj _ (List.all_eq_true.mpr fun c hc =>
        List.all_eq_true.mp hdigits c (List.mem_of_mem_drop hc))]
      refine iff_of_false (fun heq => ?_) (by simp)
      have hlen := congrArg List.length heq
      have htake := congrArg List.length h0086
      rw [List.length_drop] at hlen
      simp only [List.length_take, List.length_cons, List.length_nil] at htake
      omega
    · by_cases h86 : (code ++ number).take 2 = ['8', '6'] ∧ 11 < (code ++ number).length
      · rw [if_neg h0086, if_neg h0086, if_pos h86, if_pos h86]
        exact iff_of_true hphone rfl
      · rw [if_neg h0086, if_neg h0086, if_neg h86, if_neg h86, hstored _ hdigits]
        simp

/-! ## The laws of the spellings -/

/-- What is typed is stored as a text that is stored as itself; so is what is put together from
a code and a number, unless it begins with the zeros of a prefix. A character that is no digit
keeps what a text is stored as, and the text of a code and a number is stored as the two are,
under the conditions that name the plus sign and the shape behind it. -/
theorem phone_spellings (raw stateCode mobile phone : String) (before after : List Char)
    (c : Char) :
    (normalizePhoneInput raw = some phone → normalizePhoneInput phone = some phone) ∧
    (normalizePhoneFromParts stateCode mobile = some phone →
      (normalizePhoneInput phone = some phone ↔
        phone.toList.take 5 ≠ ['+', '0', '0', '8', '6'])) ∧
    (c.isDigit = false →
      (normalizePhoneInput (String.ofList (before ++ c :: after)) =
          normalizePhoneInput (String.ofList (before ++ after)) ↔
        keepsReading before after c = true)) ∧
    (normalizePhoneFromParts stateCode mobile = some phone →
      (normalizePhoneInput ("+" ++ stateCode ++ " " ++ mobile) = some phone ↔
        readsBack stateCode.toList mobile.toList = true)) := by
  refine ⟨fun h => ?_, fun h => ?_, input_insert before after, input_parts⟩
  · rw [← String.ofList_toList (s := raw)] at h
    obtain ⟨digits, rfl, hall, h6, h18, hne⟩ := input_take_ne h
    exact (input_stored hall h6 h18).mpr hne
  · obtain ⟨digits, hphone, hall, h6, h18⟩ := exists_digits (isNormalizedPhone_of_parts h)
    have hof : phone = String.ofList ('+' :: digits) := by rw [← hphone, String.ofList_toList]
    subst hof
    rw [input_stored hall h6 h18, String.toList_ofList, List.take_succ_cons]
    simp

/-- A bracket in a number of another country: `+1(415)5552671` is refused. -/
theorem not_phone_spellings :
    ¬ ∀ before after : List Char, ∀ c ∈ [' ', '-', '(', ')'],
      normalizePhoneInput (String.ofList (before ++ c :: after)) =
        normalizePhoneInput (String.ofList (before ++ after)) := by
  intro h
  exact absurd (h "+1".toList "4155552671".toList '(' (by decide)) (by decide +kernel)

end Wbme.Auth
