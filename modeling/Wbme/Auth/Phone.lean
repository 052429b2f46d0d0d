import Wbme.Fin.Fields

/-! # Phone numbers

A number is stored as a plus sign, a country code and digits. What a user types and what the
identity provider sends is brought into that form or refused.
-/

namespace Wbme.Auth

open Wbme.Fin (isSpace trimChars)

def defaultCountryCode : List Char := ['8', '6']

def stripPhoneDigits (value : List Char) : List Char := value.filter Char.isDigit

/-- One to three digits of a country code, then five to fifteen. -/
def isNormalizedPhone : List Char → Bool
  | '+' :: digits => digits.all Char.isDigit && 6 ≤ digits.length && digits.length ≤ 18
  | _ => false

def normalized (countryCode digits : List Char) : Option String :=
  let phone := '+' :: (countryCode ++ digits)
  if isNormalizedPhone phone then some (String.ofList phone) else none

/-- The longest country code in front of digits, white space and dashes that begin with a
digit. -/
def splitCountryCode (rest : List Char) : Option (List Char × List Char) :=
  [3, 2, 1].findSome? fun k =>
    let code := rest.take k
    let number := (rest.drop k).dropWhile isSpace
    if code.length = k ∧ code.all Char.isDigit ∧ number.head?.any Char.isDigit ∧
        number.all (fun c => c.isDigit || isSpace c || c == '-') then some (code, number)
    else none

/-- The country code and the digits of what was typed. -/
def typedParts (cleaned : List Char) : Option (List Char × List Char) :=
  let number := stripPhoneDigits cleaned
  if number.take 4 = ['0', '0', '8', '6'] then some (['8', '6'], number.drop 4)
  else if number.take 2 = ['8', '6'] ∧ 11 < number.length then some (['8', '6'], number.drop 2)
  else
    match cleaned with
    | '+' :: rest => (splitCountryCode rest).map fun parts => (parts.1, stripPhoneDigits parts.2)
    | _ => some (defaultCountryCode, number)

def normalizePhoneInput (raw : String) : Option String :=
  let cleaned := trimChars raw.toList
  if cleaned = [] then none
  else
    (typedParts cleaned).bind fun parts =>
      if parts.2 = [] then none else normalized parts.1 parts.2

/-- A country code without white space and without the signs in front of it. -/
def cleanCountryCode (value : List Char) : Option (List Char) :=
  let code :=
    match value.filter (fun c => !isSpace c) with
    | '+' :: code => code
    | '0' :: '0' :: code => code
    | code => code
  if code.all Char.isDigit ∧ 1 ≤ code.length ∧ code.length ≤ 3 then some code else none

def normalizePhoneFromParts (stateCode mobile : String) : Option String :=
  let digits := stripPhoneDigits mobile.toList
  if digits = [] then none
  else (cleanCountryCode stateCode.toList).bind fun code => normalized code digits

/-! ## What is stored -/

theorem isNormalizedPhone_of_normalized {countryCode digits : List Char} {phone : String}
    (h : normalized countryCode digits = some phone) : isNormalizedPhone phone.toList = true := by
  unfold normalized at h
  dsimp only at h
  split at h
  · rename_i hform
    obtain rfl := Option.some.inj h
    rw [String.toList_ofList]
    exact hform
  · cases h

theorem isNormalizedPhone_of_input {raw phone : String}
    (h : normalizePhoneInput raw = some phone) : isNormalizedPhone phone.toList = true := by
  unfold normalizePhoneInput at h
  dsimp only at h
  split at h
  · cases h
  · obtain ⟨parts, -, hparts⟩ := Option.bind_eq_some_iff.mp h
    split at hparts
    · cases hparts
    · exact isNormalizedPhone_of_normalized hparts

theorem isNormalizedPhone_of_parts {stateCode mobile phone : String}
    (h : normalizePhoneFromParts stateCode mobile = some phone) :
    isNormalizedPhone phone.toList = true := by
  unfold normalizePhoneFromParts at h
  dsimp only at h
  split at h
  · cases h
  · obtain ⟨code, -, hcode⟩ := Option.bind_eq_some_iff.mp h
    exact isNormalizedPhone_of_normalized hcode

end Wbme.Auth
