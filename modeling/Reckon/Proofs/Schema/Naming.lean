import Mathlib.Data.List.Basic
import Reckon.Schema

/-!
# Characters of generated names

Names are made of letters, digits and underscores, and so are the names that are derived from
them in generated code: names in lower case, and parameters in place of keywords. Only the mark
of a raw name adds another character, and it can be taken off again. Names in lower case can be
the same for different names, but not where these are in camel case.
-/

namespace Reckon

namespace Text

/-- Letters and digits of ASCII, the underscore, and everything beyond ASCII. -/
def isNameCharacter (character : Char) : Bool :=
  character.isAlphanum || character == '_' || decide (128 ≤ character.toNat)

theorem isNameCharacter_of_lower {character : Char}
    (letter : 97 ≤ character.toNat ∧ character.toNat ≤ 122) : isNameCharacter character = true := by
  have lower : character.isLower = true := by
    have bounds : (97 : UInt32) ≤ character.val ∧ character.val ≤ 122 :=
      ⟨UInt32.le_iff_toNat_le.2 letter.1, UInt32.le_iff_toNat_le.2 letter.2⟩
    change (decide (97 ≤ character.val) && decide (character.val ≤ 122)) = true
    rw [decide_eq_true bounds.1, decide_eq_true bounds.2, Bool.and_self]
  have alphanumeric : character.isAlphanum = true := by
    change (character.isUpper || character.isLower || character.isDigit) = true
    rw [lower, Bool.or_true, Bool.true_or]
  rw [isNameCharacter, alphanumeric, Bool.true_or, Bool.true_or]

theorem isNameCharacter_of_le {character : Char} (beyond : 128 ≤ character.toNat) :
    isNameCharacter character = true := by
  simp [isNameCharacter, beyond]

/-- The lower-case forms of all capitals are characters: lower-case letters of ASCII, or
characters beyond it. -/
theorem capitalRuns_shift :
    (capitalRuns.all fun run =>
      decide ((97 ≤ run.first + run.shift ∧ run.last + run.shift ≤ 122 ∨
        128 ≤ run.first + run.shift ∧ run.last + run.shift < 0xD800 ∨
          0xDFFF < run.first + run.shift ∧ run.last + run.shift < 0x110000))) = true := by
  decide +kernel

theorem isNameCharacter_of_mem_toLower {capital character : Char}
    (isCapital : isCapital capital = true) (member : character ∈ toLower capital) :
    isNameCharacter character = true := by
  unfold toLower at member
  split at member
  · simp only [List.mem_cons, List.not_mem_nil, or_false] at member
    rcases member with rfl | rfl <;> decide
  · split at member
    next run found =>
      have shifts := List.all_eq_true.1 capitalRuns_shift run (List.mem_of_find?_eq_some found)
      have inside := List.find?_some found
      simp only [CapitalRun.contains, Bool.and_eq_true, decide_eq_true_eq] at inside shifts
      have valid : (capital.toNat + run.shift).toNat.isValidChar := by
        simp only [Nat.isValidChar]
        omega
      rw [List.mem_singleton, Char.ofNat, dif_pos valid] at member
      have code : character.toNat = (capital.toNat + run.shift).toNat := member ▸ rfl
      rcases shifts with ascii | beyond
      · exact isNameCharacter_of_lower (by omega)
      · exact isNameCharacter_of_le (by omega)
    next none => simp [Text.isCapital, none] at isCapital

theorem toLower_of_not_capital {character : Char} (small : ¬ isCapital character = true) :
    toLower character = [character] := by
  have none : capitalRun? character = none := by simpa [isCapital] using small
  have apart : character ≠ 'İ' := by
    rintro rfl
    exact small (by decide +kernel)
  rw [toLower, if_neg apart, none]

/-- The capitals of ASCII have one letter each in lower case, whose capital they are. -/
theorem map_toUpper_toLower_ascii :
    ∀ code : Fin 128, (Char.ofNat code).isUpper = true →
      (toLower (Char.ofNat code)).map Char.toUpper = [Char.ofNat code] := by
  decide +kernel

theorem toNat_lt_of_isAlphanum {character : Char} (alphanumeric : character.isAlphanum = true) :
    character.toNat < 128 := by
  change (decide (character.val ≥ 'A'.val ∧ character.val ≤ 'Z'.val) ||
    (decide (character.val ≥ 'a'.val) && decide (character.val ≤ 'z'.val)) ||
    (decide (character.val ≥ '0'.val) && decide (character.val ≤ '9'.val))) = true at alphanumeric
  rw [Bool.or_eq_true, Bool.or_eq_true, Bool.and_eq_true, Bool.and_eq_true, decide_eq_true_iff,
    decide_eq_true_iff, decide_eq_true_iff, decide_eq_true_iff, decide_eq_true_iff] at alphanumeric
  have codes : (65 ≤ character.toNat ∧ character.toNat ≤ 90 ∨
      97 ≤ character.toNat ∧ character.toNat ≤ 122) ∨
        48 ≤ character.toNat ∧ character.toNat ≤ 57 := alphanumeric
  omega

theorem exists_toLower {character : Char} (ascii : character.toNat < 128)
    (capital : isCapital character = true) :
    ∃ letter, toLower character = [letter] ∧ letter.toUpper = character := by
  have lowered := map_toUpper_toLower_ascii ⟨character.toNat, ascii⟩
  rw [Char.ofNat_toNat, ← isCapital_eq_isUpper ascii] at lowered
  obtain ⟨letter, toLower, toUpper⟩ := List.map_eq_singleton_iff.1 (lowered capital)
  exact ⟨letter, toLower, toUpper⟩

end Text

namespace Schema

open Text (isNameCharacter)

/-- The characters of a name in lower case are those of the name, and others that names
have. -/
theorem mem_snakeCase {name : String} {character : Char}
    (member : character ∈ (snakeCase name).toList) :
    character ∈ name.toList ∨ isNameCharacter character = true := by
  have lowered {letter : Char} (inName : letter ∈ name.toList)
      (inLower : character ∈ Text.toLower letter) :
      character ∈ name.toList ∨ isNameCharacter character = true := by
    by_cases capital : Text.isCapital letter = true
    · exact .inr (Text.isNameCharacter_of_mem_toLower capital inLower)
    · rw [Text.toLower_of_not_capital capital, List.mem_singleton] at inLower
      exact .inl (inLower ▸ inName)
  rw [snakeCase, String.toList_ofList] at member
  split at member
  · cases member
  next first rest spelled =>
    rw [spelled] at lowered ⊢
    rcases List.mem_append.1 member with inFirst | inRest
    · exact lowered (by simp) inFirst
    · obtain ⟨letter, inName, inImage⟩ := List.mem_flatMap.1 inRest
      split at inImage
      · rcases List.mem_cons.1 inImage with rfl | inLower
        · exact .inr rfl
        · exact lowered (by simp [inName]) inLower
      · rw [List.mem_singleton] at inImage
        exact .inl (by simp [inImage, inName])

/-- A name has nothing but letters, digits and underscores. -/
def IsName (name : String) : Prop :=
  ∀ character ∈ name.toList, isNameCharacter character = true

instance (name : String) : Decidable (IsName name) :=
  decidable_of_iff (name.toList.all isNameCharacter = true) List.all_eq_true

theorem IsName.append {front back : String} (isFront : IsName front) (isBack : IsName back) :
    IsName (front ++ back) := by
  intro character member
  rw [String.toList_append, List.mem_append] at member
  exact member.elim (isFront character) (isBack character)

theorem IsName.snakeCase {name : String} (isName : IsName name) : IsName (snakeCase name) :=
  fun character member => (mem_snakeCase member).elim (isName character) id

/-! ## Camel case -/

/-- A name of letters and digits of ASCII that begins with a capital. -/
def IsCamelCase (name : String) : Prop :=
  (∀ character ∈ name.toList, character.isAlphanum = true) ∧
    name.toList.head?.any Text.isCapital = true

instance (name : String) : Decidable (IsCamelCase name) :=
  decidable_of_iff (name.toList.all Char.isAlphanum = true ∧
    name.toList.head?.any Text.isCapital = true) (and_congr_left' List.all_eq_true)

/-- Capitals for the letters behind underscores. -/
def capitalised : List Char → List Char
  | '_' :: letter :: rest => letter.toUpper :: capitalised rest
  | character :: rest => character :: capitalised rest
  | [] => []

/-- A character in lower case, with an underscore in front of what was a capital. -/
def separated (character : Char) : List Char :=
  if Text.isCapital character then '_' :: Text.toLower character else [character]

theorem capitalised_flatMap {name : List Char}
    (alphanumeric : ∀ character ∈ name, character.isAlphanum = true) :
    capitalised (name.flatMap separated) = name := by
  induction name with
  | nil => rfl
  | cons character name ih =>
    obtain ⟨first, others⟩ := List.forall_mem_cons.1 alphanumeric
    rw [List.flatMap_cons, separated]
    split
    next capital =>
      obtain ⟨letter, toLower, toUpper⟩ :=
        Text.exists_toLower (Text.toNat_lt_of_isAlphanum first) capital
      rw [toLower, List.cons_append, List.singleton_append, capitalised, toUpper, ih others]
    next =>
      have noUnderscore : character ≠ '_' := by
        rintro rfl
        exact absurd first (by decide)
      rw [List.singleton_append, capitalised, ih others]
      intro letter rest isUnderscore
      exact absurd isUnderscore noUnderscore

/-- The capitals of a name in camel case are found again in its lower-case form. -/
theorem IsCamelCase.capitalised_snakeCase {name : String} (camelCase : IsCamelCase name) :
    capitalised ('_' :: (snakeCase name).toList) = name.toList := by
  obtain ⟨alphanumeric, begins⟩ := camelCase
  obtain ⟨capital, first, isCapital⟩ := (Option.any_eq_true _ _).1 begins
  obtain ⟨rest, spelled⟩ := List.head?_eq_some_iff.1 first
  have whole : '_' :: (snakeCase name).toList = name.toList.flatMap separated := by
    rw [snakeCase, String.toList_ofList, spelled, List.flatMap_cons, separated, if_pos isCapital]
    rfl
  rw [whole, capitalised_flatMap alphanumeric]

/-- Names in camel case differ in their lower-case forms. -/
theorem IsCamelCase.eq_of_snakeCase {name other : String} (camelCase : IsCamelCase name)
    (otherCamelCase : IsCamelCase other) (same : snakeCase name = snakeCase other) :
    name = other := by
  apply String.toList_injective
  rw [← camelCase.capitalised_snakeCase, same, otherCamelCase.capitalised_snakeCase]

/-! ## Fields -/

theorem substitutes_named :
    (substitutes.all fun (_, substitute) =>
      substitute != "" && substitute.toList.all isNameCharacter) = true := by
  decide

theorem mem_substitutes {keyword substitute : String}
    (found : substitutes.lookup keyword = some substitute) :
    (keyword, substitute) ∈ substitutes := by
  obtain ⟨before, behind, listed, -⟩ := List.lookup_eq_some_iff.1 found
  rw [listed]
  simp

theorem isName_of_lookup {keyword substitute : String}
    (found : substitutes.lookup keyword = some substitute) :
    substitute ≠ "" ∧ IsName substitute := by
  have named := List.all_eq_true.1 substitutes_named _ (mem_substitutes found)
  simpa [IsName] using named

namespace Field

variable {field : Field}

theorem isName_parameter (isName : IsName field.name) : IsName field.parameter := by
  rw [parameter]
  cases found : substitutes.lookup field.name with
  | none => exact isName
  | some substitute => exact (isName_of_lookup found).2

theorem parameter_ne_empty (nonempty : field.name ≠ "") : field.parameter ≠ "" := by
  rw [parameter]
  cases found : substitutes.lookup field.name with
  | none => exact nonempty
  | some substitute => exact (isName_of_lookup found).1

end Field

/-- A name without the mark of a raw one. -/
def unmarked (identifier : String) : String :=
  match identifier.toList.dropPrefix? ['r', '#'] with
  | some name => String.ofList name
  | none => identifier

@[simp] theorem unmarked_marked (name : String) : unmarked ("r#" ++ name) = name := by
  have marked : ("r#" ++ name).toList.dropPrefix? ['r', '#'] = some name.toList := by
    rw [String.toList_append]
    exact List.dropPrefix?_append_of_beq _ rfl
  rw [unmarked, marked]
  exact String.ofList_toList

theorem marked_ne {name word : String} (plain : word.toList.take 2 ≠ ['r', '#']) :
    "r#" ++ name ≠ word := by
  rintro rfl
  exact plain (by rw [String.toList_append]; rfl)

/-- The mark is no character of a name. -/
theorem IsName.unmarked_eq {name : String} (isName : IsName name) : unmarked name = name := by
  cases dropped : name.toList.dropPrefix? ['r', '#'] with
  | none => rw [unmarked, dropped]
  | some rest =>
    obtain ⟨mark, shape, same⟩ := List.dropPrefix?_eq_some_iff.1 dropped
    have sharp := isName '#' (by rw [shape, eq_of_beq same]; simp)
    exact absurd sharp (by decide)

/-- The mark is the only difference between a field and its name. -/
theorem Field.unmarked_identifier {field : Field} (isName : IsName field.name) :
    unmarked field.identifier = field.name := by
  rw [identifier]
  cases substitutes.lookup field.name with
  | some substitute => exact unmarked_marked field.name
  | none => exact isName.unmarked_eq

end Schema

end Reckon
