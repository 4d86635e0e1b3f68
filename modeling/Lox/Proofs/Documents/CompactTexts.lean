import Lox.Json
import Lox.Proofs.Documents.NumberTexts

/-!
# Compact texts tell their documents

A compact text is read from its front: the first character says what kind of value comes, and every value
ends where the text says so, a quoted text at its quote, an array and an object at their brackets, and all
others where a character comes that cannot belong to them. So a text has one document, but for the numbers
that are written as `null`.
-/

namespace Lox.Json

/-! ## Quoted texts -/

/-- The value of a hexadecimal digit. -/
def hexValue (c : Char) : Nat := if c.isDigit then c.toNat - 48 else c.toNat - 87

/-- The character that an escape stands for, and the text after it. -/
def unescaped : List Char → Option (Char × List Char)
  | 'b' :: rest => some ('\x08', rest)
  | 'f' :: rest => some ('\x0c', rest)
  | 'n' :: rest => some ('\n', rest)
  | 'r' :: rest => some ('\r', rest)
  | 't' :: rest => some ('\t', rest)
  | 'u' :: '0' :: '0' :: high :: low :: rest =>
    some (Char.ofNat (16 * hexValue high + hexValue low), rest)
  | c :: rest => some (c, rest)
  | [] => none

/-- The first character of the contents of a quoted text, and the text after it. -/
def firstChar : List Char → Option (Char × List Char)
  | [] => none
  | c :: rest => if c = '\\' then unescaped rest else some (c, rest)

theorem hexValue_digitChar : ∀ digit < 16, hexValue (Nat.digitChar digit) = digit := by decide

theorem firstChar_escapedChar (c : Char) (rest : List Char) :
    firstChar (escapedChar c ++ rest) = some (c, rest) := by
  unfold escapedChar
  split
  · next quote => rw [quote]; rfl
  split
  · next backslash => rw [backslash]; rfl
  split
  · next backspace => rw [backspace]; rfl
  split
  · next formFeed => rw [formFeed]; rfl
  split
  · next newline => rw [newline]; rfl
  split
  · next carriageReturn => rw [carriageReturn]; rfl
  split
  · next tab => rw [tab]; rfl
  split
  · have high := hexValue_digitChar (c.toNat / 16) (by omega)
    have low := hexValue_digitChar (c.toNat % 16) (by omega)
    change some (Char.ofNat (16 * hexValue _ + hexValue _), rest) = _
    rw [high, low, Nat.div_add_mod, Char.ofNat_toNat]
  · next _ backslash _ _ _ _ _ _ => exact if_neg backslash

theorem head?_escapedChar (c : Char) (rest : List Char) :
    (escapedChar c ++ rest).head? ≠ some '"' := by
  unfold escapedChar
  split
  · simp
  · next quote =>
    repeat' split
    all_goals simp [quote]

variable {rest rest' : List Char}

theorem escaped_append_inj {contents contents' : List Char}
    (same : contents.flatMap escapedChar ++ '"' :: rest = contents'.flatMap escapedChar ++ '"' :: rest') :
    contents = contents' ∧ rest = rest' := by
  induction contents generalizing contents' with
  | nil =>
    cases contents' with
    | nil => exact ⟨rfl, (List.cons.inj same).2⟩
    | cons c more =>
      rw [List.flatMap_cons, List.append_assoc] at same
      exact absurd (congrArg List.head? same).symm (head?_escapedChar c _)
  | cons c more ih =>
    cases contents' with
    | nil =>
      rw [List.flatMap_cons, List.append_assoc] at same
      exact absurd (congrArg List.head? same) (head?_escapedChar c _)
    | cons c' more' =>
      rw [List.flatMap_cons, List.flatMap_cons, List.append_assoc, List.append_assoc] at same
      have first := congrArg firstChar same
      rw [firstChar_escapedChar, firstChar_escapedChar, Option.some.injEq, Prod.mk.injEq] at first
      obtain ⟨rfl, further⟩ := first
      obtain ⟨rfl, rests⟩ := ih further
      exact ⟨rfl, rests⟩

/-- A quoted text ends at its quote. -/
theorem quotedText_append_inj {contents contents' : String}
    (same : quotedText contents ++ rest = quotedText contents' ++ rest') :
    contents = contents' ∧ rest = rest' := by
  simp only [quotedText, List.cons_append, List.append_assoc, List.nil_append, List.cons.injEq,
    true_and] at same
  obtain ⟨chars, rests⟩ := escaped_append_inj same
  exact ⟨String.toList_inj.mp chars, rests⟩

/-! ## Values without brackets -/

/-- What comes next cannot belong to a number or to `null`. -/
def Closes (rest : List Char) : Prop := ∀ c ∈ rest.head?, isAtomic c = false

theorem atomic_append_inj {front front' : List Char} (atomic : ∀ c ∈ front, isAtomic c = true)
    (atomic' : ∀ c ∈ front', isAtomic c = true) (closes : Closes rest) (closes' : Closes rest')
    (same : front ++ rest = front' ++ rest') : front = front' ∧ rest = rest' := by
  have stops {text : List Char} (ends : Closes text) : text.takeWhile isAtomic = [] := by
    cases text with
    | nil => rfl
    | cons c more => exact List.takeWhile_cons_of_neg (by simp [ends c rfl])
  have fronts := congrArg (List.takeWhile isAtomic) same
  rw [List.takeWhile_append_of_pos atomic, List.takeWhile_append_of_pos atomic', stops closes,
    stops closes', List.append_nil, List.append_nil] at fronts
  subst fronts
  exact ⟨rfl, List.append_cancel_left same⟩

/-- A value that is written without brackets or quotes. -/
inductive IsAtom : Json → Prop where
  | null : IsAtom null
  | number {value : Number} (finite : value.isFinite = true) : IsAtom (number value)
  | natural (value : Nat) : IsAtom (natural value)

variable {a b : Json}

theorem jsonForm_ne_null {value : Number} (finite : value.isFinite = true) :
    value.jsonForm ≠ ['n', 'u', 'l', 'l'] := by
  obtain ⟨d, -, layout⟩ := value.jsonLayout
  obtain ⟨c, after, written, digit⟩ := layout.startsDigit
  rw [Number.jsonForm_eq finite, written]
  cases value.isNegative with
  | true => exact fun same => absurd (List.cons.inj same).1 (by decide)
  | false =>
    intro same
    rw [(List.cons.inj same).1] at digit
    cases digit

theorem jsonForm_ne_natural {value : Number} (finite : value.isFinite = true) (count : Nat) :
    value.jsonForm ≠ Nat.toDigits 10 count := by
  intro same
  obtain ⟨d, -, layout⟩ := value.jsonLayout
  obtain ⟨c, member, other⟩ := layout.exists_not_isDigit
  have there : c ∈ value.jsonForm := by
    rw [Number.jsonForm_eq finite]
    cases value.isNegative with
    | true => exact .tail _ member
    | false => exact member
  rw [same] at there
  exact absurd ((areDigits_toDigits count).2 c there) (by simp [other])

theorem natural_ne_null (count : Nat) : Nat.toDigits 10 count ≠ ['n', 'u', 'l', 'l'] := by
  intro same
  have digit := (areDigits_toDigits count).2 'n' (same ▸ .head _)
  cases digit

theorem IsAtom.eq_of_compact (atom : IsAtom a) (atom' : IsAtom b) (same : a.compact = b.compact) :
    a = b := by
  cases atom with
  | null =>
    cases atom' with
    | null => rfl
    | number finite => exact absurd same.symm (jsonForm_ne_null finite)
    | natural count => exact absurd same.symm (natural_ne_null count)
  | number finite =>
    cases atom' with
    | null => exact absurd same (jsonForm_ne_null finite)
    | number finite' => rw [Number.jsonForm_inj finite finite' same]
    | natural count => exact absurd same (jsonForm_ne_natural finite count)
  | natural count =>
    cases atom' with
    | null => exact absurd same (natural_ne_null count)
    | number finite => exact absurd same.symm (jsonForm_ne_natural finite count)
    | natural count' =>
      have counts := congrArg (Nat.ofDigitChars 10 · 0) same
      simp only [compact, Nat.ofDigitChars_ten_toDigits] at counts
      rw [counts]

theorem IsAtom.isAtomic (atom : IsAtom a) : ∀ c ∈ a.compact, isAtomic c = true := by
  intro c member
  cases atom with
  | null =>
    have letters : ∀ c ∈ ['n', 'u', 'l', 'l'], Lox.isAtomic c = true := List.all_eq_true.mp rfl
    exact letters c member
  | @number value finite =>
    obtain ⟨d, -, layout⟩ := value.jsonLayout
    rw [compact, Number.jsonForm_eq finite] at member
    cases negative : value.isNegative with
    | true =>
      rw [negative] at member
      obtain rfl | further := List.mem_cons.mp member
      · rfl
      · exact layout.isAtomic further
    | false =>
      rw [negative] at member
      exact layout.isAtomic member
  | natural count => exact isAtomic_of_isDigit ((areDigits_toDigits count).2 c member)

/-! ## Documents as they can be read -/

mutual

/-- The document with `null` in the place of every number that is written so. -/
def legible : Json → Json
  | null => null
  | number value => if value.isFinite then number value else null
  | natural value => natural value
  | text contents => text contents
  | array elements => array (legibleElements elements)
  | object members => object (legibleMembers members)

def legibleElements : List Json → List Json
  | [] => []
  | element :: rest => element.legible :: legibleElements rest

def legibleMembers : List (String × Json) → List (String × Json)
  | [] => []
  | (key, value) :: rest => (key, value.legible) :: legibleMembers rest

end

/-- The character that opens a value with brackets or quotes. -/
def opening : Json → Option Char
  | text _ => some '"'
  | array _ => some '['
  | object _ => some '\x7b'
  | _ => none

theorem isAtom_legible (none : a.opening = none) : IsAtom a.legible ∧ a.legible.compact = a.compact := by
  cases a with
  | null => exact ⟨.null, rfl⟩
  | natural count => exact ⟨.natural count, rfl⟩
  | number value =>
    rw [legible]
    split
    · next finite => exact ⟨.number finite, rfl⟩
    · next infinite =>
      exact ⟨.null, (Number.jsonForm_of_not_isFinite (Bool.eq_false_iff.mpr infinite)).symm⟩
  | text | array | object => cases none

/-- The first character of a text, if it opens or closes something. -/
def bracket? (text : List Char) : Option Char := text.head?.filter (!isAtomic ·)

theorem jsonForm_ne_nil (value : Number) : value.jsonForm ≠ [] := by
  cases finite : value.isFinite with
  | true =>
    obtain ⟨d, -, layout⟩ := value.jsonLayout
    obtain ⟨c, after, written, -⟩ := layout.startsDigit
    rw [Number.jsonForm_eq finite, written]
    cases value.isNegative <;> exact List.cons_ne_nil _ _
  | false =>
    rw [Number.jsonForm_of_not_isFinite finite]
    exact List.cons_ne_nil _ _

theorem compact_ne_nil (a : Json) : a.compact ≠ [] := by
  cases a with
  | number value => exact jsonForm_ne_nil value
  | natural count => exact (areDigits_toDigits count).1
  | null | text | array | object => exact List.cons_ne_nil _ _

/-- A text tells how its first value opens. -/
theorem bracket?_compact (a : Json) (rest : List Char) : bracket? (a.compact ++ rest) = a.opening := by
  cases opens : a.opening with
  | some c => cases a <;> cases opens <;> rfl
  | none =>
    obtain ⟨atom, same⟩ := isAtom_legible opens
    have atomic := atom.isAtomic
    rw [same] at atomic
    obtain ⟨c, after, written⟩ := List.exists_cons_of_ne_nil (compact_ne_nil a)
    rw [written] at atomic ⊢
    simp [bracket?, Option.filter, atomic c (.head _)]

theorem opening_eq (same : a.compact ++ rest = b.compact ++ rest') : a.opening = b.opening := by
  rw [← bracket?_compact a rest, ← bracket?_compact b rest', same]

/-! ## Elements and members -/

/-- Elements with a comma before each of them. -/
def continued (elements : List Json) : List Char := elements.flatMap fun element => ',' :: element.compact

def continuedMembers (members : List (String × Json)) : List Char :=
  members.flatMap fun (key, value) => ',' :: (quotedText key ++ ':' :: value.compact)

theorem compactElements_cons (element : Json) (rest : List Json) :
    compactElements (element :: rest) = element.compact ++ continued rest := by
  induction rest generalizing element with
  | nil => exact (List.append_nil _).symm
  | cons next rest ih =>
    rw [compactElements, ih]
    rfl

theorem compactMembers_cons (key : String) (value : Json) (rest : List (String × Json)) :
    compactMembers ((key, value) :: rest) =
      quotedText key ++ ':' :: value.compact ++ continuedMembers rest := by
  induction rest generalizing key value with
  | nil => exact (List.append_nil _).symm
  | cons next rest ih =>
    obtain ⟨nextKey, nextValue⟩ := next
    rw [compactMembers, ih]
    rfl

theorem closes_cons {c : Char} (closes : isAtomic c = false) : Closes (c :: rest) := by
  intro first front
  cases front
  exact closes

theorem closes_continued (elements : List Json) {c : Char} (closes : isAtomic c = false) :
    Closes (continued elements ++ c :: rest) := by
  cases elements with
  | nil => exact closes_cons closes
  | cons => exact closes_cons rfl

theorem closes_continuedMembers (members : List (String × Json)) {c : Char} (closes : isAtomic c = false) :
    Closes (continuedMembers members ++ c :: rest) := by
  cases members with
  | nil => exact closes_cons closes
  | cons => exact closes_cons rfl

/-- No value starts with a closing bracket. -/
theorem opening_ne_closing (a : Json) : a.opening ≠ some ']' := by
  cases a <;> simp [opening]

theorem bracket?_compactElements (element : Json) (more : List Json) :
    bracket? (compactElements (element :: more) ++ rest) ≠ some ']' := by
  rw [compactElements_cons, List.append_assoc, bracket?_compact]
  exact element.opening_ne_closing

/-- Texts of arrays are alike from where a comma could stand before the first element. -/
theorem continued_eq {elements elements' : List Json}
    (same : compactElements elements ++ ']' :: rest = compactElements elements' ++ ']' :: rest') :
    continued elements ++ ']' :: rest = continued elements' ++ ']' :: rest' := by
  cases elements with
  | nil =>
    cases elements' with
    | nil => exact same
    | cons element more => exact absurd (congrArg bracket? same).symm (bracket?_compactElements element more)
  | cons element more =>
    cases elements' with
    | nil => exact absurd (congrArg bracket? same) (bracket?_compactElements element more)
    | cons element' more' =>
      rw [compactElements_cons, compactElements_cons] at same
      exact congrArg (',' :: ·) same

theorem bracket?_compactMembers (member : String × Json) (more : List (String × Json)) :
    bracket? (compactMembers (member :: more) ++ rest) = some '"' := by
  rw [compactMembers_cons]
  rfl

theorem continuedMembers_eq {members members' : List (String × Json)}
    (same : compactMembers members ++ '\x7d' :: rest = compactMembers members' ++ '\x7d' :: rest') :
    continuedMembers members ++ '\x7d' :: rest = continuedMembers members' ++ '\x7d' :: rest' := by
  cases members with
  | nil =>
    cases members' with
    | nil => exact same
    | cons member more => cases (congrArg bracket? same).trans (bracket?_compactMembers member more)
  | cons member more =>
    cases members' with
    | nil => cases (congrArg bracket? same).symm.trans (bracket?_compactMembers member more)
    | cons member' more' =>
      obtain ⟨key, value⟩ := member
      obtain ⟨key', value'⟩ := member'
      rw [compactMembers_cons, compactMembers_cons] at same
      exact congrArg (',' :: ·) same

/-! ## The document of a text -/

theorem atom_append_inj (bare : a.opening = none) (bare' : b.opening = none) (closes : Closes rest)
    (closes' : Closes rest') (same : a.compact ++ rest = b.compact ++ rest') :
    a.legible = b.legible ∧ rest = rest' := by
  obtain ⟨atom, written⟩ := isAtom_legible bare
  obtain ⟨atom', written'⟩ := isAtom_legible bare'
  rw [← written, ← written'] at same
  obtain ⟨texts, rests⟩ := atomic_append_inj atom.isAtomic atom'.isAtomic closes closes' same
  exact ⟨atom.eq_of_compact atom' texts, rests⟩

mutual

/-- A compact text with something behind it that cannot belong to it tells its document and what is
behind it. -/
theorem compact_append_inj : (a b : Json) → {rest rest' : List Char} → Closes rest → Closes rest' →
    a.compact ++ rest = b.compact ++ rest' → a.legible = b.legible ∧ rest = rest'
  | a@(null), b, _, _, closes, closes', same | a@(number _), b, _, _, closes, closes', same
  | a@(natural _), b, _, _, closes, closes', same =>
    atom_append_inj rfl (opening_eq same).symm closes closes' same
  | text contents, b, rest, rest', _, _, same => by
    have opens := opening_eq same
    cases b with
    | text contents' =>
      obtain ⟨rfl, rests⟩ := quotedText_append_inj same
      exact ⟨rfl, rests⟩
    | _ => cases opens
  | array elements, b, rest, rest', _, _, same => by
    have opens := opening_eq same
    cases b with
    | array elements' =>
      simp only [compact, List.cons_append, List.append_assoc, List.cons.injEq, true_and] at same
      obtain ⟨alike, rests⟩ := continued_append_inj elements elements' (continued_eq same)
      exact ⟨congrArg array alike, rests⟩
    | _ => cases opens
  | object members, b, rest, rest', _, _, same => by
    have opens := opening_eq same
    cases b with
    | object members' =>
      simp only [compact, List.cons_append, List.append_assoc, List.cons.injEq, true_and] at same
      obtain ⟨alike, rests⟩ := continuedMembers_append_inj members members' (continuedMembers_eq same)
      exact ⟨congrArg object alike, rests⟩
    | _ => cases opens

theorem continued_append_inj : (elements elements' : List Json) → {rest rest' : List Char} →
    continued elements ++ ']' :: rest = continued elements' ++ ']' :: rest' →
    legibleElements elements = legibleElements elements' ∧ rest = rest'
  | [], elements', rest, rest', same => by
    cases elements' with
    | nil => exact ⟨rfl, (List.cons.inj same).2⟩
    | cons => exact absurd (List.cons.inj same).1 (by decide)
  | element :: more, elements', rest, rest', same => by
    cases elements' with
    | nil => exact absurd (List.cons.inj same).1 (by decide)
    | cons element' more' =>
      simp only [continued, List.flatMap_cons, List.cons_append, List.append_assoc, List.cons.injEq,
        true_and] at same
      obtain ⟨first, further⟩ := compact_append_inj element element' (closes_continued more rfl)
        (closes_continued more' rfl) same
      obtain ⟨alike, rests⟩ := continued_append_inj more more' further
      exact ⟨by rw [legibleElements, legibleElements, first, alike], rests⟩

theorem continuedMembers_append_inj : (members members' : List (String × Json)) →
    {rest rest' : List Char} →
    continuedMembers members ++ '\x7d' :: rest = continuedMembers members' ++ '\x7d' :: rest' →
    legibleMembers members = legibleMembers members' ∧ rest = rest'
  | [], members', rest, rest', same => by
    cases members' with
    | nil => exact ⟨rfl, (List.cons.inj same).2⟩
    | cons => exact absurd (List.cons.inj same).1 (by decide)
  | (key, value) :: more, members', rest, rest', same => by
    cases members' with
    | nil => exact absurd (List.cons.inj same).1 (by decide)
    | cons member' more' =>
      obtain ⟨key', value'⟩ := member'
      simp only [continuedMembers, List.flatMap_cons, List.cons_append, List.append_assoc,
        List.cons.injEq, true_and] at same
      obtain ⟨rfl, behind⟩ := quotedText_append_inj same
      obtain ⟨first, further⟩ := compact_append_inj value value' (closes_continuedMembers more rfl)
        (closes_continuedMembers more' rfl) (List.cons.inj behind).2
      obtain ⟨alike, rests⟩ := continuedMembers_append_inj more more' further
      exact ⟨by rw [legibleMembers, legibleMembers, first, alike], rests⟩

end

/-- Documents with one compact text are alike, but for numbers that are written as `null`. -/
theorem legible_eq_of_compact (same : a.compact = b.compact) : a.legible = b.legible := by
  have closes : Closes [] := nofun
  exact (compact_append_inj a b closes closes (congrArg (· ++ []) same)).1

end Lox.Json
