import Switchboard.Signature.Parser
import Switchboard.Proofs.Padding

/-!
# The grammar of signatures

The parser is a program; the grammar here is what it is meant to accept, stated without it. A
`Wording` is what a text says once the blanks are gone: a name, perhaps a list of items, perhaps
a type. `Wording.Written` relates it to the texts that say it, with blanks wherever they are
allowed, and `Wording.Means` to the signature that it declares under the suggested names. The
two are apart on purpose: how blanks may be laid out has nothing to do with which tokens are
valid.
-/

namespace Switchboard.Signature

open Text

/-! ## Tokens -/

/-- A text of letters, digits and underscores, and at least one of them. -/
def Ident (s : List Char) : Prop := s ≠ [] ∧ ∀ c ∈ s, isIdentChar c = true

/-- The test for identifiers is the grammar's. -/
theorem isIdent_iff {s : List Char} : isIdent s = true ↔ Ident s := by
  cases s <;> simp [isIdent, Ident]

theorem isNameChar_of_isIdentChar {c : Char} (h : isIdentChar c = true) :
    isNameChar c = true := by
  simp only [isIdentChar, isNameChar, Bool.or_eq_true] at h ⊢
  tauto

/-- No character of a name is blank. -/
theorem isBlank_of_isNameChar {c : Char} (h : isNameChar c = true) : isBlank c = false := by
  simp only [isNameChar, Bool.or_eq_true, decide_eq_true_eq] at h
  rcases h with ((h | rfl) | rfl) | rfl
  · have hcode : ((65 ≤ c.toNat ∧ c.toNat ≤ 90) ∨ (97 ≤ c.toNat ∧ c.toNat ≤ 122)) ∨
        (48 ≤ c.toNat ∧ c.toNat ≤ 57) := by
      change ((decide (c.val ≥ 'A'.val ∧ c.val ≤ 'Z'.val) || (c.val ≥ 'a'.val && c.val ≤ 'z'.val))
        || (c.val ≥ '0'.val && c.val ≤ '9'.val)) = true at h
      simpa [UInt32.le_iff_toNat_le] using h
    simp [isBlank, inRanges, blankRanges]
    omega
  all_goals decide

theorem Ident.solid {s : List Char} (h : Ident s) : Solid s := fun c hc =>
  isBlank_of_isNameChar (isNameChar_of_isIdentChar (h.2 c hc))

/-- A character that is neither blank nor fit for identifiers is in no padded identifier. -/
theorem Ident.not_mem_of_padded {token s : List Char} {c : Char} (h : Ident token)
    (hs : Padded token s) (hi : isIdentChar c = false) (hb : isBlank c = false) : c ∉ s := by
  obtain ⟨front, back, hf, hk, rfl⟩ := hs
  intro hc
  rcases List.mem_append.mp hc with hc | hc
  · rcases List.mem_append.mp hc with hc | hc
    · rw [hf c hc] at hb
      cases hb
    · rw [h.2 c hc] at hi
      cases hi
  · rw [hk c hc] at hb
    cases hb

/-- The longest prefix of a text over a class of characters. -/
structure LongestPrefix (p : Char → Bool) (front s : List Char) : Prop where
  isPrefix : front <+: s
  within : ∀ c ∈ front, p c = true
  longest : ∀ other, other <+: s → (∀ c ∈ other, p c = true) → other.length ≤ front.length

/-- A prefix over a class is the longest one exactly if the next character is outside. -/
theorem longestPrefix_append_iff {p : Char → Bool} {front back : List Char} :
    LongestPrefix p front (front ++ back) ↔
      (∀ c ∈ front, p c = true) ∧ ∀ c, back.head? = some c → p c = false := by
  constructor
  · rintro ⟨-, within, longest⟩
    refine ⟨within, fun c hc => ?_⟩
    cases back with
    | nil => cases hc
    | cons d back =>
        obtain rfl : d = c := by simpa using hc
        by_contra hp
        rw [Bool.not_eq_false] at hp
        have hin : ∀ c ∈ front ++ [d], p c = true := by
          simpa [or_imp, forall_and] using ⟨within, hp⟩
        have hlen := longest (front ++ [d]) ⟨back, by simp⟩ hin
        rw [List.length_append, List.length_singleton] at hlen
        omega
  · rintro ⟨within, stop⟩
    refine ⟨List.prefix_append _ _, within, fun other hother hin => ?_⟩
    by_contra hlen
    -- a longer prefix would hold the character behind the front
    obtain ⟨more, rfl⟩ := List.prefix_of_prefix_length_le (List.prefix_append front back) hother
      (by omega)
    rw [List.prefix_append_right_inj] at hother
    obtain ⟨rest, rfl⟩ := hother
    cases more with
    | nil => simp at hlen
    | cons c more =>
        have hc : p c = true := hin c (by simp)
        rw [stop c rfl] at hc
        cases hc

/-- A token that stands for a kind. -/
structure TypeToken (token : List Char) (k : Kind) : Prop where
  ident : Ident token
  known : Kind.ofToken? (String.ofList token) = some k

/-- A token stands for a kind exactly if it is an identifier and a word for that kind: an
    identifier has no blanks to trim. -/
theorem typeToken_iff {token : List Char} {k : Kind} :
    TypeToken token k ↔ isIdent token = true ∧ Kind.ofWord? token = some k := by
  have hword (h : Ident token) : Kind.ofToken? (String.ofList token) = Kind.ofWord? token := by
    have hpad : Padded token token := ⟨[], [], blank_nil, blank_nil, by simp⟩
    rw [Kind.ofToken?, String.toList_ofList, hpad.trim_eq h.solid]
  constructor
  · rintro ⟨hi, hk⟩
    exact ⟨isIdent_iff.mpr hi, by rw [← hword hi, hk]⟩
  · rintro ⟨hi, hk⟩
    have hi := isIdent_iff.mp hi
    exact ⟨hi, by rw [hword hi, hk]⟩

/-- An item of a parameter list, as it is worded: a type alone, or a name and a type. -/
inductive Item where
  | bare (type : List Char)
  | named (name type : List Char)

/-- Whether an item has a name of its own. -/
def Item.isNamed : Item → Bool
  | .bare _ => false
  | .named _ _ => true

/-- What the text of a signature says, blanks aside: the name of the method, the items between the
    parentheses if there are any, and the type behind the arrow if there is one. -/
structure Wording where
  name : List Char
  items? : Option (List Item)
  type? : Option (List Char)

/-! ## Layout -/

/-- How an item is written. -/
inductive Item.Written : Item → List Char → Prop
  | bare {type s : List Char} (hs : Padded type s) : Item.Written (.bare type) s
  | named {name type s t : List Char} (hs : Padded name s) (ht : Padded type t) :
    Item.Written (.named name type) (s ++ '=' :: t)

/-- How items are written with commas between them. -/
inductive ItemsWritten : List Item → List Char → Prop
  | one {item : Item} {s : List Char} (hs : item.Written s) : ItemsWritten [item] s
  | cons {item : Item} {items : List Item} {s t : List Char} (hs : item.Written s)
    (ht : ItemsWritten items t) : ItemsWritten (item :: items) (s ++ ',' :: t)

/-- How what stands between the parentheses is written. -/
inductive ListWritten : List Item → List Char → Prop
  | blank {s : List Char} (hs : Blank s) : ListWritten [] s
  | items {items : List Item} {s : List Char} (hs : ItemsWritten items s) : ListWritten items s

/-- How the result type is written, with the blanks in front of the arrow. -/
inductive TypeWritten : Option (List Char) → List Char → Prop
  | absent {gap : List Char} (hg : Blank gap) : TypeWritten none gap
  | present {gap type s : List Char} (hg : Blank gap) (hs : Padded type s) :
    TypeWritten (some type) (gap ++ '-' :: '>' :: s)

/-- How everything behind the name is written. The list ends at the first closing
    parenthesis. -/
inductive TailWritten : Option (List Item) → Option (List Char) → List Char → Prop
  | plain {type? : Option (List Char)} {s : List Char} (hs : TypeWritten type? s) :
    TailWritten none type? s
  | listed {items : List Item} {type? : Option (List Char)} {gap s t : List Char}
    (hg : Blank gap) (hs : ListWritten items s) (first : ')' ∉ s) (ht : TypeWritten type? t) :
    TailWritten (some items) type? (gap ++ '(' :: (s ++ ')' :: t))

/-- How a signature is written: the name, which is the longest that could be read there, and
    what follows, with blanks around. -/
def Wording.Written (w : Wording) (text : List Char) : Prop :=
  ∃ front tail, Blank front ∧ text = front ++ (w.name ++ tail) ∧ w.name ≠ [] ∧
    LongestPrefix isNameChar w.name (w.name ++ tail) ∧ TailWritten w.items? w.type? tail

/-! ## Meaning -/

/-- The parameter that an item declares at a position. -/
inductive Item.Declares (hints : List String) (position : Nat) : Item → Parameter → Prop
  | bare {type : List Char} {k : Kind} (ht : TypeToken type k) :
    Item.Declares hints position (.bare type) ⟨suggestedName hints position, k⟩
  | named {name type : List Char} {k : Kind} (hn : Ident name) (ht : TypeToken type k) :
    Item.Declares hints position (.named name type) ⟨String.ofList name, k⟩

/-- The parameters that a list of items declares: one for each, in order, no item without a
    name behind one with a name, and no two parameters of one name. -/
structure Declares (hints : List String) (items : List Item) (ps : List Parameter) : Prop where
  each : List.Forall₂ (fun item p => item.1.Declares hints item.2 p) items.zipIdx ps
  ordered : items.Pairwise fun a b => a.isNamed → b.isNamed
  distinct : (ps.map (·.name)).Nodup

/-- The kind of the result: any, unless there is a type. -/
def Returns : Option (List Char) → Kind → Prop
  | none, k => k = .any
  | some type, k => TypeToken type k

/-- The signature that a wording declares. -/
structure Wording.Means (hints : List String) (w : Wording) (s : Signature) : Prop where
  name : s.name = String.ofList w.name
  parameters : Option.Rel (Declares hints) w.items? s.parameters?
  returns : Returns w.type? s.returns

end Switchboard.Signature
