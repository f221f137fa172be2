import ApiInterfaces.Proofs.Yaml.Number
import ApiInterfaces.Yaml.ToJson

/-!
Scalars and their spellings. A plain scalar is null, a truth value, an integer of 64 bits, a
double or a text, and each of these but the last is read back from the text that it has as a key.
-/

namespace ApiInterfaces.Yaml

/-- The values other than texts that a plain scalar can have. -/
inductive Value.IsPlain : Value → Prop
  | null : IsPlain .null
  | bool (b : Bool) : IsPlain (.bool b)
  | integer {n : Int} (hlow : -(twoTo 63 : Int) ≤ n) (hhigh : n < twoTo 64) : IsPlain (.integer n)
  | finite {x : Binary64} (hx : x.IsNumber) : IsPlain (.double (.finite x))
  | infinite (negative : Bool) : IsPlain (.double (.infinite negative))
  | undefined : IsPlain (.double .undefined)

/-! ### Texts that look like numbers -/

/-- A text is no word of a list if the characters at some place tell it from them. -/
theorem not_mem_words {text : String} {words : List String} (place : String → Option Char)
    (p : Char → Bool) {c : Char} (hc : place text = some c) (hp : p c = true)
    (hwords : ∀ word ∈ words, (place word).any p = false) : text ∉ words := by
  intro hmem
  have hword := hwords text hmem
  rw [hc, Option.any_some, hp] at hword
  simp at hword

def firstChar (text : String) : Option Char := text.toList.head?

def secondChar (text : String) : Option Char := text.toList.tail.head?

/-- Whether a text begins as the texts of numbers do. -/
def BeginsNumber (text : String) : Prop :=
  ∃ c, firstChar text = some c ∧ (c = '-' || c.isDigit) = true

section

variable {text : String} (h : BeginsNumber text)
include h

theorem BeginsNumber.not_mem {words : List String}
    (hwords : ∀ word ∈ words, (firstChar word).any (fun c => c = '-' || c.isDigit) = false) :
    text ∉ words := by
  obtain ⟨c, hc, hbegins⟩ := h
  exact not_mem_words firstChar _ hc hbegins hwords

theorem BeginsNumber.isNull_eq : isNull text = false := by
  rw [isNull, List.contains_eq_mem, decide_eq_false_iff_not]
  exact h.not_mem (by decide)

theorem BeginsNumber.bool?_eq : bool? text = none := by
  have htrue : text ∉ ["true", "True", "TRUE"] := h.not_mem (by decide)
  have hfalse : text ∉ ["false", "False", "FALSE"] := h.not_mem (by decide)
  rw [bool?, if_neg (by simpa using htrue), if_neg (by simpa using hfalse)]

end

/-- The mark of a base is a letter in the second place. -/
theorem base?_eq_none {text : List Char}
    (h : ∀ c ∈ text.tail.head?, c ≠ 'x' ∧ c ≠ 'o' ∧ c ≠ 'b') : base? text = none := by
  unfold base?
  split
  next => exact absurd rfl (h 'x' rfl).1
  next => exact absurd rfl (h 'o' rfl).2.1
  next => exact absurd rfl (h 'b' rfl).2.2
  next => rfl

/-! ### Signs -/

section

variable {c : Char} {rest : List Char} (h : c.isDigit = true)
include h

theorem ne_sign_of_isDigit : c ≠ '+' ∧ c ≠ '-' := by
  constructor <;> rintro rfl <;> simp at h

theorem dropSign_of_isDigit : dropSign (c :: rest) = c :: rest := by
  obtain ⟨hplus, hminus⟩ := ne_sign_of_isDigit h
  unfold dropSign
  split
  next heq => exact absurd (List.cons.inj heq).1 hplus
  next heq => exact absurd (List.cons.inj heq).1 hminus
  next => rfl

theorem integerText_of_isDigit :
    integerText (c :: rest) = match natural? (c :: rest) with
      | some n => if n < twoTo 64 then .fits n else if n < twoTo 128 then .tooLarge else .none
      | none => .none := by
  obtain ⟨hplus, hminus⟩ := ne_sign_of_isDigit h
  unfold integerText
  split
  next negative unsigned hsign =>
    split at hsign
    next heq => exact absurd (List.cons.inj heq).1 hminus
    next heq => exact absurd (List.cons.inj heq).1 hplus
    next =>
      obtain ⟨rfl, rfl⟩ := Prod.mk.inj hsign
      rfl

end

theorem integerText_minus (text : List Char) :
    integerText ('-' :: text) = match natural? text with
      | some n =>
        if n ≤ twoTo 63 then .fits (-(n : Int)) else if n ≤ twoTo 127 then .tooLarge else .none
      | none => .none := rfl

/-! ### Integers -/

theorem exists_cons_toDigits (n : Nat) :
    ∃ c rest, Nat.toDigits 10 n = c :: rest ∧ c.isDigit = true := by
  have hne : Nat.toDigits 10 n ≠ [] := Nat.toDigits_ne_nil
  obtain ⟨c, rest, heq⟩ := List.exists_cons_of_ne_nil hne
  refine ⟨c, rest, heq, isDigit_toDigits n c ?_⟩
  rw [heq]
  exact List.mem_cons_self

theorem hasLeadingZero_toDigits (n : Nat) : hasLeadingZero (Nat.toDigits 10 n) = false := by
  obtain ⟨c, rest, heq, hc⟩ := exists_cons_toDigits n
  unfold hasLeadingZero
  rw [heq, dropSign_of_isDigit hc]
  split
  next d more hzero =>
    rcases Nat.eq_zero_or_pos n with rfl | hn
    · rw [← heq] at hzero
      simp at hzero
    · refine absurd ?_ (head?_toDigits_ne hn)
      rw [heq, hzero, List.head?_cons]
  next => rfl

theorem natural?_toDigits (n : Nat) : natural? (Nat.toDigits 10 n) = some n := by
  have hdigit := isDigit_toDigits n
  have hbase : base? (Nat.toDigits 10 n) = none := by
    apply base?_eq_none
    intro c hc
    have hc' := hdigit c (List.mem_of_mem_tail (List.mem_of_mem_head? hc))
    refine ⟨?_, ?_, ?_⟩ <;> rintro rfl <;> simp at hc'
  rw [natural?, hbase]
  simp only [hasLeadingZero_toDigits]
  rw [if_neg (by simp), digits?_eq Nat.toDigits_ne_nil hdigit, Nat.ofDigitChars_ten_toDigits]

theorem toList_toString (n : Int) : (toString n).toList =
    if 0 ≤ n then Nat.toDigits 10 n.toNat else '-' :: Nat.toDigits 10 (-n).toNat := by
  rw [Int.toString_eq_repr, Int.repr_eq_if]
  split
  next => rw [toList_repr]
  next =>
    rw [String.toList_append, toList_repr]
    rfl

theorem integerText_toString {n : Int} (hlow : -(twoTo 63 : Int) ≤ n) (hhigh : n < twoTo 64) :
    integerText (toString n).toList = .fits n := by
  rw [toList_toString]
  split
  next hpos =>
    obtain ⟨c, rest, heq, hc⟩ := exists_cons_toDigits n.toNat
    have hvalue : ((n.toNat : Nat) : Int) = n := Int.toNat_of_nonneg hpos
    have hfits : n.toNat < twoTo 64 := by omega
    rw [heq, integerText_of_isDigit hc, ← heq, natural?_toDigits]
    simp only [if_pos hfits, hvalue]
  next hneg =>
    have hvalue : -(((-n).toNat : Nat) : Int) = n := by omega
    have hfits : (-n).toNat ≤ twoTo 63 := by omega
    rw [integerText_minus, natural?_toDigits]
    simp only [if_pos hfits, hvalue]

theorem beginsNumber_toString (n : Int) : BeginsNumber (toString n) := by
  unfold BeginsNumber firstChar
  rw [toList_toString]
  split
  next =>
    obtain ⟨c, rest, heq, hc⟩ := exists_cons_toDigits n.toNat
    exact ⟨c, by rw [heq, List.head?_cons], by simp [hc]⟩
  next => exact ⟨'-', List.head?_cons, rfl⟩

theorem plainValue?_toString {n : Int} (hlow : -(twoTo 63 : Int) ≤ n) (hhigh : n < twoTo 64) :
    plainValue? (toString n) = some (.integer n) := by
  have hbegins := beginsNumber_toString n
  rw [plainValue?, hbegins.isNull_eq, if_neg (by simp), hbegins.bool?_eq]
  simp only [integerText_toString hlow hhigh]

/-! ### Doubles -/

/-- The text of a decimal has a mark behind its first digits. -/
theorem Writes.exists_mark {text : List Char} {d : Decimal} (h : Writes text d) :
    ∃ c whole mark behind, text = (c :: whole) ++ mark :: behind ∧
      (∀ c' ∈ c :: whole, c'.isDigit = true) ∧ (mark = '.' ∨ mark = 'e') := by
  cases h with
  | pointed hne hwhole _ _ =>
      obtain ⟨c, whole, rfl⟩ := List.exists_cons_of_ne_nil hne
      exact ⟨c, whole, '.', _, rfl, hwhole, .inl rfl⟩
  | integral hne hwhole _ =>
      obtain ⟨c, whole, rfl⟩ := List.exists_cons_of_ne_nil hne
      exact ⟨c, whole, 'e', _, rfl, hwhole, .inr rfl⟩

section

variable {body : List Char} {d : Decimal} (h : Writes body d)
include h

theorem Writes.exists_cons : ∃ c rest, body = c :: rest ∧ c.isDigit = true := by
  obtain ⟨c, whole, mark, behind, rfl, hwhole, -⟩ := h.exists_mark
  exact ⟨c, _, rfl, hwhole c List.mem_cons_self⟩

theorem Writes.exists_not_isDigit : ∃ c ∈ body.tail, c.isDigit = false := by
  obtain ⟨c, whole, mark, behind, rfl, -, hmark⟩ := h.exists_mark
  refine ⟨mark, by simp, ?_⟩
  rcases hmark with rfl | rfl <;> rfl

theorem Writes.hasLeadingZero_eq : hasLeadingZero body = false := by
  obtain ⟨c, rest, rfl, hc⟩ := h.exists_cons
  obtain ⟨other, hmem, hother⟩ := h.exists_not_isDigit
  unfold hasLeadingZero
  rw [dropSign_of_isDigit hc]
  split
  next d' rest' heq =>
    obtain ⟨-, rfl⟩ := List.cons.inj heq
    rw [List.all_eq_false]
    exact ⟨other, hmem, by rw [hother]; simp⟩
  next => rfl

theorem Writes.natural?_eq : natural? body = none := by
  have hbase : base? body = none := by
    obtain ⟨c, whole, mark, behind, rfl, hwhole, hmark⟩ := h.exists_mark
    apply base?_eq_none
    intro c' hc'
    cases whole with
    | nil =>
        obtain rfl : mark = c' := by simpa using hc'
        rcases hmark with rfl | rfl <;> decide
    | cons second more =>
        obtain rfl : second = c' := by simpa using hc'
        have hdigit := hwhole second (by simp)
        refine ⟨?_, ?_, ?_⟩ <;> rintro rfl <;> simp at hdigit
  rw [natural?, hbase]
  simp only [h.hasLeadingZero_eq]
  rw [if_neg (by simp)]
  by_contra hsome
  obtain ⟨n, hn⟩ := Option.ne_none_iff_exists'.mp hsome
  obtain ⟨other, hmem, hother⟩ := h.exists_not_isDigit
  have hdigit := isDigit_of_digits? hn other (List.mem_of_mem_tail hmem)
  rw [hother] at hdigit
  simp at hdigit

/-! The same of a body behind a sign. -/

theorem Writes.hasLeadingZero_minus : hasLeadingZero ('-' :: body) = false := by
  rw [← h.hasLeadingZero_eq]
  obtain ⟨c, rest, rfl, hc⟩ := h.exists_cons
  rw [hasLeadingZero, hasLeadingZero, dropSign_of_isDigit hc]
  rfl

theorem Writes.integerText_eq : integerText body = .none := by
  have hnatural := h.natural?_eq
  obtain ⟨c, rest, rfl, hc⟩ := h.exists_cons
  rw [integerText_of_isDigit hc, hnatural]

theorem Writes.integerText_minus : integerText ('-' :: body) = .none := by
  rw [Yaml.integerText_minus, h.natural?_eq]

theorem Writes.double?_eq : double? body = Double.finite <$> decimal? false body := by
  obtain ⟨c, rest, rfl, hc⟩ := h.exists_cons
  obtain ⟨hplus, hminus⟩ := ne_sign_of_isDigit hc
  have hfirst : firstChar (String.ofList (c :: rest)) = some c := by
    rw [firstChar, String.toList_ofList, List.head?_cons]
  have hpositive : String.ofList (c :: rest) ∉ [".inf", ".Inf", ".INF"] :=
    not_mem_words firstChar Char.isDigit hfirst hc (by decide)
  have hnegative : String.ofList (c :: rest) ∉ ["-.inf", "-.Inf", "-.INF"] :=
    not_mem_words firstChar Char.isDigit hfirst hc (by decide)
  have hundefined : String.ofList (c :: rest) ∉ [".nan", ".NaN", ".NAN"] :=
    not_mem_words firstChar Char.isDigit hfirst hc (by decide)
  unfold double?
  split
  next heq => exact absurd (List.cons.inj heq).1 hplus
  next =>
    simp only [List.contains_eq_mem, hpositive, hnegative, hundefined, decide_false]
    rw [if_neg (by simp), if_neg (by simp), if_neg (by simp)]
    split
    next heq _ => exact absurd (List.cons.inj heq).1 hplus
    next heq _ => exact absurd (List.cons.inj heq).1 hminus
    next => rfl

theorem Writes.double?_minus : double? ('-' :: body) = Double.finite <$> decimal? true body := by
  obtain ⟨c, rest, rfl, hc⟩ := h.exists_cons
  have hfirst : firstChar (String.ofList ('-' :: c :: rest)) = some '-' := by
    rw [firstChar, String.toList_ofList, List.head?_cons]
  have hsecond : secondChar (String.ofList ('-' :: c :: rest)) = some c := by
    rw [secondChar, String.toList_ofList, List.tail_cons, List.head?_cons]
  have hpositive : String.ofList ('-' :: c :: rest) ∉ [".inf", ".Inf", ".INF"] :=
    not_mem_words firstChar (· = '-') hfirst rfl (by decide)
  have hnegative : String.ofList ('-' :: c :: rest) ∉ ["-.inf", "-.Inf", "-.INF"] :=
    not_mem_words secondChar Char.isDigit hsecond hc (by decide)
  have hundefined : String.ofList ('-' :: c :: rest) ∉ [".nan", ".NaN", ".NAN"] :=
    not_mem_words firstChar (· = '-') hfirst rfl (by decide)
  unfold double?
  split
  next heq => exact absurd (List.cons.inj heq).1 (by decide)
  next =>
    simp only [List.contains_eq_mem, hpositive, hnegative, hundefined, decide_false]
    rw [if_neg (by simp), if_neg (by simp), if_neg (by simp)]

end

theorem plainValue?_of_double? {text : String} {x : Double} (hbegins : BeginsNumber text)
    (hinteger : integerText text.toList = .none) (hzero : hasLeadingZero text.toList = false)
    (hdouble : double? text.toList = some x) : plainValue? text = some (.double x) := by
  rw [plainValue?, hbegins.isNull_eq, if_neg (by simp), hbegins.bool?_eq]
  simp only [hinteger, hzero]
  rw [if_neg (by simp), hdouble]

theorem plainValue?_number {x : Binary64} (hx : x.IsNumber) :
    plainValue? (Double.layout.text x) = some (.double (.finite x)) := by
  obtain ⟨body, d, htext, hwrites, hread⟩ := exists_writes_text hx
  rw [← hwrites.decimal?_eq] at hread
  cases hsign : x.negative with
  | true =>
      rw [hsign, if_pos rfl, List.singleton_append] at htext
      rw [hsign] at hread
      refine plainValue?_of_double? ⟨'-', ?_, rfl⟩ ?_ ?_ ?_
      · rw [firstChar, htext, List.head?_cons]
      · rw [htext, hwrites.integerText_minus]
      · rw [htext, hwrites.hasLeadingZero_minus]
      · rw [htext, hwrites.double?_minus, hread, Option.map_eq_map, Option.map_some]
  | false =>
      rw [hsign, if_neg (by simp), List.nil_append] at htext
      rw [hsign] at hread
      obtain ⟨c, rest, hbody, hc⟩ := hwrites.exists_cons
      refine plainValue?_of_double? ⟨c, ?_, by simp [hc]⟩ ?_ ?_ ?_
      · rw [firstChar, htext, hbody, List.head?_cons]
      · rw [htext, hwrites.integerText_eq]
      · rw [htext, hwrites.hasLeadingZero_eq]
      · rw [htext, hwrites.double?_eq, hread, Option.map_eq_map, Option.map_some]

/-! ### Scalars -/

/-- A scalar other than a text is read back from its text as a key. -/
theorem Value.IsPlain.plainValue?_keyText {v : Value} (h : v.IsPlain) :
    plainValue? v.keyText = some v := by
  cases h with
  | null => rfl
  | bool b => cases b <;> rfl
  | integer hlow hhigh => exact plainValue?_toString hlow hhigh
  | finite hx => exact plainValue?_number hx
  | infinite negative => cases negative <;> rfl
  | undefined => rfl

theorem isNumber_of_decimal? {negative : Bool} {text : List Char} {x : Binary64}
    (h : decimal? negative text = some x) : x.IsNumber := by
  -- Every way through ends in the rounding of a decimal or in nothing.
  have hend (exponent : Option Int) (digits : List Char) (places : Int)
      (hread : (exponent.bind fun e => (digits? 10 digits).bind fun n =>
        Binary64.ofDecimal? negative n (e - places)) = some x) : x.IsNumber := by
    obtain ⟨e, -, hread⟩ := Option.bind_eq_some_iff.mp hread
    obtain ⟨n, -, hread⟩ := Option.bind_eq_some_iff.mp hread
    exact Binary64.isNumber_of_ofDecimal? hread
  unfold decimal? at h
  dsimp only at h
  repeat' split at h
  all_goals first
    | exact hend _ _ _ h
    | simp at h

theorem isPlain_of_double? {text : List Char} {x : Double} (h : double? text = some x) :
    (Value.double x).IsPlain := by
  have hfinite (negative : Bool) (rest : List Char)
      (hread : Double.finite <$> decimal? negative rest = some x) : (Value.double x).IsPlain := by
    obtain ⟨y, hy, rfl⟩ := Option.map_eq_some_iff.mp hread
    exact .finite (isNumber_of_decimal? hy)
  unfold double? at h
  dsimp only at h
  split_ifs at h
  · obtain rfl := Option.some.inj h
    exact .infinite false
  · obtain rfl := Option.some.inj h
    exact .infinite true
  · obtain rfl := Option.some.inj h
    exact .undefined
  · split at h
    next => simp at h
    next => exact hfinite _ _ h
    next => exact hfinite _ _ h

theorem isPlain_of_integerText {text : List Char} {n : Int} (h : integerText text = .fits n) :
    (Value.integer n).IsPlain := by
  have hlow := twoTo_pos 63
  have hhigh := twoTo_pos 64
  unfold integerText at h
  split at h
  split at h
  next m _ =>
    split_ifs at h with hnegative hfits hlarge hfits hlarge
    · obtain rfl := IntegerText.fits.inj h
      exact .integer (by omega) (by omega)
    · obtain rfl := IntegerText.fits.inj h
      exact .integer (by omega) (by omega)
  next => simp at h

theorem plainValue?_cases {text : String} {v : Value} (h : plainValue? text = some v) :
    v.IsPlain ∨ v = .text text := by
  unfold plainValue? at h
  split at h
  next =>
    obtain rfl := Option.some.inj h
    exact .inl .null
  next =>
    split at h
    next b _ =>
      obtain rfl := Option.some.inj h
      exact .inl (.bool b)
    next =>
      split at h
      next n hinteger =>
        obtain rfl := Option.some.inj h
        exact .inl (isPlain_of_integerText hinteger)
      next => simp at h
      next =>
        split at h
        next x hx =>
          obtain rfl := Option.some.inj h
          split at hx
          next => simp at hx
          next => exact .inl (isPlain_of_double? hx)
        next =>
          obtain rfl := Option.some.inj h
          exact .inr rfl

end ApiInterfaces.Yaml
