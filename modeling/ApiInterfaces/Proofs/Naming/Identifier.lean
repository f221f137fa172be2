import ApiInterfaces.Naming.Identifier
import ApiInterfaces.Proofs.Naming.Freshness
import ApiInterfaces.Proofs.Unicode.Blank
import ApiInterfaces.Proofs.Unicode.Casing

/-!
Names as identifiers. Making a name keeps every alphanumeric character, also where a language
has no such identifiers, and of those that may not come first it puts only the decimal digits of
ASCII behind `_`. The name is an identifier exactly if what is kept may stand in one as it is,
but for such a digit at its start; it is enough that all the characters kept may begin one.
-/

namespace ApiInterfaces

namespace Naming

/-- Names have the property `N` whenever the texts that they are made from have the
property `T`. -/
structure Preserves (T N : String → Prop) : Prop where
  title : ∀ title, T title → N (ofTitle title)
  property : ∀ outer property, N outer → T property → N (ofProperty outer property)
  path : ∀ place, (∀ segment ∈ place, T segment) → N (ofPath place)
  numbered : ∀ base n, N base → N (Registry.numbered base n)

theorem Preserves.fresh {T N : String → Prop} (h : Preserves T N) {base : String} (hbase : N base)
    (r : Registry) : N (r.fresh base) := by
  unfold Registry.fresh
  split
  next => exact h.numbered base _ hbase
  next => exact hbase

theorem identifierChars_ne_nil (raw : List Char) : identifierChars raw ≠ [] := by
  unfold identifierChars
  split
  next => decide
  next => split <;> simp

/-- What a language lets identifiers begin with and go on with, beyond the letters, `_`, `$`
and digits of ASCII. -/
structure IdentifierSyntax where
  start : Char → Prop
  part : Char → Prop
  part_of_start : ∀ c, start c → part c
  letter : ∀ c, c.isAlpha = true → start c
  digit : ∀ c, c.isDigit = true → part c
  underscore : start '_'
  dollar : start '$'

namespace IdentifierSyntax

/-- Identifiers of ASCII alone. -/
def ascii : IdentifierSyntax where
  start c := c.isAlpha = true ∨ c = '_' ∨ c = '$'
  part c := c.isAlphanum = true ∨ c = '_' ∨ c = '$'
  part_of_start c hc := hc.imp_left fun halpha => by simp [Char.isAlphanum, halpha]
  letter _ hc := .inl hc
  digit c hc := .inl (by simp [Char.isAlphanum, hc])
  underscore := .inr (.inl rfl)
  dollar := .inr (.inr rfl)

variable (s : IdentifierSyntax)

/-- A text that goes on like an identifier and, unless it is empty, begins like one or with
a decimal digit. -/
def Opens : List Char → Prop
  | [] => True
  | first :: rest => (first.isDigit = true ∨ s.start first) ∧ ∀ c ∈ rest, s.part c

/-- An identifier of the language. -/
def Legal (name : String) : Prop :=
  ∃ first rest, name.toList = first :: rest ∧ s.start first ∧ ∀ c ∈ rest, s.part c

/-- A set of characters, closed under upper case, in which every alphanumeric character may
begin an identifier, as it stands and in upper case, or is a decimal digit of ASCII. -/
structure Tames (A : Char → Prop) : Prop where
  ascii : ∀ c, c.isAlphanum = true ∨ c = '_' → A c
  upper : ∀ c, A c → ∀ d ∈ Unicode.upper c, A d
  kept : ∀ c, A c → Unicode.isAlphanumeric c = true →
    (c.isDigit = true ∨ s.start c) ∧ s.Opens (Unicode.upper c)

variable {s} {A : Char → Prop}

theorem Opens.forall_part {cs : List Char} (h : s.Opens cs) : ∀ c ∈ cs, s.part c := by
  cases cs with
  | nil => simp
  | cons first rest =>
      intro c hc
      rcases List.mem_cons.mp hc with rfl | hc
      · exact h.1.elim (s.digit c) (s.part_of_start c)
      · exact h.2 c hc

theorem Opens.append {first second : List Char} (hfirst : s.Opens first)
    (hsecond : s.Opens second) : s.Opens (first ++ second) := by
  cases first with
  | nil => exact hsecond
  | cons c rest =>
      refine ⟨hfirst.1, fun d hd => ?_⟩
      rcases List.mem_append.mp hd with hd | hd
      · exact hfirst.2 d hd
      · exact hsecond.forall_part d hd

/-- A cleaned text is an identifier if and only if what is kept of it opens one; the digit that it
may begin with gets a `_` in front. -/
theorem legal_identifierChars_iff (raw : List Char) :
    s.Legal (String.ofList (identifierChars raw)) ↔
      s.Opens (Naming.keepIdentifierChars false raw) := by
  unfold identifierChars Legal
  rw [String.toList_ofList]
  cases Naming.keepIdentifierChars false raw with
  | nil =>
      have hall : fallback.all Char.isAlpha = true := by decide
      have hletter : ∀ c ∈ fallback, s.start c := fun c hc =>
        s.letter c (List.all_eq_true.mp hall c hc)
      refine iff_of_true ⟨'S', "chema".toList, rfl, hletter 'S' (by decide), fun c hc => ?_⟩ trivial
      exact s.part_of_start c (hletter c (List.mem_cons_of_mem 'S' hc))
  | cons first rest =>
      dsimp only
      split
      next hdigit =>
        constructor
        · rintro ⟨c, others, hname, -, hparts⟩
          obtain ⟨-, rfl⟩ := List.cons.inj hname
          exact ⟨.inl hdigit, fun d hd => hparts d (List.mem_cons_of_mem first hd)⟩
        · intro hopens
          exact ⟨'_', first :: rest, rfl, s.underscore, hopens.forall_part⟩
      next hother =>
        constructor
        · rintro ⟨c, others, hname, hstart, hparts⟩
          obtain ⟨rfl, rfl⟩ := List.cons.inj hname
          exact ⟨.inr hstart, hparts⟩
        · rintro ⟨hstart, hparts⟩
          exact ⟨first, rest, rfl, hstart.resolve_left hother, hparts⟩

/-- A number at its end does not make a name an identifier, nor keeps it from being one. -/
theorem legal_numbered_iff {base : String} (hbase : base ≠ "") (n : Nat) :
    s.Legal (Registry.numbered base n) ↔ s.Legal base := by
  have hdigits : ∀ c ∈ Nat.toDigits 10 n, s.part c := fun c hc =>
    s.digit c (Nat.isDigit_of_mem_toDigits (by decide) (by decide) hc)
  unfold Legal
  rw [Registry.toList_numbered]
  constructor
  · rintro ⟨first, rest, hname, hfirst, hrest⟩
    cases hchars : base.toList with
    | nil => exact absurd (String.toList_eq_nil_iff.mp hchars) hbase
    | cons c others =>
        rw [hchars] at hname
        obtain ⟨rfl, rfl⟩ := List.cons.inj hname
        exact ⟨c, others, rfl, hfirst, fun d hd => hrest d (List.mem_append_left _ hd)⟩
  · rintro ⟨first, rest, hname, hfirst, hrest⟩
    refine ⟨first, rest ++ Nat.toDigits 10 n, by rw [hname]; rfl, hfirst, fun c hc => ?_⟩
    rcases List.mem_append.mp hc with hc | hc
    · exact hrest c hc
    · exact hdigits c hc

/-- A name made of characters of the set, and fit to be a part of other names. -/
structure Names (s : IdentifierSyntax) (A : Char → Prop) (name : String) : Prop where
  legal : s.Legal name
  within : ∀ c ∈ name.toList, A c

namespace Tames

variable (h : s.Tames A)
include h

theorem opens_kept {c : Char} (hA : A c) (hc : isIdentifierChar c = true) (raised : Bool) :
    s.Opens (if raised then Unicode.upper c else [c]) := by
  by_cases halphanumeric : Unicode.isAlphanumeric c = true
  · obtain ⟨hplain, hupper⟩ := h.kept c hA halphanumeric
    cases raised with
    | true => exact hupper
    | false => exact ⟨hplain, by simp⟩
  · have hsign : c = '_' ∨ c = '$' := by simpa [isIdentifierChar, halphanumeric] using hc
    rcases hsign with rfl | rfl
    · have hupper : Unicode.upper '_' = ['_'] := Unicode.upper_of_ascii (by decide)
      cases raised <;> simp [hupper, Opens, s.underscore]
    · have hupper : Unicode.upper '$' = ['$'] := Unicode.upper_of_ascii (by decide)
      cases raised <;> simp [hupper, Opens, s.dollar]

theorem within_kept {c : Char} (hA : A c) (raised : Bool) :
    ∀ d ∈ if raised then Unicode.upper c else [c], A d := by
  cases raised with
  | true => exact h.upper c hA
  | false => simpa using hA

theorem keepIdentifierChars {cs : List Char} (hcs : ∀ c ∈ cs, A c) (afterGap : Bool) :
    s.Opens (Naming.keepIdentifierChars afterGap cs) ∧
      ∀ c ∈ Naming.keepIdentifierChars afterGap cs, A c := by
  induction cs generalizing afterGap with
  | nil => simp [Naming.keepIdentifierChars, Opens]
  | cons c rest ih =>
      have hA := hcs c List.mem_cons_self
      have hrest := ih fun d hd => hcs d (List.mem_cons_of_mem c hd)
      rw [Naming.keepIdentifierChars]
      split
      next hc =>
        obtain ⟨hopens, hwithin⟩ := hrest false
        refine ⟨(h.opens_kept hA hc afterGap).append hopens, fun d hd => ?_⟩
        rcases List.mem_append.mp hd with hd | hd
        · exact h.within_kept hA afterGap d hd
        · exact hwithin d hd
      next => exact hrest true

theorem names_identifierChars {raw : List Char} (hraw : ∀ c ∈ raw, A c) :
    s.Names A (String.ofList (identifierChars raw)) := by
  obtain ⟨hopens, hwithin⟩ := h.keepIdentifierChars hraw false
  refine ⟨(legal_identifierChars_iff raw).mpr hopens, fun c hc => ?_⟩
  rw [String.toList_ofList] at hc
  unfold identifierChars at hc
  split at hc
  next =>
    have hall : fallback.all Char.isAlphanum = true := by decide
    exact h.ascii c (.inl (List.all_eq_true.mp hall c hc))
  next first rest hkept =>
    rw [hkept] at hwithin
    split at hc
    next =>
      rcases List.mem_cons.mp hc with rfl | hc
      · exact h.ascii '_' (.inr rfl)
      · exact hwithin c hc
    next => exact hwithin c hc

theorem within_capitalize {cs : List Char} (hcs : ∀ c ∈ cs, A c) : ∀ c ∈ capitalize cs, A c := by
  cases cs with
  | nil => simp [capitalize]
  | cons first rest =>
      intro c hc
      rcases List.mem_append.mp hc with hc | hc
      · exact h.upper first (hcs first List.mem_cons_self) c hc
      · exact hcs c (List.mem_cons_of_mem first hc)

theorem within_capitalizedWords {text : String} (htext : ∀ c ∈ text.toList, A c) :
    ∀ c ∈ capitalizedWords text, A c := by
  intro c hc
  obtain ⟨word, hword, hc⟩ := List.mem_flatMap.mp hc
  exact h.within_capitalize (fun d hd => htext d (Unicode.mem_of_mem_words hword hd)) c hc

theorem names_numbered {base : String} (hbase : s.Names A base) (n : Nat) :
    s.Names A (Registry.numbered base n) := by
  have hne : base ≠ "" := by
    rintro rfl
    obtain ⟨first, rest, hname, -⟩ := hbase.legal
    simp at hname
  refine ⟨(legal_numbered_iff hne n).mpr hbase.legal, fun c hc => ?_⟩
  rw [Registry.toList_numbered] at hc
  rcases List.mem_append.mp hc with hc | hc
  · exact hbase.within c hc
  · have hdigit : c.isDigit = true := Nat.isDigit_of_mem_toDigits (by decide) (by decide) hc
    exact h.ascii c (.inl (by simp [Char.isAlphanum, hdigit]))

/-- Names made from texts of the set are identifiers. -/
theorem preserves : Preserves (fun text => ∀ c ∈ text.toList, A c) (s.Names A) where
  title title htitle := h.names_identifierChars (h.within_capitalizedWords htitle)
  property outer property houter hproperty := by
    refine h.names_identifierChars fun c hc => ?_
    rcases List.mem_append.mp hc with hc | hc
    · exact houter.within c hc
    · exact h.within_capitalizedWords hproperty c hc
  path place hplace := by
    refine h.names_identifierChars fun c hc => ?_
    obtain ⟨segment, hsegment, hc⟩ := List.mem_flatMap.mp hc
    exact h.within_capitalize (hplace segment (List.mem_of_mem_filter hsegment)) c hc
  numbered base n hbase := h.names_numbered hbase n

end Tames

/-! Texts in ASCII make identifiers of any language. -/

theorem ascii_of_isAlphanum {c : Char} (h : c.isAlphanum = true) : c.toNat < 128 := by
  delta Char.isAlphanum Char.isAlpha Char.isUpper Char.isLower Char.isDigit at h
  simp only [Bool.or_eq_true, Bool.and_eq_true, decide_eq_true_eq, ge_iff_le,
    UInt32.le_iff_toNat_le] at h
  change (((65 ≤ c.toNat ∧ c.toNat ≤ 90) ∨ (97 ≤ c.toNat ∧ c.toNat ≤ 122)) ∨
    (48 ≤ c.toNat ∧ c.toNat ≤ 57)) at h
  omega

theorem toUpper_of_ascii {c : Char} (h : c.toNat < 128) :
    c.toUpper.toNat < 128 ∧ (Unicode.isAlphanumeric c = true →
      c.isAlphanum = true ∧ c.toUpper.isAlphanum = true) :=
  @Unicode.forall_ascii (fun c => c.toUpper.toNat < 128 ∧ (Unicode.isAlphanumeric c = true →
    c.isAlphanum = true ∧ c.toUpper.isAlphanum = true)) (by decide +kernel) c h

theorem digit_or_start {c : Char} (h : c.isAlphanum = true) :
    c.isDigit = true ∨ s.start c := by
  rw [Char.isAlphanum, Bool.or_eq_true] at h
  exact h.symm.imp_right (s.letter c)

theorem tames_ascii (s : IdentifierSyntax) : s.Tames fun c => c.toNat < 128 where
  ascii c hc := by
    rcases hc with hc | rfl
    · exact ascii_of_isAlphanum hc
    · decide
  upper c hc d hd := by
    rw [Unicode.upper_of_ascii hc] at hd
    obtain rfl := List.mem_singleton.mp hd
    exact (toUpper_of_ascii hc).1
  kept c hc halphanumeric := by
    obtain ⟨hplain, hupper⟩ := (toUpper_of_ascii hc).2 halphanumeric
    rw [Unicode.upper_of_ascii hc]
    exact ⟨digit_or_start hplain, digit_or_start hupper, by simp⟩

end IdentifierSyntax

end Naming

end ApiInterfaces
