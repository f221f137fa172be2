import ApiInterfaces.Proofs.Unicode.Blank
import ApiInterfaces.Proofs.Yaml.Value
import Mathlib.Data.List.TakeWhile

/-!
The texts of keys. A key has the text of its value without tags. No collection has the text of a
number, of a truth value or of null, so a scalar has the text of another key only where one of the
two is a text that spells the other, or where they differ in their tags.
-/

namespace ApiInterfaces

namespace Yaml

namespace Value

/-! ### Tags -/

/-- A value without its tags. -/
def bare : Value → Value
  | .tagged _ v => v.bare
  | v => v

/-- The tags of a value. -/
def tags : Value → List String
  | .tagged tag v => tag :: v.tags
  | _ => []

/-- Whether a value is no collection, with or without tags. -/
def isScalar (v : Value) : Bool :=
  match v.bare with
  | .sequence _ | .mapping _ => false
  | _ => true

theorem keyText_bare (v : Value) : v.bare.keyText = v.keyText := by
  cases v with
  | tagged tag v => exact keyText_bare v
  | _ => rfl

theorem IsPlain.bare_eq {v : Value} (h : v.IsPlain) : v.bare = v := by
  cases h <;> rfl

theorem WellFormed.bare_cases {v : Value} (h : v.WellFormed) :
    v.bare.IsPlain ∨ (∃ s, v.bare = .text s) ∨ v.isScalar = false := by
  induction h with
  | plain hplain =>
      rw [hplain.bare_eq]
      exact .inl hplain
  | text s => exact .inr (.inl ⟨s, rfl⟩)
  | sequence _ _ => exact .inr (.inr rfl)
  | mapping _ _ _ _ _ => exact .inr (.inr rfl)
  | tagged tag _ ih => exact ih

theorem WellFormed.isPlain_bare {v : Value} (h : v.WellFormed) (hscalar : v.isScalar = true)
    (hnotText : ∀ s, v.bare ≠ .text s) : v.bare.IsPlain := by
  rcases h.bare_cases with hplain | ⟨s, hs⟩ | hcollection
  · exact hplain
  · exact absurd hs (hnotText s)
  · rw [hscalar] at hcollection
    simp at hcollection

/-- Nothing is lost of a value if its tags are taken off and kept. -/
theorem eq_of_tags_of_bare {a b : Value} (htags : a.tags = b.tags) (hbare : a.bare = b.bare) :
    a = b := by
  cases a with
  | tagged tag v =>
      cases b with
      | tagged other w =>
          obtain ⟨rfl, hrest⟩ := List.cons.inj htags
          rw [eq_of_tags_of_bare hrest hbare]
      | _ => simp [tags] at htags
  | _ =>
      cases b with
      | tagged other w => simp [tags] at htags
      | _ => exact hbare

theorem same_self {v : Value} (h : v.isScalar = true) : v.same v = true := by
  cases v with
  | tagged tag v =>
      have hsame : v.same v = true := same_self h
      simp [same, hsame]
  | sequence items => simp [isScalar, bare] at h
  | mapping entries => simp [isScalar, bare] at h
  | double x => cases x <;> simp [same, Double.same]
  | _ => simp [same]

end Value

/-! ### Characters of scalars -/

/-- Characters in the texts of the scalars that are no texts. -/
def isPlainChar (c : Char) : Bool := c.isAlphanum || ['.', '-', '+'].contains c

theorem isPlainChar_of_isDigit {c : Char} (h : c.isDigit = true) : isPlainChar c = true := by
  simp [isPlainChar, Char.isAlphanum, h]

theorem isPlainChar_of_exponent? {text : List Char} {e : Int}
    (h : Json.Token.exponent? text = some e) : ∀ c ∈ text, isPlainChar c = true := by
  have hpositive {digits : List Char} {n : Int}
      (hread : Json.Token.exponent?.positive digits = some n) :
      ∀ c ∈ digits, isPlainChar c = true := by
    unfold Json.Token.exponent?.positive at hread
    split at hread
    next hdigits =>
      exact fun c hc => isPlainChar_of_isDigit (List.all_eq_true.mp hdigits.2 c hc)
    next => simp at hread
  unfold Json.Token.exponent? at h
  split at h
  next digits => exact List.forall_mem_cons.mpr ⟨by decide, hpositive h⟩
  next digits =>
    obtain ⟨n, hn, -⟩ := Option.map_eq_some_iff.mp h
    exact List.forall_mem_cons.mpr ⟨by decide, hpositive hn⟩
  next => exact hpositive h

theorem EndsIn.isPlainChar {text : List Char} {e : Int} (h : EndsIn text e) :
    ∀ c ∈ text, isPlainChar c = true := by
  cases h with
  | nothing => simp
  | power hpower => exact List.forall_mem_cons.mpr ⟨by decide, isPlainChar_of_exponent? hpower⟩

theorem Writes.isPlainChar {text : List Char} {d : Decimal} (h : Writes text d) :
    ∀ c ∈ text, isPlainChar c = true := by
  have hdigits {digits : List Char} (hall : ∀ c ∈ digits, c.isDigit = true) :
      ∀ c ∈ digits, Yaml.isPlainChar c = true := fun c hc => isPlainChar_of_isDigit (hall c hc)
  cases h with
  | pointed _ hwhole hfraction hbehind =>
      exact List.forall_mem_append.mpr ⟨hdigits hwhole, List.forall_mem_cons.mpr ⟨by decide,
        List.forall_mem_append.mpr ⟨hdigits hfraction, hbehind.isPlainChar⟩⟩⟩
  | integral _ hwhole hpower =>
      exact List.forall_mem_append.mpr ⟨hdigits hwhole, List.forall_mem_cons.mpr ⟨by decide,
        isPlainChar_of_exponent? hpower⟩⟩

namespace Value

theorem IsPlain.isPlainChar {v : Value} (h : v.IsPlain) :
    ∀ c ∈ v.keyText.toList, isPlainChar c = true := by
  cases h with
  | null => exact List.all_eq_true.mp rfl
  | bool b => cases b <;> exact List.all_eq_true.mp rfl
  | integer _ _ =>
      rw [keyText, toList_toString]
      split
      next => exact fun c hc => isPlainChar_of_isDigit (isDigit_toDigits _ c hc)
      next =>
        exact List.forall_mem_cons.mpr ⟨by decide, fun c hc =>
          isPlainChar_of_isDigit (isDigit_toDigits _ c hc)⟩
  | finite hx =>
      obtain ⟨body, d, htext, hwrites, -⟩ := exists_writes_text hx
      rw [keyText, Double.text, htext]
      refine List.forall_mem_append.mpr ⟨?_, hwrites.isPlainChar⟩
      split <;> exact List.all_eq_true.mp rfl
  | infinite negative => cases negative <;> exact List.all_eq_true.mp rfl
  | undefined => exact List.all_eq_true.mp rfl

theorem IsPlain.ne_text {v : Value} (h : v.IsPlain) (s : String) : v ≠ .text s := by
  rintro rfl
  cases h

/-- A dash alone is a text. -/
theorem IsPlain.keyText_ne_dash {v : Value} (h : v.IsPlain) : v.keyText ≠ "-" := by
  intro heq
  have hread := h.plainValue?_keyText
  rw [heq, show plainValue? "-" = some (.text "-") from rfl] at hread
  exact h.ne_text "-" (Option.some.inj hread).symm

/-! ### Characters of collections -/

/-- Whether a text is none of a scalar other than a text. -/
def IsBlockText (cs : List Char) : Prop := cs = ['-'] ∨ ∃ c ∈ cs, isPlainChar c = false

theorem isBlockText_trimEnd_of_mem {cs : List Char} {c : Char} (h : c ∈ cs)
    (hblank : Unicode.isBlank c = false) (hplain : isPlainChar c = false) :
    IsBlockText (Unicode.trimEnd cs) := .inr ⟨c, Unicode.mem_trimEnd h hblank, hplain⟩

/-- The mark of an item is a dash and a blank, of which the blank may be taken off. -/
theorem isBlockText_trimEnd_item (cs : List Char) :
    IsBlockText (Unicode.trimEnd ('-' :: ' ' :: cs)) := by
  obtain ⟨blanks, hcs, hblanks⟩ := Unicode.exists_blanks_trimEnd ('-' :: ' ' :: cs)
  have hdash : '-' ∈ Unicode.trimEnd ('-' :: ' ' :: cs) :=
    Unicode.mem_trimEnd List.mem_cons_self (by decide)
  generalize Unicode.trimEnd ('-' :: ' ' :: cs) = left at hcs hdash
  match left with
  | [] => simp at hdash
  | [c] =>
      obtain ⟨rfl, -⟩ := List.cons.inj hcs
      exact .inl rfl
  | c :: d :: rest =>
      obtain ⟨-, hrest⟩ := List.cons.inj hcs
      obtain ⟨rfl, -⟩ := List.cons.inj hrest
      exact .inr ⟨' ', by simp, by decide⟩

theorem exists_lead_eq (front : String) (lines : List String) :
    ∃ line rest, lead front lines = (front ++ line) :: rest := by
  cases lines with
  | nil => exact ⟨"", [], by rw [lead, String.append_empty]⟩
  | cons line rest => exact ⟨line, rest, rfl⟩

theorem exists_toList_intercalate (line : String) (rest : List String) :
    ∃ behind, (String.intercalate "\n" (line :: rest)).toList = line.toList ++ behind := by
  cases rest with
  | nil => exact ⟨[], by simp⟩
  | cons next rest =>
      rw [String.intercalate_cons_cons, String.toList_append, String.toList_append,
        List.append_assoc]
      exact ⟨_, rfl⟩

theorem isBlockText_keyText_sequence (items : List Value) :
    IsBlockText (sequence items).keyText.toList := by
  have hkey : (sequence items).keyText.toList =
      Unicode.trimEnd (sequence items).blockText.toList :=
    String.toList_ofList
  rw [hkey]
  cases items with
  | nil => exact .inr ⟨'[', by decide, by decide⟩
  | cons item rest =>
      obtain ⟨line, more, hlead⟩ := exists_lead_eq "- " (item.lines false 2)
      have hlines : (sequence (item :: rest)).lines false 0 =
          ("- " ++ line) :: (more ++ itemLines 0 rest) := by
        rw [lines, hlead, List.cons_append]
      obtain ⟨behind, htext⟩ := exists_toList_intercalate ("- " ++ line) (more ++ itemLines 0 rest)
      rw [blockText, hlines, htext, String.toList_append]
      exact isBlockText_trimEnd_item _

/-- The first line of a mapping has the mark of a long key or the colon of a short one. -/
theorem exists_mark_of_lines_mapping (entry : Value × Value) (rest : List (Value × Value)) :
    ∃ line more, (mapping (entry :: rest)).lines false 0 = line :: more ∧
      ∃ c ∈ line.toList, c = ':' ∨ c = '?' := by
  obtain ⟨key, value⟩ := entry
  rw [lines]
  split
  next =>
    unfold underKey
    split
    next => exact ⟨_, _, rfl, ':', by simp, .inl rfl⟩
    next =>
      obtain ⟨line, more, hlead⟩ := exists_lead_eq
        (String.join (key.lines true 0) ++ ": ")
        (value.lines false (if value.isBlock then value.columnUnder 0 else 0 + 2))
      rw [hlead]
      exact ⟨_, _, rfl, ':', by simp, .inl rfl⟩
  next =>
    obtain ⟨line, more, hlead⟩ := exists_lead_eq "? " (key.lines false (key.columnAfterMark 0))
    rw [hlead]
    exact ⟨_, _, rfl, '?', by simp, .inr rfl⟩

theorem isBlockText_keyText_mapping (entries : List (Value × Value)) :
    IsBlockText (mapping entries).keyText.toList := by
  have hkey : (mapping entries).keyText.toList =
      Unicode.trimEnd (mapping entries).blockText.toList :=
    String.toList_ofList
  rw [hkey]
  cases entries with
  | nil => exact .inr ⟨'\x7b', by decide, by decide⟩
  | cons entry rest =>
      obtain ⟨line, more, hlines, c, hc, hmark⟩ := exists_mark_of_lines_mapping entry rest
      obtain ⟨behind, htext⟩ := exists_toList_intercalate line more
      rw [blockText, hlines, htext]
      rcases hmark with rfl | rfl
      · exact isBlockText_trimEnd_of_mem (List.mem_append_left _ hc) (by decide) (by decide)
      · exact isBlockText_trimEnd_of_mem (List.mem_append_left _ hc) (by decide) (by decide)

/-- No collection has the text of a scalar that is no text. -/
theorem IsPlain.isScalar_of_keyText_eq {v w : Value} (hv : v.IsPlain) (h : v.keyText = w.keyText) :
    w.isScalar = true := by
  have hnotBlock : ¬ IsBlockText w.bare.keyText.toList := by
    rw [keyText_bare, ← h]
    rintro (hdash | ⟨c, hc, hplain⟩)
    · exact hv.keyText_ne_dash (String.toList_injective hdash)
    · rw [hv.isPlainChar c hc] at hplain
      simp at hplain
  unfold isScalar
  split
  next items heq =>
    rw [heq] at hnotBlock
    exact absurd (isBlockText_keyText_sequence items) hnotBlock
  next entries heq =>
    rw [heq] at hnotBlock
    exact absurd (isBlockText_keyText_mapping entries) hnotBlock
  next => rfl

/-! ### Keys with one text -/

/-- Whether a value is a text, and spells another value that is none. -/
def Spells (a b : Value) : Prop := a.bare = .text b.keyText ∧ ∀ s, b.bare ≠ .text s

theorem keyText_of_bare_eq_text {v : Value} {s : String} (h : v.bare = .text s) :
    v.keyText = s := by
  rw [← keyText_bare, h, keyText]

theorem Spells.keyText_eq {a b : Value} (h : a.Spells b) : a.keyText = b.keyText :=
  keyText_of_bare_eq_text h.1

theorem isScalar_of_bare_eq {a b : Value} (h : a.bare = b.bare) (ha : a.isScalar = true) :
    b.isScalar = true := by
  rwa [isScalar, ← h, ← isScalar]

/-- Values that are no texts have one text only if they are one value. -/
theorem bare_eq_of_keyText_eq {a b : Value} (ha : a.bare.IsPlain) (hb : b.WellFormed)
    (hnotText : ∀ s, b.bare ≠ .text s) (h : a.keyText = b.keyText) : a.bare = b.bare := by
  rw [← keyText_bare] at h
  rcases hb.bare_cases with hplain | ⟨s, hs⟩ | hcollection
  · have hread := ha.plainValue?_keyText
    rw [h, ← keyText_bare b, hplain.plainValue?_keyText] at hread
    exact (Option.some.inj hread).symm
  · exact absurd hs (hnotText s)
  · rw [ha.isScalar_of_keyText_eq h] at hcollection
    simp at hcollection

/-- A scalar has the text of another key in two cases only. -/
theorem keyText_eq_iff {a b : Value} (ha : a.WellFormed) (hb : b.WellFormed)
    (hscalar : a.isScalar = true ∨ b.isScalar = true) :
    a.keyText = b.keyText ↔ a.bare = b.bare ∨ a.Spells b ∨ b.Spells a := by
  constructor
  · intro heq
    by_cases hatext : ∃ s, a.bare = .text s
    · obtain ⟨s, hs⟩ := hatext
      by_cases hbtext : ∃ t, b.bare = .text t
      · obtain ⟨t, ht⟩ := hbtext
        rw [keyText_of_bare_eq_text hs, keyText_of_bare_eq_text ht] at heq
        exact .inl (by rw [hs, ht, heq])
      · rw [keyText_of_bare_eq_text hs] at heq
        exact .inr (.inl ⟨heq ▸ hs, not_exists.mp hbtext⟩)
    · by_cases hbtext : ∃ t, b.bare = .text t
      · obtain ⟨t, ht⟩ := hbtext
        rw [keyText_of_bare_eq_text ht] at heq
        exact .inr (.inr ⟨heq ▸ ht, not_exists.mp hatext⟩)
      · left
        rw [not_exists] at hatext hbtext
        rcases hscalar with hscalar | hscalar
        · exact bare_eq_of_keyText_eq (ha.isPlain_bare hscalar hatext) hb hbtext heq
        · exact (bare_eq_of_keyText_eq (hb.isPlain_bare hscalar hbtext) ha hatext heq.symm).symm
  · rintro (hbare | hspells | hspells)
    · rw [← keyText_bare a, hbare, keyText_bare]
    · exact hspells.keyText_eq
    · exact hspells.keyText_eq.symm

/-- Two collections can have one text without that, since blanks are taken off the end. -/
example : (sequence [.text "a\n\n"]).keyText = (sequence [.text "a\n\n\n"]).keyText := by
  decide +kernel

theorem pairwise_of_distinctKeys {entries : List (Value × Value)}
    (h : distinctKeys entries = true) :
    entries.Pairwise fun a b => a.1.same b.1 = false := by
  induction entries with
  | nil => exact .nil
  | cons entry rest ih =>
      rw [distinctKeys, Bool.and_eq_true, Bool.not_eq_true', List.any_eq_false] at h
      obtain ⟨hfirst, hrest⟩ := h
      exact .cons (fun other hother => by simpa using hfirst other hother) (ih hrest)

/-- A scalar among the keys of a mapping has the text of another key in two cases only. -/
theorem pairwise_keyText_eq_iff {entries : List (Value × Value)}
    (h : (mapping entries).WellFormed) :
    entries.Pairwise fun a b => a.1.isScalar = true ∨ b.1.isScalar = true →
      (a.1.keyText = b.1.keyText ↔
        a.1.bare = b.1.bare ∧ a.1.tags ≠ b.1.tags ∨ a.1.Spells b.1 ∨ b.1.Spells a.1) := by
  cases h with
  | plain hplain => cases hplain
  | mapping hdistinct hkeys _ =>
      refine (pairwise_of_distinctKeys hdistinct).imp_of_mem ?_
      intro a b hmem hmem' hnotSame hscalar
      have htags : a.1.bare = b.1.bare → a.1.tags ≠ b.1.tags := by
        intro hbare htags
        have hfirst : a.1.isScalar = true := hscalar.elim id (isScalar_of_bare_eq hbare.symm)
        rw [← eq_of_tags_of_bare htags hbare, same_self hfirst] at hnotSame
        simp at hnotSame
      rw [keyText_eq_iff (hkeys a hmem) (hkeys b hmem') hscalar]
      constructor
      · exact Or.imp_left fun hbare => ⟨hbare, htags hbare⟩
      · exact Or.imp_left And.left

end Value

end Yaml

end ApiInterfaces
