import ApiInterfaces.Proofs.Naming.Initials

/-!
Names that are made from names. A name made from another one is cleaned as a whole, so that it
begins with the other one only if nothing in this one is dropped. All characters of a name are
kept a second time unless some upper-case form holds a character that is not: the upper-case form
of `ǰ` is `J` with a caron behind it, which is no letter.
-/

namespace ApiInterfaces

namespace Unicode

/-- One of the ranges, which ascend, holds all numbers from `first` to `last`. -/
def spanned (first last : Nat) : List (Nat × Nat) → Bool
  | [] => false
  | (a, b) :: rest =>
    (a.ble first && last.ble b) || (a.ble b && b.blt first && spanned first last rest)

theorem inRanges_of_spanned {first last n : Nat} {ranges : List (Nat × Nat)}
    (h : spanned first last ranges = true) (hfirst : first ≤ n) (hlast : n ≤ last) :
    inRanges n ranges = true := by
  induction ranges with
  | nil => simp [spanned] at h
  | cons head rest ih =>
      obtain ⟨a, b⟩ := head
      simp only [spanned, Bool.or_eq_true, Bool.and_eq_true, Nat.ble_eq, Nat.blt_eq] at h
      rw [inRanges]
      rcases h with ⟨ha, hb⟩ | ⟨⟨hab, hb⟩, hrest⟩
      · rw [if_neg (by omega), if_pos (by omega)]
      · rw [if_neg (by omega), if_neg (by omega), ih hrest]

/-- The code point that a run leads to. -/
def CaseRun.image (run : CaseRun) (n : Nat) : Nat := ((n : Int) + run.shift).toNat

theorem isAlphanumeric_ofNat {n : Nat} (hvalid : n.isValidChar)
    (h : inRanges n alphabeticRanges = true) : isAlphanumeric (Char.ofNat n) = true := by
  have hcode : (Char.ofNat n).toNat = n := by
    rw [Char.ofNat, dif_pos hvalid]
    rfl
  simp only [isAlphanumeric, isAlphabetic, hcode, h, Bool.true_or]

/-- An upper-case form that is not the character itself begins with a letter. -/
theorem eq_or_isAlphanumeric_of_mem_head_upper {c d : Char} (h : d ∈ (upper c).head?) :
    d = c ∨ isAlphanumeric d = true := by
  have hsequences : ∀ entry ∈ upperSequences, ∀ code ∈ entry.2.head?,
      code.isValidChar ∧ inRanges code alphabeticRanges = true := by decide +kernel
  have hvalid : ∀ run ∈ upperRuns, run.image run.last < 0xD800 ∨
      0xDFFF < run.image run.first ∧ run.image run.last < 0x110000 := by decide +kernel
  -- A run leads into one range of letters, or its entries do one by one.
  have hruns : ∀ run ∈ upperRuns,
      spanned (run.image run.first) (run.image run.last) alphabeticRanges = true ∨
      ∀ k < run.last + 1 - run.first, k % run.stride = 0 →
        inRanges (run.image (run.first + k)) alphabeticRanges = true := by decide +kernel
  obtain ⟨entry, hentry, -, hmapped⟩ | ⟨run, hrun, code, hshifted, hmapped⟩ | ⟨-, hmapped⟩ :=
    mapCase_cases upperSequences upperRuns c
  · rw [upper, hmapped, List.head?_map] at h
    obtain ⟨code, hcode, rfl⟩ := Option.map_eq_some_iff.mp h
    obtain ⟨hscalar, hletter⟩ := hsequences entry hentry code hcode
    exact .inr (isAlphanumeric_ofNat hscalar hletter)
  · rw [upper, hmapped] at h
    obtain rfl : Char.ofNat code = d := by simpa using h
    obtain ⟨hfirst, hlast, hstride, hcode⟩ := CaseRun.shifted?_eq_some hshifted
    have hbounds : run.image run.first ≤ code ∧ code ≤ run.image run.last := by
      simp only [CaseRun.image, hcode]
      omega
    right
    apply isAlphanumeric_ofNat
    · have hscalar := hvalid run hrun
      rw [Nat.isValidChar]
      omega
    · rcases hruns run hrun with hspanned | hall
      · exact inRanges_of_spanned hspanned hbounds.1 hbounds.2
      · have hletter := hall (c.toNat - run.first) (by omega) hstride
        rwa [Nat.add_sub_cancel' hfirst, CaseRun.image, ← hcode] at hletter
  · rw [upper, hmapped] at h
    exact .inl (by simpa using h.symm)

end Unicode

namespace Naming

/-- Cleaning leaves a text as it is in front of any other if all its characters are kept. -/
theorem keepIdentifierChars_append {kept : List Char}
    (h : ∀ c ∈ kept, isIdentifierChar c = true) (rest : List Char) :
    keepIdentifierChars false (kept ++ rest) = kept ++ keepIdentifierChars false rest := by
  induction kept with
  | nil => rfl
  | cons c others ih =>
      have hothers := ih fun d hd => h d (List.mem_cons_of_mem c hd)
      rw [List.cons_append, keepIdentifierChars, if_pos (h c List.mem_cons_self), hothers]
      rfl

/-- A cleaned text begins with a character that is kept. -/
theorem isIdentifierChar_head_keepIdentifierChars {afterGap : Bool} {cs : List Char} {c : Char}
    (h : c ∈ (keepIdentifierChars afterGap cs).head?) : isIdentifierChar c = true := by
  induction cs generalizing afterGap with
  | nil => simp [keepIdentifierChars] at h
  | cons d rest ih =>
      rw [keepIdentifierChars] at h
      split at h
      next hd =>
        cases afterGap with
        | true =>
            obtain ⟨first, others, hupper⟩ := List.exists_cons_of_ne_nil (Unicode.upper_ne_nil d)
            obtain rfl : first = c := by simpa [hupper] using h
            have hfirst : first ∈ (Unicode.upper d).head? := by simp [hupper]
            rcases Unicode.eq_or_isAlphanumeric_of_mem_head_upper hfirst with rfl | hletter
            · exact hd
            · simp [isIdentifierChar, hletter]
        | false =>
            obtain rfl : d = c := by simpa using h
            exact hd
      next => exact ih h

theorem isIdentifierChar_of_prefix_keepIdentifierChars {outer rest : List Char}
    (h : outer <+: keepIdentifierChars false (outer ++ rest)) :
    ∀ c ∈ outer, isIdentifierChar c = true := by
  induction outer with
  | nil => simp
  | cons c others ih =>
      rw [List.cons_append, keepIdentifierChars] at h
      split at h
      next hc =>
        have hothers := ih (List.cons_prefix_cons.mp h).2
        intro d hd
        rcases List.mem_cons.mp hd with rfl | hd
        · exact hc
        · exact hothers d hd
      next hc =>
        -- The first character is dropped, so that another one stands in its place.
        obtain ⟨behind, hcleaned⟩ := h
        have hfirst := isIdentifierChar_head_keepIdentifierChars
          (show c ∈ (keepIdentifierChars true (others ++ rest)).head? by simp [← hcleaned])
        exact absurd hfirst hc

/-- A name made of another name and a text begins with the other name if and only if all
characters of this one are kept. -/
theorem prefix_identifierChars_iff {outer rest : List Char}
    (hdigit : ∀ c ∈ outer.head?, c.isDigit = false) :
    outer <+: identifierChars (outer ++ rest) ↔ ∀ c ∈ outer, isIdentifierChar c = true := by
  constructor
  · intro h
    unfold identifierChars at h
    split at h
    next =>
      have hfallback : fallback.all isIdentifierChar = true := by decide
      intro c hc
      exact List.all_eq_true.mp hfallback c (h.subset hc)
    next first others hkept =>
      split at h
      next hfirst =>
        -- Only `_` itself can stand in front of a name that is put behind `_`.
        cases outer with
        | nil => simp
        | cons c inside =>
            obtain rfl : c = '_' := (List.cons_prefix_cons.mp h).1
            rw [List.cons_append, keepIdentifierChars, if_pos (by decide)] at hkept
            obtain rfl : '_' = first := (List.cons.inj hkept).1
            exact absurd hfirst (by decide)
      next => exact isIdentifierChar_of_prefix_keepIdentifierChars (hkept ▸ h)
  · intro h
    cases outer with
    | nil => exact List.nil_prefix
    | cons c inside =>
        have hfirst : c.isDigit = false := hdigit c rfl
        have hkept := keepIdentifierChars_append h rest
        rw [List.cons_append] at hkept
        rw [identifierChars, List.cons_append, hkept]
        simp [hfirst]

namespace IdentifierSyntax

/-- The identifiers of which cleaning drops no character. -/
def kept : IdentifierSyntax where
  start c := isIdentifierChar c = true ∧ c.isDigit = false
  part c := isIdentifierChar c = true
  part_of_start c hc := hc.1
  letter c hc := by
    have hascii : c.toNat < 128 := ascii_of_isAlphanum (by simp [Char.isAlphanum, hc])
    exact @Unicode.forall_ascii (fun c => c.isAlpha = true →
      isIdentifierChar c = true ∧ c.isDigit = false) (by decide +kernel) c hascii hc
  digit c hc := by
    have hascii : c.toNat < 128 := ascii_of_isAlphanum (by simp [Char.isAlphanum, hc])
    exact @Unicode.forall_ascii (fun c => c.isDigit = true → isIdentifierChar c = true)
      (by decide +kernel) c hascii hc
  underscore := by decide
  dollar := by decide

theorem isIdentifierChar_of_legal_kept {name : String} (h : kept.Legal name) :
    ∀ c ∈ name.toList, isIdentifierChar c = true := by
  obtain ⟨first, rest, hname, hfirst, hrest⟩ := h
  rw [hname]
  intro c hc
  rcases List.mem_cons.mp hc with rfl | hc
  · exact hfirst.1
  · exact hrest c hc

end IdentifierSyntax

end Naming

end ApiInterfaces
