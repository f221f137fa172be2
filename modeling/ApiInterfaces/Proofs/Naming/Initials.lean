import ApiInterfaces.Proofs.Naming.Identifier

/-!
How names begin. The texts that names are made from have their first character in upper case,
and so has every character that is kept behind a gap. A digit in front is put behind `_`. Hence
no name begins with a small letter or a digit of ASCII, whatever is dropped before its first
character.
-/

namespace ApiInterfaces

namespace Unicode

theorem isLower_iff {c : Char} : c.isLower = true ↔ 0x61 ≤ c.toNat ∧ c.toNat ≤ 0x7A := by
  delta Char.isLower
  rw [Bool.and_eq_true, decide_eq_true_eq, decide_eq_true_eq, ge_iff_le,
    UInt32.le_iff_toNat_le, UInt32.le_iff_toNat_le]
  rfl

/-- No mapping leads to a small letter of ASCII. -/
theorem mapsOutside_upper_lower : MapsOutside upperSequences upperRuns [(0x61, 0x7A)] where
  zero := by decide
  sequences := by decide +kernel
  runs := by decide +kernel

theorem not_isLower_of_mem_upper {c d : Char} (h : d ∈ upper c) : d.isLower = false := by
  rw [Bool.eq_false_iff, Ne, isLower_iff]
  intro hlower
  rcases mapsOutside_upper_lower.eq_or_avoids h with rfl | havoids
  · -- A small letter is not mapped to itself.
    rw [upper_of_ascii (by omega)] at h
    have hupper : d.toUpper ≠ d := @forall_ascii (fun c => 0x61 ≤ c.toNat ∧ c.toNat ≤ 0x7A →
      c.toUpper ≠ c) (by decide +kernel) d (by omega) hlower
    exact hupper (List.mem_singleton.mp h).symm
  · have hout := havoids (0x61, 0x7A) List.mem_cons_self
    omega

/-- Upper case deletes no character. -/
theorem upper_ne_nil (c : Char) : upper c ≠ [] := mapCase_ne_nil (by decide +kernel)

end Unicode

namespace Naming

/-- The text does not begin with a small letter of ASCII. -/
def Raised (cs : List Char) : Prop := ∀ c ∈ cs.head?, c.isLower = false

theorem raised_upper_append (c : Char) (rest : List Char) : Raised (Unicode.upper c ++ rest) := by
  obtain ⟨d, others, hupper⟩ := List.exists_cons_of_ne_nil (Unicode.upper_ne_nil c)
  intro first hfirst
  obtain rfl : d = first := by simpa [hupper] using hfirst
  exact Unicode.not_isLower_of_mem_upper (hupper ▸ List.mem_cons_self)

theorem raised_flatMap_capitalize (words : List (List Char)) :
    Raised (words.flatMap capitalize) := by
  induction words with
  | nil => simp [Raised]
  | cons word rest ih =>
      cases word with
      | nil => exact ih
      | cons c others =>
          rw [List.flatMap_cons, capitalize, List.append_assoc]
          exact raised_upper_append c _

/-- Characters dropped at the start leave the next one in upper case. -/
theorem raised_keepIdentifierChars {afterGap : Bool} {cs : List Char}
    (h : afterGap = false → Raised cs) : Raised (keepIdentifierChars afterGap cs) := by
  induction cs generalizing afterGap with
  | nil => simp [keepIdentifierChars, Raised]
  | cons c rest ih =>
      rw [keepIdentifierChars]
      split
      next =>
        cases afterGap with
        | true => exact raised_upper_append c _
        | false => simpa [Raised] using h rfl
      next => exact ih (by simp)

/-- The name begins with a character other than the small letters and the digits of ASCII. -/
def BeginsHigh (name : String) : Prop :=
  ∃ first rest, name.toList = first :: rest ∧ first.isLower = false ∧ first.isDigit = false

theorem beginsHigh_ofList {raw : List Char} (h : Raised raw) :
    BeginsHigh (String.ofList (identifierChars raw)) := by
  have hkept : Raised (keepIdentifierChars false raw) := raised_keepIdentifierChars fun _ => h
  unfold identifierChars
  split
  next => exact ⟨'S', "chema".toList, rfl, by decide, by decide⟩
  next first rest hraw =>
    rw [hraw] at hkept
    split
    next => exact ⟨'_', first :: rest, String.toList_ofList, by decide, by decide⟩
    next hdigit =>
      exact ⟨first, rest, String.toList_ofList, hkept first rfl, Bool.eq_false_iff.mpr hdigit⟩

/-- All names begin so, since a name made from another begins as this one does. -/
theorem preserves_beginsHigh : Preserves (fun _ => True) BeginsHigh where
  title title _ := beginsHigh_ofList (raised_flatMap_capitalize _)
  property outer property houter _ := by
    obtain ⟨first, rest, hname, hlower, -⟩ := houter
    apply beginsHigh_ofList
    simp [Raised, hname, hlower]
  path place _ := by
    apply beginsHigh_ofList
    rw [← List.flatMap_map String.toList capitalize]
    exact raised_flatMap_capitalize _
  numbered base n hbase := by
    obtain ⟨first, rest, hname, hfirst⟩ := hbase
    refine ⟨first, rest ++ Nat.toDigits 10 n, ?_, hfirst⟩
    rw [Registry.toList_numbered, hname, List.cons_append]

end Naming

end ApiInterfaces
