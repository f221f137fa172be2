import ApiInterfaces.Naming.Identifier
import ApiInterfaces.Proofs.Interface.Scan
import ApiInterfaces.Proofs.Naming.Freshness
import ApiInterfaces.Proofs.Unicode.Casing

/-!
Names and the scanner. No character of a name begins a comment or a quoted text, since
a name is made of identifier characters, of their upper-case forms and of digits.
-/

namespace ApiInterfaces

open Scan

namespace Unicode

theorem isInert_of_avoids {c : Char} (h : Avoids [(0x1, 0x2F)] c.toNat) : isInert c = true := by
  have hrange := h (0x1, 0x2F) List.mem_cons_self
  have hne : ∀ d : Char, 0 < d.toNat → d.toNat ≤ 0x2F → c ≠ d := by
    rintro d hpos hle rfl
    omega
  simp [isInert, hne]

/-- No mapping in the tables leads down to the slash or below it. -/
theorem mapsOutside_upper : MapsOutside upperSequences upperRuns [(0x1, 0x2F)] where
  zero := by decide
  sequences := by decide +kernel
  runs := by decide +kernel

/-- Upper-case forms stand behind the slash and the quotes in the order of characters. -/
theorem isInert_of_mem_upper {c d : Char} (hc : isInert c = true) (hd : d ∈ upper c) :
    isInert d = true := by
  rcases mapsOutside_upper.eq_or_avoids hd with rfl | havoids
  · exact hc
  · exact isInert_of_avoids havoids

end Unicode

namespace Naming

/-- No character of the name begins a comment or a quoted text. -/
def IsInertName (name : String) : Prop := name.toList.all isInert = true

theorem isInert_of_mem_keepIdentifierChars {afterGap : Bool} {cs : List Char} {c : Char}
    (h : c ∈ keepIdentifierChars afterGap cs) : isInert c = true := by
  induction cs generalizing afterGap with
  | nil => simp [keepIdentifierChars] at h
  | cons d rest ih =>
      rw [keepIdentifierChars] at h
      split at h
      next hd =>
        have hinert : isInert d = true := isInert_of_class (by decide) hd
        rcases List.mem_append.mp h with h | h
        · split at h
          next => exact Unicode.isInert_of_mem_upper hinert h
          next =>
            obtain rfl := List.mem_singleton.mp h
            exact hinert
        · exact ih h
      next => exact ih h

theorem isInert_of_mem_identifierChars {raw : List Char} {c : Char}
    (h : c ∈ identifierChars raw) : isInert c = true := by
  have hkept := @isInert_of_mem_keepIdentifierChars false raw
  unfold identifierChars at h
  split at h
  next =>
    have hfallback : fallback.all isInert = true := by decide
    exact List.all_eq_true.mp hfallback c h
  next first rest hraw =>
    rw [hraw] at hkept
    split at h
    next =>
      rcases List.mem_cons.mp h with rfl | h
      · decide
      · exact hkept h
    next => exact hkept h

theorem isInertName_ofList {raw : List Char} :
    IsInertName (String.ofList (identifierChars raw)) := by
  rw [IsInertName, String.toList_ofList]
  exact List.all_eq_true.mpr fun c hc => isInert_of_mem_identifierChars hc

theorem isInertName_numbered {base : String} (h : IsInertName base) (n : Nat) :
    IsInertName (Registry.numbered base n) := by
  have hdigits : (Nat.toDigits 10 n).all isInert = true := by
    refine List.all_eq_true.mpr fun c hc => ?_
    exact isInert_of_class (by decide) (Nat.isDigit_of_mem_toDigits (by decide) (by decide) hc)
  rw [IsInertName, Registry.toList_numbered, List.all_append, h, hdigits]
  rfl

end Naming

end ApiInterfaces
